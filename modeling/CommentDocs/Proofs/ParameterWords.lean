import Mathlib.Data.List.TakeWhile
import CommentDocs.Proofs.BlankLines

/-!
# The words of a parameter

A parameter is written as a name, a type and a description with gaps between them.  It is read as
the longest run of word characters, the longest run of type characters after it, and the rest.  That
a gap is between these runs is not asked, so a word that is no name, or no type, may be taken apart.

* `ParameterLine`: a line with two words after an attribute that takes a parameter.
* `Record.Takes`: an item of a record that was read from the start of certain lines on.
* `Reader.items_upTo`: no item is read across the start of a line that starts with a sign, so that
  something is taken from each of them (`parse_takes`).
* `Reader.parameter_on_line`: which characters make up the name and the type.
* `parse_parameterLine`: the name and the type are the two words exactly if these are a name and a
  type.
-/

set_option autoImplicit false

namespace CommentDocs

open Text (Outside isGap)

/-- A text of one or more characters of the class. -/
def Text.IsStretch (p : Char → Bool) (t : Text) : Prop := t ≠ [] ∧ ∀ c ∈ t, p c = true

instance (p : Char → Bool) (t : Text) : Decidable (t.IsStretch p) :=
  decidable_of_iff (t ≠ [] ∧ t.all p = true) (by rw [Text.IsStretch, List.all_eq_true])

theorem Text.IsStretch.starts {p : Char → Bool} {t : Text} (h : t.IsStretch p) (u : Text) :
    ∀ c, (t ++ u).head? = some c → p c = true := by
  obtain ⟨a, t, rfl⟩ := List.exists_cons_of_ne_nil h.1
  rintro c ⟨⟩
  exact h.2 a List.mem_cons_self

theorem Text.IsStretch.outside {p : Char → Bool} {t : Text} (h : t.IsStretch fun c => !p c)
    (u : Text) : Outside p (t ++ u) :=
  fun c hc => by simpa using h.starts u c hc

/-- The item that an attribute with a parameter says. -/
def Keyword.parameterItem : Keyword → Parameter → Item
  | .column, p => .column p
  | _, p => .param p

/-- A line with an attribute that takes a parameter and two words after it, whatever these are. -/
structure ParameterLine where
  keyword : Keyword
  gap : Text
  first : Text
  gap' : Text
  second : Text
  rest : Text
  takes : keyword = .param ∨ keyword = .column
  gap_run : gap.IsStretch isGap
  first_run : first.IsStretch fun c => !isGap c
  gap'_run : gap'.IsStretch isGap
  second_run : second.IsStretch fun c => !isGap c
  /-- The second word ends where a gap or the end of the line does. -/
  rest_gap : ∀ c, rest.head? = some c → isGap c = true

namespace ParameterLine

/-- What stands after the name of the attribute. -/
def tail (l : ParameterLine) : Text := l.gap ++ (l.first ++ (l.gap' ++ (l.second ++ l.rest)))

/-- The whole line. -/
def text (l : ParameterLine) : Text := '@' :: (l.keyword.spelling ++ l.tail)

end ParameterLine

/-- The record is read from the lines with the given item taken where the lines `tail` start: the
items of the whole batch come down to those that were read by then and those that a reader reads
there, of which it is the first. -/
def Record.Takes (origin : Text) (lines tail : List Text) (record : Record) (item : Item) : Prop :=
  ∃ (kind : RecordKind) (name : Option Text) (done more : List Item) (r : Reader),
    (Reader.start lines).heading.1 = .ok (kind, name) ∧
    ((Reader.start lines).heading.2.items kind).1 = .ok (done ++ item :: more) ∧
    record = Record.ofItems kind name origin (done ++ item :: more) ∧
    r.Stands tail ∧ (r.items kind).1 = .ok (item :: more)

/-! ## Readings that succeed -/

namespace Reading

variable {α β : Type} {x : Reading α} {b : β}

theorem andThen_eq_ok {f : α → Reader → Reading β} (h : (x.andThen f).1 = .ok b) :
    ∃ a, x.1 = .ok a ∧ (f a x.2).1 = .ok b := by
  obtain ⟨e | a, r⟩ := x
  · cases h
  · exact ⟨a, rfl, h⟩

theorem map_eq_ok {f : α → β} (h : (x.map f).1 = .ok b) : ∃ a, x.1 = .ok a ∧ f a = b := by
  obtain ⟨a, ha, hb⟩ := andThen_eq_ok h
  exact ⟨a, ha, by cases hb; rfl⟩

theorem Reads.meets {a : α} {rest : List Text} {P : α → Reader → Prop} {E : Fault → Prop}
    (hx : x.Reads a rest) (hp : ∀ r : Reader, r.At rest → P a r) : x.Meets P E := by
  obtain ⟨value, r⟩ := x
  obtain ⟨hv, hr⟩ := hx
  cases hv
  exact hp r hr

end Reading

namespace Reader

variable {r : Reader} {kind : RecordKind} {line t : Text} {after mid more tail : List Text}

/-! ## Readers before a line -/

/-- The reader is on a line before the given ones. -/
def Before (tail : List Text) (r : Reader) : Prop := ∃ line mid, r.At (line :: (mid ++ tail))

/-- The next item of the reader starts before the given lines, or with the first of them. -/
def UpTo (tail : List Text) (r : Reader) : Prop := ∃ mid, r.Stands (mid ++ tail)

theorem Before.upTo (h : r.Before tail) : r.UpTo tail := by
  obtain ⟨line, mid, hat⟩ := h
  cases line with
  | nil => exact ⟨mid, AtLineEnd.stands (.inl hat)⟩
  | cons a t => exact ⟨(a :: t) :: mid, hat.stands⟩

/-- A token is on the line, or it is an end that may be put back. -/
def ScansBefore (tail : List Text) (x : Token × Reader) : Prop :=
  (x.1.kind = .lineEnd ∨ x.1.kind = .batchEnd) ∧ (x.2.unscan x.1).UpTo tail ∨
    x.1.kind ≠ .lineEnd ∧ x.1.kind ≠ .batchEnd ∧ x.2.Before tail

theorem Before.scan (h : r.Before tail) : ScansBefore tail r.scan := by
  obtain ⟨line, mid, hat⟩ := h
  cases line with
  | nil =>
    obtain ⟨hk, hstands⟩ := hat.scan_end
    refine .inl ⟨?_, mid, hstands⟩
    rw [hk]
    cases mid ++ tail with
    | nil => exact .inr rfl
    | cons l lines => exact .inl rfl
  | cons a t =>
    obtain ⟨kind, _, left, hline, hend, hscan⟩ := scan_on_line a t
    obtain ⟨hk, _, hat'⟩ := hscan r _ hat
    exact .inr ⟨hk ▸ hline, hk ▸ hend, left, mid, hat'⟩

theorem Before.scanPastGap (h : r.Before tail) : ScansBefore tail r.scanPastGap := by
  unfold Reader.scanPastGap
  simp only
  split
  · rename_i hg
    obtain ⟨hends, _⟩ | ⟨_, _, hbefore⟩ := h.scan
    · simp [hg] at hends
    · exact hbefore.scan
  · exact h.scan

/-- What is read leaves the reader on a line before the given ones. -/
abbrev Stays {α : Type} (tail : List Text) (x : Reading α) : Prop :=
  x.Meets (fun _ r => r.Before tail) fun _ => True

theorem word_stays (h : r.Before tail) : Stays tail r.word := by
  unfold word
  simp only
  split
  · rename_i hw
    obtain ⟨hends, _⟩ | ⟨_, _, hbefore⟩ := h.scanPastGap
    · simp [hw] at hends
    · exact hbefore
  · trivial

theorem typeName_stays (h : r.Before tail) : Stays tail r.typeName := by
  obtain ⟨line, mid, hat⟩ := h
  obtain ⟨hreads, hfails⟩ := typeName_on_line hat
  by_cases hname : (line.dropWhile isGap).takeWhile isTypeChar = []
  · obtain ⟨e, s, he⟩ := hfails hname
    rw [Stays, he]
    trivial
  · exact (hreads hname).meets fun s hs => ⟨_, mid, hs⟩

/-- A text run ends before a line that ends runs. -/
theorem runFrom_stays (htail : StopsRun tail) (mid : List Text) :
    ∀ (line column offset : Nat) (current : Text), ∃ mid',
      (Cursor.runFrom line column offset current (mid ++ tail)).2.rest = [] :: (mid' ++ tail) := by
  induction mid with
  | nil =>
    intro line column offset current
    have hnone : ∀ l ∈ ([] : List Text), endsRun l = false ∧ Text.Outside Text.isGap l :=
      List.forall_mem_nil _
    exact ⟨[], (runFrom_eq hnone htail line column offset current).2⟩
  | cons next mid ih =>
    intro line column offset current
    rw [List.cons_append, Cursor.runFrom]
    split
    · exact ⟨next :: mid, rfl⟩
    · exact ih _ _ _ _

theorem text_stays (htail : StopsRun tail) (h : r.Before tail) : Stays tail r.text := by
  obtain ⟨line, mid, hat⟩ := h
  obtain ⟨mid', hrest⟩ := runFrom_stays htail mid r.cursor.skipGaps.line
    r.cursor.skipGaps.column r.cursor.skipGaps.offset (line.dropWhile isGap)
  exact (text_on_line hat).meets fun s hs => ⟨[], mid', hrest ▸ hs⟩

theorem parameter_stays (htail : StopsRun tail) (h : r.Before tail) : Stays tail r.parameter :=
  (word_stays h).andThen fun _ _ h => (typeName_stays h).andThen fun _ _ h =>
    (text_stays htail h).map fun _ _ h => h

/-- What is read leaves the reader where the next item starts no later than the given lines. -/
abbrev Stops {α : Type} (tail : List Text) (x : Reading α) : Prop :=
  x.Meets (fun _ r => r.UpTo tail) fun _ => True

theorem permission_stops (h : r.Before tail) : Stops tail r.permission := by
  have hslot : r.checkSlot = r := by
    obtain ⟨_, _, hat⟩ := h
    exact hat.checkSlot
  unfold permission
  simp only [peek, hslot]
  split
  · split
    · obtain ⟨_, hupTo⟩ | ⟨hline, hend, hbefore⟩ := h.scanPastGap
      · split
        · rename_i hw
          simp_all
        · exact hupTo
        · exact hupTo
        · trivial
      · split
        · exact hbefore.upTo
        · contradiction
        · contradiction
        · trivial
    · exact h.upTo
  · exact h.upTo

theorem attributeItem_stops (htail : StopsRun tail) (kind : RecordKind) (h : r.Before tail) :
    Stops tail (r.attributeItem kind) := by
  have hword {u : Reader} (hu : u.Before tail) (f : Text → Item) : Stops tail (u.word.map f) :=
    (word_stays hu).map fun _ _ h => h.upTo
  have hparameter {u : Reader} (hu : u.Before tail) (f : Parameter → Item) :
      Stops tail (u.parameter.map f) :=
    (parameter_stays htail hu).map fun _ _ h => h.upTo
  unfold attributeItem
  simp only
  obtain ⟨hends, _⟩ | ⟨_, _, hbefore⟩ := h.scan
  · split
    · simp_all
    · trivial
  · split
    · split
      · trivial
      · split
        · exact hword hbefore _
        · exact hword hbefore _
        · exact hword hbefore _
        · exact hparameter hbefore _
        · exact hword hbefore _
        · exact hparameter hbefore _
        · exact (typeName_stays hbefore).andThen fun _ _ h =>
            (permission_stops h).map fun _ _ h => h
        all_goals trivial
    · trivial

theorem heading_stops (h : r.Before tail) : Stops tail r.heading := by
  unfold heading
  simp only
  split
  · trivial
  rename_i hsign
  obtain ⟨hends, _⟩ | ⟨_, _, hbefore⟩ := h.scan
  · simp_all
  obtain ⟨hends, _⟩ | ⟨_, _, hbefore⟩ := hbefore.scan
  · split
    · simp_all
    · trivial
  split
  · split
    · obtain ⟨hends, hupTo⟩ | ⟨hline, _, hbefore⟩ := hbefore.scanPastGap
      · split
        · simp_all
        · exact hupTo
        · trivial
      · split
        · exact hbefore.upTo
        · contradiction
        · trivial
    · trivial
  · trivial

/-! ## Items before a line -/

/-- The items are read in two parts, the second one from where the given lines start. -/
def ReadUpTo (kind : RecordKind) (tail : List Text) (items : List Item) : Prop :=
  ∃ (done more : List Item) (s : Reader), items = done ++ more ∧ s.Stands tail ∧
    (s.items kind).1 = .ok more

theorem ReadUpTo.cons {items : List Item} (h : ReadUpTo kind tail items) (i : Item) :
    ReadUpTo kind tail (i :: items) := by
  obtain ⟨done, more, s, rfl, hstands, hmore⟩ := h
  exact ⟨i :: done, more, s, rfl, hstands, hmore⟩

/-- **No item is read across the start of a line with a sign**: what is read from before it is read
up to it, and then from there.  By induction on what is left; the cases are those of the line that
the next item starts on. -/
theorem items_upTo {items : List Item} (h : r.UpTo (('@' :: t) :: after))
    (hok : (r.items kind).1 = .ok items) : ReadUpTo kind (('@' :: t) :: after) items := by
  have htail : StopsRun (('@' :: t) :: after) := stopsRun_sign t after
  induction hn : r.size using Nat.strongRecOn generalizing r items with
  | _ n ih =>
    subst hn
    have hnone {s : Reader} (heq : r.items kind = s.items kind) (hlt : s.size < r.size)
        (hs : s.UpTo (('@' :: t) :: after)) : ReadUpTo kind (('@' :: t) :: after) items :=
      ih _ hlt hs (heq ▸ hok) rfl
    have hone {s : Reader} {i : Item} (heq : r.items kind = (s.items kind).map (i :: ·))
        (hlt : s.size < r.size) (hs : s.UpTo (('@' :: t) :: after)) :
        ReadUpTo kind (('@' :: t) :: after) items := by
      obtain ⟨items', hok', rfl⟩ := Reading.map_eq_ok (heq ▸ hok)
      exact (ih _ hlt hs hok' rfl).cons i
    obtain ⟨mid, hstands⟩ := h
    match mid with
    | [] => exact ⟨[], items, r, rfl, hstands, hok⟩
    | [[]] =>
      obtain ⟨hk, hat⟩ := hstands.blank
      exact hnone (items_sign hk hat) (advance_size_lt (by simp [hk])) ⟨[], hat.stands⟩
    | [] :: l :: mid =>
      obtain ⟨hk, hat⟩ := hstands.blank
      have hbefore : r.advance.2.Before (('@' :: t) :: after) := ⟨l, mid, hat⟩
      by_cases hsign : l.head? = some '@'
      · obtain ⟨u, rfl⟩ := List.head?_eq_some_iff.mp hsign
        exact hnone (items_sign hk hat) (advance_size_lt (by simp [hk])) hbefore.upTo
      · have htext : r.advance.2.text.2.Before (('@' :: t) :: after) := text_stays htail hbefore
        exact hone (items_text hk hat hsign) (scanText_size_lt hk) htext.upTo
    | (a :: u) :: mid =>
      obtain ⟨kind', _, left, hline, hend, hscan⟩ := scan_on_line a u
      obtain ⟨h0, _⟩ | ⟨s, hs, heq⟩ := hstands
      · cases h0
      obtain ⟨hk, _, hat⟩ := hscan s _ hs
      have hbefore : r.advance.2.Before (('@' :: t) :: after) := ⟨left, mid, heq ▸ hat⟩
      rw [← heq] at hk
      have hlt := advance_size_lt (r := r) (hk ▸ hend)
      by_cases hg : r.advance.1.kind = .gap
      · exact hnone (items_gap hg) hlt hbefore.upTo
      by_cases ha : r.advance.1.kind = .attr
      · cases hitem : (r.advance.2.attributeItem kind).1 with
        | error e =>
          rw [items_fault ha hitem] at hok
          cases hok
        | ok i =>
          have hle := attributeItem_size_le kind r.advance.2
          exact hone (items_attribute ha hitem) (Nat.lt_of_le_of_lt hle hlt)
            ((attributeItem_stops htail kind hbefore).of_ok hitem)
      · obtain ⟨e, he⟩ : ∃ e, (r.items kind).1 = .error e :=
          items_refused (hk ▸ hend) hg (hk ▸ hline) ha
        rw [he] at hok
        cases hok

/-- A reader that stands at a sign and reads on reads an attribute first. -/
theorem items_at_sign {items : List Item} (h : r.Stands (('@' :: t) :: after))
    (hok : (r.items kind).1 = .ok items) :
    ∃ (s : Reader) (i : Item) (more : List Item), s.At (t :: after) ∧
      (s.attributeItem kind).1 = .ok i ∧ items = i :: more := by
  obtain ⟨h0, _⟩ | ⟨s, hs, heq⟩ := h
  · cases h0
  obtain ⟨hk, hat⟩ := scan_sign hs
  rw [← heq] at hk hat
  cases hitem : (r.advance.2.attributeItem kind).1 with
  | error e =>
    rw [items_fault hk hitem] at hok
    cases hok
  | ok i =>
    rw [items_attribute hk hitem] at hok
    obtain ⟨more, _, rfl⟩ := Reading.map_eq_ok hok
    exact ⟨_, i, more, hat, hitem, rfl⟩

/-! ## The words on a line -/

theorem scanPastGap_on_line (h : r.At (line :: more)) :
    ∃ s : Reader, s.At (line.dropWhile isGap :: more) ∧ r.scanPastGap = s.scan := by
  unfold scanPastGap
  simp only
  cases line with
  | nil =>
    have hk : r.scan.1.kind ≠ .gap := h.scan_end.1 ▸ TokenKind.ending_ne .gap (by simp) more
    rw [if_neg hk]
    exact ⟨r, h, rfl⟩
  | cons a t =>
    by_cases hg : isGap a = true
    · have htoken : r.cursor.token = (⟨.gap, r.cursor.position, (a :: t).takeWhile isGap⟩,
          (r.cursor.span isGap).2) := by
        simp [Cursor.token, Cursor.peek_of_rest h.rest, hg, Cursor.span, h.rest]
      obtain ⟨hscan, hat⟩ := h.scan htoken
      rw [if_pos (by rw [hscan])]
      exact ⟨_, by simpa [Cursor.span, h.rest] using hat, rfl⟩
    · have hk : r.scan.1.kind ≠ .gap := by
        rw [(scan_fresh h.clear).1]
        simp only [Cursor.token, Cursor.peek_of_rest h.rest, if_neg hg]
        split
        · unfold Cursor.wordKind
          split <;> simp
        · split <;> simp
      rw [if_neg hk, List.dropWhile_cons_of_neg hg]
      exact ⟨r, h, rfl⟩

/-- A word that is scanned is the longest run of word characters. -/
theorem scan_word_on_line (h : r.At (line :: more)) (hgap : Outside isGap line)
    (hk : r.scan.1.kind = .word) :
    r.scan.1.lexeme = line.takeWhile isWordChar ∧
      r.scan.2.At (line.dropWhile isWordChar :: more) := by
  cases line with
  | nil => exact absurd hk (h.scan_end.1 ▸ TokenKind.ending_ne .word (by simp) more)
  | cons a t =>
    by_cases hw : isWordChar a = true
    · rw [← List.takeWhile_append_dropWhile (p := isWordChar) (l := a :: t)] at h
      obtain ⟨_, hlexeme, hat⟩ := scan_word h (by simp [hw])
        (List.all_eq_true.mp List.all_takeWhile) (Text.outside_dropWhile _ _)
      exact ⟨hlexeme, hat⟩
    · rw [(scan_fresh h.clear).1] at hk
      have hg : ¬ isGap a = true := by simp [hgap a rfl]
      simp only [Cursor.token, Cursor.peek_of_rest h.rest, if_neg hg, if_neg hw] at hk
      split at hk <;> cases hk

/-- **The name of a parameter** is the longest run of word characters after the gap. -/
theorem word_on_line {w : Text} (h : r.At (line :: more)) (hok : r.word.1 = .ok w) :
    IsWord w ∧ w = (line.dropWhile isGap).takeWhile isWordChar ∧
      r.word.2.At ((line.dropWhile isGap).dropWhile isWordChar :: more) := by
  have hword := (word_ensures Cursor.trimmed_yields ⟨h.clear, trivial⟩).value w hok
  obtain ⟨s, hs, hscan⟩ := scanPastGap_on_line h
  unfold word at hok ⊢
  simp only [hscan] at hok ⊢
  split at hok
  · rename_i hk
    obtain ⟨hlexeme, hat⟩ := scan_word_on_line hs (Text.outside_dropWhile _ _) hk
    cases hok
    rw [if_pos hk]
    exact ⟨hword, hlexeme, hat⟩
  · cases hok

/-- **The type of a parameter** is the longest run of type characters after the gap, if there is one,
that follows the name. -/
theorem parameter_on_line {p : Parameter} (h : r.At (line :: more)) (hok : r.parameter.1 = .ok p) :
    IsWord p.name ∧ IsTypeName p.type ∧ p.name = (line.dropWhile isGap).takeWhile isWordChar ∧
      p.type = (((line.dropWhile isGap).dropWhile isWordChar).dropWhile isGap).takeWhile
        isTypeChar := by
  obtain ⟨name, hname, hrest⟩ := Reading.andThen_eq_ok hok
  obtain ⟨type, htype, hdescription⟩ := Reading.andThen_eq_ok hrest
  obtain ⟨description, _, rfl⟩ := Reading.map_eq_ok hdescription
  obtain ⟨hword, heq, hat⟩ := word_on_line h hname
  obtain ⟨hreads, hfails⟩ := typeName_on_line hat
  have hne : (((line.dropWhile isGap).dropWhile isWordChar).dropWhile isGap).takeWhile
      isTypeChar ≠ [] := by
    intro hnil
    obtain ⟨e, s, he⟩ := hfails hnil
    rw [he] at htype
    cases htype
  refine ⟨hword, (typeName_ensures Cursor.trimmed_yields ⟨hat.clear, trivial⟩).value type htype,
    heq, ?_⟩
  rw [(hreads hne).1] at htype
  cases htype
  rfl

end Reader

/-! ## Parameter lines -/

theorem takeWhile_before {p : Char → Bool} {t : Text} (ht : Outside p t) (w : Text) :
    (w ++ t).takeWhile p = w.takeWhile p := by
  induction w with
  | nil => exact Text.takeWhile_outside ht
  | cons c w ih => simp only [List.cons_append, List.takeWhile_cons, ih]

theorem dropWhile_before {p : Char → Bool} {t : Text} (ht : Outside p t) (w : Text) :
    (w ++ t).dropWhile p = w.dropWhile p ++ t := by
  induction w with
  | nil => exact Text.dropWhile_outside ht
  | cons c w ih =>
    rw [List.cons_append, List.dropWhile_cons, List.dropWhile_cons, ih]
    split <;> rfl

/-- What starts with a gap starts neither a word nor a type name. -/
theorem outside_of_gap {t : Text} (h : ∀ c, t.head? = some c → isGap c = true) :
    Outside isWordChar t ∧ Outside isTypeChar t := by
  constructor
  · intro c hc
    exact (Text.isBlank_outside (Text.isBlank_of_isGap (h c hc))).2
  · intro c hc
    exact (Text.isBlank_outside (Text.isBlank_of_isGap (h c hc))).1

/-- The parameter has for its name what the first word starts with, and for its type what follows
that, in the first word or else in the second.  It is made of the two words exactly if they are a
name and a type. -/
structure ParameterLine.TakenApart (l : ParameterLine) (p : Parameter) : Prop where
  isWord : IsWord p.name
  isTypeName : IsTypeName p.type
  name : p.name = l.first.takeWhile isWordChar
  type : p.type = (if l.first.dropWhile isWordChar = [] then l.second
    else l.first.dropWhile isWordChar).takeWhile isTypeChar
  whole_iff : p.name = l.first ∧ p.type = l.second ↔ IsWord l.first ∧ IsTypeName l.second

namespace ParameterLine

variable (l : ParameterLine)

/-- The words on the line, as scanning finds them. -/
theorem words_eq :
    (l.tail.dropWhile isGap).takeWhile isWordChar = l.first.takeWhile isWordChar ∧
      (((l.tail.dropWhile isGap).dropWhile isWordChar).dropWhile isGap).takeWhile isTypeChar =
        (if l.first.dropWhile isWordChar = [] then l.second
          else l.first.dropWhile isWordChar).takeWhile isTypeChar := by
  obtain ⟨hword, htype⟩ := outside_of_gap (l.gap'_run.starts (l.second ++ l.rest))
  have htail : l.tail.dropWhile isGap = l.first ++ (l.gap' ++ (l.second ++ l.rest)) :=
    Text.dropWhile_append_outside l.gap_run.2 (l.first_run.outside _)
  rw [htail, takeWhile_before hword, dropWhile_before hword]
  refine ⟨rfl, ?_⟩
  split
  · rename_i hnil
    rw [hnil, List.nil_append,
      Text.dropWhile_append_outside l.gap'_run.2 (l.second_run.outside _),
      takeWhile_before (outside_of_gap l.rest_gap).2]
  · rename_i hne
    have hleft : Text.IsStretch (fun c => !isGap c) (l.first.dropWhile isWordChar) :=
      ⟨hne, fun c hc => l.first_run.2 c ((List.dropWhile_suffix _).subset hc)⟩
    rw [Text.dropWhile_outside (hleft.outside _), takeWhile_before htype]

/-- **The two words are kept exactly if they are a name and a type.** -/
theorem takenApart {p : Parameter} (hword : IsWord p.name) (htype : IsTypeName p.type)
    (hname : p.name = (l.tail.dropWhile isGap).takeWhile isWordChar)
    (heq : p.type =
      (((l.tail.dropWhile isGap).dropWhile isWordChar).dropWhile isGap).takeWhile isTypeChar) :
    l.TakenApart p := by
  rw [l.words_eq.1] at hname
  rw [l.words_eq.2] at heq
  refine ⟨hword, htype, hname, heq, ?_, ?_⟩
  · rintro ⟨hfirst, hsecond⟩
    exact ⟨hfirst ▸ hword, hsecond ▸ htype⟩
  · rintro ⟨hfirst, hsecond⟩
    rw [if_pos (List.dropWhile_eq_nil_iff.mpr hfirst.chars)] at heq
    rw [hname, heq]
    exact ⟨List.takeWhile_eq_self_iff.mpr hfirst.chars,
      List.takeWhile_eq_self_iff.mpr hsecond.chars⟩

theorem item_cases {kind : RecordKind} {r : Reader} {more : List Text} {i : Item}
    (h : r.At ((l.keyword.spelling ++ l.tail) :: more)) (hok : (r.attributeItem kind).1 = .ok i) :
    ∃ p, i = l.keyword.parameterItem p ∧ l.TakenApart p := by
  have hout : Outside isWordChar l.tail := (outside_of_gap (l.gap_run.starts _)).1
  obtain ⟨hk, hat⟩ := Reader.scan_keyword h hout
  have hread : (r.scan.2.parameter.map l.keyword.parameterItem).1 = .ok i := by
    unfold Reader.attributeItem at hok
    simp only [hk] at hok
    split at hok
    · cases hok
    · obtain hkey | hkey := l.takes <;> rw [hkey] at hok ⊢ <;> exact hok
  obtain ⟨p, hp, rfl⟩ := Reading.map_eq_ok hread
  obtain ⟨hword, htype, hname, heq⟩ := Reader.parameter_on_line hat hp
  exact ⟨p, rfl, l.takenApart hword htype hname heq⟩

/-- A batch does not start with such a line. -/
theorem heading_error {r : Reader} {more : List Text} (h : r.At (l.text :: more)) :
    ∃ e, r.heading.1 = .error e := by
  have hout : Outside isWordChar l.tail := (outside_of_gap (l.gap_run.starts _)).1
  obtain ⟨hsign, hat⟩ := Reader.scan_sign h
  obtain ⟨hk, _⟩ := Reader.scan_keyword hat hout
  have hkind : l.keyword.recordKind? = none := by
    obtain hkey | hkey := l.takes <;> rw [hkey] <;> rfl
  unfold Reader.heading
  simp only [hsign, hk, hkind]
  exact ⟨_, rfl⟩

end ParameterLine

/-! ## Batches -/

/-- **Something is taken from every line with a sign** in a batch that is read, the heading apart. -/
theorem parse_takes {origin : Text} {firstLine : Nat} {before after : List Text} {t : Text}
    {record : Record} (hbefore : before ≠ [])
    (h : Record.parse origin firstLine (before ++ ('@' :: t) :: after) = .ok record) :
    ∃ item, Record.Takes origin (before ++ ('@' :: t) :: after) (('@' :: t) :: after) record
      item := by
  obtain ⟨kind, name, items, hheading, hitems, hrecord⟩ :=
    Reader.record_eq_ok (Record.parse_eq_ok h)
  obtain ⟨line, mid, rfl⟩ := List.exists_cons_of_ne_nil hbefore
  have hupTo := (Reader.heading_stops ⟨line, mid, Reader.start_at _⟩).of_ok hheading
  obtain ⟨done, more, s, rfl, hstands, hmore⟩ := Reader.items_upTo hupTo hitems
  obtain ⟨_, i, more, _, _, rfl⟩ := Reader.items_at_sign hstands hmore
  exact ⟨i, kind, name, done, more, s, hheading, hitems, hrecord, hstands, hmore⟩

/-- **The words of a parameter line in a batch that is read.**  The line says one parameter.  Its
name is what the first word starts with, and its type what follows the name; it is made of the two
words exactly if the first one is a name and the second one a type. -/
theorem parse_parameterLine (origin : Text) (firstLine : Nat) (before after : List Text)
    (l : ParameterLine) (record : Record)
    (h : Record.parse origin firstLine (before ++ l.text :: after) = .ok record) :
    (∃ item, Record.Takes origin (before ++ l.text :: after) (l.text :: after) record item) ∧
      ∀ item, Record.Takes origin (before ++ l.text :: after) (l.text :: after) record item →
        ∃ p, item = l.keyword.parameterItem p ∧ l.TakenApart p := by
  constructor
  · refine parse_takes ?_ h
    rintro rfl
    obtain ⟨e, he⟩ := l.heading_error (Reader.start_at (l.text :: after))
    exact Reader.record_error he origin record (Record.parse_eq_ok h)
  · rintro item ⟨kind, _, _, more, r, _, _, _, hstands, hmore⟩
    obtain ⟨s, i, _, hat, hok, hcons⟩ := Reader.items_at_sign hstands hmore
    obtain ⟨rfl, _⟩ := List.cons.inj hcons
    exact l.item_cases hat hok

/-- A column with tabs between its words, signs in its type and a description on two lines. -/
theorem parse_parameterLine_column :
    let before : List Text := ["@Action list", "@Parent root", "", "@Param all bool"]
    let after : List Text := ["  and more"]
    let l : ParameterLine := ⟨.column, "\t", "rows", "\t ", "list<a|b>", " Every row",
      .inr rfl, by decide, by decide, by decide, by decide, by rintro c ⟨⟩; rfl⟩
    ∃ record, Record.parse "svc" 1 (before ++ l.text :: after) = .ok record ∧
      record.columns = [⟨"rows", "list<a|b>", "Every row and more"⟩] ∧
      (∃ item, Record.Takes "svc" (before ++ l.text :: after) (l.text :: after) record item) ∧
      ∀ item, Record.Takes "svc" (before ++ l.text :: after) (l.text :: after) record item →
        ∃ p, item = l.keyword.parameterItem p ∧ l.TakenApart p := by
  intro before after l
  have hcolumns : (Record.parse "svc" 1 (before ++ l.text :: after)).toOption.map (·.columns) =
      some [⟨"rows", "list<a|b>", "Every row and more"⟩] := by
    decide +kernel
  cases h : Record.parse "svc" 1 (before ++ l.text :: after) with
  | error e =>
    rw [h] at hcolumns
    cases hcolumns
  | ok record =>
    rw [h] at hcolumns
    exact ⟨record, rfl, Option.some.inj hcolumns, parse_parameterLine "svc" 1 before after l record h⟩

/-- A batch is read although the first word after an attribute is no name: it is taken apart, and the
second word goes to the description. -/
theorem parse_parameterLine_split :
    let before : List Text := ["@Action a", "@Parent root"]
    let l : ParameterLine := ⟨.param, " ", "na-me", " ", "string", " Text",
      .inl rfl, by decide, by decide, by decide, by decide, by rintro c ⟨⟩; rfl⟩
    l.text = "@Param na-me string Text".toList ∧ ¬ IsWord l.first ∧
      ∃ record, Record.parse "test.dart" 1 (before ++ [l.text]) = .ok record ∧
        record.params = [⟨"na", "-me", "string Text"⟩] := by
  intro before l
  refine ⟨by decide, by decide, ?_⟩
  have hparams : (Record.parse "test.dart" 1 (before ++ [l.text])).toOption.map (·.params) =
      some [⟨"na", "-me", "string Text"⟩] := by
    decide +kernel
  cases h : Record.parse "test.dart" 1 (before ++ [l.text]) with
  | error e =>
    rw [h] at hparams
    cases hparams
  | ok record =>
    rw [h] at hparams
    exact ⟨record, rfl, Option.some.inj hparams⟩

end CommentDocs
