import CommentDocs.Proofs.Parsed
import CommentDocs.Proofs.Written

/-!
# The number of blank lines

Blank lines set text runs apart, and how many of them there are says nothing.  `squeeze` leaves one
of each run of blank lines and none at the end, and a batch is read as its squeezed lines are.

* `Stands`: where a reader is between two items, told by the lines to come.  A line that was read
  up to its end, whether the end was put back or not, is the same as the start of the next one.
* `Abreast`, `InLine`: two readers at the same place, one of them with the squeezed lines before it;
  between items, and within one.
* `attributeItem_alike`: within an item both readers read the same or fail together.
* `items_squeeze`: so they do over all items.  Two blank lines more are an empty text run more,
  which says nothing, so the items are compared by what they do to a record (`Spells`).
* `parse_squeeze`, `parse_blankLines`: batches that differ in the number of blank lines only give
  the same record or are both rejected.
-/

set_option autoImplicit false

namespace CommentDocs

open Text (isGap)

/-! ## Squeezed lines -/

/-- One blank line for each run of blank lines, and none at the end. -/
def squeeze : List Text → List Text
  | [] => []
  | line :: lines =>
    if line = [] ∧ (squeeze lines).headD [] = [] then squeeze lines else line :: squeeze lines

theorem squeeze_cons {line : Text} (h : line ≠ []) (lines : List Text) :
    squeeze (line :: lines) = line :: squeeze lines := by
  rw [squeeze, if_neg fun h' => h h'.1]

/-- What starts with a blank line still does, unless nothing is left. -/
theorem headD_squeeze_blank (lines : List Text) : (squeeze ([] :: lines)).headD [] = [] := by
  rw [squeeze]
  split
  · rename_i h
    exact h.2
  · rfl

theorem squeeze_blank_blank (lines : List Text) :
    squeeze ([] :: [] :: lines) = squeeze ([] :: lines) := by
  rw [squeeze, if_pos ⟨rfl, headD_squeeze_blank lines⟩]

theorem squeeze_blank_cons {line : Text} (h : line ≠ []) (lines : List Text) :
    squeeze ([] :: line :: lines) = [] :: line :: squeeze lines := by
  rw [squeeze, squeeze_cons h, if_neg fun h' => h h'.2]

theorem squeeze_append {lines lines' : List Text} (h : squeeze lines = squeeze lines')
    (first : List Text) : squeeze (first ++ lines) = squeeze (first ++ lines') := by
  induction first with
  | nil => exact h
  | cons line first ih => rw [List.cons_append, List.cons_append, squeeze, squeeze, ih]

theorem squeeze_replicate (n : Nat) (lines : List Text) :
    squeeze (List.replicate (n + 1) [] ++ lines) = squeeze ([] :: lines) := by
  induction n with
  | zero => rfl
  | succ n ih =>
    rw [List.replicate_succ, List.replicate_succ, List.cons_append, List.cons_append,
      squeeze_blank_blank, ← List.cons_append, ← List.replicate_succ, ih]

/-- Blank lines at the end are dropped. -/
theorem squeeze_trailing (n : Nat) : squeeze (List.replicate n []) = [] := by
  induction n with
  | zero => rfl
  | succ n ih => rw [List.replicate_succ, squeeze, ih, if_pos ⟨rfl, rfl⟩]

/-- No text goes on past a blank line, squeezed or not. -/
theorem stopsRun_squeeze_blank (lines : List Text) :
    Reader.StopsRun (squeeze ([] :: lines)) := by
  intro l hl
  have hhead := headD_squeeze_blank lines
  rw [List.headD_eq_head?_getD, hl] at hhead
  obtain rfl : l = [] := hhead
  rfl

/-! ## Places between items -/

/-- The token at the end of a line, by the lines after it. -/
def TokenKind.ending : List Text → TokenKind
  | [] => .batchEnd
  | _ :: _ => .lineEnd

theorem TokenKind.ending_ne (kind : TokenKind) (h : kind ≠ .lineEnd ∧ kind ≠ .batchEnd)
    (lines : List Text) : ending lines ≠ kind := by
  cases lines with
  | nil => exact h.2.symm
  | cons l lines => exact h.1.symm

/-- What token mode gives on a line that is not read up to its end depends on that line only, and it
is not an end. -/
theorem Cursor.token_on_line (a : Char) (t : Text) :
    ∃ (kind : TokenKind) (lexeme left : Text), kind ≠ .lineEnd ∧ kind ≠ .batchEnd ∧
      ∀ (c : Cursor) (more : List Text), c.rest = (a :: t) :: more →
        c.token.1.kind = kind ∧ c.token.1.lexeme = lexeme ∧ c.token.2.rest = left :: more := by
  by_cases hg : isGap a = true
  · refine ⟨.gap, (a :: t).takeWhile isGap, (a :: t).dropWhile isGap, by simp, by simp, ?_⟩
    intro c more h
    simp [token, peek, span, h, hg]
  by_cases hw : isWordChar a = true
  · refine ⟨wordKind ((a :: t).takeWhile isWordChar), (a :: t).takeWhile isWordChar,
      (a :: t).dropWhile isWordChar, ?_, ?_, ?_⟩
    · unfold wordKind; split <;> simp
    · unfold wordKind; split <;> simp
    · intro c more h
      simp [token, peek, span, h, hg, hw]
  by_cases hs : a = '@'
  · subst hs
    refine ⟨.attr, ['@'], t, by simp, by simp, ?_⟩
    intro c more h
    simp [token, peek, step, h, hg, hw]
  · refine ⟨.illegal, [a], t, by simp, by simp, ?_⟩
    intro c more h
    simp [token, peek, step, h, hg, hw, hs]

namespace Reader

variable {r s : Reader} {kind : RecordKind} {a : Char} {t line : Text} {more rest : List Text}

theorem scan_on_line (a : Char) (t : Text) :
    ∃ (kind : TokenKind) (lexeme left : Text), kind ≠ .lineEnd ∧ kind ≠ .batchEnd ∧
      ∀ (r : Reader) (more : List Text), r.At ((a :: t) :: more) →
        r.scan.1.kind = kind ∧ r.scan.1.lexeme = lexeme ∧ r.scan.2.At (left :: more) := by
  obtain ⟨kind, lexeme, left, hline, hend, htoken⟩ := Cursor.token_on_line a t
  refine ⟨kind, lexeme, left, hline, hend, fun r more h => ?_⟩
  obtain ⟨hkind, hlexeme, hrest⟩ := htoken r.cursor more h.rest
  obtain ⟨hscan, hcursor⟩ := scan_fresh h.clear
  rw [hscan]
  exact ⟨hkind, hlexeme, scan_pending r, by rw [hcursor, hrest]⟩

/-- The next item starts where the given lines do.  With no lines left there may be no place to
point at, only the end. -/
def Stands (r : Reader) (rest : List Text) : Prop :=
  rest = [] ∧ r.advance.1.kind = .batchEnd ∨ ∃ s : Reader, s.At rest ∧ r.advance = s.scan

/-- In the middle of a line, the next item starts there. -/
theorem At.stands (h : r.At ((a :: t) :: more)) : r.Stands ((a :: t) :: more) := by
  obtain ⟨kind, _, _, hline, _, hscan⟩ := scan_on_line a t
  have hk : r.scan.1.kind ≠ .lineEnd := by
    rw [(hscan r more h).1]
    exact hline
  refine .inr ⟨r, h, ?_⟩
  have hslot : r.scan.2.checkSlot = r.scan.2 := by simp [Reader.checkSlot]
  have hpending : { r.scan.2 with pending := none } = r.scan.2 := by
    rw [← scan_pending r]
  rw [advance, skipLineEnd]
  simp only [hk, if_false, scan_unscan, hslot, hpending]

/-- Where a line was read up to its end, the next item starts on the next one. -/
theorem AtLineEnd.stands (h : r.AtLineEnd more) : r.Stands more := by
  cases more with
  | nil => exact .inl ⟨rfl, advance_end (.inl h)⟩
  | cons l more => exact .inr ⟨r.skipLineEnd, h.skipLineEnd, rfl⟩

/-- At the end of a line the token is an end, and may be put back. -/
theorem At.scan_end (h : r.At ([] :: more)) :
    r.scan.1.kind = .ending more ∧ (r.scan.2.unscan r.scan.1).Stands more := by
  cases more with
  | nil =>
    obtain ⟨hk, _⟩ := scan_batchEnd h
    refine ⟨hk, .inl ⟨rfl, ?_⟩⟩
    simp [advance, skipLineEnd, scan_unscan, hk]
  | cons l more =>
    obtain ⟨hk, hat⟩ := scan_lineEnd h
    refine ⟨hk, AtLineEnd.stands (.inr ⟨⟨r.scan.1, rfl, hk⟩, ?_, List.cons_ne_nil _ _⟩)⟩
    rw [unscan_cursor, hat.rest]

theorem At.scan_nil (h : r.At []) : r.scan.1.kind = .batchEnd := by
  simp [Reader.scan, h.clear, Cursor.token, Cursor.peek, h.rest]

theorem Stands.at_end (h : r.Stands []) : r.advance.1.kind = .batchEnd := by
  obtain ⟨_, hk⟩ | ⟨s, hat, hs⟩ := h
  · exact hk
  · rw [hs, hat.scan_nil]

/-- A blank line at the end is the end. -/
theorem Stands.at_last (h : r.Stands [[]]) : r.advance.1.kind = .batchEnd := by
  obtain ⟨h0, _⟩ | ⟨s, hat, hs⟩ := h
  · cases h0
  · rw [hs]
    exact (scan_batchEnd hat).1

theorem Stands.blank {l : Text} (h : r.Stands ([] :: l :: more)) :
    r.advance.1.kind = .lineEnd ∧ r.advance.2.At (l :: more) := by
  obtain ⟨h0, _⟩ | ⟨s, hat, hs⟩ := h
  · cases h0
  · rw [hs]
    exact scan_lineEnd hat

/-! ## Two readers -/

/-- The first reader has lines before it that the second one has squeezed, and both are at the same
place of the same line. -/
def InLine (r s : Reader) : Prop :=
  ∃ line more, r.At (line :: more) ∧ s.At (line :: squeeze more)

/-- The next item of the first reader starts where that of the second one does in the squeezed
lines. -/
def Abreast (r s : Reader) : Prop := ∃ rest, r.Stands rest ∧ s.Stands (squeeze rest)

theorem InLine.abreast (h : InLine r s) : Abreast r s := by
  obtain ⟨line, more, hr, hs⟩ := h
  cases line with
  | nil => exact ⟨more, AtLineEnd.stands (.inl hr), AtLineEnd.stands (.inl hs)⟩
  | cons a t =>
    refine ⟨(a :: t) :: more, hr.stands, ?_⟩
    rw [squeeze_cons (List.cons_ne_nil a t)]
    exact hs.stands

/-- Both readers scan the end of the line, or the same token on it. -/
def ScanAlike (x y : Token × Reader) : Prop :=
  (∃ more, x.1.kind = .ending more ∧ y.1.kind = .ending (squeeze more) ∧
      (x.2.unscan x.1).Stands more ∧ (y.2.unscan y.1).Stands (squeeze more)) ∨
    x.1.kind = y.1.kind ∧ x.1.lexeme = y.1.lexeme ∧ x.1.kind ≠ .lineEnd ∧
      x.1.kind ≠ .batchEnd ∧ InLine x.2 y.2

theorem scan_alike (h : InLine r s) : ScanAlike r.scan s.scan := by
  obtain ⟨line, more, hr, hs⟩ := h
  cases line with
  | nil =>
    obtain ⟨hk, hstands⟩ := hr.scan_end
    obtain ⟨hk', hstands'⟩ := hs.scan_end
    exact .inl ⟨more, hk, hk', hstands, hstands'⟩
  | cons a t =>
    obtain ⟨kind, lexeme, left, hline, hend, hscan⟩ := scan_on_line a t
    obtain ⟨hk, hl, hat⟩ := hscan r more hr
    obtain ⟨hk', hl', hat'⟩ := hscan s (squeeze more) hs
    exact .inr ⟨hk.trans hk'.symm, hl.trans hl'.symm, hk ▸ hline, hk ▸ hend, left, more, hat, hat'⟩

theorem scanPastGap_alike (h : InLine r s) : ScanAlike r.scanPastGap s.scanPastGap := by
  unfold scanPastGap
  simp only
  obtain ⟨more, hk, hk', _⟩ | ⟨hk, _, _, _, hin⟩ := scan_alike h
  · have hends := TokenKind.ending_ne .gap (by simp)
    rw [if_neg (hk ▸ hends _), if_neg (hk' ▸ hends _)]
    exact scan_alike h
  · by_cases hg : r.scan.1.kind = .gap
    · rw [if_pos hg, if_pos (hk ▸ hg)]
      exact scan_alike hin
    · rw [if_neg hg, if_neg (hk ▸ hg)]
      exact scan_alike h

end Reader

/-! ## Within an item -/

/-- Both readings give the same value and leave readers that are related by `P`, or both fail. -/
def Reading.Alike {α : Type} (P : Reader → Reader → Prop) : Reading α → Reading α → Prop
  | (.ok a, r), (.ok b, s) => a = b ∧ P r s
  | (.error _, _), (.error _, _) => True
  | _, _ => False

namespace Reading

variable {α β : Type} {x y : Reading α} {P Q : Reader → Reader → Prop}

theorem Alike.andThen {f : α → Reader → Reading β} (h : x.Alike P y)
    (hf : ∀ a r s, P r s → (f a r).Alike Q (f a s)) : (x.andThen f).Alike Q (y.andThen f) := by
  obtain ⟨e | a, r⟩ := x <;> obtain ⟨e' | b, s⟩ := y
  · trivial
  · exact h.elim
  · exact h.elim
  · obtain ⟨rfl, hp⟩ := h
    exact hf a r s hp

theorem Alike.map (h : x.Alike P y) (f : α → β) : (x.map f).Alike P (y.map f) :=
  h.andThen fun _ _ _ hp => ⟨rfl, hp⟩

theorem Alike.mono (h : x.Alike P y) (hpq : ∀ r s, P r s → Q r s) : x.Alike Q y := by
  obtain ⟨e | a, r⟩ := x <;> obtain ⟨e' | b, s⟩ := y
  · trivial
  · exact h.elim
  · exact h.elim
  · exact ⟨h.1, hpq r s h.2⟩

theorem Alike.cases (h : x.Alike P y) :
    (∃ e e', x.1 = .error e ∧ y.1 = .error e') ∨
      ∃ a, x.1 = .ok a ∧ y.1 = .ok a ∧ P x.2 y.2 := by
  obtain ⟨e | a, r⟩ := x <;> obtain ⟨e' | b, s⟩ := y
  · exact .inl ⟨e, e', rfl, rfl⟩
  · exact h.elim
  · exact h.elim
  · obtain ⟨rfl, hp⟩ := h
    exact .inr ⟨a, rfl, rfl, hp⟩

theorem Reads.alike {a : α} {rest rest' : List Text} (hx : x.Reads a rest) (hy : y.Reads a rest')
    (hp : ∀ r s : Reader, r.At rest → s.At rest' → P r s) : x.Alike P y := by
  obtain ⟨value, r⟩ := x
  obtain ⟨value', s⟩ := y
  obtain ⟨hv, hr⟩ := hx
  obtain ⟨hv', hs⟩ := hy
  cases hv
  cases hv'
  exact ⟨rfl, hp r s hr hs⟩

end Reading

namespace Reader

variable {r r' s s' : Reader} {kind : RecordKind} {a : Char} {t line : Text}
  {more rest : List Text}

theorem word_alike (h : InLine r s) : r.word.Alike InLine s.word := by
  unfold word
  simp only
  obtain ⟨more, hk, hk', _⟩ | ⟨hk, hl, _, _, hin⟩ := scanPastGap_alike h
  · have hends := TokenKind.ending_ne .word (by simp)
    rw [if_neg (hk ▸ hends _), if_neg (hk' ▸ hends _)]
    trivial
  · by_cases hw : r.scanPastGap.1.kind = .word
    · rw [if_pos hw, if_pos (hk ▸ hw), hl]
      exact ⟨rfl, hin⟩
    · rw [if_neg hw, if_neg (hk ▸ hw)]
      trivial

/-- Type mode reads the type name after the gap, if there is one, whatever follows the line. -/
theorem typeName_on_line (h : r.At (line :: more)) :
    let name := (line.dropWhile isGap).takeWhile isTypeChar
    (name ≠ [] → r.typeName.Reads name ((line.dropWhile isGap).dropWhile isTypeChar :: more)) ∧
      (name = [] → ∃ e s, r.typeName = (.error e, s)) := by
  intro name
  obtain ⟨skipped, hskip, hskipped⟩ := Cursor.span_of_cons isGap h.rest
  obtain ⟨next, hspan, hrest⟩ := Cursor.span_of_cons isTypeChar hskipped
  change _ = (name, next) at hspan
  constructor
  · intro hname
    obtain ⟨b, n, hcons⟩ := List.exists_cons_of_ne_nil hname
    rw [hcons] at hspan ⊢
    have htoken : r.cursor.typeName.1.kind = .typeName ∧ r.cursor.typeName.1.lexeme = b :: n ∧
        r.cursor.typeName.2.rest = (line.dropWhile isGap).dropWhile isTypeChar :: more := by
      simp [Cursor.typeName, Cursor.skipGaps, hskip, hspan, hrest]
    simp only [typeName, scanType, htoken.1, if_true, h.checkSlot]
    exact ⟨by rw [htoken.2.1], h.clear, htoken.2.2⟩
  · intro hname
    rw [hname] at hspan
    have htoken : r.cursor.typeName = r.cursor.skipGaps.token := by
      simp [Cursor.typeName, Cursor.skipGaps, hskip, hspan]
    have hk : r.scanType.1.kind ≠ .typeName := by
      simp only [scanType, htoken]
      exact Cursor.token_kind_ne_typeName _
    simp only [typeName, hk, if_false]
    exact ⟨_, _, rfl⟩

theorem typeName_alike (h : InLine r s) : r.typeName.Alike InLine s.typeName := by
  obtain ⟨line, more, hr, hs⟩ := h
  obtain ⟨hreads, hfails⟩ := typeName_on_line hr
  obtain ⟨hreads', hfails'⟩ := typeName_on_line hs
  by_cases hname : (line.dropWhile isGap).takeWhile isTypeChar = []
  · obtain ⟨e, r', he⟩ := hfails hname
    obtain ⟨e', s', he'⟩ := hfails' hname
    rw [he, he']
    trivial
  · exact (hreads hname).alike (hreads' hname) fun _ _ hr hs => ⟨_, more, hr, hs⟩

/-! ### Text runs -/

/-- **A text run stops at the first blank line**, so it is the same with squeezed lines after it. -/
theorem runFrom_squeeze (more : List Text) :
    ∀ (line column offset line' column' offset' : Nat) (current : Text), ∃ tail,
      (Cursor.runFrom line' column' offset' current (squeeze more)).1 =
        (Cursor.runFrom line column offset current more).1 ∧
      (Cursor.runFrom line column offset current more).2.rest = [] :: tail ∧
      (Cursor.runFrom line' column' offset' current (squeeze more)).2.rest =
        [] :: squeeze tail := by
  have hstop {lines : List Text} (h : StopsRun lines) (line column offset : Nat) (current : Text) :=
    runFrom_eq (List.forall_mem_nil _) h line column offset current
  induction more with
  | nil =>
    intro line column offset line' column' offset' current
    exact ⟨[], rfl, rfl, rfl⟩
  | cons next more ih =>
    intro line column offset line' column' offset' current
    by_cases hnext : next = []
    · subst hnext
      obtain ⟨hrun, hrest⟩ := hstop (stopsRun_blank more) line column offset current
      obtain ⟨hrun', hrest'⟩ := hstop (stopsRun_squeeze_blank more) line' column' offset' current
      exact ⟨[] :: more, hrun'.trans hrun.symm, hrest, hrest'⟩
    · rw [squeeze_cons hnext]
      unfold Cursor.runFrom
      by_cases hends : endsRun next = true
      · simp only [if_pos hends]
        exact ⟨next :: more, trivial, rfl, by rw [squeeze_cons hnext]⟩
      · simp only [if_neg hends]
        obtain ⟨tail, hrun, hrest, hrest'⟩ := ih (line + 1) (next.takeWhile isGap).length
          (Text.byteSize (next.takeWhile isGap)) (line' + 1) (next.takeWhile isGap).length
          (Text.byteSize (next.takeWhile isGap)) (next.dropWhile isGap)
        exact ⟨tail, by rw [hrun], hrest, hrest'⟩

/-- What text mode reads from a place on a line. -/
theorem text_on_line (h : r.At (line :: more)) :
    r.text.Reads (Text.trim (Cursor.runFrom r.cursor.skipGaps.line r.cursor.skipGaps.column
        r.cursor.skipGaps.offset (line.dropWhile isGap) more).1)
      (Cursor.runFrom r.cursor.skipGaps.line r.cursor.skipGaps.column
        r.cursor.skipGaps.offset (line.dropWhile isGap) more).2.rest := by
  have hrest : r.cursor.skipGaps.rest = line.dropWhile isGap :: more := by
    simp [Cursor.skipGaps, Cursor.span, h.rest]
  have htext : r.cursor.text.1.lexeme = Text.trim (Cursor.runFrom r.cursor.skipGaps.line
      r.cursor.skipGaps.column r.cursor.skipGaps.offset (line.dropWhile isGap) more).1 ∧
      r.cursor.text.2 = (Cursor.runFrom r.cursor.skipGaps.line r.cursor.skipGaps.column
        r.cursor.skipGaps.offset (line.dropWhile isGap) more).2 := by
    simp [Cursor.text, hrest]
  simp only [text, scanText, h.checkSlot]
  exact ⟨by rw [htext.1], h.clear, by rw [htext.2]⟩

/-- Two readings of the same run, one of them over squeezed lines. -/
theorem runs_alike {x y : Reading Text} {m n k m' n' k' : Nat} {current : Text}
    (hx : x.Reads (Text.trim (Cursor.runFrom m n k current more).1)
      (Cursor.runFrom m n k current more).2.rest)
    (hy : y.Reads (Text.trim (Cursor.runFrom m' n' k' current (squeeze more)).1)
      (Cursor.runFrom m' n' k' current (squeeze more)).2.rest) : x.Alike InLine y := by
  obtain ⟨tail, hrun, hrest, hrest'⟩ := runFrom_squeeze more m n k m' n' k' current
  rw [hrest] at hx
  rw [hrun, hrest'] at hy
  exact hx.alike hy fun _ _ hr hs => ⟨[], tail, hr, hs⟩

theorem text_alike (h : InLine r s) : r.text.Alike InLine s.text := by
  obtain ⟨line, more, hr, hs⟩ := h
  exact runs_alike (text_on_line hr) (text_on_line hs)

/-- A text run that starts on a blank line has a space more at its start, which trimming removes. -/
theorem text_alike_past_blank {l : Text} (hl : endsRun l = false) (hr : r.At ([] :: l :: more))
    (hs : s.At (l :: squeeze more)) : r.text.Alike InLine s.text := by
  have hread := text_on_line hr
  rw [List.dropWhile_nil, Cursor.runFrom] at hread
  simp only [hl, Bool.false_eq_true, if_false, List.nil_append, Text.trim_space] at hread
  exact runs_alike hread (text_on_line hs)

/-! ### Attributes -/

theorem parameter_alike (h : InLine r s) : r.parameter.Alike InLine s.parameter :=
  (word_alike h).andThen fun _ _ _ h => (typeName_alike h).andThen fun _ _ _ h =>
    (text_alike h).map _

theorem permission_alike (h : InLine r s) : r.permission.Alike Abreast s.permission := by
  have ⟨line, more, hr, hs⟩ := h
  unfold permission
  simp only [peek, hr.checkSlot, hs.checkSlot]
  cases line with
  | nil =>
    have hpeek {u : Reader} {lines : List Text} (hu : u.At ([] :: lines)) :
        ∀ a, u.cursor.peek ≠ .char a := by
      intro a
      cases lines <;> simp [Cursor.peek, hu.rest]
    split
    · rename_i a ha
      exact absurd ha (hpeek hr a)
    · split
      · rename_i a ha
        exact absurd ha (hpeek hs a)
      · exact ⟨rfl, h.abreast⟩
  | cons a t =>
    simp only [Cursor.peek_of_rest hr.rest, Cursor.peek_of_rest hs.rest]
    split
    · obtain ⟨more, hk, hk', hstands, hstands'⟩ | ⟨hk, hl, hline, hend, hin⟩ :=
        scanPastGap_alike h
      · have habreast : Abreast (r.scanPastGap.2.unscan r.scanPastGap.1)
            (s.scanPastGap.2.unscan s.scanPastGap.1) := ⟨more, hstands, hstands'⟩
        rw [hk, hk']
        cases more <;> cases squeeze _ <;> exact ⟨rfl, habreast⟩
      · rw [← hk, hl]
        split
        · exact ⟨rfl, hin.abreast⟩
        · contradiction
        · contradiction
        · trivial
    · exact ⟨rfl, h.abreast⟩

theorem attributeItem_alike (kind : RecordKind) (h : InLine r s) :
    (r.attributeItem kind).Alike Abreast (s.attributeItem kind) := by
  have hword {u v : Reader} (h : InLine u v) (f : Text → Item) :
      (u.word.map f).Alike Abreast (v.word.map f) :=
    ((word_alike h).map f).mono fun _ _ h => h.abreast
  have hparameter {u v : Reader} (h : InLine u v) (f : Parameter → Item) :
      (u.parameter.map f).Alike Abreast (v.parameter.map f) :=
    ((parameter_alike h).map f).mono fun _ _ h => h.abreast
  unfold attributeItem
  simp only
  obtain ⟨more, hk, hk', _⟩ | ⟨hk, hl, hline, hend, hin⟩ := scan_alike h
  · rw [hk, hk']
    cases more <;> cases squeeze _ <;> trivial
  · rw [← hk]
    split
    · rename_i k _
      split
      · trivial
      · split
        · exact hword hin _
        · exact hword hin _
        · exact hword hin _
        · exact hparameter hin _
        · exact hword hin _
        · exact hparameter hin _
        · exact (typeName_alike hin).andThen fun _ _ _ h => (permission_alike h).map _
        all_goals trivial
    · trivial

/-! ## All items -/

/-- Both readers read items that say the same, or neither reads on to the end. -/
def Agrees (kind : RecordKind) (r s : Reader) : Prop :=
  ∀ written, r.Spells kind written ↔ s.Spells kind written

theorem agrees_of_eq (hr : r.items kind = r'.items kind) (hs : s.items kind = s'.items kind)
    (h : Agrees kind r' s') : Agrees kind r s := by
  intro written
  unfold Agrees Spells at *
  rw [hr, hs]
  exact h written

theorem agrees_of_error {e e' : Fault} (hr : (r.items kind).1 = .error e)
    (hs : (s.items kind).1 = .error e') : Agrees kind r s := by
  intro written
  constructor
  · rintro ⟨items, hok, _⟩
    rw [hr] at hok
    cases hok
  · rintro ⟨items, hok, _⟩
    rw [hs] at hok
    cases hok

theorem agrees_of_ok {items : List Item} (hr : (r.items kind).1 = .ok items)
    (hs : (s.items kind).1 = .ok items) : Agrees kind r s := by
  intro written
  unfold Spells
  rw [hr, hs]

theorem spells_cons_iff {i : Item} {written : List Item}
    (hr : r.items kind = (r'.items kind).map (i :: ·)) :
    r.Spells kind written ↔ ∃ items, r'.Spells kind items ∧ ∀ record : Record,
      (i :: items).foldl Record.add record = written.foldl Record.add record := by
  constructor
  · rintro ⟨items, hok, hsame⟩
    rw [hr] at hok
    cases hitems : r'.items kind with
    | mk value r'' =>
      rw [hitems] at hok
      cases value with
      | error e => cases hok
      | ok items' =>
        cases hok
        exact ⟨items', ⟨items', by rw [hitems], fun _ => rfl⟩, hsame⟩
  · rintro ⟨items, hspells, hsame⟩
    obtain ⟨items', hok, hsame'⟩ := hspells.cons hr
    exact ⟨items', hok, fun record => (hsame' record).trans (hsame record)⟩

/-- The same item before what is read. -/
theorem agrees_of_cons {i : Item} (hr : r.items kind = (r'.items kind).map (i :: ·))
    (hs : s.items kind = (s'.items kind).map (i :: ·)) (h : Agrees kind r' s') :
    Agrees kind r s := by
  intro written
  rw [spells_cons_iff hr, spells_cons_iff hs]
  simp only [h _]

/-- An empty text run before what the first reader reads. -/
theorem agrees_of_empty (hr : r.items kind = (r'.items kind).map (.text [] :: ·))
    (h : Agrees kind r' s) : Agrees kind r s := by
  intro written
  rw [spells_cons_iff hr, ← h written]
  constructor
  · rintro ⟨items, ⟨items', hok, hsame'⟩, hsame⟩
    exact ⟨items', hok, fun record => (hsame' record).trans (hsame record)⟩
  · intro hspells
    exact ⟨written, hspells, fun _ => rfl⟩

/-- Between items both readers are at the end, the first one is before a blank line that others
follow, or both scan the same token on the same line. -/
theorem advance_alike (hr : r.Stands rest) (hs : s.Stands (squeeze rest)) :
    (r.advance.1.kind = .batchEnd ∧ s.advance.1.kind = .batchEnd) ∨
    (∃ l more, rest = [] :: l :: more) ∨
    r.advance.1.kind = s.advance.1.kind ∧ r.advance.1.kind ≠ .lineEnd ∧
      r.advance.1.kind ≠ .batchEnd ∧ InLine r.advance.2 s.advance.2 := by
  match rest with
  | [] => exact .inl ⟨hr.at_end, hs.at_end⟩
  | [[]] => exact .inl ⟨hr.at_last, hs.at_end⟩
  | [] :: l :: more => exact .inr (.inl ⟨l, more, rfl⟩)
  | (a :: t) :: more =>
    rw [squeeze_cons (List.cons_ne_nil a t)] at hs
    obtain ⟨kind, lexeme, left, hline, hend, hscan⟩ := scan_on_line a t
    obtain ⟨h0, _⟩ | ⟨u, hu, hru⟩ := hr
    · cases h0
    obtain ⟨h0, _⟩ | ⟨v, hv, hsv⟩ := hs
    · cases h0
    obtain ⟨hk, _, hat⟩ := hscan u more hu
    obtain ⟨hk', _, hat'⟩ := hscan v (squeeze more) hv
    rw [hru, hsv]
    exact .inr (.inr ⟨hk.trans hk'.symm, hk ▸ hline, hk ▸ hend, left, more, hat, hat'⟩)

/-- The blank line that is left of a run of them says nothing before an attribute or at the end. -/
theorem exists_past_blank {lines : List Text} (hs : s.Stands (squeeze ([] :: lines)))
    (hlines : StopsRun lines) :
    ∃ s' : Reader, s'.Stands (squeeze lines) ∧ s.items kind = s'.items kind := by
  match lines with
  | [] => exact ⟨s, hs, rfl⟩
  | [] :: lines => exact ⟨s, squeeze_blank_blank lines ▸ hs, rfl⟩
  | (a :: t) :: lines =>
    have hsign : a = '@' := by simpa [endsRun] using hlines (a :: t) rfl
    subst hsign
    rw [squeeze_blank_cons (List.cons_ne_nil _ t)] at hs
    obtain ⟨hk, hat⟩ := hs.blank
    refine ⟨s.advance.2, ?_, items_sign hk hat⟩
    rw [squeeze_cons (List.cons_ne_nil _ t)]
    exact hat.stands

/-- A text run that an item starts with takes something from what is left. -/
theorem scanText_size_lt (hk : r.advance.1.kind = .lineEnd) :
    r.advance.2.scanText.2.size < r.size :=
  Nat.lt_of_le_of_lt (scanText_size_le _) (advance_size_lt (by simp [hk]))

section Step

variable (ih : ∀ u v : Reader, u.size < r.size → Abreast u v → Agrees kind u v)

include ih

/-- An attribute, a gap, or something that may not stand there. -/
theorem agrees_on_line (hk : r.advance.1.kind = s.advance.1.kind)
    (hline : r.advance.1.kind ≠ .lineEnd) (hend : r.advance.1.kind ≠ .batchEnd)
    (hin : InLine r.advance.2 s.advance.2) : Agrees kind r s := by
  have hlt := advance_size_lt hend
  by_cases hg : r.advance.1.kind = .gap
  · exact agrees_of_eq (items_gap hg) (items_gap (hk ▸ hg)) (ih _ _ hlt hin.abreast)
  by_cases ha : r.advance.1.kind = .attr
  · have ha' : s.advance.1.kind = .attr := hk ▸ ha
    have hle := Nat.lt_of_le_of_lt (attributeItem_size_le kind r.advance.2) hlt
    obtain ⟨e, e', he, he'⟩ | ⟨i, hi, hi', habreast⟩ := (attributeItem_alike kind hin).cases
    · exact agrees_of_error (items_fault ha he) (items_fault ha' he')
    · exact agrees_of_cons (items_attribute ha hi) (items_attribute ha' hi')
        (ih _ _ hle habreast)
  · obtain ⟨e, he⟩ : ∃ e, (r.items kind).1 = .error e := items_refused hend hg hline ha
    obtain ⟨e', he'⟩ : ∃ e, (s.items kind).1 = .error e :=
      items_refused (hk ▸ hend) (hk ▸ hg) (hk ▸ hline) (hk ▸ ha)
    exact agrees_of_error he he'

/-- A text run after a blank line. -/
theorem agrees_paragraph {l l' : Text} {more' : List Text} (hk : r.advance.1.kind = .lineEnd)
    (hk' : s.advance.1.kind = .lineEnd) (hat : r.advance.2.At (l :: more))
    (hat' : s.advance.2.At (l' :: more')) (hl : l.head? ≠ some '@') (hl' : l'.head? ≠ some '@')
    (htext : r.advance.2.text.Alike InLine s.advance.2.text) : Agrees kind r s := by
  obtain ⟨hrun, hin⟩ := htext
  refine agrees_of_cons (items_text hk hat hl) ?_ (ih _ _ (scanText_size_lt hk) hin.abreast)
  rw [items_text hk' hat' hl', ← hrun]

/-- Two blank lines are an empty text run, or the first lines of the text that follows. -/
theorem agrees_two_blanks (hr : r.Stands ([] :: [] :: more))
    (hs : s.Stands (squeeze ([] :: more))) : Agrees kind r s := by
  obtain ⟨hk, hat⟩ := hr.blank
  by_cases hmore : StopsRun more
  · obtain ⟨hempty, hleft⟩ := text_reads_empty hat hmore
    have hrun : r.advance.2.scanText.1.lexeme = [] := by simpa [text] using hempty
    obtain ⟨s', hs', hsame⟩ : ∃ s' : Reader, s'.Stands (squeeze more) ∧
        s.items kind = s'.items kind := exists_past_blank hs hmore
    have hagrees : Agrees kind r.advance.2.scanText.2 s' :=
      ih _ _ (scanText_size_lt hk) ⟨more, AtLineEnd.stands (.inl hleft), hs'⟩
    refine agrees_of_empty ?_ (agrees_of_eq rfl hsame hagrees)
    rw [items_text hk hat (by simp), hrun]
  · obtain ⟨l, lines, rfl, hl⟩ : ∃ l lines, more = l :: lines ∧ endsRun l = false := by
      cases more with
      | nil => exact absurd stopsRun_nil hmore
      | cons l lines => exact ⟨l, lines, rfl, by simpa [StopsRun] using hmore⟩
    have hne : l ≠ [] := by
      rintro rfl
      cases hl
    have hsign : l.head? ≠ some '@' := by
      intro hsign
      obtain ⟨t, rfl⟩ := List.head?_eq_some_iff.mp hsign
      cases hl
    rw [squeeze_blank_cons hne] at hs
    obtain ⟨hk', hat'⟩ := hs.blank
    exact agrees_paragraph ih hk hk' hat hat' (by simp) hsign (text_alike_past_blank hl hat hat')

end Step

/-- **Items are read from squeezed lines as they are from the lines.**  By induction on what is left
to the first reader.  Before a line the readers go on together; before two blank lines more the
first one reads an empty text run and the second one stays. -/
theorem items_squeeze (kind : RecordKind) {r s : Reader} (h : Abreast r s) : Agrees kind r s := by
  induction hn : r.size using Nat.strongRecOn generalizing r s with
  | _ n ih =>
    subst hn
    replace ih : ∀ u v : Reader, u.size < r.size → Abreast u v → Agrees kind u v :=
      fun u v hlt huv => ih u.size hlt huv rfl
    obtain ⟨rest, hr, hs⟩ := h
    obtain ⟨hend, hend'⟩ | ⟨l, more, rfl⟩ | ⟨hk, hline, hend, hin⟩ := advance_alike hr hs
    · exact agrees_of_ok (items_end hend) (items_end hend')
    · obtain ⟨hk, hat⟩ := hr.blank
      have hlt := advance_size_lt (r := r) (by simp [hk])
      by_cases hl : l = []
      · subst hl
        exact agrees_two_blanks ih hr (squeeze_blank_blank more ▸ hs)
      · rw [squeeze_blank_cons hl] at hs
        obtain ⟨hk', hat'⟩ := hs.blank
        have hin : InLine r.advance.2 s.advance.2 := ⟨l, more, hat, hat'⟩
        by_cases hsign : l.head? = some '@'
        · obtain ⟨t, rfl⟩ := List.head?_eq_some_iff.mp hsign
          exact agrees_of_eq (items_sign hk hat) (items_sign hk' hat') (ih _ _ hlt hin.abreast)
        · exact agrees_paragraph ih hk hk' hat hat' hsign hsign (text_alike hin)
    · exact agrees_on_line ih hk hline hend hin

/-! ## Headings and records -/

/-- Both headings say the same, or both are refused.  A kind with nothing but blank lines after it
opens a record without a name, though, and is refused when these are gone. -/
def HeadingsAlike (x y : Reading (RecordKind × Option Text)) : Prop :=
  x.Alike Abreast y ∨
    ∃ kind rest e, x.1 = .ok (kind, none) ∧ x.2.Stands rest ∧ squeeze rest = [] ∧ y.1 = .error e

theorem heading_alike (h : InLine r s) : HeadingsAlike r.heading s.heading := by
  unfold heading
  simp only
  obtain ⟨more, hk, hk', _⟩ | ⟨hk, _, _, _, hin⟩ := scan_alike h
  · have hends := TokenKind.ending_ne .attr (by simp)
    rw [if_pos (hk ▸ hends _), if_pos (hk' ▸ hends _)]
    exact .inl trivial
  by_cases hsign : r.scan.1.kind ≠ .attr
  · rw [if_pos hsign, if_pos (hk ▸ hsign)]
    exact .inl trivial
  rw [if_neg hsign, if_neg (hk ▸ hsign)]
  obtain ⟨more, hk, hk', _⟩ | ⟨hk, _, _, _, hin⟩ := scan_alike hin
  · rw [hk, hk']
    cases more <;> cases squeeze _ <;> exact .inl trivial
  rw [← hk]
  split
  · split
    · obtain ⟨more, hk, hk', hstands, hstands'⟩ | ⟨hk, hl, hline, _, hin⟩ :=
        scanPastGap_alike hin
      · rw [hk, hk']
        cases more with
        | nil => exact .inl trivial
        | cons l lines =>
          cases hsqueeze : squeeze (l :: lines) with
          | nil => exact .inr ⟨_, _, _, rfl, hstands, hsqueeze, rfl⟩
          | cons l' lines' => exact .inl ⟨rfl, _, hstands, hstands'⟩
      · rw [← hk, hl]
        split
        · exact .inl ⟨rfl, hin.abreast⟩
        · contradiction
        · exact .inl trivial
    · exact .inl trivial
  · exact .inl trivial

/-- A batch starts with a heading, not with a blank line. -/
theorem heading_blank (h : r.At rest) (hrest : rest.headD [] = []) :
    ∃ e, r.heading.1 = .error e := by
  have hsign : r.scan.1.kind ≠ .attr := by
    match rest with
    | [] => simp [h.scan_nil]
    | [] :: more => exact h.scan_end.1 ▸ TokenKind.ending_ne .attr (by simp) more
  unfold heading
  simp only [if_pos hsign]
  exact ⟨_, rfl⟩

/-- After a heading, a record is read where the items describe it and it has a name and a parent. -/
theorem record_eq_ok_iff {origin : Text} {record : Record} {name : Option Text}
    (hheading : r.heading.1 = .ok (kind, name)) :
    (r.record origin).1 = .ok record ↔ ∃ written, r.heading.2.Spells kind written ∧
      record = Record.ofItems kind name origin written ∧ record.name ≠ [] ∧
      record.parent ≠ none := by
  constructor
  · intro h
    obtain ⟨kind', name', items, hheading', hitems, hrecord⟩ := record_eq_ok h
    obtain ⟨rfl, rfl⟩ : kind = kind' ∧ name = name' := by simpa [hheading] using hheading'
    have hspells : r.heading.2.Spells kind items := ⟨items, hitems, fun _ => rfl⟩
    rw [record_of_spells hheading hspells, ← hrecord] at h
    refine ⟨items, hspells, hrecord, fun hname => ?_, fun hparent => ?_⟩
    · simp [hname] at h
    · by_cases hname : record.name = [] <;> simp [hname, hparent] at h
  · rintro ⟨written, hspells, rfl, hname, hparent⟩
    rw [record_of_spells hheading hspells]
    simp [hname, hparent]

theorem record_error {e : Fault} (h : r.heading.1 = .error e) (origin : Text) (record : Record) :
    (r.record origin).1 ≠ .ok record := by
  intro hok
  obtain ⟨kind, name, _, hheading, _⟩ := record_eq_ok hok
  rw [h] at hheading
  cases hheading

/-- A heading without a name and nothing but blank lines after it describe no record. -/
theorem record_unnamed (hheading : r.heading.1 = .ok (kind, none))
    (hstands : r.heading.2.Stands rest) (hrest : squeeze rest = []) (origin : Text)
    (record : Record) : (r.record origin).1 ≠ .ok record := by
  have hend : (start []).Stands (squeeze rest) := .inl ⟨hrest, rfl⟩
  have hspells : r.heading.2.Spells kind [] :=
    (items_squeeze kind ⟨rest, hstands, hend⟩ []).mpr ⟨[], items_end rfl, fun _ => rfl⟩
  rw [record_of_spells hheading hspells]
  simp [Record.ofItems, Record.opening]

/-- **Records are read from squeezed lines as they are from the lines.** -/
theorem record_squeeze (h : InLine r s) (origin : Text) (record : Record) :
    (r.record origin).1 = .ok record ↔ (s.record origin).1 = .ok record := by
  obtain halike | ⟨kind, rest, e, hheading, hstands, hrest, he⟩ := heading_alike h
  · obtain ⟨e, e', he, he'⟩ | ⟨⟨kind, name⟩, hheading, hheading', habreast⟩ := halike.cases
    · exact iff_of_false (record_error he origin record) (record_error he' origin record)
    · rw [record_eq_ok_iff hheading, record_eq_ok_iff hheading']
      simp only [items_squeeze kind habreast _]
  · exact iff_of_false (record_unnamed hheading hstands hrest origin record)
      (record_error he origin record)

end Reader

/-! ## Batches -/

namespace Record

theorem parse_eq_ok_iff {origin : Text} {firstLine : Nat} {lines : List Text} {record : Record} :
    parse origin firstLine lines = .ok record ↔
      ((Reader.start lines).record origin).1 = .ok record := by
  refine ⟨parse_eq_ok, fun h => ?_⟩
  rw [parse, h]
  rfl

end Record

/-- **A batch is read as its squeezed lines are.** -/
theorem parse_squeeze (origin : Text) (firstLine : Nat) (lines : List Text) (record : Record) :
    Record.parse origin firstLine lines = .ok record ↔
      Record.parse origin firstLine (squeeze lines) = .ok record := by
  rw [Record.parse_eq_ok_iff, Record.parse_eq_ok_iff]
  match lines with
  | [] => exact Iff.rfl
  | [] :: more =>
    obtain ⟨e, he⟩ := Reader.heading_blank (Reader.start_at ([] :: more)) rfl
    obtain ⟨e', he'⟩ := Reader.heading_blank (Reader.start_at (squeeze ([] :: more)))
      (headD_squeeze_blank more)
    exact iff_of_false (Reader.record_error he origin record)
      (Reader.record_error he' origin record)
  | (a :: t) :: more =>
    rw [squeeze_cons (List.cons_ne_nil a t)]
    exact Reader.record_squeeze ⟨a :: t, more, Reader.start_at _, Reader.start_at _⟩ origin record

/-- Batches with the same squeezed lines give the same record, or both give none. -/
theorem parse_of_squeeze_eq {lines lines' : List Text} (h : squeeze lines = squeeze lines')
    (origin : Text) (firstLine : Nat) (record : Record) :
    Record.parse origin firstLine lines = .ok record ↔
      Record.parse origin firstLine lines' = .ok record := by
  rw [parse_squeeze, h, ← parse_squeeze]

/-- **The number of blank lines does not matter.**  Any two numbers of blank lines at the same place
of a batch give the same record or are both refused, and any number of them may follow a batch that
is read. -/
theorem parse_blankLines (origin : Text) (firstLine : Nat) (a b : List Text) (k m : Nat) :
    let parse := Record.parse origin firstLine
    (1 ≤ k → 1 ≤ m →
      (∃ record, parse (a ++ List.replicate k [] ++ b) = .ok record ∧
        parse (a ++ List.replicate m [] ++ b) = .ok record) ∨
      ∃ e e', parse (a ++ List.replicate k [] ++ b) = .error e ∧
        parse (a ++ List.replicate m [] ++ b) = .error e') ∧
    ∀ record n, parse a = .ok record → parse (a ++ List.replicate n []) = .ok record := by
  intro parse
  constructor
  · intro hk hm
    obtain ⟨k, rfl⟩ : ∃ i, k = i + 1 := ⟨k - 1, by omega⟩
    obtain ⟨m, rfl⟩ : ∃ i, m = i + 1 := ⟨m - 1, by omega⟩
    have hsqueeze : squeeze (a ++ List.replicate (k + 1) [] ++ b) =
        squeeze (a ++ List.replicate (m + 1) [] ++ b) := by
      rw [List.append_assoc, List.append_assoc]
      exact squeeze_append ((squeeze_replicate k b).trans (squeeze_replicate m b).symm) a
    have hsame := parse_of_squeeze_eq hsqueeze origin firstLine
    cases hx : parse (a ++ List.replicate (k + 1) [] ++ b) with
    | ok record => exact .inl ⟨record, rfl, (hsame record).mp hx⟩
    | error e =>
      cases hy : parse (a ++ List.replicate (m + 1) [] ++ b) with
      | ok record =>
        have hx' : parse (a ++ List.replicate (k + 1) [] ++ b) = .ok record := (hsame record).mpr hy
        rw [hx] at hx'
        cases hx'
      | error e' => exact .inr ⟨e, e', rfl, rfl⟩
  · intro record n hok
    have hsqueeze : squeeze (a ++ List.replicate n []) = squeeze a := by
      conv => rhs; rw [← List.append_nil a]
      exact squeeze_append (squeeze_trailing n) a
    exact (parse_of_squeeze_eq hsqueeze origin firstLine record).mpr hok

/-- One blank line and four of them, before a text and after it, and a batch without a parent, which
neither number makes up for. -/
theorem parse_blankLines_restart :
    let batch : List Text := ["@Action", "", "Restarts it.", "@Parent root", "@MetaType restart"]
    let orphan : List Text := ["@Action restart"]
    let text : List Text := ["Takes a while."]
    let record : Record :=
      { kind := .action, name := "restart", key := "restart", parent := some "root"
        short := "Restarts it.", long := "Takes a while.", origin := "svc" }
    let parse := Record.parse "svc" 1
    parse (batch ++ List.replicate 1 [] ++ text) = .ok record ∧
    parse (batch ++ List.replicate 4 [] ++ text) = .ok record ∧
    parse (batch ++ List.replicate 1 [] ++ text ++ List.replicate 4 []) = .ok record ∧
    ∃ e e', parse (orphan ++ List.replicate 1 [] ++ text) = .error e ∧
      parse (orphan ++ List.replicate 4 [] ++ text) = .error e' := by
  intro batch orphan text record parse
  have hone : parse (batch ++ List.replicate 1 [] ++ text) = .ok record :=
    eq_ok_of_toOption (by decide +kernel)
  have horphan : (parse (orphan ++ List.replicate 1 [] ++ text)).toOption = none := by
    decide +kernel
  refine ⟨hone, ?_, (parse_blankLines "svc" 1 _ [] 1 1).2 record 4 hone, ?_⟩
  · obtain ⟨record', hok, hok'⟩ | ⟨e, e', he, _⟩ :=
      (parse_blankLines "svc" 1 batch text 1 4).1 (by decide) (by decide)
    · cases hone.symm.trans hok
      exact hok'
    · cases hone.symm.trans he
  · obtain ⟨record', hok, _⟩ | herror :=
      (parse_blankLines "svc" 1 orphan text 1 4).1 (by decide) (by decide)
    · rw [show parse (orphan ++ List.replicate 1 [] ++ text) = .ok record' from hok] at horphan
      cases horphan
    · exact herror

end CommentDocs
