import CommentDocs.Proofs.Scanning

/-!
# What parsed records are made of

Whatever is read from a batch is made of words, type names and texts.  Which texts can come up
depends on the lines of the batch, so everything here is said about an invariant of the cursor and
the texts that it allows (`Cursor.Yields`):

* `attributeItem_ensures`, `items_ensures`: one item, and by induction all items of a batch, are
  made of what the invariant allows.
* `Record.Sound`: what holds of a record made of such items; `Record.Sound.add` is the step and
  `Record.ofItems_sound` the run.
* `Reader.record_ensures`, `Record.parse_sound`: every record that a reader gives, and every record
  parsed from any lines, is made so.
-/

set_option autoImplicit false

namespace CommentDocs

open Text (Trimmed)

/-! ## Tokens -/

namespace Cursor

/-- What text mode gives is trimmed. -/
theorem text_trimmed (c : Cursor) : Trimmed c.text.1.lexeme := by
  unfold text
  simp only
  split
  · rfl
  · exact Text.trim_trimmed _

/-- Every mode keeps the invariant `I`.  Where it holds, text mode gives one of the texts `D`, and
one of the texts `R` where a text run may start, which is after a line end unless a sign follows.
Runs are closed under joining with a space. -/
structure Yields (I : Cursor → Prop) (D R : Text → Prop) : Prop where
  token : ∀ c, I c → I c.token.2
  typeName : ∀ c, I c → I c.typeName.2
  text : ∀ c, I c → I c.text.2
  description : ∀ c, I c → D c.text.1.lexeme
  run : ∀ c, I c → c.token.1.kind = .lineEnd → c.token.2.peek ≠ .char '@' →
    R c.token.2.text.1.lexeme
  join : ∀ a b, a ≠ [] → b ≠ [] → R a → R b → R (a ++ ' ' :: b)

/-- Whatever the lines are, texts are trimmed. -/
theorem trimmed_yields : Yields (fun _ => True) Trimmed Trimmed where
  token _ _ := trivial
  typeName _ _ := trivial
  text _ _ := trivial
  description c _ := text_trimmed c
  run c _ _ _ := text_trimmed c.token.2
  join _ _ ha0 hb0 ha hb := ha.append_space ha0 hb hb0

end Cursor

/-! ## Readers -/

/-- If something is read it has the property `P`, and in any case the reader afterwards has `I`. -/
structure Reading.Ensures {α : Type} (x : Reading α) (P : α → Prop) (I : Reader → Prop) :
    Prop where
  value : ∀ a, x.1 = .ok a → P a
  reader : I x.2

namespace Reading

variable {α β : Type} {x : Reading α} {P : α → Prop} {Q : β → Prop} {I J : Reader → Prop}

theorem Ensures.andThen {f : α → Reader → Reading β} (hx : x.Ensures P I)
    (hf : ∀ a r, P a → I r → (f a r).Ensures Q J) (hfail : ∀ r, I r → J r) :
    (x.andThen f).Ensures Q J := by
  obtain ⟨e | a, r⟩ := x
  · exact ⟨fun _ h => (by cases h), hfail r hx.reader⟩
  · exact hf a r (hx.value a rfl) hx.reader

theorem Ensures.map {f : α → β} (hx : x.Ensures P I) (hf : ∀ a, P a → Q (f a)) :
    (x.map f).Ensures Q I :=
  hx.andThen (fun a _ ha hr => ⟨fun _ h => (by cases h; exact hf a ha), hr⟩) fun _ h => h

theorem Ensures.mono (hx : x.Ensures P I) (hI : ∀ r, I r → J r) : x.Ensures P J :=
  ⟨hx.value, hI _ hx.reader⟩

theorem ensures_error (e : Fault) {r : Reader} (hr : I r) :
    Ensures (α := α) (.error e, r) P I :=
  ⟨fun _ h => (by cases h), hr⟩

theorem ensures_ok {a : α} {r : Reader} (ha : P a) (hr : I r) : Ensures (.ok a, r) P I :=
  ⟨fun _ h => (by cases h; exact ha), hr⟩

end Reading

/-- The parameter is made of a word, a type name and a text. -/
structure Parameter.MadeOf (D : Text → Prop) (p : Parameter) : Prop where
  name : IsWord p.name
  type : IsTypeName p.type
  description : D p.description

/-- The item is made of words, type names and texts, and a record of the kind may have it. -/
def Item.MadeOf (kind : RecordKind) (D R : Text → Prop) : Item → Prop
  | .metaType key => IsWord key
  | .is name => IsWord name
  | .parent key => IsWord key
  | .param p => kind = .action ∧ p.MadeOf D
  | .returns type => kind = .action ∧ IsWord type
  | .column p => kind = .action ∧ p.MadeOf D
  | .value type permission => IsTypeName type ∧ ∀ w ∈ permission, IsWord w
  | .text run => R run

namespace Reader

/-- No token is put back, and the cursor has the invariant. -/
def Clear (I : Cursor → Prop) (r : Reader) : Prop := r.pending = none ∧ I r.cursor

variable {I : Cursor → Prop} {D R : Text → Prop} {r : Reader}

theorem scan_clear (hy : Cursor.Yields I D R) (h : I r.cursor) : r.scan.2.Clear I := by
  refine ⟨scan_pending r, ?_⟩
  unfold scan
  split
  · exact h
  · exact hy.token _ h

theorem scanPastGap_clear (hy : Cursor.Yields I D R) (h : I r.cursor) :
    r.scanPastGap.2.Clear I := by
  unfold scanPastGap
  simp only
  split
  · exact scan_clear hy (scan_clear hy h).2
  · exact scan_clear hy h

theorem scanPastGap_isWord (hp : r.pending = none) (hk : r.scanPastGap.1.kind = .word) :
    IsWord r.scanPastGap.1.lexeme := by
  obtain ⟨c, _, htoken, _⟩ := scanPastGap_cases hp
  rw [htoken] at hk ⊢
  exact Cursor.token_isWord hk

theorem word_ensures (hy : Cursor.Yields I D R) (h : r.Clear I) :
    r.word.Ensures IsWord (Clear I) := by
  have hr := scanPastGap_clear hy h.2
  unfold word
  simp only
  split
  · rename_i hk
    exact Reading.ensures_ok (scanPastGap_isWord h.1 hk) hr
  · exact Reading.ensures_error _ hr

theorem typeName_ensures (hy : Cursor.Yields I D R) (h : r.Clear I) :
    r.typeName.Ensures IsTypeName (Clear I) := by
  have hr : r.scanType.2.Clear I := ⟨by simpa [scanType] using h.1, hy.typeName _ h.2⟩
  unfold typeName
  simp only
  split
  · rename_i hk
    exact Reading.ensures_ok (Cursor.typeName_isTypeName hk) hr
  · exact Reading.ensures_error _ hr

theorem scanText_clear (hy : Cursor.Yields I D R) (h : r.Clear I) : r.scanText.2.Clear I :=
  ⟨by simpa [scanText] using h.1, hy.text _ h.2⟩

theorem text_ensures (hy : Cursor.Yields I D R) (h : r.Clear I) : r.text.Ensures D (Clear I) :=
  Reading.ensures_ok (hy.description _ h.2) (scanText_clear hy h)

theorem parameter_ensures (hy : Cursor.Yields I D R) (h : r.Clear I) :
    r.parameter.Ensures (Parameter.MadeOf D) (Clear I) := by
  refine (word_ensures hy h).andThen (fun name r hname hr => ?_) fun _ hr => hr
  refine (typeName_ensures hy hr).andThen (fun type r htype hr => ?_) fun _ hr => hr
  exact (text_ensures hy hr).map fun description hd => ⟨hname, htype, hd⟩

/-- A token that is put back leaves the cursor where it is. -/
theorem permission_ensures (hy : Cursor.Yields I D R) (h : r.Clear I) :
    r.permission.Ensures (fun p => ∀ w ∈ p, IsWord w) (fun r => I r.cursor) := by
  have hs : r.checkSlot.scanPastGap.2.Clear I := scanPastGap_clear hy (by simpa using h.2)
  unfold permission
  simp only [peek]
  split
  · split
    · split
      · rename_i hk
        refine Reading.ensures_ok (fun w hw => ?_) hs.2
        cases hw
        exact scanPastGap_isWord (by simpa using h.1) hk
      · exact Reading.ensures_ok (by simp) (by simpa [unscan] using hs.2)
      · exact Reading.ensures_ok (by simp) (by simpa [unscan] using hs.2)
      · exact Reading.ensures_error _ hs.2
    · exact Reading.ensures_ok (by simp) (by simpa using h.2)
  · exact Reading.ensures_ok (by simp) (by simpa using h.2)

/-- **One attribute is made of what the invariant allows.**  The name of the attribute is scanned
first, so no token is put back when its arguments are read. -/
theorem attributeItem_ensures (hy : Cursor.Yields I D R) (kind : RecordKind) (h : I r.cursor) :
    (r.attributeItem kind).Ensures (Item.MadeOf kind D R) (fun r => I r.cursor) := by
  have hs := scan_clear hy h
  have hword {f : Text → Item} (hf : ∀ w, IsWord w → (f w).MadeOf kind D R) :
      (r.scan.2.word.map f).Ensures (Item.MadeOf kind D R) fun r => I r.cursor :=
    ((word_ensures hy hs).map hf).mono fun _ hr => hr.2
  have hparameter {f : Parameter → Item} (hf : ∀ p, p.MadeOf D → (f p).MadeOf kind D R) :
      (r.scan.2.parameter.map f).Ensures (Item.MadeOf kind D R) fun r => I r.cursor :=
    ((parameter_ensures hy hs).map hf).mono fun _ hr => hr.2
  unfold attributeItem
  simp only
  split
  · rename_i k hk
    split
    · exact Reading.ensures_error _ hs.2
    · rename_i hallowed
      have haction : k.isActionOnly = true → kind = .action := by simpa using hallowed
      split
      · exact hword fun _ hw => hw
      · exact hword fun _ hw => hw
      · exact hword fun _ hw => hw
      · exact hparameter fun _ hp => ⟨haction rfl, hp⟩
      · exact hword fun _ hw => ⟨haction rfl, hw⟩
      · exact hparameter fun _ hp => ⟨haction rfl, hp⟩
      · refine (typeName_ensures hy hs).andThen (fun type r htype hr => ?_) fun _ hr => hr.2
        exact (permission_ensures hy hr).map fun p hp => ⟨htype, hp⟩
      all_goals exact Reading.ensures_error _ hs.2
  · exact Reading.ensures_error _ hs.2

/-- A line end before an item is scanned afresh: one that was put back is passed over first. -/
theorem advance_lineEnd (hk : r.advance.1.kind = .lineEnd) :
    r.advance.1 = r.skipLineEnd.cursor.token.1 ∧
      r.advance.2.cursor = r.skipLineEnd.cursor.token.2 := by
  by_cases hl : r.scan.1.kind = .lineEnd
  · have hskip : r.skipLineEnd = r.scan.2 := by simp [skipLineEnd, hl]
    exact scan_fresh (by rw [hskip, scan_pending])
  · have hskip : r.skipLineEnd = r.scan.2.unscan r.scan.1 := by simp [skipLineEnd, hl]
    rw [advance, hskip, scan_unscan] at hk
    exact absurd hk hl

theorem skipLineEnd_keeps (hy : Cursor.Yields I D R) (h : I r.cursor) :
    I r.skipLineEnd.cursor := by
  have hs := scan_clear hy h
  unfold skipLineEnd
  simp only
  split
  · exact hs.2
  · simpa [unscan] using hs.2

theorem advance_clear (hy : Cursor.Yields I D R) (h : I r.cursor) : r.advance.2.Clear I :=
  scan_clear hy (skipLineEnd_keeps hy h)

theorem peek_clear (h : r.Clear I) : r.peek.2.Clear I :=
  ⟨by simpa [peek] using h.1, by simpa [peek] using h.2⟩

/-- **All items of a batch are made of what the invariant allows.** -/
theorem items_ensures (hy : Cursor.Yields I D R) (kind : RecordKind) (r : Reader)
    (h : I r.cursor) :
    (r.items kind).Ensures (fun items => ∀ i ∈ items, i.MadeOf kind D R)
      fun r => I r.cursor := by
  have hcons {r' : Reader} {i : Item} (hi : i.MadeOf kind D R)
      (hmore : (r'.items kind).Ensures (fun items => ∀ i ∈ items, i.MadeOf kind D R)
        fun r => I r.cursor) :
      ((r'.items kind).map (i :: ·)).Ensures (fun items => ∀ i ∈ items, i.MadeOf kind D R)
        fun r => I r.cursor :=
    hmore.map fun _ hm => List.forall_mem_cons.mpr ⟨hi, hm⟩
  fun_induction items kind r with
  | case1 r hk => exact Reading.ensures_ok (by simp) (advance_clear hy h).2
  | case2 r hk ih => exact ih (advance_clear hy h).2
  | case3 r hk hsign ih => exact ih (peek_clear (advance_clear hy h)).2
  | case4 r hk hsign s ih =>
    obtain ⟨htoken, hcursor⟩ := advance_lineEnd hk
    have hrun : R r.advance.2.cursor.text.1.lexeme := by
      rw [hcursor]
      refine hy.run _ (skipLineEnd_keeps hy h) (by rw [← htoken]; exact hk) ?_
      rw [← hcursor]
      exact hsign
    have hs : s.2.Clear I := scanText_clear hy (peek_clear (advance_clear hy h))
    refine hcons (i := .text s.1.lexeme) ?_ (ih hs.2)
    simpa [s, peek, scanText, Item.MadeOf] using hrun
  | case5 r hk e r' ha =>
    have hattr := attributeItem_ensures hy kind (advance_clear hy h).2
    rw [ha] at hattr
    exact Reading.ensures_error e hattr.reader
  | case6 r hk i r' ha ih =>
    have hattr := attributeItem_ensures hy kind (advance_clear hy h).2
    rw [ha] at hattr
    exact hcons (hattr.value i rfl) (ih hattr.reader)
  | case7 r => exact Reading.ensures_error _ (advance_clear hy h).2

theorem heading_ensures (hy : Cursor.Yields I D R) (h : I r.cursor) :
    r.heading.Ensures (fun k => ∀ w ∈ k.2, IsWord w) fun r => I r.cursor := by
  have h₁ := scan_clear hy h
  have h₂ := scan_clear hy h₁.2
  have h₃ := scanPastGap_clear hy h₂.2
  unfold heading
  simp only
  split
  · exact Reading.ensures_error _ h₁.2
  · split
    · split
      · split
        · rename_i hk
          refine Reading.ensures_ok (fun w hw => ?_) h₃.2
          cases hw
          exact scanPastGap_isWord h₂.1 hk
        · exact Reading.ensures_ok (by simp) (by simpa [unscan] using h₃.2)
        · exact Reading.ensures_error _ h₃.2
      · exact Reading.ensures_error _ h₂.2
    · exact Reading.ensures_error _ h₂.2

/-- **A record that is read** is what a heading and items describe, and has a name and a parent. -/
theorem record_eq_ok {origin : Text} {record : Record} (h : (r.record origin).1 = .ok record) :
    ∃ kind name items, r.heading.1 = .ok (kind, name) ∧
      (r.heading.2.items kind).1 = .ok items ∧ record = Record.ofItems kind name origin items := by
  unfold Reader.record at h
  generalize r.heading = x at h ⊢
  obtain ⟨e | ⟨kind, name⟩, r'⟩ := x
  · cases h
  · simp only [Reading.andThen] at h ⊢
    cases hi : r'.items kind with
    | mk value r'' =>
      rw [hi] at h
      cases value with
      | error e => cases h
      | ok items =>
        refine ⟨kind, name, items, rfl, by rw [hi], ?_⟩
        simp only at h
        split at h
        · cases h
        · split at h
          · cases h
          · cases h; rfl

end Reader

/-! ## Records -/

/-- The record is made of words, type names and texts.  Its name and its key are both missing as
long as neither the heading nor a meta type gave one. -/
structure Record.Sound (D R : Text → Prop) (r : Record) : Prop where
  names : r.name = [] ∧ r.key = [] ∨ IsWord r.name ∧ IsWord r.key
  is : ∀ w ∈ r.is, IsWord w
  parent : ∀ w ∈ r.parent, IsWord w
  short : r.short ≠ [] → R r.short
  long : r.long ≠ [] → r.short ≠ [] ∧ R r.long
  params : ∀ p ∈ r.params, r.kind = .action ∧ p.MadeOf D
  returns : ∀ w ∈ r.returns, r.kind = .action ∧ IsWord w
  columns : ∀ p ∈ r.columns, r.kind = .action ∧ p.MadeOf D
  valueType : ∀ n ∈ r.valueType, IsTypeName n
  writable : ∀ w ∈ r.writable, r.valueType ≠ none ∧ IsWord w

namespace Record

variable {D R : Text → Prop} {r : Record} {kind : RecordKind}

theorem addText_sound (hjoin : ∀ a b, a ≠ [] → b ≠ [] → R a → R b → R (a ++ ' ' :: b))
    (h : r.Sound D R) {run : Text} (hrun : R run) : (r.addText run).Sound D R := by
  unfold addText
  by_cases h0 : run = []
  · simpa [h0] using h
  by_cases hs : r.short = []
  · have hl : r.long = [] := Decidable.byContradiction fun hl => (h.long hl).1 hs
    simp only [h0, hs, List.isEmpty_iff, if_true, if_false]
    exact { h with short := fun _ => hrun, long := fun hl' => absurd hl hl' }
  by_cases hl : r.long = []
  · simp only [h0, hs, hl, List.isEmpty_iff, if_true, if_false]
    exact { h with long := fun _ => ⟨hs, hrun⟩ }
  · simp only [h0, hs, hl, List.isEmpty_iff, if_false]
    exact { h with long := fun _ => ⟨hs, hjoin _ _ hl h0 (h.long hl).2 hrun⟩ }

/-- No item changes what a record documents or where it was read. -/
theorem add_frame (r : Record) (i : Item) :
    (r.add i).kind = r.kind ∧ (r.add i).origin = r.origin := by
  cases i with
  | text run =>
    simp only [add, addText]
    repeat' split
    all_goals exact ⟨rfl, rfl⟩
  | _ => exact ⟨rfl, rfl⟩

/-- **Adding an item** made of words, type names and texts. -/
theorem Sound.add (hjoin : ∀ a b, a ≠ [] → b ≠ [] → R a → R b → R (a ++ ' ' :: b))
    (h : r.Sound D R) {i : Item} (hi : i.MadeOf r.kind D R) : (r.add i).Sound D R := by
  cases i with
  | metaType key =>
    have hnames : IsWord (if r.name.isEmpty then key else r.name) := by
      split
      · exact hi
      · rename_i h0
        rcases h.names with ⟨hn, _⟩ | ⟨hn, _⟩
        · simp [hn] at h0
        · exact hn
    exact { h with names := .inr ⟨hnames, hi⟩ }
  | is name => exact { h with is := fun _ hw => by cases hw; exact hi }
  | parent key => exact { h with parent := fun _ hw => by cases hw; exact hi }
  | param p =>
    refine { h with params := fun q hq => ?_ }
    rcases List.mem_append.mp hq with hq | hq
    · exact h.params q hq
    · rw [List.mem_singleton.mp hq]
      exact hi
  | returns type => exact { h with returns := fun _ hw => by cases hw; exact hi }
  | column p =>
    refine { h with columns := fun q hq => ?_ }
    rcases List.mem_append.mp hq with hq | hq
    · exact h.columns q hq
    · rw [List.mem_singleton.mp hq]
      exact hi
  | value type permission =>
    exact { h with
      valueType := fun _ hn => by cases hn; exact hi.1
      writable := fun w hw => ⟨by simp [Record.add], hi.2 w hw⟩ }
  | text run => exact addText_sound hjoin h hi

theorem opening_sound {name : Option Text} {origin : Text} (hname : ∀ w ∈ name, IsWord w) :
    (opening kind name origin).Sound D R := by
  have hnames : name.getD [] = [] ∧ name.getD [] = [] ∨
      IsWord (name.getD []) ∧ IsWord (name.getD []) := by
    cases name with
    | none => exact .inl ⟨rfl, rfl⟩
    | some w => exact .inr ⟨hname w rfl, hname w rfl⟩
  constructor
  case names => exact hnames
  all_goals simp [opening]

/-- **A record described by such items is made of them.** -/
theorem ofItems_sound (hjoin : ∀ a b, a ≠ [] → b ≠ [] → R a → R b → R (a ++ ' ' :: b))
    {name : Option Text} {items : List Item} (origin : Text) (hname : ∀ w ∈ name, IsWord w)
    (hi : ∀ i ∈ items, i.MadeOf kind D R) :
    (ofItems kind name origin items).Sound D R ∧
      (ofItems kind name origin items).origin = origin := by
  suffices ∀ r : Record, r.kind = kind → r.Sound D R →
      (items.foldl Record.add r).Sound D R ∧ (items.foldl Record.add r).origin = r.origin from
    this _ rfl (opening_sound hname)
  induction items with
  | nil => exact fun r _ hr => ⟨hr, rfl⟩
  | cons i items ih =>
    intro r hk hr
    obtain ⟨hfirst, hmore⟩ := List.forall_mem_cons.mp hi
    obtain ⟨hkind, horigin⟩ := r.add_frame i
    have hstep : (r.add i).Sound D R := hr.add hjoin (by rw [hk]; exact hfirst)
    have hrun := ih hmore (r.add i) (hkind.trans hk) hstep
    rwa [horigin] at hrun

end Record

theorem Record.parse_eq_ok {origin : Text} {firstLine : Nat} {lines : List Text}
    {record : Record} (h : Record.parse origin firstLine lines = .ok record) :
    ((Reader.start lines).record origin).1 = .ok record := by
  unfold Record.parse located at h
  split at h
  · rename_i hok
    cases h
    exact hok
  · cases h

/-- The record is sound and complete: it has a name, a key, a parent and the given origin. -/
structure Record.Whole (D R : Text → Prop) (origin : Text) (r : Record) : Prop where
  sound : r.Sound D R
  name : IsWord r.name
  key : IsWord r.key
  parent : r.parent ≠ none
  origin : r.origin = origin

/-- **Every record that is read is made of what the invariant allows**, wherever the reader stands. -/
theorem Reader.record_ensures {I : Cursor → Prop} {D R : Text → Prop} (hy : Cursor.Yields I D R)
    (origin : Text) {r : Reader} (h : I r.cursor) :
    (r.record origin).Ensures (Record.Whole D R origin) fun r => I r.cursor := by
  refine (heading_ensures hy h).andThen (fun k r hname hr => ?_) fun _ hr => hr
  refine (items_ensures hy k.1 r hr).andThen (fun items r hitems hr => ?_) fun _ hr => hr
  obtain ⟨hsound, horigin⟩ := Record.ofItems_sound hy.join origin hname hitems
  simp only
  split
  · exact Reading.ensures_error _ hr
  · rename_i hn
    split
    · exact Reading.ensures_error _ hr
    · rename_i hp
      obtain ⟨hword, hkey⟩ := hsound.names.resolve_left fun h0 => hn (by simp [h0.1])
      exact Reading.ensures_ok ⟨hsound, hword, hkey, by simpa using hp, horigin⟩ hr

/-- **Every parsed record is made of what the invariant allows**, and has a name, a parent and the
origin it was read from. -/
theorem Record.parse_sound {I : Cursor → Prop} {D R : Text → Prop} (hy : Cursor.Yields I D R)
    {origin : Text} {firstLine : Nat} {lines : List Text} {record : Record}
    (hstart : I (Cursor.start lines)) (h : Record.parse origin firstLine lines = .ok record) :
    record.Whole D R origin :=
  (Reader.record_ensures hy origin (r := .start lines) hstart).value record (Record.parse_eq_ok h)

end CommentDocs
