import CommentDocs.Proofs.Reading

/-!
# Batches as they are written

A batch is written as a heading and blocks: each block is an item on lines of its own, with any
number of blank lines before it.  A text run needs at least one of them, since the line before it
would swallow it otherwise.

* `WrittenItem.lines` and `WrittenItem.item`: how an item looks and what it says.
* `attribute_reads`: every attribute is read back, whatever follows that ends a text run.
* `spells_blocks`: so are all blocks, with any number of blank lines between and after them.  Blank
  lines are read two at a time, as an empty text run, which is why the items read and the items
  written are compared by what they do to a record (`Spells`).
* `parse_blocks`, `parse_written`: a batch is parsed to the record that its items describe.
-/

set_option autoImplicit false

namespace CommentDocs

open Text (Outside isGap Trimmed spaced)

/-- A line of free text. -/
structure IsTextLine (l : Text) : Prop where
  nonempty : l ≠ []
  trimmed : Trimmed l
  no_sign : l.head? ≠ some '@'

instance (l : Text) : Decidable (IsTextLine l) :=
  decidable_of_iff (l ≠ [] ∧ Trimmed l ∧ l.head? ≠ some '@')
    ⟨fun ⟨h₁, h₂, h₃⟩ => ⟨h₁, h₂, h₃⟩, fun h => ⟨h.nonempty, h.trimmed, h.no_sign⟩⟩

theorem IsTextLine.goes_on {l : Text} (h : IsTextLine l) :
    endsRun l = false ∧ Outside isGap l := by
  refine ⟨?_, h.trimmed.outside_gap⟩
  obtain ⟨c, t, rfl⟩ := List.exists_cons_of_ne_nil h.nonempty
  simpa [endsRun] using h.no_sign

/-- An item as it is written.  The description of a parameter starts on the line of the attribute,
perhaps with nothing, and goes on over more lines. -/
inductive WrittenItem where
  | metaType (key : Text)
  | is (name : Text)
  | parent (key : Text)
  | param (name type first : Text) (more : List Text)
  | returns (type : Text)
  | column (name type first : Text) (more : List Text)
  | value (type : Text) (permission : Option Text)
  | text (first : Text) (more : List Text)
  deriving DecidableEq, Repr

/-- The texts that are not empty. -/
def nonempty (parts : List Text) : List Text := parts.filter fun t => !t.isEmpty

/-- An attribute with its arguments on one line. -/
def attributeLine (k : Keyword) (arguments : List Text) : Text :=
  spaced (('@' :: k.spelling) :: arguments)

namespace WrittenItem

/-- The lines of an item. -/
def lines : WrittenItem → List Text
  | .metaType key => [attributeLine .metaType [key]]
  | .is name => [attributeLine .is [name]]
  | .parent key => [attributeLine .parent [key]]
  | .param name type first more => attributeLine .param (name :: type :: nonempty [first]) :: more
  | .returns type => [attributeLine .returns [type]]
  | .column name type first more =>
    attributeLine .column (name :: type :: nonempty [first]) :: more
  | .value type permission => [attributeLine .value (type :: permission.toList)]
  | .text first more => first :: more

/-- What an item says. -/
def item : WrittenItem → Item
  | .metaType key => .metaType key
  | .is name => .is name
  | .parent key => .parent key
  | .param name type first more => .param ⟨name, type, spaced (nonempty (first :: more))⟩
  | .returns type => .returns type
  | .column name type first more => .column ⟨name, type, spaced (nonempty (first :: more))⟩
  | .value type permission => .value type permission
  | .text first more => .text (spaced (first :: more))

/-- Whether the item is a text run. -/
def isText : WrittenItem → Bool
  | .text _ _ => true
  | _ => false

/-- The parts of the item are what they should be, and a record of the kind may have it. -/
def WellFormed (kind : RecordKind) : WrittenItem → Prop
  | .metaType key => IsWord key
  | .is name => IsWord name
  | .parent key => IsWord key
  | .param name type first more =>
    kind = .action ∧ IsWord name ∧ IsTypeName type ∧ Trimmed first ∧ ∀ l ∈ more, IsTextLine l
  | .returns type => kind = .action ∧ IsWord type
  | .column name type first more =>
    kind = .action ∧ IsWord name ∧ IsTypeName type ∧ Trimmed first ∧ ∀ l ∈ more, IsTextLine l
  | .value type permission => IsTypeName type ∧ ∀ w ∈ permission, IsWord w
  | .text first more => IsTextLine first ∧ ∀ l ∈ more, IsTextLine l

instance (kind : RecordKind) : (i : WrittenItem) → Decidable (i.WellFormed kind)
  | .metaType key => inferInstanceAs (Decidable (IsWord key))
  | .is name => inferInstanceAs (Decidable (IsWord name))
  | .parent key => inferInstanceAs (Decidable (IsWord key))
  | .param name type first more => inferInstanceAs (Decidable (kind = .action ∧ IsWord name ∧
      IsTypeName type ∧ Trimmed first ∧ ∀ l ∈ more, IsTextLine l))
  | .returns type => inferInstanceAs (Decidable (kind = .action ∧ IsWord type))
  | .column name type first more => inferInstanceAs (Decidable (kind = .action ∧ IsWord name ∧
      IsTypeName type ∧ Trimmed first ∧ ∀ l ∈ more, IsTextLine l))
  | .value type permission =>
    inferInstanceAs (Decidable (IsTypeName type ∧ ∀ w ∈ permission, IsWord w))
  | .text first more => inferInstanceAs (Decidable (IsTextLine first ∧ ∀ l ∈ more, IsTextLine l))

end WrittenItem

/-! ## Attributes -/

/-- Trimming does nothing to lines of text. -/
theorem trim_spaced {lines : List Text} (h : ∀ l ∈ lines, IsTextLine l) :
    Text.trim (spaced lines) = spaced lines :=
  Text.spaced_trimmed fun l hl => ⟨(h l hl).nonempty, (h l hl).trimmed⟩

/-- Trimming removes the space that an empty line before them leaves. -/
theorem trim_spaced_blank {lines : List Text} (h : ∀ l ∈ lines, IsTextLine l) :
    Text.trim (spaced ([] :: lines)) = spaced lines := by
  cases lines with
  | nil => rfl
  | cons l lines => rw [Text.spaced_cons_cons, List.nil_append, Text.trim_space, trim_spaced h]

/-- A description that starts with nothing is made of the lines after it. -/
theorem trim_description {first : Text} {more : List Text} (hf : Trimmed first)
    (hm : ∀ l ∈ more, IsTextLine l) :
    Text.trim (spaced (first :: more)) = spaced (nonempty (first :: more)) := by
  have hmore : nonempty more = more :=
    List.filter_eq_self.mpr fun l hl => by simpa using (hm l hl).nonempty
  by_cases h0 : first = []
  · rw [h0, trim_spaced_blank hm, show nonempty ([] :: more) = more from hmore]
  · have hall : nonempty (first :: more) = first :: more := by
      simpa [nonempty, List.filter_cons, h0] using hmore
    rw [hall]
    apply Text.spaced_trimmed
    intro l hl
    rcases List.mem_cons.mp hl with rfl | hl
    · exact ⟨h0, hf⟩
    · exact ⟨(hm l hl).nonempty, (hm l hl).trimmed⟩

namespace Reader

variable {r : Reader} {k : Keyword} {kind : RecordKind} {t w : Text} {more tail : List Text}

theorem scan_keyword (h : r.At ((k.spelling ++ t) :: more)) (ht : Outside isWordChar t) :
    r.scan.1.kind = .keyword k ∧ r.scan.2.At (t :: more) := by
  obtain ⟨h₁, _, h₂⟩ := scan_word h k.spelling_ne_nil k.spelling_chars ht
  exact ⟨by rw [h₁, Cursor.wordKind, k.ofSpelling?_spelling], h₂⟩

/-- The arguments of an attribute do not run into its name. -/
theorem outside_arguments (arguments : List Text) :
    Outside isWordChar (arguments.flatMap (' ' :: ·)) := by
  cases arguments with
  | nil => exact Text.outside_nil _
  | cons a arguments => exact Text.outside_cons _ (by decide)

theorem attributeLine_eq (k : Keyword) (arguments : List Text) :
    attributeLine k arguments = '@' :: (k.spelling ++ arguments.flatMap (' ' :: ·)) := by
  rw [attributeLine, Text.spaced_cons, List.cons_append]

/-- What stands after the sign of an attribute. -/
theorem attributeLine_tail {arguments lines : List Text}
    (h : attributeLine k arguments :: lines = ('@' :: t) :: more) :
    k.spelling ++ arguments.flatMap (' ' :: ·) = t ∧ lines = more := by
  simpa [attributeLine_eq] using h

/-- Attributes that take one word. -/
theorem attributeItem_word {f : Text → Item}
    (hf : r.scan.1.kind = .keyword k → r.attributeItem kind = r.scan.2.word.map f)
    (h : r.At ((k.spelling ++ [w].flatMap (' ' :: ·)) :: more)) (hw : IsWord w) :
    (r.attributeItem kind).Reads (f w) ([] :: more) := by
  obtain ⟨h₁, h₂⟩ := scan_keyword h (outside_arguments _)
  rw [hf h₁]
  exact (word_reads (t := []) (by simpa using h₂) hw (Text.outside_nil _)).map

/-- A first line of a description, with the space before it if it is not empty. -/
theorem flatMap_nonempty (first : Text) :
    ∃ gap, (∀ c ∈ gap, isGap c = true) ∧
      (nonempty [first]).flatMap (' ' :: ·) = gap ++ first := by
  cases first with
  | nil => exact ⟨[], by simp, rfl⟩
  | cons c t => exact ⟨[' '], Text.isGap_space, by simp [nonempty]⟩

/-- A name, a type and a description over any number of lines. -/
theorem parameter_reads {name type first : Text}
    (h : r.At ((name :: type :: nonempty [first]).flatMap (' ' :: ·) :: (more ++ tail)))
    (hname : IsWord name) (htype : IsTypeName type) (hf : Trimmed first)
    (hm : ∀ l ∈ more, IsTextLine l) (ht : StopsRun tail) :
    r.parameter.Reads ⟨name, type, spaced (nonempty (first :: more))⟩ ([] :: tail) := by
  obtain ⟨gap, hgap, heq⟩ := flatMap_nonempty first
  have hline : (name :: type :: nonempty [first]).flatMap (' ' :: ·) =
      ' ' :: (name ++ ' ' :: (type ++ (gap ++ first))) := by
    simp only [List.flatMap_cons, heq, List.cons_append]
  rw [hline] at h
  have h₁ := word_reads h hname (Text.outside_cons _ (by decide))
  have hout : Outside isTypeChar (gap ++ first) := by
    rw [← heq]
    cases nonempty [first] with
    | nil => exact Text.outside_nil _
    | cons a parts => exact Text.outside_cons _ (by decide)
  have h₂ := typeName_reads h₁.2 htype hout
  have h₃ := text_reads hgap h₂.2 hf.outside_gap (fun l hl => (hm l hl).goes_on) ht
  rw [trim_description hf hm] at h₃
  exact h₁.andThen (h₂.andThen h₃.map)

/-- Attributes that take a parameter. -/
theorem attributeItem_parameter {f : Parameter → Item} {name type first : Text}
    (hf : r.scan.1.kind = .keyword k → r.attributeItem kind = r.scan.2.parameter.map f)
    (h : r.At ((k.spelling ++ (name :: type :: nonempty [first]).flatMap (' ' :: ·)) ::
      (more ++ tail)))
    (hname : IsWord name) (htype : IsTypeName type) (hfirst : Trimmed first)
    (hm : ∀ l ∈ more, IsTextLine l) (ht : StopsRun tail) :
    (r.attributeItem kind).Reads (f ⟨name, type, spaced (nonempty (first :: more))⟩)
      ([] :: tail) := by
  obtain ⟨h₁, h₂⟩ := scan_keyword h (outside_arguments _)
  rw [hf h₁]
  exact (parameter_reads h₂ hname htype hfirst hm ht).map

theorem attributeItem_value {type : Text} {permission : Option Text}
    (h : r.At ((Keyword.spelling .value ++ (type :: permission.toList).flatMap (' ' :: ·)) ::
      more))
    (htype : IsTypeName type) (hp : ∀ w ∈ permission, IsWord w) :
    (r.attributeItem kind).Reads (.value type permission) ([] :: more) := by
  obtain ⟨h₁, h₂⟩ := scan_keyword h (outside_arguments _)
  have heq : r.attributeItem kind =
      r.scan.2.typeName.andThen fun type r => r.permission.map fun p => .value type p := by
    simp [attributeItem, h₁, Keyword.isActionOnly]
  rw [heq]
  cases permission with
  | none =>
    have h₃ := typeName_reads (t := []) (by simpa using h₂) htype (Text.outside_nil _)
    exact h₃.andThen (permission_reads_none h₃.2).map
  | some w =>
    have h₃ := typeName_reads (t := ' ' :: w) (by simpa using h₂) htype
      (Text.outside_cons _ (by decide))
    exact h₃.andThen (permission_reads_some h₃.2 (hp w rfl)).map

/-- **Every attribute is read back**, with the lines that its description goes on over. -/
theorem attribute_reads {i : WrittenItem} (hi : i.WellFormed kind)
    (hl : i.lines = ('@' :: t) :: more) (h : r.At (t :: (more ++ tail))) (ht : StopsRun tail) :
    (r.attributeItem kind).Reads i.item ([] :: tail) := by
  cases i with
  | metaType key =>
    obtain ⟨rfl, rfl⟩ := attributeLine_tail hl
    exact attributeItem_word (fun hk => by simp [attributeItem, hk, Keyword.isActionOnly]) h hi
  | is name =>
    obtain ⟨rfl, rfl⟩ := attributeLine_tail hl
    exact attributeItem_word (fun hk => by simp [attributeItem, hk, Keyword.isActionOnly]) h hi
  | parent key =>
    obtain ⟨rfl, rfl⟩ := attributeLine_tail hl
    exact attributeItem_word (fun hk => by simp [attributeItem, hk, Keyword.isActionOnly]) h hi
  | returns type =>
    obtain ⟨rfl, rfl⟩ := attributeLine_tail hl
    obtain ⟨rfl, hw⟩ := hi
    exact attributeItem_word (fun hk => by simp [attributeItem, hk]) h hw
  | param name type first lines =>
    obtain ⟨rfl, rfl⟩ := attributeLine_tail hl
    obtain ⟨rfl, hname, htype, hfirst, hlines⟩ := hi
    exact attributeItem_parameter (fun hk => by simp [attributeItem, hk]) h hname htype hfirst
      hlines ht
  | column name type first lines =>
    obtain ⟨rfl, rfl⟩ := attributeLine_tail hl
    obtain ⟨rfl, hname, htype, hfirst, hlines⟩ := hi
    exact attributeItem_parameter (fun hk => by simp [attributeItem, hk]) h hname htype hfirst
      hlines ht
  | value type permission =>
    obtain ⟨rfl, rfl⟩ := attributeLine_tail hl
    exact attributeItem_value h hi.1 hi.2
  | text first lines =>
    simp only [WrittenItem.lines, List.cons.injEq] at hl
    exact absurd (by rw [hl.1]; rfl) hi.1.no_sign

/-! ## Items -/

theorem items_end (h : r.advance.1.kind = .batchEnd) : (r.items kind).1 = .ok [] := by
  unfold items
  split <;> simp_all

theorem items_gap (h : r.advance.1.kind = .gap) : r.items kind = r.advance.2.items kind := by
  conv => lhs; unfold items
  split <;> simp_all

/-- After a blank line an attribute may follow. -/
theorem items_sign (h : r.advance.1.kind = .lineEnd) (hat : r.advance.2.At (('@' :: t) :: more)) :
    r.items kind = r.advance.2.items kind := by
  have hpeek : r.advance.2.peek = (.char '@', r.advance.2) := by
    rw [peek, Cursor.peek_of_rest hat.rest, hat.checkSlot]
  conv => lhs; unfold items
  split <;> simp_all

/-- After a blank line, what does not start with a sign is text. -/
theorem items_text {l : Text} (h : r.advance.1.kind = .lineEnd)
    (hat : r.advance.2.At (l :: more)) (hl : l.head? ≠ some '@') :
    r.items kind = (r.advance.2.scanText.2.items kind).map
      (.text r.advance.2.scanText.1.lexeme :: ·) := by
  have hpeek : r.advance.2.peek.1 ≠ .char '@' := by
    cases l with
    | nil => cases more <;> simp [peek, Cursor.peek, hat.rest]
    | cons c l => simpa [peek, Cursor.peek_of_rest hat.rest] using hl
  have hslot : r.advance.2.peek.2 = r.advance.2 := hat.checkSlot
  conv => lhs; unfold items
  split <;> simp_all

theorem items_attribute {i : Item} (h : r.advance.1.kind = .attr)
    (hok : (r.advance.2.attributeItem kind).1 = .ok i) :
    r.items kind = ((r.advance.2.attributeItem kind).2.items kind).map (i :: ·) := by
  conv => lhs; unfold items
  split
  case h_4 =>
    split
    · rename_i e r' ha
      rw [ha] at hok
      cases hok
    · rename_i i' r' ha
      rw [ha] at hok ⊢
      cases hok
      rfl
  all_goals simp_all

theorem items_fault {e : Fault} (h : r.advance.1.kind = .attr)
    (he : (r.advance.2.attributeItem kind).1 = .error e) : (r.items kind).1 = .error e := by
  unfold items
  split
  case h_4 =>
    split
    · rename_i e' r' ha
      rw [ha] at he
      cases he
      rfl
    · rename_i i r' ha
      rw [ha] at he
      cases he
  all_goals simp_all

/-- Nothing else may stand between items. -/
theorem items_refused (hend : r.advance.1.kind ≠ .batchEnd) (hgap : r.advance.1.kind ≠ .gap)
    (hline : r.advance.1.kind ≠ .lineEnd) (hattr : r.advance.1.kind ≠ .attr) :
    ∃ e, (r.items kind).1 = .error e := by
  unfold items
  split
  case h_5 => exact ⟨_, rfl⟩
  all_goals contradiction

/-- What is read from here on does to a record what the given items do. -/
def Spells (r : Reader) (kind : RecordKind) (written : List Item) : Prop :=
  ∃ items, (r.items kind).1 = .ok items ∧
    ∀ record : Record, items.foldl Record.add record = written.foldl Record.add record

/-- One more item before what is read. -/
theorem Spells.cons {r' : Reader} {i : Item} {written : List Item}
    (hr : r.items kind = (r'.items kind).map (i :: ·)) (h : r'.Spells kind written) :
    r.Spells kind (i :: written) := by
  obtain ⟨items, hok, hsame⟩ := h
  refine ⟨i :: items, ?_, fun record => hsame (record.add i)⟩
  rw [hr]
  generalize r'.items kind = x at hok
  obtain ⟨value, r''⟩ := x
  cases hok
  rfl

/-- An empty run of text does nothing. -/
theorem Spells.cons_empty {r' : Reader} {written : List Item}
    (hr : r.items kind = (r'.items kind).map (.text [] :: ·)) (h : r'.Spells kind written) :
    r.Spells kind written :=
  h.cons hr

/-- Reading a text run after a blank line. -/
theorem items_run {run l : Text} {rest : List Text} (h : r.AtLineEnd ([] :: l :: more))
    (hl : l.head? ≠ some '@')
    (htext : ∀ r' : Reader, r'.At (l :: more) → r'.text.Reads run rest) :
    ∃ r' : Reader, r'.At rest ∧ r.items kind = (r'.items kind).map (.text run :: ·) := by
  obtain ⟨h₁, h₂⟩ := advance_blank h
  obtain ⟨hok, hat⟩ := htext _ h₂
  have hrun : r.advance.2.scanText.1.lexeme = run := by simpa [text] using hok
  exact ⟨_, hat, by rw [items_text h₁ h₂ hl, hrun]; rfl⟩

/-- At the end of a line that nothing continues, the text run is empty. -/
theorem text_reads_empty (h : r.At ([] :: tail)) (ht : StopsRun tail) :
    r.text.Reads [] ([] :: tail) := by
  have h' : r.At (([] ++ []) :: ([] ++ tail)) := h
  exact text_reads (by simp) h' (Text.outside_nil _) (by simp) ht

/-- Two blank lines, and something after them that ends a text run, are an empty text run. -/
theorem spells_two_blanks {written : List Item} (h : r.AtLineEnd ([] :: [] :: tail))
    (ht : StopsRun tail) (hrest : ∀ r' : Reader, r'.AtLineEnd tail → r'.Spells kind written) :
    r.Spells kind written := by
  obtain ⟨r', hat, hitems⟩ := items_run h (by simp) fun r' hr' => text_reads_empty hr' ht
  exact Spells.cons_empty hitems (hrest r' (.inl hat))

theorem stopsRun_nil : StopsRun [] := by
  intro l hl; cases hl

theorem stopsRun_blank (lines : List Text) : StopsRun ([] :: lines) := by
  intro l hl; cases hl; rfl

theorem stopsRun_sign (t : Text) (lines : List Text) : StopsRun (('@' :: t) :: lines) := by
  intro l hl; cases hl; rfl

theorem stopsRun_replicate (n : Nat) (ht : StopsRun tail) :
    StopsRun (List.replicate n [] ++ tail) := by
  cases n with
  | zero => exact ht
  | succ n => exact stopsRun_blank _

/-- Blank lines at the end of a batch. -/
theorem spells_blanks : ∀ (n : Nat) {r : Reader}, r.AtLineEnd (List.replicate n []) →
    r.Spells kind []
  | 0, _, h => ⟨[], items_end (advance_end (.inl h)), fun _ => rfl⟩
  | 1, _, h => ⟨[], items_end (advance_end (.inr h)), fun _ => rfl⟩
  | n + 2, _, h => by
    have ht : StopsRun (List.replicate n []) := by
      simpa using stopsRun_replicate n stopsRun_nil
    exact spells_two_blanks h ht fun _ hr' => spells_blanks n hr'

section Block

variable {i : WrittenItem} {written : List Item}

/-- An attribute whose sign comes next. -/
theorem spells_sign (hi : i.WellFormed kind) (hl : i.lines = ('@' :: t) :: more)
    (ht : StopsRun tail) (hrest : ∀ r' : Reader, r'.AtLineEnd tail → r'.Spells kind written)
    (h : r.advance.1.kind = .attr ∧ r.advance.2.At (t :: (more ++ tail))) :
    r.Spells kind (i.item :: written) := by
  have hread := attribute_reads hi hl h.2 ht
  exact (hrest _ (.inl hread.2)).cons (items_attribute h.1 hread.1)

/-- **An attribute after any number of blank lines.**  After an odd number the reader stands at the
start of the line, after an even number at the end of the one before. -/
theorem spells_attribute (hi : i.WellFormed kind) (hl : i.lines = ('@' :: t) :: more)
    (ht : StopsRun tail) (hrest : ∀ r' : Reader, r'.AtLineEnd tail → r'.Spells kind written) :
    ∀ (n : Nat) {r : Reader},
      r.AtLineEnd (List.replicate n [] ++ ('@' :: t) :: (more ++ tail)) →
      r.Spells kind (i.item :: written)
  | 0, _, h => spells_sign hi hl ht hrest (advance_sign_of_lineEnd h)
  | 1, r, h => by
    obtain ⟨h₁, h₂⟩ := advance_blank h
    have hsame := spells_sign hi hl ht hrest (advance_sign h₂)
    unfold Spells at hsame ⊢
    rwa [items_sign h₁ h₂]
  | n + 2, _, h =>
    spells_two_blanks h (stopsRun_replicate n (stopsRun_sign _ _)) fun _ hr' =>
      spells_attribute hi hl ht hrest n hr'

/-- **A text run after one or more blank lines.**  After an even number the run starts on the last
of them, which adds a space that trimming removes. -/
theorem spells_text {lines : List Text} {first : Text} (hf : ∀ l ∈ first :: lines, IsTextLine l)
    (ht : StopsRun tail) (hrest : ∀ r' : Reader, r'.AtLineEnd tail → r'.Spells kind written) :
    ∀ (n : Nat) {r : Reader},
      r.AtLineEnd (List.replicate (n + 1) [] ++ first :: (lines ++ tail)) →
      r.Spells kind (.text (spaced (first :: lines)) :: written)
  | 0, r, h => by
    have hfirst := hf first (by simp)
    obtain ⟨r', hat, hitems⟩ := items_run h hfirst.no_sign fun r' hr' =>
      text_reads (List.forall_mem_nil _) hr' hfirst.goes_on.2
        (fun l hl => (hf l (List.mem_cons_of_mem _ hl)).goes_on) ht
    rw [trim_spaced hf] at hitems
    exact (hrest r' (.inl hat)).cons hitems
  | 1, r, h => by
    have hblank : ∀ r' : Reader, r'.At ([] :: (first :: lines ++ tail)) →
        r'.text.Reads (spaced (first :: lines)) ([] :: tail) := by
      intro r' hr'
      rw [← trim_spaced_blank hf]
      exact text_reads (List.forall_mem_nil _) hr' (Text.outside_nil _)
        (fun l hl => (hf l hl).goes_on) ht
    obtain ⟨r', hat, hitems⟩ := items_run h (by simp) hblank
    exact (hrest r' (.inl hat)).cons hitems
  | n + 2, _, h =>
    spells_two_blanks h (stopsRun_blank _) fun _ hr' => spells_text hf ht hrest n hr'

end Block

end Reader

/-! ## Blocks -/

/-- An item with the blank lines before it. -/
structure Block where
  blanks : Nat
  item : WrittenItem
  deriving DecidableEq, Repr

namespace Block

/-- The blank lines and the lines of the item. -/
def lines (b : Block) : List Text := List.replicate b.blanks [] ++ b.item.lines

/-- The item is well formed, and a text run stands apart from what is before it. -/
structure WellFormed (kind : RecordKind) (b : Block) : Prop where
  item : b.item.WellFormed kind
  apart : b.item.isText = true → 1 ≤ b.blanks

instance (kind : RecordKind) (b : Block) : Decidable (b.WellFormed kind) :=
  decidable_of_iff (b.item.WellFormed kind ∧ (b.item.isText = true → 1 ≤ b.blanks))
    ⟨fun ⟨h₁, h₂⟩ => ⟨h₁, h₂⟩, fun h => ⟨h.item, h.apart⟩⟩

end Block

/-- Text runs have lines of text, and everything else starts with a sign. -/
theorem WrittenItem.lines_cases (i : WrittenItem) :
    (∃ first more, i = .text first more) ∨ ∃ t more, i.lines = ('@' :: t) :: more := by
  cases i with
  | text first more => exact .inl ⟨first, more, rfl⟩
  | _ => right; simp [lines, Reader.attributeLine_eq]

theorem WrittenItem.lines_ne_nil (i : WrittenItem) : i.lines ≠ [] := by
  cases i <;> simp [lines]

namespace Reader

variable {r : Reader} {kind : RecordKind}

/-- Blocks never go on with the text before them. -/
theorem stopsRun_blocks {blocks : List Block} (hb : ∀ b ∈ blocks, b.WellFormed kind) (n : Nat) :
    StopsRun (blocks.flatMap Block.lines ++ List.replicate n []) := by
  cases blocks with
  | nil => simpa using stopsRun_replicate n stopsRun_nil
  | cons b blocks =>
    have hwf := hb b (by simp)
    rw [List.flatMap_cons, Block.lines, List.append_assoc, List.append_assoc]
    rcases b.item.lines_cases with ⟨first, more, hi⟩ | ⟨t, more, hl⟩
    · obtain ⟨k, hk⟩ : ∃ k, b.blanks = k + 1 := by
        have := hwf.apart (by rw [hi]; rfl)
        exact ⟨b.blanks - 1, by omega⟩
      rw [hk]
      exact stopsRun_blank _
    · rw [hl]
      exact stopsRun_replicate _ (stopsRun_sign _ _)

/-- **Blocks are read back one after the other**, up to the blank lines at the end. -/
theorem spells_blocks {blocks : List Block} (hb : ∀ b ∈ blocks, b.WellFormed kind) (n : Nat) :
    ∀ {r : Reader}, r.AtLineEnd (blocks.flatMap Block.lines ++ List.replicate n []) →
      r.Spells kind (blocks.map (·.item.item)) := by
  induction blocks with
  | nil => intro r h; exact spells_blanks n h
  | cons b blocks ih =>
    intro r h
    have hwf := hb b (by simp)
    have hb' : ∀ b' ∈ blocks, b'.WellFormed kind := fun b' hb'' =>
      hb b' (List.mem_cons_of_mem _ hb'')
    have ht := stopsRun_blocks hb' n
    have hrest : ∀ r' : Reader,
        r'.AtLineEnd (blocks.flatMap Block.lines ++ List.replicate n []) →
        r'.Spells kind (blocks.map (·.item.item)) := fun _ hr' => ih hb' hr'
    rw [List.flatMap_cons, Block.lines, List.append_assoc, List.append_assoc] at h
    rw [List.map_cons]
    rcases b.item.lines_cases with ⟨first, more, hi⟩ | ⟨t, more, hl⟩
    · have hitem := hwf.item
      obtain ⟨k, hk⟩ : ∃ k, b.blanks = k + 1 := by
        have := hwf.apart (by rw [hi]; rfl)
        exact ⟨b.blanks - 1, by omega⟩
      rw [hi] at hitem h ⊢
      rw [hk] at h
      exact spells_text (List.forall_mem_cons.mpr hitem) ht hrest k h
    · rw [hl] at h
      exact spells_attribute hwf.item hl ht hrest _ h

end Reader

/-! ## Batches -/

/-- The first line of a batch. -/
def headingLine (kind : RecordKind) (name : Option Text) : Text :=
  spaced (('@' :: kind.name) :: name.toList)

/-- A whole batch: the heading, the blocks, and blank lines at the end. -/
def writtenLines (kind : RecordKind) (name : Option Text) (blocks : List Block)
    (trailing : Nat) : List Text :=
  headingLine kind name :: (blocks.flatMap Block.lines ++ List.replicate trailing [])

namespace RecordKind

/-- The reserved word that opens a record of the kind. -/
def keyword : RecordKind → Keyword
  | .action => .action
  | .node => .node
  | .link => .link

theorem name_eq_spelling (kind : RecordKind) : kind.name = kind.keyword.spelling := by
  cases kind <;> rfl

theorem recordKind?_keyword (kind : RecordKind) : kind.keyword.recordKind? = some kind := by
  cases kind <;> rfl

end RecordKind

namespace Reader

variable {r : Reader} {kind : RecordKind}

theorem heading_reads {name : Option Text} {lines : List Text}
    (h : r.At (headingLine kind name :: lines)) (hname : ∀ w ∈ name, IsWord w)
    (hlines : name = none → lines ≠ []) :
    r.heading.1 = .ok (kind, name) ∧ r.heading.2.AtLineEnd lines := by
  rw [headingLine, Text.spaced_cons, kind.name_eq_spelling, List.cons_append] at h
  obtain ⟨h₁, h₂⟩ := scan_sign h
  obtain ⟨h₃, h₄⟩ := scan_keyword h₂ (outside_arguments _)
  have hkind := kind.recordKind?_keyword
  unfold heading
  simp only [h₁, h₃, hkind, ne_eq, not_true_eq_false, if_false]
  cases name with
  | some w =>
    obtain ⟨h₅, h₆, h₇⟩ := scanPastGap_word (t := []) (by simpa using h₄) (hname w rfl)
      (Text.outside_nil _)
    simp only [h₅, h₆]
    exact ⟨trivial, .inl h₇⟩
  | none =>
    obtain ⟨l, lines', rfl⟩ := List.exists_cons_of_ne_nil (hlines rfl)
    obtain ⟨h₅, h₆⟩ := scanPastGap_lineEnd (by simpa using h₄)
    simp only [h₅]
    refine ⟨trivial, .inr ⟨⟨_, rfl, h₅⟩, ?_, hlines rfl⟩⟩
    simp only [unscan, checkSlot_cursor]
    exact h₆.rest

/-- The outcome of reading a record whose items are spelled out. -/
theorem record_of_spells {origin : Text} {name : Option Text} {written : List Item}
    (hh : r.heading.1 = .ok (kind, name)) (hs : r.heading.2.Spells kind written) :
    (r.record origin).1 =
      let record := Record.ofItems kind name origin written
      if record.name.isEmpty then .error ⟨.missingName, r.cursor.position, none⟩
      else if record.parent.isNone then
        .error ⟨.missingParent, r.cursor.position, some "top-level records use `@Parent root`"⟩
      else .ok record := by
  obtain ⟨items, hitems, hsame⟩ := hs
  have hrecord : Record.ofItems kind name origin items =
      Record.ofItems kind name origin written := hsame _
  unfold record
  generalize r.heading = x at hh hitems
  obtain ⟨value, r'⟩ := x
  cases hh
  simp only [Reading.andThen] at hitems ⊢
  generalize r'.items kind = y at hitems
  obtain ⟨value, r''⟩ := y
  cases hitems
  simp only [hrecord]
  split
  · rfl
  · split <;> rfl

end Reader

/-- A batch without a name in its heading that describes a named record has lines after it. -/
theorem written_ne_nil {kind : RecordKind} {origin : Text} {blocks : List Block}
    (h : (Record.ofItems kind none origin (blocks.map (·.item.item))).name ≠ [])
    (trailing : Nat) : blocks.flatMap Block.lines ++ List.replicate trailing [] ≠ [] := by
  cases blocks with
  | nil => exact absurd rfl h
  | cons b blocks => simp [Block.lines, b.item.lines_ne_nil]

/-- What parsing a batch comes to, by the name and the parent of the record it describes. -/
theorem parse_blocks {kind : RecordKind} {name : Option Text} {blocks : List Block}
    {trailing : Nat} (origin : Text) (firstLine : Nat) (hname : ∀ w ∈ name, IsWord w)
    (hb : ∀ b ∈ blocks, b.WellFormed kind)
    (hlines : name = none → blocks.flatMap Block.lines ++ List.replicate trailing [] ≠ []) :
    let record := Record.ofItems kind name origin (blocks.map (·.item.item))
    Record.parse origin firstLine (writtenLines kind name blocks trailing) =
      Record.located origin firstLine (
        if record.name.isEmpty then .error ⟨.missingName, ⟨1, 1⟩, none⟩
        else if record.parent.isNone then
          .error ⟨.missingParent, ⟨1, 1⟩, some "top-level records use `@Parent root`"⟩
        else .ok record) := by
  obtain ⟨hh, hat⟩ := Reader.heading_reads (Reader.start_at _) hname hlines
  simp only [Record.parse, writtenLines]
  rw [Reader.record_of_spells hh (Reader.spells_blocks hb trailing hat)]
  rfl

/-- **A batch is parsed to the record that its items describe**, for every kind, every name and
every list of blocks, with any number of blank lines between them and at the end.  The record has
to have a name and a parent in the end; without them the batch is refused at its start. -/
theorem parse_written (origin : Text) (firstLine : Nat) (kind : RecordKind) (name : Option Text)
    (blocks : List Block) (trailing : Nat) (hname : ∀ w ∈ name, IsWord w)
    (hb : ∀ b ∈ blocks, b.WellFormed kind) :
    let record := Record.ofItems kind name origin (blocks.map (·.item.item))
    let lines := writtenLines kind name blocks trailing
    (record.name ≠ [] → record.parent ≠ none →
      Record.parse origin firstLine lines = .ok record) ∧
    (record.name ≠ [] → record.parent = none →
      Record.parse origin firstLine lines = .error ⟨.missingParent, origin,
        ⟨1 + (firstLine - 1), 1⟩, some "top-level records use `@Parent root`"⟩) ∧
    (record.name = [] → 1 < lines.length →
      Record.parse origin firstLine lines = .error ⟨.missingName, origin,
        ⟨1 + (firstLine - 1), 1⟩, none⟩) := by
  intro record lines
  have hnamed : record.name ≠ [] → name = none →
      blocks.flatMap Block.lines ++ List.replicate trailing [] ≠ [] := by
    rintro h rfl
    exact written_ne_nil h trailing
  refine ⟨fun h₁ h₂ => ?_, fun h₁ h₂ => ?_, fun h₁ h₂ => ?_⟩
  · rw [parse_blocks origin firstLine hname hb (hnamed h₁)]
    simp [record, h₁, h₂, Record.located]
  · rw [parse_blocks origin firstLine hname hb (hnamed h₁)]
    simp [record, h₁, h₂, Record.located, SyntaxError.ofFault, Position.down]
  · have hlines : blocks.flatMap Block.lines ++ List.replicate trailing [] ≠ [] := by
      intro h
      simp only [lines, writtenLines, h, List.length_singleton] at h₂
      omega
    rw [parse_blocks origin firstLine hname hb fun _ => hlines]
    simp [record, h₁, Record.located, SyntaxError.ofFault, Position.down]

/-- A batch with text runs after one, two and three blank lines, a description over two lines, a
value that takes back a permission, and its name in a meta type. -/
def restartBlocks : List Block :=
  [⟨1, .text "Restarts" ["the service."]⟩, ⟨0, .parent "root"⟩,
    ⟨0, .param "mode" "enum[soft,hard]" [] ["soft keeps sessions,", "hard drops them"]⟩,
    ⟨2, .text "Needs a grant." []⟩, ⟨3, .text "Takes a while." []⟩, ⟨1, .returns "value"⟩,
    ⟨0, .column "at" "time" "when it ended" []⟩, ⟨2, .metaType "restart"⟩,
    ⟨0, .value "number" (some "write")⟩, ⟨0, .value "number" none⟩]

theorem parse_written_restart :
    (∀ b ∈ restartBlocks, b.WellFormed .action) ∧
    (writtenLines .action none restartBlocks 1).map String.ofList =
      ["@Action", "", "Restarts", "the service.", "@Parent root", "@Param mode enum[soft,hard]",
        "soft keeps sessions,", "hard drops them", "", "", "Needs a grant.", "", "", "",
        "Takes a while.", "", "@Return value", "@Column at time when it ended", "", "",
        "@MetaType restart", "@Value number write", "@Value number", ""] ∧
    Record.parse "svc" 1 (writtenLines .action none restartBlocks 1) = .ok
      { kind := .action, name := "restart", key := "restart", parent := some "root"
        short := "Restarts the service.", long := "Needs a grant. Takes a while."
        params := [⟨"mode", "enum[soft,hard]", "soft keeps sessions, hard drops them"⟩]
        returns := some "value", columns := [⟨"at", "time", "when it ended"⟩]
        valueType := some "number", origin := "svc" } := by
  have hb : ∀ b ∈ restartBlocks, b.WellFormed .action := by decide +kernel
  obtain ⟨hparse, _⟩ := parse_written "svc" 1 .action none restartBlocks 1 (by simp) hb
  refine ⟨hb, by decide +kernel, ?_⟩
  rw [hparse (by decide +kernel) (by decide +kernel), Except.ok.injEq]
  decide +kernel

/-- What a node returns is refused although it is written like everything else, and so is a batch
that names no parent. -/
theorem parse_written_refused :
    let returning : List Block := [⟨0, .parent "root"⟩, ⟨0, .returns "value"⟩]
    IsWord "a" ∧ IsWord "root" ∧ IsWord "value" ∧
    Record.parse "svc" 1 (writtenLines .node (some "a") returning 0) ≠
      .ok (Record.ofItems .node (some "a") "svc" (returning.map (·.item.item))) ∧
    Record.parse "svc" 1 (writtenLines .node (some "a") [] 0) ≠
      .ok (Record.ofItems .node (some "a") "svc" []) := by
  intro returning
  have h₁ : (Record.parse "svc" 1 (writtenLines .node (some "a") returning 0)).toOption = none := by
    decide +kernel
  have h₂ : (Record.parse "svc" 1 (writtenLines .node (some "a") [] 0)).toOption = none := by
    decide +kernel
  refine ⟨by decide, by decide, by decide, fun h => ?_, fun h => ?_⟩
  · rw [h] at h₁
    cases h₁
  · rw [h] at h₂
    cases h₂

end CommentDocs
