import CommentDocs.Record.Reader

/-!
# From batches to records

A batch is a heading, a sign with a record kind and perhaps a name, followed by items.  Attributes
start with a sign; free text has a blank line before it.  `Reader.record` reads one record, and
`Record.parse` a whole batch.

* `items` is total: every item takes something from what is left (`advance_size_lt`).
-/

set_option autoImplicit false

namespace CommentDocs

/-- What reading gives: a value or a fault, and the reader afterwards in either case. -/
abbrev Reading (α : Type) := Except Fault α × Reader

namespace Reading

variable {α β : Type}

/-- Go on with the value read, unless reading failed. -/
def andThen (x : Reading α) (f : α → Reader → Reading β) : Reading β :=
  match x with
  | (.ok a, r) => f a r
  | (.error e, r) => (.error e, r)

/-- Change the value read. -/
def map (f : α → β) (x : Reading α) : Reading β := x.andThen fun a r => (.ok (f a), r)

end Reading

/-- Whether only actions may have the attribute. -/
def Keyword.isActionOnly : Keyword → Bool
  | .param | .returns | .column => true
  | _ => false

/-- The record kind a reserved word opens. -/
def Keyword.recordKind? : Keyword → Option RecordKind
  | .action => some .action
  | .node => some .node
  | .link => some .link
  | _ => none

namespace Reader

/-- A word, perhaps after a gap. -/
def word (r : Reader) : Reading Text :=
  let s := r.scanPastGap
  if s.1.kind = .word then (.ok s.1.lexeme, s.2)
  else (.error (.unexpected s.1 (.token .word)), s.2)

/-- The name of a type. -/
def typeName (r : Reader) : Reading Text :=
  let s := r.scanType
  if s.1.kind = .typeName then (.ok s.1.lexeme, s.2)
  else (.error (.unexpected s.1 (.token .typeName)), s.2)

/-- A run of free text, perhaps empty. -/
def text (r : Reader) : Reading Text := (.ok r.scanText.1.lexeme, r.scanText.2)

/-- A name, a type and a description. -/
def parameter (r : Reader) : Reading Parameter :=
  r.word.andThen fun name r =>
    r.typeName.andThen fun type r => r.text.map fun description => ⟨name, type, description⟩

/-- The word after a value type, if one follows on the same line. -/
def permission (r : Reader) : Reading (Option Text) :=
  let p := r.peek
  match p.1 with
  | .char c =>
    if Text.isGap c then
      let s := p.2.scanPastGap
      match s.1.kind with
      | .word => (.ok (some s.1.lexeme), s.2)
      | .lineEnd => (.ok none, s.2.unscan s.1)
      | .batchEnd => (.ok none, s.2.unscan s.1)
      | _ => (.error (.unexpected s.1 (.description "a write permission")), s.2)
    else (.ok none, p.2)
  | _ => (.ok none, p.2)

/-- What follows the sign of an attribute. -/
def attributeItem (kind : RecordKind) (r : Reader) : Reading Item :=
  let s := r.scan
  let refused : Reading Item :=
    (.error (.unexpected s.1 (.oneOf (Keyword.attributes.map .keyword))), s.2)
  match s.1.kind with
  | .keyword k =>
    if k.isActionOnly && kind != .action then
      (.error ⟨.actionOnly s.1.kind kind, s.1.position, none⟩, s.2)
    else
      match k with
      | .metaType => s.2.word.map .metaType
      | .is => s.2.word.map .is
      | .parent => s.2.word.map .parent
      | .param => s.2.parameter.map .param
      | .returns => s.2.word.map .returns
      | .column => s.2.parameter.map .column
      | .value => s.2.typeName.andThen fun type r => r.permission.map fun p => .value type p
      | .action | .node | .link => refused
  | _ => refused

/-! ## Progress -/

theorem word_size_le (r : Reader) : r.word.2.size ≤ r.size := by
  unfold word
  simp only
  split <;> exact scanPastGap_size_le r

theorem typeName_size_le (r : Reader) : r.typeName.2.size ≤ r.size := by
  unfold typeName
  simp only
  split <;> exact scanType_size_le r

theorem text_size_le (r : Reader) : r.text.2.size ≤ r.size := scanText_size_le r

theorem andThen_size_le {α β : Type} {x : Reading α} {f : α → Reader → Reading β} {n : Nat}
    (hx : x.2.size ≤ n) (hf : ∀ a r, (f a r).2.size ≤ r.size) : (x.andThen f).2.size ≤ n := by
  obtain ⟨a | a, r⟩ := x
  · exact hx
  · exact Nat.le_trans (hf a r) hx

theorem map_size_le {α β : Type} {x : Reading α} {f : α → β} {n : Nat} (hx : x.2.size ≤ n) :
    (x.map f).2.size ≤ n :=
  andThen_size_le hx fun _ _ => Nat.le_refl _

theorem parameter_size_le (r : Reader) : r.parameter.2.size ≤ r.size :=
  andThen_size_le (word_size_le r) fun _ r =>
    andThen_size_le (typeName_size_le r) fun _ r => map_size_le (text_size_le r)

/-- Putting back what follows a gap leaves no more than there was before the gap. -/
theorem scanPastGap_unscan_size_le {r : Reader} {c : Char} (hc : r.cursor.peek = .char c)
    (hg : Text.isGap c = true) : (r.scanPastGap.2.unscan r.scanPastGap.1).size ≤ r.size := by
  rw [unscan_size]
  have hle := scanPastGap_size_le r
  simp only [size, scanPastGap_pending, Option.isSome_none] at hle ⊢
  cases hp : r.pending with
  | some t => simp only [hp, Option.isSome_some] at hle ⊢; simp at hle ⊢; omega
  | none =>
    have hk : r.scan.1.kind = .gap := by simp [scan, hp, Cursor.token, hc, hg]
    have h1 := scan_size_lt (r := r) (by simp [hk])
    have h2 := scan_size_le r.scan.2
    simp only [scanPastGap, hk, if_true]
    simp only [size, scan_pending, hp, Option.isSome_none] at h1 h2 ⊢
    simp at h1 h2 ⊢
    omega

theorem permission_size_le (r : Reader) : r.permission.2.size ≤ r.size := by
  unfold permission
  simp only [peek]
  split
  · rename_i c hc
    split
    · rename_i hg
      have hle := scanPastGap_size_le r.checkSlot
      rw [checkSlot_size] at hle
      have hun := scanPastGap_unscan_size_le (r := r.checkSlot) (by simpa using hc) hg
      rw [checkSlot_size] at hun
      split
      · exact hle
      · exact hun
      · exact hun
      · exact hle
    · simp
  · simp

theorem attributeItem_size_le (kind : RecordKind) (r : Reader) :
    (r.attributeItem kind).2.size ≤ r.size := by
  have hs := scan_size_le r
  have hw := Nat.le_trans (word_size_le r.scan.2) hs
  have hp := Nat.le_trans (parameter_size_le r.scan.2) hs
  have ht := Nat.le_trans (typeName_size_le r.scan.2) hs
  unfold attributeItem
  simp only
  split
  · split
    · exact hs
    · split
      · exact map_size_le hw
      · exact map_size_le hw
      · exact map_size_le hw
      · exact map_size_le hp
      · exact map_size_le hw
      · exact map_size_le hp
      · exact andThen_size_le ht fun _ r => map_size_le (permission_size_le r)
      · exact hs
      · exact hs
      · exact hs
  · exact hs

/-! ## Records -/

/-- The kind of a record and the name after it, if there is one. -/
def heading (r : Reader) : Reading (RecordKind × Option Text) :=
  let s := r.scan
  if s.1.kind ≠ .attr then (.error (.unexpected s.1 (.token .attr)), s.2)
  else
    let t := s.2.scan
    match t.1.kind with
    | .keyword k =>
      match k.recordKind? with
      | some kind =>
        let u := t.2.scanPastGap
        match u.1.kind with
        | .word => (.ok (kind, some u.1.lexeme), u.2)
        | .lineEnd => (.ok (kind, none), u.2.unscan u.1)
        | _ => (.error (.unexpected u.1 (.oneOf [.word, .lineEnd])), u.2)
      | none => (.error (.unexpected t.1 (.oneOf (Keyword.openings.map .keyword))), t.2)
    | _ => (.error (.unexpected t.1 (.oneOf (Keyword.openings.map .keyword))), t.2)

/-- The items up to the end of the batch.  Text is what follows a second line end, unless an
attribute does. -/
def items (kind : RecordKind) (r : Reader) : Reading (List Item) :=
  match _hk : r.advance.1.kind with
  | .batchEnd => (.ok [], r.advance.2)
  | .gap => items kind r.advance.2
  | .lineEnd =>
    if r.advance.2.peek.1 = .char '@' then items kind r.advance.2.peek.2
    else
      let s := r.advance.2.peek.2.scanText
      (items kind s.2).map fun more => .text s.1.lexeme :: more
  | .attr =>
    match _ha : r.advance.2.attributeItem kind with
    | (.error e, r') => (.error e, r')
    | (.ok item, r') => (items kind r').map fun more => item :: more
  | _ =>
    (.error (.unexpected r.advance.1
      (.description "an attribute or a blank line before text")), r.advance.2)
  termination_by r.size
  decreasing_by
  · exact advance_size_lt (by simp [_hk])
  · simpa [peek] using advance_size_lt (r := r) (by simp [_hk])
  · refine Nat.lt_of_le_of_lt (scanText_size_le _) ?_
    simpa [peek] using advance_size_lt (r := r) (by simp [_hk])
  · have hle := attributeItem_size_le kind r.advance.2
    rw [_ha] at hle
    exact Nat.lt_of_le_of_lt hle (advance_size_lt (by simp [_hk]))

/-- One record.  A record without a name or a parent is at fault where it starts. -/
def record (origin : Text) (r : Reader) : Reading Record :=
  r.heading.andThen fun h r' =>
    (r'.items h.1).andThen fun items r'' =>
      let record := Record.ofItems h.1 h.2 origin items
      if record.name.isEmpty then (.error ⟨.missingName, r.cursor.position, none⟩, r'')
      else if record.parent.isNone then
        (.error ⟨.missingParent, r.cursor.position,
          some "top-level records use `@Parent root`"⟩, r'')
      else (.ok record, r'')

/-- The results of reading a record again and again, each time from where the last one stopped. -/
def records (origin : Text) : Nat → Reader → List (Except Fault Record) × Reader
  | 0, r => ([], r)
  | n + 1, r =>
    let first := r.record origin
    let more := records origin n first.2
    (first.1 :: more.1, more.2)

end Reader

namespace Record

/-- A result inside a batch as one about its source; the first line of the batch is line
`firstLine` of the source. -/
def located (origin : Text) (firstLine : Nat) : Except Fault Record → Except SyntaxError Record
  | .ok record => .ok record
  | .error fault => .error (.ofFault origin (firstLine - 1) fault)

/-- The record that a batch of lines describes. -/
def parse (origin : Text) (firstLine : Nat) (lines : List Text) : Except SyntaxError Record :=
  located origin firstLine ((Reader.start lines).record origin).1

end Record

end CommentDocs
