import CommentDocs.Proofs.Scanning

/-!
# One slot for a token put back

A reader holds at most one token that was scanned too early.  Putting a second one back would lose
the first, and the modes of the cursor would read past it; `slips` counts every such attempt.  None
is made, however often a record is read from the same lines:

* `Vacant`, `Counts`: the slips of a reader, with the slot empty or not.  Scanning empties the slot
  (`Counts.scan`), and the step to the next item does so with a token put back in between
  (`Counts.advance`).
* `Reading.EndsIn`: where reading leaves the reader, after a value and after a fault.  Only what ends
  at the end of a line may leave a token behind, and a fault never does (`Counts.attributeItem`,
  `Counts.heading`).
* `turn`: one turn of the loop over the items.  It goes on with less to come (`turn_size`) and
  without a slip (`Counts.turn`), and so does the loop (`items_induction`).
* `itemsWithin`: the loop with a bound on its turns; the bound is not reached (`itemsWithin_eq`).
* `records_orderly`: no slips, no token left behind, and an end to every reading.
-/

set_option autoImplicit false

namespace CommentDocs

/-- Where reading leaves the reader: in `P` if something was read, in `E` after a fault. -/
def Reading.EndsIn {α : Type} (x : Reading α) (P E : Reader → Prop) : Prop :=
  match x with
  | (.ok _, r) => P r
  | (.error _, r) => E r

namespace Reading

variable {α β : Type} {x : Reading α} {P P' Q E : Reader → Prop}

theorem EndsIn.andThen {f : α → Reader → Reading β} (hx : x.EndsIn P E)
    (hf : ∀ a r, P r → (f a r).EndsIn Q E) : (x.andThen f).EndsIn Q E := by
  obtain ⟨e | a, r⟩ := x
  · exact hx
  · exact hf a r hx

theorem EndsIn.map {f : α → β} (hx : x.EndsIn P E) : (x.map f).EndsIn P E :=
  hx.andThen fun _ _ hr => hr

theorem EndsIn.mono (hx : x.EndsIn P E) (h : ∀ r, P r → P' r) : x.EndsIn P' E := by
  obtain ⟨e | a, r⟩ := x
  · exact hx
  · exact h r hx

theorem EndsIn.reader (hx : x.EndsIn P P) : P x.2 := by
  obtain ⟨e | a, r⟩ := x
  · exact hx
  · exact hx

end Reading

namespace Reader

/-- So many slips were counted; a token may be put back. -/
def Counts (n : Nat) (r : Reader) : Prop := r.slips = n

/-- So many slips were counted, and no token is put back. -/
structure Vacant (n : Nat) (r : Reader) : Prop where
  counts : r.Counts n
  pending : r.pending = none

variable {n : Nat} {r : Reader}

/-! ## Scanning -/

/-- **Scanning empties the slot**, whether or not it was empty before. -/
theorem Counts.scan (h : r.Counts n) : r.scan.2.Vacant n := by
  refine ⟨?_, scan_pending r⟩
  unfold Reader.scan
  split
  · exact h
  · exact h

theorem Counts.scanPastGap (h : r.Counts n) : r.scanPastGap.2.Vacant n := by
  unfold Reader.scanPastGap
  simp only
  split
  · exact h.scan.counts.scan
  · exact h.scan

/-- With the slot empty, there is no slip to count. -/
theorem Vacant.checkSlot (h : r.Vacant n) : r.checkSlot = r := by
  simp [Reader.checkSlot, h.pending]

theorem Vacant.unscan (h : r.Vacant n) (t : Token) : (r.unscan t).Counts n := by
  rw [Reader.unscan, h.checkSlot]
  exact h.counts

theorem Vacant.peek (h : r.Vacant n) : r.peek.2.Vacant n := by
  rw [Reader.peek, h.checkSlot]
  exact h

theorem Vacant.scanType (h : r.Vacant n) : r.scanType.2.Vacant n := by
  rw [Reader.scanType, h.checkSlot]
  exact ⟨h.counts, h.pending⟩

theorem Vacant.scanText (h : r.Vacant n) : r.scanText.2.Vacant n := by
  rw [Reader.scanText, h.checkSlot]
  exact ⟨h.counts, h.pending⟩

theorem Counts.skipLineEnd (h : r.Counts n) : r.skipLineEnd.Counts n := by
  unfold Reader.skipLineEnd
  simp only
  split
  · exact h.scan.counts
  · exact h.scan.unscan _

/-- **The step to the next item** puts a token back and takes it again, with the slot empty both
times. -/
theorem Counts.advance (h : r.Counts n) : r.advance.2.Vacant n := h.skipLineEnd.scan

/-! ## Items -/

theorem Counts.word (h : r.Counts n) : r.word.EndsIn (Vacant n) (Vacant n) := by
  unfold Reader.word
  simp only
  split
  · exact h.scanPastGap
  · exact h.scanPastGap

theorem Vacant.typeName (h : r.Vacant n) : r.typeName.EndsIn (Vacant n) (Vacant n) := by
  unfold Reader.typeName
  simp only
  split
  · exact h.scanType
  · exact h.scanType

theorem Vacant.text (h : r.Vacant n) : r.text.EndsIn (Vacant n) (Vacant n) := h.scanText

theorem Counts.parameter (h : r.Counts n) : r.parameter.EndsIn (Vacant n) (Vacant n) :=
  h.word.andThen fun _ _ hr => hr.typeName.andThen fun _ _ hr => hr.text.map

/-- The end of a line or of the batch after a value type is put back, right after it was scanned. -/
theorem Vacant.permission (h : r.Vacant n) : r.permission.EndsIn (Counts n) (Vacant n) := by
  have hpast := h.peek.counts.scanPastGap
  unfold Reader.permission
  simp only
  split
  · split
    · split
      · exact hpast.counts
      · exact hpast.unscan _
      · exact hpast.unscan _
      · exact hpast
    · exact h.peek.counts
  · exact h.peek.counts

/-- **One attribute.**  Its name is scanned first, so its arguments find the slot empty. -/
theorem Counts.attributeItem (kind : RecordKind) (h : r.Counts n) :
    (r.attributeItem kind).EndsIn (Counts n) (Vacant n) := by
  have hword {f : Text → Item} : (r.scan.2.word.map f).EndsIn (Counts n) (Vacant n) :=
    h.scan.counts.word.map.mono fun _ hr => hr.counts
  have hparameter {f : Parameter → Item} :
      (r.scan.2.parameter.map f).EndsIn (Counts n) (Vacant n) :=
    h.scan.counts.parameter.map.mono fun _ hr => hr.counts
  unfold Reader.attributeItem
  simp only
  split
  · split
    · exact h.scan
    · split
      · exact hword
      · exact hword
      · exact hword
      · exact hparameter
      · exact hword
      · exact hparameter
      · exact h.scan.typeName.andThen fun _ _ hr => hr.permission.map
      all_goals exact h.scan
  · exact h.scan

/-- The line end after a heading without a name is put back, right after it was scanned. -/
theorem Counts.heading (h : r.Counts n) : r.heading.EndsIn (Counts n) (Vacant n) := by
  have hkind := h.scan.counts.scan
  have hname := hkind.counts.scanPastGap
  unfold Reader.heading
  simp only
  split
  · exact h.scan
  · split
    · split
      · split
        · exact hname.counts
        · exact hname.unscan _
        · exact hname
      · exact hkind
    · exact hkind

/-! ## What is left -/

theorem scanPastGap_size_lt (h : r.scanPastGap.1.kind ≠ .batchEnd) :
    r.scanPastGap.2.size < r.size := by
  by_cases hg : r.scan.1.kind = .gap
  · have hpast : r.scanPastGap = r.scan.2.scan := by simp [scanPastGap, hg]
    rw [hpast] at h ⊢
    exact Nat.lt_of_lt_of_le (scan_size_lt h) (scan_size_le r)
  · have hpast : r.scanPastGap = r.scan := by simp [scanPastGap, hg]
    rw [hpast] at h ⊢
    exact scan_size_lt h

/-- A token that is put back counts for less than scanning it took. -/
theorem unscan_size_le (h : r.scanPastGap.1.kind ≠ .batchEnd) :
    (r.scanPastGap.2.unscan r.scanPastGap.1).size ≤ r.size := by
  have hlt := scanPastGap_size_lt h
  have hsize : r.scanPastGap.2.size = 2 * r.scanPastGap.2.cursor.size := by simp [size]
  rw [unscan_size]
  omega

theorem heading_size_le (r : Reader) : r.heading.2.size ≤ r.size := by
  have hsign := scan_size_le r
  have hkind := Nat.le_trans (scan_size_le r.scan.2) hsign
  have hname := Nat.le_trans (scanPastGap_size_le r.scan.2.scan.2) hkind
  unfold heading
  simp only
  split
  · exact hsign
  · split
    · split
      · split
        · exact hname
        · rename_i hk
          exact Nat.le_trans (unscan_size_le (by simp [hk])) hkind
        · exact hname
      · exact hkind
    · exact hkind

theorem advance_size_le (r : Reader) : r.advance.2.size ≤ r.size := by
  by_cases hl : r.scan.1.kind = .lineEnd
  · have hskip : r.skipLineEnd = r.scan.2 := by simp [skipLineEnd, hl]
    rw [advance, hskip]
    exact Nat.le_trans (scan_size_le _) (scan_size_le r)
  · have hskip : r.skipLineEnd = r.scan.2.unscan r.scan.1 := by simp [skipLineEnd, hl]
    have hle := scan_size_le r
    rw [advance, hskip, scan_unscan]
    simpa [size] using hle

/-! ## Turns of the loop -/

/-- What one turn of the loop over the items comes to. -/
inductive Turn where
  /-- The loop ends, with the batch or with a fault. -/
  | stops (x : Reading (List Item))
  /-- The loop goes on, perhaps with one more item. -/
  | goesOn (item : Option Item) (r : Reader)

/-- One turn of the loop over the items. -/
def turn (kind : RecordKind) (r : Reader) : Turn :=
  match r.advance.1.kind with
  | .batchEnd => .stops (.ok [], r.advance.2)
  | .gap => .goesOn none r.advance.2
  | .lineEnd =>
    let p := r.advance.2.peek
    if p.1 = .char '@' then .goesOn none p.2
    else .goesOn (some (.text p.2.scanText.1.lexeme)) p.2.scanText.2
  | .attr =>
    match r.advance.2.attributeItem kind with
    | (.error e, r') => .stops (.error e, r')
    | (.ok item, r') => .goesOn (some item) r'
  | _ =>
    .stops (.error (.unexpected r.advance.1
      (.description "an attribute or a blank line before text")), r.advance.2)

/-- The loop over the items with at most `limit` turns. -/
def itemsWithin (kind : RecordKind) : Nat → Reader → Option (Reading (List Item))
  | 0, _ => none
  | limit + 1, r =>
    match r.turn kind with
    | .stops x => some x
    | .goesOn item r' => (itemsWithin kind limit r').map (Reading.map (item.toList ++ ·))

/-- **Every turn that goes on takes something**, be it the token that was put back. -/
theorem turn_size (kind : RecordKind) (r : Reader) :
    match r.turn kind with
    | .stops x => x.2.size ≤ r.size
    | .goesOn _ r' => r'.size < r.size := by
  have hle := advance_size_le r
  unfold turn
  cases hk : r.advance.1.kind with
  | gap => exact advance_size_lt (by simp [hk])
  | lineEnd =>
    have hlt : r.advance.2.peek.2.size < r.size := by
      simpa [peek] using advance_size_lt (r := r) (by simp [hk])
    by_cases hsign : r.advance.2.peek.1 = .char '@'
    · simp only [hsign, if_true]
      exact hlt
    · simp only [hsign, if_false]
      exact Nat.lt_of_le_of_lt (scanText_size_le _) hlt
  | attr =>
    have hlt := advance_size_lt (r := r) (by simp [hk])
    have hattr := attributeItem_size_le kind r.advance.2
    simp only
    generalize r.advance.2.attributeItem kind = x at hattr
    obtain ⟨e | i, r'⟩ := x
    · exact Nat.le_trans hattr hle
    · exact Nat.lt_of_le_of_lt hattr hlt
  | _ => exact hle

/-- **No turn slips**, and one that ends the loop leaves no token behind. -/
theorem Counts.turn (kind : RecordKind) (h : r.Counts n) :
    match r.turn kind with
    | .stops x => x.EndsIn (Vacant n) (Vacant n)
    | .goesOn _ r' => r'.Counts n := by
  have hattr := h.advance.counts.attributeItem kind
  have hpeek := h.advance.peek
  unfold Reader.turn
  cases r.advance.1.kind with
  | gap => exact h.advance.counts
  | lineEnd =>
    by_cases hsign : r.advance.2.peek.1 = .char '@'
    · simp only [hsign, if_true]
      exact hpeek.counts
    · simp only [hsign, if_false]
      exact hpeek.scanText.counts
  | attr =>
    simp only
    generalize r.advance.2.attributeItem kind = x at hattr
    obtain ⟨e | i, r'⟩ := x
    · exact hattr
    · exact hattr
  | _ => exact h.advance

theorem map_nil_append (x : Reading (List Item)) : x.map ([] ++ ·) = x := by
  obtain ⟨e | items, r⟩ := x
  · rfl
  · rfl

/-- **The loop is its turns**, one after the other. -/
theorem items_eq_turn (kind : RecordKind) (r : Reader) :
    r.items kind =
      match r.turn kind with
      | .stops x => x
      | .goesOn item r' => (r'.items kind).map (item.toList ++ ·) := by
  conv => lhs; unfold items
  unfold turn
  split
  · simp_all
  · rename_i hk
    simp only [hk]
    exact (map_nil_append _).symm
  · rename_i hk
    simp only [hk]
    split
    · exact (map_nil_append _).symm
    · rfl
  · rename_i hk
    simp only [hk]
    split
    · rename_i e r' ha
      simp only [ha]
    · rename_i i r' ha
      simp only [ha]
      rfl
  · split
    all_goals simp_all

/-- What holds where the loop ends, and of each turn if it holds of the rest, holds of the loop. -/
theorem items_induction (kind : RecordKind) {P : Reader → Reading (List Item) → Prop}
    (stops : ∀ r x, r.turn kind = .stops x → P r x)
    (goesOn : ∀ r item r' x, r.turn kind = .goesOn item r' → P r' x →
      P r (x.map (item.toList ++ ·))) (r : Reader) : P r (r.items kind) := by
  induction hsize : r.size using Nat.strongRecOn generalizing r with
  | _ size ih =>
    rw [items_eq_turn]
    have hlt := turn_size kind r
    cases hturn : r.turn kind with
    | stops x => exact stops r x hturn
    | goesOn item r' =>
      rw [hturn, hsize] at hlt
      exact goesOn r item r' _ hturn (ih r'.size hlt r' rfl)

/-- **The loop ends** before it has made more turns than there is to come. -/
theorem itemsWithin_eq (kind : RecordKind) (r : Reader) {limit : Nat} (h : r.size < limit) :
    itemsWithin kind limit r = some (r.items kind) := by
  refine items_induction kind
    (P := fun r x => ∀ limit, r.size < limit → itemsWithin kind limit r = some x) ?_ ?_ r limit h
  · intro r x hturn limit hlt
    obtain ⟨limit, rfl⟩ : ∃ k, limit = k + 1 := ⟨limit - 1, by omega⟩
    simp [itemsWithin, hturn]
  · intro r item r' x hturn ih limit hlt
    obtain ⟨limit, rfl⟩ : ∃ k, limit = k + 1 := ⟨limit - 1, by omega⟩
    have hless := turn_size kind r
    rw [hturn] at hless
    simp [itemsWithin, hturn, ih limit (Nat.lt_of_lt_of_le hless (Nat.le_of_lt_succ hlt))]

/-- **The loop does not slip**, and leaves no token behind. -/
theorem Counts.items (kind : RecordKind) (h : r.Counts n) :
    (r.items kind).EndsIn (Vacant n) (Vacant n) := by
  refine items_induction kind
    (P := fun r x => r.Counts n → x.EndsIn (Vacant n) (Vacant n)) ?_ ?_ r h
  · intro r x hturn h
    have hstop := h.turn kind
    rwa [hturn] at hstop
  · intro r item r' x hturn ih h
    have hnext := h.turn kind
    rw [hturn] at hnext
    exact (ih hnext).map

theorem items_size_le (kind : RecordKind) (r : Reader) : (r.items kind).2.size ≤ r.size := by
  refine items_induction kind (P := fun r x => x.2.size ≤ r.size) ?_ ?_ r
  · intro r x hturn
    have hle := turn_size kind r
    rwa [hturn] at hle
  · intro r item r' x hturn ih
    have hlt := turn_size kind r
    rw [hturn] at hlt
    exact map_size_le (Nat.le_trans ih (Nat.le_of_lt hlt))

/-! ## Records -/

/-- **A record is read without a slip**, with or without a fault, and no token is left behind. -/
theorem Counts.record (origin : Text) (h : r.Counts n) :
    (r.record origin).EndsIn (Vacant n) (Vacant n) := by
  refine h.heading.andThen fun head r' hr' => ?_
  refine (hr'.items head.1).andThen fun items r'' hr'' => ?_
  simp only
  split
  · exact hr''
  · split
    · exact hr''
    · exact hr''

theorem record_size_le (origin : Text) (r : Reader) : (r.record origin).2.size ≤ r.size := by
  refine andThen_size_le (heading_size_le r) fun head r' => ?_
  refine andThen_size_le (items_size_le head.1 r') fun items r'' => ?_
  simp only
  split
  · exact Nat.le_refl _
  · split
    · exact Nat.le_refl _
    · exact Nat.le_refl _

/-- Reading on and on, the slot is empty after each record and what is to come does not grow. -/
theorem Vacant.records (origin : Text) (h : r.Vacant n) (times : Nat) :
    (r.records origin times).2.Vacant n ∧ (r.records origin times).2.size ≤ r.size := by
  induction times generalizing r with
  | zero => exact ⟨h, Nat.le_refl _⟩
  | succ times ih =>
    obtain ⟨hmore, hsize⟩ := ih (h.counts.record origin).reader
    exact ⟨hmore, Nat.le_trans hsize (record_size_le origin r)⟩

/-- **One slot is enough.**  However often a record is read from the same lines, each time from where
the last one stopped, after a record or after a fault: no token was put back, and no mode of the
cursor used, while another one was put back; none is put back now; and the next reading ends, since
the loop over its items makes no more turns than the lines allow. -/
theorem records_orderly (origin : Text) (lines : List Text) (times : Nat) :
    let r := ((start lines).records origin times).2
    r.slips = 0 ∧ r.pending = none ∧
      ∀ kind name r', r.heading = (.ok (kind, name), r') →
        itemsWithin kind (2 * Cursor.linesSize lines + 1) r' = some (r'.items kind) := by
  intro r
  have hstart : (start lines).Vacant 0 := ⟨rfl, rfl⟩
  obtain ⟨h, hsize⟩ : r.Vacant 0 ∧ r.size ≤ 2 * Cursor.linesSize lines :=
    hstart.records origin times
  refine ⟨h.counts, h.pending, fun kind name r' hheading => itemsWithin_eq kind r' ?_⟩
  have hle : r'.size ≤ r.size := by
    have hle := heading_size_le r
    rwa [hheading] at hle
  omega

end Reader

end CommentDocs
