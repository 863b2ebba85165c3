import CommentDocs.Cursor
import CommentDocs.Record.Fault

/-!
# Readers

A reader is a cursor with a slot for one token that was scanned and put back.  The type and text
modes and looking ahead work on the cursor itself, so they are right only while the slot is empty,
and so is putting a token back; `slips` counts the times this was not so.

* `scan_size_lt`: scanning shortens what is left, unless the batch has ended.
* `advance_size_lt`: the same for the step between two items of a record.
-/

set_option autoImplicit false

namespace CommentDocs

/-- A cursor, the token put back if there is one, and the number of times the slot for it was not
empty when it had to be. -/
structure Reader where
  cursor : Cursor
  pending : Option Token := none
  slips : Nat := 0
  deriving DecidableEq, Repr

namespace Reader

/-- The reader at the start of the lines. -/
def start (lines : List Text) : Reader := { cursor := .start lines }

/-- What is still to come; a token put back counts for half of a step of the cursor. -/
def size (r : Reader) : Nat := 2 * r.cursor.size + if r.pending.isSome then 1 else 0

/-- Count a slip if a token is pending. -/
def checkSlot (r : Reader) : Reader :=
  if r.pending.isSome then { r with slips := r.slips + 1 } else r

/-- The token put back, or else the next one. -/
def scan (r : Reader) : Token × Reader :=
  match r.pending with
  | some t => (t, { r with pending := none })
  | none => (r.cursor.token.1, { r with cursor := r.cursor.token.2 })

/-- Put a token back. -/
def unscan (r : Reader) (t : Token) : Reader := { r.checkSlot with pending := some t }

/-- The next token, or the one after it if the next is a gap. -/
def scanPastGap (r : Reader) : Token × Reader :=
  let s := r.scan
  if s.1.kind = .gap then s.2.scan else s

/-- Pass over the end of a line if it comes next. -/
def skipLineEnd (r : Reader) : Reader :=
  let s := r.scan
  if s.1.kind = .lineEnd then s.2 else s.2.unscan s.1

/-- The token that starts the next item of a record, after at most one line end. -/
def advance (r : Reader) : Token × Reader := r.skipLineEnd.scan

/-- What stands after the cursor. -/
def peek (r : Reader) : Ahead × Reader := (r.cursor.peek, r.checkSlot)

/-- The next token in type mode. -/
def scanType (r : Reader) : Token × Reader :=
  (r.cursor.typeName.1, { r.checkSlot with cursor := r.cursor.typeName.2 })

/-- The next token in text mode. -/
def scanText (r : Reader) : Token × Reader :=
  (r.cursor.text.1, { r.checkSlot with cursor := r.cursor.text.2 })

/-! ## Progress -/

@[simp] theorem checkSlot_cursor (r : Reader) : r.checkSlot.cursor = r.cursor := by
  unfold checkSlot; split <;> rfl

@[simp] theorem checkSlot_pending (r : Reader) : r.checkSlot.pending = r.pending := by
  unfold checkSlot; split <;> rfl

@[simp] theorem checkSlot_size (r : Reader) : r.checkSlot.size = r.size := by
  simp [size]

@[simp] theorem scan_pending (r : Reader) : r.scan.2.pending = none := by
  unfold scan; split
  · rfl
  · rename_i h; exact h

theorem unscan_size (r : Reader) (t : Token) : (r.unscan t).size = 2 * r.cursor.size + 1 := by
  simp [unscan, size]

theorem scan_size_le (r : Reader) : r.scan.2.size ≤ r.size := by
  unfold scan size
  split
  · rename_i t h; simp [h]
  · rename_i h
    have := Cursor.token_size_le r.cursor
    simp only [h, Option.isSome_none]
    simp
    omega

/-- **Scanning makes progress** until it reports the end of the batch. -/
theorem scan_size_lt {r : Reader} (h : r.scan.1.kind ≠ .batchEnd) : r.scan.2.size < r.size := by
  unfold scan size at *
  split at h
  · rename_i t hp; simp [hp]
  · rename_i hp
    have := Cursor.token_size_lt h
    simp only [hp, Option.isSome_none]
    simp
    omega

theorem scanPastGap_size_le (r : Reader) : r.scanPastGap.2.size ≤ r.size := by
  unfold scanPastGap
  simp only
  split
  · exact Nat.le_trans (scan_size_le _) (scan_size_le r)
  · exact scan_size_le r

@[simp] theorem scanPastGap_pending (r : Reader) : r.scanPastGap.2.pending = none := by
  unfold scanPastGap
  simp only
  split <;> simp

theorem scan_unscan (r : Reader) (t : Token) :
    (r.unscan t).scan = (t, { r.checkSlot with pending := none }) := by
  simp [unscan, scan]

/-- **The step between two items makes progress** until it reports the end of the batch. -/
theorem advance_size_lt {r : Reader} (h : r.advance.1.kind ≠ .batchEnd) :
    r.advance.2.size < r.size := by
  unfold advance skipLineEnd at *
  simp only at *
  split at h
  · rename_i hl
    simp only [hl, if_true]
    exact Nat.lt_of_le_of_lt (scan_size_le _) (scan_size_lt (by simp [hl]))
  · rename_i hl
    simp only [hl, if_false, scan_unscan] at h ⊢
    have := scan_size_lt h
    simp only [size, scan_pending, checkSlot_cursor, Option.isSome_none] at this ⊢
    exact this

theorem scanType_size_le (r : Reader) : r.scanType.2.size ≤ r.size := by
  have := Cursor.typeName_size_le r.cursor
  simp only [scanType, size, checkSlot_pending]
  omega

theorem scanText_size_le (r : Reader) : r.scanText.2.size ≤ r.size := by
  have := Cursor.text_size_le r.cursor
  simp only [scanText, size, checkSlot_pending]
  omega

end Reader

end CommentDocs
