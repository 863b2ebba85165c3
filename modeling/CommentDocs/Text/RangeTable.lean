/-!
# Range tables

A set of characters is stored as pages of inclusive code point ranges.  The ranges of a page are
sorted, so the scan of a page stops at the first range that starts above the character.
-/

set_option autoImplicit false

namespace CommentDocs.Text

/-- Pages of inclusive code point ranges, each page sorted. -/
abbrev RangeTable := List (List (Nat × Nat))

/-- Scan one page: ranges after the first one that starts above `n` cannot hold `n`. -/
def pageContains : List (Nat × Nat) → Nat → Bool
  | [], _ => false
  | (lo, hi) :: page, n => if n < lo then false else n ≤ hi || pageContains page n

/-- Whether one of the ranges of the table holds the character. -/
def RangeTable.contains (table : RangeTable) (c : Char) : Bool :=
  table.any fun page => pageContains page c.toNat

end CommentDocs.Text
