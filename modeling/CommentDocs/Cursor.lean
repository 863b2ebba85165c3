import CommentDocs.Token
import CommentDocs.Text.Alphanumeric
import CommentDocs.Text.Blank

/-!
# Cursors over a batch

A cursor stands in a list of lines.  It hands out tokens in one of three modes: `token` for words,
signs and the structure of lines, `typeName` for the wider alphabet of type names, and `text` for
free text that may go on over several lines.  No mode fails: a character that starts no token
comes back as an illegal token.

* `token_size_lt`: a step in token mode shortens what is left, unless the batch has ended.
* `typeName_size_lt`, `text_size_le`: the same for the other two modes.
-/

set_option autoImplicit false

namespace CommentDocs

open Text (byteSize isGap)

/-- A place in a list of lines: the line it is on, counted from zero, how much of it was consumed,
in characters and in bytes, and what is left, which starts with the rest of the current line.  Past
the last line nothing is left. -/
structure Cursor where
  line : Nat
  /-- The characters consumed of the line. -/
  column : Nat
  /-- The bytes consumed of the line. -/
  offset : Nat
  rest : List Text
  deriving DecidableEq, Repr

/-- What stands right after a cursor. -/
inductive Ahead where
  | char (c : Char)
  | lineEnd
  | batchEnd
  deriving DecidableEq, Repr

/-- The letters, digits and underscores of words. -/
def isWordChar (c : Char) : Bool := c.isAlphanum || c == '_'

/-- The signs that type names may hold besides letters, numbers and underscores. -/
def typeSigns : List Char :=
  ['[', ']', '(', ')', '\x7b', '\x7d', '<', '>', ',', '.', ':', '|', '?', '*', '-']

/-- The characters of type names. -/
def isTypeChar (c : Char) : Bool := Text.isAlphanumeric c || c == '_' || typeSigns.contains c

/-- Whether a line ends the text run before it: blank lines and lines with an attribute do. -/
def endsRun : Text → Bool
  | [] => true
  | c :: _ => c == '@'

namespace Cursor

/-- The cursor at the start of the lines. -/
def start (lines : List Text) : Cursor := ⟨0, 0, 0, lines⟩

/-- Where the cursor is, counted from one. -/
def position (c : Cursor) : Position := ⟨c.line + 1, c.column + 1⟩

/-- The characters of the lines, and one for the end of each. -/
def linesSize : List Text → Nat
  | [] => 0
  | line :: lines => line.length + 1 + linesSize lines

/-- The characters and line ends still to come. -/
def size (c : Cursor) : Nat := linesSize c.rest

/-- What stands after the cursor.  The last line of a batch has no line end. -/
def peek (c : Cursor) : Ahead :=
  match c.rest with
  | [] => .batchEnd
  | (ch :: _) :: _ => .char ch
  | [] :: [] => .batchEnd
  | [] :: _ :: _ => .lineEnd

/-- One step: over a character, or from the end of a line to the next line. -/
def step (c : Cursor) : Cursor :=
  match c.rest with
  | [] => c
  | (ch :: line) :: more => ⟨c.line, c.column + 1, c.offset + ch.utf8Size, line :: more⟩
  | [] :: more => ⟨c.line + 1, 0, 0, more⟩

/-- The longest run of characters of a class on the current line, and the cursor after it. -/
def span (p : Char → Bool) (c : Cursor) : Text × Cursor :=
  match c.rest with
  | [] => ([], c)
  | line :: more =>
    let run := line.takeWhile p
    (run, ⟨c.line, c.column + run.length, c.offset + byteSize run, line.dropWhile p :: more⟩)

/-- The cursor after the spaces and tabs that follow. -/
def skipGaps (c : Cursor) : Cursor := (c.span isGap).2

/-- The kind of a run of word characters. -/
def wordKind (word : Text) : TokenKind :=
  match Keyword.ofSpelling? word with
  | some k => .keyword k
  | none => .word

/-- The next token in token mode. -/
def token (c : Cursor) : Token × Cursor :=
  match c.peek with
  | .batchEnd => (⟨.batchEnd, c.position, []⟩, c.step)
  | .lineEnd => (⟨.lineEnd, c.position, []⟩, c.step)
  | .char ch =>
    if isGap ch then
      let run := c.span isGap
      (⟨.gap, c.position, run.1⟩, run.2)
    else if isWordChar ch then
      let run := c.span isWordChar
      (⟨wordKind run.1, c.position, run.1⟩, run.2)
    else if ch = '@' then (⟨.attr, c.position, [ch]⟩, c.step)
    else (⟨.illegal, c.position, [ch]⟩, c.step)

/-- The next token in type mode: spaces and tabs are skipped, and where no type name starts the
token found there is given instead. -/
def typeName (c : Cursor) : Token × Cursor :=
  let c := c.skipGaps
  match c.span isTypeChar with
  | ([], _) => c.token
  | (name, c') => (⟨.typeName, c.position, name⟩, c')

/-- A text run that starts with `current` on the given line: it goes on over the lines that
follow until one that ends it, and every line end inside it is read as a space. -/
def runFrom (line column offset : Nat) : Text → List Text → Text × Cursor
  | current, [] => (current, ⟨line, column + current.length, offset + byteSize current, [[]]⟩)
  | current, next :: more =>
    if endsRun next then
      (current,
        ⟨line, column + current.length, offset + byteSize current, [] :: next :: more⟩)
    else
      let gap := next.takeWhile isGap
      let run := runFrom (line + 1) gap.length (byteSize gap) (next.dropWhile isGap) more
      (current ++ ' ' :: run.1, run.2)

/-- The next token in text mode.  The line end after the run is left in place. -/
def text (c : Cursor) : Token × Cursor :=
  let c := c.skipGaps
  match c.rest with
  | [] => (⟨.text, c.position, []⟩, c)
  | current :: more =>
    let run := runFrom c.line c.column c.offset current more
    (⟨.text, c.position, run.1.trim⟩, run.2)

/-! ## Progress -/

theorem length_dropWhile_le (p : Char → Bool) (t : Text) : (t.dropWhile p).length ≤ t.length :=
  (List.dropWhile_suffix p).length_le

theorem span_size_le (p : Char → Bool) (c : Cursor) : (c.span p).2.size ≤ c.size := by
  unfold span
  split
  · exact Nat.le_refl _
  · rename_i line more h
    simp only [size, h, linesSize]
    have := length_dropWhile_le p line
    omega

theorem skipGaps_size_le (c : Cursor) : c.skipGaps.size ≤ c.size := span_size_le isGap c

theorem span_size_lt {p : Char → Bool} {c : Cursor} {ch : Char} (hc : c.peek = .char ch)
    (hp : p ch = true) : (c.span p).2.size < c.size := by
  unfold peek at hc
  split at hc <;> try cases hc
  rename_i line more h
  have := length_dropWhile_le p line
  simp only [span, h, size, List.dropWhile_cons, hp, if_true, linesSize,
    List.length_cons]
  omega

theorem step_size_lt {c : Cursor} (h : c.rest ≠ []) : c.step.size < c.size := by
  unfold step
  split
  · contradiction
  · rename_i hr; simp only [size, hr, linesSize, List.length_cons]; omega
  · rename_i hr; simp only [size, hr, linesSize, List.length_nil]; omega

theorem step_size_le (c : Cursor) : c.step.size ≤ c.size := by
  by_cases h : c.rest = []
  · simp [step, h]
  · exact Nat.le_of_lt (step_size_lt h)

theorem rest_ne_nil_of_peek {c : Cursor} (h : c.peek ≠ .batchEnd) : c.rest ≠ [] := by
  intro hr; simp [peek, hr] at h

theorem token_size_le (c : Cursor) : c.token.2.size ≤ c.size := by
  unfold token
  split
  · exact step_size_le c
  · exact step_size_le c
  · split
    · exact span_size_le _ c
    · split
      · exact span_size_le _ c
      · split <;> exact step_size_le c

/-- **Token mode makes progress** until it reports the end of the batch. -/
theorem token_size_lt {c : Cursor} (h : c.token.1.kind ≠ .batchEnd) :
    c.token.2.size < c.size := by
  cases hp : c.peek with
  | batchEnd => simp [token, hp] at h
  | lineEnd =>
    simp only [token, hp]
    exact step_size_lt (rest_ne_nil_of_peek (by simp [hp]))
  | char ch =>
    have hs := step_size_lt (rest_ne_nil_of_peek (c := c) (by simp [hp]))
    by_cases hg : isGap ch = true
    · simp only [token, hp, hg, if_true]; exact span_size_lt hp hg
    by_cases hw : isWordChar ch = true
    · simp only [token, hp, hg, hw, if_true]; exact span_size_lt hp hw
    · simp only [token, hp, if_neg hg, if_neg hw]
      split <;> exact hs

theorem typeName_size_le (c : Cursor) : c.typeName.2.size ≤ c.size := by
  unfold typeName
  simp only
  split
  · exact Nat.le_trans (token_size_le _) (skipGaps_size_le c)
  · rename_i name c' h
    have := span_size_le isTypeChar c.skipGaps
    rw [h] at this
    exact Nat.le_trans this (skipGaps_size_le c)

theorem runFrom_size_le (line column offset : Nat) (current : Text) (more : List Text) :
    (runFrom line column offset current more).2.size ≤
      (Cursor.mk line column offset (current :: more)).size := by
  induction more generalizing line column offset current with
  | nil => simp [runFrom, size, linesSize]
  | cons next more ih =>
    unfold runFrom
    split
    · simp [size, linesSize]
    · have h := ih (line + 1) (next.takeWhile isGap).length (byteSize (next.takeWhile isGap))
        (next.dropWhile isGap)
      have hd := length_dropWhile_le isGap next
      simp only [size, linesSize] at h ⊢
      omega

theorem text_size_le (c : Cursor) : c.text.2.size ≤ c.size := by
  unfold text
  simp only
  have hs := skipGaps_size_le c
  split
  · exact hs
  · rename_i current more h
    refine Nat.le_trans (runFrom_size_le _ _ _ current more) ?_
    rw [size, ← h]
    exact hs

/-! ## All tokens of a batch -/

/-- The tokens from the cursor on, up to and including the end of the batch. -/
def tokens (c : Cursor) : List Token :=
  if _h : c.token.1.kind = .batchEnd then [c.token.1]
  else c.token.1 :: tokens c.token.2
  termination_by c.size
  decreasing_by exact token_size_lt _h

end Cursor

/-- The tokens of a batch in token mode, the last one being its end. -/
def tokenize (lines : List Text) : List Token := (Cursor.start lines).tokens

end CommentDocs
