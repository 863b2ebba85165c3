import CommentDocs.Proofs.FaultPlaces
import CommentDocs.Proofs.Visible
import Mathlib.Data.List.Infix
import Mathlib.Data.Prod.Lex

/-!
# Cursors in all modes at once

The three modes and looking ahead share one cursor and may follow each other in any order.  Wherever
such a run of moves has led, the cursor is at a place of the lines, and the next move goes on from
there without losing anything.

* `Cursor.Move`, `Cursor.move`, `Cursor.moveAll`: one use of a cursor, and a run of them.
* `Cursor.place`: the line of a cursor and the bytes that its moves have consumed of it.  `Placed`:
  there a character starts, or the line ends, or the cursor is right after the last line.
* `Kept`: the invariant of all moves (`Kept.move`), and so of runs (`Kept.moveAll`).
* `Kept.size_lt`: further on, less is left.  So what is known about sizes tells the direction of a
  move (`Kept.place_le`, `Kept.place_lt`).
* `Kept.exists_between`: what stands between two places is what was passed, and on one line its
  bytes are those that were consumed (`Kept.offset_of_passed`).
* `moveAll_disciplined`: what every move does, after any run of moves.
-/

set_option autoImplicit false

namespace CommentDocs

/-! ## Bytes -/

namespace Text

theorem length_le_byteSize (t : Text) : t.length ≤ byteSize t := by
  induction t with
  | nil => simp
  | cons c t ih =>
    have := Char.utf8Size_pos c
    simp only [List.length_cons, byteSize]
    omega

/-- Of two starts of a text, the one with more characters has more bytes, and the other way
round. -/
theorem byteSize_lt_iff {a b t : Text} (ha : a <+: t) (hb : b <+: t) :
    byteSize a < byteSize b ↔ a.length < b.length := by
  rcases Nat.le_total a.length b.length with hle | hle
  · obtain ⟨u, rfl⟩ := List.prefix_of_prefix_length_le ha hb hle
    have hu := length_le_byteSize u
    rw [byteSize_append, List.length_append]
    cases u with
    | nil => simp [byteSize]
    | cons c u => rw [List.length_cons] at *; omega
  · obtain ⟨u, rfl⟩ := List.prefix_of_prefix_length_le hb ha hle
    rw [byteSize_append]
    omega

end Text

/-- The bytes of the start of a text are those of its characters. -/
theorem Position.charsIn_append (before after : Text) :
    charsIn (Text.byteSize before) (before ++ after) = some before.length := by
  induction before with
  | nil => simp [Text.byteSize, charsIn]
  | cons c before ih =>
    have hpos := Char.utf8Size_pos c
    obtain ⟨n, hn⟩ : ∃ n, c.utf8Size + Text.byteSize before = n + 1 :=
      ⟨c.utf8Size + Text.byteSize before - 1, by omega⟩
    have hrest : n + 1 - c.utf8Size = Text.byteSize before := by omega
    rw [List.cons_append, Text.byteSize, hn, charsIn, if_pos (by omega), hrest, ih]
    rfl

/-! ## Moves -/

namespace Cursor

/-- The ways to use a cursor: the next token in one of the modes, or a look at what comes next. -/
inductive Move where
  | token
  | typeName
  | text
  | peek
  deriving DecidableEq, Repr

/-- What a move gives. -/
inductive Found where
  | token (t : Token)
  | ahead (a : Ahead)
  deriving DecidableEq, Repr

/-- One use of the cursor: what is found, and the cursor afterwards. -/
def move (c : Cursor) : Move → Found × Cursor
  | .token => (.token c.token.1, c.token.2)
  | .typeName => (.token c.typeName.1, c.typeName.2)
  | .text => (.token c.text.1, c.text.2)
  | .peek => (.ahead c.peek, c)

/-- The cursor after moves, one after the other. -/
def moveAll (c : Cursor) (moves : List Move) : Cursor := moves.foldl (fun c m => (c.move m).2) c

/-- The line of the cursor and the bytes consumed of it: later lines come after earlier ones,
whatever the bytes. -/
def place (c : Cursor) : Nat ×ₗ Nat := toLex (c.line, c.offset)

/-- The characters of the lines up to the cursor. -/
def passed (lines : List Text) (c : Cursor) : Text :=
  (lines.take c.line).flatten ++ (lines.getD c.line []).take c.column

/-- The cursor is on the line, with the rest of the lines to come. -/
structure OnLine (lines : List Text) (line : Text) (c : Cursor) : Prop where
  text : lines[c.line]? = some line
  /-- After the bytes consumed a character starts, or the line ends, and as many characters come
  before it as were consumed. -/
  boundary : Position.charsIn c.offset line = some c.column
  position : c.position = Position.ofOffset c.line line c.offset
  rest : c.rest = line.drop c.column :: lines.drop (c.line + 1)

/-- The cursor is on one of the lines, or right after the last one with nothing to come. -/
def Placed (lines : List Text) (c : Cursor) : Prop :=
  (∃ line, c.OnLine lines line) ∨ c = ⟨lines.length, 0, 0, []⟩

/-- What a move from the cursor does. -/
structure MovesOn (lines : List Text) (c : Cursor) (m : Move) : Prop where
  forward : c.place ≤ (c.move m).2.place
  /-- Tokens and type names take something from every line, be it its end. -/
  progress : m = .token ∨ m = .typeName → c.line < lines.length →
    c.place < (c.move m).2.place
  ended : m = .token ∨ m = .typeName → c.line = lines.length →
    ∃ t, (c.move m).1 = .token t ∧ t.kind = .batchEnd
  looks : m = .peek → (c.move m).2 = c
  /-- The visible characters of a token are those between the two places, and on its line the cursor
  goes on by the bytes of what is between them. -/
  lossless : ∀ t, (c.move m).1 = .token t → ∃ between,
    (c.move m).2.passed lines = c.passed lines ++ between ∧
      Text.visible t.lexeme = Text.visible between ∧
      ((c.move m).2.line = c.line → (c.move m).2.offset = c.offset + Text.byteSize between)

/-! ## The invariant -/

/-- The cursor is on one of the lines, or right after the last one. -/
def Kept (lines : List Text) (c : Cursor) : Prop := c.Inside lines ∨ c = ⟨lines.length, 0, 0, []⟩

variable {lines : List Text} {before after : Text} {c c' : Cursor}

theorem start_kept (lines : List Text) : (start lines).Kept lines := by
  cases lines with
  | nil => exact .inr rfl
  | cons line more => exact .inl (start_inside (List.cons_ne_nil line more))

theorem Kept.token (h : c.Kept lines) : c.token.2.Kept lines := by
  rcases h with h | rfl
  · by_cases hk : c.token.1.kind = .batchEnd
    · obtain ⟨before, after, hon⟩ := h
      have hp := peek_of_batchEnd hk
      obtain ⟨rfl, hlast⟩ := hon.of_batchEnd hp
      have hrest := hon.rest
      rw [List.drop_eq_nil_of_le (by omega)] at hrest
      right
      simp [Cursor.token, hp, step, hrest, hlast]
    · exact .inl (h.token.2 hk)
  · exact .inr rfl

theorem Inside.skipGaps (h : c.Inside lines) : c.skipGaps.Inside lines := by
  obtain ⟨before, after, hon⟩ := h
  exact hon.skipGaps

theorem Kept.typeName (h : c.Kept lines) : c.typeName.2.Kept lines := by
  rcases h with h | rfl
  · rcases typeName_cases c with heq | ⟨_, heq⟩
    · rw [heq]
      exact Kept.token (.inl h.skipGaps)
    · obtain ⟨before, after, hon⟩ := h.skipGaps
      rw [heq]
      exact .inl (hon.span isTypeChar).2.inside
  · exact .inr rfl

theorem Kept.text (h : c.Kept lines) : c.text.2.Kept lines := by
  rcases h with h | rfl
  · exact .inl h.text
  · exact .inr rfl

/-- **Every move keeps the cursor** on the lines or right after them. -/
theorem Kept.move (h : c.Kept lines) (m : Move) : (c.move m).2.Kept lines := by
  cases m with
  | token => exact h.token
  | typeName => exact h.typeName
  | text => exact h.text
  | peek => exact h

/-- **So does every run of moves.** -/
theorem Kept.moveAll (h : c.Kept lines) (moves : List Move) : (c.moveAll moves).Kept lines := by
  induction moves generalizing c with
  | nil => exact h
  | cons m moves ih => exact ih (h.move m)

/-! ## Places -/

theorem On.line_eq (h : c.On lines before after) : lines.getD c.line [] = before ++ after := by
  rw [List.getD_eq_getElem?_getD, h.text, Option.getD_some]

theorem On.take_line (h : c.On lines before after) :
    (lines.getD c.line []).take c.column = before := by
  rw [h.line_eq, h.column, List.take_left]

theorem On.passed_eq (h : c.On lines before after) :
    c.passed lines = (lines.take c.line).flatten ++ before := by
  rw [passed, h.take_line]

theorem Kept.placed (h : c.Kept lines) : c.Placed lines := by
  rcases h with ⟨before, after, hon⟩ | rfl
  · have hboundary : Position.charsIn c.offset (before ++ after) = some c.column := by
      rw [hon.offset, hon.column]
      exact Position.charsIn_append before after
    refine .inl ⟨before ++ after, hon.text, hboundary, ?_, ?_⟩
    · rw [Position.ofOffset, hboundary]
      rfl
    · rw [hon.column, List.drop_left]
      exact hon.rest
  · exact .inr rfl

theorem Kept.line_le (h : c.Kept lines) : c.line ≤ lines.length := by
  rcases h with ⟨before, after, hon⟩ | rfl
  · exact Nat.le_of_lt hon.lt
  · exact Nat.le_refl _

/-- On the lines, the cursor is not after them. -/
theorem Kept.inside (h : c.Kept lines) (hlt : c.line < lines.length) : c.Inside lines := by
  rcases h with h | rfl
  · exact h
  · exact absurd hlt (Nat.lt_irrefl _)

theorem Kept.eq_past (h : c.Kept lines) (hle : lines.length ≤ c.line) :
    c = ⟨lines.length, 0, 0, []⟩ := by
  rcases h with ⟨before, after, hon⟩ | rfl
  · exact absurd hle (Nat.not_le.mpr hon.lt)
  · rfl

/-- On one line, more bytes are passed where more characters are. -/
theorem On.offset_lt_iff {before' after' : Text} (h : c.On lines before after)
    (h' : c'.On lines before' after') (hline : c.line = c'.line) :
    c.offset < c'.offset ↔ c.column < c'.column := by
  have htext := h'.text
  rw [← hline, h.text, Option.some.injEq] at htext
  rw [h.offset, h'.offset, h.column, h'.column]
  exact Text.byteSize_lt_iff (List.prefix_append before after) (htext ▸ List.prefix_append _ _)

theorem On.rest_eq (h : c.On lines before after) :
    c.rest = (lines.getD c.line []).drop c.column :: lines.drop (c.line + 1) := by
  rw [h.line_eq, h.column, List.drop_left]
  exact h.rest

/-- **A place belongs to one cursor.** -/
theorem Kept.eq_of_place (h : c.Kept lines) (h' : c'.Kept lines)
    (heq : c.place = c'.place) : c = c' := by
  obtain ⟨hline, hoffset⟩ : c.line = c'.line ∧ c.offset = c'.offset := by
    simpa [place] using heq
  by_cases hlt : c.line < lines.length
  · obtain ⟨before, after, hon⟩ := h.inside hlt
    obtain ⟨before', after', hon'⟩ := h'.inside (hline ▸ hlt)
    have hle := hon.offset_lt_iff hon' hline
    have hge := hon'.offset_lt_iff hon hline.symm
    have hcolumn : c.column = c'.column := by omega
    have hrest : c.rest = c'.rest := by rw [hon.rest_eq, hon'.rest_eq, hline, hcolumn]
    cases c
    cases c'
    simp_all only
  · rw [h.eq_past (by omega), h'.eq_past (by omega)]

/-- **Further on** is on a later line, or on the same one with more characters passed. -/
theorem Kept.lt_cases (h : c.Kept lines) (h' : c'.Kept lines)
    (hlt : c.place < c'.place) :
    ∃ before after, c.On lines before after ∧
      (c.line < c'.line ∨ c.line = c'.line ∧ c.column < c'.column ∧ c'.Inside lines) := by
  have hcases : c.line < c'.line ∨ c.line = c'.line ∧ c.offset < c'.offset :=
    Prod.Lex.toLex_lt_toLex.mp hlt
  rcases hcases with hline | ⟨hline, hoffset⟩
  · obtain ⟨before, after, hon⟩ := h.inside (Nat.lt_of_lt_of_le hline h'.line_le)
    exact ⟨before, after, hon, .inl hline⟩
  · have hlt : c.line < lines.length := by
      by_contra hge
      rw [h.eq_past (by omega), h'.eq_past (by omega)] at hoffset
      exact Nat.lt_irrefl _ hoffset
    obtain ⟨before, after, hon⟩ := h.inside hlt
    obtain ⟨before', after', hon'⟩ := h'.inside (hline ▸ hlt)
    exact ⟨before, after, hon, .inr ⟨hline, (hon.offset_lt_iff hon' hline).mp hoffset,
      hon'.inside⟩⟩

/-! ## What is left -/

theorem linesSize_drop_le {m n : Nat} (h : m ≤ n) (lines : List Text) :
    linesSize (lines.drop n) ≤ linesSize (lines.drop m) := by
  induction n, h using Nat.le_induction with
  | base => exact Nat.le_refl _
  | succ n _ ih =>
    refine Nat.le_trans ?_ ih
    rw [← List.tail_drop]
    cases lines.drop n with
    | nil => exact Nat.le_refl _
    | cons line more => exact Nat.le_add_left _ _

/-- Of its own line at most all is left. -/
theorem Kept.size_le (h : c.Kept lines) : c.size ≤ linesSize (lines.drop c.line) := by
  rcases h with ⟨before, after, hon⟩ | rfl
  · obtain ⟨hlt, hget⟩ := List.getElem?_eq_some_iff.mp hon.text
    rw [List.drop_eq_getElem_cons hlt, hget, size, hon.rest, linesSize, linesSize,
      List.length_append]
    omega
  · exact Nat.zero_le _

/-- **Further on, less is left.** -/
theorem Kept.size_lt (h : c.Kept lines) (h' : c'.Kept lines)
    (hlt : c.place < c'.place) : c'.size < c.size := by
  obtain ⟨before, after, hon, hcases⟩ := h.lt_cases h' hlt
  have hsize : c.size = after.length + 1 + linesSize (lines.drop (c.line + 1)) := by
    rw [size, hon.rest, linesSize]
  rcases hcases with hline | ⟨hline, hcolumn, before', after', hon'⟩
  · have hdrop := linesSize_drop_le (show c.line + 1 ≤ c'.line from hline) lines
    have := h'.size_le
    omega
  · have hlength := congrArg List.length (hon.line_eq.symm.trans (hline ▸ hon'.line_eq))
    rw [List.length_append, List.length_append] at hlength
    rw [hon.column, hon'.column] at hcolumn
    rw [hsize, size, hon'.rest, linesSize, hline]
    omega

theorem Kept.place_le (h : c.Kept lines) (h' : c'.Kept lines) (hs : c'.size ≤ c.size) :
    c.place ≤ c'.place := by
  by_contra hlt
  have := h'.size_lt h (not_le.mp hlt)
  omega

theorem Kept.place_lt (h : c.Kept lines) (h' : c'.Kept lines) (hs : c'.size < c.size) :
    c.place < c'.place := by
  refine lt_of_le_of_ne (h.place_le h' (Nat.le_of_lt hs)) fun heq => ?_
  rw [h.eq_of_place h' heq] at hs
  exact Nat.lt_irrefl _ hs

/-- **No move goes back.** -/
theorem move_size_le (c : Cursor) (m : Move) : (c.move m).2.size ≤ c.size := by
  cases m with
  | token => exact token_size_le c
  | typeName => exact typeName_size_le c
  | text => exact text_size_le c
  | peek => exact Nat.le_refl _

theorem Kept.move_forward (h : c.Kept lines) (m : Move) :
    c.place ≤ (c.move m).2.place :=
  h.place_le (h.move m) (move_size_le c m)

/-- A run that is not empty takes something from what is left. -/
theorem span_size_lt_of_nonempty {p : Char → Bool} (h : (c.span p).1 ≠ []) :
    (c.span p).2.size < c.size := by
  unfold span at h ⊢
  split at h
  · exact absurd rfl h
  · rename_i line more hr
    have hpos : 0 < (line.takeWhile p).length := List.length_pos_iff.mpr h
    have hlength : (line.takeWhile p).length + (line.dropWhile p).length = line.length := by
      rw [← List.length_append, List.takeWhile_append_dropWhile]
    simp only [size, hr, linesSize]
    omega

/-- **On a line, the next token takes something**, and at the end of the last line the end of the
batch does. -/
theorem token_size_lt_of_rest (h : c.rest ≠ []) : c.token.2.size < c.size := by
  by_cases hk : c.token.1.kind = .batchEnd
  · obtain ⟨line, more, hr⟩ := List.exists_cons_of_ne_nil h
    rw [size, rest_of_batchEnd hk, size, hr, linesSize, linesSize]
    omega
  · exact token_size_lt hk

theorem typeName_size_lt (h : c.rest ≠ []) : c.typeName.2.size < c.size := by
  have hskip := skipGaps_size_le c
  rcases typeName_cases c with heq | ⟨hname, heq⟩
  · have hrest : c.skipGaps.rest ≠ [] := by
      obtain ⟨line, more, hr⟩ := List.exists_cons_of_ne_nil h
      simp [skipGaps, span, hr]
    rw [heq]
    exact Nat.lt_of_lt_of_le (token_size_lt_of_rest hrest) hskip
  · rw [heq]
    exact Nat.lt_of_lt_of_le (span_size_lt_of_nonempty hname.1) hskip

theorem Kept.move_progress (h : c.Kept lines) {m : Move} (hm : m = .token ∨ m = .typeName)
    (hlt : c.line < lines.length) : c.place < (c.move m).2.place := by
  obtain ⟨before, after, hon⟩ := h.inside hlt
  have hrest : c.rest ≠ [] := by simp [hon.rest]
  refine h.place_lt (h.move m) ?_
  rcases hm with rfl | rfl
  · exact token_size_lt_of_rest hrest
  · exact typeName_size_lt hrest

/-! ## What is passed -/

/-- What was passed and what is left are all characters of the lines. -/
theorem Kept.passed_append_rest (h : c.Kept lines) :
    c.passed lines ++ c.rest.flatten = lines.flatten := by
  rcases h with ⟨before, after, hon⟩ | rfl
  · obtain ⟨hlt, hget⟩ := List.getElem?_eq_some_iff.mp hon.text
    have hdrop : lines.drop c.line = (before ++ after) :: lines.drop (c.line + 1) := by
      rw [List.drop_eq_getElem_cons hlt, hget]
    calc c.passed lines ++ c.rest.flatten
        = (lines.take c.line).flatten ++ (lines.drop c.line).flatten := by
          rw [hon.passed_eq, hon.rest, hdrop]
          simp
      _ = lines.flatten := by rw [← List.flatten_append, List.take_append_drop]
  · simp [passed]

/-- **Further on, more was passed.** -/
theorem Kept.passed_le (h : c.Kept lines) (h' : c'.Kept lines)
    (hle : c.place ≤ c'.place) : c.passed lines <+: c'.passed lines := by
  rcases lt_or_eq_of_le hle with hlt | heq
  · obtain ⟨before, after, hon, hline | ⟨hline, hcolumn, _⟩⟩ := h.lt_cases h' hlt
    · have hpassed : c.passed lines <+: (lines.take (c.line + 1)).flatten := by
        refine ⟨after, ?_⟩
        rw [hon.passed_eq, List.take_add_one, hon.text]
        simp
      have hlines : lines.take (c.line + 1) <+: lines.take c'.line :=
        List.take_prefix_take_left hline
      exact (hpassed.trans hlines.flatten).trans (List.prefix_append _ _)
    · rw [passed, passed, ← hline, List.prefix_append_right_inj]
      exact List.take_prefix_take_left (Nat.le_of_lt hcolumn)
  · rw [h.eq_of_place h' heq]

/-- The bytes consumed are those of the characters consumed. -/
theorem Kept.offset_eq (h : c.Kept lines) :
    c.offset = Text.byteSize ((lines.getD c.line []).take c.column) := by
  rcases h with ⟨before, after, hon⟩ | rfl
  · rw [hon.take_line, hon.offset]
  · rfl

/-- On one line, the bytes between two places are those of the characters between them. -/
theorem Kept.offset_of_passed (h : c.Kept lines) (h' : c'.Kept lines) {between : Text}
    (hpassed : c'.passed lines = c.passed lines ++ between) (hline : c'.line = c.line) :
    c'.offset = c.offset + Text.byteSize between := by
  rw [passed, passed, hline, List.append_assoc, List.append_cancel_left_eq] at hpassed
  rw [h.offset_eq, h'.offset_eq, hline, hpassed, Text.byteSize_append]

/-- **Between two places stand the visible characters that a move passed.** -/
theorem Kept.exists_between (h : c.Kept lines) (h' : c'.Kept lines)
    (hle : c.place ≤ c'.place) {t : Text} (hpass : c.Passes t c') :
    ∃ between, c'.passed lines = c.passed lines ++ between ∧
      Text.visible t = Text.visible between ∧
      (c'.line = c.line → c'.offset = c.offset + Text.byteSize between) := by
  obtain ⟨between, hbetween⟩ := h.passed_le h' hle
  refine ⟨between, hbetween.symm, ?_, h.offset_of_passed h' hbetween.symm⟩
  have hall := h.passed_append_rest.trans h'.passed_append_rest.symm
  rw [← hbetween, List.append_assoc, List.append_cancel_left_eq] at hall
  unfold Passes at hpass
  rw [hall, Text.visible_append] at hpass
  exact (List.append_cancel_right hpass).symm

/-- Every token is passed with what it was found in. -/
theorem move_passes {m : Move} {t : Token} (h : (c.move m).1 = .token t) :
    c.Passes t.lexeme (c.move m).2 := by
  cases m with
  | token => cases h; exact token_passes c
  | typeName => cases h; exact typeName_passes c
  | text => cases h; exact text_passes c
  | peek => cases h

theorem Kept.movesOn (h : c.Kept lines) (m : Move) : c.MovesOn lines m where
  forward := h.move_forward m
  progress hm hlt := h.move_progress hm hlt
  ended hm hline := by
    obtain rfl := h.eq_past (Nat.le_of_eq hline.symm)
    rcases hm with rfl | rfl
    · exact ⟨_, rfl, rfl⟩
    · exact ⟨_, rfl, rfl⟩
  looks hm := by rw [hm]; rfl
  lossless _ ht := h.exists_between (h.move m) (h.move_forward m) (move_passes ht)

/-- **No run of moves goes back.** -/
theorem Kept.moveAll_forward (h : c.Kept lines) (moves : List Move) :
    c.place ≤ (c.moveAll moves).place := by
  induction moves generalizing c with
  | nil => exact le_refl _
  | cons m moves ih => exact le_trans (h.move_forward m) (ih (h.move m))

/-- **Modes in any order.**  After every run of moves from the start of any lines the cursor is at a
place of the lines.  No moves take it back from there, and each single one goes on as it should. -/
theorem moveAll_disciplined (lines : List Text) (moves : List Move) :
    let c := (start lines).moveAll moves
    c.Placed lines ∧ (∀ more, c.place ≤ (c.moveAll more).place) ∧
      ∀ m, c.MovesOn lines m := by
  intro c
  have h : c.Kept lines := (start_kept lines).moveAll moves
  exact ⟨h.placed, h.moveAll_forward, h.movesOn⟩

/-- Bytes and columns differ after a letter that takes two bytes. -/
example :
    let lines : List Text := ["é[x] y"]
    let c := (start lines).moveAll [.typeName]
    c.column = 4 ∧ c.offset = 5 := by
  decide +kernel

end Cursor

end CommentDocs
