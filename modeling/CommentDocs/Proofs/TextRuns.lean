import CommentDocs.Proofs.FaultPlaces

/-!
# Text runs

In text mode a cursor reads to the end of a line, and of which line is told by the lines alone.

* `RunStops`: the lines that a run cannot go on after.  `RunEnd`: the first of them.
* `On.runFrom_spaced`: what a run consists of and where it leaves the cursor, by induction over the
  lines that follow.
* `text_run`: the same for text mode, which skips the gap before the run and trims it.
-/

set_option autoImplicit false

namespace CommentDocs

open Text (Trimmed isGap spaced trim)

/-- A text run does not go on after the line: it is the last one, or a blank line or one with an
attribute comes next. -/
def RunStops (lines : List Text) (j : Nat) : Prop :=
  j + 1 = lines.length ∨ lines[j + 1]? = some [] ∨ ∃ t, lines[j + 1]? = some ('@' :: t)

/-- The first line, from `i` on, after which a text run does not go on. -/
structure RunEnd (lines : List Text) (i j : Nat) : Prop where
  le : i ≤ j
  stops : RunStops lines j
  first : ∀ k, i ≤ k → k < j → ¬ RunStops lines k

/-- The lines from `i` to `j`, both included. -/
def linesBetween (lines : List Text) (i j : Nat) : List Text := (lines.take (j + 1)).drop i

theorem linesBetween_self (lines : List Text) (j : Nat) : linesBetween lines (j + 1) j = [] :=
  List.drop_eq_nil_of_le (List.length_take_le _ _)

theorem linesBetween_cons {lines more : List Text} {line : Text} {i j : Nat}
    (h : lines.drop i = line :: more) (hle : i ≤ j) :
    linesBetween lines i j = line :: linesBetween lines (i + 1) j := by
  have hget := (List.getElem?_take_of_lt (Nat.lt_succ_of_le hle)).trans (Cursor.drop_eq_cons h).1
  obtain ⟨hlt, rfl⟩ := List.getElem?_eq_some_iff.mp hget
  exact List.drop_eq_getElem_cons hlt

/-- A line ends a run exactly if it is blank or has an attribute. -/
theorem endsRun_iff {line : Text} : endsRun line = true ↔ line = [] ∨ ∃ t, line = '@' :: t := by
  cases line with
  | nil => simp [endsRun]
  | cons a line => simp [endsRun]

/-- With a line to follow, a run stops exactly if that line ends it. -/
theorem runStops_iff {lines more : List Text} {next : Text} {i : Nat}
    (h : lines.drop (i + 1) = next :: more) : RunStops lines i ↔ endsRun next = true := by
  have hnext := (Cursor.drop_eq_cons h).1
  have hlt := (List.getElem?_eq_some_iff.mp hnext).1
  rw [RunStops, hnext, endsRun_iff]
  simp [Nat.ne_of_lt hlt]

namespace Cursor

variable {lines : List Text} {before after : Text} {c : Cursor}

/-- **A text run** goes on to the first line that it cannot go on after, and leaves the cursor at
the end of that line. -/
theorem On.runFrom_spaced {current : Text} {more : List Text} (h : c.On lines before current)
    (hm : lines.drop (c.line + 1) = more) :
    ∃ j line, RunEnd lines c.line j ∧
      (Cursor.runFrom c.line c.column c.offset current more).1 =
        spaced (current :: (linesBetween lines (c.line + 1) j).map (·.dropWhile isGap)) ∧
      (Cursor.runFrom c.line c.column c.offset current more).2.line = j ∧
      (Cursor.runFrom c.line c.column c.offset current more).2.On lines line [] := by
  induction more generalizing c before current with
  | nil =>
    have hend := h.atEnd
    have hlast : c.line + 1 = lines.length := by
      have := List.drop_eq_nil_iff.mp hm
      have := h.lt
      omega
    rw [hm] at hend
    refine ⟨c.line, _, ⟨Nat.le_refl _, .inl hlast, by omega⟩, ?_, rfl, hend⟩
    rw [linesBetween_self]
    rfl
  | cons next more ih =>
    unfold Cursor.runFrom
    split
    · rename_i hends
      have hend := h.atEnd
      rw [hm] at hend
      refine ⟨c.line, _, ⟨Nat.le_refl _, (runStops_iff hm).mpr hends, by omega⟩, ?_, rfl, hend⟩
      rw [linesBetween_self]
      rfl
    · rename_i hends
      obtain ⟨j, line, hrun, htext, hline, hon⟩ := ih (on_next hm) (drop_eq_cons hm).2
      refine ⟨j, line, ⟨Nat.le_of_succ_le hrun.le, hrun.stops, ?_⟩, ?_, hline, hon⟩
      · intro k hle hlt
        rcases Nat.eq_or_lt_of_le hle with rfl | hgt
        · rwa [runStops_iff hm]
        · exact hrun.first k hgt hlt
      · rw [linesBetween_cons hm hrun.le, List.map_cons, Text.spaced_cons_cons]
        exact congrArg (current ++ ' ' :: ·) htext

/-- Text mode takes the run after the gap, on the same line. -/
theorem On.text_eq (h : c.On lines before after) :
    c.skipGaps.line = c.line ∧
      c.text = (⟨.text, c.skipGaps.position,
          (Cursor.runFrom c.skipGaps.line c.skipGaps.column c.skipGaps.offset
            (after.dropWhile isGap) (lines.drop (c.skipGaps.line + 1))).1.trim⟩,
        (Cursor.runFrom c.skipGaps.line c.skipGaps.column c.skipGaps.offset
          (after.dropWhile isGap) (lines.drop (c.skipGaps.line + 1))).2) := by
  obtain ⟨_, hskip⟩ := h.span isGap
  have hrest : c.skipGaps.rest = _ := hskip.rest
  constructor
  · simp [Cursor.skipGaps, Cursor.span, h.rest]
  · simp only [Cursor.text, hrest]
    rfl

end Cursor

/-- What a text run from a cursor is, and where it ends: `before` is to the left of the cursor on its
line and `after` to the right. -/
structure Cursor.RunsTo (lines : List Text) (before after : Text) (c : Cursor) (j : Nat)
    (last : Text) : Prop where
  run : RunEnd lines c.line j
  kind : c.text.1.kind = .text
  /-- The rest of the line and the lines up to the last one, each without the gap at its start. -/
  lexeme : c.text.1.lexeme =
    trim (spaced (after.dropWhile isGap ::
      (linesBetween lines (c.line + 1) j).map (·.dropWhile isGap)))
  /-- The cursor is left at the end of the last line. -/
  line : c.text.2.line = j
  on : c.text.2.On lines last []
  /-- From the start of a line on, trimmed lines that are not blank are joined as they are. -/
  joined : before = [] → (∀ l ∈ linesBetween lines c.line j, l ≠ [] ∧ Trimmed l) →
    c.text.1.lexeme = spaced (linesBetween lines c.line j)

/-- Trimmed lines start with no gap. -/
theorem map_dropWhile_trimmed {parts : List Text} (h : ∀ l ∈ parts, l ≠ [] ∧ Trimmed l) :
    parts.map (·.dropWhile isGap) = parts := by
  rw [List.map_congr_left fun l hl => Text.dropWhile_outside (h l hl).2.outside_gap]
  exact List.map_id' parts

/-- **Text mode** reads from any place on a line to the end of the first line that a run cannot go on
after. -/
theorem Cursor.text_run {lines : List Text} {before after : Text} {c : Cursor}
    (h : c.On lines before after) : ∃ j last, c.RunsTo lines before after j last := by
  obtain ⟨_, hskip⟩ := h.span isGap
  obtain ⟨hline, htext⟩ := h.text_eq
  obtain ⟨j, last, hrun, hlexeme, hend, hon⟩ := On.runFrom_spaced hskip rfl
  change RunEnd lines c.skipGaps.line j at hrun
  rw [hline] at hrun
  have hread : c.text.1.lexeme = trim (spaced (after.dropWhile isGap ::
      (linesBetween lines (c.line + 1) j).map (·.dropWhile isGap))) := by
    rw [htext, ← hline]
    exact congrArg trim hlexeme
  refine ⟨j, last, hrun, by rw [htext], hread, ?_, ?_, ?_⟩
  · rw [htext]
    exact hend
  · rw [htext]
    exact hon
  · rintro rfl hlines
    have hdrop : lines.drop c.line = after :: lines.drop (c.line + 1) := by
      obtain ⟨hlt, hget⟩ := List.getElem?_eq_some_iff.mp h.text
      rw [List.drop_eq_getElem_cons hlt, hget]
      rfl
    have hbetween := linesBetween_cons hdrop hrun.le
    calc c.text.1.lexeme
        = trim (spaced ((linesBetween lines c.line j).map (·.dropWhile isGap))) := by
          rw [hread, hbetween, List.map_cons]
      _ = trim (spaced (linesBetween lines c.line j)) := by rw [map_dropWhile_trimmed hlines]
      _ = spaced (linesBetween lines c.line j) := Text.spaced_trimmed hlines

/-- A run that starts in the middle of a line, goes on over a line of blanks and stops before an
attribute. -/
theorem Cursor.text_run_wrapped :
    let lines : List Text := ["@Param a  first", "\tsecond ", "  ", "third", "@Return b"]
    let c : Cursor := ⟨0, 8, 8, ["  first", "\tsecond ", "  ", "third", "@Return b"]⟩
    c.text.1.lexeme = "first second   third" ∧ c.RunsTo lines "@Param a" "  first" 3 "third" := by
  intro lines c
  have hon : c.On lines "@Param a" "  first" := ⟨rfl, rfl, rfl, rfl⟩
  obtain ⟨j, last, hrun⟩ := text_run hon
  have hend : c.text.2 = ⟨3, 5, 5, [[], "@Return b"]⟩ := by decide +kernel
  obtain rfl : 3 = j := by rw [← hrun.line, hend]
  have htext := hrun.on.text
  rw [hend, List.append_nil] at htext
  obtain rfl : "third".toList = last := Option.some.inj htext
  exact ⟨by decide +kernel, hrun⟩

end CommentDocs
