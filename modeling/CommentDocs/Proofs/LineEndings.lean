import Mathlib.Data.List.Forall2
import CommentDocs.Proofs.Extraction
import CommentDocs.Session

/-!
# Line endings

Sources may end their lines with a line feed or with a carriage return and a line feed.

* `splitLines_withReturns`: with returns before the line feeds, every line is as it was or has one
  return more at its end.
* `after?_concat`, `trim_concat`: a blank at the end of a line that is not in the marker changes
  neither where the marker is found nor what trimming leaves.
* `content?_concat_return`: so a return more changes no content, also on lines that ended in one.
* `extract_withReturns`: batches, trees and errors do not depend on the line endings.
-/

set_option autoImplicit false

namespace CommentDocs

namespace Text

/-- The text with a carriage return before every line feed. -/
def withReturns (t : Text) : Text := t.flatMap fun c => if c = '\n' then ['\r', '\n'] else [c]

/-- The second line is the first one, perhaps with one carriage return more. -/
def MayEndInReturn (l l' : Text) : Prop := l' = l ∨ l' = l ++ ['\r']

/-- **Returns before line feeds** show at the ends of lines only. -/
theorem splitLines_withReturns (t : Text) :
    List.Forall₂ MayEndInReturn (splitLines t) (splitLines (withReturns t)) := by
  induction t with
  | nil => exact .cons (.inl rfl) .nil
  | cons c t ih =>
    by_cases hc : c = '\n'
    · have hreturns : withReturns (c :: t) = '\r' :: '\n' :: withReturns t := by
        simp [withReturns, hc]
      have hlines : splitLines ('\r' :: '\n' :: withReturns t) =
          ['\r'] :: splitLines (withReturns t) :=
        splitLines_append (l := ['\r']) (by decide) _
      rw [hreturns, hlines, splitLines, if_pos hc]
      exact .cons (.inr rfl) ih
    · have hreturns : withReturns (c :: t) = c :: withReturns t := by
        simp [withReturns, hc]
      rw [hreturns, splitLines, if_neg hc, splitLines, if_neg hc]
      generalize splitLines t = lines, splitLines (withReturns t) = lines' at ih
      cases ih with
      | nil => exact .cons (.inl rfl) .nil
      | cons hline hlines =>
        refine .cons ?_ hlines
        rcases hline with rfl | rfl
        · exact .inl rfl
        · exact .inr rfl

/-! ## One more character at the end -/

theorem isPrefixOf?_concat {marker : Text} {c : Char} (h : c ∉ marker) (t : Text) :
    marker.isPrefixOf? (t ++ [c]) = (marker.isPrefixOf? t).map (· ++ [c]) := by
  induction marker generalizing t with
  | nil => rfl
  | cons m marker ih =>
    rw [List.mem_cons, not_or] at h
    cases t with
    | nil => simp [List.isPrefixOf?, Ne.symm h.1]
    | cons a t =>
      rw [List.cons_append, List.isPrefixOf?, List.isPrefixOf?, ih h.2]
      split <;> rfl

/-- A character that is not in the marker comes after its first occurrence, or there is none. -/
theorem after?_concat {marker : Text} {c : Char} (h : c ∉ marker) (t : Text) :
    after? marker (t ++ [c]) = (after? marker t).map (· ++ [c]) := by
  induction t with
  | nil =>
    have hfirst := isPrefixOf?_concat h []
    rw [List.nil_append] at hfirst ⊢
    unfold after?
    rw [hfirst]
    cases hnil : marker.isPrefixOf? [] with
    | none => exact hnil
    | some rest => rfl
  | cons a t ih =>
    have hfirst := isPrefixOf?_concat h (a :: t)
    rw [List.cons_append] at hfirst ⊢
    rw [after?, after?, hfirst]
    cases marker.isPrefixOf? (a :: t) with
    | none => exact ih
    | some rest => rfl

/-- Trimming removes a blank at the end. -/
theorem trim_concat {c : Char} (h : isBlank c = true) (t : Text) : trim (t ++ [c]) = trim t := by
  have hend (u : Text) : trimEnd (u ++ [c]) = trimEnd u := by
    simp [trimEnd, h]
  rw [trim, trim, trimStart, trimStart, List.dropWhile_append]
  split
  · rename_i hnil
    rw [List.isEmpty_iff.mp hnil]
    simp [h]
  · exact hend _

theorem dropReturn_concat (l : Text) : dropReturn (l ++ ['\r']) = l := by
  simp [dropReturn]

end Text

namespace Batch

open Text (withReturns)

/-- **A carriage return more changes no content.** -/
theorem content?_concat_return {marker : Text} (h : '\r' ∉ marker) (l : Text) :
    content? marker (l ++ ['\r']) = content? marker l := by
  rw [content?, content?, Text.dropReturn_concat]
  -- only a line that ends in a return already keeps one
  by_cases hlast : l.getLast? = some '\r'
  · obtain ⟨l', rfl⟩ := List.getLast?_eq_some_iff.mp hlast
    rw [Text.dropReturn_concat, Text.after?_concat h, Option.map_map]
    congr 1
    funext rest
    exact Text.trim_concat (by decide) rest
  · rw [Text.dropReturn, if_neg hlast]

theorem map_content?_returns {marker : Text} (h : '\r' ∉ marker) {lines lines' : List Text}
    (hlines : List.Forall₂ Text.MayEndInReturn lines lines') :
    lines'.map (content? marker) = lines.map (content? marker) := by
  induction hlines with
  | nil => rfl
  | cons hline _ ih =>
    rw [List.map_cons, List.map_cons, ih]
    rcases hline with rfl | rfl
    · rfl
    · rw [content?_concat_return h]

/-- **Line endings do not matter.**  With a carriage return before every line feed, whatever returns
the text has already, a source has the same batches for every marker without a return, and so the
same tree or the same error. -/
theorem extract_withReturns (source text : Text) :
    (∀ marker, '\r' ∉ marker →
      extract marker source (withReturns text) = extract marker source text) ∧
    parseSource source (withReturns text) = parseSource source text := by
  have hextract : ∀ marker, '\r' ∉ marker →
      extract marker source (withReturns text) = extract marker source text := by
    intro marker h
    rw [extract, extract, map_content?_returns h (Text.splitLines_withReturns text)]
  refine ⟨hextract, ?_⟩
  rw [parseSource, parseSource, hextract defaultMarker (by decide)]

/-- A line with a return already, a marker right before the line end, a line of a return only, and a
last line without a line end. -/
theorem extract_withReturns_mixed :
    let text : Text := "//* a\r\n//*\n\r\n//* b"
    withReturns text = "//* a\r\r\n//*\r\n\r\r\n//* b".toList ∧
      extract defaultMarker "s" text = [⟨"s", 1, ["a", ""]⟩, ⟨"s", 4, ["b"]⟩] ∧
      extract defaultMarker "s" (withReturns text) = extract defaultMarker "s" text ∧
      parseSource "s" (withReturns text) = parseSource "s" text := by
  intro text
  obtain ⟨hextract, hparse⟩ := extract_withReturns "s" text
  exact ⟨by decide +kernel, by decide +kernel, hextract defaultMarker (by decide), hparse⟩

end Batch

end CommentDocs
