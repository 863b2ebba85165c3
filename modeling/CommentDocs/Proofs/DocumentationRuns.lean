import CommentDocs.Proofs.Extraction

/-!
# Batches are the longest runs of documentation lines

What extraction gives, told by the lines of the source alone:

* `linesOf_splitLines`: the lines are what line feeds separate.
* `after?_eq_some`, `after?_eq_none`: the search for the marker stops at its first occurrence, and
  finds one if the marker is anywhere on the line.
* `flatMap_numbered`: the lines of all batches, with their numbers, are the contents of the source
  in order.
* `ofContents_apart`: right below every batch but the last one is a line without content.
* `extract_maximalRuns`: every documentation line is in one batch, in order, and no two batches
  could be one.
-/

set_option autoImplicit false

namespace CommentDocs

namespace Text

/-! ## Lines and markers -/

/-- Line feeds between the lines give the text back, and no line holds one. -/
structure LinesOf (text : Text) (lines : List Text) : Prop where
  nonempty : lines ≠ []
  joined : joinWith ['\n'] lines = text
  oneLine : ∀ l ∈ lines, '\n' ∉ l

/-- The first occurrence of the marker on a line, by what stands before and after it. -/
structure FirstMark (marker line before after : Text) : Prop where
  split : line = before ++ marker ++ after
  first : ∀ before' after', line = before' ++ marker ++ after' → before.length ≤ before'.length

theorem joinWith_cons_cons (separator : Text) (c : Char) (t : Text) (ts : List Text) :
    joinWith separator ((c :: t) :: ts) = c :: joinWith separator (t :: ts) := by
  cases ts with
  | nil => rfl
  | cons t' ts => rfl

theorem joinWith_splitLines (t : Text) : joinWith ['\n'] (splitLines t) = t := by
  induction t with
  | nil => rfl
  | cons c t ih =>
    obtain ⟨line, lines, hlines⟩ := List.exists_cons_of_ne_nil (splitLines_ne_nil t)
    rw [hlines] at ih
    by_cases hc : c = '\n'
    · rw [splitLines, if_pos hc, hlines, joinWith, ih, hc]
      · rfl
      · simp
    · rw [splitLines, if_neg hc, hlines, joinWith_cons_cons, ih]

/-- **The lines are what line feeds separate.** -/
theorem linesOf_splitLines (t : Text) : t.LinesOf (splitLines t) :=
  ⟨splitLines_ne_nil t, joinWith_splitLines t, fun _ => not_mem_splitLines⟩

theorem append_ne_of_isPrefixOf? {marker t : Text} (h : marker.isPrefixOf? t = none)
    (rest : Text) : marker ++ rest ≠ t := by
  intro hsplit
  rw [List.isPrefixOf?_eq_some_iff_append_eq.mpr hsplit] at h
  cases h

/-- **The search stops at the first marker.** -/
theorem after?_eq_some {marker t rest : Text} (h : after? marker t = some rest) :
    ∃ before, FirstMark marker t before rest := by
  induction t with
  | nil =>
    have hsplit := List.isPrefixOf?_eq_some_iff_append_eq.mp h
    exact ⟨[], hsplit.symm, fun _ _ _ => Nat.zero_le _⟩
  | cons c t ih =>
    unfold after? at h
    split at h
    · rename_i rest' hfirst
      cases h
      have hsplit := List.isPrefixOf?_eq_some_iff_append_eq.mp hfirst
      exact ⟨[], hsplit.symm, fun _ _ _ => Nat.zero_le _⟩
    · rename_i hnone
      obtain ⟨before, hmark⟩ := ih h
      refine ⟨c :: before, by rw [hmark.split]; rfl, fun before' after' hsplit => ?_⟩
      cases before' with
      | nil => exact absurd hsplit.symm (append_ne_of_isPrefixOf? hnone after')
      | cons c' before' =>
        have hmore := hmark.first before' after' (List.cons.inj hsplit).2
        simpa using hmore

/-- **The search misses no marker.** -/
theorem after?_eq_none {marker t : Text} (h : after? marker t = none) : ¬ marker <:+: t := by
  rintro ⟨before, rest, hsplit⟩
  induction t generalizing before with
  | nil =>
    have hmarker : marker ++ rest = [] := (List.append_eq_nil_iff.mp
      ((List.append_assoc before marker rest).symm.trans hsplit)).2
    exact append_ne_of_isPrefixOf? h rest hmarker
  | cons c t ih =>
    unfold after? at h
    split at h
    · cases h
    · rename_i hnone
      cases before with
      | nil => exact append_ne_of_isPrefixOf? hnone rest hsplit
      | cons c' before => exact ih h before (List.cons.inj hsplit).2

end Text

/-! ## Runs of contents -/

namespace Batch

variable {source : Text} {n : Nat} {contents : List (Option Text)}

/-- The lines of a batch with their numbers in the source. -/
def numbered (b : Batch) : List (Nat × Text) := b.lines.mapIdx fun j l => (b.startLine + j, l)

/-- The contents among lines counted from `n`, with the numbers of their lines. -/
def contentsFrom : Nat → List (Option Text) → List (Nat × Text)
  | _, [] => []
  | n, none :: lines => contentsFrom (n + 1) lines
  | n, some content :: lines => (n, content) :: contentsFrom (n + 1) lines

theorem mem_contentsFrom {m : Nat} {t : Text} :
    (m, t) ∈ contentsFrom n contents ↔ ∃ k, m = n + k ∧ contents[k]? = some (some t) := by
  fun_induction contentsFrom n contents with
  | case1 => simp
  | case2 n lines ih =>
    rw [ih]
    constructor
    · rintro ⟨k, rfl, hk⟩
      exact ⟨k + 1, by omega, hk⟩
    · rintro ⟨k, rfl, hk⟩
      cases k with
      | zero => cases hk
      | succ k => exact ⟨k, by omega, hk⟩
  | case3 n content lines ih =>
    rw [List.mem_cons, ih]
    constructor
    · rintro (h | ⟨k, rfl, hk⟩)
      · cases h
        exact ⟨0, rfl, rfl⟩
      · exact ⟨k + 1, by omega, hk⟩
    · rintro ⟨k, rfl, hk⟩
      cases k with
      | zero =>
        cases hk
        exact .inl rfl
      | succ k => exact .inr ⟨k, by omega, hk⟩

theorem contentsFrom_sorted (n : Nat) (contents : List (Option Text)) :
    ((contentsFrom n contents).map Prod.fst).Pairwise (· < ·) := by
  fun_induction contentsFrom n contents with
  | case1 => exact .nil
  | case2 n lines ih => exact ih
  | case3 n content lines ih =>
    refine List.pairwise_cons.mpr ⟨fun m hm => ?_, ih⟩
    obtain ⟨⟨m', t⟩, hmem, rfl⟩ := List.mem_map.mp hm
    obtain ⟨k, hk, _⟩ := mem_contentsFrom.mp hmem
    simp only
    omega

/-- A batch that a line was put before. -/
theorem numbered_cons {b : Batch} (hnext : b.startLine = n + 1) (source content : Text) :
    numbered ⟨source, n, content :: b.lines⟩ = (n, content) :: b.numbered := by
  simp only [numbered, List.mapIdx_cons, hnext, Nat.add_zero, List.cons.injEq, true_and]
  congr 1
  funext j l
  rw [Nat.add_assoc n 1 j, Nat.add_comm 1 j]

/-- **The lines of the batches are the contents**, each once, in order and under its number. -/
theorem flatMap_numbered (source : Text) (n : Nat) (contents : List (Option Text)) :
    (ofContents source n contents).flatMap numbered = contentsFrom n contents := by
  fun_induction ofContents source n contents with
  | case1 => rfl
  | case2 n lines ih => exact ih
  | case3 n content lines hnil ih =>
    rw [hnil] at ih
    rw [contentsFrom, ← ih]
    rfl
  | case4 n content lines b more hcons hnext ih =>
    rw [hcons, List.flatMap_cons] at ih
    rw [List.flatMap_cons, numbered_cons hnext, List.cons_append, ih, contentsFrom]
  | case5 n content lines b more hcons hnext ih =>
    rw [hcons] at ih
    rw [List.flatMap_cons, ih, contentsFrom]
    rfl

/-- A line with content starts a batch or goes on above one. -/
theorem ofContents_head (source content : Text) (n : Nat) (lines : List (Option Text)) :
    ∃ b more, ofContents source n (some content :: lines) = b :: more ∧ b.startLine = n := by
  unfold ofContents
  split
  · exact ⟨_, _, rfl, rfl⟩
  · split
    · exact ⟨_, _, rfl, rfl⟩
    · exact ⟨_, _, rfl, rfl⟩

/-- Right below the first batch is a line without content, and the second batch starts further
down. -/
def Apart (n : Nat) (contents : List (Option Text)) (b b' : Batch) : Prop :=
  ∃ k, b.startLine + b.lines.length = n + k ∧ n + k < b'.startLine ∧ contents[k]? = some none

theorem Apart.below {b b' : Batch} (h : Apart (n + 1) contents b b') (first : Option Text) :
    Apart n (first :: contents) b b' := by
  obtain ⟨k, hend, hstart, hnone⟩ := h
  exact ⟨k + 1, by omega, by omega, hnone⟩

/-- **No two neighbouring batches could be one.** -/
theorem ofContents_apart (source : Text) (n : Nat) (contents : List (Option Text)) :
    (ofContents source n contents).IsChain (Apart n contents) := by
  fun_induction ofContents source n contents with
  | case1 => exact .nil
  | case2 n lines ih => exact ih.imp fun _ _ h => h.below none
  | case3 n content lines hnil ih => exact .singleton _
  | case4 n content lines b more hcons hnext ih =>
    rw [hcons] at ih
    have hbelow := ih.imp fun _ _ h => Apart.below h (some content)
    -- the batch ends where it did before the line was put above it
    cases more with
    | nil => exact .singleton _
    | cons b' more =>
      obtain ⟨⟨k, hend, happart⟩, hmore⟩ := List.isChain_cons_cons.mp hbelow
      refine List.isChain_cons_cons.mpr ⟨⟨k, ?_, happart⟩, hmore⟩
      simp only [List.length_cons]
      omega
  | case5 n content lines b more hcons hnext ih =>
    rw [hcons] at ih
    refine List.isChain_cons_cons.mpr ⟨?_, ih.imp fun _ _ h => h.below (some content)⟩
    have hstart : n + 1 ≤ b.startLine := le_startLine (by rw [hcons]; exact List.mem_cons_self)
    refine ⟨1, rfl, by omega, ?_⟩
    cases lines with
    | nil => cases hcons
    | cons line lines =>
      cases line with
      | none => rfl
      | some content' =>
        obtain ⟨b', more', hcons', hstart'⟩ := ofContents_head source content' (n + 1) lines
        rw [hcons] at hcons'
        cases hcons'
        exact absurd hstart' hnext

/-! ## Runs of documentation lines -/

/-- The line with the number, counted from one, holds the marker. -/
def Documents (marker : Text) (lines : List Text) (n : Nat) : Prop :=
  ∃ k line, n = k + 1 ∧ lines[k]? = some line ∧ marker <:+: Text.dropReturn line

/-- The text is what follows the first marker on the line with the number, trimmed. -/
def IsContent (marker : Text) (lines : List Text) (n : Nat) (content : Text) : Prop :=
  ∃ k line before after, n = k + 1 ∧ lines[k]? = some line ∧
    Text.FirstMark marker (Text.dropReturn line) before after ∧ content = Text.trim after

/-- The batches are the longest runs of documentation lines among the lines of a source. -/
structure MaximalRuns (marker source : Text) (lines : List Text) (batches : List Batch) :
    Prop where
  /-- The lines of the batches come in order, and none twice. -/
  ordered : ((batches.flatMap numbered).map Prod.fst).Pairwise (· < ·)
  /-- They are the documentation lines. -/
  documented : ∀ n, n ∈ (batches.flatMap numbered).map Prod.fst ↔ Documents marker lines n
  /-- Line `j` of a batch is the content of the `j`-th line after the one it starts on. -/
  content : ∀ b ∈ batches, ∀ j l, b.lines[j]? = some l →
    IsContent marker lines (b.startLine + j) l
  nonempty : ∀ b ∈ batches, b.lines ≠ []
  /-- Between two neighbours is a line that is no documentation line. -/
  apart : batches.IsChain fun b b' => ∃ n, b.startLine + b.lines.length ≤ n ∧ n < b'.startLine ∧
    ¬ Documents marker lines n
  source : ∀ b ∈ batches, b.source = source

variable {marker line content : Text} {lines : List Text}

theorem content?_eq_none (h : content? marker line = none) :
    ¬ marker <:+: Text.dropReturn line :=
  Text.after?_eq_none (Option.map_eq_none_iff.mp h)

theorem content?_eq_some (h : content? marker line = some content) :
    ∃ before after, Text.FirstMark marker (Text.dropReturn line) before after ∧
      content = Text.trim after := by
  obtain ⟨after, hafter, rfl⟩ := Option.map_eq_some_iff.mp h
  obtain ⟨before, hmark⟩ := Text.after?_eq_some hafter
  exact ⟨before, after, hmark, rfl⟩

/-- Documentation lines are those with a content. -/
theorem documents_iff {n : Nat} : Documents marker lines n ↔
    ∃ k content, n = 1 + k ∧ (lines.map (content? marker))[k]? = some (some content) := by
  simp only [List.getElem?_map, Option.map_eq_some_iff]
  constructor
  · rintro ⟨k, line, rfl, hline, hmark⟩
    cases hcontent : content? marker line with
    | none => exact absurd hmark (content?_eq_none hcontent)
    | some content => exact ⟨k, content, Nat.add_comm k 1, line, hline, hcontent⟩
  · rintro ⟨k, content, rfl, line, hline, hcontent⟩
    obtain ⟨before, after, hmark, _⟩ := content?_eq_some hcontent
    exact ⟨k, line, Nat.add_comm 1 k, hline, before, after, hmark.split.symm⟩

/-- **Extraction gives the longest runs of documentation lines**, for every marker, source and
text. -/
theorem extract_maximalRuns (marker source text : Text) :
    ∃ lines, text.LinesOf lines ∧ MaximalRuns marker source lines (extract marker source text) := by
  refine ⟨Text.splitLines text, Text.linesOf_splitLines text, ?_⟩
  have hlisting := flatMap_numbered source 1 ((Text.splitLines text).map (content? marker))
  refine
    { ordered := ?_
      documented := fun n => ?_
      content := fun b hb j l hl => ?_
      nonempty := fun b hb => (ofContents_runOf hb).nonempty
      apart := (ofContents_apart source 1 _).imp fun b b' h => ?_
      source := fun b hb => (ofContents_lines hb).1 }
  · rw [extract, hlisting]
    exact contentsFrom_sorted 1 _
  · rw [extract, hlisting, documents_iff]
    constructor
    · intro hn
      obtain ⟨⟨n', t⟩, hmem, rfl⟩ := List.mem_map.mp hn
      obtain ⟨k, hk, ht⟩ := mem_contentsFrom.mp hmem
      exact ⟨k, t, hk, ht⟩
    · rintro ⟨k, t, hk, ht⟩
      exact List.mem_map.mpr ⟨(n, t), mem_contentsFrom.mpr ⟨k, hk, ht⟩, rfl⟩
  · obtain ⟨k, line, hk, hline, hcontent⟩ := extract_content? hb hl
    obtain ⟨before, after, hmark, hl⟩ := content?_eq_some hcontent
    exact ⟨k, line, before, after, hk, hline, hmark, hl⟩
  · obtain ⟨k, hend, hstart, hnone⟩ := h
    refine ⟨1 + k, by omega, hstart, fun hdoc => ?_⟩
    obtain ⟨k', content, hk, hcontent⟩ := documents_iff.mp hdoc
    obtain rfl : k = k' := by omega
    rw [hnone] at hcontent
    cases hcontent

end Batch

end CommentDocs
