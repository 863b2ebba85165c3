import Mathlib.Data.List.Basic
import CommentDocs.Batch
import CommentDocs.Proofs.Texts

/-!
# Batches of a source

What batches hold, and how to write a source that has given batches.

* `extract_lines`: every line of a batch is trimmed and holds no line feed.
* `extract_content?`: the lines of a batch are what follows the marker on consecutive lines of the
  source.
* `documented`: documentation lines for groups of contents, with a separator between any two
  groups.
* `extract_documented`: the batches of such a source are the groups.
-/

set_option autoImplicit false

namespace CommentDocs

open Text (Trimmed EndsSolid)

/-! ## Lines -/

namespace Text

theorem splitLines_ne_nil (t : Text) : splitLines t ≠ [] := by
  cases t with
  | nil => simp [splitLines]
  | cons c t =>
    unfold splitLines
    split
    · simp
    · split <;> simp

/-- No line holds a line feed. -/
theorem not_mem_splitLines {t l : Text} (h : l ∈ splitLines t) : '\n' ∉ l := by
  induction t generalizing l with
  | nil =>
    rw [List.mem_singleton.mp h]
    simp
  | cons c t ih =>
    unfold splitLines at h
    split at h
    · rcases List.mem_cons.mp h with rfl | h
      · simp
      · exact ih h
    · rename_i hc
      split at h
      · rename_i hnil
        exact absurd hnil (splitLines_ne_nil t)
      · rename_i line lines hlines
        rw [hlines] at ih
        rcases List.mem_cons.mp h with rfl | h
        · rw [List.mem_cons, not_or]
          exact ⟨Ne.symm hc, ih (by simp)⟩
        · exact ih (by simp [h])

/-- A line ends at the first line feed. -/
theorem splitLines_append {l : Text} (h : '\n' ∉ l) (t : Text) :
    splitLines (l ++ '\n' :: t) = l :: splitLines t := by
  induction l with
  | nil => simp [splitLines]
  | cons c l ih =>
    rw [List.mem_cons, not_or] at h
    rw [List.cons_append, splitLines, if_neg (Ne.symm h.1), ih h.2]

/-- Lines that are ended by line feeds are split again, whatever follows them. -/
theorem splitLines_unlines_append {lines : List Text} (h : ∀ l ∈ lines, '\n' ∉ l)
    (more : List Text) :
    splitLines (unlines (lines ++ more)) = lines ++ splitLines (unlines more) := by
  induction lines with
  | nil => rfl
  | cons l lines ih =>
    obtain ⟨hl, hlines⟩ := List.forall_mem_cons.mp h
    rw [List.cons_append, unlines, splitLines_append hl, ih hlines, List.cons_append]

/-- After the last line feed there is an empty line. -/
theorem splitLines_unlines {lines : List Text} (h : ∀ l ∈ lines, '\n' ∉ l) :
    splitLines (unlines lines) = lines ++ [[]] := by
  have hsplit := splitLines_unlines_append h []
  rwa [List.append_nil] at hsplit

theorem dropReturn_subset (l : Text) : dropReturn l ⊆ l := by
  unfold dropReturn
  split
  · exact List.dropLast_subset l
  · exact List.Subset.refl l

theorem dropReturn_of_endsSolid {l : Text} (h : EndsSolid l) : dropReturn l = l := by
  unfold dropReturn
  split
  · rename_i hlast
    exact absurd (h _ hlast) (by decide)
  · rfl

/-! ## Markers -/

/-- Nothing comes before a marker at the start. -/
theorem after?_append (marker t : Text) : after? marker (marker ++ t) = some t := by
  have hfirst : marker.isPrefixOf? (marker ++ t) = some t :=
    List.isPrefixOf?_eq_some_iff_append_eq.mpr rfl
  unfold after?
  split
  · rename_i hnil
    rwa [hnil] at hfirst
  · rename_i c l hcons
    rw [hcons] at hfirst
    simp only [hfirst]

theorem after?_subset {marker t rest : Text} (h : after? marker t = some rest) : rest ⊆ t := by
  induction t with
  | nil =>
    rw [← List.isPrefixOf?_eq_some_iff_append_eq.mp h]
    exact List.subset_append_right _ _
  | cons c t ih =>
    unfold after? at h
    split at h
    · rename_i rest' hfirst
      cases h
      rw [← List.isPrefixOf?_eq_some_iff_append_eq.mp hfirst]
      exact List.subset_append_right _ _
    · exact fun a ha => List.mem_cons_of_mem c (ih h ha)

end Text

/-! ## Batches -/

namespace Batch

theorem content?_trimmed {marker line content : Text} (h : content? marker line = some content) :
    Trimmed content ∧ content ⊆ line := by
  obtain ⟨rest, hrest, rfl⟩ := Option.map_eq_some_iff.mp h
  refine ⟨Text.trim_trimmed rest, fun c hc => ?_⟩
  exact Text.dropReturn_subset line (Text.after?_subset hrest (Text.trim_subset rest hc))

/-- Batches carry the name of their source, and their lines are contents. -/
theorem ofContents_lines {source : Text} {n : Nat} {contents : List (Option Text)} {b : Batch}
    (h : b ∈ ofContents source n contents) :
    b.source = source ∧ ∀ l ∈ b.lines, some l ∈ contents := by
  fun_induction ofContents source n contents generalizing b with
  | case1 => cases h
  | case2 n contents ih =>
    obtain ⟨hs, hl⟩ := ih h
    exact ⟨hs, fun l hl' => List.mem_cons_of_mem _ (hl l hl')⟩
  | case3 n content contents hnil ih =>
    rw [List.mem_singleton.mp h]
    simp
  | case4 n content contents b' more hcons hnext ih =>
    rw [hcons] at ih
    rcases List.mem_cons.mp h with rfl | h
    · refine ⟨rfl, List.forall_mem_cons.mpr ⟨by simp, fun l hl => ?_⟩⟩
      exact List.mem_cons_of_mem _ ((ih (b := b') (by simp)).2 l hl)
    · obtain ⟨hs, hl⟩ := ih (List.mem_cons_of_mem _ h)
      exact ⟨hs, fun l hl' => List.mem_cons_of_mem _ (hl l hl')⟩
  | case5 n content contents b' more hcons hnext ih =>
    rw [hcons] at ih
    rcases List.mem_cons.mp h with rfl | h
    · simp
    · obtain ⟨hs, hl⟩ := ih h
      exact ⟨hs, fun l hl' => List.mem_cons_of_mem _ (hl l hl')⟩

/-- **Every line of a batch is trimmed and holds no line feed.** -/
theorem extract_lines {marker source text : Text} {b : Batch} (h : b ∈ extract marker source text) :
    b.source = source ∧ ∀ l ∈ b.lines, Trimmed l ∧ '\n' ∉ l := by
  obtain ⟨hs, hl⟩ := ofContents_lines h
  refine ⟨hs, fun l hl' => ?_⟩
  obtain ⟨line, hline, hcontent⟩ := List.mem_map.mp (hl l hl')
  obtain ⟨htrim, hsub⟩ := content?_trimmed hcontent
  exact ⟨htrim, fun hn => Text.not_mem_splitLines hline (hsub hn)⟩

theorem le_startLine {source : Text} {n : Nat} {contents : List (Option Text)} {b : Batch}
    (h : b ∈ ofContents source n contents) : n ≤ b.startLine := by
  fun_induction ofContents source n contents generalizing b with
  | case1 => cases h
  | case2 n contents ih => exact Nat.le_of_succ_le (ih h)
  | case3 n content contents hnil ih =>
    obtain rfl := List.mem_singleton.mp h
    exact Nat.le_refl n
  | case4 n content contents b' more hcons hnext ih =>
    rw [hcons] at ih
    rcases List.mem_cons.mp h with rfl | h
    · exact Nat.le_refl n
    · exact Nat.le_of_succ_le (ih (List.mem_cons_of_mem _ h))
  | case5 n content contents b' more hcons hnext ih =>
    rw [hcons] at ih
    rcases List.mem_cons.mp h with rfl | h
    · exact Nat.le_refl n
    · exact Nat.le_of_succ_le (ih h)

/-- The batch is a run of contents among lines counted from `n`: it has lines, and they follow each
other from its start line on. -/
structure RunOf (n : Nat) (contents : List (Option Text)) (b : Batch) : Prop where
  nonempty : b.lines ≠ []
  line : ∀ (i : Nat) (l : Text), b.lines[i]? = some l →
    ∃ k, b.startLine + i = n + k ∧ contents[k]? = some (some l)

/-- A run among the lines after the first one. -/
theorem RunOf.below {n : Nat} {contents : List (Option Text)} {b : Batch}
    (h : b.RunOf (n + 1) contents) (first : Option Text) : b.RunOf n (first :: contents) := by
  refine ⟨h.nonempty, fun i l hl => ?_⟩
  obtain ⟨k, hk, hline⟩ := h.line i l hl
  exact ⟨k + 1, by omega, hline⟩

theorem runOf_singleton (source : Text) (n : Nat) (content : Text) (contents : List (Option Text)) :
    RunOf n (some content :: contents) ⟨source, n, [content]⟩ := by
  refine ⟨List.cons_ne_nil _ _, fun i l hl => ?_⟩
  cases i with
  | zero => exact ⟨0, rfl, by simpa using hl⟩
  | succ i => simp at hl

/-- A run that starts on the next line is continued upwards. -/
theorem RunOf.cons {n : Nat} {contents : List (Option Text)} {b : Batch}
    (h : b.RunOf (n + 1) contents) (hnext : b.startLine = n + 1) (source content : Text) :
    RunOf n (some content :: contents) ⟨source, n, content :: b.lines⟩ := by
  refine ⟨List.cons_ne_nil _ _, fun i l hl => ?_⟩
  cases i with
  | zero => exact ⟨0, rfl, by simpa using hl⟩
  | succ i =>
    obtain ⟨k, hk, hline⟩ := h.line i l hl
    exact ⟨k + 1, by simp only; omega, hline⟩

/-- **Batches are runs of contents.** -/
theorem ofContents_runOf {source : Text} {n : Nat} {contents : List (Option Text)} {b : Batch}
    (h : b ∈ ofContents source n contents) : b.RunOf n contents := by
  fun_induction ofContents source n contents generalizing b with
  | case1 => cases h
  | case2 n contents ih => exact (ih h).below none
  | case3 n content contents hnil ih =>
    rw [List.mem_singleton.mp h]
    exact runOf_singleton source n content contents
  | case4 n content contents b' more hcons hnext ih =>
    rw [hcons] at ih
    rcases List.mem_cons.mp h with rfl | h
    · exact (ih List.mem_cons_self).cons hnext source content
    · exact (ih (List.mem_cons_of_mem _ h)).below _
  | case5 n content contents b' more hcons hnext ih =>
    rw [hcons] at ih
    rcases List.mem_cons.mp h with rfl | h
    · exact runOf_singleton source n content contents
    · exact (ih h).below _

/-- **The lines of a batch are what follows the marker** on the lines of the source from its start
line on. -/
theorem extract_content? {marker source text : Text} {b : Batch}
    (h : b ∈ extract marker source text) {i : Nat} {w : Text} (hw : b.lines[i]? = some w) :
    ∃ k line, b.startLine + i = k + 1 ∧ (Text.splitLines text)[k]? = some line ∧
      content? marker line = some w := by
  obtain ⟨k, hk, hline⟩ := (ofContents_runOf h).line i w hw
  rw [List.getElem?_map, Option.map_eq_some_iff] at hline
  obtain ⟨line, hline, hcontent⟩ := hline
  exact ⟨k, line, by omega, hline, hcontent⟩

/-- **A run of contents with a line that is none after it is one batch.** -/
theorem ofContents_run (source : Text) (rest : List (Option Text)) {group : List Text}
    (h : group ≠ []) (n : Nat) :
    ofContents source n (group.map some ++ none :: rest) =
      ⟨source, n, group⟩ :: ofContents source (n + group.length + 1) rest := by
  induction group generalizing n with
  | nil => exact absurd rfl h
  | cons l group ih =>
    rw [List.map_cons, List.cons_append, ofContents]
    cases group with
    | nil =>
      simp only [List.map_nil, List.nil_append, ofContents, List.length_singleton]
      split
      · rename_i hnil
        rw [hnil]
      · rename_i b more hcons
        -- the next batch does not start right below, since the line there is none
        have hstart : n + 1 + 1 ≤ b.startLine := le_startLine (by rw [hcons]; simp)
        rw [if_neg (by omega), hcons]
    | cons l' group =>
      rw [ih (by simp) (n + 1)]
      simp only [if_true, List.length_cons]
      congr 2
      omega

/-! ## Writing sources -/

/-- The documentation line with the given content. -/
def docLine (content : Text) : Text :=
  if content.isEmpty then defaultMarker else defaultMarker ++ ' ' :: content

/-- Groups of contents as documentation lines, with a separator between any two groups. -/
def documented (separator : Text) (groups : List (List Text)) : List Text :=
  List.intercalate [separator] (groups.map fun group => group.map docLine)

/-- One line without a marker. -/
structure IsSeparator (line : Text) : Prop where
  oneLine : '\n' ∉ line
  unmarked : content? defaultMarker line = none

/-- What a group of contents has to be to come back as a batch. -/
structure IsGroup (group : List Text) : Prop where
  nonempty : group ≠ []
  oneLine : ∀ l ∈ group, '\n' ∉ l
  trimmed : ∀ l ∈ group, Trimmed l

/-- **The content of a documentation line is read back.** -/
theorem content?_docLine {l : Text} (h : Trimmed l) :
    content? defaultMarker (docLine l) = some l := by
  unfold docLine
  split
  · rename_i h0
    rw [List.isEmpty_iff.mp h0]
    decide
  · rename_i h0
    have hends : EndsSolid (defaultMarker ++ ' ' :: l) := by
      rw [List.append_cons]
      exact (Text.trimmed_iff.mp h).2.append (by simpa using h0) _
    rw [content?, Text.dropReturn_of_endsSolid hends, Text.after?_append, Option.map_some,
      Text.trim_space, h]

theorem not_mem_docLine {l : Text} (h : '\n' ∉ l) : '\n' ∉ docLine l := by
  unfold docLine
  split
  · decide
  · simpa [defaultMarker] using h

section Documented

variable {separator source : Text} {group : List Text} {groups : List (List Text)}

theorem documented_singleton : documented separator [group] = group.map docLine := by
  simp [documented]

theorem documented_cons {group' : List Text} :
    documented separator (group :: group' :: groups) =
      group.map docLine ++ separator :: documented separator (group' :: groups) := by
  simp [documented, List.intercalate_cons_cons]

theorem not_mem_documented (hs : IsSeparator separator) (h : ∀ g ∈ groups, IsGroup g) :
    ∀ l ∈ documented separator groups, '\n' ∉ l := by
  have hgroup {g : List Text} (hg : IsGroup g) : ∀ l ∈ g.map docLine, '\n' ∉ l := by
    intro l hl
    obtain ⟨content, hcontent, rfl⟩ := List.mem_map.mp hl
    exact not_mem_docLine (hg.oneLine content hcontent)
  induction groups with
  | nil => intro l hl; cases hl
  | cons g groups ih =>
    obtain ⟨hg, hgroups⟩ := List.forall_mem_cons.mp h
    cases groups with
    | nil =>
      rw [documented_singleton]
      exact hgroup hg
    | cons g' groups =>
      intro l hl
      rw [documented_cons] at hl
      rcases List.mem_append.mp hl with hl | hl
      · exact hgroup hg l hl
      · rcases List.mem_cons.mp hl with rfl | hl
        · exact hs.oneLine
        · exact ih hgroups l hl

theorem map_content?_docLine (hg : IsGroup group) :
    (group.map docLine).map (content? defaultMarker) = group.map some := by
  rw [List.map_map]
  exact List.map_congr_left fun l hl => content?_docLine (hg.trimmed l hl)

/-- The contents of the groups, up to the empty line at the end, make up the groups again. -/
theorem ofContents_documented (hs : IsSeparator separator) (h : ∀ g ∈ groups, IsGroup g)
    (n : Nat) :
    (ofContents source n ((documented separator groups).map (content? defaultMarker) ++
      [none])).map (·.lines) = groups := by
  induction groups generalizing n with
  | nil => rfl
  | cons g groups ih =>
    obtain ⟨hg, hgroups⟩ := List.forall_mem_cons.mp h
    cases groups with
    | nil =>
      rw [documented_singleton, map_content?_docLine hg, ofContents_run source [] hg.nonempty]
      rfl
    | cons g' groups =>
      rw [documented_cons, List.map_append, map_content?_docLine hg, List.map_cons, hs.unmarked,
        List.append_assoc, List.cons_append, ofContents_run source _ hg.nonempty, List.map_cons,
        ih hgroups]

/-- **The batches of a source written for groups of contents are the groups.** -/
theorem extract_documented (source : Text) (hs : IsSeparator separator)
    (h : ∀ g ∈ groups, IsGroup g) :
    (extract defaultMarker source (Text.unlines (documented separator groups))).map (·.lines) =
      groups := by
  have hempty : content? defaultMarker [] = none := by decide
  rw [extract, Text.splitLines_unlines (not_mem_documented hs h), List.map_append,
    List.map_singleton, hempty]
  exact ofContents_documented hs h 1

end Documented

end Batch

end CommentDocs
