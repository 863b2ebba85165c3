import Mathlib.Data.Char
import Mathlib.Data.List.Lex
import Mathlib.Order.Lattice
import CommentDocs.Sources

/-!
# Collected sources

In which order source files are read, and which of the settings decide what they are.

* `Path.le_iff`: paths are in the lexicographic order of their components.
* `Sources.collect_sorted`: so are the files that are collected.
* `Sources.find_congr`: what is found depends on the extensions and the excluded names only.
-/

set_option autoImplicit false

namespace CommentDocs

/-! ## The order of paths -/

namespace Path

theorem cons_le_cons_iff {α : Type} [LinearOrder α] {a b : α} {s t : List α} :
    a :: s ≤ b :: t ↔ a < b ∨ a = b ∧ s ≤ t := by
  rw [← not_lt, List.cons_lt_cons_iff, not_or, not_and, not_lt, not_lt]
  constructor
  · rintro ⟨hle, htail⟩
    rcases lt_or_eq_of_le hle with hlt | rfl
    · exact .inl hlt
    · exact .inr ⟨rfl, htail rfl⟩
  · rintro (hlt | ⟨rfl, hle⟩)
    · exact ⟨le_of_lt hlt, fun heq => absurd heq.symm (ne_of_lt hlt)⟩
    · exact ⟨le_refl a, fun _ => hle⟩

theorem nil_le {α : Type} [LinearOrder α] (s : List α) : [] ≤ s := not_lt.mp (List.not_lt_nil s)

theorem textLe_iff {s t : Text} : textLe s t = true ↔ s ≤ t := by
  induction s generalizing t with
  | nil => simp [textLe, nil_le]
  | cons a s ih =>
    cases t with
    | nil => simp [textLe]
    | cons b t =>
      have hlt : a.toNat < b.toNat ↔ a < b := Iff.rfl
      rw [textLe, Bool.or_eq_true, Bool.and_eq_true, decide_eq_true_eq, beq_iff_eq, ih, hlt,
        cons_le_cons_iff]

theorem componentsLe_iff {xs ys : List Text} : componentsLe xs ys = true ↔ xs ≤ ys := by
  induction xs generalizing ys with
  | nil => simp [componentsLe, nil_le]
  | cons a xs ih =>
    cases ys with
    | nil => simp [componentsLe]
    | cons b ys =>
      rw [componentsLe, cons_le_cons_iff]
      split
      · rename_i heq
        simp [heq, ih]
      · rename_i hne
        rw [textLe_iff, le_iff_lt_or_eq]
        simp [hne]

/-- **Paths are in the lexicographic order of their components.** -/
theorem le_iff {a b : Text} : le a b = true ↔ components a ≤ components b := componentsLe_iff

end Path

namespace Sources

theorem sorted_pairwise (found : List Found) :
    (sorted found).Pairwise fun a b => Path.components a ≤ Path.components b := by
  simp only [← Path.le_iff]
  apply List.pairwise_mergeSort
  · intro a b c hab hbc
    rw [Path.le_iff] at *
    exact le_trans hab hbc
  · intro a b
    rw [Bool.or_eq_true, Path.le_iff, Path.le_iff]
    exact le_total _ _

theorem collect_eq_ok {w : Workspace} {settings : Settings} {root : Text} {files : List Text} :
    collect w settings root = .ok files ↔
      ∃ found, find w settings root = some found ∧ sorted found = files := by
  unfold collect
  cases find w settings root with
  | none => simp
  | some found => simp

/-- **The files that are collected are in the order of paths.** -/
theorem collect_sorted {w : Workspace} {settings : Settings} {root : Text} {files : List Text}
    (h : collect w settings root = .ok files) :
    files.Pairwise fun a b => Path.components a ≤ Path.components b := by
  obtain ⟨found, _, rfl⟩ := collect_eq_ok.mp h
  exact sorted_pairwise found

/-! ## What a search depends on -/

/-- Two settings look for the same sources. -/
structure SameSearch (s s' : Settings) : Prop where
  extensions : s.extensions = s'.extensions
  exclude : s.exclude = s'.exclude

variable {s s' : Settings}

mutual

theorem search_congr (h : SameSearch s s') (name path : Text) :
    ∀ t, search s name path t = search s' name path t
  | .file _ => by rw [search, search, Settings.accepts, Settings.accepts, h.extensions]
  | .directory entries => by
    rw [search, search, Settings.excludes, Settings.excludes, h.exclude,
      searchEntries_congr h path entries]

theorem searchEntries_congr (h : SameSearch s s') (dir : Text) :
    ∀ entries, searchEntries s dir entries = searchEntries s' dir entries
  | [] => by rw [searchEntries, searchEntries]
  | (name, t) :: entries => by
    rw [searchEntries, searchEntries, search_congr h name (Path.join dir name) t,
      searchEntries_congr h dir entries]

end

/-- **What is found depends on the extensions and the excluded names only.** -/
theorem find_congr (h : SameSearch s s') (w : Workspace) (root : Text) :
    find w s root = find w s' root := by
  unfold find
  split
  · rfl
  · rw [searchEntries_congr h]
  · rfl

end Sources

end CommentDocs
