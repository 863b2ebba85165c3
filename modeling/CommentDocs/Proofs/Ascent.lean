import CommentDocs.Tree
import Mathlib.Data.List.Perm.Subperm

/-!
# Ways up to the root

`Tree.Climbs t n i` says that following `n` parents from record `i` leads to the root.  In a tree
where only the root has no parent, the search for a record without a way up does what it should,
although it stops after a bounded number of records and remembers what it has passed:

* `climbs_unique`, `climbs_lt_size`: the length of a way up is determined, and smaller than the
  number of records, so the bound of `ascend` never cuts a way up short.
* `ascend_grounded`, `ascend_ungrounded`: an ascent arrives exactly if there is a way up.
* `firstEndless?_spec`: the search over a list of records.
* `depth_of_climbs`: the depth of a record is the length of its way up.
-/

set_option autoImplicit false

namespace CommentDocs.Tree

variable {t : Tree} {i j m n p : Nat}

/-- Following `n` parents from record `i` leads to the root. -/
inductive Climbs (t : Tree) : Nat → Nat → Prop where
  | root : Climbs t 0 0
  | up {n i p : Nat} : t.parent? i = some p → Climbs t n p → Climbs t (n + 1) i

/-- Following parents from the record leads to the root. -/
def Grounded (t : Tree) (i : Nat) : Prop := ∃ n, t.Climbs n i

/-- The root is there, it has no parent, and every other record has one. -/
structure Closed (t : Tree) : Prop where
  nonempty : 0 < t.size
  root : t.parent? 0 = none
  up : ∀ i < t.size, i ≠ 0 → ∃ p < t.size, t.parent? i = some p

theorem grounded_root : t.Grounded 0 := ⟨0, .root⟩

/-- A record is under the root exactly if its parent is. -/
theorem grounded_iff_parent (h0 : t.parent? 0 = none) (hp : t.parent? i = some p) :
    t.Grounded i ↔ t.Grounded p := by
  constructor
  · rintro ⟨n, hn⟩
    cases hn with
    | root => rw [h0] at hp; cases hp
    | up hq h =>
      rw [hp] at hq
      cases hq
      exact ⟨_, h⟩
  · rintro ⟨n, hn⟩
    exact ⟨n + 1, .up hp hn⟩

theorem climbs_unique (h0 : t.parent? 0 = none) (hn : t.Climbs n i) (hm : t.Climbs m i) :
    n = m := by
  induction hn generalizing m with
  | root =>
    cases hm with
    | root => rfl
    | up hp _ => rw [h0] at hp; cases hp
  | up hp _ ih =>
    cases hm with
    | root => rw [h0] at hp; cases hp
    | up hq h =>
      rw [hp] at hq
      cases hq
      rw [ih h]

theorem parent?_lt_size (h : t.parent? i = some p) : i < t.size := by
  obtain ⟨e, he, _⟩ := Option.bind_eq_some_iff.mp h
  exact (List.getElem?_eq_some_iff.mp he).1

/-- The records on a way up, each nearer to the root than the ones before it. -/
theorem Climbs.path (h : t.Climbs n i) (hpos : 0 < t.size) (h0 : t.parent? 0 = none) :
    ∃ l : List Nat, l.length = n + 1 ∧ l.Nodup ∧ ∀ j ∈ l, j < t.size ∧ ∃ m ≤ n, t.Climbs m j := by
  induction h with
  | root => exact ⟨[0], rfl, by simp, by simpa using ⟨hpos, .root⟩⟩
  | @up n i p hp h ih =>
    obtain ⟨l, hlen, hnd, hl⟩ := ih
    refine ⟨i :: l, by simp [hlen], List.nodup_cons.mpr ⟨?_, hnd⟩, ?_⟩
    · intro hi
      obtain ⟨m, hm, hc⟩ := (hl i hi).2
      have := climbs_unique h0 (.up hp h) hc
      omega
    · intro j hj
      rcases List.mem_cons.mp hj with rfl | hj
      · exact ⟨parent?_lt_size hp, n + 1, Nat.le_refl _, .up hp h⟩
      · obtain ⟨hlt, m, hm, hc⟩ := hl j hj
        exact ⟨hlt, m, by omega, hc⟩

/-- **No way up is as long as the tree has records.** -/
theorem climbs_lt_size (ht : t.Closed) (h : t.Climbs n i) : n < t.size := by
  obtain ⟨l, hlen, hnd, hl⟩ := h.path ht.nonempty ht.root
  have hsub : l ⊆ List.range t.size := fun j hj => List.mem_range.mpr (hl j hj).1
  have := (List.subperm_of_subset hnd hsub).length_le
  rw [List.length_range] at this
  omega

/-! ## The bounded search -/

/-- What an ascent passes on the way to records under the root is under the root. -/
theorem ascend_arrived {known passed : List Nat} (hk : ∀ j ∈ known, t.Grounded j) :
    ∀ {limit i : Nat}, t.ascend known limit i = .arrived passed →
      t.Grounded i ∧ ∀ j ∈ passed, t.Grounded j := by
  intro limit
  induction limit generalizing passed with
  | zero =>
    intro i h
    unfold ascend at h
    split at h
    · rename_i hi
      cases h
      exact ⟨hk i (by simpa using hi), by simp⟩
    · cases h
  | succ limit ih =>
    intro i h
    unfold ascend at h
    split at h
    · rename_i hi
      cases h
      exact ⟨hk i (by simpa using hi), by simp⟩
    · simp only at h
      split at h
      · cases h
      · rename_i p hp
        cases hrest : t.ascend known limit p with
        | arrived rest =>
          rw [hrest] at h
          cases h
          obtain ⟨⟨n, hn⟩, hgrounded⟩ := ih hrest
          have hi : t.Grounded i := ⟨n + 1, .up hp hn⟩
          exact ⟨hi, by simpa using ⟨hi, hgrounded⟩⟩
        | stuck => rw [hrest] at h; cases h
        | endless => rw [hrest] at h; cases h

/-- An ascent arrives if there is a way up no longer than its limit. -/
theorem ascend_of_climbs {known : List Nat} (h0 : 0 ∈ known) (h : t.Climbs n i) :
    ∀ limit : Nat, n ≤ limit → ∃ passed, t.ascend known limit i = .arrived passed := by
  induction h with
  | root =>
    intro limit _
    unfold ascend
    rw [if_pos (by simpa using h0)]
    exact ⟨[], rfl⟩
  | up hp _ ih =>
    intro limit hle
    unfold ascend
    split
    · exact ⟨[], rfl⟩
    · obtain ⟨k, rfl⟩ : ∃ k, limit = k + 1 := ⟨limit - 1, by omega⟩
      obtain ⟨passed, hrest⟩ := ih k (by omega)
      simp only [hp, hrest]
      exact ⟨_, rfl⟩

/-- In a closed tree an ascent has a parent to go to until it arrives. -/
theorem ascend_ne_stuck {known : List Nat} (ht : t.Closed) (h0 : 0 ∈ known) :
    ∀ {limit i : Nat}, i < t.size → t.ascend known limit i ≠ .stuck := by
  intro limit
  induction limit with
  | zero => intro i _ h; unfold ascend at h; split at h <;> cases h
  | succ limit ih =>
    intro i hi h
    unfold ascend at h
    split at h
    · cases h
    · rename_i hnew
      have hi0 : i ≠ 0 := by rintro rfl; simp [h0] at hnew
      obtain ⟨p, hlt, hp⟩ := ht.up i hi hi0
      simp only [hp] at h
      cases hrest : t.ascend known limit p with
      | arrived rest => rw [hrest] at h; cases h
      | stuck => exact ih hlt hrest
      | endless => rw [hrest] at h; cases h

theorem ascend_grounded {known : List Nat} (ht : t.Closed) (h0 : 0 ∈ known) (hi : t.Grounded i) :
    ∃ passed, t.ascend known (t.size + 1) i = .arrived passed := by
  obtain ⟨n, hn⟩ := hi
  have := climbs_lt_size ht hn
  exact ascend_of_climbs h0 hn _ (by omega)

theorem ascend_ungrounded {known : List Nat} (ht : t.Closed) (h0 : 0 ∈ known)
    (hk : ∀ j ∈ known, t.Grounded j) (hlt : i < t.size) (hi : ¬ t.Grounded i) :
    t.ascend known (t.size + 1) i = .endless := by
  cases h : t.ascend known (t.size + 1) i with
  | arrived passed => exact absurd (ascend_arrived hk h).1 hi
  | stuck => exact absurd h (ascend_ne_stuck ht h0 hlt)
  | endless => rfl

/-- **The search finds the first record without a way up**, and nothing exactly if there is none. -/
theorem firstEndless?_spec (ht : t.Closed) {places : List Nat} (hp : ∀ i ∈ places, i < t.size) :
    ∀ known : List Nat, 0 ∈ known → (∀ j ∈ known, t.Grounded j) →
      match t.firstEndless? known places with
      | none => ∀ i ∈ places, t.Grounded i
      | some i => ¬ t.Grounded i ∧
          ∃ before after, places = before ++ i :: after ∧ ∀ j ∈ before, t.Grounded j := by
  induction places with
  | nil => intro known _ _; simp [firstEndless?]
  | cons i places ih =>
    intro known h0 hk
    have ih := ih fun j hj => hp j (List.mem_cons_of_mem _ hj)
    by_cases hi : t.Grounded i
    · obtain ⟨passed, ha⟩ := ascend_grounded ht h0 hi
      have hpassed := (ascend_arrived hk ha).2
      have hrest := ih (passed ++ known) (List.mem_append_right _ h0) (by
        intro j hj
        rcases List.mem_append.mp hj with hj | hj
        · exact hpassed j hj
        · exact hk j hj)
      simp only [firstEndless?, ha]
      split at hrest
      · simpa using ⟨hi, hrest⟩
      · rename_i k _
        obtain ⟨hk', before, after, rfl, hbefore⟩ := hrest
        exact ⟨hk', i :: before, after, rfl, by simpa using ⟨hi, hbefore⟩⟩
    · simp only [firstEndless?, ascend_ungrounded ht h0 hk (hp i (by simp)) hi]
      exact ⟨hi, [], places, rfl, by simp⟩

/-! ## Depth -/

theorem depthWithin_of_climbs (h0 : t.parent? 0 = none) (h : t.Climbs n i) :
    ∀ {limit : Nat}, n ≤ limit → t.depthWithin limit i = n := by
  induction h with
  | root =>
    intro limit _
    cases limit with
    | zero => rfl
    | succ limit => simp [depthWithin, h0]
  | up hp _ ih =>
    intro limit hle
    obtain ⟨k, rfl⟩ : ∃ k, limit = k + 1 := ⟨limit - 1, by omega⟩
    simp only [depthWithin, hp]
    rw [ih (by omega)]

/-- **The depth of a record is the length of its way up.** -/
theorem depth_of_climbs (ht : t.Closed) (h : t.Climbs n i) : t.depth i = n :=
  depthWithin_of_climbs ht.root h (Nat.le_of_lt (climbs_lt_size ht h))

/-- A record under the root is one link further from it than its parent. -/
theorem depth_succ (ht : t.Closed) (hp : t.parent? i = some p) (hi : t.Grounded i) :
    t.depth i = t.depth p + 1 := by
  obtain ⟨n, hn⟩ := (grounded_iff_parent ht.root hp).mp hi
  rw [depth_of_climbs ht hn, depth_of_climbs ht (.up hp hn)]

end CommentDocs.Tree
