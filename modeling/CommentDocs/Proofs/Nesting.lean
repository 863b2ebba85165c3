import CommentDocs.Proofs.Walking

/-!
# What the depths of a walk tell

The walk lists places with their depths and says nothing of parents.  The depths are enough: a
record hangs under the last one before it that is one level higher, and the whole nesting can be
told from the list.

* `Tree.Hangs`: the nearest of the records met earlier that is one level higher is the parent.
  `Proper.walk_hangs`: every record of the walk but the first hangs in this way.
* `IsAbove`, `Proper.walk_above`: the same, for the places in a list of depths.
* `Sketch`: labels nested as the records are, in the order of the walk.  `entries_inj`: a sketch can
  be told from its labels with their depths; `Proper.walk_sketch`: these are listed by the walk.
-/

set_option autoImplicit false

namespace CommentDocs

namespace Tree

variable {t : Tree} {depth i limit : Nat} {x : Nat × Nat} {earlier met more : List (Nat × Nat)}

/-! ## The nearest record one level higher -/

/-- Of the records that were met earlier, the nearest one that is one level higher is the parent. -/
def Hangs (t : Tree) (earlier : List (Nat × Nat)) (x : Nat × Nat) : Prop :=
  ∃ before y between, earlier = before ++ y :: between ∧ y.1 + 1 = x.1 ∧
    (∀ z ∈ between, z.1 + 1 ≠ x.1) ∧ t.parent? x.2 = some y.2

/-- Each of the records hangs under one that was met earlier. -/
def AllHang (t : Tree) : List (Nat × Nat) → List (Nat × Nat) → Prop
  | _, [] => True
  | earlier, x :: met => t.Hangs earlier x ∧ t.AllHang (earlier ++ [x]) met

theorem allHang_append :
    t.AllHang earlier (met ++ more) ↔ t.AllHang earlier met ∧ t.AllHang (earlier ++ met) more := by
  induction met generalizing earlier with
  | nil => simp [AllHang]
  | cons x met ih =>
    rw [List.cons_append, AllHang, AllHang, ih, and_assoc, List.append_assoc, List.singleton_append]

theorem AllHang.hangs (h : t.AllHang earlier (met ++ x :: more)) : t.Hangs (earlier ++ met) x :=
  (allHang_append.mp h).2.1

/-- Nothing below a record is met at a smaller depth. -/
theorem depth_le_of_mem_outline {y : Nat × Nat} (hy : y ∈ t.outlineWithin limit depth i) :
    depth ≤ y.1 := by
  induction limit generalizing depth i with
  | zero =>
    obtain rfl := List.mem_singleton.mp hy
    exact Nat.le_refl depth
  | succ limit ih =>
    rcases List.mem_cons.mp hy with rfl | hy
    · exact Nat.le_refl depth
    · obtain ⟨c, _, hy⟩ := List.mem_flatMap.mp hy
      exact Nat.le_of_succ_le (ih hy)

/-- What is below a record hangs under it, directly or not.  By induction on the bound: before the
children of a record there is nothing but what is below it, at a larger depth than its own. -/
theorem Proper.allHang_below (h : t.Proper) (limit depth i : Nat) (earlier : List (Nat × Nat)) :
    t.AllHang (earlier ++ [(depth, i)]) (t.outlineWithin limit depth i).tail := by
  induction limit generalizing depth i earlier with
  | zero => trivial
  | succ limit ih =>
    have hkids : ∀ kids between, kids ⊆ t.orderedChildren i → (∀ z ∈ between, depth < z.1) →
        t.AllHang (earlier ++ (depth, i) :: between)
          (kids.flatMap (t.outlineWithin limit (depth + 1))) := by
      intro kids
      induction kids with
      | nil => intros; trivial
      | cons j kids ihkids =>
        intro between hsub hbetween
        obtain ⟨hj, hkids⟩ := List.cons_subset.mp hsub
        have hparent : t.parent? j = some i :=
          (h.lists.mem_iff i j).mp (mem_orderedChildren.mp hj)
        have hfirst : t.outlineWithin limit (depth + 1) j =
            (depth + 1, j) :: (t.outlineWithin limit (depth + 1) j).tail := by
          cases limit <;> rfl
        rw [List.flatMap_cons, allHang_append]
        constructor
        · rw [hfirst]
          refine ⟨⟨earlier, (depth, i), between, rfl, rfl, ?_, hparent⟩, ih (depth + 1) j _⟩
          intro z hz
          have := hbetween z hz
          omega
        · rw [List.append_assoc, List.cons_append]
          refine ihkids _ hkids fun z hz => ?_
          rcases List.mem_append.mp hz with hz | hz
          · exact hbetween z hz
          · exact depth_le_of_mem_outline hz
    exact hkids (t.orderedChildren i) [] (List.Subset.refl _) (by simp)

/-- **Every record of the walk but the first** hangs under the nearest record met before it that is
one level higher. -/
theorem Proper.walk_hangs (h : t.Proper) (hwalk : t.walk = met ++ x :: more) (hmet : met ≠ []) :
    t.Hangs met x := by
  have hbelow := h.allHang_below t.size 0 0 []
  obtain ⟨first, met, rfl⟩ := List.exists_cons_of_ne_nil hmet
  have hroot : t.walk = (0, 0) :: (t.outlineWithin t.size 0 0).tail := by
    rw [h.walk_eq]
    cases t.size <;> rfl
  rw [hroot, List.cons_append, List.cons.injEq] at hwalk
  obtain ⟨rfl, htail⟩ := hwalk
  rw [htail] at hbelow
  exact hbelow.hangs

end Tree

/-- The last of the depths before place `k` that is one less than the one there is at place `j`. -/
structure IsAbove (depths : List Nat) (j k : Nat) : Prop where
  lt : j < k
  level : depths[j]?.map (· + 1) = depths[k]?
  nearest : ∀ m, j < m → m < k → depths[m]?.map (· + 1) ≠ depths[k]?

namespace Tree

variable {t : Tree} {i k : Nat}

/-- The place of the record that the walk meets after `k` others. -/
def metAt? (t : Tree) (k : Nat) : Option Nat := t.walk[k]?.map (·.2)

/-- **The parent of a record of the walk** was met where the nearest smaller depth before it is. -/
theorem Proper.walk_above (h : t.Proper) (hk : 0 < k) (hi : t.metAt? k = some i) :
    ∃ j p, IsAbove (t.walk.map (·.1)) j k ∧ t.metAt? j = some p ∧ t.parent? i = some p := by
  obtain ⟨x, hx, rfl⟩ := Option.map_eq_some_iff.mp hi
  obtain ⟨hlt, rfl⟩ := List.getElem?_eq_some_iff.mp hx
  have hsplit : t.walk = t.walk.take k ++ t.walk[k] :: t.walk.drop (k + 1) := by
    rw [← List.drop_eq_getElem_cons hlt, List.take_append_drop]
  have hmet : t.walk.take k ≠ [] := by
    rw [Ne, List.take_eq_nil_iff]
    rintro (rfl | hnil)
    · exact absurd hk (Nat.lt_irrefl 0)
    · rw [hnil] at hlt
      cases hlt
  obtain ⟨before, y, between, hearlier, hlevel, hnearest, hparent⟩ := h.walk_hangs hsplit hmet
  have hlength : k = before.length + (between.length + 1) := by
    have := congrArg List.length hearlier
    rw [List.length_take, List.length_append, List.length_cons] at this
    omega
  have hget : ∀ m < k, t.walk[m]? = (before ++ y :: between)[m]? := by
    intro m hm
    rw [← hearlier, List.getElem?_take_of_lt hm]
  have hy : t.walk[before.length]? = some y := by
    rw [hget _ (by omega)]
    simp
  refine ⟨before.length, y.2, ⟨by omega, ?_, ?_⟩, by rw [metAt?, hy]; rfl, hparent⟩
  · simp [List.getElem?_map, hy, hx, hlevel]
  · intro m hjm hmk
    have hm : t.walk[m]? = between[m - before.length - 1]? := by
      rw [hget m hmk, List.getElem?_append_right (by omega), List.getElem?_cons, if_neg (by omega)]
    have hbound : m - before.length - 1 < between.length := by omega
    rw [List.getElem?_map, List.getElem?_map, hm, hx, List.getElem?_eq_getElem hbound]
    simpa using hnearest _ (List.getElem_mem hbound)

end Tree

/-! ## The nesting as a value -/

/-- Labels, each with what is nested below it. -/
inductive Sketch (α : Type) where
  | mk (label : α) (below : List (Sketch α))

namespace Sketch

variable {α : Type}

mutual

/-- The labels of a sketch from the top down, each with its depth. -/
def entries (depth : Nat) : Sketch α → List (Nat × α)
  | .mk label below => (depth, label) :: entriesOf (depth + 1) below

/-- The labels of several sketches. -/
def entriesOf (depth : Nat) : List (Sketch α) → List (Nat × α)
  | [] => []
  | s :: ss => s.entries depth ++ entriesOf depth ss

end

/-- The list goes on, if it does, at a depth that is smaller. -/
def Ends (depth : Nat) (rest : List (Nat × α)) : Prop := ∀ x, rest.head? = some x → x.1 < depth

theorem Ends.succ {depth : Nat} {rest : List (Nat × α)} (h : Ends depth rest) :
    Ends (depth + 1) rest := fun x hx => Nat.lt_succ_of_lt (h x hx)

theorem ends_entriesOf {depth : Nat} {rest : List (Nat × α)} (h : Ends depth rest)
    (ss : List (Sketch α)) : Ends (depth + 1) (entriesOf depth ss ++ rest) := by
  cases ss with
  | nil => exact h.succ
  | cons s ss =>
    cases s with
    | mk label below =>
      rintro x ⟨⟩
      exact Nat.lt_succ_self depth

/-- A sketch does not start where a list goes on at a smaller depth. -/
theorem ne_entriesOf {depth : Nat} {rest rest' : List (Nat × α)} (h : Ends depth rest)
    (s : Sketch α) (ss : List (Sketch α)) : rest ≠ entriesOf depth (s :: ss) ++ rest' := by
  cases s with
  | mk label below =>
    rintro rfl
    exact absurd (h (depth, label) rfl) (Nat.lt_irrefl depth)

mutual

theorem entries_append_inj {depth : Nat} {rest rest' : List (Nat × α)}
    (h : Ends (depth + 1) rest) (h' : Ends (depth + 1) rest') : ∀ s s' : Sketch α,
    s.entries depth ++ rest = s'.entries depth ++ rest' → s = s' ∧ rest = rest'
  | .mk label below, .mk label' below' => by
    intro heq
    rw [entries, entries, List.cons_append, List.cons_append, List.cons.injEq] at heq
    obtain ⟨hlabel, hbelow⟩ := heq
    obtain ⟨rfl, rfl⟩ := entriesOf_append_inj h h' below below' hbelow
    cases hlabel
    exact ⟨rfl, rfl⟩

theorem entriesOf_append_inj {depth : Nat} {rest rest' : List (Nat × α)}
    (h : Ends depth rest) (h' : Ends depth rest') : ∀ ss ss' : List (Sketch α),
    entriesOf depth ss ++ rest = entriesOf depth ss' ++ rest' → ss = ss' ∧ rest = rest'
  | [], [] => fun heq => ⟨rfl, heq⟩
  | [], s :: ss => fun heq => absurd heq (ne_entriesOf h s ss)
  | s :: ss, [] => fun heq => absurd heq.symm (ne_entriesOf h' s ss)
  | s :: ss, s' :: ss' => by
    intro heq
    rw [entriesOf, entriesOf, List.append_assoc, List.append_assoc] at heq
    obtain ⟨rfl, hmore⟩ :=
      entries_append_inj (ends_entriesOf h ss) (ends_entriesOf h' ss') s s' heq
    obtain ⟨rfl, rfl⟩ := entriesOf_append_inj h h' ss ss' hmore
    exact ⟨rfl, rfl⟩

end

/-- **A sketch can be told from its labels and their depths.** -/
theorem entries_inj {depth : Nat} {s s' : Sketch α} (h : s.entries depth = s'.entries depth) :
    s = s' := by
  have hends : Ends (depth + 1) ([] : List (Nat × α)) := fun x hx => by cases hx
  exact (entries_append_inj hends hends s s' (by rw [h])).1

end Sketch

namespace Tree

variable {α : Type}

/-- The labels of the records below a place, down to `limit` links, nested in the order of the
walk. -/
def sketchWithin (t : Tree) (label : Record → α) : Nat → Nat → Sketch α
  | 0, i => .mk (label (t.record i)) []
  | limit + 1, i =>
    .mk (label (t.record i)) ((t.orderedChildren i).map (t.sketchWithin label limit))

/-- The labels of all records, nested in the order of the walk. -/
def sketch (t : Tree) (label : Record → α) : Sketch α := t.sketchWithin label t.size 0

theorem entries_sketchWithin (t : Tree) (label : Record → α) (limit depth i : Nat) :
    (t.sketchWithin label limit i).entries depth =
      (t.outlineWithin limit depth i).map fun x => (x.1, label (t.record x.2)) := by
  induction limit generalizing depth i with
  | zero => rfl
  | succ limit ih =>
    have hkids : ∀ kids : List Nat,
        Sketch.entriesOf (depth + 1) (kids.map (t.sketchWithin label limit)) =
          (kids.flatMap (t.outlineWithin limit (depth + 1))).map
            fun x => (x.1, label (t.record x.2)) := by
      intro kids
      induction kids with
      | nil => rfl
      | cons j kids ihkids =>
        rw [List.map_cons, Sketch.entriesOf, ih, ihkids, List.flatMap_cons, List.map_append]
    rw [sketchWithin, Sketch.entries, outlineWithin, List.map_cons, hkids]

/-- **The walk lists the sketch of the tree.** -/
theorem Proper.walk_sketch {t : Tree} (h : t.Proper) (label : Record → α) :
    (t.walk.map fun x => (x.1, label (t.record x.2))) = (t.sketch label).entries 0 := by
  rw [h.walk_eq, sketch, entries_sketchWithin]

end Tree

end CommentDocs
