import CommentDocs.Proofs.Descent

/-!
# The walk over a tree

The walk takes records from a stack and puts the children of each on top of it, the actions among
them first.  In a tree that was linked this comes to an end, and the records are met in the order in
which a recursion over the tree meets them.

* `Unwinds`: what the loop over a stack meets until the stack is empty.  There is no bound in it, so
  it says that the loop ends (`visit_of_unwinds`: with at least as many visits as are needed, the
  bounded loop meets the same).
* `IsOutline`: the equation of the recursion, a record before its actions and these before the
  others.  `Proper.isOutline`, `Proper.outline_unique`: in a linked tree it has one solution.
* `Proper.unwinds`: the loop meets, one after the other, what the recursion gives for each place on
  the stack.
* `link_walk`: the walk over every tree that was linked.
-/

set_option autoImplicit false

namespace CommentDocs

namespace Tree

variable {t : Tree} {below : Nat → Nat → List (Nat × Nat)} {depth i j limit : Nat}
  {met stack : List (Nat × Nat)}

/-! ## The loop -/

/-- The loop meets the given places, with their depths, until the stack is empty. -/
inductive Unwinds (t : Tree) : List (Nat × Nat) → List (Nat × Nat) → Prop where
  | done : Unwinds t [] []
  | visit {depth i : Nat} {stack met : List (Nat × Nat)} :
    Unwinds t ((t.orderedChildren i).map (fun j => (depth + 1, j)) ++ stack) met →
      Unwinds t ((depth, i) :: stack) ((depth, i) :: met)

/-- A bound that is large enough makes no difference. -/
theorem visit_of_unwinds (h : t.Unwinds stack met) :
    ∀ {limit : Nat}, met.length ≤ limit → t.visit limit stack = met := by
  induction h with
  | done =>
    intro limit _
    cases limit <;> rfl
  | visit _ ih =>
    intro limit hle
    rw [List.length_cons] at hle
    obtain ⟨n, rfl⟩ : ∃ n, limit = n + 1 := ⟨limit - 1, by omega⟩
    rw [Tree.visit, ih (by omega)]

/-! ## The recursion -/

/-- What is below each record, at the depth it is met at, is given by recursion: the record, then
what is below its actions, then what is below its other children, both in link order. -/
def IsOutline (t : Tree) (below : Nat → Nat → List (Nat × Nat)) : Prop :=
  ∀ depth, ∀ i < t.size, below depth i =
    (depth, i) ::
      (((t.children i).filter t.isAction).flatMap (below (depth + 1)) ++
        ((t.children i).filter fun j => !t.isAction j).flatMap (below (depth + 1)))

/-- The recursion down to `limit` links. -/
def outlineWithin (t : Tree) : Nat → Nat → Nat → List (Nat × Nat)
  | 0, depth, i => [(depth, i)]
  | limit + 1, depth, i =>
    (depth, i) :: (t.orderedChildren i).flatMap (t.outlineWithin limit (depth + 1))

theorem mem_orderedChildren : j ∈ t.orderedChildren i ↔ j ∈ t.children i := by
  simp only [orderedChildren, List.mem_append, List.mem_filter, Bool.not_eq_true']
  cases t.isAction j <;> simp

/-- Putting the actions first loses no child and repeats none. -/
theorem Lists.ordered (h : t.Lists t.children) : t.Lists t.orderedChildren where
  mem_iff p c := mem_orderedChildren.trans (h.mem_iff p c)
  nodup p := by
    refine List.nodup_append.mpr ⟨(h.nodup p).filter _, (h.nodup p).filter _, ?_⟩
    rintro c hc _ hc' rfl
    rw [List.mem_filter] at hc hc'
    simp [hc.2] at hc'

/-- The children of a record are in the tree, one link further down. -/
theorem Proper.child_spec (h : t.Proper) (hj : j ∈ t.children i) :
    j < t.size ∧ t.depth j = t.depth i + 1 := by
  obtain ⟨hlt, _, hdepth⟩ := h.parent_spec ((h.lists.mem_iff i j).mp hj)
  exact ⟨hlt, hdepth⟩

/-- Below a record the depth leaves room for, a larger bound changes nothing. -/
theorem Proper.outlineWithin_succ (h : t.Proper) (hi : i < t.size)
    (hlimit : t.size ≤ limit + t.depth i) (depth : Nat) :
    t.outlineWithin (limit + 1) depth i = t.outlineWithin limit depth i := by
  induction limit generalizing depth i with
  | zero =>
    have := h.depth_lt hi
    omega
  | succ limit ih =>
    rw [outlineWithin, outlineWithin]
    congr 1
    apply List.flatMap_congr
    intro j hj
    obtain ⟨hlt, hdepth⟩ := h.child_spec (mem_orderedChildren.mp hj)
    exact ih hlt (by omega) (depth + 1)

/-- **In a linked tree the recursion has a solution.** -/
theorem Proper.isOutline (h : t.Proper) : t.IsOutline (t.outlineWithin t.size) := by
  intro depth i hi
  rw [← h.outlineWithin_succ hi (Nat.le_add_right _ _), outlineWithin, orderedChildren,
    List.flatMap_append]

/-- It has no other one: going from a record to its children comes to an end. -/
theorem Proper.outline_unique (h : t.Proper) {below' : Nat → Nat → List (Nat × Nat)}
    (hb : t.IsOutline below) (hb' : t.IsOutline below') (hi : i < t.size) (depth : Nat) :
    below depth i = below' depth i := by
  induction i using h.children_wellFounded.induction generalizing depth with
  | _ i ih =>
    have hkids : ∀ j ∈ t.children i, below (depth + 1) j = below' (depth + 1) j :=
      fun j hj => ih j hj (h.child_spec hj).1 (depth + 1)
    rw [hb depth i hi, hb' depth i hi]
    congr 2 <;>
      exact List.flatMap_congr fun j hj => hkids j (List.mem_of_mem_filter hj)

/-! ## The loop is the recursion -/

/-- **The loop meets what the recursion gives** for the place on top of the stack, before it goes on
with the rest. -/
theorem Proper.unwinds (h : t.Proper) (hb : t.IsOutline below) (hi : i < t.size)
    (hrest : t.Unwinds stack met) (depth : Nat) :
    t.Unwinds ((depth, i) :: stack) (below depth i ++ met) := by
  induction i using h.children_wellFounded.induction generalizing depth stack met with
  | _ i ih =>
    -- the children go on the stack together and are gone through one by one
    have hkids : ∀ kids : List Nat, kids ⊆ t.children i →
        t.Unwinds (kids.map (fun j => (depth + 1, j)) ++ stack)
          (kids.flatMap (below (depth + 1)) ++ met) := by
      intro kids hsub
      induction kids with
      | nil => exact hrest
      | cons j kids ihkids =>
        obtain ⟨hj, hkids⟩ := List.cons_subset.mp hsub
        rw [List.map_cons, List.flatMap_cons, List.append_assoc]
        exact ih j hj (h.child_spec hj).1 (ihkids hkids) (depth + 1)
    rw [hb depth i hi, ← List.flatMap_append, List.cons_append]
    exact .visit (hkids (t.orderedChildren i) fun j hj => mem_orderedChildren.mp hj)

theorem outlineWithin_places (t : Tree) (limit depth i : Nat) :
    (t.outlineWithin limit depth i).map (·.2) = preorder t.orderedChildren limit i := by
  induction limit generalizing depth i with
  | zero => rfl
  | succ limit ih =>
    rw [outlineWithin, preorder, List.map_cons, List.map_flatMap]
    simp only [ih]

/-- What is met below a record is as far below it as the depths say. -/
theorem Proper.depth_of_mem_outline (h : t.Proper) {depth' : Nat}
    (hj : (depth', j) ∈ t.outlineWithin limit depth i) :
    depth' + t.depth i = depth + t.depth j := by
  induction limit generalizing depth i with
  | zero =>
    obtain ⟨rfl, rfl⟩ := Prod.mk.inj (List.mem_singleton.mp hj)
    rfl
  | succ limit ih =>
    rcases List.mem_cons.mp hj with heq | hj
    · obtain ⟨rfl, rfl⟩ := Prod.mk.inj heq
      rfl
    · obtain ⟨c, hc, hj⟩ := List.mem_flatMap.mp hj
      have hdepth := (h.child_spec (mem_orderedChildren.mp hc)).2
      have := ih hj
      omega

/-- Every record is met exactly once. -/
theorem Proper.outline_perm (h : t.Proper) :
    ((t.outlineWithin t.size 0 0).map (·.2)).Perm (List.range t.size) := by
  rw [outlineWithin_places]
  exact h.preorder_perm h.lists.ordered

/-- **The walk is the outline of the tree**: its bound is the number of records, and the loop meets
no more than that. -/
theorem Proper.walk_eq (h : t.Proper) : t.walk = t.outlineWithin t.size 0 0 := by
  have hloop := h.unwinds h.isOutline h.closed.nonempty .done 0
  rw [List.append_nil] at hloop
  apply visit_of_unwinds hloop
  have hlength := h.outline_perm.length_eq
  rw [List.length_map, List.length_range] at hlength
  omega

/-- How the walk goes over a tree. -/
structure WalksAll (t : Tree) : Prop where
  /-- The loop over the stack comes to an end, having met what the walk lists. -/
  ends : t.Unwinds [(0, 0)] t.walk
  /-- The recursion over the tree, actions first, has one solution, -/
  outline : ∃ below, t.IsOutline below ∧ ∀ below', t.IsOutline below' →
    ∀ depth, ∀ i < t.size, below' depth i = below depth i
  /-- and the walk is that solution at the root. -/
  walk : ∀ below, t.IsOutline below → t.walk = below 0 0
  /-- Every record is met exactly once, -/
  once : (t.walk.map (·.2)).Perm (List.range t.size)
  /-- at its depth, the number of links up to the root. -/
  depth : ∀ depth i, (depth, i) ∈ t.walk → t.depth i = depth ∧ t.Climbs depth i

end Tree

namespace Registry

/-- **The walk over a linked tree** is the recursion over it, actions first, and meets every record
once at its depth. -/
theorem link_walk (rs : List Record) (t : Tree) (h : (ofRecords rs).link = .ok t) :
    t.WalksAll := by
  have ht := link_proper (ofRecords_consistent rs) h
  have hwalk := ht.walk_eq
  refine ⟨?_, ⟨_, ht.isOutline, fun below hb depth i hi => ?_⟩, fun below hb => ?_, ?_, ?_⟩
  · have hloop := ht.unwinds ht.isOutline ht.closed.nonempty .done 0
    rwa [List.append_nil, ← hwalk] at hloop
  · exact ht.outline_unique hb ht.isOutline hi depth
  · rw [hwalk]
    exact ht.outline_unique ht.isOutline hb ht.closed.nonempty 0
  · rw [hwalk]
    exact ht.outline_perm
  · intro depth i hi
    have hlt : i < t.size := by
      have hmem := (hwalk ▸ ht.outline_perm).mem_iff.mp (List.mem_map_of_mem hi)
      exact List.mem_range.mp hmem
    have hroot : t.depth 0 = 0 := Tree.depth_of_climbs ht.closed .root
    rw [hwalk] at hi
    have hsum := ht.depth_of_mem_outline hi
    obtain ⟨n, hn⟩ := ht.grounded i hlt
    have hdepth : t.depth i = n := Tree.depth_of_climbs ht.closed hn
    obtain rfl : n = depth := by omega
    exact ⟨hdepth, hn⟩

/-- Two actions and a node under one record, linked in another order than they are met in. -/
theorem link_walk_actions :
    let record (kind : RecordKind) (key parent : Text) : Record :=
      { kind := kind, name := key, key := key, parent := some parent }
    let rs := [record .node "n" "root", record .action "late" "m", record .node "m" "root",
      record .node "x" "m", record .action "a" "m", record .action "b" "root"]
    ∃ t, (ofRecords rs).link = .ok t ∧ t.children 3 = [4, 5, 2] ∧
      t.walk = [(0, 0), (1, 6), (1, 1), (1, 3), (2, 5), (2, 2), (2, 4)] ∧ t.WalksAll := by
  intro record rs
  have h : (ofRecords rs).link = .ok (linkedTree (ofRecords rs).records) := by decide
  exact ⟨_, h, by decide, by decide, link_walk rs _ h⟩

end Registry

end CommentDocs
