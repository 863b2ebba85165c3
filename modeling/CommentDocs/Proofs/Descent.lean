import Mathlib.Data.List.Nodup
import CommentDocs.Proofs.LinkedTree
import CommentDocs.Proofs.Sessions

/-!
# Ways down from the root

A tree that was linked can be gone through from the root down without a bound: every record is met,
and met once.

* `Proper`: only the root has no parent, every record is under the root, and the lists of children
  hold the parents once more.  `link_proper`: linking gives such trees only.
* `children_wellFounded`: going from a record to its children comes to an end.
* `preorder_perm`: the places from the root down, each record before its children and these in any
  order, are all places, each of them once.
* `branchAt_eq`, `branch_records_perm`: the nested value of a tree holds every record once, its
  children nested in it in link order.  The bound that it is built with is never met.
-/

set_option autoImplicit false

namespace CommentDocs

namespace Tree

variable {t : Tree} {kids : Nat → List Nat} {c i j limit n p : Nat}

/-- The lists hold, for each place, the records whose parent is there, once each. -/
structure Lists (t : Tree) (kids : Nat → List Nat) : Prop where
  mem_iff : ∀ p c, c ∈ kids p ↔ t.parent? c = some p
  nodup : ∀ p, (kids p).Nodup

/-- Linked throughout. -/
structure Proper (t : Tree) : Prop where
  closed : t.Closed
  grounded : ∀ i < t.size, t.Grounded i
  lists : t.Lists t.children

/-! ## Depth -/

theorem Proper.depth_lt (h : t.Proper) (hi : i < t.size) : t.depth i < t.size := by
  obtain ⟨n, hn⟩ := h.grounded i hi
  rw [depth_of_climbs h.closed hn]
  exact climbs_lt_size h.closed hn

/-- A parent is in the tree, one link above. -/
theorem Proper.parent_spec (h : t.Proper) (hp : t.parent? c = some p) :
    c < t.size ∧ p < t.size ∧ t.depth c = t.depth p + 1 := by
  have hc := parent?_lt_size hp
  have hc0 : c ≠ 0 := by
    rintro rfl
    rw [h.closed.root] at hp
    cases hp
  obtain ⟨q, hq, hq'⟩ := h.closed.up c hc hc0
  rw [hp] at hq'
  cases hq'
  exact ⟨hc, hq, depth_succ h.closed hp (h.grounded c hc)⟩

/-- **Going from a record to its children comes to an end**: the depth grows with each link, and
no depth is as large as the tree. -/
theorem Proper.children_wellFounded (h : t.Proper) :
    WellFounded fun c p => c ∈ t.children p := by
  apply Subrelation.wf (r := InvImage (· < ·) fun i => t.size - t.depth i)
  · intro c p hc
    obtain ⟨hlt, _, hdepth⟩ := h.parent_spec ((h.lists.mem_iff p c).mp hc)
    have hbound := h.depth_lt hlt
    show t.size - t.depth c < t.size - t.depth p
    omega
  · exact InvImage.wf _ Nat.lt_wfRel.wf

/-! ## Ancestors -/

/-- The place `n` links above a place. -/
def ancestor? (t : Tree) : Nat → Nat → Option Nat
  | 0, i => some i
  | n + 1, i => (t.ancestor? n i).bind t.parent?

theorem ancestor?_of_parent (hp : t.parent? i = some p) (n : Nat) :
    t.ancestor? (n + 1) i = t.ancestor? n p := by
  induction n with
  | zero => exact hp
  | succ n ih => rw [ancestor?, ih, ancestor?]

theorem ancestor?_of_climbs (h : t.Climbs n i) : t.ancestor? n i = some 0 := by
  induction h with
  | root => rfl
  | up hp _ ih => rw [ancestor?_of_parent hp, ih]

/-- A record is as many links below an ancestor as the depths say. -/
theorem Proper.depth_ancestor (h : t.Proper) (ha : t.ancestor? n j = some i) :
    t.depth j = t.depth i + n := by
  induction n generalizing i with
  | zero => cases ha; rfl
  | succ n ih =>
    obtain ⟨c, hc, hp⟩ := Option.bind_eq_some_iff.mp ha
    rw [ih hc, (h.parent_spec hp).2.2]
    omega

/-! ## All places from the root down -/

/-- The places from a place down, at most `limit` links, where `kids` lists those under each. -/
def preorder (kids : Nat → List Nat) : Nat → Nat → List Nat
  | 0, i => [i]
  | limit + 1, i => i :: (kids i).flatMap (preorder kids limit)

/-- **The places from a place down** are those that it is an ancestor of. -/
theorem Lists.mem_preorder (hk : t.Lists kids) :
    j ∈ preorder kids limit i ↔ ∃ n ≤ limit, t.ancestor? n j = some i := by
  induction limit generalizing i with
  | zero =>
    simp only [preorder, List.mem_singleton, Nat.le_zero]
    constructor
    · rintro rfl
      exact ⟨0, rfl, rfl⟩
    · rintro ⟨_, rfl, hj⟩
      cases hj
      rfl
  | succ limit ih =>
    simp only [preorder, List.mem_cons, List.mem_flatMap, ih, hk.mem_iff]
    constructor
    · rintro (rfl | ⟨c, hp, n, hn, ha⟩)
      · exact ⟨0, Nat.zero_le _, rfl⟩
      · exact ⟨n + 1, Nat.succ_le_succ hn, Option.bind_eq_some_iff.mpr ⟨c, ha, hp⟩⟩
    · rintro ⟨n, hn, ha⟩
      cases n with
      | zero => cases ha; exact .inl rfl
      | succ n =>
        obtain ⟨c, hc, hp⟩ := Option.bind_eq_some_iff.mp ha
        exact .inr ⟨c, hp, n, Nat.le_of_succ_le_succ hn, hc⟩

/-- **No place is met twice** on the way down: the depths of a place and of an ancestor tell how
many links are between them, so it is under one child only. -/
theorem Proper.preorder_nodup (h : t.Proper) (hk : t.Lists kids) (limit i : Nat) :
    (preorder kids limit i).Nodup := by
  induction limit generalizing i with
  | zero => simp [preorder]
  | succ limit ih =>
    rw [preorder, List.nodup_cons]
    constructor
    · intro hi
      obtain ⟨c, hc, hi⟩ := List.mem_flatMap.mp hi
      obtain ⟨n, _, ha⟩ := hk.mem_preorder.mp hi
      have hdown := (h.parent_spec ((hk.mem_iff i c).mp hc)).2.2
      have hup := h.depth_ancestor ha
      omega
    · rw [List.nodup_flatMap]
      refine ⟨fun c _ => ih c, (hk.nodup i).imp_of_mem ?_⟩
      intro c c' hc hc' hne j hj hj'
      obtain ⟨n, _, ha⟩ := hk.mem_preorder.mp hj
      obtain ⟨m, _, ha'⟩ := hk.mem_preorder.mp hj'
      have hdepth := (h.parent_spec ((hk.mem_iff i c).mp hc)).2.2
      have hdepth' := (h.parent_spec ((hk.mem_iff i c').mp hc')).2.2
      have hup := h.depth_ancestor ha
      have hup' := h.depth_ancestor ha'
      obtain rfl : n = m := by omega
      rw [ha] at ha'
      cases ha'
      exact hne rfl

theorem ancestor?_lt (ha : t.ancestor? n j = some i) (hi : i < t.size) : j < t.size := by
  induction n generalizing i with
  | zero => cases ha; exact hi
  | succ n ih =>
    obtain ⟨c, hc, hp⟩ := Option.bind_eq_some_iff.mp ha
    exact ih hc (parent?_lt_size hp)

/-- **From the root down, every place is met exactly once.** -/
theorem Proper.preorder_perm (h : t.Proper) (hk : t.Lists kids) :
    (preorder kids t.size 0).Perm (List.range t.size) := by
  rw [List.perm_ext_iff_of_nodup (h.preorder_nodup hk _ _) List.nodup_range]
  intro j
  rw [hk.mem_preorder, List.mem_range]
  constructor
  · rintro ⟨n, _, ha⟩
    exact ancestor?_lt ha h.closed.nonempty
  · intro hj
    obtain ⟨n, hn⟩ := h.grounded j hj
    exact ⟨n, Nat.le_of_lt (climbs_lt_size h.closed hn), ancestor?_of_climbs hn⟩

end Tree

/-! ## Branches -/

namespace Branch

mutual

/-- The records of a branch, each before those below it. -/
def records : Branch → List Record
  | .mk r children => r :: recordsOf children

/-- The records of branches one after the other. -/
def recordsOf : List Branch → List Record
  | [] => []
  | b :: bs => b.records ++ recordsOf bs

end

theorem recordsOf_eq (bs : List Branch) : recordsOf bs = bs.flatMap records := by
  induction bs with
  | nil => rfl
  | cons b bs ih => rw [recordsOf, ih, List.flatMap_cons]

end Branch

namespace Tree

variable {t : Tree} {i limit : Nat}

/-- The branch that starts at a record. -/
def branchAt (t : Tree) (i : Nat) : Branch := t.branchWithin t.size i

/-- Below a record the depth leaves room for, a larger bound changes nothing. -/
theorem Proper.branchWithin_succ (h : t.Proper) (hi : i < t.size)
    (hlimit : t.size ≤ limit + t.depth i) :
    t.branchWithin (limit + 1) i = t.branchWithin limit i := by
  induction limit generalizing i with
  | zero =>
    have := h.depth_lt hi
    omega
  | succ limit ih =>
    rw [branchWithin, branchWithin]
    congr 1
    apply List.map_congr_left
    intro c hc
    obtain ⟨hlt, _, hdepth⟩ := h.parent_spec ((h.lists.mem_iff i c).mp hc)
    exact ih hlt (by omega)

/-- **A branch is its record with the branches of its children**, in link order. -/
theorem Proper.branchAt_eq (h : t.Proper) (hi : i < t.size) :
    t.branchAt i = .mk (t.record i) ((t.children i).map t.branchAt) :=
  calc t.branchAt i = t.branchWithin (t.size + 1) i :=
        (h.branchWithin_succ hi (Nat.le_add_right _ _)).symm
    _ = .mk (t.record i) ((t.children i).map t.branchAt) := rfl

theorem branchWithin_records (t : Tree) (limit i : Nat) :
    (t.branchWithin limit i).records = (preorder t.children limit i).map t.record := by
  induction limit generalizing i with
  | zero => rfl
  | succ limit ih =>
    rw [branchWithin, Branch.records, Branch.recordsOf_eq, preorder, List.map_cons,
      List.flatMap_map, List.map_flatMap]
    simp only [ih]

theorem records_eq_map_range (t : Tree) : t.records = (List.range t.size).map t.record := by
  apply List.ext_getElem?
  intro i
  rw [records, List.getElem?_map, List.getElem?_map]
  by_cases hi : i < t.size
  · rw [List.getElem?_range hi]
    simp [record, entry?, List.getElem?_eq_getElem hi]
  · rw [List.getElem?_eq_none (Nat.le_of_not_lt hi), List.getElem?_eq_none (by simpa using hi)]
    rfl

/-- **The nested value of a tree holds every record exactly once.** -/
theorem Proper.branch_records_perm (h : t.Proper) : t.branch.records.Perm t.records := by
  rw [branch, branchWithin_records, records_eq_map_range]
  exact (h.preorder_perm h.lists).map t.record

end Tree

namespace Registry

/-- **A tree that was linked is linked throughout.** -/
theorem link_proper {reg : Registry} (hc : reg.Consistent) {t : Tree} (h : reg.link = .ok t) :
    t.Proper := by
  obtain ⟨hno, hns, rfl⟩ := link_eq_ok hc h
  refine ⟨linkedTree_closed hc hno, ?_, ⟨fun _ _ => mem_linkedTree_children, ?_⟩⟩
  · intro i hi
    rw [linkedTree_size, records_length] at hi
    exact (reachesRoot_iff hc).mp ((no_stray_iff reg).mp hns i hi)
  · intro p
    rw [linkedTree_children]
    split
    · exact linkedChildren_nodup
    · exact List.nodup_nil

end Registry

end CommentDocs
