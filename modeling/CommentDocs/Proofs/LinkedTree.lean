import CommentDocs.Proofs.Linking

/-!
# The shape of linked trees

`Tree.Represents t reg` says in which way a tree holds the records of a registry: every record in
its place, parents as the records name them, the same links once more as lists of children, and a
depth that grows by one with each link.

* `mem_linkedChildren`: parents and lists of children hold the same links.
* `isSome_eagerParent?`: the links made on registration are those to records that were there.
* `link_represents`: a tree that was linked represents the registry, for every run of
  registrations.
-/

set_option autoImplicit false

namespace CommentDocs

namespace Registry

/-- The record at a place names a parent that was registered before it. -/
def ParentKnown (reg : Registry) (i : Nat) : Prop :=
  ∃ r key, reg.records[i]? = some r ∧ r.parent = some key ∧
    ∃ j < i, ∃ q, reg.records[j]? = some q ∧ q.key = key

end Registry

/-- How a tree holds the records of a registry. -/
structure Tree.Represents (t : Tree) (reg : Registry) : Prop where
  /-- Every record is in its place. -/
  records : t.entries.map (·.record) = reg.records
  root : t.parent? 0 = none
  /-- Every other record has a parent. -/
  parent : ∀ i < reg.size, i ≠ 0 → ∃ p, t.parent? i = some p
  /-- It is the one record with the key that is named. -/
  parent_iff : ∀ i p, t.parent? i = some p ↔ reg.ParentIs i p
  children_iff : ∀ p c, c ∈ t.children p ↔ t.parent? c = some p
  children_nodup : ∀ p, (t.children p).Nodup
  children_disjoint : ∀ p q c, c ∈ t.children p → c ∈ t.children q → p = q
  /-- Children whose parent was there come before those that were deferred. -/
  children_order : ∀ p, ∃ early late, t.children p = early ++ late ∧
    early.Pairwise (· < ·) ∧ late.Pairwise (· < ·) ∧
    (∀ c ∈ early, reg.ParentKnown c) ∧ ∀ c ∈ late, ¬ reg.ParentKnown c
  /-- A key leads to the record that has it. -/
  find_iff : ∀ key i, t.find? key = some i ↔ ∃ r, reg.records[i]? = some r ∧ r.key = key
  /-- The root is as many links away as the depth says. -/
  climbs : ∀ i < reg.size, t.Climbs (t.depth i) i
  depth_succ : ∀ i p, t.parent? i = some p → t.depth i = t.depth p + 1

namespace Registry

variable {rs : List Record} {c i p : Nat}

theorem mem_eagerChildren : c ∈ eagerChildren rs p ↔ eagerParent? rs c = some p := by
  rw [eagerChildren, List.mem_filter, List.mem_range, beq_iff_eq]
  exact ⟨fun h => h.2, fun h => ⟨(eagerParent?_lt h).2, h⟩⟩

theorem mem_lateChildren :
    c ∈ lateChildren rs p ↔ eagerParent? rs c = none ∧ linkedParent? rs c = some p := by
  rw [lateChildren, List.mem_filter, List.mem_range, Bool.and_eq_true, beq_iff_eq,
    Option.isNone_iff_eq_none]
  exact ⟨fun h => h.2, fun h => ⟨(linkedParent?_lt h.2).2.1, h⟩⟩

/-- **The lists of children hold the links that the parents hold.** -/
theorem mem_linkedChildren : c ∈ linkedChildren rs p ↔ linkedParent? rs c = some p := by
  rw [linkedChildren, List.mem_append, mem_eagerChildren, mem_lateChildren]
  constructor
  · rintro (h | h)
    · exact linkedParent?_of_eager h
    · exact h.2
  · intro h
    cases he : eagerParent? rs c with
    | none => exact .inr ⟨rfl, h⟩
    | some q =>
      have := linkedParent?_of_eager he
      rw [h] at this
      exact .inl this.symm

theorem eagerChildren_sorted : (eagerChildren rs p).Pairwise (· < ·) :=
  List.pairwise_lt_range.filter _

theorem lateChildren_sorted : (lateChildren rs p).Pairwise (· < ·) :=
  List.pairwise_lt_range.filter _

theorem linkedChildren_nodup : (linkedChildren rs p).Nodup := by
  refine List.nodup_append.mpr ⟨eagerChildren_sorted.imp Nat.ne_of_lt,
    lateChildren_sorted.imp Nat.ne_of_lt, ?_⟩
  rintro a ha b hb rfl
  rw [mem_eagerChildren] at ha
  rw [mem_lateChildren, ha] at hb
  cases hb.1

theorem linkedTree_children (rs : List Record) (p : Nat) :
    (linkedTree rs).children p = if p < rs.length then linkedChildren rs p else [] := by
  simp only [Tree.children, Tree.entry?, linkedTree, Entry.table_getElem?]
  split
  · rename_i hp
    rw [List.getElem?_eq_getElem hp]
    rfl
  · rename_i hp
    rw [List.getElem?_eq_none (by omega)]
    rfl

theorem mem_linkedTree_children :
    c ∈ (linkedTree rs).children p ↔ (linkedTree rs).parent? c = some p := by
  rw [linkedTree_children, linkedTree_parent?]
  split
  · exact mem_linkedChildren
  · rename_i hp
    constructor
    · intro h; cases h
    · intro h; exact absurd (linkedParent?_lt h).2.2 hp

theorem linkedTree_find? (hd : (rs.map (·.key)).Nodup) (key : Text) :
    (linkedTree rs).find? key = Record.place? rs key :=
  KeyIndex.find?_ofRecords hd key

/-- A link is made on registration exactly if the named parent is there. -/
theorem isSome_eagerParent? {reg : Registry} :
    (eagerParent? reg.records i).isSome ↔ reg.ParentKnown i := by
  unfold eagerParent? ParentKnown
  constructor
  · intro h
    obtain ⟨p, hp⟩ := Option.isSome_iff_exists.mp h
    obtain ⟨key, hk, hp⟩ := Option.bind_eq_some_iff.mp hp
    obtain ⟨r, hr, hkey⟩ := Option.bind_eq_some_iff.mp hk
    obtain ⟨q, hq, hqk⟩ := Record.place?_eq_some hp
    have hlt := Record.place?_lt hp
    rw [List.length_take] at hlt
    rw [List.getElem?_take_of_lt (by omega)] at hq
    exact ⟨r, key, hr, hkey, p, by omega, q, hq, hqk⟩
  · rintro ⟨r, key, hr, hkey, j, hj, q, hq, hqk⟩
    rw [hr]
    simp only [Option.bind_some, hkey]
    rw [Record.place?_isSome]
    exact ⟨q, List.mem_of_getElem? (by rwa [List.getElem?_take_of_lt hj]), hqk⟩

/-- **A tree that was linked represents its registry**, for every run of registrations. -/
theorem link_represents (rs : List Record) (t : Tree) (h : (ofRecords rs).link = .ok t) :
    t.Represents (ofRecords rs) := by
  have hc := ofRecords_consistent rs
  obtain ⟨hno, hns, rfl⟩ := link_eq_ok hc h
  have ht := linkedTree_closed hc hno
  have hgrounded : ∀ i < (ofRecords rs).size, (linkedTree (ofRecords rs).records).Grounded i :=
    fun i hi => (reachesRoot_iff hc).mp ((no_stray_iff _).mp hns i hi)
  refine
    { records := Entry.table_records
      root := ht.root
      parent := ?_
      parent_iff := fun i p => (parentIs_iff hc).symm
      children_iff := fun p c => mem_linkedTree_children
      children_nodup := ?_
      children_disjoint := ?_
      children_order := ?_
      find_iff := ?_
      climbs := ?_
      depth_succ := ?_ }
  · intro i hi hi0
    obtain ⟨p, _, hp⟩ := ht.up i (by rwa [linkedTree_size, records_length]) hi0
    exact ⟨p, hp⟩
  · intro p
    rw [linkedTree_children]
    split
    · exact linkedChildren_nodup
    · exact List.nodup_nil
  · intro p q c hp hq
    rw [mem_linkedTree_children] at hp hq
    rw [hp] at hq
    cases hq
    rfl
  · intro p
    rw [linkedTree_children]
    split
    · refine ⟨_, _, rfl, eagerChildren_sorted, lateChildren_sorted, ?_, ?_⟩
      · intro c hc
        rw [← isSome_eagerParent?, mem_eagerChildren.mp hc]
        rfl
      · intro c hc
        rw [← isSome_eagerParent?, (mem_lateChildren.mp hc).1]
        exact Bool.false_ne_true
    · exact ⟨[], [], rfl, .nil, .nil, by simp, by simp⟩
  · intro key i
    rw [linkedTree_find? hc.distinct]
    exact Record.place?_eq_some_iff hc.distinct
  · intro i hi
    obtain ⟨n, hn⟩ := hgrounded i hi
    rwa [Tree.depth_of_climbs ht hn]
  · intro i p hp
    have hlt := Tree.parent?_lt_size hp
    rw [linkedTree_size, records_length] at hlt
    exact Tree.depth_succ ht hp (hgrounded i hlt)

/-- Two children of one record: the one that came before the record is linked after the other. -/
theorem link_represents_deferred :
    let record (key parent : Text) : Record :=
      { kind := .node, name := key, key := key, parent := some parent }
    let rs := [record "late" "p", record "p" "root", record "early" "p"]
    ∃ t, (ofRecords rs).link = .ok t ∧ t.children 2 = [3, 1] ∧ t.Represents (ofRecords rs) := by
  intro record rs
  have h : (ofRecords rs).link = .ok (linkedTree (ofRecords rs).records) := by decide
  exact ⟨_, h, by decide, link_represents rs _ h⟩

end Registry

end CommentDocs
