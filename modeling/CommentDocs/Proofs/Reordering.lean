import Mathlib.Data.List.Nodup
import CommentDocs.Proofs.LinkedTree
import CommentDocs.Proofs.Sessions

/-!
# The order of registration

Which links are made on registration and which are deferred depends on the order of the records.
What linking comes to does not: two registries with the same records have the same links between
them, only at other places.

* `Twins`: the places of one record in two registries.  Named parents (`Twins.parentIs`), ways up
  (`Twins.climbs`), orphans and stray records go from one registry to the other.
* `LinkOutcome.of`: whether there is a tree, and if not why.
* `Tree.SameByKeys`: a tree says the same as another about every key that it has.
* `link_perm`: registering the same records in another order changes neither.
-/

set_option autoImplicit false

namespace CommentDocs

/-- What linking comes to, without the record that stands in the way. -/
inductive LinkOutcome where
  | tree
  | parentNotFound
  | cycle
  deriving DecidableEq, Repr

namespace LinkOutcome

/-- The sort of an outcome of linking. -/
def of : Except LinkError Tree → LinkOutcome
  | .ok _ => .tree
  | .error (.parentNotFound _ _ _) => .parentNotFound
  | .error (.cycle _ _) => .cycle

end LinkOutcome

/-- The key of the record at a place. -/
def Tree.keyAt (t : Tree) (i : Nat) : Text := (t.record i).key

/-- The second tree says the same as the first about a key, at its own places. -/
structure Tree.SameAt (t t' : Tree) (i j : Nat) : Prop where
  record : t.record i = t'.record j
  parent : (t.parent? i).map t.keyAt = (t'.parent? j).map t'.keyAt
  children : ((t.children i).map t.keyAt).Perm ((t'.children j).map t'.keyAt)
  depth : t.depth i = t'.depth j

/-- The second tree says the same as the first about every key that the first one has. -/
def Tree.SameByKeys (t t' : Tree) : Prop :=
  ∀ key i, t.find? key = some i → ∃ j, t'.find? key = some j ∧ t.SameAt t' i j

namespace Registry

/-- The two registries hold the same records, in whatever order. -/
def SameRecords (reg reg' : Registry) : Prop := ∀ r, r ∈ reg.records ↔ r ∈ reg'.records

theorem SameRecords.symm {reg reg' : Registry} (h : reg.SameRecords reg') :
    reg'.SameRecords reg :=
  fun r => (h r).symm

/-- One record stands at these places of two registries. -/
def Twins (reg reg' : Registry) (i j : Nat) : Prop :=
  ∃ r, reg.records[i]? = some r ∧ reg'.records[j]? = some r

variable {reg reg' : Registry} {i j p q n : Nat}

theorem Twins.symm (h : Twins reg reg' i j) : Twins reg' reg j i := by
  obtain ⟨r, hi, hj⟩ := h
  exact ⟨r, hj, hi⟩

theorem exists_twin (hs : reg.SameRecords reg') (hi : i < reg.records.length) :
    ∃ j, Twins reg reg' i j := by
  have hmem := (hs reg.records[i]).mp (List.getElem_mem hi)
  obtain ⟨j, hj⟩ := List.mem_iff_getElem?.mp hmem
  exact ⟨j, _, List.getElem?_eq_getElem hi, hj⟩

/-- In a consistent registry a record has one place only. -/
theorem Consistent.place_unique (hc : reg.Consistent) {r : Record}
    (hi : reg.records[i]? = some r) (hj : reg.records[j]? = some r) : i = j := by
  have hplace := Record.place?_key hc.distinct hi
  rw [Record.place?_key hc.distinct hj] at hplace
  cases hplace
  rfl

/-- The root is at the first place of both. -/
theorem Twins.eq_zero (hc : reg.Consistent) (hc' : reg'.Consistent) (h : Twins reg reg' i j)
    (hi : i = 0) : j = 0 := by
  obtain ⟨r, hri, hrj⟩ := h
  rw [hi, hc.rooted] at hri
  cases hri
  exact hc'.place_unique hrj hc'.rooted

/-- **Twins have twins as parents.** -/
theorem Twins.parentIs (hc : reg.Consistent) (hc' : reg'.Consistent) (h : Twins reg reg' i j)
    (hpq : Twins reg reg' p q) (hp : reg.ParentIs i p) : reg'.ParentIs j q := by
  obtain ⟨hi, r, parent, hri, hparent, hkey⟩ := hp
  refine ⟨fun hj => hi (h.symm.eq_zero hc' hc hj), r, parent, ?_, ?_, hkey⟩
  · obtain ⟨r', hri', hrj⟩ := h
    rw [hri] at hri'
    cases hri'
    exact hrj
  · obtain ⟨parent', hparent', hq⟩ := hpq
    rw [hparent] at hparent'
    cases hparent'
    exact hq

theorem Twins.parent? (hc : reg.Consistent) (hc' : reg'.Consistent) (h : Twins reg reg' i j)
    (hpq : Twins reg reg' p q) (hp : (linkedTree reg.records).parent? i = some p) :
    (linkedTree reg'.records).parent? j = some q := by
  rw [← parentIs_iff hc] at hp
  rw [← parentIs_iff hc']
  exact h.parentIs hc hc' hpq hp

/-- **Ways up are as long in one registry as in the other.** -/
theorem Twins.climbs (hc : reg.Consistent) (hc' : reg'.Consistent) (hs : reg.SameRecords reg')
    (h : Twins reg reg' i j) (hn : (linkedTree reg.records).Climbs n i) :
    (linkedTree reg'.records).Climbs n j := by
  induction hn generalizing j with
  | root =>
    rw [h.eq_zero hc hc' rfl]
    exact .root
  | up hp _ ih =>
    obtain ⟨q, hpq⟩ := exists_twin hs ((parentIs_iff hc).mpr hp).lt.2
    exact .up (h.parent? hc hc' hpq hp) (ih hpq)

theorem exists_orphan (hc : reg.Consistent) (hc' : reg'.Consistent) (hs : reg.SameRecords reg')
    {r : Record} (h : reg.Orphan i r) : ∃ j, reg'.Orphan j r := by
  obtain ⟨j, hj⟩ := exists_twin hs (List.getElem?_eq_some_iff.mp h.registered).1
  have hj0 : j ≠ 0 := fun hj0 => h.not_root (hj.symm.eq_zero hc' hc hj0)
  obtain ⟨r', hri, hrj⟩ := hj
  rw [h.registered] at hri
  cases hri
  exact ⟨j, hrj, hj0, fun q hq => h.missing q ((hs q).mpr hq)⟩

theorem exists_stray (hc : reg.Consistent) (hc' : reg'.Consistent) (hs : reg.SameRecords reg')
    {r : Record} (h : reg.Stray i r) : ∃ j, reg'.Stray j r := by
  obtain ⟨j, hj⟩ := exists_twin hs (List.getElem?_eq_some_iff.mp h.registered).1
  have hlost : ¬ reg'.ReachesRoot j := by
    intro hreach
    obtain ⟨n, hn⟩ := (reachesRoot_iff hc').mp hreach
    exact h.lost ((reachesRoot_iff hc).mpr ⟨n, hj.symm.climbs hc' hc hs.symm hn⟩)
  obtain ⟨r', hri, hrj⟩ := hj
  rw [h.registered] at hri
  cases hri
  exact ⟨j, hrj, hlost⟩

/-- **What linking comes to depends on the records only**, not on their order. -/
theorem link_outcome_eq (hc : reg.Consistent) (hc' : reg'.Consistent)
    (hs : reg.SameRecords reg') : LinkOutcome.of reg.link = LinkOutcome.of reg'.link := by
  by_cases ho : ∃ i r, reg.Orphan i r
  · obtain ⟨i, r, hi⟩ := ho
    obtain ⟨j, hj⟩ := exists_orphan hc hc' hs hi
    obtain ⟨_, _, _, _, hlink⟩ := link_of_orphan hc ⟨i, r, hi⟩
    obtain ⟨_, _, _, _, hlink'⟩ := link_of_orphan hc' ⟨j, r, hj⟩
    rw [hlink, hlink']
    rfl
  have hno : ∀ i r, ¬ reg.Orphan i r := fun i r hi => ho ⟨i, r, hi⟩
  have hno' : ∀ i r, ¬ reg'.Orphan i r := fun i r hi =>
    let ⟨j, hj⟩ := exists_orphan hc' hc hs.symm hi
    hno j r hj
  by_cases hstray : ∃ i r, reg.Stray i r
  · obtain ⟨i, r, hi⟩ := hstray
    obtain ⟨j, hj⟩ := exists_stray hc hc' hs hi
    obtain ⟨_, _, _, _, hlink⟩ := link_of_stray hc hno ⟨i, r, hi⟩
    obtain ⟨_, _, _, _, hlink'⟩ := link_of_stray hc' hno' ⟨j, r, hj⟩
    rw [hlink, hlink']
    rfl
  · have hns : ∀ i r, ¬ reg.Stray i r := fun i r hi => hstray ⟨i, r, hi⟩
    have hns' : ∀ i r, ¬ reg'.Stray i r := fun i r hi =>
      let ⟨j, hj⟩ := exists_stray hc' hc hs.symm hi
      hns j r hj
    rw [link_of_no_stray hc hno hns, link_of_no_stray hc' hno' hns']
    rfl

/-! ## Trees by keys -/

theorem Twins.record (h : Twins reg reg' i j) :
    (linkedTree reg.records).record i = (linkedTree reg'.records).record j := by
  obtain ⟨r, hi, hj⟩ := h
  rw [linkedTree_record hi, linkedTree_record hj]

/-- The children of twins have the same keys. -/
theorem Twins.children (hc : reg.Consistent) (hc' : reg'.Consistent) (hs : reg.SameRecords reg')
    (h : Twins reg reg' i j) {key : Text}
    (hk : key ∈ ((linkedTree reg.records).children i).map (linkedTree reg.records).keyAt) :
    key ∈ ((linkedTree reg'.records).children j).map (linkedTree reg'.records).keyAt := by
  obtain ⟨c, hchild, rfl⟩ := List.mem_map.mp hk
  rw [mem_linkedTree_children] at hchild
  obtain ⟨d, hcd⟩ := exists_twin hs ((parentIs_iff hc).mpr hchild).lt.1
  refine List.mem_map.mpr ⟨d, ?_, by rw [Tree.keyAt, Tree.keyAt, hcd.record]⟩
  rw [mem_linkedTree_children]
  exact hcd.parent? hc hc' h hchild

/-- No two children of a record have the same key. -/
theorem childKeys_nodup (hc : reg.Consistent) (i : Nat) :
    (((linkedTree reg.records).children i).map (linkedTree reg.records).keyAt).Nodup := by
  have hnodup : ((linkedTree reg.records).children i).Nodup := by
    rw [linkedTree_children]
    split
    · exact linkedChildren_nodup
    · exact List.nodup_nil
  refine List.Nodup.map_on (fun c hchild d hchild' hkey => ?_) hnodup
  rw [mem_linkedTree_children, ← parentIs_iff hc] at hchild hchild'
  have hrc := List.getElem?_eq_getElem hchild.lt.1
  have hrd := List.getElem?_eq_getElem hchild'.lt.1
  rw [Tree.keyAt, Tree.keyAt, linkedTree_record hrc, linkedTree_record hrd] at hkey
  have hplace := Record.place?_key hc.distinct hrc
  rw [hkey, Record.place?_key hc.distinct hrd] at hplace
  cases hplace
  rfl

/-- **The trees of the same records say the same about every key.** -/
theorem sameByKeys_of_link (hc : reg.Consistent) (hc' : reg'.Consistent)
    (hs : reg.SameRecords reg') {t t' : Tree} (h : reg.link = .ok t) (h' : reg'.link = .ok t') :
    t.SameByKeys t' := by
  obtain ⟨hno, hns, rfl⟩ := link_eq_ok hc h
  obtain ⟨hno', hns', rfl⟩ := link_eq_ok hc' h'
  have ht := linkedTree_closed hc hno
  have ht' := linkedTree_closed hc' hno'
  intro key i hi
  rw [linkedTree_find? hc.distinct] at hi
  obtain ⟨r, hr, rfl⟩ := Record.place?_eq_some hi
  obtain ⟨j, hij⟩ := exists_twin hs (Record.place?_lt hi)
  have hrj : reg'.records[j]? = some r := by
    obtain ⟨r', hri, hrj⟩ := hij
    rw [hr] at hri
    cases hri
    exact hrj
  refine ⟨j, ?_, ⟨hij.record, ?_, ?_, ?_⟩⟩
  · rw [linkedTree_find? hc'.distinct]
    exact Record.place?_key hc'.distinct hrj
  · cases hp : (linkedTree reg.records).parent? i with
    | none =>
      have hi0 : i = 0 := by
        by_contra hi0
        obtain ⟨p, _, hp'⟩ := ht.up i (by rw [linkedTree_size]; exact Record.place?_lt hi) hi0
        rw [hp] at hp'
        cases hp'
      rw [hij.eq_zero hc hc' hi0, ht'.root]
      rfl
    | some p =>
      obtain ⟨q, hpq⟩ := exists_twin hs ((parentIs_iff hc).mpr hp).lt.2
      rw [hij.parent? hc hc' hpq hp, Option.map_some, Option.map_some, Tree.keyAt, Tree.keyAt,
        hpq.record]
  · rw [List.perm_ext_iff_of_nodup (childKeys_nodup hc i) (childKeys_nodup hc' j)]
    intro key
    exact ⟨hij.children hc hc' hs, hij.symm.children hc' hc hs.symm⟩
  · obtain ⟨n, hn⟩ := (reachesRoot_iff hc).mp
      ((no_stray_iff reg).mp hns i (by rw [← records_length]; exact Record.place?_lt hi))
    rw [Tree.depth_of_climbs ht hn, Tree.depth_of_climbs ht' (hij.climbs hc hc' hs hn)]

/-- Records with keys of their own are all registered. -/
theorem insertAll_of_distinct {rs : List Record} (hc : reg.Consistent)
    (hd : (rs.map (·.key)).Nodup) (hfree : ∀ r ∈ rs, ∀ q ∈ reg.records, q.key ≠ r.key) :
    ∃ reg', reg.insertAll rs = .ok reg' := by
  induction rs generalizing reg with
  | nil => exact ⟨reg, rfl⟩
  | cons r rs ih =>
    obtain ⟨hr, hd⟩ := List.nodup_cons.mp hd
    rcases insert_cases hc r with ⟨q, hq, hkey, _⟩ | ⟨_, next, hinsert⟩
    · exact absurd hkey (hfree r List.mem_cons_self q hq)
    · obtain ⟨reg', hrun⟩ := ih (insert_consistent hc hinsert) hd fun r' hr' q hq => by
        rw [(insert_eq_ok hinsert).2.1, List.mem_append, List.mem_singleton] at hq
        rcases hq with hq | rfl
        · exact hfree r' (List.mem_cons_of_mem _ hr') q hq
        · exact fun hkey => hr (List.mem_map.mpr ⟨r', hr', hkey.symm⟩)
      exact ⟨reg', insertAll_cons.mpr ⟨next, hinsert, hrun⟩⟩

/-- **The order of registration does not change the tree.**  Records with keys of their own can be
registered in any order.  Linking comes to the same, and if there are trees, they say the same about
every key. -/
theorem link_perm (rs rs' : List Record) (hp : rs.Perm rs') (hd : (rs.map (·.key)).Nodup)
    (hroot : ∀ r ∈ rs, r.key ≠ Record.rootKey) :
    ∃ reg reg', empty.insertAll rs = .ok reg ∧ empty.insertAll rs' = .ok reg' ∧
      LinkOutcome.of reg.link = LinkOutcome.of reg'.link ∧
      ∀ t t', reg.link = .ok t → reg'.link = .ok t' → t.SameByKeys t' ∧ t'.SameByKeys t := by
  have hfree : ∀ r ∈ rs, ∀ q ∈ empty.records, q.key ≠ r.key := by
    intro r hr q hq
    obtain rfl : q = Record.root := by simpa [empty, records] using hq
    exact Ne.symm (hroot r hr)
  have hd' : (rs'.map (·.key)).Nodup := (hp.map _).nodup_iff.mp hd
  obtain ⟨reg, hrun⟩ := insertAll_of_distinct empty_consistent hd hfree
  obtain ⟨reg', hrun'⟩ := insertAll_of_distinct empty_consistent hd' fun r hr =>
    hfree r (hp.mem_iff.mpr hr)
  have hc := insertAll_consistent empty_consistent hrun
  have hc' := insertAll_consistent empty_consistent hrun'
  have hs : reg.SameRecords reg' := by
    intro r
    rw [insertAll_records hrun, insertAll_records hrun', List.mem_append, List.mem_append,
      hp.mem_iff]
  exact ⟨reg, reg', hrun, hrun', link_outcome_eq hc hc' hs, fun t t' h h' =>
    ⟨sameByKeys_of_link hc hc' hs h h', sameByKeys_of_link hc' hc hs.symm h' h⟩⟩

/-- One record and its two children: linked late when they come first, on registration when they
come last. -/
theorem link_perm_deferred :
    let record (key parent : Text) : Record :=
      { kind := .node, name := key, key := key, parent := some parent }
    let rs := [record "a" "p", record "b" "p", record "p" "root"]
    let rs' := [record "p" "root", record "b" "p", record "a" "p"]
    ∃ reg reg' t t', empty.insertAll rs = .ok reg ∧ empty.insertAll rs' = .ok reg' ∧
      reg.link = .ok t ∧ reg'.link = .ok t' ∧ t.find? "p" = some 3 ∧ t'.find? "p" = some 1 ∧
      t.SameByKeys t' ∧ t'.SameByKeys t := by
  intro record rs rs'
  have hp : rs.Perm rs' := by decide
  obtain ⟨reg, reg', hrun, hrun', _, hsame⟩ := link_perm rs rs' hp (by decide) (by decide)
  obtain rfl : ofRecords rs = reg := Except.ok.inj hrun
  obtain rfl : ofRecords rs' = reg' := Except.ok.inj hrun'
  have h : (ofRecords rs).link = .ok (linkedTree (ofRecords rs).records) := by decide
  have h' : (ofRecords rs').link = .ok (linkedTree (ofRecords rs').records) := by decide
  exact ⟨_, _, _, _, hrun, hrun', h, h', by decide, by decide, hsame _ _ h h'⟩

end Registry

end CommentDocs
