import CommentDocs.Proofs.Ascent
import CommentDocs.Proofs.Registration

/-!
# Linking a registry

Linking adds the links that registration deferred, and then looks for a record without a way up.
Both depend on the list of registered records only:

* `linkedParent?` and `linkedChildren` describe all links at once; `linkedTree` is the tree with
  them.
* `link_of_orphan`: the first record whose parent is not registered is reported.
* `link_of_no_orphan`: otherwise the outcome is `linkedTree` or its first stray record.
* `link_outcome`: the three outcomes in terms of keys, for every run of registrations.
-/

set_option autoImplicit false

namespace CommentDocs.Registry

/-- The place of the record that the record at a place names as its parent; the root names none. -/
def linkedParent? (rs : List Record) (i : Nat) : Option Nat :=
  if i = 0 then none else rs[i]?.bind fun r => Record.place? rs (wantedParent r)

/-- The records linked to a place only after every record was registered, in order. -/
def lateChildren (rs : List Record) (p : Nat) : List Nat :=
  (List.range rs.length).filter fun i =>
    (eagerParent? rs i).isNone && linkedParent? rs i == some p

/-- The records linked to a place, in link order. -/
def linkedChildren (rs : List Record) (p : Nat) : List Nat :=
  eagerChildren rs p ++ lateChildren rs p

/-- The records with all their links, and the index of their keys. -/
def linkedTree (rs : List Record) : Tree :=
  ⟨Entry.table rs (linkedParent? rs) (linkedChildren rs), KeyIndex.ofRecords rs⟩

theorem linkedParent?_lt {rs : List Record} {i p : Nat} (h : linkedParent? rs i = some p) :
    i ≠ 0 ∧ i < rs.length ∧ p < rs.length := by
  unfold linkedParent? at h
  split at h
  · cases h
  · rename_i hi
    obtain ⟨r, hr, hp⟩ := Option.bind_eq_some_iff.mp h
    exact ⟨hi, (List.getElem?_eq_some_iff.mp hr).1, Record.place?_lt hp⟩

/-- A link made on registration is the link that the names ask for. -/
theorem linkedParent?_of_eager {rs : List Record} {i p : Nat} (h : eagerParent? rs i = some p) :
    linkedParent? rs i = some p := by
  have hi : i ≠ 0 := by have := eagerParent?_lt h; omega
  obtain ⟨key, hk, hp⟩ := Option.bind_eq_some_iff.mp h
  obtain ⟨r, hr, hkey⟩ := Option.bind_eq_some_iff.mp hk
  rw [linkedParent?, if_neg hi, hr]
  simpa [wantedParent, hkey] using Record.place?_of_take hp

/-! ## Deferred links -/

/-- The deferred records of a consistent registry are those without an eager parent. -/
theorem deferredPlaces_eq {reg : Registry} (hc : reg.Consistent) :
    reg.deferredPlaces = (List.range reg.records.length).filter fun i =>
      i != 0 && (eagerParent? reg.records i).isNone := by
  unfold deferredPlaces
  rw [← records_length]
  apply List.filter_congr
  intro i hi
  rw [hc.linked, Entry.table_getElem?, List.getElem?_eq_getElem (List.mem_range.mp hi)]
  rfl

/-- **Resolving stops at the first record whose parent is not registered.** -/
theorem resolve_spec {reg : Registry} (hc : reg.Consistent) {places : List Nat}
    (hp : ∀ i ∈ places, i ≠ 0 ∧ i < reg.records.length) :
    match reg.resolve places with
    | (links, none) => (∀ i ∈ places, (linkedParent? reg.records i).isSome) ∧
        links = places.map fun i => (i, (linkedParent? reg.records i).getD 0)
    | (_, some e) => ∃ before i after r, places = before ++ i :: after ∧
        (∀ j ∈ before, (linkedParent? reg.records j).isSome) ∧ reg.records[i]? = some r ∧
        linkedParent? reg.records i = none ∧
        e = .parentNotFound (wantedParent r) r.key r.origin := by
  induction places with
  | nil => simp [resolve]
  | cons i places ih =>
    obtain ⟨hi0, hlt⟩ := hp i (by simp)
    have ih := ih fun j hj => hp j (List.mem_cons_of_mem _ hj)
    have hlt' : i < reg.entries.length := by simpa [records] using hlt
    have hr : reg.records[i]? = some reg.entries[i].record := by
      rw [records, List.getElem?_map, List.getElem?_eq_getElem hlt']
      rfl
    have hlinked : linkedParent? reg.records i =
        reg.find? (wantedParent reg.entries[i].record) := by
      rw [linkedParent?, if_neg hi0, hr, hc.find?_eq_place?]
      rfl
    simp only [resolve, List.getElem?_eq_getElem hlt', ← hlinked]
    cases hlink : linkedParent? reg.records i with
    | none =>
      exact ⟨[], i, places, _, rfl, by simp, hr, hlink, rfl⟩
    | some p =>
      simp only
      generalize reg.resolve places = more at ih
      obtain ⟨links, e⟩ := more
      cases e with
      | none =>
        obtain ⟨hall, hlinks⟩ := ih
        exact ⟨by simpa [hlink] using hall, by simp [hlink, hlinks]⟩
      | some e =>
        obtain ⟨before, k, after, r, rfl, hbefore, hk⟩ := ih
        exact ⟨i :: before, k, after, r, rfl, by simpa [hlink] using hbefore, hk⟩

/-- Linking the given records one after the other, each to its parent. -/
theorem foldl_attach_table {rs : List Record} (f : Nat → Nat) (places : List Nat) :
    ∀ (parent : Nat → Option Nat) (children : Nat → List Nat),
      (places.map fun i => (i, f i)).foldl
          (fun entries link => Entry.attach link.1 link.2 entries)
          (Entry.table rs parent children) =
        Entry.table rs (fun i => if i ∈ places then some (f i) else parent i)
          (fun p => children p ++ places.filter fun i => f i == p) := by
  induction places with
  | nil => intro parent children; simp
  | cons c places ih =>
    intro parent children
    rw [List.map_cons, List.foldl_cons, Entry.attach_table, ih]
    apply Entry.table_congr
    · intro i _
      by_cases hic : i = c
      · simp [hic]
      · simp [hic]
    · intro p _
      by_cases hpc : f c = p
      · simp [hpc]
      · simp [hpc, Ne.symm hpc]

theorem eagerParent?_zero (rs : List Record) : eagerParent? rs 0 = none := by
  cases he : eagerParent? rs 0 with
  | none => rfl
  | some p => have := eagerParent?_lt he; omega

/-- **With every parent registered, linking makes all links.** -/
theorem withLinks_deferred {reg : Registry} (hc : reg.Consistent)
    (hall : ∀ i ∈ reg.deferredPlaces, (linkedParent? reg.records i).isSome) :
    reg.withLinks (reg.deferredPlaces.map fun i =>
        (i, (linkedParent? reg.records i).getD 0)) =
      (linkedTree reg.records).entries := by
  rw [deferredPlaces_eq hc] at *
  rw [withLinks, hc.linked, foldl_attach_table]
  apply Entry.table_congr
  · intro i hi
    split
    · rename_i hmem
      obtain ⟨p, hp⟩ := Option.isSome_iff_exists.mp (hall i hmem)
      rw [hp]; rfl
    · rename_i hmem
      by_cases hi0 : i = 0
      · rw [hi0, eagerParent?_zero, linkedParent?, if_pos rfl]
      · cases he : eagerParent? reg.records i with
        | none => simp [hi, hi0, he] at hmem
        | some p => exact (linkedParent?_of_eager he).symm
  · intro p _
    rw [linkedChildren, lateChildren, List.filter_filter]
    congr 1
    apply List.filter_congr
    intro i hi
    by_cases hi0 : i = 0
    · simp [hi0, linkedParent?]
    · cases he : eagerParent? reg.records i with
      | some q => simp
      | none =>
        have hmem := hall i (List.mem_filter.mpr ⟨hi, by simp [hi0, he]⟩)
        obtain ⟨q, hq⟩ := Option.isSome_iff_exists.mp hmem
        simp [hi0, hq]

/-! ## Outcomes -/

/-- In a sorted list, what does not stand before an element is not smaller. -/
theorem le_of_mem_split {l before after : List Nat} {i k : Nat} (hs : l.Pairwise (· < ·))
    (hl : l = before ++ i :: after) (hk : k ∈ l) (hb : k ∉ before) : i ≤ k := by
  subst hl
  rcases List.mem_append.mp hk with hk | hk
  · exact absurd hk hb
  · rcases List.mem_cons.mp hk with rfl | hk
    · exact Nat.le_refl _
    · have := (List.pairwise_append.mp hs).2.1
      exact Nat.le_of_lt ((List.pairwise_cons.mp this).1 k hk)

theorem linkedTree_parent? (rs : List Record) (i : Nat) :
    (linkedTree rs).parent? i = linkedParent? rs i := by
  simp only [Tree.parent?, Tree.entry?, linkedTree, Entry.table_getElem?]
  cases hr : rs[i]? with
  | none => simp [linkedParent?, hr]
  | some r => rfl

@[simp] theorem linkedTree_size (rs : List Record) : (linkedTree rs).size = rs.length := by
  simp [linkedTree, Tree.size]

theorem linkedTree_record {rs : List Record} {i : Nat} {r : Record} (h : rs[i]? = some r) :
    (linkedTree rs).record i = r := by
  simp [Tree.record, Tree.entry?, linkedTree, Entry.table_getElem?, h]

/-- The record at a place other than the root names a parent that is not registered. -/
structure Orphan (reg : Registry) (i : Nat) (r : Record) : Prop where
  registered : reg.records[i]? = some r
  not_root : i ≠ 0
  missing : ∀ q ∈ reg.records, q.key ≠ wantedParent r

theorem Orphan.linkedParent? {reg : Registry} {i : Nat} {r : Record} (h : reg.Orphan i r) :
    linkedParent? reg.records i = none := by
  rw [Registry.linkedParent?, if_neg h.not_root, h.registered]
  exact Record.place?_eq_none.mpr h.missing

/-- A place other than the root without a link is that of an orphan. -/
theorem orphan_of_linkedParent? {reg : Registry} {i : Nat} {r : Record}
    (hr : reg.records[i]? = some r) (hi : i ≠ 0) (h : linkedParent? reg.records i = none) :
    reg.Orphan i r := by
  rw [Registry.linkedParent?, if_neg hi, hr] at h
  exact ⟨hr, hi, Record.place?_eq_none.mp h⟩

/-- An orphan is deferred. -/
theorem Orphan.mem_deferredPlaces {reg : Registry} (hc : reg.Consistent) {i : Nat} {r : Record}
    (h : reg.Orphan i r) : i ∈ reg.deferredPlaces := by
  rw [deferredPlaces_eq hc, List.mem_filter, List.mem_range]
  refine ⟨(List.getElem?_eq_some_iff.mp h.registered).1, ?_⟩
  cases he : eagerParent? reg.records i with
  | none => simp [h.not_root]
  | some p =>
    have := linkedParent?_of_eager he
    rw [h.linkedParent?] at this
    cases this

theorem deferredPlaces_lt {reg : Registry} (hc : reg.Consistent) :
    ∀ i ∈ reg.deferredPlaces, i ≠ 0 ∧ i < reg.records.length := by
  intro i hi
  rw [deferredPlaces_eq hc, List.mem_filter, List.mem_range] at hi
  exact ⟨by have := hi.2; simp at this; exact this.1, hi.1⟩

theorem deferredPlaces_sorted {reg : Registry} (hc : reg.Consistent) :
    reg.deferredPlaces.Pairwise (· < ·) := by
  rw [deferredPlaces_eq hc]
  exact List.pairwise_lt_range.filter _

/-- **The first orphan stops linking**, whatever else is wrong. -/
theorem link_of_orphan {reg : Registry} (hc : reg.Consistent) (h : ∃ i r, reg.Orphan i r) :
    ∃ i r, reg.Orphan i r ∧ (∀ j r', reg.Orphan j r' → i ≤ j) ∧
      reg.link = .error (.parentNotFound (wantedParent r) r.key r.origin) := by
  obtain ⟨j, r', hj⟩ := h
  have hspec := resolve_spec hc (deferredPlaces_lt hc)
  unfold link deferredLinks
  generalize reg.resolve reg.deferredPlaces = result at hspec
  obtain ⟨links, e⟩ := result
  cases e with
  | none =>
    have := hspec.1 j (hj.mem_deferredPlaces hc)
    rw [hj.linkedParent?] at this
    cases this
  | some e =>
    obtain ⟨before, i, after, r, hplaces, hbefore, hr, hnone, rfl⟩ := hspec
    have hmem : i ∈ reg.deferredPlaces := by simp [hplaces]
    refine ⟨i, r, orphan_of_linkedParent? hr (deferredPlaces_lt hc i hmem).1 hnone, ?_, rfl⟩
    intro k r'' hk
    apply le_of_mem_split (deferredPlaces_sorted hc) hplaces (hk.mem_deferredPlaces hc)
    intro hmem
    have := hbefore k hmem
    rw [hk.linkedParent?] at this
    cases this

/-- **Without orphans the records have all their links**, and linking fails only for a record
without a way up. -/
theorem link_of_no_orphan {reg : Registry} (hc : reg.Consistent) (h : ∀ i r, ¬ reg.Orphan i r) :
    reg.link =
      match firstStray? (linkedTree reg.records) with
      | some r => .error (.cycle r.key r.origin)
      | none => .ok (linkedTree reg.records) := by
  have hspec := resolve_spec hc (deferredPlaces_lt hc)
  unfold link deferredLinks
  generalize reg.resolve reg.deferredPlaces = result at hspec
  obtain ⟨links, e⟩ := result
  cases e with
  | some e =>
    obtain ⟨before, i, after, r, hplaces, _, hr, hnone, _⟩ := hspec
    have hmem : i ∈ reg.deferredPlaces := by simp [hplaces]
    exact absurd (orphan_of_linkedParent? hr (deferredPlaces_lt hc i hmem).1 hnone) (h i r)
  | none =>
    obtain ⟨hall, rfl⟩ := hspec
    have htree := congrArg₂ Tree.mk (withLinks_deferred hc hall) hc.indexed
    exact congrArg (fun t : Tree =>
      match firstStray? t with
      | some r => Except.error (LinkError.cycle r.key r.origin)
      | none => Except.ok t) htree

/-- Record `i` is not the root, and record `p` has the key that it names as its parent. -/
def ParentIs (reg : Registry) (i p : Nat) : Prop :=
  i ≠ 0 ∧ ∃ r q, reg.records[i]? = some r ∧ reg.records[p]? = some q ∧ q.key = wantedParent r

theorem ParentIs.lt {reg : Registry} {i p : Nat} (h : reg.ParentIs i p) :
    i < reg.records.length ∧ p < reg.records.length := by
  obtain ⟨_, r, parent, hr, hparent, _⟩ := h
  exact ⟨(List.getElem?_eq_some_iff.mp hr).1, (List.getElem?_eq_some_iff.mp hparent).1⟩

/-- Following named parents leads from the record to the root. -/
inductive ReachesRoot (reg : Registry) : Nat → Prop where
  | root : ReachesRoot reg 0
  | up {i p : Nat} : reg.ParentIs i p → ReachesRoot reg p → ReachesRoot reg i

/-- The record at a place never reaches the root. -/
structure Stray (reg : Registry) (i : Nat) (r : Record) : Prop where
  registered : reg.records[i]? = some r
  lost : ¬ reg.ReachesRoot i

/-- Names and links agree, since keys are distinct. -/
theorem parentIs_iff {reg : Registry} (hc : reg.Consistent) {i p : Nat} :
    reg.ParentIs i p ↔ (linkedTree reg.records).parent? i = some p := by
  rw [linkedTree_parent?, Registry.linkedParent?]
  constructor
  · rintro ⟨hi, r, q, hr, hq, hkey⟩
    rw [if_neg hi, hr]
    exact (Record.place?_eq_some_iff hc.distinct).mpr ⟨q, hq, hkey⟩
  · intro h
    split at h
    · cases h
    · rename_i hi
      obtain ⟨r, hr, hp⟩ := Option.bind_eq_some_iff.mp h
      obtain ⟨q, hq, hkey⟩ := Record.place?_eq_some hp
      exact ⟨hi, r, q, hr, hq, hkey⟩

theorem reachesRoot_iff {reg : Registry} (hc : reg.Consistent) {i : Nat} :
    reg.ReachesRoot i ↔ (linkedTree reg.records).Grounded i := by
  constructor
  · intro h
    induction h with
    | root => exact Tree.grounded_root
    | up hp _ ih =>
      obtain ⟨n, hn⟩ := ih
      exact ⟨n + 1, .up ((parentIs_iff hc).mp hp) hn⟩
  · rintro ⟨n, hn⟩
    induction hn with
    | root => exact .root
    | up hp _ ih => exact .up ((parentIs_iff hc).mpr hp) ih

theorem linkedTree_closed {reg : Registry} (hc : reg.Consistent) (h : ∀ i r, ¬ reg.Orphan i r) :
    (linkedTree reg.records).Closed := by
  refine ⟨?_, ?_, ?_⟩
  · rw [linkedTree_size]
    exact (List.getElem?_eq_some_iff.mp hc.rooted).1
  · rw [linkedTree_parent?]
    rfl
  · intro i hi hi0
    rw [linkedTree_size] at hi
    rw [linkedTree_parent?]
    cases hp : Registry.linkedParent? reg.records i with
    | some p => exact ⟨p, by rw [linkedTree_size]; exact (linkedParent?_lt hp).2.2, rfl⟩
    | none =>
      exact absurd (orphan_of_linkedParent? (List.getElem?_eq_getElem hi) hi0 hp) (h i _)

/-- **Without orphans, the first stray record is found if there is one.** -/
theorem firstStray?_spec {reg : Registry} (hc : reg.Consistent) (h : ∀ i r, ¬ reg.Orphan i r) :
    match firstStray? (linkedTree reg.records) with
    | none => ∀ i r, ¬ reg.Stray i r
    | some r => ∃ i, reg.Stray i r ∧ ∀ j r', reg.Stray j r' → i ≤ j := by
  have ht := linkedTree_closed hc h
  have hplaces : ∀ i, i ∈ List.range' 1 ((linkedTree reg.records).size - 1) ↔
      i ≠ 0 ∧ i < reg.records.length := by
    intro i
    rw [List.mem_range'_1, linkedTree_size]
    omega
  have hspec := Tree.firstEndless?_spec ht (fun i hi => by simpa using ((hplaces i).mp hi).2) [0]
    (by simp) (by simpa using Tree.grounded_root)
  unfold firstStray?
  cases hsome : (linkedTree reg.records).firstEndless? [0]
      (List.range' 1 ((linkedTree reg.records).size - 1)) with
  | none =>
    rw [hsome] at hspec
    intro i r hs
    apply hs.lost
    rw [reachesRoot_iff hc]
    by_cases hi : i = 0
    · rw [hi]; exact Tree.grounded_root
    · exact hspec i ((hplaces i).mpr ⟨hi, (List.getElem?_eq_some_iff.mp hs.registered).1⟩)
  | some i =>
    rw [hsome] at hspec
    obtain ⟨hlost, before, after, hsplit, hbefore⟩ := hspec
    have hi : i ≠ 0 ∧ i < reg.records.length := (hplaces i).mp (by rw [hsplit]; simp)
    have hr := List.getElem?_eq_getElem hi.2
    simp only [Option.map_some, linkedTree_record hr]
    refine ⟨i, ⟨hr, by rwa [reachesRoot_iff hc]⟩, ?_⟩
    intro j r' hj
    have hj0 : j ≠ 0 := by rintro rfl; exact hj.lost .root
    have hmem := (hplaces j).mpr ⟨hj0, (List.getElem?_eq_some_iff.mp hj.registered).1⟩
    apply le_of_mem_split List.pairwise_lt_range' hsplit hmem
    intro hmem
    exact hj.lost ((reachesRoot_iff hc).mpr (hbefore j hmem))

/-- **Without orphans, the first stray record stops linking.** -/
theorem link_of_stray {reg : Registry} (hc : reg.Consistent) (hno : ∀ i r, ¬ reg.Orphan i r)
    (h : ∃ i r, reg.Stray i r) :
    ∃ i r, reg.Stray i r ∧ (∀ j r', reg.Stray j r' → i ≤ j) ∧
      reg.link = .error (.cycle r.key r.origin) := by
  obtain ⟨j, r', hj⟩ := h
  have hlink := link_of_no_orphan hc hno
  have hstray := firstStray?_spec hc hno
  cases hfirst : firstStray? (linkedTree reg.records) with
  | none =>
    rw [hfirst] at hstray
    exact absurd hj (hstray j r')
  | some r =>
    rw [hfirst] at hstray hlink
    obtain ⟨i, hi, hleast⟩ := hstray
    exact ⟨i, r, hi, hleast, hlink⟩

/-- **Without orphans and stray records there is a tree.** -/
theorem link_of_no_stray {reg : Registry} (hc : reg.Consistent) (hno : ∀ i r, ¬ reg.Orphan i r)
    (h : ∀ i r, ¬ reg.Stray i r) : reg.link = .ok (linkedTree reg.records) := by
  have hlink := link_of_no_orphan hc hno
  have hstray := firstStray?_spec hc hno
  cases hfirst : firstStray? (linkedTree reg.records) with
  | none =>
    rw [hfirst] at hlink
    exact hlink
  | some r =>
    rw [hfirst] at hstray
    obtain ⟨i, hi, _⟩ := hstray
    exact absurd hi (h i r)

/-- A tree that was linked has no orphans and no stray records, and is the one with all links. -/
theorem link_eq_ok {reg : Registry} (hc : reg.Consistent) {t : Tree} (h : reg.link = .ok t) :
    (∀ i r, ¬ reg.Orphan i r) ∧ (∀ i r, ¬ reg.Stray i r) ∧ t = linkedTree reg.records := by
  have hno : ∀ i r, ¬ reg.Orphan i r := by
    intro i r hi
    obtain ⟨_, _, _, _, hlink⟩ := link_of_orphan hc ⟨i, r, hi⟩
    rw [h] at hlink
    cases hlink
  have hns : ∀ i r, ¬ reg.Stray i r := by
    intro i r hi
    obtain ⟨_, _, _, _, hlink⟩ := link_of_stray hc hno ⟨i, r, hi⟩
    rw [h] at hlink
    cases hlink
  have hlink := link_of_no_stray hc hno hns
  rw [h] at hlink
  exact ⟨hno, hns, by simpa using hlink⟩

/-- A cycle is reported only if there are no orphans, and a record is stray. -/
theorem link_eq_cycle {reg : Registry} (hc : reg.Consistent) {key origin : Text}
    (h : reg.link = .error (.cycle key origin)) :
    (∀ i r, ¬ reg.Orphan i r) ∧ ∃ i r, reg.Stray i r := by
  have hno : ∀ i r, ¬ reg.Orphan i r := by
    intro i r hi
    obtain ⟨_, _, _, _, hlink⟩ := link_of_orphan hc ⟨i, r, hi⟩
    rw [h] at hlink
    cases hlink
  refine ⟨hno, ?_⟩
  by_contra hnone
  have hlink := link_of_no_stray hc hno fun i r hi => hnone ⟨i, r, hi⟩
  rw [h] at hlink
  cases hlink

/-- No record is an orphan exactly if every named parent is registered. -/
theorem no_orphan_iff (reg : Registry) :
    (∀ i r, ¬ reg.Orphan i r) ↔
      ∀ i r, reg.records[i]? = some r → i ≠ 0 → ∃ q ∈ reg.records, q.key = wantedParent r := by
  constructor
  · intro h i r hr hi
    by_contra hnone
    exact h i r ⟨hr, hi, fun q hq hkey => hnone ⟨q, hq, hkey⟩⟩
  · rintro h i r ⟨hr, hi, hmissing⟩
    obtain ⟨q, hq, hkey⟩ := h i r hr hi
    exact hmissing q hq hkey

/-- No record is stray exactly if all reach the root. -/
theorem no_stray_iff (reg : Registry) :
    (∀ i r, ¬ reg.Stray i r) ↔ ∀ i < reg.size, reg.ReachesRoot i := by
  rw [← records_length]
  constructor
  · intro h i hi
    by_contra hlost
    exact h i _ ⟨List.getElem?_eq_getElem hi, hlost⟩
  · rintro h i r ⟨hr, hlost⟩
    exact hlost (h i (List.getElem?_eq_some_iff.mp hr).1)

/-- **The outcome of linking**, for every run of registrations.  There is a tree exactly if every
named parent is registered and every record reaches the root.  The first record with a parent that
is not registered is reported before any cycle, and without such a record it is the first one that
never reaches the root. -/
theorem link_outcome (rs : List Record) :
    let reg := ofRecords rs
    ((∃ t, reg.link = .ok t) ↔
      (∀ i r, reg.records[i]? = some r → i ≠ 0 → ∃ q ∈ reg.records, q.key = wantedParent r) ∧
        ∀ i < reg.size, reg.ReachesRoot i) ∧
    ((∃ i r, reg.Orphan i r) → ∃ i r, reg.Orphan i r ∧ (∀ j r', reg.Orphan j r' → i ≤ j) ∧
      reg.link = .error (.parentNotFound (wantedParent r) r.key r.origin)) ∧
    ((∀ i r, ¬ reg.Orphan i r) → (∃ i r, reg.Stray i r) →
      ∃ i r, reg.Stray i r ∧ (∀ j r', reg.Stray j r' → i ≤ j) ∧
        reg.link = .error (.cycle r.key r.origin)) := by
  intro reg
  have hc : reg.Consistent := ofRecords_consistent rs
  rw [← no_orphan_iff, ← no_stray_iff]
  refine ⟨⟨?_, ?_⟩, link_of_orphan hc, link_of_stray hc⟩
  · rintro ⟨t, ht⟩
    obtain ⟨hno, hns, _⟩ := link_eq_ok hc ht
    exact ⟨hno, hns⟩
  · rintro ⟨hno, hns⟩
    exact ⟨_, link_of_no_stray hc hno hns⟩

end CommentDocs.Registry
