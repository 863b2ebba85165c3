import CommentDocs.Proofs.LinkedTree

/-!
# What a registry keeps in step

A registry holds the same facts several times over: a link is a parent of one entry and a child of
another, a key belongs to a record and leads to its place in the index, and the deferred records are
counted.

* `Intact`: the entries, the index of the keys, both ends of the links and the count agree.
* `Extends`: a later registry holds every earlier entry at its place, with children only added at
  the end.  `insert_extends` is the step.
* `deferredPlaces_length`: the records without a link, after one more registration.
* `ofRecords_intact`: both hold of every run of registrations, whichever of them are refused.
-/

set_option autoImplicit false

namespace CommentDocs.Registry

variable {reg reg' reg'' : Registry} {rs : List Record} {r : Record} {i : Nat}

/-- Everything that the registry holds more than once is the same each time. -/
structure Intact (reg : Registry) : Prop where
  /-- The index leads from a key to the entry that has it, and from no other key anywhere. -/
  index_iff : ∀ key i, reg.index.find? key = some i ↔
    ∃ e, reg.entries[i]? = some e ∧ e.record.key = key
  /-- No two keys lead to the same place. -/
  index_injective : ∀ key key' i, reg.index.find? key = some i → reg.index.find? key' = some i →
    key = key'
  /-- Some key leads to every place. -/
  index_surjective : ∀ i < reg.size, ∃ key, reg.index.find? key = some i
  root : reg.index.find? Record.rootKey = some 0
  /-- Looking a key up gives the registered record that has it. -/
  get_iff : ∀ key r, reg.get? key = some r ↔ r ∈ reg.records ∧ r.key = key
  contains_iff : ∀ key, reg.contains key = true ↔ ∃ r ∈ reg.records, r.key = key
  /-- A link goes to the earlier record that has the key that is named. -/
  parent : ∀ (i p : Nat) (e : Entry), reg.entries[i]? = some e → e.parent = some p →
    p < i ∧ ∃ q, reg.entries[p]? = some q ∧ e.record.parent = some q.record.key
  /-- Both ends hold every link. -/
  children_iff : ∀ (p c : Nat) (e : Entry), reg.entries[p]? = some e →
    (c ∈ e.children ↔ ∃ child, reg.entries[c]? = some child ∧ child.parent = some p)
  children_sorted : ∀ e ∈ reg.entries, e.children.Pairwise (· < ·)
  /-- There is no link exactly if no record before has the key that is named, or none is named. -/
  unlinked_iff : ∀ (i : Nat) (e : Entry), reg.entries[i]? = some e →
    (e.parent = none ↔ ¬ reg.ParentKnown i)
  /-- The records without a link, the root aside, are counted. -/
  deferred : reg.deferred = reg.deferredPlaces.length

/-- The second registry holds what the first one does: records, keys and links at their places, and
the children of each entry before any others. -/
structure Extends (reg reg' : Registry) : Prop where
  entry : ∀ (i : Nat) (e : Entry), reg.entries[i]? = some e → ∃ e', reg'.entries[i]? = some e' ∧
    e'.record = e.record ∧ e'.parent = e.parent ∧ e.children <+: e'.children
  index : ∀ key i, reg.index.find? key = some i → reg'.index.find? key = some i

theorem Extends.refl (reg : Registry) : reg.Extends reg where
  entry _ e he := ⟨e, he, rfl, rfl, List.prefix_rfl⟩
  index _ _ h := h

theorem Extends.trans (h : reg.Extends reg') (h' : reg'.Extends reg'') : reg.Extends reg'' where
  entry i e he := by
    obtain ⟨e', he', hrecord, hparent, hchildren⟩ := h.entry i e he
    obtain ⟨e'', he'', hrecord', hparent', hchildren'⟩ := h'.entry i e' he'
    exact ⟨e'', he'', hrecord'.trans hrecord, hparent'.trans hparent,
      hchildren.trans hchildren'⟩
  index key i hi := h'.index key i (h.index key i hi)

/-! ## Entries of a consistent registry -/

theorem Consistent.entries_getElem? (hc : reg.Consistent) (i : Nat) :
    reg.entries[i]? = reg.records[i]?.map fun r =>
      ⟨r, eagerParent? reg.records i, eagerChildren reg.records i⟩ := by
  have hlinked := congrArg (fun entries : List Entry => entries[i]?) hc.linked
  rwa [Entry.table_getElem?] at hlinked

/-- The entry at a place is the record there with its eager links. -/
theorem Consistent.entry_eq (hc : reg.Consistent) {e : Entry} (he : reg.entries[i]? = some e) :
    reg.records[i]? = some e.record ∧ e.parent = eagerParent? reg.records i ∧
      e.children = eagerChildren reg.records i := by
  rw [hc.entries_getElem?] at he
  obtain ⟨r, hr, rfl⟩ := Option.map_eq_some_iff.mp he
  exact ⟨hr, rfl, rfl⟩

theorem records_getElem? (reg : Registry) (i : Nat) :
    reg.records[i]? = reg.entries[i]?.map (·.record) :=
  List.getElem?_map

/-- **Registration keeps what is there.** -/
theorem insert_extends (hc : reg.Consistent) (h : reg.insert r = .ok reg') :
    reg.Extends reg' where
  entry i e he := by
    obtain ⟨hr, hparent, hchildren⟩ := hc.entry_eq he
    obtain ⟨_, hrecords, _⟩ := insert_eq_ok h
    have hi : i < reg.records.length := (List.getElem?_eq_some_iff.mp hr).1
    refine ⟨⟨e.record, e.parent, eagerChildren reg'.records i⟩, ?_, rfl, rfl, ?_⟩
    · rw [(insert_consistent hc h).entries_getElem?, hrecords, List.getElem?_append_left hi, hr,
        eagerParent?_append [r] hi, ← hparent]
      rfl
    · rw [hchildren, hrecords, eagerChildren_concat]
      exact List.prefix_append _ _
  index key i hi := by
    obtain ⟨hnone, _, hindex, _⟩ := insert_eq_ok h
    have hne : key ≠ r.key := by
      rintro rfl
      rw [Registry.find?, hi] at hnone
      cases hnone
    rw [hindex, KeyIndex.find?_insert, if_neg hne, hi]

/-! ## The count of deferred records -/

/-- The count goes up exactly if the record is not linked. -/
theorem insert_deferred (h : reg.insert r = .ok reg') :
    reg'.deferred = reg.deferred + if (reg.parentOf? r).isNone then 1 else 0 := by
  unfold insert at h
  split at h
  · cases h
  · cases hp : reg.parentOf? r with
    | some p => rw [hp] at h; cases h; rfl
    | none => rw [hp] at h; cases h; rfl

/-- **The records without a link after one more registration.** -/
theorem deferredPlaces_length (hc : reg.Consistent) (h : reg.insert r = .ok reg') :
    reg'.deferredPlaces.length = reg.deferredPlaces.length +
      if (r.parent.bind (Record.place? reg.records)).isNone then 1 else 0 := by
  obtain ⟨_, hrecords, _⟩ := insert_eq_ok h
  have hpos : reg.records.length ≠ 0 := by
    have := (List.getElem?_eq_some_iff.mp hc.rooted).1
    omega
  rw [deferredPlaces_eq hc, deferredPlaces_eq (insert_consistent hc h), hrecords,
    List.length_append, List.length_singleton, List.range_succ, List.filter_append,
    List.length_append]
  congr 1
  · congr 1
    apply List.filter_congr
    intro i hi
    rw [eagerParent?_append [r] (List.mem_range.mp hi)]
  · rw [List.filter_cons, List.filter_nil, eagerParent?_concat]
    simp only [bne_iff_ne.mpr hpos, Bool.true_and]
    split <;> rfl

theorem insert_counted (hc : reg.Consistent) (hd : reg.deferred = reg.deferredPlaces.length)
    (h : reg.insert r = .ok reg') : reg'.deferred = reg'.deferredPlaces.length := by
  rw [insert_deferred h, deferredPlaces_length hc h, hc.parentOf?_eq_place?, hd]

theorem ofRecords_counted (rs : List Record) :
    (ofRecords rs).deferred = (ofRecords rs).deferredPlaces.length := by
  have hrun : (ofRecords rs).Consistent ∧
      (ofRecords rs).deferred = (ofRecords rs).deferredPlaces.length :=
    foldl_accept_induction
      (P := fun reg => reg.Consistent ∧ reg.deferred = reg.deferredPlaces.length)
      (fun _ _ _ hreg h => ⟨insert_consistent hreg.1 h, insert_counted hreg.1 hreg.2 h⟩) rs empty
      ⟨empty_consistent, rfl⟩
  exact hrun.2

/-! ## Runs -/

/-- **The index leads to the entry that has the key.** -/
theorem Consistent.index_iff (hc : reg.Consistent) (key : Text) (i : Nat) :
    reg.index.find? key = some i ↔ ∃ e, reg.entries[i]? = some e ∧ e.record.key = key := by
  rw [← Registry.find?, hc.find?_eq_place?, Record.place?_eq_some_iff hc.distinct,
    records_getElem?]
  simp only [Option.map_eq_some_iff]
  constructor
  · rintro ⟨_, ⟨e, he, rfl⟩, hkey⟩
    exact ⟨e, he, hkey⟩
  · rintro ⟨e, he, hkey⟩
    exact ⟨e.record, ⟨e, he, rfl⟩, hkey⟩

/-- The place that the index gives holds a record, so a lookup never falls back on the root. -/
theorem Consistent.get_iff (hc : reg.Consistent) (key : Text) (r : Record) :
    reg.get? key = some r ↔ r ∈ reg.records ∧ r.key = key := by
  rw [get?, Option.map_eq_some_iff]
  constructor
  · rintro ⟨i, hi, rfl⟩
    rw [hc.find?_eq_place?] at hi
    obtain ⟨q, hq, hkey⟩ := Record.place?_eq_some hi
    rw [recordAt_of_records hq]
    exact ⟨List.mem_of_getElem? hq, hkey⟩
  · rintro ⟨hr, rfl⟩
    obtain ⟨i, hi⟩ := List.mem_iff_getElem?.mp hr
    refine ⟨i, ?_, recordAt_of_records hi⟩
    rw [hc.find?_eq_place?]
    exact Record.place?_key hc.distinct hi

/-- **A consistent registry with the right count is intact.** -/
theorem Consistent.intact (hc : reg.Consistent) (hd : reg.deferred = reg.deferredPlaces.length) :
    reg.Intact where
  index_iff := hc.index_iff
  index_injective key key' i h h' := by
    obtain ⟨e, he, rfl⟩ := (hc.index_iff key i).mp h
    obtain ⟨e', he', rfl⟩ := (hc.index_iff key' i).mp h'
    rw [he] at he'
    cases he'
    rfl
  index_surjective i hi :=
    ⟨_, (hc.index_iff _ i).mpr ⟨_, List.getElem?_eq_getElem hi, rfl⟩⟩
  root := (hc.find?_eq_place? Record.rootKey).trans (Record.place?_key hc.distinct hc.rooted)
  get_iff := hc.get_iff
  contains_iff key := by
    rw [contains, hc.find?_eq_place?]
    exact Record.place?_isSome
  parent i p e he hp := by
    obtain ⟨hr, hparent, _⟩ := hc.entry_eq he
    rw [hparent] at hp
    obtain ⟨hlt, _⟩ := eagerParent?_lt hp
    obtain ⟨key, hkey, hplace⟩ := Option.bind_eq_some_iff.mp hp
    rw [hr, Option.bind_some] at hkey
    obtain ⟨q, hq, hqkey⟩ := Record.place?_eq_some (Record.place?_of_take hplace)
    rw [records_getElem?] at hq
    obtain ⟨e', he', rfl⟩ := Option.map_eq_some_iff.mp hq
    exact ⟨hlt, e', he', by rw [hkey, hqkey]⟩
  children_iff p c e he := by
    obtain ⟨_, _, hchildren⟩ := hc.entry_eq he
    rw [hchildren, mem_eagerChildren]
    constructor
    · intro hp
      obtain ⟨_, hlt⟩ := eagerParent?_lt hp
      refine ⟨⟨reg.records[c], eagerParent? reg.records c, eagerChildren reg.records c⟩, ?_, hp⟩
      rw [hc.entries_getElem?, List.getElem?_eq_getElem hlt]
      rfl
    · rintro ⟨child, hchild, hp⟩
      rwa [← (hc.entry_eq hchild).2.1]
  children_sorted e he := by
    obtain ⟨i, hi⟩ := List.mem_iff_getElem?.mp he
    rw [(hc.entry_eq hi).2.2]
    exact eagerChildren_sorted
  unlinked_iff i e he := by
    rw [(hc.entry_eq he).2.1, ← isSome_eagerParent?, Option.not_isSome_iff_eq_none]
  deferred := hd

/-- **Every run of registrations keeps the registry intact**, whichever records are refused, and
whatever is registered later changes nothing that is there. -/
theorem ofRecords_intact (rs : List Record) :
    (ofRecords rs).Intact ∧ ∀ later, (ofRecords rs).Extends (ofRecords (rs ++ later)) := by
  have hc := ofRecords_consistent rs
  refine ⟨hc.intact (ofRecords_counted rs), fun later => ?_⟩
  have hrun := foldl_accept_induction
    (P := fun reg => reg.Consistent ∧ (ofRecords rs).Extends reg)
    (fun _ _ _ hreg h =>
      ⟨insert_consistent hreg.1 h, hreg.2.trans (insert_extends hreg.1 h)⟩)
    later (ofRecords rs) ⟨hc, Extends.refl _⟩
  have hsplit : ofRecords (rs ++ later) = later.foldl accept (ofRecords rs) := List.foldl_append
  rw [hsplit]
  exact hrun.2

end CommentDocs.Registry
