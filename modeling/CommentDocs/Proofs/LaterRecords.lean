import CommentDocs.Proofs.LinkedTree

/-!
# Records that come later

More registrations add links and change none.  Later records are linked before the deferred ones,
so they may come between the children of a record, but those keep their order.

* `linkedParent?_append`, `linkedChildren_append`: the links among the first records of a list stay
  when the list goes on.
* `Tree.GrowsInto`: a tree holds what another one does, at the same places.
* `reachesRoot_of_later`: with every parent registered, no later record opens a way up.
* `link_later`: trees only grow, and a cycle stays one, for every run of registrations and
  everything that may be registered after it.
-/

set_option autoImplicit false

namespace CommentDocs

/-- The second tree holds every record of the first one at its place, under the same parent and with
its children in the same order, perhaps with others between them. -/
def Tree.GrowsInto (t t' : Tree) : Prop :=
  ∀ (i : Nat) (e : Entry), t.entry? i = some e → ∃ e', t'.entry? i = some e' ∧
    e'.record = e.record ∧ e'.parent = e.parent ∧ e.children.Sublist e'.children

/-! ## Links -/

/-- What is asked of fewer numbers, and less often met, selects a part of a range. -/
theorem filter_range_sublist {p q : Nat → Bool} {m n : Nat} (hmn : m ≤ n)
    (h : ∀ i, p i = true → q i = true) :
    ((List.range m).filter p).Sublist ((List.range n).filter q) :=
  (List.monotone_filter_right _ h).trans ((List.range_sublist.mpr hmn).filter q)

namespace Registry

variable {reg reg' : Registry} {rs : List Record} {i p : Nat} {r : Record}

/-- **Links stay** when more records follow. -/
theorem linkedParent?_append (later : List Record) (h : linkedParent? rs i = some p) :
    linkedParent? (rs ++ later) i = some p := by
  obtain ⟨hi, hlt, _⟩ := linkedParent?_lt h
  rw [linkedParent?, if_neg hi] at h ⊢
  rw [List.getElem?_append_left hlt]
  obtain ⟨r, hr, hp⟩ := Option.bind_eq_some_iff.mp h
  rw [hr, Option.bind_some]
  apply Record.place?_of_take (i := rs.length)
  rwa [List.take_left]

theorem eagerChildren_append (later : List Record) (p : Nat) :
    (eagerChildren rs p).Sublist (eagerChildren (rs ++ later) p) := by
  refine filter_range_sublist (by simp) fun i hi => ?_
  rw [beq_iff_eq] at hi ⊢
  rw [eagerParent?_append later (eagerParent?_lt hi).2, hi]

theorem lateChildren_append (later : List Record) (p : Nat) :
    (lateChildren rs p).Sublist (lateChildren (rs ++ later) p) := by
  refine filter_range_sublist (by simp) fun i hi => ?_
  rw [Bool.and_eq_true, beq_iff_eq] at hi ⊢
  rw [eagerParent?_append later (linkedParent?_lt hi.2).2.1]
  exact ⟨hi.1, linkedParent?_append later hi.2⟩

/-- **Children keep their order** when more records follow: the eager ones among themselves, the
late ones among themselves, and the former before the latter. -/
theorem linkedChildren_append (later : List Record) (p : Nat) :
    (linkedChildren rs p).Sublist (linkedChildren (rs ++ later) p) :=
  (eagerChildren_append later p).append (lateChildren_append later p)

theorem linkedTree_getElem? (rs : List Record) (i : Nat) :
    Tree.entry? (linkedTree rs) i =
      rs[i]?.map fun r => ⟨r, linkedParent? rs i, linkedChildren rs i⟩ :=
  Entry.table_getElem? i

/-- The record at a place other than the root has a link, if there are no orphans. -/
theorem exists_linkedParent (hno : ∀ i r, ¬ reg.Orphan i r) (hlt : i < reg.records.length)
    (hi : i ≠ 0) : ∃ p, linkedParent? reg.records i = some p := by
  cases hp : linkedParent? reg.records i with
  | some p => exact ⟨p, rfl⟩
  | none => exact absurd (orphan_of_linkedParent? (List.getElem?_eq_getElem hlt) hi hp) (hno i _)

theorem linkedTree_growsInto (hno : ∀ i r, ¬ reg.Orphan i r) (later : List Record) :
    (linkedTree reg.records).GrowsInto (linkedTree (reg.records ++ later)) := by
  intro i e he
  rw [linkedTree_getElem?] at he
  obtain ⟨r, hr, rfl⟩ := Option.map_eq_some_iff.mp he
  have hlt := (List.getElem?_eq_some_iff.mp hr).1
  refine ⟨⟨r, linkedParent? (reg.records ++ later) i, linkedChildren (reg.records ++ later) i⟩, ?_,
    rfl, ?_, linkedChildren_append later i⟩
  · rw [linkedTree_getElem?, List.getElem?_append_left hlt, hr]
    rfl
  · by_cases hi : i = 0
    · simp [linkedParent?, hi]
    · obtain ⟨p, hp⟩ := exists_linkedParent hno hlt hi
      rw [hp]
      exact linkedParent?_append later hp

/-! ## Ways up -/

/-- With every parent registered, a way up from an earlier record leads past earlier records only.
So later ones do not open any. -/
theorem reachesRoot_of_later (hc : reg.Consistent) (hc' : reg'.Consistent)
    (hno : ∀ i r, ¬ reg.Orphan i r) (hpre : reg.records <+: reg'.records)
    (h : reg'.ReachesRoot i) (hlt : i < reg.records.length) : reg.ReachesRoot i := by
  obtain ⟨later, hlater⟩ := hpre
  induction h with
  | root => exact .root
  | @up i p hp _ ih =>
    obtain ⟨q, hq⟩ := exists_linkedParent hno hlt hp.1
    have hq' := linkedParent?_append later hq
    rw [parentIs_iff hc', linkedTree_parent?, ← hlater, hq'] at hp
    cases hp
    refine .up ?_ (ih (linkedParent?_lt hq).2.2)
    rw [parentIs_iff hc, linkedTree_parent?, hq]

/-- **Stray records stay stray.** -/
theorem Stray.later (hc : reg.Consistent) (hc' : reg'.Consistent)
    (hno : ∀ i r, ¬ reg.Orphan i r) (hpre : reg.records <+: reg'.records) (h : reg.Stray i r) :
    reg'.Stray i r where
  registered := by
    obtain ⟨later, hlater⟩ := hpre
    rw [← hlater, List.getElem?_append_left (List.getElem?_eq_some_iff.mp h.registered).1,
      h.registered]
  lost hreach := h.lost (reachesRoot_of_later hc hc' hno hpre hreach
    (List.getElem?_eq_some_iff.mp h.registered).1)

/-- A run of registrations keeps the records that are there at their places. -/
theorem foldl_accept_later (hc : reg.Consistent) (later : List Record) :
    (later.foldl accept reg).Consistent ∧ reg.records <+: (later.foldl accept reg).records := by
  refine foldl_accept_induction (P := fun reg' => reg'.Consistent ∧ reg.records <+: reg'.records)
    (fun _ r _ hreg h => ⟨insert_consistent hreg.1 h, hreg.2.trans ?_⟩) later reg
    ⟨hc, List.prefix_rfl⟩
  rw [(insert_eq_ok h).2.1]
  exact List.prefix_append _ _

/-- **Going on with a session only extends its tree**, for every run of registrations and every one
after it.  If both end in a tree, the later tree holds the earlier one.  If the earlier one ends in
a cycle, the later one ends in no tree. -/
theorem link_later (rs later : List Record) :
    let reg := ofRecords rs
    let reg' := later.foldl accept reg
    (∀ t t', reg.link = .ok t → reg'.link = .ok t' → t.GrowsInto t') ∧
    ∀ key origin, reg.link = .error (.cycle key origin) →
      (∃ key' origin', reg'.link = .error (.cycle key' origin')) ∨
        ∃ parent key' origin', reg'.link = .error (.parentNotFound parent key' origin') := by
  intro reg reg'
  have hc : reg.Consistent := ofRecords_consistent rs
  obtain ⟨hc', hpre⟩ := foldl_accept_later hc later
  constructor
  · intro t t' h h'
    obtain ⟨hno, _, rfl⟩ := link_eq_ok hc h
    obtain ⟨_, _, rfl⟩ := link_eq_ok hc' h'
    obtain ⟨extra, hextra⟩ := hpre
    rw [← hextra]
    exact linkedTree_growsInto hno extra
  · intro key origin h
    obtain ⟨hno, i, r, hstray⟩ := link_eq_cycle hc h
    have hstray' := hstray.later hc hc' hno hpre
    cases h' : reg'.link with
    | ok t' => exact absurd hstray' ((link_eq_ok hc' h').2.1 i r)
    | error e =>
      cases e with
      | cycle key' origin' => exact .inl ⟨key', origin', rfl⟩
      | parentNotFound parent key' origin' => exact .inr ⟨parent, key', origin', rfl⟩

/-- A record that comes later is linked before a deferred one, and a cycle is left alone by what
comes after it. -/
theorem link_later_between :
    let record (key parent : Text) : Record :=
      { kind := .node, name := key, key := key, parent := some parent }
    let rs := [record "late" "p", record "p" "root"]
    let loop := [record "a" "b", record "b" "a"]
    let later := [record "early" "p"]
    (∃ t t', (ofRecords rs).link = .ok t ∧ (later.foldl accept (ofRecords rs)).link = .ok t' ∧
      t.children 2 = [1] ∧ t'.children 2 = [3, 1] ∧ t.GrowsInto t') ∧
    (ofRecords loop).link = .error (.cycle "a" []) ∧
      ((∃ key origin, (later.foldl accept (ofRecords loop)).link = .error (.cycle key origin)) ∨
        ∃ parent key origin, (later.foldl accept (ofRecords loop)).link =
          .error (.parentNotFound parent key origin)) := by
  intro record rs loop later
  have h : (ofRecords rs).link = .ok (linkedTree (ofRecords rs).records) := by decide
  have h' : (later.foldl accept (ofRecords rs)).link =
      .ok (linkedTree (later.foldl accept (ofRecords rs)).records) := by decide
  have hcycle : (ofRecords loop).link = .error (.cycle "a" []) := by decide
  exact ⟨⟨_, _, h, h', by decide, by decide, (link_later rs later).1 _ _ h h'⟩, hcycle,
    (link_later loop later).2 _ _ hcycle⟩

end Registry

end CommentDocs
