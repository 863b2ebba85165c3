import Mathlib.Data.List.Forall2
import CommentDocs.Proofs.Linking
import CommentDocs.Session

/-!
# Sessions without rejections

Reading batches up to the end without an error comes down to two things: every batch parses, and
the records are registered one after the other.

* `registerAll_eq_ok`: a session that rejects nothing, as its records.
* `insertAll_records`: they are the records of the registry, in order.
* `parseSource_eq_ok`: a source has a tree exactly if its batches parse to records that are
  registered and linked.
-/

set_option autoImplicit false

namespace CommentDocs

/-- The batch is parsed to the record. -/
def Batch.Parses (b : Batch) (r : Record) : Prop :=
  Record.parse b.source b.startLine b.lines = .ok r

/-- Every record comes from one of the batches. -/
theorem Batch.exists_parses {batches : List Batch} {rs : List Record} {r : Record}
    (h : List.Forall₂ Batch.Parses batches rs) (hr : r ∈ rs) : ∃ b ∈ batches, b.Parses r := by
  induction h with
  | nil => cases hr
  | cons hparse _ ih =>
    rcases List.mem_cons.mp hr with rfl | hr
    · exact ⟨_, List.mem_cons_self, hparse⟩
    · obtain ⟨b, hb, hparses⟩ := ih hr
      exact ⟨b, List.mem_cons_of_mem _ hb, hparses⟩

namespace Registry

/-- Register records up to the first one that is refused. -/
def insertAll (reg : Registry) : List Record → Except DuplicateKey Registry
  | [] => .ok reg
  | r :: rs =>
    match reg.insert r with
    | .error e => .error e
    | .ok reg' => reg'.insertAll rs

theorem registerBatch_eq_ok {reg reg' : Registry} {b : Batch} :
    reg.registerBatch b = .ok reg' ↔ ∃ r, b.Parses r ∧ reg.insert r = .ok reg' := by
  unfold registerBatch Batch.Parses
  cases hp : Record.parse b.source b.startLine b.lines with
  | error e => simp
  | ok r => cases hr : reg.insert r <;> simp [hr]

theorem insertAll_cons {reg reg' : Registry} {r : Record} {rs : List Record} :
    reg.insertAll (r :: rs) = .ok reg' ↔
      ∃ next, reg.insert r = .ok next ∧ next.insertAll rs = .ok reg' := by
  rw [insertAll]
  cases hr : reg.insert r <;> simp

theorem registerAll_cons {reg reg' : Registry} {b : Batch} {batches : List Batch} :
    reg.registerAll (b :: batches) = .ok reg' ↔
      ∃ next, reg.registerBatch b = .ok next ∧ next.registerAll batches = .ok reg' := by
  rw [registerAll]
  cases hr : reg.registerBatch b <;> simp

/-- **A session that rejects nothing** parses every batch and registers the records in order. -/
theorem registerAll_eq_ok {reg reg' : Registry} {batches : List Batch} :
    reg.registerAll batches = .ok reg' ↔
      ∃ rs, List.Forall₂ Batch.Parses batches rs ∧ reg.insertAll rs = .ok reg' := by
  induction batches generalizing reg with
  | nil => simp [registerAll, insertAll]
  | cons b batches ih =>
    simp only [registerAll_cons, registerBatch_eq_ok, ih]
    constructor
    · rintro ⟨next, ⟨r, hparse, hinsert⟩, rs, hall, hrun⟩
      exact ⟨r :: rs, .cons hparse hall, insertAll_cons.mpr ⟨next, hinsert, hrun⟩⟩
    · rintro ⟨rs, hall, hrun⟩
      cases hall with
      | cons hparse hall =>
        obtain ⟨next, hinsert, hrun⟩ := insertAll_cons.mp hrun
        exact ⟨next, ⟨_, hparse, hinsert⟩, _, hall, hrun⟩

/-- Registered records come after those that were there. -/
theorem insertAll_records {reg reg' : Registry} {rs : List Record}
    (h : reg.insertAll rs = .ok reg') : reg'.records = reg.records ++ rs := by
  induction rs generalizing reg with
  | nil => cases h; simp
  | cons r rs ih =>
    obtain ⟨next, hinsert, hrun⟩ := insertAll_cons.mp h
    obtain ⟨_, hrecords, _⟩ := insert_eq_ok hinsert
    rw [ih hrun, hrecords, List.append_assoc, List.singleton_append]

theorem insertAll_consistent {reg reg' : Registry} {rs : List Record} (hc : reg.Consistent)
    (h : reg.insertAll rs = .ok reg') : reg'.Consistent := by
  induction rs generalizing reg with
  | nil => cases h; exact hc
  | cons r rs ih =>
    obtain ⟨next, hinsert, hrun⟩ := insertAll_cons.mp h
    exact ih (insert_consistent hc hinsert) hrun

end Registry

/-- The records of a tree, in order of registration. -/
def Tree.records (t : Tree) : List Record := t.entries.map (·.record)

/-- Linking changes no record. -/
theorem Registry.link_records {reg : Registry} (hc : reg.Consistent) {t : Tree}
    (h : reg.link = .ok t) : t.records = reg.records := by
  obtain ⟨_, _, rfl⟩ := link_eq_ok hc h
  exact Entry.table_records

/-- **A source has a tree** exactly if its batches parse to records that are registered in order
and linked. -/
theorem parseSource_eq_ok {source text : Text} {t : Tree} :
    parseSource source text = .ok t ↔
      ∃ rs reg, List.Forall₂ Batch.Parses (Batch.extract Batch.defaultMarker source text) rs ∧
        Registry.empty.insertAll rs = .ok reg ∧ reg.link = .ok t := by
  have hsession : parseSource source text = .ok t ↔
      ∃ reg, Registry.empty.registerAll (Batch.extract Batch.defaultMarker source text) = .ok reg ∧
        reg.link = .ok t := by
    unfold parseSource
    cases hr : Registry.empty.registerAll (Batch.extract Batch.defaultMarker source text) with
    | error e => simp
    | ok reg => cases hl : reg.link <;> simp [hl]
  rw [hsession]
  constructor
  · rintro ⟨reg, hrun, hlink⟩
    obtain ⟨rs, hall, hinsert⟩ := Registry.registerAll_eq_ok.mp hrun
    exact ⟨rs, reg, hall, hinsert, hlink⟩
  · rintro ⟨rs, reg, hall, hinsert, hlink⟩
    exact ⟨reg, Registry.registerAll_eq_ok.mpr ⟨rs, hall, hinsert⟩, hlink⟩

/-- The tree of a source holds the root and the records of its batches. -/
theorem records_of_insertAll {rs : List Record} {reg : Registry} {t : Tree}
    (h : Registry.empty.insertAll rs = .ok reg) (hl : reg.link = .ok t) :
    t.records = Record.root :: rs := by
  have hc := Registry.insertAll_consistent Registry.empty_consistent h
  rw [Registry.link_records hc hl, Registry.insertAll_records h]
  rfl

end CommentDocs
