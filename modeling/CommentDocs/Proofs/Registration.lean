import CommentDocs.Registry
import Mathlib.Data.List.Induction

/-!
# Runs of registrations

A registry that was filled by registering records one after the other is known completely from the
list of its records:

* `KeyIndex.ofRecords` is the index of the keys of records, put in one after the other;
  `find?_ofRecords` says that it leads to where a search through the records would.
* `Entry.table` lays out records with a parent and a list of children for each place;
  `attach_table` says that linking two records changes the table at these two places only.
* `eagerParent?` is the place of the parent that was registered before a record, and
  `eagerChildren` lists the records linked to a place on registration.
* `Consistent` is the invariant: the root comes first, no two records share a key, the index is that
  of the records, and the entries are the table of the eager links.  `insert_consistent` is the
  step, `ofRecords_consistent` the run (`foldl_accept_induction`).
-/

set_option autoImplicit false

namespace CommentDocs

/-- The place of the record with the given key in a list of records. -/
def Record.place? (rs : List Record) (key : Text) : Option Nat := rs.findIdx? fun r => r.key == key

namespace Record

theorem place?_eq_some {rs : List Record} {key : Text} {i : Nat} (h : place? rs key = some i) :
    ∃ r, rs[i]? = some r ∧ r.key = key := by
  obtain ⟨hi, hk, _⟩ := List.findIdx?_eq_some_iff_getElem.mp h
  exact ⟨rs[i], List.getElem?_eq_getElem hi, by simpa using hk⟩

theorem place?_lt {rs : List Record} {key : Text} {i : Nat} (h : place? rs key = some i) :
    i < rs.length :=
  (List.findIdx?_eq_some_iff_getElem.mp h).1

/-- A key has a place exactly if a record has it. -/
theorem place?_isSome {rs : List Record} {key : Text} :
    (place? rs key).isSome ↔ ∃ r ∈ rs, r.key = key := by
  simp [place?]

theorem place?_eq_none {rs : List Record} {key : Text} :
    place? rs key = none ↔ ∀ r ∈ rs, r.key ≠ key := by
  simp [place?]

/-- The first records decide where a key is, if they have it. -/
theorem place?_of_take {rs : List Record} {key : Text} {i p : Nat}
    (h : place? (rs.take i) key = some p) : place? rs key = some p := by
  rw [← List.take_append_drop i rs]
  unfold place? at *
  rw [List.findIdx?_append, h]
  rfl

/-- Where keys are distinct, a record stands at the place of its key. -/
theorem place?_key {rs : List Record} (hd : (rs.map (·.key)).Nodup) {i : Nat} {r : Record}
    (h : rs[i]? = some r) : place? rs r.key = some i := by
  obtain ⟨hi, rfl⟩ := List.getElem?_eq_some_iff.mp h
  refine List.findIdx?_eq_some_iff_getElem.mpr ⟨hi, by simp, fun j hj hk => ?_⟩
  have hkey : (rs.map (·.key))[j]? = (rs.map (·.key))[i]? := by
    rw [List.getElem?_map, List.getElem?_map, h, List.getElem?_eq_getElem (by omega)]
    simpa using hk
  have := (List.getElem?_inj (by simpa using Nat.lt_trans hj hi) hd).mp hkey
  omega

/-- Where keys are distinct, a key leads to the one record that has it. -/
theorem place?_eq_some_iff {rs : List Record} (hd : (rs.map (·.key)).Nodup) {key : Text}
    {i : Nat} : place? rs key = some i ↔ ∃ r, rs[i]? = some r ∧ r.key = key := by
  constructor
  · exact place?_eq_some
  · rintro ⟨r, hr, rfl⟩
    exact place?_key hd hr

/-- The place of a key after one more record, if no record had it before. -/
theorem place?_concat {rs : List Record} {r : Record} (hfree : ∀ q ∈ rs, q.key ≠ r.key)
    (key : Text) :
    place? (rs ++ [r]) key = if key = r.key then some rs.length else place? rs key := by
  unfold place?
  rw [List.findIdx?_append]
  by_cases heq : key = r.key
  · subst heq
    rw [← place?, place?_eq_none.mpr hfree, if_pos rfl]
    simp [List.findIdx?_cons]
  · rw [if_neg heq]
    simp [Ne.symm heq]

end Record

/-! ## Indexes of keys -/

namespace KeyIndex

/-- The index after the keys of the records were put in, each with the place of its record. -/
def ofRecords (rs : List Record) : KeyIndex :=
  rs.zipIdx.foldl (fun ix e => ix.insert e.1.key e.2) empty

theorem ofRecords_concat (rs : List Record) (r : Record) :
    ofRecords (rs ++ [r]) = (ofRecords rs).insert r.key rs.length := by
  simp [ofRecords, List.zipIdx_append]

/-- **Where keys are distinct, the index leads to where a search would.** -/
theorem find?_ofRecords {rs : List Record} (hd : (rs.map (·.key)).Nodup) (key : Text) :
    (ofRecords rs).find? key = Record.place? rs key := by
  -- the key of the last record is put in last, so records are taken off the end
  induction rs using List.reverseRecOn with
  | nil => exact find?_empty key
  | append_singleton rs r ih =>
    rw [List.map_append, List.nodup_append] at hd
    have hfree : ∀ q ∈ rs, q.key ≠ r.key := fun q hq =>
      hd.2.2 q.key (List.mem_map_of_mem hq) r.key (by simp)
    rw [ofRecords_concat, find?_insert, Record.place?_concat hfree, ih hd.1]

end KeyIndex

/-! ## Tables of entries -/

namespace Entry

/-- The records with a parent and children for each place. -/
def table (rs : List Record) (parent : Nat → Option Nat) (children : Nat → List Nat) :
    List Entry :=
  rs.mapIdx fun i r => ⟨r, parent i, children i⟩

variable {rs : List Record} {parent parent' : Nat → Option Nat}
  {children children' : Nat → List Nat}

theorem table_getElem? (i : Nat) :
    (table rs parent children)[i]? = rs[i]?.map fun r => ⟨r, parent i, children i⟩ := by
  simp [table]

@[simp] theorem table_length : (table rs parent children).length = rs.length := by
  simp [table]

@[simp] theorem table_records : (table rs parent children).map (·.record) = rs := by
  apply List.ext_getElem?
  intro i
  simp [table_getElem?, Function.comp_def]

/-- A table depends on the places that hold a record only. -/
theorem table_congr (hp : ∀ i < rs.length, parent i = parent' i)
    (hc : ∀ i < rs.length, children i = children' i) :
    table rs parent children = table rs parent' children' := by
  apply List.ext_getElem?
  intro i
  rw [table_getElem?, table_getElem?]
  by_cases hi : i < rs.length
  · rw [hp i hi, hc i hi]
  · rw [List.getElem?_eq_none (by omega)]
    rfl

/-- A record at the end of a table, not linked to anything. -/
theorem table_concat (r : Record) (hp : parent rs.length = none) (hc : children rs.length = []) :
    table rs parent children ++ [{ record := r }] = table (rs ++ [r]) parent children := by
  simp [table, List.mapIdx_concat, hp, hc]

theorem attach_records (child parentPlace : Nat) (entries : List Entry) :
    (attach child parentPlace entries).map (·.record) = entries.map (·.record) := by
  apply List.ext_getElem?
  intro i
  simp only [attach, List.getElem?_map, List.getElem?_modify]
  cases entries[i]? with
  | none => simp
  | some e => by_cases h₁ : child = i <;> by_cases h₂ : parentPlace = i <;> simp_all

/-- **Linking changes the parent of one place and the children of one place.** -/
theorem attach_table (child parentPlace : Nat) :
    attach child parentPlace (table rs parent children) =
      table rs (fun i => if i = child then some parentPlace else parent i)
        (fun i => if i = parentPlace then children i ++ [child] else children i) := by
  apply List.ext_getElem?
  intro i
  simp only [attach, List.getElem?_modify, table_getElem?]
  cases rs[i]? with
  | none => simp
  | some r => by_cases h₁ : child = i <;> by_cases h₂ : parentPlace = i <;> simp_all [eq_comm]

end Entry

/-! ## Eager links -/

namespace Registry

/-- The place of the parent of the record at a place, if it is one of the records before it. -/
def eagerParent? (rs : List Record) (i : Nat) : Option Nat :=
  (rs[i]?.bind (·.parent)).bind (Record.place? (rs.take i))

/-- The records whose parent is at a place and was registered before them, in order. -/
def eagerChildren (rs : List Record) (p : Nat) : List Nat :=
  (List.range rs.length).filter fun i => eagerParent? rs i == some p

theorem eagerParent?_lt {rs : List Record} {i p : Nat} (h : eagerParent? rs i = some p) :
    p < i ∧ i < rs.length := by
  obtain ⟨key, hk, hp⟩ := Option.bind_eq_some_iff.mp h
  obtain ⟨r, hr, _⟩ := Option.bind_eq_some_iff.mp hk
  have := Record.place?_lt hp
  rw [List.length_take] at this
  exact ⟨by omega, (List.getElem?_eq_some_iff.mp hr).1⟩

/-- Later records do not change the eager links of earlier ones. -/
theorem eagerParent?_append {rs : List Record} (later : List Record) {i : Nat}
    (hi : i < rs.length) : eagerParent? (rs ++ later) i = eagerParent? rs i := by
  unfold eagerParent?
  rw [List.getElem?_append_left hi, List.take_append_of_le_length (by omega)]

theorem eagerParent?_concat (rs : List Record) (r : Record) :
    eagerParent? (rs ++ [r]) rs.length = r.parent.bind (Record.place? rs) := by
  simp [eagerParent?]

/-- The eager children after one more registration. -/
theorem eagerChildren_concat (rs : List Record) (r : Record) (p : Nat) :
    eagerChildren (rs ++ [r]) p =
      eagerChildren rs p ++
        if r.parent.bind (Record.place? rs) = some p then [rs.length] else [] := by
  unfold eagerChildren
  rw [List.length_append, List.length_singleton, List.range_succ, List.filter_append]
  congr 1
  · apply List.filter_congr
    intro i hi
    rw [eagerParent?_append [r] (List.mem_range.mp hi)]
  · rw [List.filter_cons, List.filter_nil, eagerParent?_concat]
    split <;> simp_all

/-! ## Registration -/

theorem records_length (reg : Registry) : reg.records.length = reg.size := by
  simp [records, size]

theorem recordAt_of_records {reg : Registry} {i : Nat} {q : Record}
    (h : reg.records[i]? = some q) : reg.recordAt i = q := by
  rw [records, List.getElem?_map] at h
  rw [recordAt, h, Option.getD_some]

/-- The root comes first, keys are distinct, the index holds them, and the entries hold the eager
links. -/
structure Consistent (reg : Registry) : Prop where
  rooted : reg.records[0]? = some Record.root
  distinct : (reg.records.map (·.key)).Nodup
  indexed : reg.index = KeyIndex.ofRecords reg.records
  linked : reg.entries =
    Entry.table reg.records (eagerParent? reg.records) (eagerChildren reg.records)

theorem empty_consistent : empty.Consistent := by
  constructor <;> decide

/-- **The index is in step with the records.** -/
theorem Consistent.find?_eq_place? {reg : Registry} (hc : reg.Consistent) (key : Text) :
    reg.find? key = Record.place? reg.records key := by
  rw [find?, hc.indexed]
  exact KeyIndex.find?_ofRecords hc.distinct key

theorem Consistent.find?_eq_none {reg : Registry} (hc : reg.Consistent) {key : Text} :
    reg.find? key = none ↔ ∀ q ∈ reg.records, q.key ≠ key := by
  rw [hc.find?_eq_place?, Record.place?_eq_none]

theorem Consistent.parentOf?_eq_place? {reg : Registry} (hc : reg.Consistent) (r : Record) :
    reg.parentOf? r = r.parent.bind (Record.place? reg.records) := by
  unfold parentOf?
  congr 1
  funext key
  exact hc.find?_eq_place? key

/-- **Registration appends the record**, puts its key into the index and links it if the index has
its parent; a key that the index has is refused. -/
theorem insert_eq_ok {reg reg' : Registry} {r : Record} (h : reg.insert r = .ok reg') :
    reg.find? r.key = none ∧ reg'.records = reg.records ++ [r] ∧
      reg'.index = reg.index.insert r.key reg.size ∧
      reg'.entries =
        match reg.parentOf? r with
        | some p => Entry.attach reg.size p (reg.entries ++ [{ record := r }])
        | none => reg.entries ++ [{ record := r }] := by
  unfold insert at h
  split at h
  · cases h
  · rename_i hfree
    refine ⟨hfree, ?_⟩
    cases hp : reg.parentOf? r with
    | some p =>
      rw [hp] at h
      cases h
      refine ⟨?_, rfl, rfl⟩
      rw [records, Entry.attach_records, List.map_append]
      rfl
    | none =>
      rw [hp] at h
      cases h
      exact ⟨by simp [records], rfl, rfl⟩

/-- **Registration is refused exactly if a registered record has the key**; the refusal names where
that record comes from. -/
theorem insert_cases {reg : Registry} (hc : reg.Consistent) (r : Record) :
    (∃ q ∈ reg.records, q.key = r.key ∧ reg.insert r = .error ⟨r.key, r.origin, q.origin⟩) ∨
      (∀ q ∈ reg.records, q.key ≠ r.key) ∧ ∃ reg', reg.insert r = .ok reg' := by
  unfold insert
  cases hfind : reg.find? r.key with
  | some i =>
    have hplace := (hc.find?_eq_place? r.key).symm.trans hfind
    obtain ⟨q, hq, hkey⟩ := Record.place?_eq_some hplace
    refine .inl ⟨q, List.mem_of_getElem? hq, hkey, ?_⟩
    simp only [recordAt_of_records hq]
  | none =>
    refine .inr ⟨hc.find?_eq_none.mp hfind, ?_⟩
    cases reg.parentOf? r with
    | some p => exact ⟨_, rfl⟩
    | none => exact ⟨_, rfl⟩

/-- A record that is registered next is linked to nothing yet. -/
theorem eager_next (rs : List Record) :
    eagerParent? rs rs.length = none ∧ eagerChildren rs rs.length = [] := by
  constructor
  · simp [eagerParent?]
  · rw [eagerChildren, List.filter_eq_nil_iff]
    intro i _ h
    have := eagerParent?_lt (beq_iff_eq.mp h)
    omega

/-- **Registration keeps a registry consistent.** -/
theorem insert_consistent {reg reg' : Registry} {r : Record} (hc : reg.Consistent)
    (h : reg.insert r = .ok reg') : reg'.Consistent := by
  obtain ⟨hnone, hrecords, hindex, hentries⟩ := insert_eq_ok h
  obtain ⟨hparent, hchildren⟩ := eager_next reg.records
  have hpos : 0 < reg.records.length := (List.getElem?_eq_some_iff.mp hc.rooted).1
  have hfree := hc.find?_eq_none.mp hnone
  refine ⟨?_, ?_, ?_, ?_⟩
  · rw [hrecords, List.getElem?_append_left hpos, hc.rooted]
  · rw [hrecords, List.map_append, List.nodup_append]
    refine ⟨hc.distinct, by simp, ?_⟩
    rintro a ha b hb rfl
    obtain ⟨r', hr', rfl⟩ := List.mem_map.mp ha
    simp only [List.map_cons, List.map_nil, List.mem_singleton] at hb
    exact hfree r' hr' hb
  · rw [hindex, hrecords, KeyIndex.ofRecords_concat, ← hc.indexed, records_length]
  · rw [hentries, hc.parentOf?_eq_place?, hrecords, hc.linked,
      Entry.table_concat r hparent hchildren, ← records_length]
    split
    · rename_i p hp
      rw [Entry.attach_table]
      apply Entry.table_congr
      · intro i hi
        split
        · rename_i hlast; rw [hlast, eagerParent?_concat, hp]
        · rw [eagerParent?_append [r] (by simp at hi; omega)]
      · intro i _
        rw [eagerChildren_concat, hp]
        by_cases hip : i = p
        · simp [hip]
        · simp [hip, Ne.symm hip]
    · rename_i hp
      apply Entry.table_congr
      · intro i hi
        by_cases hlast : i = reg.records.length
        · rw [hlast, eagerParent?_concat, hparent, hp]
        · rw [eagerParent?_append [r] (by simp at hi; omega)]
      · intro i _
        rw [eagerChildren_concat, hp]
        simp

/-- Try to register a record; one that is refused leaves the registry as it was. -/
def accept (reg : Registry) (r : Record) : Registry :=
  match reg.insert r with
  | .ok reg' => reg'
  | .error _ => reg

/-- The registry after trying to register the records one after the other. -/
def ofRecords (rs : List Record) : Registry := rs.foldl accept empty

/-- What every registration keeps, a run of registrations keeps. -/
theorem foldl_accept_induction {P : Registry → Prop}
    (hstep : ∀ reg r reg', P reg → reg.insert r = .ok reg' → P reg') (rs : List Record) :
    ∀ reg, P reg → P (rs.foldl accept reg) := by
  induction rs with
  | nil => intro reg h; exact h
  | cons r rs ih =>
    intro reg h
    apply ih
    unfold accept
    split
    · rename_i hinsert; exact hstep reg r _ h hinsert
    · exact h

/-- **Every run of registrations ends in a consistent registry.** -/
theorem ofRecords_consistent (rs : List Record) : (ofRecords rs).Consistent :=
  foldl_accept_induction (fun _ _ _ => insert_consistent) rs empty empty_consistent

end Registry

end CommentDocs
