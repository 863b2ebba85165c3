import CommentDocs.Document.Nested
import CommentDocs.Proofs.Descent
import CommentDocs.Proofs.JsonReading

/-!
# JSON documents lose nothing but origins

A JSON document can be read back to the tree that it was written from.  What is written of a record
depends on its fields: some have another name, and some are left out when there is nothing to say.

* `slots`: every field that a record and its children may have, with what is written under it.
  The fields of an object are the slots that are filled (`fields_eq`), and looking one of them up
  gives what the slot holds (`lookup_present`).
* `branch?`: the record and the branches below it that a JSON value tells of;
  `branch?_ofBranch`: they are those that the value was made from, less the origins.
* `render_faithful`: all of it for every tree that was linked.
-/

set_option autoImplicit false

namespace CommentDocs

/-- The record without where it was read. -/
def Record.withoutOrigin (r : Record) : Record := { r with origin := [] }

namespace Branch

mutual

/-- The branch without where its records were read. -/
def withoutOrigin : Branch → Branch
  | .mk r children => .mk r.withoutOrigin (withoutOrigins children)

/-- The branches without where their records were read. -/
def withoutOrigins : List Branch → List Branch
  | [] => []
  | b :: bs => b.withoutOrigin :: withoutOrigins bs

end

mutual

theorem records_withoutOrigin : ∀ b : Branch,
    b.withoutOrigin.records = b.records.map Record.withoutOrigin
  | .mk r children => by
    rw [withoutOrigin, records, records, recordsOf_withoutOrigins children, List.map_cons]

theorem recordsOf_withoutOrigins : ∀ bs : List Branch,
    recordsOf (withoutOrigins bs) = (recordsOf bs).map Record.withoutOrigin
  | [] => rfl
  | b :: bs => by
    rw [withoutOrigins, recordsOf, recordsOf, records_withoutOrigin b,
      recordsOf_withoutOrigins bs, List.map_append]

end

end Branch

namespace Json

mutual

/-- No object in the value has two fields of one name. -/
def Distinct : Json → Prop
  | .text _ => True
  | .list items => DistinctItems items
  | .object fields => (fields.map (·.1)).Nodup ∧ DistinctFields fields

/-- No object in the items has two fields of one name. -/
def DistinctItems : List Json → Prop
  | [] => True
  | x :: xs => x.Distinct ∧ DistinctItems xs

/-- No object in the values of the fields has two fields of one name. -/
def DistinctFields : List (Text × Json) → Prop
  | [] => True
  | (_, x) :: fields => x.Distinct ∧ DistinctFields fields

end

theorem distinctItems_iff {xs : List Json} : DistinctItems xs ↔ ∀ x ∈ xs, x.Distinct := by
  induction xs with
  | nil => simp [DistinctItems]
  | cons x xs ih => simp [DistinctItems, ih]

theorem distinctFields_iff {fields : List (Text × Json)} :
    DistinctFields fields ↔ ∀ f ∈ fields, f.2.Distinct := by
  induction fields with
  | nil => simp [DistinctFields]
  | cons f fields ih => simp [DistinctFields, ih]

end Json

/-- The kind that is shown by the given name. -/
def RecordKind.ofName? (name : Text) : Option RecordKind :=
  [.action, .node, .link].find? fun kind => kind.name == name

namespace Nested

/-! ## What a value tells -/

/-- The text of a field. -/
def textAt? (fields : List (Text × Json)) (name : Text) : Option Text :=
  match fields.lookup name with
  | some (.text t) => some t
  | _ => none

/-- The parameter that an object tells of. -/
def parameter? : Json → Option Parameter
  | .object fields =>
    match textAt? fields "name", textAt? fields "type", textAt? fields "description" with
    | some name, some type, some description => some ⟨name, type, description⟩
    | _, _, _ => none
  | _ => none

/-- The parameters in a field; there are none where there is no field. -/
def parametersAt? (fields : List (Text × Json)) (name : Text) : Option (List Parameter) :=
  match fields.lookup name with
  | none => some []
  | some (.list items) => items.mapM parameter?
  | some _ => none

/-- The record that the fields of an object tell of. -/
def record? (fields : List (Text × Json)) : Option Record :=
  match (textAt? fields "kind").bind RecordKind.ofName?, textAt? fields "name",
      textAt? fields "identity_key", textAt? fields "short", parametersAt? fields "params",
      parametersAt? fields "columns" with
  | some kind, some name, some key, some short, some params, some columns =>
    some
      { kind := kind
        name := name
        key := key
        is := textAt? fields "is"
        parent := textAt? fields "parent"
        short := short
        long := (textAt? fields "long").getD []
        params := params
        returns := textAt? fields "return"
        columns := columns
        valueType := textAt? fields "value_type"
        writable := textAt? fields "writable" }
  | _, _, _, _, _, _ => none

mutual

/-- The record that a value tells of, with the branches below it. -/
def branch? : Json → Option Branch
  | .object fields =>
    match record? fields, children? fields with
    | some r, some children => some (.mk r children)
    | _, _ => none
  | _ => none

/-- The branches that the field of the children holds; there are none where there is no field. -/
def children? : List (Text × Json) → Option (List Branch)
  | [] => some []
  | (name, .list items) :: fields =>
    if name = "children".toList then branches? items else children? fields
  | (name, _) :: fields => if name = "children".toList then none else children? fields

/-- The branches that the items of a list tell of. -/
def branches? : List Json → Option (List Branch)
  | [] => some []
  | x :: xs =>
    match branch? x, branches? xs with
    | some b, some bs => some (b :: bs)
    | _, _ => none

end

/-! ## Slots -/

/-- The fields that have something in them. -/
def present (slots : List (Text × Option Json)) : List (Text × Json) :=
  slots.filterMap fun s => s.2.map fun x => (s.1, x)

/-- A list, unless it is empty. -/
def listSlot (items : List Json) : Option Json :=
  if items.isEmpty then none else some (.list items)

/-- What is written of a record with the values of its children under it. -/
def slots (r : Record) (children : List Json) : List (Text × Option Json) :=
  [("kind", some (.text r.kind.name)), ("name", some (.text r.name)),
    ("identity_key", some (.text r.key)), ("is", r.is.map .text), ("parent", r.parent.map .text),
    ("short", some (.text r.short)),
    ("long", (if r.long.isEmpty then none else some r.long).map .text),
    ("params", listSlot (r.params.map ofParameter)), ("return", r.returns.map .text),
    ("columns", listSlot (r.columns.map ofParameter)), ("value_type", r.valueType.map .text),
    ("writable", r.writable.map .text), ("children", listSlot children)]

theorem textField_eq (name t : Text) : textField name t = present [(name, some (.text t))] := rfl

theorem optionalField_eq (name : Text) (o : Option Text) :
    optionalField name o = present [(name, o.map .text)] := by
  cases o <;> rfl

theorem listField_eq (name : Text) (items : List Json) :
    listField name items = present [(name, listSlot items)] := by
  cases items <;> rfl

/-- **The fields of a record and its children are the slots that are filled.** -/
theorem fields_eq (r : Record) (children : List Json) :
    recordFields r ++ listField "children" children = present (slots r children) := by
  simp only [recordFields, textField_eq, optionalField_eq, listField_eq, present,
    ← List.filterMap_append]
  rfl

theorem slots_nodup (r : Record) (children : List Json) :
    ((slots r children).map (·.1)).Nodup := by
  show ["kind".toList, "name".toList, "identity_key".toList, "is".toList, "parent".toList,
    "short".toList, "long".toList, "params".toList, "return".toList, "columns".toList,
    "value_type".toList, "writable".toList, "children".toList].Nodup
  decide

theorem present_cons (name : Text) (o : Option Json) (more : List (Text × Option Json)) :
    present ((name, o) :: more) = (o.map fun x => (name, x)).toList ++ present more := by
  cases o <;> rfl

theorem mem_present {all : List (Text × Option Json)} {f : Text × Json} (h : f ∈ present all) :
    (f.1, some f.2) ∈ all := by
  obtain ⟨⟨name, o⟩, hs, hf⟩ := List.mem_filterMap.mp h
  obtain ⟨x, rfl, rfl⟩ := Option.map_eq_some_iff.mp hf
  exact hs

theorem present_names_sublist (all : List (Text × Option Json)) :
    ((present all).map (·.1)).Sublist (all.map (·.1)) := by
  induction all with
  | nil => exact .slnil
  | cons s more ih =>
    obtain ⟨name, o⟩ := s
    rw [present_cons]
    cases o with
    | none => exact ih.cons name
    | some x => exact ih.cons_cons name

theorem lookup_present_none {all : List (Text × Option Json)} {name : Text}
    (h : name ∉ all.map (·.1)) : (present all).lookup name = none := by
  rw [List.lookup_eq_none_iff]
  intro f hf
  have hname : f.1 ∈ all.map (·.1) := List.mem_map.mpr ⟨_, mem_present hf, rfl⟩
  rw [bne_iff_ne]
  rintro rfl
  exact h hname

/-- **Looking a slot up gives what it holds.** -/
theorem lookup_present {all : List (Text × Option Json)} (hd : (all.map (·.1)).Nodup)
    {name : Text} {o : Option Json} (h : (name, o) ∈ all) : (present all).lookup name = o := by
  induction all with
  | nil => cases h
  | cons s more ih =>
    obtain ⟨other, o'⟩ := s
    obtain ⟨hfree, hmore⟩ := List.nodup_cons.mp hd
    rw [present_cons]
    rcases List.mem_cons.mp h with heq | hmem
    · cases heq
      cases o with
      | none => exact lookup_present_none hfree
      | some x => simp
    · have hne : name ≠ other := by
        rintro rfl
        exact hfree (List.mem_map.mpr ⟨_, hmem, rfl⟩)
      cases o' with
      | none => exact ih hmore hmem
      | some x => simpa [List.lookup_cons, beq_false_of_ne hne] using ih hmore hmem

/-! ## Records -/

theorem textAt?_eq {fields : List (Text × Json)} {name : Text} {o : Option Text}
    (h : fields.lookup name = o.map .text) : textAt? fields name = o := by
  rw [textAt?, h]
  cases o <;> rfl

theorem parameter?_ofParameter (p : Parameter) : parameter? (ofParameter p) = some p := by
  rfl

theorem mapM_parameter? (ps : List Parameter) :
    (ps.map ofParameter).mapM parameter? = some ps := by
  induction ps with
  | nil => rfl
  | cons p ps ih => simp [List.mapM_cons, parameter?_ofParameter, ih]

theorem parametersAt?_eq {fields : List (Text × Json)} {name : Text} {ps : List Parameter}
    (h : fields.lookup name = listSlot (ps.map ofParameter)) :
    parametersAt? fields name = some ps := by
  rw [parametersAt?, h]
  cases ps with
  | nil => rfl
  | cons p ps => exact mapM_parameter? (p :: ps)

theorem ofName?_name (kind : RecordKind) : RecordKind.ofName? kind.name = some kind := by
  cases kind <;> decide

/-- **The fields of a record tell everything about it** but where it was read. -/
theorem record?_slots (r : Record) (children : List Json) :
    record? (present (slots r children)) = some r.withoutOrigin := by
  have htext (name : Text) (o : Option Text) (h : (name, o.map .text) ∈ slots r children) :
      textAt? (present (slots r children)) name = o :=
    textAt?_eq (lookup_present (slots_nodup r children) h)
  have hparameters (name : Text) (ps : List Parameter)
      (h : (name, listSlot (ps.map ofParameter)) ∈ slots r children) :
      parametersAt? (present (slots r children)) name = some ps :=
    parametersAt?_eq (lookup_present (slots_nodup r children) h)
  have hlong : (if r.long.isEmpty then none else some r.long).getD [] = r.long := by
    cases r.long <;> rfl
  rw [record?, htext "kind" (some r.kind.name) (by simp [slots]), Option.bind_some, ofName?_name,
    htext "name" (some r.name) (by simp [slots]),
    htext "identity_key" (some r.key) (by simp [slots]),
    htext "is" r.is (by simp [slots]), htext "parent" r.parent (by simp [slots]),
    htext "short" (some r.short) (by simp [slots]),
    htext "long" (if r.long.isEmpty then none else some r.long) (by simp [slots]), hlong,
    hparameters "params" r.params (by simp [slots]), htext "return" r.returns (by simp [slots]),
    hparameters "columns" r.columns (by simp [slots]),
    htext "value_type" r.valueType (by simp [slots]),
    htext "writable" r.writable (by simp [slots])]
  rfl

/-! ## Branches -/

/-- Fields of other names are passed over. -/
theorem children?_append {fields : List (Text × Json)} (more : List (Text × Json))
    (h : ∀ f ∈ fields, f.1 ≠ "children".toList) :
    children? (fields ++ more) = children? more := by
  induction fields with
  | nil => rfl
  | cons f fields ih =>
    obtain ⟨name, x⟩ := f
    obtain ⟨hname, hmore⟩ := List.forall_mem_cons.mp h
    rw [List.cons_append, ← ih hmore]
    cases x with
    | list items => rw [children?, if_neg hname]
    | text t => rw [children?, if_neg hname]; simp
    | object fs => rw [children?, if_neg hname]; simp

/-- No field of a record has the name of its children. -/
theorem recordFields_ne (r : Record) : ∀ f ∈ recordFields r, f.1 ≠ "children".toList := by
  have hslots : recordFields r = present (slots r []) := by
    rw [← fields_eq]
    exact (List.append_nil _).symm
  have hnone : ("children".toList, none) ∈ slots r [] := by simp [slots, listSlot]
  intro f hf heq
  rw [hslots] at hf
  have hmem := mem_present hf
  rw [heq] at hmem
  have hlookup := lookup_present (slots_nodup r []) hmem
  rw [lookup_present (slots_nodup r []) hnone] at hlookup
  cases hlookup

mutual

/-- **A branch is what its value tells of**, less the origins. -/
theorem branch?_ofBranch : ∀ b : Branch, branch? (ofBranch b) = some b.withoutOrigin
  | .mk r children => by
    have hchildren : children? (recordFields r ++ listField "children" (ofBranches children)) =
        some (Branch.withoutOrigins children) := by
      rw [children?_append _ (recordFields_ne r)]
      cases children with
      | nil => rfl
      | cons b bs =>
        have hbs := branches?_ofBranches (b :: bs)
        rw [ofBranches] at hbs ⊢
        rw [listField, if_neg (by simp), children?, if_pos rfl, hbs]
    rw [ofBranch, branch?, hchildren, fields_eq, record?_slots, Branch.withoutOrigin]

theorem branches?_ofBranches : ∀ bs : List Branch,
    branches? (ofBranches bs) = some (Branch.withoutOrigins bs)
  | [] => rfl
  | b :: bs => by
    rw [ofBranches, branches?, branch?_ofBranch b, branches?_ofBranches bs,
      Branch.withoutOrigins]

end

/-- A parameter has a name, a type and a description. -/
theorem ofParameter_distinct (p : Parameter) : (ofParameter p).Distinct := by
  refine ⟨?_, trivial, trivial, trivial, trivial⟩
  show ["name".toList, "type".toList, "description".toList].Nodup
  decide

theorem listSlot_distinct {items : List Json} (h : ∀ x ∈ items, x.Distinct) :
    ∀ x ∈ listSlot items, x.Distinct := by
  intro x hx
  unfold listSlot at hx
  split at hx
  · cases hx
  · cases hx
    exact Json.distinctItems_iff.mpr h

theorem textSlot_distinct (o : Option Text) : ∀ x ∈ o.map Json.text, x.Distinct := by
  intro x hx
  obtain ⟨t, _, rfl⟩ := Option.map_eq_some_iff.mp hx
  trivial

theorem slots_distinct (r : Record) {children : List Json} (h : ∀ x ∈ children, x.Distinct) :
    ∀ s ∈ slots r children, ∀ x ∈ s.2, x.Distinct := by
  have hparameters (ps : List Parameter) : ∀ x ∈ listSlot (ps.map ofParameter), x.Distinct :=
    listSlot_distinct fun x hx => by
      obtain ⟨p, _, rfl⟩ := List.mem_map.mp hx
      exact ofParameter_distinct p
  simp only [slots, List.forall_mem_cons]
  exact ⟨textSlot_distinct (some _), textSlot_distinct (some _), textSlot_distinct (some _),
    textSlot_distinct _, textSlot_distinct _, textSlot_distinct (some _), textSlot_distinct _,
    hparameters _, textSlot_distinct _, hparameters _, textSlot_distinct _, textSlot_distinct _,
    listSlot_distinct h, by simp⟩

mutual

/-- **No object of a document has two fields of one name.** -/
theorem ofBranch_distinct : ∀ b : Branch, (ofBranch b).Distinct
  | .mk r children => by
    have hslots := slots_distinct r (ofBranches_distinct children)
    rw [ofBranch, fields_eq]
    refine ⟨?_, Json.distinctFields_iff.mpr fun f hf => hslots _ (mem_present hf) f.2 rfl⟩
    exact (slots_nodup r (ofBranches children)).sublist (present_names_sublist _)

theorem ofBranches_distinct : ∀ bs : List Branch, ∀ x ∈ ofBranches bs, x.Distinct
  | [], x, hx => by cases hx
  | b :: bs, x, hx => by
    rcases List.mem_cons.mp hx with rfl | hx
    · exact ofBranch_distinct b
    · exact ofBranches_distinct bs x hx

end

/-! ## Documents -/

/-- How a JSON document holds a tree. -/
structure Faithful (t : Tree) : Prop where
  /-- Going from a record to its children comes to an end. -/
  ends : WellFounded fun c p => c ∈ t.children p
  /-- The nested value has every record with its children nested in it, in link order. -/
  nested : ∀ i < t.size, t.branchAt i = .mk (t.record i) ((t.children i).map t.branchAt)
  /-- It has every record of the tree exactly once. -/
  complete : t.branch.records.Perm t.records
  /-- The text is read as the value that it was written from. -/
  reads : Json.read? (render t) = some (value t)
  /-- A name leads to one field at most. -/
  distinct : (value t).Distinct
  /-- The value tells of the nested value, all fields but the origins. -/
  decodes : branch? (value t) = some t.branch.withoutOrigin

theorem read?_render (t : Tree) : Json.read? (render t) = some (value t) :=
  Json.read?_pretty (value t) rfl

theorem branch_eq_of_render_eq {t t' : Tree} (h : render t = render t') :
    t.branch.withoutOrigin = t'.branch.withoutOrigin := by
  have hvalue : some (value t) = some (value t') := by rw [← read?_render, ← read?_render, h]
  have hbranch : branch? (value t) = branch? (value t') := by rw [Option.some.inj hvalue]
  rw [value, value, branch?_ofBranch, branch?_ofBranch] at hbranch
  exact Option.some.inj hbranch

/-- **JSON documents lose nothing but origins.**  The document of a tree that was linked is read
back to the tree, and two such trees with the same document have the same records, up to their
origins, in the same ordered shape. -/
theorem render_faithful (rs : List Record) (t : Tree)
    (h : (Registry.ofRecords rs).link = .ok t) :
    Faithful t ∧ ∀ rs' t', (Registry.ofRecords rs').link = .ok t' → render t = render t' →
      t.branch.withoutOrigin = t'.branch.withoutOrigin ∧
        (t.records.map Record.withoutOrigin).Perm (t'.records.map Record.withoutOrigin) := by
  have ht := Registry.link_proper (Registry.ofRecords_consistent rs) h
  refine ⟨⟨ht.children_wellFounded, fun i hi => ht.branchAt_eq hi, ht.branch_records_perm,
    read?_render t, ofBranch_distinct t.branch, branch?_ofBranch t.branch⟩, ?_⟩
  intro rs' t' h' hrender
  have ht' := Registry.link_proper (Registry.ofRecords_consistent rs') h'
  have hbranch := branch_eq_of_render_eq hrender
  refine ⟨hbranch, ?_⟩
  have hrecords : t.branch.records.map Record.withoutOrigin =
      t'.branch.records.map Record.withoutOrigin := by
    rw [← Branch.records_withoutOrigin, hbranch, Branch.records_withoutOrigin]
  have hleft := (ht.branch_records_perm.map Record.withoutOrigin).symm
  have hright := ht'.branch_records_perm.map Record.withoutOrigin
  rw [hrecords] at hleft
  exact hleft.trans hright

/-- The same records from two sources, with a child that was deferred and texts that have to be
escaped: the trees differ, and the documents do not. -/
theorem render_faithful_escaped :
    let record (origin key parent : Text) : Record :=
      { kind := .action, name := key, key := key, parent := some parent, short := "\"\\\n\x01é/",
        params := [⟨"", "a|b", "\t"⟩], origin := origin }
    let rs (origin : Text) : List Record :=
      [record origin "late" "p", record origin "p" "root", record origin "early" "p"]
    ∃ t t', (Registry.ofRecords (rs "x")).link = .ok t ∧
      (Registry.ofRecords (rs "y")).link = .ok t' ∧ t ≠ t' ∧ render t = render t' ∧ Faithful t ∧
      t.branch.withoutOrigin = t'.branch.withoutOrigin := by
  intro record rs
  have hx : (Registry.ofRecords (rs "x")).link =
      .ok (Registry.linkedTree (Registry.ofRecords (rs "x")).records) := by decide +kernel
  have hy : (Registry.ofRecords (rs "y")).link =
      .ok (Registry.linkedTree (Registry.ofRecords (rs "y")).records) := by decide +kernel
  have hrender : render (Registry.linkedTree (Registry.ofRecords (rs "x")).records) =
      render (Registry.linkedTree (Registry.ofRecords (rs "y")).records) := by decide +kernel
  obtain ⟨hfaithful, hequal⟩ := render_faithful (rs "x") _ hx
  exact ⟨_, _, hx, hy, by decide +kernel, hrender, hfaithful, (hequal (rs "y") _ hy hrender).1⟩

end Nested

end CommentDocs
