import CommentDocs.Proofs.Parsed

/-!
# Well-formed records

What everything after the parser may take for granted about a record, whatever the lines were that
it was read from.

* `Record.WellFormed`: names are words, types are type names, texts are trimmed, and no field is
  filled that the kind of the record or another field rules out.
* `Record.Whole.wellFormed`: records made of words, type names and trimmed texts are well formed.
* `parse_wellFormed`: every record that is read from a batch, also by reading on after a fault.
-/

set_option autoImplicit false

namespace CommentDocs

open Text (Trimmed)

/-- A record as the parser promises it. -/
structure Record.WellFormed (r : Record) : Prop where
  name : IsWord r.name
  key : IsWord r.key
  parent : ∃ key, r.parent = some key ∧ IsWord key
  is : ∀ w ∈ r.is, IsWord w
  returns : ∀ w ∈ r.returns, IsWord w
  writable : ∀ w ∈ r.writable, IsWord w
  valueType : ∀ n ∈ r.valueType, IsTypeName n
  params : ∀ p ∈ r.params, p.MadeOf Trimmed
  columns : ∀ p ∈ r.columns, p.MadeOf Trimmed
  short : Trimmed r.short
  long : Trimmed r.long
  /-- Only actions take parameters and give results. -/
  action_only : r.kind ≠ .action → r.params = [] ∧ r.columns = [] ∧ r.returns = none
  /-- Only a value can be written. -/
  value_of_writable : r.writable ≠ none → r.valueType ≠ none
  /-- The long text goes on after the short one. -/
  short_of_long : r.long ≠ [] → r.short ≠ []

/-- A text of which only the non-empty case is known is trimmed, since the empty one is. -/
theorem Text.trimmed_of_nonempty {t : Text} (h : t ≠ [] → Trimmed t) : Trimmed t := by
  by_cases h0 : t = []
  · rw [h0]
    exact Text.trim_nil
  · exact h h0

/-- **Records made of words, type names and trimmed texts are well formed.** -/
theorem Record.Whole.wellFormed {origin : Text} {r : Record}
    (h : r.Whole Trimmed Trimmed origin) : r.WellFormed where
  name := h.name
  key := h.key
  parent := by
    obtain ⟨key, hkey⟩ := Option.ne_none_iff_exists'.mp h.parent
    exact ⟨key, hkey, h.sound.parent key hkey⟩
  is := h.sound.is
  returns w hw := (h.sound.returns w hw).2
  writable w hw := (h.sound.writable w hw).2
  valueType := h.sound.valueType
  params p hp := (h.sound.params p hp).2
  columns p hp := (h.sound.columns p hp).2
  short := Text.trimmed_of_nonempty h.sound.short
  long := Text.trimmed_of_nonempty fun hl => (h.sound.long hl).2
  action_only := by
    intro hkind
    refine ⟨?_, ?_, ?_⟩
    · exact List.eq_nil_iff_forall_not_mem.mpr fun p hp => hkind (h.sound.params p hp).1
    · exact List.eq_nil_iff_forall_not_mem.mpr fun p hp => hkind (h.sound.columns p hp).1
    · exact Option.eq_none_iff_forall_not_mem.mpr fun w hw => hkind (h.sound.returns w hw).1
  value_of_writable := by
    intro hw
    obtain ⟨w, hw⟩ := Option.ne_none_iff_exists'.mp hw
    exact (h.sound.writable w hw).1
  short_of_long hl := (h.sound.long hl).1

namespace Reader

theorem record_wellFormed {origin : Text} {r : Reader} {record : Record}
    (h : (r.record origin).1 = .ok record) : record.WellFormed :=
  ((record_ensures Cursor.trimmed_yields origin trivial).value record h).wellFormed

/-- Reading on after a record or a fault gives well-formed records only. -/
theorem records_wellFormed {origin : Text} {record : Record} {n : Nat} {r : Reader}
    (h : .ok record ∈ (r.records origin n).1) : record.WellFormed := by
  induction n generalizing r with
  | zero => cases h
  | succ n ih =>
    rcases List.mem_cons.mp h with hfirst | hmore
    · exact record_wellFormed hfirst.symm
    · exact ih hmore

end Reader

/-- **Every record that is read from a batch is well formed**, whatever the lines are: the record
that the batch parses to, and each one that is read by going on from where the last reading
stopped, after a record or after a fault. -/
theorem parse_wellFormed (origin : Text) (lines : List Text) (record : Record)
    (h : (∃ firstLine, Record.parse origin firstLine lines = .ok record) ∨
      ∃ n, .ok record ∈ ((Reader.start lines).records origin n).1) :
    record.WellFormed := by
  rcases h with ⟨firstLine, hparse⟩ | ⟨n, hrecord⟩
  · exact Reader.record_wellFormed (Record.parse_eq_ok hparse)
  · exact Reader.records_wellFormed hrecord

/-- An action read on the third attempt, in lines with blanks of several sorts at their ends; its
value is given twice, the second time without a permission. -/
theorem parse_wellFormed_after_faults :
    let lines : List Text := ["@Param", "@Action\tset_2 ", "  @Parent root @Value map[é|*] write", "",
      "\u00a0 Sets  it\u3000", "@Param n int ", " \u2003", "", "@Value bool", "", "Long\u00a0"]
    ∃ record, Record.parse "svc" 1 lines ≠ .ok record ∧
      ((Reader.start lines).records "svc" 3).1[2]? = some (.ok record) ∧
      record.short = "Sets  it".toList ∧ record.valueType = some "bool".toList ∧
      record.writable = none ∧ record.WellFormed := by
  intro lines
  have h : (((Reader.start lines).records "svc" 3).1[2]?.bind Except.toOption).map
      (fun r => (r.short, r.valueType, r.writable)) =
      some ("Sets  it".toList, some "bool".toList, none) := by
    decide +kernel
  obtain ⟨record, hrecord, hfields⟩ := Option.map_eq_some_iff.mp h
  obtain ⟨result, hresult, hok⟩ := Option.bind_eq_some_iff.mp hrecord
  obtain rfl := eq_ok_of_toOption hok
  have hrejected : (Record.parse "svc" 1 lines).toOption = none := by decide +kernel
  simp only [Prod.mk.injEq] at hfields
  refine ⟨record, ?_, hresult, hfields.1, hfields.2.1, hfields.2.2, ?_⟩
  · intro hparse
    rw [hparse] at hrejected
    cases hrejected
  · exact parse_wellFormed "svc" lines record (.inr ⟨3, List.mem_of_getElem? hresult⟩)

end CommentDocs
