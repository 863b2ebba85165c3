import CommentDocs.Proofs.Parsed
import CommentDocs.Proofs.Sessions

/-!
# Sessions with rejections

A session goes on after a batch that it rejects.  What it ends with depends on the accepted batches
only:

* `registerBatch_cases`: the three outcomes of one batch, told by the records registered before it.
* `outcome_at`: the outcome of a batch is that of its step, after the batches before it.
* `offerAll_records`, `mem_offerAll_records`: the registry holds the records of the accepted batches.
* `offerAll_accepted`: a session fed the accepted batches only accepts them all, and ends with the
  same registry.
* `offerAll_accounts`: all of it for a session that starts with the root alone.
-/

set_option autoImplicit false

namespace CommentDocs

/-- A parsed record has the source of its batch as its origin. -/
theorem Batch.Parses.origin {b : Batch} {r : Record} (h : b.Parses r) : r.origin = b.source :=
  (Record.parse_sound Cursor.trimmed_yields trivial h).origin

theorem Batch.Parses.unique {b : Batch} {r r' : Record} (h : b.Parses r) (h' : b.Parses r') :
    r = r' := by
  unfold Batch.Parses at h h'
  rw [h] at h'
  cases h'
  rfl

/-- Every batch has its record among those of all of them. -/
theorem Batch.Parses.mem {batches : List Batch} {rs : List Record} {b : Batch} {r : Record}
    (h : List.Forall₂ Batch.Parses batches rs) (hb : b ∈ batches) (hparse : b.Parses r) :
    r ∈ rs := by
  induction h with
  | nil => cases hb
  | cons hfirst _ ih =>
    rcases List.mem_cons.mp hb with rfl | hb
    · rw [hparse.unique hfirst]
      exact List.mem_cons_self
    · exact List.mem_cons_of_mem _ (ih hb)

namespace Session

/-- The batches that were accepted, by the outcome of each. -/
def accepted (batches : List Batch) (outcomes : List (Except Error Unit)) : List Batch :=
  ((batches.zip outcomes).filter fun p => p.2.isOk).map (·.1)

/-- The batch at a place was accepted, and it parses to the record. -/
structure Admits (batches : List Batch) (outcomes : List (Except Error Unit)) (i : Nat) (b : Batch)
    (r : Record) : Prop where
  batch : batches[i]? = some b
  outcome : outcomes[i]? = some (.ok ())
  parses : b.Parses r

/-- The record is registered before the batch at a place: it is the root, or that of an accepted
batch at an earlier place. -/
def HeldBefore (batches : List Batch) (outcomes : List (Except Error Unit)) (i : Nat)
    (q : Record) : Prop :=
  q = Record.root ∨ ∃ j < i, ∃ b, Admits batches outcomes j b q

/-- How the outcomes of a session and the registry after it follow from its batches. -/
structure Accounts (batches : List Batch) (outcomes : List (Except Error Unit)) (reg : Registry) :
    Prop where
  length : outcomes.length = batches.length
  /-- The registry holds the root and the records of the accepted batches, in order. -/
  records : ∃ rs, List.Forall₂ Batch.Parses (accepted batches outcomes) rs ∧
    reg.records = Record.root :: rs
  /-- A batch is accepted if it parses to a record whose key is free. -/
  accepted_iff : ∀ (i : Nat) (b : Batch), batches[i]? = some b →
    (outcomes[i]? = some (.ok ()) ↔ ∃ r, b.Parses r ∧ r.key ≠ Record.rootKey ∧
      ∀ j < i, ∀ b' r', Admits batches outcomes j b' r' → r'.key ≠ r.key)
  malformed : ∀ (i : Nat) (b : Batch) (e : SyntaxError), batches[i]? = some b →
    Record.parse b.source b.startLine b.lines = .error e →
    outcomes[i]? = some (.error (.malformed e))
  /-- A key that is not free is that of the root, which has no origin, or of an earlier batch. -/
  duplicate : ∀ (i : Nat) (b : Batch) (r : Record), batches[i]? = some b → b.Parses r →
    outcomes[i]? ≠ some (.ok ()) →
    ∃ existing, outcomes[i]? = some (.error (.duplicate ⟨r.key, b.source, existing⟩)) ∧
      (r.key = Record.rootKey ∧ existing = [] ∨
        ∃ j < i, ∃ b' r', Admits batches outcomes j b' r' ∧ r'.key = r.key ∧
          existing = b'.source)
  /-- A batch that is rejected leaves the registry as it was. -/
  isolated : ∀ (i : Nat) (e : Error), outcomes[i]? = some (.error e) →
    (Registry.empty.offerAll (batches.take (i + 1))).2 =
      (Registry.empty.offerAll (batches.take i)).2
  /-- Without the rejected batches, the session ends with the very same registry. -/
  replay : Registry.empty.offerAll (accepted batches outcomes) =
    ((accepted batches outcomes).map fun _ => .ok (), reg)

theorem accepted_cons (b : Batch) (batches : List Batch) (o : Except Error Unit)
    (outcomes : List (Except Error Unit)) :
    accepted (b :: batches) (o :: outcomes) =
      if o.isOk then b :: accepted batches outcomes else accepted batches outcomes := by
  simp only [accepted, List.zip_cons_cons, List.filter_cons]
  split <;> rfl

theorem mem_accepted {batches : List Batch} {outcomes : List (Except Error Unit)} {b : Batch} :
    b ∈ accepted batches outcomes ↔
      ∃ i : Nat, batches[i]? = some b ∧ outcomes[i]? = some (.ok ()) := by
  have hok (o : Except Error Unit) : o.isOk = true ↔ o = .ok () := by
    cases o <;> simp [Except.isOk, Except.toBool]
  simp only [accepted, List.mem_map, List.mem_filter, hok]
  constructor
  · rintro ⟨⟨b, o⟩, ⟨hmem, rfl⟩, rfl⟩
    obtain ⟨i, hi⟩ := List.mem_iff_getElem?.mp hmem
    exact ⟨i, List.getElem?_zip_eq_some.mp hi⟩
  · rintro ⟨i, hi⟩
    exact ⟨(b, .ok ()), ⟨List.mem_of_getElem? (List.getElem?_zip_eq_some.mpr hi), rfl⟩, rfl⟩

end Session

namespace Registry

open Session

/-! ## One batch -/

/-- **The outcome of a batch**: it is malformed, its key is taken, or its record is registered. -/
theorem registerBatch_cases {reg : Registry} (hc : reg.Consistent) (b : Batch) :
    (∃ e, Record.parse b.source b.startLine b.lines = .error e ∧
      reg.registerBatch b = .error (.malformed e)) ∨
    (∃ r, b.Parses r ∧ ∃ q ∈ reg.records, q.key = r.key ∧
      reg.registerBatch b = .error (.duplicate ⟨r.key, r.origin, q.origin⟩)) ∨
    ∃ r, b.Parses r ∧ (∀ q ∈ reg.records, q.key ≠ r.key) ∧
      ∃ reg', reg.insert r = .ok reg' ∧ reg.registerBatch b = .ok reg' := by
  unfold registerBatch Batch.Parses
  cases hp : Record.parse b.source b.startLine b.lines with
  | error e => exact .inl ⟨e, rfl, rfl⟩
  | ok r =>
    right
    rcases insert_cases hc r with ⟨q, hq, hkey, hinsert⟩ | ⟨hfree, reg', hinsert⟩
    · exact .inl ⟨r, rfl, q, hq, hkey, by simp [hinsert]⟩
    · exact .inr ⟨r, rfl, hfree, reg', hinsert, by simp [hinsert]⟩

theorem offer_of_ok {reg reg' : Registry} {b : Batch} (h : reg.registerBatch b = .ok reg') :
    reg.offer b = reg' := by
  simp [offer, h]

theorem offer_of_error {reg : Registry} {b : Batch} {e : Error}
    (h : reg.registerBatch b = .error e) : reg.offer b = reg := by
  simp [offer, h]

/-! ## Runs -/

theorem offerAll_length (reg : Registry) (batches : List Batch) :
    (reg.offerAll batches).1.length = batches.length := by
  induction batches generalizing reg with
  | nil => rfl
  | cons b batches ih => simp [offerAll, ih]

/-- **The outcome of a batch in a session** is the outcome of its step, after the batches before
it. -/
theorem outcome_at {reg : Registry} {batches : List Batch} {i : Nat} {b : Batch}
    (h : batches[i]? = some b) :
    (reg.offerAll batches).1[i]? =
      some (((reg.offerAll (batches.take i)).2.registerBatch b).map fun _ => ()) := by
  induction batches generalizing reg i with
  | nil => simp at h
  | cons b' batches ih =>
    cases i with
    | zero =>
      obtain rfl : b' = b := by simpa using h
      rfl
    | succ i =>
      have hnext := @ih (reg.offer b') i (by simpa using h)
      simpa [offerAll] using hnext

/-- The registry after one more batch. -/
theorem offerAll_take_succ {reg : Registry} {batches : List Batch} {i : Nat} {b : Batch}
    (h : batches[i]? = some b) :
    (reg.offerAll (batches.take (i + 1))).2 = (reg.offerAll (batches.take i)).2.offer b := by
  induction batches generalizing reg i with
  | nil => simp at h
  | cons b' batches ih =>
    cases i with
    | zero =>
      obtain rfl : b' = b := by simpa using h
      simp [offerAll]
    | succ i =>
      have hnext := @ih (reg.offer b') i (by simpa using h)
      simpa [offerAll] using hnext

/-- **A session ends with the records of the accepted batches**, in order, after those that were
there. -/
theorem offerAll_records (reg : Registry) (batches : List Batch) :
    ∃ rs, List.Forall₂ Batch.Parses (accepted batches (reg.offerAll batches).1) rs ∧
      (reg.offerAll batches).2.records = reg.records ++ rs := by
  induction batches generalizing reg with
  | nil => exact ⟨[], .nil, by simp [offerAll]⟩
  | cons b batches ih =>
    obtain ⟨rs, hparses, hrecords⟩ := ih (reg.offer b)
    simp only [offerAll, accepted_cons]
    cases hreg : reg.registerBatch b with
    | error e =>
      rw [offer_of_error hreg] at hparses hrecords ⊢
      exact ⟨rs, hparses, hrecords⟩
    | ok reg' =>
      obtain ⟨r, hparse, hinsert⟩ := registerBatch_eq_ok.mp hreg
      rw [offer_of_ok hreg] at hparses hrecords ⊢
      refine ⟨r :: rs, .cons hparse hparses, ?_⟩
      rw [hrecords, (insert_eq_ok hinsert).2.1, List.append_assoc, List.singleton_append]

/-- **A session keeps a registry consistent.** -/
theorem offerAll_consistent {reg : Registry} (hc : reg.Consistent) (batches : List Batch) :
    (reg.offerAll batches).2.Consistent := by
  induction batches generalizing reg with
  | nil => exact hc
  | cons b batches ih =>
    apply ih
    cases hreg : reg.registerBatch b with
    | error e => rwa [offer_of_error hreg]
    | ok reg' =>
      obtain ⟨r, _, hinsert⟩ := registerBatch_eq_ok.mp hreg
      rw [offer_of_ok hreg]
      exact insert_consistent hc hinsert

/-- **Rejected batches leave no trace**: fed the accepted batches only, a session accepts them all
and ends with the same registry. -/
theorem offerAll_accepted (reg : Registry) (batches : List Batch) :
    reg.offerAll (accepted batches (reg.offerAll batches).1) =
      ((accepted batches (reg.offerAll batches).1).map fun _ => .ok (),
        (reg.offerAll batches).2) := by
  induction batches generalizing reg with
  | nil => rfl
  | cons b batches ih =>
    simp only [offerAll, accepted_cons]
    cases hreg : reg.registerBatch b with
    | error e =>
      rw [offer_of_error hreg]
      exact ih reg
    | ok reg' =>
      have hmore := ih reg'
      rw [offer_of_ok hreg]
      simp only [Except.map, Except.isOk, Except.toBool, if_true, offerAll, List.map_cons, hreg,
        offer_of_ok hreg, hmore]

/-- The registered records are those that were there and those of accepted batches. -/
theorem mem_offerAll_records {reg : Registry} {batches : List Batch} {q : Record} :
    q ∈ (reg.offerAll batches).2.records ↔
      q ∈ reg.records ∨ ∃ j b, Admits batches (reg.offerAll batches).1 j b q := by
  obtain ⟨rs, hparses, hrecords⟩ := offerAll_records reg batches
  rw [hrecords, List.mem_append]
  refine or_congr_right ⟨fun hq => ?_, ?_⟩
  · obtain ⟨b, hb, hparse⟩ := Batch.exists_parses hparses hq
    obtain ⟨j, hbatch, houtcome⟩ := mem_accepted.mp hb
    exact ⟨j, b, hbatch, houtcome, hparse⟩
  · rintro ⟨j, b, hbatch, houtcome, hparse⟩
    exact hparse.mem hparses (mem_accepted.mpr ⟨j, hbatch, houtcome⟩)

/-- A session has the outcomes of a shorter one first. -/
theorem offerAll_take (reg : Registry) (batches : List Batch) (i : Nat) :
    (reg.offerAll (batches.take i)).1 = (reg.offerAll batches).1.take i := by
  induction batches generalizing reg i with
  | nil => simp [offerAll]
  | cons b batches ih =>
    cases i with
    | zero => rfl
    | succ i => simp [offerAll, ih]

theorem mem_records_before {batches : List Batch} {i : Nat} {q : Record} :
    q ∈ (empty.offerAll (batches.take i)).2.records ↔
      HeldBefore batches (empty.offerAll batches).1 i q := by
  have hroot : q ∈ empty.records ↔ q = Record.root := by simp [empty, records]
  rw [mem_offerAll_records, offerAll_take, hroot]
  refine or_congr_right ⟨?_, ?_⟩
  · rintro ⟨j, b, hbatch, houtcome, hparse⟩
    have hj : j < i := by
      by_contra hj
      rw [List.getElem?_take_eq_none (by omega)] at hbatch
      cases hbatch
    rw [List.getElem?_take_of_lt hj] at hbatch houtcome
    exact ⟨j, hj, b, hbatch, houtcome, hparse⟩
  · rintro ⟨j, hj, b, hbatch, houtcome, hparse⟩
    refine ⟨j, b, ?_, ?_, hparse⟩
    · rwa [List.getElem?_take_of_lt hj]
    · rwa [List.getElem?_take_of_lt hj]

/-- **The three outcomes of a batch in a session**, told by the batches before it. -/
theorem outcome_cases {batches : List Batch} {i : Nat} {b : Batch} (hb : batches[i]? = some b) :
    let outcomes := (empty.offerAll batches).1
    (∃ e, Record.parse b.source b.startLine b.lines = .error e ∧
      outcomes[i]? = some (.error (.malformed e))) ∨
    (∃ r, b.Parses r ∧ ∃ q, HeldBefore batches outcomes i q ∧ q.key = r.key ∧
      outcomes[i]? = some (.error (.duplicate ⟨r.key, b.source, q.origin⟩))) ∨
    ∃ r, b.Parses r ∧ (∀ q, HeldBefore batches outcomes i q → q.key ≠ r.key) ∧
      outcomes[i]? = some (.ok ()) := by
  intro outcomes
  have houtcome : outcomes[i]? = _ := outcome_at hb
  rcases registerBatch_cases (offerAll_consistent empty_consistent (batches.take i)) b with
    ⟨e, hparse, hreg⟩ | ⟨r, hparse, q, hq, hkey, hreg⟩ | ⟨r, hparse, hfree, reg', _, hreg⟩
  · rw [hreg] at houtcome
    exact .inl ⟨e, hparse, houtcome⟩
  · rw [hreg, hparse.origin] at houtcome
    exact .inr (.inl ⟨r, hparse, q, mem_records_before.mp hq, hkey, houtcome⟩)
  · rw [hreg] at houtcome
    exact .inr (.inr ⟨r, hparse, fun q hq => hfree q (mem_records_before.mpr hq), houtcome⟩)

/-- A key that no registered record has is neither the root's nor that of an accepted batch. -/
theorem free_iff {batches : List Batch} {outcomes : List (Except Error Unit)} {i : Nat}
    {key : Text} :
    (∀ q, HeldBefore batches outcomes i q → q.key ≠ key) ↔
      key ≠ Record.rootKey ∧ ∀ j < i, ∀ b' r', Admits batches outcomes j b' r' → r'.key ≠ key := by
  constructor
  · intro h
    exact ⟨fun hroot => h Record.root (.inl rfl) hroot.symm,
      fun j hj b' r' hadmits => h r' (.inr ⟨j, hj, b', hadmits⟩)⟩
  · rintro ⟨hroot, hearlier⟩ q (rfl | ⟨j, hj, b', hadmits⟩)
    · exact Ne.symm hroot
    · exact hearlier j hj b' q hadmits

theorem isolated_of_error {batches : List Batch} {i : Nat} {e : Error}
    (h : (empty.offerAll batches).1[i]? = some (.error e)) :
    (empty.offerAll (batches.take (i + 1))).2 = (empty.offerAll (batches.take i)).2 := by
  have hi : i < batches.length := by
    rw [← offerAll_length empty batches]
    exact (List.getElem?_eq_some_iff.mp h).1
  have hb := List.getElem?_eq_getElem hi
  rw [outcome_at hb] at h
  rw [offerAll_take_succ hb]
  cases hreg : (empty.offerAll (batches.take i)).2.registerBatch batches[i] with
  | error e' => exact offer_of_error hreg
  | ok reg' => rw [hreg] at h; cases h

/-- **A session accounts for its batches.**  The registry holds the root and the records of exactly
the accepted batches.  A batch is accepted if it parses and its key is free, it is reported
otherwise, and the rejected ones might as well not have been there. -/
theorem offerAll_accounts (batches : List Batch) :
    Accounts batches (empty.offerAll batches).1 (empty.offerAll batches).2 where
  length := offerAll_length _ _
  records := offerAll_records empty batches
  accepted_iff i b hb := by
    simp only [← free_iff]
    rcases outcome_cases hb with ⟨e, hparse, houtcome⟩ | ⟨r, hparse, q, hq, hkey, houtcome⟩ |
      ⟨r, hparse, hfree, houtcome⟩
    · rw [houtcome]
      constructor
      · intro h
        cases h
      · rintro ⟨r, hr, _⟩
        rw [Batch.Parses, hparse] at hr
        cases hr
    · rw [houtcome]
      constructor
      · intro h
        cases h
      · rintro ⟨r', hparse', hfree⟩
        rw [hparse'.unique hparse] at hfree
        exact absurd hkey (hfree q hq)
    · exact ⟨fun _ => ⟨r, hparse, hfree⟩, fun _ => houtcome⟩
  malformed i b e hb hp := by
    rw [outcome_at hb]
    simp [registerBatch, hp, Except.map]
  duplicate i b r hb hparse hrejected := by
    rcases outcome_cases hb with ⟨e, hp, _⟩ | ⟨r', hparse', q, hq, hkey, houtcome⟩ |
      ⟨_, _, _, houtcome⟩
    · rw [Batch.Parses, hp] at hparse
      cases hparse
    · obtain rfl := hparse'.unique hparse
      refine ⟨q.origin, houtcome, ?_⟩
      rcases hq with rfl | ⟨j, hj, b', hadmits⟩
      · exact .inl ⟨hkey.symm, rfl⟩
      · exact .inr ⟨j, hj, b', q, hadmits, hkey, hadmits.parses.origin⟩
    · exact absurd houtcome hrejected
  isolated _ _ h := isolated_of_error h
  replay := offerAll_accepted empty batches

end Registry

end CommentDocs
