import CommentDocs.Proofs.Linking
import Mathlib.Data.Finset.Card
import Mathlib.Logic.Relation

/-!
# Cycles of parents

A record that never reaches the root is reported as part of a cycle.  Following its parents does end
in a cycle, since there are only so many records, but the record itself may stand before it:

* `OnCycle`: following parents returns to the record.  `LeadsIn`: it goes round without it.
* `OnCycle.lost`, `LeadsTo.lost`: neither sort of record reaches the root.
* `Stray.iterate`, `Stray.exists_cycle`: if every parent is registered, going up from a record that
  does not reach the root never stops, and so goes round in the end.
* `link_cycle`: the record that is reported is the first one that leads to a cycle, so whether it
  lies on one depends on the order of registration.
-/

set_option autoImplicit false

namespace CommentDocs.Registry

variable {reg : Registry} {i c p q : Nat} {r : Record}

/-- Following named parents leads from the first record to the second, in any number of steps. -/
def LeadsTo (reg : Registry) : Nat → Nat → Prop := Relation.ReflTransGen reg.ParentIs

/-- Following named parents from the record returns to it after one or more steps. -/
def OnCycle (reg : Registry) (i : Nat) : Prop := Relation.TransGen reg.ParentIs i i

/-- Following named parents leads from the record to a cycle that it does not lie on. -/
structure LeadsIn (reg : Registry) (i : Nat) : Prop where
  off : ¬ reg.OnCycle i
  cycle : ∃ c, reg.LeadsTo i c ∧ reg.OnCycle c

/-! ## Cycles do not reach the root -/

theorem ParentIs.unique (hc : reg.Consistent) (hp : reg.ParentIs i p) (hq : reg.ParentIs i q) :
    p = q := by
  rw [parentIs_iff hc] at hp hq
  exact Option.some.inj (hp.symm.trans hq)

/-- The record above one on a cycle lies on it too. -/
theorem OnCycle.parent (hc : reg.Consistent) (h : reg.OnCycle i) (hp : reg.ParentIs i p) :
    reg.OnCycle p := by
  obtain ⟨q, hq, hback⟩ := Relation.TransGen.head'_iff.mp h
  obtain rfl := hp.unique hc hq
  exact Relation.TransGen.tail' hback hp

theorem OnCycle.lost (hc : reg.Consistent) (h : reg.OnCycle i) : ¬ reg.ReachesRoot i := by
  intro hreach
  induction hreach with
  | root =>
    obtain ⟨p, hp, _⟩ := Relation.TransGen.head'_iff.mp h
    exact hp.1 rfl
  | up hp _ ih => exact ih (h.parent hc hp)

/-- A record reaches the root only if the one above it does. -/
theorem ReachesRoot.parent (hc : reg.Consistent) (h : reg.ReachesRoot i)
    (hp : reg.ParentIs i p) : reg.ReachesRoot p := by
  cases h with
  | root => exact absurd rfl hp.1
  | up hq hreach =>
    obtain rfl := hp.unique hc hq
    exact hreach

theorem LeadsTo.lost (hc : reg.Consistent) (h : reg.LeadsTo i c) (hlost : ¬ reg.ReachesRoot c) :
    ¬ reg.ReachesRoot i := by
  induction h using Relation.ReflTransGen.head_induction_on with
  | refl => exact hlost
  | head hp _ ih => exact fun hreach => ih (hreach.parent hc hp)

/-! ## Away from the root there is a cycle -/

/-- The place above a record; the root stands in where there is none. -/
def nextUp (reg : Registry) (i : Nat) : Nat := (linkedParent? reg.records i).getD 0

/-- Going up from a record that does not reach the root leads to another one. -/
theorem Stray.nextUp (hc : reg.Consistent) (hno : ∀ i r, ¬ reg.Orphan i r) (h : reg.Stray i r) :
    reg.ParentIs i (reg.nextUp i) ∧ ∃ r', reg.Stray (reg.nextUp i) r' := by
  have hi : i ≠ 0 := by
    rintro rfl
    exact h.lost .root
  have hlt := (List.getElem?_eq_some_iff.mp h.registered).1
  obtain ⟨p, _, hp⟩ := (linkedTree_closed hc hno).up i (by simpa using hlt) hi
  have hparent := (parentIs_iff hc).mpr hp
  rw [linkedTree_parent?] at hp
  have hnext : reg.nextUp i = p := by simp [Registry.nextUp, hp]
  rw [hnext]
  exact ⟨hparent, _, List.getElem?_eq_getElem hparent.lt.2,
    fun hreach => h.lost (.up hparent hreach)⟩

/-- **Going up and up** from such a record never leaves them. -/
theorem Stray.iterate (hc : reg.Consistent) (hno : ∀ i r, ¬ reg.Orphan i r) (h : reg.Stray i r)
    (n : Nat) :
    (∃ r', reg.Stray (reg.nextUp^[n] i) r') ∧ reg.LeadsTo i (reg.nextUp^[n] i) := by
  induction n with
  | zero => exact ⟨⟨r, h⟩, .refl⟩
  | succ n ih =>
    obtain ⟨⟨_, hn⟩, hleads⟩ := ih
    obtain ⟨hp, hnext⟩ := hn.nextUp hc hno
    rw [Function.iterate_succ_apply']
    exact ⟨hnext, hleads.tail hp⟩

/-- If going up comes to the same record twice, this record lies on a cycle. -/
theorem Stray.onCycle (hc : reg.Consistent) (hno : ∀ i r, ¬ reg.Orphan i r) (h : reg.Stray i r)
    {m n : Nat} (hlt : m < n) (heq : reg.nextUp^[m] i = reg.nextUp^[n] i) :
    reg.OnCycle (reg.nextUp^[m] i) := by
  obtain ⟨k, rfl⟩ : ∃ k, n = (k + 1) + m := ⟨n - m - 1, by omega⟩
  obtain ⟨⟨_, hm⟩, _⟩ := h.iterate hc hno m
  obtain ⟨hp, _, hnext⟩ := hm.nextUp hc hno
  rw [Function.iterate_add_apply, Function.iterate_succ_apply] at heq
  have hback := (hnext.iterate hc hno k).2
  rw [← heq] at hback
  exact Relation.TransGen.head' hp hback

/-- **A record that does not reach the root leads to a cycle**: going up once more than there are
records comes to one of them twice. -/
theorem Stray.exists_cycle (hc : reg.Consistent) (hno : ∀ i r, ¬ reg.Orphan i r)
    (h : reg.Stray i r) : ∃ c, reg.LeadsTo i c ∧ reg.OnCycle c := by
  have hmaps : ∀ n ∈ Finset.range (reg.records.length + 1),
      reg.nextUp^[n] i ∈ Finset.range reg.records.length := by
    intro n _
    obtain ⟨⟨_, hn⟩, _⟩ := h.iterate hc hno n
    exact Finset.mem_range.mpr (List.getElem?_eq_some_iff.mp hn.registered).1
  obtain ⟨m, _, n, _, hne, heq⟩ :=
    Finset.exists_ne_map_eq_of_card_lt_of_maps_to (by simp) hmaps
  rcases Nat.lt_or_gt_of_ne hne with hlt | hlt
  · exact ⟨_, (h.iterate hc hno m).2, h.onCycle hc hno hlt heq⟩
  · exact ⟨_, (h.iterate hc hno n).2, h.onCycle hc hno hlt heq.symm⟩

/-! ## What is reported -/

theorem OnCycle.lt (h : reg.OnCycle i) : i < reg.records.length := by
  obtain ⟨p, hp, _⟩ := Relation.TransGen.head'_iff.mp h
  exact hp.lt.1

theorem OnCycle.stray (hc : reg.Consistent) (h : reg.OnCycle i) : ∃ r, reg.Stray i r :=
  ⟨_, List.getElem?_eq_getElem h.lt, h.lost hc⟩

theorem LeadsIn.stray (hc : reg.Consistent) (h : reg.LeadsIn i) : ∃ r, reg.Stray i r := by
  obtain ⟨c, hleads, hcycle⟩ := h.cycle
  have hlt : i < reg.records.length := by
    rcases Relation.ReflTransGen.cases_head hleads with rfl | ⟨p, hp, _⟩
    · exact hcycle.lt
    · exact hp.lt.1
  exact ⟨_, List.getElem?_eq_getElem hlt, hleads.lost hc (hcycle.lost hc)⟩

/-- **What a reported cycle says**, for every run of registrations.  The record reported does not
reach the root and leads to a cycle of parents.  It lies on one itself exactly if no record that only
leads to a cycle is registered before all those on cycles. -/
theorem link_cycle (rs : List Record) (key origin : Text)
    (h : (ofRecords rs).link = .error (.cycle key origin)) :
    let reg := ofRecords rs
    ∃ i r, reg.Stray i r ∧ r.key = key ∧ r.origin = origin ∧
      (∃ c, reg.LeadsTo i c ∧ reg.OnCycle c) ∧
      (reg.OnCycle i ↔ ∀ j, reg.LeadsIn j → ∃ c < j, reg.OnCycle c) := by
  intro reg
  have hc : reg.Consistent := ofRecords_consistent rs
  obtain ⟨hno, hstray⟩ := link_eq_cycle hc h
  obtain ⟨i, r, hi, hleast, hlink⟩ := link_of_stray hc hno hstray
  obtain ⟨rfl, rfl⟩ : key = r.key ∧ origin = r.origin := by simpa using h.symm.trans hlink
  have hcycle := hi.exists_cycle hc hno
  refine ⟨i, r, hi, rfl, rfl, hcycle, ?_, ?_⟩
  · intro hon j hj
    obtain ⟨r', hr'⟩ := hj.stray hc
    refine ⟨i, Nat.lt_of_le_of_ne (hleast j r' hr') ?_, hon⟩
    rintro rfl
    exact hj.off hon
  · intro hafter
    by_contra hoff
    obtain ⟨c, hlt, hon⟩ := hafter i ⟨hoff, hcycle⟩
    obtain ⟨r', hr'⟩ := hon.stray hc
    have := hleast c r' hr'
    omega

/-- Two records on a cycle are registered before one that only leads to it. -/
theorem link_cycle_round :
    let record (key parent : Text) : Record :=
      { kind := .node, name := key, key := key, parent := some parent, origin := "svc" }
    let reg := ofRecords [record "a" "b", record "b" "a", record "tail" "a"]
    reg.link = .error (.cycle "a" "svc") ∧ reg.OnCycle 1 ∧
      ∃ i r, reg.Stray i r ∧ r.key = "a" ∧ r.origin = "svc" ∧
        (∃ c, reg.LeadsTo i c ∧ reg.OnCycle c) ∧
        (reg.OnCycle i ↔ ∀ j, reg.LeadsIn j → ∃ c < j, reg.OnCycle c) := by
  intro record reg
  have hlink : reg.link = .error (.cycle "a" "svc") := by decide
  have hup : reg.ParentIs 1 2 := ⟨by decide, record "a" "b", record "b" "a", rfl, rfl, rfl⟩
  have hback : reg.ParentIs 2 1 := ⟨by decide, record "b" "a", record "a" "b", rfl, rfl, rfl⟩
  exact ⟨hlink, .tail (.single hup) hback, link_cycle _ _ _ hlink⟩

/-- Registered before the cycle that it leads to, a record is reported that does not lie on it: none
names it as its parent. -/
theorem link_cycle_tail :
    let record (key parent : Text) : Record :=
      { kind := .node, name := key, key := key, parent := some parent, origin := "svc" }
    let reg := ofRecords [record "tail" "a", record "a" "b", record "b" "a"]
    reg.link = .error (.cycle "tail" "svc") ∧
      ∀ (i : Nat) (r : Record), reg.records[i]? = some r → r.key = "tail" → ¬ reg.OnCycle i := by
  intro record reg
  refine ⟨by decide, fun i r hr hkey hon => ?_⟩
  obtain ⟨_, _, _, child, parent, hchild, hparent, hnamed⟩ := Relation.TransGen.tail'_iff.mp hon
  obtain rfl : r = parent := Option.some.inj (hr.symm.trans hparent)
  have hnone : ∀ q ∈ reg.records, wantedParent q ≠ "tail" := by decide
  exact hnone child (List.mem_of_getElem? hchild) (hnamed.symm.trans hkey)

end CommentDocs.Registry
