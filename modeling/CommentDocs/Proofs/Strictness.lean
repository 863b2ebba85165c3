import CommentDocs.Proofs.Collection
import CommentDocs.Proofs.Rejections
import CommentDocs.Run.Generation

/-!
# Strict and lenient generation

A strict generation stops at the first batch that is rejected, a lenient one reports it and goes
on.  Up to that batch both are in the same state, which is that of a session fed with the same
batches.

* `Scan.Reads`: what reading batches makes of a scan, as long as nothing stops it; it is closed
  under going on (`Reads.trans`), so each step of the reading has a lemma of its own.
* `batches_error`, `files_error`: which error stops the reading, if any.
* `batches_reads`, `files_reads`: what a reading that was not stopped has come to.
* `files_strict`: a strict reading that was not stopped is the lenient one.
* `generate_agrees`: both generations side by side, and what a summary counts.
-/

set_option autoImplicit false

namespace CommentDocs

namespace Session

/-- The errors of the rejected batches, by the outcome of each batch. -/
def rejections (outcomes : List (Except Error Unit)) : List Error :=
  outcomes.filterMap fun o =>
    match o with
    | .ok _ => none
    | .error e => some e

@[simp] theorem rejections_nil : rejections [] = [] := rfl

@[simp] theorem rejections_ok (u : Unit) (outcomes : List (Except Error Unit)) :
    rejections (.ok u :: outcomes) = rejections outcomes := rfl

@[simp] theorem rejections_error (e : Error) (outcomes : List (Except Error Unit)) :
    rejections (.error e :: outcomes) = e :: rejections outcomes := rfl

@[simp] theorem rejections_append (first more : List (Except Error Unit)) :
    rejections (first ++ more) = rejections first ++ rejections more :=
  List.filterMap_append

end Session

namespace Event

/-- The errors of the rejected batches, by what was reported. -/
def rejections (events : List Event) : List Error :=
  events.filterMap fun event =>
    match event with
    | .rejected e => some e
    | _ => none

@[simp] theorem rejections_append (first more : List Event) :
    rejections (first ++ more) = rejections first ++ rejections more :=
  List.filterMap_append

end Event

namespace Sources

/-- The files that can be read as text. -/
def readable (w : Workspace) (files : List Text) : List Text :=
  files.filter fun file => (w.readText file).isOk

/-- The batches of the files, file by file. -/
def batches (w : Workspace) (marker : Text) (files : List Text) : List Batch :=
  files.flatMap fun file =>
    match w.readText file with
    | .ok text => Batch.extract marker file text
    | .error _ => []

/-- A session that is fed with the batches of the files. -/
def session (w : Workspace) (marker : Text) (files : List Text) :
    List (Except Error Unit) × Registry :=
  Registry.empty.offerAll (batches w marker files)

section

variable {w : Workspace} {file : Text} (marker : Text) (more : List Text)

theorem readable_cons_ok {text : Text} (h : w.readText file = .ok text) :
    readable w (file :: more) = file :: readable w more :=
  List.filter_cons_of_pos (by rw [h]; rfl)

theorem readable_cons_error {e : FileError} (h : w.readText file = .error e) :
    readable w (file :: more) = readable w more :=
  List.filter_cons_of_neg (by rw [h]; exact Bool.false_ne_true)

theorem batches_cons_ok {text : Text} (h : w.readText file = .ok text) :
    batches w marker (file :: more) =
      Batch.extract marker file text ++ batches w marker more := by
  rw [batches, List.flatMap_cons, h]
  rfl

theorem batches_cons_error {e : FileError} (h : w.readText file = .error e) :
    batches w marker (file :: more) = batches w marker more := by
  rw [batches, List.flatMap_cons, h]
  rfl

end

end Sources

/-! ## Sessions -/

namespace Registry

open Session

/-- A session may be interrupted between two batches. -/
theorem offerAll_append (reg : Registry) (first more : List Batch) :
    reg.offerAll (first ++ more) =
      ((reg.offerAll first).1 ++ ((reg.offerAll first).2.offerAll more).1,
        ((reg.offerAll first).2.offerAll more).2) := by
  induction first generalizing reg with
  | nil => rfl
  | cons b first ih => simp only [List.cons_append, offerAll, ih]

/-- **Every batch is registered or rejected.** -/
theorem offerAll_size (reg : Registry) (batches : List Batch) :
    (reg.offerAll batches).2.size + (rejections (reg.offerAll batches).1).length =
      reg.size + batches.length := by
  induction batches generalizing reg with
  | nil => rfl
  | cons b batches ih =>
    have hmore := ih (reg.offer b)
    rw [offerAll, List.length_cons]
    cases hreg : reg.registerBatch b with
    | error e =>
      rw [offer_of_error hreg] at hmore ⊢
      simp only [Except.map, rejections_error, List.length_cons]
      omega
    | ok reg' =>
      obtain ⟨r, _, hinsert⟩ := registerBatch_eq_ok.mp hreg
      have hsize : reg'.size = reg.size + 1 := by
        rw [← records_length, ← records_length, (insert_eq_ok hinsert).2.1, List.length_append]
        rfl
      rw [offer_of_ok hreg] at hmore ⊢
      simp only [Except.map, rejections_ok]
      omega

end Registry

/-! ## Scans -/

namespace Scan

open Session

/-- What reading the batches, and a number of files, makes of a scan when nothing stops it. -/
structure Reads (files : Nat) (bs : List Batch) (s s' : Scan) : Prop where
  registry : s'.registry = (s.registry.offerAll bs).2
  files : s'.summary.files = s.summary.files + files
  batches : s'.summary.batches = s.summary.batches + bs.length
  rejected : s'.summary.rejected =
    s.summary.rejected + (rejections (s.registry.offerAll bs).1).length
  reported : Event.rejections s'.events =
    Event.rejections s.events ++ rejections (s.registry.offerAll bs).1

theorem Reads.refl (s : Scan) : Reads 0 [] s s where
  registry := rfl
  files := rfl
  batches := rfl
  rejected := rfl
  reported := (List.append_nil _).symm

/-- What is read first and what is read then, one after the other. -/
theorem Reads.trans {m n : Nat} {first more : List Batch} {s s' s'' : Scan}
    (h : Reads m first s s') (h' : Reads n more s' s'') : Reads (m + n) (first ++ more) s s'' where
  registry := by rw [h'.registry, h.registry, Registry.offerAll_append]
  files := by rw [h'.files, h.files, Nat.add_assoc]
  batches := by rw [h'.batches, h.batches, List.length_append, Nat.add_assoc]
  rejected := by
    rw [h'.rejected, h.rejected, h.registry, Registry.offerAll_append, rejections_append,
      List.length_append, Nat.add_assoc]
  reported := by
    rw [h'.reported, h.reported, h.registry, Registry.offerAll_append, rejections_append,
      List.append_assoc]

/-- Nothing that is reported of a registered record is a rejection. -/
theorem registered_rejections (reg : Registry) : Event.rejections (registered reg) = [] := by
  unfold registered
  split
  · rfl
  · split <;> rfl

theorem Reads.accepted {s : Scan} {b : Batch} {reg : Registry}
    (h : s.registry.registerBatch b = .ok reg) :
    Reads 0 [b] s ⟨reg, { s.summary with batches := s.summary.batches + 1 },
      s.events ++ registered reg⟩ where
  registry := (Registry.offer_of_ok h).symm
  files := rfl
  batches := rfl
  rejected := by simp [Registry.offerAll, h, Except.map]
  reported := by simp [Registry.offerAll, h, Except.map, registered_rejections]

theorem Reads.refused {s : Scan} {b : Batch} {e : Error}
    (h : s.registry.registerBatch b = .error e) :
    Reads 0 [b] s ⟨s.registry,
      { s.summary with
        batches := s.summary.batches + 1
        rejected := s.summary.rejected + 1 },
      s.events ++ [.rejected e]⟩ where
  registry := (Registry.offer_of_error h).symm
  files := rfl
  batches := rfl
  rejected := by simp [Registry.offerAll, h, Except.map]
  reported := by simp [Registry.offerAll, h, Except.map, Event.rejections]

/-- A file that is passed over is reported, but not as a rejection. -/
theorem Reads.unreadable (s : Scan) (file : Text) (reason : String) :
    Reads 0 [] s { s with events := s.events ++ [.unreadable file reason] } where
  registry := rfl
  files := rfl
  batches := rfl
  rejected := rfl
  reported := by simp [Registry.offerAll, Event.rejections]

theorem Reads.opened (s : Scan) (file : Text) (n : Nat) :
    Reads 1 [] s
      { s with
        summary := { s.summary with files := s.summary.files + 1 }
        events := s.events ++ [.scanned file n] } where
  registry := rfl
  files := rfl
  batches := rfl
  rejected := rfl
  reported := by simp [Registry.offerAll, Event.rejections]

/-! ### Batches -/

/-- **A strict reading is stopped by the first rejection**, a lenient one by none. -/
theorem batches_error (strict : Bool) (s : Scan) (bs : List Batch) :
    (s.batches strict bs).2 =
      if strict then (rejections (s.registry.offerAll bs).1).head? else none := by
  induction bs generalizing s with
  | nil => cases strict <;> rfl
  | cons b bs ih =>
    rw [batches, Registry.offerAll]
    cases hreg : s.registry.registerBatch b with
    | ok reg =>
      simp only [ih, Registry.offer_of_ok hreg]
      rfl
    | error e =>
      cases strict with
      | true => rfl
      | false =>
        simp only [Bool.false_eq_true, if_false, ih]

/-- **A reading that is not stopped** has read all batches. -/
theorem batches_reads {strict : Bool} {s : Scan} {bs : List Batch}
    (h : (s.batches strict bs).2 = none) : Reads 0 bs s (s.batches strict bs).1 := by
  induction bs generalizing s with
  | nil => exact .refl s
  | cons b bs ih =>
    rw [batches] at h ⊢
    cases hreg : s.registry.registerBatch b with
    | ok reg =>
      simp only [hreg] at h ⊢
      exact (Reads.accepted hreg).trans (ih h)
    | error e =>
      cases strict with
      | true => simp [hreg] at h
      | false =>
        simp only [hreg, Bool.false_eq_true, if_false] at h ⊢
        exact (Reads.refused hreg).trans (ih h)

/-- Both readings take the same steps until a batch is rejected. -/
theorem batches_strict {s : Scan} {bs : List Batch} (h : (s.batches true bs).2 = none) :
    s.batches true bs = s.batches false bs := by
  induction bs generalizing s with
  | nil => rfl
  | cons b bs ih =>
    rw [batches] at h ⊢
    rw [batches]
    cases hreg : s.registry.registerBatch b with
    | ok reg =>
      simp only [hreg] at h ⊢
      exact ih h
    | error e => simp [hreg] at h

/-! ### Files -/

theorem source_error (settings : Settings) (s : Scan) (file text : Text) :
    (s.source settings file text).2 =
      if settings.strict then
        (rejections (s.registry.offerAll (Batch.extract settings.marker file text)).1).head?
      else none :=
  batches_error _ _ _

theorem source_reads {settings : Settings} {s : Scan} {file text : Text}
    (h : (s.source settings file text).2 = none) :
    Reads 1 (Batch.extract settings.marker file text) s (s.source settings file text).1 :=
  (Reads.opened s file _).trans (batches_reads h)

theorem source_strict {settings : Settings} {s : Scan} {file text : Text}
    (h : (s.source { settings with strict := true } file text).2 = none) :
    s.source { settings with strict := true } file text =
      s.source { settings with strict := false } file text :=
  batches_strict h

/-- A file that is read without being stopped, and the files after it. -/
theorem files_cons_ok {w : Workspace} {settings : Settings} {s : Scan} {file text : Text}
    (more : List Text) (htext : w.readText file = .ok text)
    (h : (s.source settings file text).2 = none) :
    s.files w settings (file :: more) = (s.source settings file text).1.files w settings more := by
  simp only [files, htext]
  split
  · rename_i hsource
    rw [hsource] at h
    cases h
  · rename_i hsource
    rw [hsource]

theorem files_cons_stopped {w : Workspace} {settings : Settings} {s : Scan} {file text : Text}
    {e : Error} (more : List Text) (htext : w.readText file = .ok text)
    (h : (s.source settings file text).2 = some e) :
    s.files w settings (file :: more) = s.source settings file text := by
  simp only [files, htext]
  split
  · rename_i hsource
    rw [hsource]
  · rename_i hsource
    rw [hsource] at h
    cases h

theorem files_cons_error {w : Workspace} {settings : Settings} {s : Scan} {file : Text}
    {e : FileError} (more : List Text) (htext : w.readText file = .error e) :
    s.files w settings (file :: more) =
      files w settings { s with events := s.events ++ [.unreadable file e.message] } more := by
  simp only [files, htext]

/-- **A strict reading of files is stopped by the first rejection**, a lenient one by none. -/
theorem files_error (w : Workspace) (settings : Settings) (s : Scan) (paths : List Text) :
    (s.files w settings paths).2 =
      if settings.strict then
        (rejections (s.registry.offerAll (Sources.batches w settings.marker paths)).1).head?
      else none := by
  induction paths generalizing s with
  | nil => cases settings.strict <;> rfl
  | cons file more ih =>
    cases htext : w.readText file with
    | error e => rw [files_cons_error more htext, ih, Sources.batches_cons_error _ more htext]
    | ok text =>
      have hsource := source_error settings s file text
      rw [Sources.batches_cons_ok _ more htext, Registry.offerAll_append, rejections_append]
      -- a rejection in this file comes before all those in the files after it
      cases hstop : (s.source settings file text).2 with
      | some e =>
        rw [files_cons_stopped more htext hstop, hstop]
        rw [hstop] at hsource
        split at hsource
        · rw [if_pos ‹_›, List.head?_append, ← hsource]
          rfl
        · cases hsource
      | none =>
        rw [files_cons_ok more htext hstop, ih, (source_reads hstop).registry]
        rw [hstop] at hsource
        split
        · rw [if_pos ‹_›] at hsource
          rw [List.head?_append, ← hsource]
          rfl
        · rfl

/-- **A reading of files that is not stopped** has read all batches of those that are text. -/
theorem files_reads {w : Workspace} {settings : Settings} {s : Scan} {paths : List Text}
    (h : (s.files w settings paths).2 = none) :
    Reads (Sources.readable w paths).length (Sources.batches w settings.marker paths) s
      (s.files w settings paths).1 := by
  induction paths generalizing s with
  | nil => exact .refl s
  | cons file more ih =>
    cases htext : w.readText file with
    | error e =>
      rw [files_cons_error more htext] at h ⊢
      rw [Sources.readable_cons_error more htext, Sources.batches_cons_error _ more htext,
        ← Nat.zero_add (List.length _)]
      exact (Reads.unreadable s file e.message).trans (ih h)
    | ok text =>
      cases hstop : (s.source settings file text).2 with
      | some e =>
        rw [files_cons_stopped more htext hstop, hstop] at h
        cases h
      | none =>
        rw [files_cons_ok more htext hstop] at h ⊢
        rw [Sources.readable_cons_ok more htext, Sources.batches_cons_ok _ more htext,
          List.length_cons, Nat.add_comm]
        exact (source_reads hstop).trans (ih h)

/-- **A strict reading that is not stopped is the lenient one.** -/
theorem files_strict {w : Workspace} {settings : Settings} {s : Scan} {paths : List Text}
    (h : (s.files w { settings with strict := true } paths).2 = none) :
    s.files w { settings with strict := true } paths =
      s.files w { settings with strict := false } paths := by
  induction paths generalizing s with
  | nil => rfl
  | cons file more ih =>
    cases htext : w.readText file with
    | error e =>
      rw [files_cons_error more htext] at h ⊢
      rw [files_cons_error more htext]
      exact ih h
    | ok text =>
      cases hstop : (s.source { settings with strict := true } file text).2 with
      | some e =>
        rw [files_cons_stopped more htext hstop, hstop] at h
        cases h
      | none =>
        have hsame := source_strict hstop
        rw [files_cons_ok more htext hstop] at h ⊢
        rw [files_cons_ok more htext (by rw [← hsame]; exact hstop), ← hsame]
        exact ih h

/-! ## Documents -/

/-- Before anything is read. -/
def start (found : List Found) : Scan := { events := (Sources.passedOver found).map .excluded }

theorem start_rejections (found : List Found) : Event.rejections (start found).events = [] := by
  simp [start, Event.rejections, List.filterMap_map]

/-- Links that are made late are no rejections. -/
theorem linkEvents_rejections (reg : Registry) : Event.rejections reg.linkEvents = [] := by
  unfold Event.rejections Registry.linkEvents
  rw [List.filterMap_filterMap, List.filterMap_eq_nil_iff]
  rintro ⟨i, p⟩ _
  simp only
  split <;> rfl

theorem document_rejections (settings : Settings) (s : Scan) :
    Event.rejections (s.document settings).events = Event.rejections s.events := by
  unfold document
  cases s.registry.link with
  | error e => simp [linkEvents_rejections]
  | ok tree =>
    have htree (records late : Nat) : Event.rejections [.treeLinked records late] = [] := rfl
    simp [linkEvents_rejections, htree]

theorem document_eq_ok {settings : Settings} {s : Scan} {content : Text} {summary : Summary}
    (h : (s.document settings).result = .ok (content, summary)) :
    ∃ tree, s.registry.link = .ok tree ∧ content = settings.format.render tree ∧
      summary = s.summary := by
  unfold document at h
  cases hlink : s.registry.link with
  | error e => simp [hlink] at h
  | ok tree =>
    simp only [hlink, Except.ok.injEq, Prod.mk.injEq] at h
    exact ⟨tree, rfl, h.1.symm, h.2.symm⟩

end Scan

section

variable {w : Workspace} {settings : Settings} {root : Text} {found : List Found}

theorem generate_missing (h : Sources.find w settings root = none) :
    generate w settings root = ⟨[], .error (.missing root)⟩ := by
  simp only [generate, h]

theorem generate_stopped {e : Error} (hfound : Sources.find w settings root = some found)
    (h : ((Scan.start found).files w settings (Sources.sorted found)).2 = some e) :
    (generate w settings root).result = .error (.rejected e) := by
  simp only [generate, hfound]
  split
  · rename_i hfiles
    rw [Scan.start, hfiles] at h
    cases h
    rfl
  · rename_i hfiles
    rw [Scan.start, hfiles] at h
    cases h

theorem generate_done (hfound : Sources.find w settings root = some found)
    (h : ((Scan.start found).files w settings (Sources.sorted found)).2 = none) :
    generate w settings root =
      ((Scan.start found).files w settings (Sources.sorted found)).1.document settings := by
  simp only [generate, hfound]
  split
  · rename_i hfiles
    rw [Scan.start, hfiles] at h
    cases h
  · rename_i hfiles
    rw [Scan.start, hfiles]

/-- Strictness does not change what is found. -/
theorem find_strict (w : Workspace) (settings : Settings) (strict : Bool) (root : Text) :
    Sources.find w { settings with strict := strict } root = Sources.find w settings root := by
  apply Sources.find_congr
  exact ⟨rfl, rfl⟩

/-- A tree has the root and the records of the batches that were not rejected. -/
theorem size_of_session {files : List Text} {tree : Tree} {marker : Text}
    (h : (Sources.session w marker files).2.link = .ok tree) :
    tree.size + (Session.rejections (Sources.session w marker files).1).length =
      1 + (Sources.batches w marker files).length := by
  have hc := Registry.offerAll_consistent Registry.empty_consistent
    (Sources.batches w marker files)
  have hrecords := congrArg List.length (Registry.link_records hc h)
  have hsize : tree.size = (Sources.session w marker files).2.size := by
    rw [Tree.records, List.length_map, Registry.records_length] at hrecords
    exact hrecords
  rw [hsize]
  exact Registry.offerAll_size Registry.empty (Sources.batches w marker files)

end

open Session

/-- What the summary of a generation counts. -/
structure Summary.Counts (w : Workspace) (settings : Settings) (paths : List Text) (tree : Tree)
    (summary : Summary) : Prop where
  files : summary.files = (Sources.readable w paths).length
  batches : summary.batches = (Sources.batches w settings.marker paths).length
  rejected : summary.rejected =
    (rejections (Sources.session w settings.marker paths).1).length
  /-- The tree has the root and the records of the batches that were not rejected. -/
  records : tree.size + summary.rejected = 1 + summary.batches
  strict : settings.strict = true → summary.rejected = 0

/-- How the strict and the lenient generation from the same sources go together. -/
structure Agreement (w : Workspace) (settings : Settings) (root : Text) : Prop where
  /-- Files are read in the order of paths. -/
  sorted : ∀ files, Sources.collect w settings root = .ok files →
    files.Pairwise fun a b => Path.components a ≤ Path.components b
  /-- The lenient one reports the rejections of a session that is fed with their batches. -/
  reported : ∀ files, Sources.collect w settings root = .ok files →
    Event.rejections (generate w { settings with strict := false } root).events =
      rejections (Sources.session w settings.marker files).1
  /-- If it reports none, the strict one is the same. -/
  same : Event.rejections (generate w { settings with strict := false } root).events = [] →
    generate w { settings with strict := true } root =
      generate w { settings with strict := false } root
  /-- Otherwise the strict one fails with the first of them, and in its words. -/
  first : ∀ e more,
    Event.rejections (generate w { settings with strict := false } root).events = e :: more →
    (generate w { settings with strict := true } root).result = .error (.rejected e) ∧
      (generate w { settings with strict := true } root).result.mapError GenerationError.failure =
        .error ⟨"Batch rejected in strict mode", [e.message]⟩
  /-- Either of them, where it succeeds, shows the tree of that session and counts it. -/
  counts : ∀ content summary, (generate w settings root).result = .ok (content, summary) →
    ∃ files tree, Sources.collect w settings root = .ok files ∧
      (Sources.session w settings.marker files).2.link = .ok tree ∧
      content = settings.format.render tree ∧ Summary.Counts w settings files tree summary

/-- A reading that was not stopped counts what the session does with the batches. -/
theorem counts_of_done {w : Workspace} {settings : Settings} {found : List Found}
    {paths : List Text} {tree : Tree} (h : ((Scan.start found).files w settings paths).2 = none)
    (hlink : (Sources.session w settings.marker paths).2.link = .ok tree) :
    Summary.Counts w settings paths tree
      ((Scan.start found).files w settings paths).1.summary := by
  have herror := Scan.files_error w settings (Scan.start found) paths
  rw [h] at herror
  have hreads := Scan.files_reads h
  have hfiles : _ = 0 + _ := hreads.files
  have hbatches : _ = 0 + _ := hreads.batches
  have hrejected : _ = 0 + _ := hreads.rejected
  rw [Nat.zero_add] at hfiles hbatches hrejected
  refine ⟨hfiles, hbatches, hrejected, ?_, ?_⟩
  · rw [hrejected, hbatches]
    exact size_of_session hlink
  · intro hstrict
    rw [if_pos hstrict] at herror
    rw [hrejected, List.length_eq_zero_iff]
    exact List.head?_eq_none_iff.mp herror.symm

theorem lenient_done (w : Workspace) (settings : Settings) (found : List Found) :
    ((Scan.start found).files w { settings with strict := false } (Sources.sorted found)).2 =
      none :=
  Scan.files_error _ _ _ _

theorem lenient_rejections {w : Workspace} {settings : Settings} {root : Text}
    {found : List Found} (hfound : Sources.find w settings root = some found) :
    Event.rejections (generate w { settings with strict := false } root).events =
      rejections (Sources.session w settings.marker (Sources.sorted found)).1 := by
  rw [← find_strict w settings false root] at hfound
  rw [generate_done hfound (lenient_done w settings found), Scan.document_rejections,
    (Scan.files_reads (lenient_done w settings found)).reported, Scan.start_rejections, List.nil_append]
  rfl

/-- The first rejection of the lenient reading stops the strict one. -/
theorem strict_stops {w : Workspace} {settings : Settings} {root : Text}
    {found : List Found} (hfound : Sources.find w settings root = some found) :
    ((Scan.start found).files w { settings with strict := true } (Sources.sorted found)).2 =
      (Event.rejections (generate w { settings with strict := false } root).events).head? := by
  rw [lenient_rejections hfound]
  exact Scan.files_error _ _ _ _

/-- **Strict and lenient generation agree** up to the first batch that is rejected. -/
theorem generate_agrees (w : Workspace) (settings : Settings) (root : Text) :
    Agreement w settings root where
  sorted _ h := Sources.collect_sorted h
  reported files h := by
    obtain ⟨found, hfound, rfl⟩ := Sources.collect_eq_ok.mp h
    exact lenient_rejections hfound
  same h := by
    cases hfound : Sources.find w settings root with
    | none =>
      rw [generate_missing ((find_strict w settings true root).trans hfound),
        generate_missing ((find_strict w settings false root).trans hfound)]
    | some found =>
      have hstrict := strict_stops hfound
      rw [h] at hstrict
      rw [generate_done ((find_strict w settings true root).trans hfound) hstrict,
        generate_done ((find_strict w settings false root).trans hfound)
          (lenient_done w settings found),
        Scan.files_strict hstrict]
      rfl
  first e more h := by
    cases hfound : Sources.find w settings root with
    | none =>
      rw [generate_missing ((find_strict w settings false root).trans hfound)] at h
      cases h
    | some found =>
      have hstrict := strict_stops hfound
      rw [h] at hstrict
      have hresult := generate_stopped ((find_strict w settings true root).trans hfound) hstrict
      exact ⟨hresult, by rw [hresult]; rfl⟩
  counts content summary h := by
    cases hfound : Sources.find w settings root with
    | none =>
      rw [generate_missing hfound] at h
      cases h
    | some found =>
      cases hstop : ((Scan.start found).files w settings (Sources.sorted found)).2 with
      | some e =>
        rw [generate_stopped hfound hstop] at h
        cases h
      | none =>
        rw [generate_done hfound hstop] at h
        obtain ⟨tree, hlink, hcontent, rfl⟩ := Scan.document_eq_ok h
        -- the reading starts with the root alone, so its registry is that of the session
        rw [(Scan.files_reads hstop).registry] at hlink
        exact ⟨Sources.sorted found, tree, Sources.collect_eq_ok.mpr ⟨found, hfound, rfl⟩, hlink,
          hcontent, counts_of_done hstop hlink⟩

/-- A key that is taken, among files listed out of order and one that is no text. -/
theorem generate_agrees_duplicate :
    let taken : Error := .duplicate ⟨"a", "./a.c", "./a.c"⟩
    let w : Workspace := ⟨.directory
      [("b.c", .file "//* @Node b\n//* @Parent a\n".toUTF8), ("c.c", .file ⟨#[255]⟩),
        ("a.c", .file "//* @Node a\n//* @Parent root\n\n//* @Node a\n//* @Parent root".toUTF8)],
      []⟩
    Event.rejections (generate w {} ".").events = [taken] ∧
      (generate w { strict := true } ".").result = .error (.rejected taken) ∧
      (generate w { strict := true } ".").result.mapError GenerationError.failure =
        .error ⟨"Batch rejected in strict mode",
          ["./a.c: record with identity \"a\" already exists (first defined in ./a.c)"]⟩ ∧
      ∃ content tree, (generate w {} ".").result = .ok (content, ⟨2, 3, 1⟩) ∧
        content = Format.markdown.render tree ∧ tree.size = 3 := by
  intro taken w
  have hagrees := generate_agrees w {} "."
  have hfound : Sources.find w {} "." =
      some [.source "./b.c", .source "./c.c", .source "./a.c"] := by decide +kernel
  have hsorted : Sources.sorted [.source "./b.c", .source "./c.c", .source "./a.c"] =
      ["./a.c".toList, "./b.c".toList, "./c.c".toList] := by
    simp [Sources.sorted, List.mergeSort, Path.le, Path.components, Path.parts, Path.isNaming,
      Path.componentsLe, Path.textLe]
  have hrejections : Event.rejections (generate w {} ".").events = [taken] := by
    refine (hagrees.reported _ (Sources.collect_eq_ok.mpr ⟨_, hfound, hsorted⟩)).trans ?_
    decide +kernel
  have hsummary : (generate w {} ".").result.toOption.map (·.2) = some ⟨2, 3, 1⟩ := by
    rw [generate_done hfound (lenient_done w {} _), hsorted]
    decide +kernel
  have hmessage : taken.message =
      "./a.c: record with identity \"a\" already exists (first defined in ./a.c)" := by
    decide +kernel
  obtain ⟨hstopped, hfailure⟩ := hagrees.first taken [] hrejections
  rw [hmessage] at hfailure
  refine ⟨hrejections, hstopped, hfailure, ?_⟩
  cases hresult : (generate w {} ".").result with
  | error f =>
    rw [hresult] at hsummary
    cases hsummary
  | ok shown =>
    obtain ⟨content, summary⟩ := shown
    rw [hresult] at hsummary
    obtain rfl : summary = ⟨2, 3, 1⟩ := Option.some.inj hsummary
    obtain ⟨files, tree, _, _, hcontent, hcounts⟩ := hagrees.counts content _ hresult
    have hrecords : tree.size + 1 = 1 + 3 := hcounts.records
    exact ⟨content, tree, rfl, hcontent, by omega⟩

end CommentDocs
