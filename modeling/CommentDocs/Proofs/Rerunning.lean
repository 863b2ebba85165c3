import CommentDocs.Proofs.Searching
import CommentDocs.Proofs.Strictness
import CommentDocs.Run

/-!
# Running again

A run writes into the tree that the next one searches.  If what it writes is neither a source nor
the root nor the file of the settings, the next run finds the same settings, the same sources and
the same texts, and so it writes the same once more.

* `Workspace.Leaves`: what writing the output leaves of a workspace (`writeOutput_leaves`).
* `generate_eq_ok`: a document depends on the batches of the sources alone.  So `generate_again`: it
  is the same after the output was written.
* `Arguments.settingsIn_again`: so are the settings.
* `runCommand_again`: running again succeeds and changes nothing.
-/

set_option autoImplicit false

namespace CommentDocs

namespace Workspace

open FileTree Sources

variable {w w' : Workspace} {path output : Text} {names : List Text} {name : Text}

/-! ## What the output leaves -/

/-- Both paths stand for the same place. -/
def SamePlace (w : Workspace) (path path' : Text) : Prop :=
  ∃ names, w.names? path = some names ∧ w.names? path' = some names

instance (w : Workspace) (path path' : Text) : Decidable (w.SamePlace path path') :=
  decidable_of_iff (w.names? path ≠ none ∧ w.names? path = w.names? path') <| by
    unfold SamePlace
    cases w.names? path <;> simp [eq_comm]

/-- The files can be read as texts or not, and are the same texts. -/
def SameTexts (w w' : Workspace) (files : List Text) : Prop :=
  ∀ path ∈ files, ∀ text, w'.readText path = .ok text ↔ w.readText path = .ok text

/-- The workspace after the output was written to the entry `name` of the directory at the end of
`names`. -/
structure Leaves (output : Text) (names : List Text) (name : Text) (w w' : Workspace) : Prop where
  grows : w.Grows (names ++ [name]) w'
  ends : Path.EndsWith output name
  entry : isEntryName name = true
  place : w'.names? output = some (names ++ [name])
  file : ∃ content, w'.top.kindAt? (names ++ [name]) = some (.file content)
  unseen : ∀ s : Settings, s.accepts output = false → Unseen s w w'

theorem Leaves.off (h : w.Leaves output names name w') (hapart : ¬ w'.SamePlace output path) :
    w'.names? path ≠ some (names ++ [name]) :=
  fun hpath => hapart ⟨_, h.place, hpath⟩

theorem Leaves.isFileAt (h : w.Leaves output names name w') : w'.isFileAt output = true := by
  obtain ⟨content, hfile⟩ := h.file
  exact isFileAt_iff.mpr ⟨_, content, h.place, hfile⟩

end Workspace

namespace Arguments

open Workspace

variable {w w' : Workspace} {output content : Text}

theorem makeRoom_eq_ok : makeRoom w output = .ok w' ↔
    Path.parent? output = none ∧ w = w' ∨
      ∃ dir, Path.parent? output = some dir ∧ w.createDirs dir = .ok w' := by
  unfold makeRoom
  cases Path.parent? output with
  | none => simp
  | some dir =>
    simp only [reduceCtorEq, false_and, Option.some.injEq, exists_eq_left', false_or]
    split <;> simp_all

theorem writeOutput_eq_done : writeOutput w output content = (none, w') ↔
    ∃ w₁, makeRoom w output = .ok w₁ ∧ w₁.write output (String.ofList content).toUTF8 = .ok w' := by
  unfold writeOutput
  cases makeRoom w output with
  | error f => simp
  | ok w₁ =>
    simp only [Except.ok.injEq, exists_eq_left']
    cases w₁.write output (String.ofList content).toUTF8 <;> simp

theorem makeRoom_makes (h : makeRoom w output = .ok w') :
    Relation.ReflTransGen MakesDirectory w w' := by
  rcases makeRoom_eq_ok.mp h with ⟨_, rfl⟩ | ⟨dir, _, hdirs⟩
  · exact .refl
  · exact (createDirs_puts hdirs).1

/-- There is room for the output when there has been made some, whatever was written since. -/
theorem makeRoom_again {target : List Text} {w₁ : Workspace} (h : makeRoom w output = .ok w₁)
    (hgrows : w₁.Grows target w') : makeRoom w' output = .ok w' := by
  rw [makeRoom_eq_ok] at h ⊢
  rcases h with ⟨hparent, _⟩ | ⟨dir, hparent, hdirs⟩
  · exact .inl ⟨hparent, rfl⟩
  · refine .inr ⟨dir, hparent, createDirs_again ?_⟩
    by_cases hdir : dir = []
    · exact .inl hdir
    · exact .inr (hgrows.isDirectoryAt ((createDirs_puts hdirs).2 hdir))

/-- **What writing the output leaves.** -/
theorem writeOutput_leaves (h : writeOutput w output content = (none, w')) :
    ∃ names name, w.Leaves output names name w' := by
  obtain ⟨w₁, hroom, hwrite⟩ := writeOutput_eq_done.mp h
  obtain ⟨names, name, hputs, hends, hentry, hplace⟩ := write_puts hwrite
  have hmakes := makeRoom_makes hroom
  exact ⟨names, name,
    { grows := (grows_of_makes hmakes _).trans hputs.grows
      ends := hends
      entry := hentry
      place := hplace
      file := ⟨_, by rw [hputs.kindAt?, if_pos rfl]; rfl⟩
      unseen := fun s haccepts =>
        (unseen_of_makes hmakes s).trans (hputs.unseen_file hends hentry haccepts) }⟩

/-- **Writing the same output once more changes nothing.** -/
theorem writeOutput_again (h : writeOutput w output content = (none, w')) :
    writeOutput w' output content = (none, w') := by
  obtain ⟨w₁, hroom, hwrite⟩ := writeOutput_eq_done.mp h
  obtain ⟨names, name, hputs, _⟩ := write_puts hwrite
  exact writeOutput_eq_done.mpr ⟨w', makeRoom_again hroom hputs.grows, write_again hwrite⟩

end Arguments

/-! ## The document -/

namespace Sources

open FileTree Workspace

variable {s : Settings} {w w' : Workspace} {root output : Text} {names : List Text} {name : Text}
  {found : List Found}

theorem find_lookup (h : find w s root = some found) : ∃ t, w.lookup root = .ok t := by
  unfold find at h
  split at h
  · exact ⟨_, ‹_›⟩
  · exact ⟨_, ‹_›⟩
  · cases h

/-- **The same sources are found** after the output was written. -/
theorem find_again (h : w.Leaves output names name w') (haccepts : s.accepts output = false)
    (hroot : ¬ w'.SamePlace output root) (hfound : find w s root = some found) :
    ∃ found', find w' s root = some found' ∧ sorted found' = sorted found := by
  obtain ⟨t, ht⟩ := find_lookup hfound
  obtain ⟨spot, hspot, hdescend⟩ := lookup_eq_ok.mp ht
  have hspot' := h.grows.names? hspot
  unfold find at hfound ⊢
  rw [ht] at hfound
  cases t with
  | file content =>
    cases hfound
    have hkeeps := h.grows.keeps (names?_eq_some.mp hspot).2
    have hfile := (h.grows.file_iff hkeeps (h.off hroot)).mpr ⟨hspot, kindAt?_eq_file.mpr hdescend⟩
    rw [lookup_eq_ok.mpr ⟨spot, hspot', kindAt?_eq_file.mp hfile.2⟩]
    exact ⟨_, rfl, rfl⟩
  | directory entries =>
    cases hfound
    obtain ⟨entries', hdescend', heq⟩ := h.unseen s haccepts spot entries hdescend
    rw [lookup_eq_ok.mpr ⟨spot, hspot', hdescend'⟩]
    refine ⟨_, rfl, ?_⟩
    rw [sorted_eq, sorted_eq, heq root (ne_nil_of_names? hspot)]

/-- **The sources have the same texts** after the output was written. -/
theorem sorted_readText (h : w.Leaves output names name w') (hproper : w.top.isProper = true)
    (haccepts : s.accepts output = false) (hroot : ¬ w'.SamePlace output root)
    (hfound : find w s root = some found) :
    w.SameTexts w' (sorted found) := by
  intro path hpath
  obtain ⟨t, ht⟩ := find_lookup hfound
  obtain ⟨spot, hspot, hdescend⟩ := lookup_eq_ok.mp ht
  have hkeeps := h.grows.keeps (names?_eq_some.mp hspot).2
  rw [sorted_eq, List.mem_mergeSort] at hpath
  unfold find at hfound
  rw [ht] at hfound
  cases t with
  | file content =>
    cases hfound
    obtain rfl : path = root := by simpa [paths] using hpath
    exact h.grows.readText_iff hkeeps (h.off hroot)
  | directory entries =>
    cases hfound
    have hne := ne_nil_of_names? hspot
    have hentries := isProper_descend hproper hdescend
    rw [isProper] at hentries
    have hsource := searchEntries_sources .root entries hentries path hpath
    have hoff : w'.names? path ≠ some (names ++ [name]) :=
      names?_of_isSource hsource hne h.ends h.entry haccepts
    obtain ⟨hdir, hplain, hentry, _⟩ := hsource
    exact h.grows.readText_iff (hkeeps.of_below hne (.entry hdir hplain hentry)) hoff

/-- Files that read the same have the same batches, and the same ones can be read. -/
theorem batches_congr {files : List Text} (h : w.SameTexts w' files) (marker : Text) :
    batches w' marker files = batches w marker files ∧ readable w' files = readable w files := by
  induction files with
  | nil => exact ⟨rfl, rfl⟩
  | cons file more ih =>
    obtain ⟨hfile, hmore⟩ := List.forall_mem_cons.mp h
    obtain ⟨hbatches, hreadable⟩ := ih hmore
    cases htext : w.readText file with
    | ok text =>
      have htext' := (hfile text).mpr htext
      rw [batches_cons_ok marker more htext, batches_cons_ok marker more htext', hbatches,
        readable_cons_ok more htext, readable_cons_ok more htext', hreadable]
      exact ⟨rfl, rfl⟩
    | error e =>
      cases htext' : w'.readText file with
      | ok text =>
        rw [(hfile text).mp htext'] at htext
        cases htext
      | error e' =>
        rw [batches_cons_error marker more htext, batches_cons_error marker more htext', hbatches,
          readable_cons_error more htext, readable_cons_error more htext', hreadable]
        exact ⟨rfl, rfl⟩

end Sources

variable {w w' : Workspace} {settings : Settings} {root content : Text} {summary : Summary}

/-- The summary of a reading that was not stopped. -/
def Summary.ofSession (w : Workspace) (marker : Text) (paths : List Text) : Summary :=
  ⟨(Sources.readable w paths).length, (Sources.batches w marker paths).length,
    (Session.rejections (Sources.session w marker paths).1).length⟩

theorem Summary.eq_iff {summary' : Summary} : summary = summary' ↔
    summary.files = summary'.files ∧ summary.batches = summary'.batches ∧
      summary.rejected = summary'.rejected := by
  cases summary
  cases summary'
  simp

/-- What a reading that was not stopped has come to: the reading starts with the root alone. -/
theorem Scan.files_done {found : List Found} {paths : List Text}
    (h : ((Scan.start found).files w settings paths).2 = none) :
    ((Scan.start found).files w settings paths).1.registry =
        (Sources.session w settings.marker paths).2 ∧
      ((Scan.start found).files w settings paths).1.summary =
        Summary.ofSession w settings.marker paths := by
  have hreads := Scan.files_reads h
  refine ⟨hreads.registry, ?_⟩
  rw [Summary.eq_iff, hreads.files, hreads.batches, hreads.rejected]
  exact ⟨Nat.zero_add _, Nat.zero_add _, Nat.zero_add _⟩

theorem Scan.document_eq_ok_iff {s : Scan} :
    (s.document settings).result = .ok (content, summary) ↔
      ∃ tree, s.registry.link = .ok tree ∧ content = settings.format.render tree ∧
        summary = s.summary := by
  refine ⟨document_eq_ok, ?_⟩
  rintro ⟨tree, hlink, rfl, rfl⟩
  simp only [document, hlink]

/-- **When there is a document, and which**: it depends on the batches of the sources alone. -/
theorem generate_eq_ok : (generate w settings root).result = .ok (content, summary) ↔
    ∃ found tree, Sources.find w settings root = some found ∧
      (settings.strict = true →
        (Session.rejections
          (Sources.session w settings.marker (Sources.sorted found)).1).head? = none) ∧
      (Sources.session w settings.marker (Sources.sorted found)).2.link = .ok tree ∧
      content = settings.format.render tree ∧
      summary = Summary.ofSession w settings.marker (Sources.sorted found) := by
  cases hfound : Sources.find w settings root with
  | none => simp [generate_missing hfound]
  | some found =>
    have herror := Scan.files_error w settings (Scan.start found) (Sources.sorted found)
    cases hstop : ((Scan.start found).files w settings (Sources.sorted found)).2 with
    | some e =>
      rw [generate_stopped hfound hstop]
      refine iff_of_false nofun ?_
      rintro ⟨found', tree, hfound', hstrict, _⟩
      cases hfound'
      rw [hstop] at herror
      split at herror
      · rename_i hs
        cases herror.trans (hstrict hs)
      · cases herror
    | none =>
      obtain ⟨hregistry, hsummary⟩ := Scan.files_done hstop
      have hstrict : settings.strict = true → (Session.rejections
          (Sources.session w settings.marker (Sources.sorted found)).1).head? = none := by
        intro hs
        rw [hstop, if_pos hs] at herror
        exact herror.symm
      rw [generate_done hfound hstop, Scan.document_eq_ok_iff, hregistry, hsummary]
      constructor
      · rintro ⟨tree, hlink, hcontent, hsum⟩
        exact ⟨found, tree, rfl, hstrict, hlink, hcontent, hsum⟩
      · rintro ⟨found', tree, hfound', _, hlink, hcontent, hsum⟩
        cases hfound'
        exact ⟨tree, hlink, hcontent, hsum⟩

/-- **The document is the same** after the output was written. -/
theorem generate_again {output : Text} {names : List Text} {name : Text}
    (h : w.Leaves output names name w') (hproper : w.top.isProper = true)
    (haccepts : settings.accepts output = false) (hroot : ¬ w'.SamePlace output root)
    (hdone : (generate w settings root).result = .ok (content, summary)) :
    (generate w' settings root).result = .ok (content, summary) := by
  obtain ⟨found, tree, hfound, hstrict, hlink, hcontent, hsum⟩ := generate_eq_ok.mp hdone
  obtain ⟨found', hfound', hsorted⟩ := Sources.find_again h haccepts hroot hfound
  have htexts := Sources.sorted_readText h hproper haccepts hroot hfound
  obtain ⟨hbatches, hreadable⟩ := Sources.batches_congr htexts settings.marker
  have hsession : Sources.session w' settings.marker (Sources.sorted found) =
      Sources.session w settings.marker (Sources.sorted found) := by
    rw [Sources.session, Sources.session, hbatches]
  refine generate_eq_ok.mpr ⟨found', tree, hfound', ?_, ?_, hcontent, ?_⟩
  · rwa [hsorted, hsession]
  · rwa [hsorted, hsession]
  · rw [hsum, hsorted, Summary.ofSession, Summary.ofSession, hsession, hbatches, hreadable]

/-! ## The settings -/

namespace Settings

open FileTree Workspace

variable {output : Text} {names : List Text} {name path : Text} {s : Settings} {t : FileTree}

theorem load_congr (hread : ∀ text, w'.readText path = .ok text ↔ w.readText path = .ok text)
    (h : load w path = .ok s) : load w' path = .ok s := by
  unfold load at h ⊢
  split at h
  · cases h
  · rename_i text htext
    rw [(hread text).mpr htext]
    exact h

theorem load_names? (h : load w path = .ok s) : ∃ names, w.names? path = some names := by
  unfold load at h
  split at h
  · cases h
  · rename_i text htext
    obtain ⟨names, _, hnames, _⟩ := readText_eq_ok.mp htext
    exact ⟨names, hnames⟩

theorem candidate_congr {target : List Text} (h : w.Grows target w')
    (ht : w.lookup root = .ok t) : candidate w' root = candidate w root := by
  rw [candidate, candidate, h.isDirectoryAt_congr ht]

/-- Where settings are looked for next to a root that is there, nothing else comes to be. -/
theorem keeps_candidate {target : List Text} (h : w.Grows target w')
    (ht : w.lookup root = .ok t) : w.Keeps w' (candidate w root) := by
  have hplain : '/' ∉ fileName := by decide
  have hentry : isEntryName fileName = true := by decide
  obtain ⟨spot, hspot, hfound⟩ := lookup_eq_ok.mp ht
  have hroute := (names?_eq_some.mp hspot).2
  unfold candidate
  split
  · exact (h.keeps hroute).join (ne_nil_of_names? hspot) hplain hentry
  · rename_i hdir
    have hfile : w.top.kindAt? spot ≠ some .directory :=
      fun hkind => hdir (isDirectoryAt_iff.mpr ⟨spot, hspot, hkind⟩)
    obtain ⟨last, hends⟩ := Path.exists_endsWith root
    obtain ⟨dir, hparent, ⟨rfl, hstep⟩ | ⟨hne, hstep⟩⟩ :=
      route_parent w hends (isNaming_of_file hspot hfile hends)
    · -- the root is a name at home, and so are the settings
      have hhome := (routeStep_eq_ok (hstep.symm.trans hroute)).1
      have hhere : w.route fileName = .ok (fileName :: w.home.reverse) :=
        (route_plain w hplain).trans (routeStep_entry hhome hentry (by decide))
      rw [hparent]
      exact h.keeps hhere
    · obtain ⟨above, habove, _⟩ := bind_eq_ok.mp (hstep.symm.trans hroute)
      rw [hparent]
      exact (h.keeps habove).join hne hplain hentry

/-- **The same settings are found** after the output was written. -/
theorem discover_again (h : w.Leaves output names name w') {explicit : Option Text}
    (ht : w.lookup root = .ok t)
    (hpath : ¬ w'.SamePlace output (explicit.getD (candidate w root)))
    (hs : discover w explicit root = .ok s) : discover w' explicit root = .ok s := by
  cases explicit with
  | some path =>
    obtain ⟨spot, hspot⟩ := load_names? hs
    have hkeeps := h.grows.keeps (names?_eq_some.mp hspot).2
    exact load_congr (h.grows.readText_iff hkeeps (h.off hpath)) hs
  | none =>
    have hkeeps := keeps_candidate h.grows ht
    have hoff := h.off hpath
    unfold discover at hs ⊢
    simp only [candidate_congr h.grows ht, h.grows.isFileAt_congr hkeeps hoff] at hs ⊢
    split at hs
    · rename_i hfile
      rw [if_pos hfile]
      exact load_congr (h.grows.readText_iff hkeeps hoff) hs
    · rename_i hfile
      rw [if_neg hfile]
      exact hs

end Settings

/-! ## The run -/

namespace Arguments

open Workspace

variable {a : Arguments} {s : Settings}

/-- The file that settings are looked for in. -/
def settingsPath (a : Arguments) (w : Workspace) : Text :=
  a.settings.getD (Settings.candidate w a.root)

/-- The output is no source, and `w'`, which a run on `w` leaves, has it neither at the root nor
where settings are looked for.  Directories on the way to the output may be new, so it is `w'` that
says which paths stand for the same place. -/
structure WritesApart (a : Arguments) (s : Settings) (w w' : Workspace) : Prop where
  extension : s.accepts s.output = false
  root : ¬ w'.SamePlace s.output a.root
  settings : ¬ w'.SamePlace s.output (a.settingsPath w)

theorem settingsIn_eq_ok : a.settingsIn w = .ok s ↔
    ∃ s₀, Settings.discover w a.settings a.root = .ok s₀ ∧ (a.override s₀).validate = .ok s := by
  unfold settingsIn
  cases Settings.discover w a.settings a.root with
  | error e => simp
  | ok s₀ =>
    simp only [Except.ok.injEq, exists_eq_left']
    cases (a.override s₀).validate <;> simp

/-- **The settings are the same** after the output was written. -/
theorem settingsIn_again {names : List Text} {name : Text} {t : FileTree}
    (h : w.Leaves s.output names name w') (ht : w.lookup a.root = .ok t)
    (hapart : a.WritesApart s w w') (hs : a.settingsIn w = .ok s) : a.settingsIn w' = .ok s := by
  obtain ⟨s₀, hdiscover, hvalid⟩ := settingsIn_eq_ok.mp hs
  exact settingsIn_eq_ok.mpr
    ⟨s₀, Settings.discover_again h ht hapart.settings hdiscover, hvalid⟩

/-- When a run with an output file succeeds, and what it leaves. -/
theorem perform_eq_done (hs : a.settingsIn w = .ok s) (hout : isStdout s.output = false) :
    (a.perform w).exit = 0 ∧ (a.perform w).workspace = w' ↔
      ∃ content summary, (generate w s a.root).result = .ok (content, summary) ∧
        writeOutput w s.output content = (none, w') := by
  unfold perform
  simp only [hs, hout]
  cases hgenerate : generate w s a.root with
  | mk events result =>
    cases result with
    | error f => simp [failed]
    | ok shown =>
      obtain ⟨content, summary⟩ := shown
      cases hwrite : writeOutput w s.output content with
      | mk failure left => cases failure <;> simp [failed, hwrite]

end Arguments

/-- **Running again changes nothing.**  If a run in a tree with proper names writes a file that is no
source, is not the root and is not where settings are looked for, the same run on what it leaves
succeeds and leaves the same. -/
theorem runCommand_again {args : List Text} {a : Arguments} {s : Settings} {w : Workspace}
    (hproper : w.top.isProper = true) (hargs : Arguments.read args = .run a)
    (hs : a.settingsIn w = .ok s) (hout : Arguments.isStdout s.output = false)
    (hdone : (runCommand args w).exit = 0)
    (hapart : a.WritesApart s w (runCommand args w).workspace) :
    (runCommand args w).workspace.isFileAt s.output = true ∧
      (runCommand args (runCommand args w).workspace).exit = 0 ∧
      (runCommand args (runCommand args w).workspace).workspace =
        (runCommand args w).workspace := by
  have hrun (v : Workspace) : (runCommand args v).exit = (a.perform v).exit ∧
      (runCommand args v).workspace = (a.perform v).workspace := by
    rw [runCommand, hargs]
    exact ⟨rfl, rfl⟩
  rw [(hrun w).1] at hdone
  rw [(hrun w).2] at hapart ⊢
  rw [(hrun _).1, (hrun _).2]
  obtain ⟨content, summary, hgenerate, hwrite⟩ :=
    (Arguments.perform_eq_done hs hout).mp ⟨hdone, rfl⟩
  obtain ⟨names, name, hleaves⟩ := Arguments.writeOutput_leaves hwrite
  obtain ⟨found, _, hfound, _⟩ := generate_eq_ok.mp hgenerate
  obtain ⟨t, ht⟩ := Sources.find_lookup hfound
  refine ⟨hleaves.isFileAt, ?_⟩
  exact (Arguments.perform_eq_done (Arguments.settingsIn_again hleaves ht hapart hs) hout).mpr
    ⟨content, summary, generate_again hleaves hproper hapart.extension hapart.root hgenerate,
      Arguments.writeOutput_again hwrite⟩

/-- The settings ask for an output in a directory that the first run makes below the root. -/
theorem runCommand_again_nested :
    let w : Workspace := ⟨.directory
      [("dsdoc.toml", .file "output = \"out/api.md\"".toUTF8),
        ("src", .directory [("a.c", .file "//* @Node a\n//* @Parent root\n".toUTF8)])], []⟩
    w.isDirectoryAt "out" = false ∧ (runCommand [] w).exit = 0 ∧
      (runCommand [] w).workspace.isFileAt "out/api.md" = true ∧
      (runCommand [] (runCommand [] w).workspace).exit = 0 ∧
      (runCommand [] (runCommand [] w).workspace).workspace = (runCommand [] w).workspace := by
  intro w
  have hs : ({} : Arguments).settingsIn w = .ok { output := "out/api.md" } := by decide +kernel
  have hexit : (runCommand [] w).exit = 0 := by decide +kernel
  have hapart : ({} : Arguments).WritesApart { output := "out/api.md" } w
      (runCommand [] w).workspace :=
    ⟨by decide +kernel, by decide +kernel, by decide +kernel⟩
  have hproper : w.top.isProper = true := by decide +kernel
  have hout : Arguments.isStdout "out/api.md" = false := by decide +kernel
  have hagain := runCommand_again hproper rfl hs hout hexit hapart
  exact ⟨by decide +kernel, hexit, hagain⟩

end CommentDocs
