import Mathlib.Logic.Relation
import CommentDocs.Proofs.Routes

/-!
# What writing changes

Making directories and writing a file put entries into a tree one by one, and nothing is below an
entry when it is put there.  So everything that was in the tree stays where it was.

* `kindAt?_setAt`: putting an entry changes what is at the end of its own names only.
* `Workspace.Puts`: one such change.  `createDirs_puts`, `write_puts`: making directories is a run of
  changes of this kind, and writing a file is one.
* `Workspace.Grows`: directories remain directories, files remain files, and all files but the one
  written have the same bytes.  Every change has this property (`Puts.grows`), so every run of
  changes has it, and paths lead where they led before (`Grows.names?`).
* `createDirs_again`, `write_again`: doing the same once more changes nothing.
-/

set_option autoImplicit false

namespace CommentDocs

namespace FileTree

variable {t u v : FileTree} {entries : List (Text × FileTree)} {names : List Text}
  {name next other : Text}

/-! ## Entries -/

theorem child?_cons (e : Text × FileTree) (entries : List (Text × FileTree)) (name : Text) :
    (directory (e :: entries)).child? name =
      if e.1 = name then some e.2 else (directory entries).child? name := by
  unfold child? FileTree.entries
  by_cases h : e.1 = name
  · rw [List.find?_cons_of_pos (by simpa using h), if_pos h]
    rfl
  · rw [List.find?_cons_of_neg (by simpa using h), if_neg h]

theorem child?_setEntry (name : Text) (u : FileTree) (entries : List (Text × FileTree))
    (other : Text) :
    (directory (setEntry name u entries)).child? other =
      if other = name then some u else (directory entries).child? other := by
  induction entries with
  | nil =>
    rw [setEntry, child?_cons]
    simp only [eq_comm]
  | cons e entries ih =>
    obtain ⟨first, v⟩ := e
    rw [setEntry]
    split
    · rename_i h
      subst h
      rw [child?_cons, child?_cons]
      by_cases ho : other = first
      · simp [ho]
      · simp [ho, Ne.symm ho]
    · rename_i h
      rw [child?_cons, child?_cons, ih]
      by_cases ho : other = name
      · subst ho
        simp [h]
      · simp [ho]

/-- Setting an entry to what it is changes nothing. -/
theorem setEntry_self (h : (directory entries).child? name = some u) :
    setEntry name u entries = entries := by
  induction entries with
  | nil => cases h
  | cons e entries ih =>
    obtain ⟨first, v⟩ := e
    rw [child?_cons] at h
    rw [setEntry]
    split at h
    · rename_i heq
      cases h
      rw [if_pos heq, ← heq]
    · rename_i hne
      rw [if_neg hne, ih h]

theorem setAt_cons (h : (directory entries).child? next = some v) :
    setAt name u (next :: names) (directory entries) =
      directory (setEntry next (setAt name u names v) entries) := by
  obtain ⟨e, he, rfl⟩ := Option.map_eq_some_iff.mp h
  have hfind : entries.find? (fun e => e.1 == next) = some e := he
  rw [setAt, hfind]

theorem kind_setAt (name : Text) (u : FileTree) (names : List Text) (t : FileTree) :
    (setAt name u names t).kind = t.kind := by
  cases t with
  | file content => cases names <;> rfl
  | directory entries =>
    cases names with
    | nil => rfl
    | cons next names =>
      rw [setAt]
      split <;> rfl

/-- **Putting in what is there already changes nothing.** -/
theorem setAt_self (h : t.descend? (names ++ [name]) = some u) : setAt name u names t = t := by
  induction names generalizing t with
  | nil =>
    cases t with
    | file content => rfl
    | directory entries =>
      rw [descend?_concat] at h
      rw [setAt, setEntry_self h]
  | cons next names ih =>
    cases t with
    | file content => rfl
    | directory entries =>
      rw [List.cons_append, descend?] at h
      obtain ⟨v, hv, hrest⟩ := Option.bind_eq_some_iff.mp h
      rw [setAt_cons hv, ih hrest, setEntry_self hv]

/-- **What is found by names after an entry was put**: the changed tree above the entry, the entry
and what is in it, or what was found there before. -/
theorem descend?_setAt (hdir : t.kindAt? names = some .directory) (name : Text) (u : FileTree)
    (spot : List Text) :
    (∃ rest, names = spot ++ rest ∧
      (setAt name u names t).descend? spot = (t.descend? spot).map (setAt name u rest)) ∨
    (∃ more, spot = names ++ name :: more ∧
      (setAt name u names t).descend? spot = u.descend? more) ∨
    ((∀ more, spot ≠ names ++ name :: more) ∧
      (setAt name u names t).descend? spot = t.descend? spot) := by
  induction names generalizing t spot with
  | nil =>
    obtain ⟨entries, rfl⟩ : ∃ entries, t = .directory entries := by
      simpa [descend?] using kindAt?_eq_directory.mp hdir
    cases spot with
    | nil => exact .inl ⟨[], rfl, rfl⟩
    | cons first more =>
      rw [setAt, descend?, child?_setEntry]
      by_cases hfirst : first = name
      · refine .inr (.inl ⟨more, by rw [hfirst]; rfl, ?_⟩)
        rw [if_pos hfirst]
        rfl
      · refine .inr (.inr ⟨by simp [hfirst], ?_⟩)
        rw [if_neg hfirst]
        rfl
  | cons next names ih =>
    obtain ⟨found, hfound⟩ := kindAt?_eq_directory.mp hdir
    cases t with
    | file content => cases hfound
    | directory entries =>
      obtain ⟨v, hv, hrest⟩ := Option.bind_eq_some_iff.mp hfound
      have hdir' : v.kindAt? names = some .directory := kindAt?_eq_directory.mpr ⟨found, hrest⟩
      cases spot with
      | nil => exact .inl ⟨next :: names, rfl, rfl⟩
      | cons first more =>
        rw [setAt_cons hv, descend?, descend?, child?_setEntry]
        by_cases hfirst : first = next
        · subst hfirst
          rw [if_pos rfl, hv]
          rcases ih hdir' more with ⟨rest, hnames, heq⟩ | ⟨below, hmore, heq⟩ | ⟨hmore, heq⟩
          · exact .inl ⟨rest, by rw [hnames]; rfl, heq⟩
          · exact .inr (.inl ⟨below, by rw [hmore]; rfl, heq⟩)
          · exact .inr (.inr ⟨by simpa using hmore, heq⟩)
        · rw [if_neg hfirst]
          exact .inr (.inr ⟨by simp [hfirst], rfl⟩)

/-- **Putting an entry changes what is at the end of its own names only**, if nothing is below it
before and after. -/
theorem kindAt?_setAt (hdir : t.kindAt? names = some .directory)
    (hfree : t.kindAt? (names ++ [name]) ≠ some .directory) (hbare : u.entries = [])
    (spot : List Text) :
    (setAt name u names t).kindAt? spot =
      if spot = names ++ [name] then some u.kind else t.kindAt? spot := by
  rcases descend?_setAt hdir name u spot with
    ⟨rest, rfl, heq⟩ | ⟨more, rfl, heq⟩ | ⟨hne, heq⟩
  · have hshort : spot ≠ spot ++ rest ++ [name] := by
      intro h
      have := congrArg List.length h
      simp at this
    rw [if_neg hshort, kindAt?, kindAt?, heq, Option.map_map]
    congr 1
    funext v
    exact kind_setAt name u rest v
  · rw [kindAt?, heq]
    cases more with
    | nil =>
      rw [if_pos rfl]
      rfl
    | cons first more =>
      have hlong : names ++ name :: first :: more ≠ names ++ [name] := by simp
      rw [if_neg hlong, descend?_of_entries_nil hbare, List.append_cons,
        kindAt?_below hfree first more]
      rfl
  · rw [if_neg (hne []), kindAt?, kindAt?, heq]

end FileTree

namespace Workspace

open FileTree

variable {w w' w'' : Workspace} {path : Text} {names target : List Text} {name : Text}
  {u : FileTree} {content : ByteArray}

/-! ## Single changes -/

/-- An entry with nothing below it is put into a directory, in no directory's place. -/
structure Puts (names : List Text) (name : Text) (u : FileTree) (w w' : Workspace) : Prop where
  directory : w.top.kindAt? names = some .directory
  free : w.top.kindAt? (names ++ [name]) ≠ some .directory
  bare : u.entries = []
  eq : w' = { w with top := setAt name u names w.top }

theorem Puts.kindAt? (h : w.Puts names name u w') (spot : List Text) :
    w'.top.kindAt? spot = if spot = names ++ [name] then some u.kind else w.top.kindAt? spot := by
  rw [h.eq]
  exact kindAt?_setAt h.directory h.free h.bare spot

/-- A new directory is put where nothing was. -/
def MakesDirectory (w w' : Workspace) : Prop :=
  ∃ names name, w.top.kindAt? (names ++ [name]) = none ∧ w.Puts names name .empty w'

/-- Everything that was there is still there, all files but the one at `target` with the same
bytes, and no other file is new. -/
structure Grows (target : List Text) (w w' : Workspace) : Prop where
  home : w'.home = w.home
  directory : ∀ names, w.top.kindAt? names = some .directory →
    w'.top.kindAt? names = some .directory
  file : ∀ names content, w.top.kindAt? names = some (.file content) →
    ∃ content', w'.top.kindAt? names = some (.file content')
  same : ∀ names content, names ≠ target →
    (w'.top.kindAt? names = some (.file content) ↔ w.top.kindAt? names = some (.file content))

theorem Grows.refl (target : List Text) (w : Workspace) : w.Grows target w :=
  ⟨rfl, fun _ h => h, fun _ content h => ⟨content, h⟩, fun _ _ _ => Iff.rfl⟩

theorem Grows.trans (h : w.Grows target w') (h' : w'.Grows target w'') : w.Grows target w'' where
  home := h'.home.trans h.home
  directory names hdir := h'.directory names (h.directory names hdir)
  file names content hfile := by
    obtain ⟨content', hfile'⟩ := h.file names content hfile
    exact h'.file names content' hfile'
  same names content hne := (h'.same names content hne).trans (h.same names content hne)

theorem MakesDirectory.grows (h : w.MakesDirectory w') (target : List Text) :
    w.Grows target w' := by
  obtain ⟨names, name, hnone, hputs⟩ := h
  have hkind := hputs.kindAt?
  refine ⟨by rw [hputs.eq], ?_, ?_, ?_⟩
  · intro spot hdir
    rw [hkind]
    split
    · rfl
    · exact hdir
  · intro spot content hfile
    refine ⟨content, ?_⟩
    rw [hkind, if_neg]
    · exact hfile
    · rintro rfl
      rw [hnone] at hfile
      cases hfile
  · intro spot content _
    rw [hkind]
    split
    · rename_i heq
      rw [heq, hnone]
      constructor <;> intro h <;> cases h
    · rfl

theorem Puts.grows (h : w.Puts names name (.file content) w') :
    w.Grows (names ++ [name]) w' := by
  have hkind := h.kindAt?
  refine ⟨by rw [h.eq], ?_, ?_, ?_⟩
  · intro spot hdir
    rw [hkind, if_neg]
    · exact hdir
    · rintro rfl
      exact h.free hdir
  · intro spot content' hfile
    rw [hkind]
    split
    · exact ⟨content, rfl⟩
    · exact ⟨content', hfile⟩
  · intro spot content' hne
    rw [hkind, if_neg hne]

/-- Making directories one after the other leaves everything in place. -/
theorem grows_of_makes (h : Relation.ReflTransGen MakesDirectory w w') (target : List Text) :
    w.Grows target w' := by
  induction h with
  | refl => exact .refl target w
  | tail _ hstep ih => exact ih.trans (hstep.grows target)

/-! ## Paths after changes -/

/-- Where a route leads, it still leads after the tree has grown. -/
theorem Grows.route_top (h : w.Grows target w') {back back' parts : List Text}
    (hroute : w.top.route back parts = .ok back') : w'.top.route back parts = .ok back' := by
  induction parts generalizing back with
  | nil => exact hroute
  | cons part parts ih =>
    rw [FileTree.route] at hroute ⊢
    obtain ⟨next, hstep, hrest⟩ := bind_eq_ok.mp hroute
    have hdir := (routeStep_eq_ok hstep).1
    have hsame : w'.top.routeStep back part = w.top.routeStep back part := by
      rw [routeStep, routeStep, hdir, h.directory _ hdir]
    exact bind_eq_ok.mpr ⟨next, hsame.trans hstep, ih hrest⟩

theorem Grows.startBack (h : w.Grows target w') (path : Text) :
    w'.startBack path = w.startBack path := by
  rw [Workspace.startBack, Workspace.startBack, h.home]

theorem Grows.route (h : w.Grows target w') {back : List Text} (hroute : w.route path = .ok back) :
    w'.route path = .ok back := by
  rw [Workspace.route, h.startBack]
  exact h.route_top hroute

/-- **Paths lead where they led before.** -/
theorem Grows.names? (h : w.Grows target w') (hnames : w.names? path = some names) :
    w'.names? path = some names := by
  rw [names?_eq_some] at hnames ⊢
  exact ⟨hnames.1, h.route hnames.2⟩

theorem Grows.isDirectoryAt (h : w.Grows target w') (hdir : w.isDirectoryAt path = true) :
    w'.isDirectoryAt path = true := by
  rw [isDirectoryAt_iff] at hdir ⊢
  obtain ⟨names, hnames, hkind⟩ := hdir
  exact ⟨names, h.names? hnames, h.directory names hkind⟩

/-- What is there stays of the same kind. -/
theorem Grows.isDirectoryAt_congr {target : List Text} {t : FileTree} (h : w.Grows target w')
    (ht : w.lookup path = .ok t) : w'.isDirectoryAt path = w.isDirectoryAt path := by
  obtain ⟨names, hnames, hfound⟩ := lookup_eq_ok.mp ht
  rw [Bool.eq_iff_iff]
  refine ⟨fun hdir => ?_, h.isDirectoryAt⟩
  obtain ⟨names', hnames', hkind'⟩ := isDirectoryAt_iff.mp hdir
  obtain rfl : names = names' := Option.some.inj ((h.names? hnames).symm.trans hnames')
  cases t with
  | file content =>
    obtain ⟨content', hfile⟩ := h.file names content (kindAt?_eq_file.mpr hfound)
    rw [hfile] at hkind'
    cases hkind'
  | directory entries =>
    exact isDirectoryAt_iff.mpr ⟨names, hnames, kindAt?_eq_directory.mpr ⟨entries, hfound⟩⟩

/-! ## Making directories -/

/-- A path leads into its slot, over the slashes after its last part if that is a directory. -/
theorem route_of_slot {back empties : List Text}
    (hback : w.top.route (w.startBack path) (splitLast path).1 = .ok back)
    (hdir : w.top.kindAt? back.reverse = some .directory)
    (hentry : isEntryName (splitLast path).2 = true)
    (hlong : isTooLong (splitLast path).2 = false)
    (hparts : Path.parts path = (splitLast path).1 ++ (splitLast path).2 :: empties)
    (hempties : ∀ part ∈ empties, part = [])
    (hrest : empties = [] ∨
      w.top.kindAt? (back.reverse ++ [(splitLast path).2]) = some .directory) :
    w.route path = .ok ((splitLast path).2 :: back) := by
  rw [route, hparts, route_append, hback]
  show w.top.route back ((splitLast path).2 :: empties) = _
  rw [FileTree.route, routeStep_entry hdir hentry hlong]
  show w.top.route ((splitLast path).2 :: back) empties = _
  rcases hrest with rfl | hrest
  · rfl
  · rw [← List.reverse_cons] at hrest
    exact route_idle (fun part hpart => by rw [hempties part hpart]; rfl) hrest

/-- When a directory is made. -/
theorem createDir_eq_ok (h : w.createDir path = .ok w') :
    ∃ s, w.locateSlot path = .ok s ∧ isEntryName s.name = true ∧ isTooLong s.name = false ∧
      s.found = none ∧ w' = w.fill s .empty := by
  unfold createDir at h
  split at h
  · cases h
  · rename_i s hslot
    split at h
    · cases h
    · rename_i hentry
      split at h
      · cases h
      · rename_i hlong
        split at h
        · cases h
        · rename_i hfound
          cases h
          exact ⟨s, hslot, by simpa using hentry, by simpa using hlong, by simpa using hfound, rfl⟩

/-- **A directory that was made** is put where nothing was, and is where its path leads. -/
theorem createDir_puts (h : w.createDir path = .ok w') :
    w.MakesDirectory w' ∧ w'.isDirectoryAt path = true := by
  obtain ⟨s, hslot, hentry, hlong, hnone, rfl⟩ := createDir_eq_ok h
  obtain ⟨hvalid, hback, hdir, hname, hfound⟩ := locateSlot_eq_ok.mp hslot
  rw [hfound, ← kindAt?_eq_none] at hnone
  have hputs : w.Puts s.back.reverse s.name .empty (w.fill s .empty) :=
    ⟨hdir, by rw [hnone]; exact nofun, rfl, rfl⟩
  have hmakes : w.MakesDirectory (w.fill s .empty) := ⟨_, _, hnone, hputs⟩
  have hgrows := hmakes.grows []
  have hmade : (w.fill s .empty).top.kindAt? (s.back.reverse ++ [s.name]) = some .directory := by
    rw [hputs.kindAt?, if_pos rfl]
    rfl
  refine ⟨hmakes, isDirectoryAt_iff.mpr ⟨_, names?_eq_some.mpr ⟨hvalid, ?_⟩, hmade⟩⟩
  rw [List.reverse_append, List.reverse_reverse, hname]
  rw [hname] at hentry hlong hmade
  rcases splitLast_cases path with ⟨heq, _⟩ | ⟨empties, hempties, hparts⟩
  · rw [heq] at hentry
    cases hentry
  · exact route_of_slot (hgrows.startBack path ▸ hgrows.route_top hback)
      (hgrows.directory _ hdir) hentry hlong hparts hempties (.inr hmade)

/-- **Making a directory and those above it** is a run of single changes, after which the path leads
to a directory. -/
theorem createDirs_puts {limit : Nat} (h : createDirsWithin limit w path = .ok w') :
    Relation.ReflTransGen MakesDirectory w w' ∧ (path ≠ [] → w'.isDirectoryAt path = true) := by
  induction limit generalizing w w' path with
  | zero => cases h
  | succ limit ih =>
    unfold createDirsWithin at h
    split at h
    · rename_i hempty
      cases h
      exact ⟨.refl, fun hne => absurd (List.isEmpty_iff.mp hempty) hne⟩
    · split at h
      · rename_i hmade
        cases h
        obtain ⟨hmakes, hdir⟩ := createDir_puts hmade
        exact ⟨.single hmakes, fun _ => hdir⟩
      · split at h
        · cases h
        · split at h
          · cases h
          · rename_i w₁ habove
            obtain ⟨hmakes, _⟩ := ih habove
            split at h
            · rename_i hmade
              cases h
              obtain ⟨hstep, hdir⟩ := createDir_puts hmade
              exact ⟨hmakes.tail hstep, fun _ => hdir⟩
            · split at h
              · rename_i hdir
                cases h
                exact ⟨hmakes, fun _ => hdir⟩
              · cases h
      · split at h
        · rename_i hdir
          cases h
          exact ⟨.refl, fun _ => hdir⟩
        · cases h

/-- A path to a directory has a slot, and if the name there is that of an entry, the slot holds the
directory. -/
theorem slot_of_directory (h : w.isDirectoryAt path = true) :
    ∃ s, w.locateSlot path = .ok s ∧
      (isEntryName s.name = true → isTooLong s.name = false ∧ s.found.isSome = true) := by
  obtain ⟨names, hnames, hkind⟩ := isDirectoryAt_iff.mp h
  obtain ⟨hvalid, hroute⟩ := names?_eq_some.mp hnames
  rw [route] at hroute
  rcases splitLast_cases path with ⟨heq, hempties⟩ | ⟨empties, hempties, hparts⟩
  · -- a path of slashes leads to where it starts
    have hidle : ∀ part ∈ Path.parts path, Path.isNaming part = false :=
      fun part hpart => by rw [hempties part hpart]; rfl
    obtain ⟨_, hdir⟩ := route_idle_eq_ok hidle hroute
    refine ⟨⟨w.startBack path, ['.'], w.top.descend? ((w.startBack path).reverse ++ [['.']])⟩,
      locateSlot_eq_ok.mpr ⟨hvalid, ?_, hdir (Path.parts_ne_nil path), by rw [heq], rfl⟩,
      fun hentry => by cases hentry⟩
    rw [heq]
    rfl
  · have hidle : ∀ part ∈ empties, Path.isNaming part = false :=
      fun part hpart => by rw [hempties part hpart]; rfl
    rw [hparts, route_append] at hroute
    obtain ⟨back, hback, hlast⟩ := bind_eq_ok.mp hroute
    obtain ⟨back', hstep, hrest⟩ := bind_eq_ok.mp hlast
    obtain ⟨hdir, hnext⟩ := routeStep_eq_ok hstep
    obtain ⟨heq, _⟩ := route_idle_eq_ok hidle hrest
    refine ⟨⟨back, (splitLast path).2, w.top.descend? (back.reverse ++ [(splitLast path).2])⟩,
      locateSlot_eq_ok.mpr ⟨hvalid, hback, hdir, rfl, rfl⟩, fun hentry => ?_⟩
    obtain ⟨hlong, rfl⟩ := hnext hentry
    refine ⟨hlong, ?_⟩
    obtain ⟨entries, hfound⟩ := kindAt?_eq_directory.mp hkind
    rw [← List.reverse_reverse names, heq, List.reverse_cons] at hfound
    rw [hfound]
    rfl

/-- Where a directory is, none can be made. -/
theorem createDir_again (h : w.isDirectoryAt path = true) : w.createDir path = .error .exists := by
  obtain ⟨s, hs, hentry⟩ := slot_of_directory h
  simp only [createDir, hs]
  split
  · rfl
  · rename_i hname
    rw [Bool.not_eq_true', Bool.not_eq_false] at hname
    obtain ⟨hlong, hfound⟩ := hentry hname
    rw [hlong, hfound]
    rfl

/-- **Making a directory that is there changes nothing.** -/
theorem createDirs_again (h : path = [] ∨ w.isDirectoryAt path = true) :
    w.createDirs path = .ok w := by
  unfold createDirs createDirsWithin
  rcases h with rfl | h
  · rfl
  · split
    · rfl
    · rw [createDir_again h]

/-! ## Writing a file -/

/-- When a file is written. -/
theorem write_eq_ok : w.write path content = .ok w' ↔
    ∃ s, w.locateSlot path = .ok s ∧ path.getLast? ≠ some '/' ∧ isEntryName s.name = true ∧
      isTooLong s.name = false ∧ (∀ entries, s.found ≠ some (.directory entries)) ∧
      w' = w.fill s (.file content) := by
  unfold write
  cases w.locateSlot path with
  | error e => simp
  | ok s =>
    simp only [Except.ok.injEq, exists_eq_left']
    by_cases hends : (path.getLast? == some '/' || !isEntryName s.name) = true
    · rw [if_pos hends]
      simp only [reduceCtorEq, false_iff]
      rintro ⟨hslash, hentry, _⟩
      simp [hslash, hentry] at hends
    · rw [if_neg hends]
      simp only [Bool.or_eq_true, beq_iff_eq, Bool.not_eq_true', not_or, Bool.not_eq_false] at hends
      by_cases hlong : isTooLong s.name = true
      · simp [hlong]
      · rw [if_neg hlong]
        split
        · rename_i entries hfound
          simp [hfound]
        · rename_i hfree
          rw [Bool.not_eq_true] at hlong
          simp only [Except.ok.injEq, hends, hlong, ne_eq, not_false_eq_true, true_and]
          exact ⟨fun h => ⟨hfree, h.symm⟩, fun h => h.2.symm⟩

/-- Filling a slot with a file puts the file there. -/
theorem fill_puts {s : Slot} (hslot : w.locateSlot path = .ok s)
    (hfree : ∀ entries, s.found ≠ some (.directory entries)) (content : ByteArray) :
    w.Puts s.back.reverse s.name (.file content) (w.fill s (.file content)) := by
  obtain ⟨_, _, hdir, _, hfound⟩ := locateSlot_eq_ok.mp hslot
  refine ⟨hdir, fun hkind => ?_, rfl, rfl⟩
  obtain ⟨entries, hentries⟩ := kindAt?_eq_directory.mp hkind
  exact hfree entries (hfound.trans hentries)

/-- **A file that was written** is put where nothing or a file was, and is where its path leads. -/
theorem write_puts (h : w.write path content = .ok w') :
    ∃ names name, w.Puts names name (.file content) w' ∧ Path.EndsWith path name ∧
      isEntryName name = true ∧ w'.names? path = some (names ++ [name]) := by
  obtain ⟨s, hslot, hslash, hentry, hlong, hfree, rfl⟩ := write_eq_ok.mp h
  obtain ⟨hvalid, hback, hdir, hname, _⟩ := locateSlot_eq_ok.mp hslot
  have hputs := fill_puts hslot hfree content
  have hgrows := hputs.grows
  rw [hname] at hentry hlong hputs
  have hparts := parts_of_entry hslash hentry
  refine ⟨_, _, hputs, Path.endsWith_of_parts hparts, hentry, names?_eq_some.mpr ⟨hvalid, ?_⟩⟩
  rw [List.reverse_append, List.reverse_reverse]
  exact route_of_slot (hgrows.startBack path ▸ hgrows.route_top hback)
    (hgrows.directory _ hdir) hentry hlong hparts (by simp) (.inl rfl)

/-- **Writing the same once more changes nothing.** -/
theorem write_again (h : w.write path content = .ok w') : w'.write path content = .ok w' := by
  obtain ⟨s, hslot, hslash, hentry, hlong, hfree, rfl⟩ := write_eq_ok.mp h
  obtain ⟨hvalid, hback, hdir, hname, _⟩ := locateSlot_eq_ok.mp hslot
  have hputs := fill_puts hslot hfree content
  have hgrows := hputs.grows
  have hwritten : (w.fill s (.file content)).top.descend? (s.back.reverse ++ [s.name]) =
      some (.file content) := by
    rw [← kindAt?_eq_file, hputs.kindAt?, if_pos rfl]
    rfl
  refine write_eq_ok.mpr ⟨⟨s.back, s.name, some (.file content)⟩, ?_, hslash, hentry, hlong,
    nofun, ?_⟩
  · exact locateSlot_eq_ok.mpr ⟨hvalid, hgrows.startBack path ▸ hgrows.route_top hback,
      hgrows.directory _ hdir, hname, hwritten.symm⟩
  · show _ = { w.fill s (.file content) with
      top := setAt s.name (.file content) s.back.reverse (w.fill s (.file content)).top }
    rw [setAt_self hwritten]

end Workspace

end CommentDocs
