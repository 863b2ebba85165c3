import CommentDocs.Proofs.Growth
import CommentDocs.Sources

/-!
# Searching and reading after changes

A search for sources passes over new directories, which are empty, and over a file that does not
have the extension of a source.  A file that is read where nothing was written has the text it had.

* `Workspace.Unseen`: a search of any directory finds the same sources after the changes as before.
  Every new directory is unseen (`MakesDirectory.unseen`), and so is a file that is not accepted
  (`Puts.unseen_file`).
* `Sources.IsSource`: the form of the paths that a search finds (`searchEntries_sources`).
* `Workspace.Keeps`: a path has not come to lead to something that was there before.  This holds of
  all paths below a root that is there (`Keeps.of_below`).
* `readText_iff`, `isFileAt_congr`: such a path reads as before, unless it leads to what was
  written.
-/

set_option autoImplicit false

namespace CommentDocs

namespace FileTree

variable {t u v : FileTree} {names : List Text} {name : Text}

/-! ## Names of entries -/

/-- Whether an entry can go by the name. -/
def canName (name : Text) : Bool := !name.isEmpty && !name.contains '/'

mutual

/-- Whether all entries of a tree go by names that entries can have. -/
def isProper : FileTree → Bool
  | .file _ => true
  | .directory entries => areProper entries

/-- Whether the entries, and all entries below them, go by names that entries can have. -/
def areProper : List (Text × FileTree) → Bool
  | [] => true
  | (name, t) :: entries => canName name && isProper t && areProper entries

end

theorem areProper_cons {entries : List (Text × FileTree)} :
    areProper ((name, t) :: entries) = true ↔
      canName name = true ∧ t.isProper = true ∧ areProper entries = true := by
  rw [areProper, Bool.and_eq_true, Bool.and_eq_true, and_assoc]

theorem isProper_child (h : t.isProper = true) (hchild : t.child? name = some u) :
    u.isProper = true := by
  cases t with
  | file content => cases hchild
  | directory entries =>
    rw [isProper] at h
    induction entries with
    | nil => cases hchild
    | cons e entries ih =>
      obtain ⟨_, hfirst, hrest⟩ := areProper_cons.mp h
      rw [child?_cons] at hchild
      split at hchild
      · cases hchild
        exact hfirst
      · exact ih hrest hchild

theorem isProper_descend (h : t.isProper = true) (hfound : t.descend? names = some u) :
    u.isProper = true := by
  induction names generalizing t with
  | nil =>
    cases hfound
    exact h
  | cons name names ih =>
    rw [descend?] at hfound
    obtain ⟨v, hchild, hrest⟩ := Option.bind_eq_some_iff.mp hfound
    exact ih (isProper_child h hchild) hrest

end FileTree

namespace Sources

open FileTree

variable {s : Settings} {dir name path root : Text} {names : List Text} {t u v : FileTree}

/-! ## Searching a changed tree -/

/-- The source files among what was found, in the order of the listings. -/
def paths (found : List Found) : List Text :=
  found.filterMap fun f =>
    match f with
    | .source path => some path
    | .excluded _ => none

theorem sorted_eq (found : List Found) : sorted found = (paths found).mergeSort Path.le := rfl

@[simp] theorem paths_append (first more : List Found) :
    paths (first ++ more) = paths first ++ paths more :=
  List.filterMap_append

/-- No source is found in an empty directory. -/
theorem paths_search_empty (s : Settings) (name path : Text) :
    paths (search s name path .empty) = [] := by
  rw [FileTree.empty, search]
  split <;> rfl

/-- A file that is not accepted is no source. -/
theorem paths_search_file (h : s.accepts path = false) (name : Text) (content : ByteArray) :
    paths (search s name path (.file content)) = [] := by
  rw [search, h]
  rfl

theorem paths_search_congr (hkind : u.kind = v.kind)
    (h : paths (searchEntries s path u.entries) = paths (searchEntries s path v.entries)) :
    paths (search s name path u) = paths (search s name path v) := by
  cases u with
  | file content =>
    cases v with
    | file content' =>
      cases hkind
      rfl
    | directory entries => cases hkind
  | directory entries =>
    cases v with
    | file content => cases hkind
    | directory entries' =>
      rw [search, search]
      split
      · rfl
      · exact h

/-- A search does not see that an entry is set if it finds the same sources in it as in the one
before; there are none in an entry that is not there. -/
theorem paths_setEntry {entries : List (Text × FileTree)}
    (h : paths (search s name (Path.join dir name) u) =
      ((directory entries).child? name).elim [] fun v =>
        paths (search s name (Path.join dir name) v)) :
    paths (searchEntries s dir (setEntry name u entries)) =
      paths (searchEntries s dir entries) := by
  induction entries with
  | nil =>
    rw [setEntry, searchEntries, searchEntries, paths_append]
    split
    · rfl
    · rw [h]
      rfl
  | cons e entries ih =>
    obtain ⟨other, v⟩ := e
    rw [child?_cons] at h
    rw [setEntry]
    split
    · rename_i heq
      subst heq
      rw [if_pos rfl] at h
      rw [searchEntries, searchEntries, paths_append, paths_append]
      split
      · rfl
      · rw [h]
        rfl
    · rename_i hne
      rw [if_neg hne] at h
      rw [searchEntries, searchEntries, paths_append, paths_append, ih h]

/-- The same for an entry that is put in further down. -/
theorem paths_setAt (hdir : t.kindAt? names = some .directory)
    (hsame : ∀ dir, dir ≠ [] → paths (search s name (Path.join dir name) u) =
      (t.descend? (names ++ [name])).elim [] fun v =>
        paths (search s name (Path.join dir name) v)) :
    ∀ dir, dir ≠ [] → paths (searchEntries s dir (setAt name u names t).entries) =
      paths (searchEntries s dir t.entries) := by
  induction names generalizing t with
  | nil =>
    intro dir hne
    cases t with
    | file content => cases hdir
    | directory entries =>
      refine paths_setEntry ?_
      rw [hsame dir hne, descend?_concat]
      rfl
  | cons next names ih =>
    intro dir hne
    cases t with
    | file content => rfl
    | directory entries =>
      obtain ⟨found, hfound⟩ := kindAt?_eq_directory.mp hdir
      obtain ⟨v, hv, hrest⟩ := Option.bind_eq_some_iff.mp hfound
      rw [List.cons_append, descend?, hv] at hsame
      rw [setAt_cons hv]
      refine paths_setEntry ?_
      rw [hv]
      exact paths_search_congr (kind_setAt name u names v)
        (ih (kindAt?_eq_directory.mpr ⟨found, hrest⟩) hsame _ (Path.join_ne_nil hne next))

/-! ## The paths of sources -/

/-- The path leads down from the root by names of entries. -/
inductive Below (root : Text) : Text → Prop where
  | root : Below root root
  | entry {dir name : Text} (hdir : Below root dir) (hplain : '/' ∉ name)
      (hentry : Workspace.isEntryName name = true) : Below root (Path.join dir name)

theorem Below.ne_nil (h : Below root path) (hroot : root ≠ []) : path ≠ [] := by
  induction h with
  | root => exact hroot
  | entry _ _ _ ih => exact Path.join_ne_nil ih _

/-- The path of an accepted file below the root. -/
inductive IsSource (s : Settings) (root : Text) : Text → Prop where
  | intro {dir name : Text} (hdir : Below root dir) (hplain : '/' ∉ name)
      (hentry : Workspace.isEntryName name = true)
      (haccepts : s.accepts (Path.join dir name) = true) : IsSource s root (Path.join dir name)

theorem canName_visible (h : canName name = true) (hhidden : isHidden name = false) :
    '/' ∉ name ∧ Workspace.isEntryName name = true := by
  unfold canName at h
  rw [Bool.and_eq_true, Bool.not_eq_true', Bool.not_eq_true'] at h
  obtain ⟨hempty, hslash⟩ := h
  constructor
  · simpa using hslash
  · -- both names that are no entries' start with a dot
    have hdot : name ≠ ['.'] := by rintro rfl; cases hhidden
    have hup : name ≠ ['.', '.'] := by rintro rfl; cases hhidden
    simp [Workspace.isEntryName, Path.isNaming, hempty, hdot, hup]

mutual

/-- What a search finds at an entry below the root are paths of accepted files. -/
theorem search_sources {dir name : Text} (hdir : Below root dir) (hplain : '/' ∉ name)
    (hentry : Workspace.isEntryName name = true) : ∀ t : FileTree, t.isProper = true →
    ∀ path ∈ paths (search s name (Path.join dir name) t), IsSource s root path
  | .file content, _ => by
    intro path hpath
    rw [search] at hpath
    split at hpath
    · rename_i haccepts
      obtain rfl : path = Path.join dir name := by simpa [paths] using hpath
      exact .intro hdir hplain hentry haccepts
    · cases hpath
  | .directory entries, hproper => by
    intro path hpath
    rw [search] at hpath
    split at hpath
    · cases hpath
    · rw [isProper] at hproper
      exact searchEntries_sources (.entry hdir hplain hentry) entries hproper path hpath

/-- **What a search finds below the root are paths of accepted files.** -/
theorem searchEntries_sources {dir : Text} (hdir : Below root dir) :
    ∀ entries : List (Text × FileTree), areProper entries = true →
    ∀ path ∈ paths (searchEntries s dir entries), IsSource s root path
  | [], _ => by
    intro path hpath
    rw [searchEntries] at hpath
    cases hpath
  | (name, t) :: entries, hproper => by
    intro path hpath
    obtain ⟨hname, ht, hentries⟩ := areProper_cons.mp hproper
    rw [searchEntries, paths_append, List.mem_append] at hpath
    rcases hpath with hpath | hpath
    · split at hpath
      · cases hpath
      · rename_i hhidden
        obtain ⟨hplain, hentry⟩ := canName_visible hname (Bool.not_eq_true _ ▸ hhidden)
        exact search_sources hdir hplain hentry t ht path hpath
    · exact searchEntries_sources hdir entries hentries path hpath

end

end Sources

namespace Workspace

open FileTree Sources

variable {s : Settings} {w w' w'' : Workspace} {path root dir : Text} {names target : List Text}
  {name : Text} {u : FileTree} {content : ByteArray}

/-! ## Changes that no search sees -/

/-- A search of any directory finds the same sources after the changes as before. -/
def Unseen (s : Settings) (w w' : Workspace) : Prop :=
  ∀ names entries, w.top.descend? names = some (.directory entries) →
    ∃ entries', w'.top.descend? names = some (.directory entries') ∧
      ∀ dir, dir ≠ [] → paths (searchEntries s dir entries') = paths (searchEntries s dir entries)

theorem Unseen.refl (s : Settings) (w : Workspace) : Unseen s w w :=
  fun _ entries h => ⟨entries, h, fun _ _ => rfl⟩

theorem Unseen.trans (h : Unseen s w w') (h' : Unseen s w' w'') : Unseen s w w'' := by
  intro names entries hfound
  obtain ⟨entries', hfound', heq⟩ := h names entries hfound
  obtain ⟨entries'', hfound'', heq'⟩ := h' names entries' hfound'
  exact ⟨entries'', hfound'', fun dir hne => (heq' dir hne).trans (heq dir hne)⟩

/-- An entry is unseen if the same sources are in it as in the one before. -/
theorem Puts.unseen (h : w.Puts names name u w')
    (hsame : ∀ dir, dir ≠ [] → paths (search s name (Path.join dir name) u) =
      (w.top.descend? (names ++ [name])).elim [] fun v =>
        paths (search s name (Path.join dir name) v)) : Unseen s w w' := by
  intro spot entries hfound
  have hspot : w.top.kindAt? spot = some .directory := kindAt?_eq_directory.mpr ⟨entries, hfound⟩
  rw [h.eq]
  rcases descend?_setAt h.directory name u spot with
    ⟨rest, rfl, heq⟩ | ⟨more, rfl, _⟩ | ⟨_, heq⟩
  · -- the directory is above the entry, so its entries are changed
    have hrest : (FileTree.directory entries).kindAt? rest = some .directory := by
      have hdir := h.directory
      rwa [FileTree.kindAt?, descend?_append, hfound] at hdir
    rw [List.append_assoc, descend?_append, hfound] at hsame
    refine ⟨_, ?_, paths_setAt hrest hsame⟩
    rw [heq, hfound, Option.map_some]
    have hkind := kind_setAt name u rest (FileTree.directory entries)
    cases hset : setAt name u rest (FileTree.directory entries) with
    | file content => rw [hset] at hkind; cases hkind
    | directory entries' => rfl
  · -- no directory was where the entry is now, or below it
    cases more with
    | nil => exact absurd hspot h.free
    | cons first more =>
      rw [List.append_cons, kindAt?_below h.free] at hspot
      cases hspot
  · exact ⟨entries, heq.trans hfound, fun _ _ => rfl⟩

theorem MakesDirectory.unseen (h : w.MakesDirectory w') (s : Settings) : Unseen s w w' := by
  obtain ⟨names, name, hnone, hputs⟩ := h
  refine hputs.unseen fun dir _ => ?_
  rw [kindAt?_eq_none.mp hnone, paths_search_empty]
  rfl

/-- **No search sees directories that are made.** -/
theorem unseen_of_makes (h : Relation.ReflTransGen MakesDirectory w w') (s : Settings) :
    Unseen s w w' := by
  induction h with
  | refl => exact .refl s w
  | tail _ hstep ih => exact ih.trans (hstep.unseen s)

/-- **No search sees a file that is not accepted.** -/
theorem Puts.unseen_file (h : w.Puts names name (.file content) w')
    (hends : Path.EndsWith path name) (hentry : isEntryName name = true)
    (haccepts : s.accepts path = false) : Unseen s w w' := by
  refine h.unseen fun dir hne => ?_
  have hrefused : s.accepts (Path.join dir name) = false :=
    (Settings.accepts_of_ends (Path.endsWith_join hne hends.plain) hends hentry).trans haccepts
  rw [paths_search_file hrefused]
  cases hfound : w.top.descend? (names ++ [name]) with
  | none => rfl
  | some v =>
    cases v with
    | file content' => exact (paths_search_file hrefused name content').symm
    | directory entries => exact absurd (kindAt?_eq_directory.mpr ⟨entries, hfound⟩) h.free

/-! ## Reading after changes -/

/-- Where the path leads now it led before, unless there was nothing. -/
def Keeps (w w' : Workspace) (path : Text) : Prop :=
  ∀ back, w'.route path = .ok back →
    w.route path = .ok back ∨ w.top.kindAt? back.reverse = none

theorem Grows.keeps (h : w.Grows target w') {back : List Text} (hroute : w.route path = .ok back) :
    w.Keeps w' path := by
  intro back' hback
  rw [h.route hroute] at hback
  exact .inl (hback ▸ hroute)

/-- The parts of a route to an entry of a directory. -/
theorem route_join_eq_ok {back : List Text} (hdir : dir ≠ []) (hplain : '/' ∉ name)
    (hentry : isEntryName name = true) (h : w.route (Path.join dir name) = .ok back) :
    ∃ above, back = name :: above ∧ w.route dir = .ok above ∧ isTooLong name = false := by
  rw [route_join w hdir hplain] at h
  obtain ⟨above, habove, hstep⟩ := bind_eq_ok.mp h
  obtain ⟨hlong, hback⟩ := (routeStep_eq_ok hstep).2 hentry
  exact ⟨above, hback, habove, hlong⟩

theorem Keeps.join (h : w.Keeps w' dir) (hdir : dir ≠ []) (hplain : '/' ∉ name)
    (hentry : isEntryName name = true) : w.Keeps w' (Path.join dir name) := by
  intro back hback
  obtain ⟨above, rfl, habove, hlong⟩ := route_join_eq_ok hdir hplain hentry hback
  by_cases hkind : w.top.kindAt? above.reverse = some .directory
  · rcases h above habove with hroute | hnone
    · left
      rw [route_join w hdir hplain, hroute]
      exact routeStep_entry hkind hentry hlong
    · rw [hnone] at hkind
      cases hkind
  · right
    rw [List.reverse_cons]
    exact kindAt?_below hkind name []

/-- **Paths below a root that was there do not come to lead elsewhere.** -/
theorem Keeps.of_below (h : w.Keeps w' root) (hroot : root ≠ []) (hpath : Below root path) :
    w.Keeps w' path := by
  induction hpath with
  | root => exact h
  | entry hdir hplain hentry ih => exact ih.join (hdir.ne_nil hroot) hplain hentry

/-- **Files are where they were**, the one that was written apart. -/
theorem Grows.file_iff (h : w.Grows target w') (hkeeps : w.Keeps w' path)
    (hoff : w'.names? path ≠ some target) :
    (w'.names? path = some names ∧ w'.top.kindAt? names = some (.file content)) ↔
      (w.names? path = some names ∧ w.top.kindAt? names = some (.file content)) := by
  have hsame (heq : w'.names? path = some names) := h.same names content fun htarget =>
    hoff (htarget ▸ heq)
  constructor
  · rintro ⟨hnames, hkind⟩
    have hkind' := (hsame hnames).mp hkind
    obtain ⟨hvalid, hroute⟩ := names?_eq_some.mp hnames
    rcases hkeeps _ hroute with hroute' | hnone
    · exact ⟨names?_eq_some.mpr ⟨hvalid, hroute'⟩, hkind'⟩
    · rw [List.reverse_reverse, hkind'] at hnone
      cases hnone
  · rintro ⟨hnames, hkind⟩
    have hnames' := h.names? hnames
    exact ⟨hnames', (hsame hnames').mpr hkind⟩

theorem Grows.readText_iff (h : w.Grows target w') (hkeeps : w.Keeps w' path)
    (hoff : w'.names? path ≠ some target) (text : Text) :
    w'.readText path = .ok text ↔ w.readText path = .ok text := by
  simp only [readText_eq_ok, ← and_assoc, h.file_iff hkeeps hoff]

theorem Grows.isFileAt_congr (h : w.Grows target w') (hkeeps : w.Keeps w' path)
    (hoff : w'.names? path ≠ some target) : w'.isFileAt path = w.isFileAt path := by
  rw [Bool.eq_iff_iff]
  simp only [isFileAt_iff, h.file_iff hkeeps hoff]

/-- **A source does not lead to a file that is not accepted.** -/
theorem names?_of_isSource (h : IsSource s root path) (hroot : root ≠ []) {output : Text}
    (hends : Path.EndsWith output name) (hname : isEntryName name = true)
    (haccepts : s.accepts output = false) : w.names? path ≠ some (names ++ [name]) := by
  obtain ⟨hdir, hplain, hentry, hsource⟩ := h
  rename_i dir other
  intro hnames
  have hne := hdir.ne_nil hroot
  obtain ⟨above, hback, _⟩ :=
    route_join_eq_ok hne hplain hentry (names?_eq_some.mp hnames).2
  obtain ⟨rfl, _⟩ : name = other ∧ names.reverse = above := by simpa using hback
  rw [Settings.accepts_of_ends (Path.endsWith_join hne hplain) hends hname, haccepts] at hsource
  cases hsource

end Workspace

end CommentDocs
