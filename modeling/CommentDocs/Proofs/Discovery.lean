import CommentDocs.Proofs.Collection
import CommentDocs.Proofs.Searching

/-!
# Which files are collected

The search goes by listings: it filters them, one directory after the other, and sorts what it has
found at the end.  Here it is compared with the tree: a path is a source if certain names lead to a
file, which no order of the listings has a part in.

* `Path.components_below`: names below a directory come after its components, so the path tells
  which names were gone down.
* `Sources.LeadsToSource`: the names lead from the root to a source.
* `Sources.mem_searchEntries`, `Sources.nodup_searchEntries`: a search finds these, and each of them
  once.
* `FileTree.Relisted`: two trees differ in the order of their listings only.  A search finds the
  same in both, in another order (`Sources.searchEntries_perm`).
* `Sources.collect_directory`: so the files that are collected are those that names lead to, in the
  order of their components, whatever the order of the listings.
-/

set_option autoImplicit false

namespace CommentDocs

/-! ## The components of a path below a directory -/

namespace Path

variable {dir name : Text}

theorem components_cons {first : Text} {more : List Text} {path : Text} (hne : path ≠ [])
    (h : parts path = first :: more) :
    components path = (if first = [] then ['/'] else first) :: more.filter isNaming := by
  unfold components
  rw [h]
  split
  · exact absurd rfl hne
  · rename_i heq
    cases heq
  · rename_i heq
    cases heq
    rfl
  · rename_i hfirst _ heq
    cases heq
    rw [if_neg hfirst]

/-- **A name below a directory** is one more component. -/
theorem components_join (hdir : dir ≠ []) (hplain : '/' ∉ name) (hnaming : isNaming name = true) :
    components (join dir name) = components dir ++ [name] := by
  have hjoin := join_ne_nil hdir name
  rcases parts_join hdir hplain with h | ⟨before, hbefore, h⟩
  · cases hparts : parts dir with
    | nil => exact absurd hparts (parts_ne_nil dir)
    | cons first more =>
      rw [hparts, List.cons_append] at h
      rw [components_cons hjoin h, components_cons hdir hparts]
      simp [hnaming]
  · cases before with
    | nil =>
      -- a directory that ends with a slash has a part before that slash
      obtain ⟨_, heq | ⟨q, heq⟩⟩ := endsWith_of_parts hbefore
      · exact absurd heq hdir
      · rw [heq, parts_slash] at hbefore
        exact absurd (by simpa [parts] using hbefore) (parts_ne_nil q)
    | cons first more =>
      have hidle : isNaming [] = false := rfl
      rw [components_cons hjoin h, components_cons hdir hbefore]
      simp [hnaming, hidle]

/-- **Names below a directory** are its last components. -/
theorem components_below {names : List Text} (hdir : dir ≠ [])
    (hnames : ∀ name ∈ names, '/' ∉ name ∧ isNaming name = true) :
    components (names.foldl join dir) = components dir ++ names := by
  induction names generalizing dir with
  | nil => simp
  | cons name names ih =>
    obtain ⟨⟨hplain, hnaming⟩, hrest⟩ := List.forall_mem_cons.mp hnames
    rw [List.foldl_cons, ih (join_ne_nil hdir name) hrest, components_join hdir hplain hnaming,
      List.append_assoc, List.singleton_append]

end Path

namespace FileTree

variable {t u : FileTree} {name : Text} {names : List Text} {entries : List (Text × FileTree)}

/-! ## Trees in which a name stands for one entry -/

mutual

/-- Whether no directory of a tree has two entries of one name. -/
def hasDistinctNames : FileTree → Bool
  | .file _ => true
  | .directory entries => haveDistinctNames entries

/-- Whether no two of the entries, and no two of one directory below them, have the same name. -/
def haveDistinctNames : List (Text × FileTree) → Bool
  | [] => true
  | (name, t) :: entries =>
    !(entries.map (·.1)).contains name && hasDistinctNames t && haveDistinctNames entries

end

theorem haveDistinctNames_cons :
    haveDistinctNames ((name, t) :: entries) = true ↔
      name ∉ entries.map (·.1) ∧ t.hasDistinctNames = true ∧ haveDistinctNames entries = true := by
  rw [haveDistinctNames, Bool.and_eq_true, Bool.and_eq_true, and_assoc, Bool.not_eq_true']
  simp only [List.contains_eq_mem, decide_eq_false_iff_not]

theorem mem_names_of_child? (h : (directory entries).child? name = some u) :
    name ∈ entries.map (·.1) := by
  unfold child? FileTree.entries at h
  obtain ⟨e, hfound, _⟩ := Option.map_eq_some_iff.mp h
  have hname : e.1 = name := by simpa using List.find?_some hfound
  exact hname ▸ List.mem_map_of_mem (List.mem_of_find?_eq_some hfound)

theorem canName_child (h : areProper entries = true)
    (hchild : (directory entries).child? name = some u) : canName name = true := by
  induction entries with
  | nil => cases hchild
  | cons e entries ih =>
    obtain ⟨hname, _, hrest⟩ := areProper_cons.mp h
    rw [child?_cons] at hchild
    split at hchild
    · rename_i heq
      exact heq ▸ hname
    · exact ih hrest hchild

/-- Names that lead somewhere in a proper tree are names that entries can have. -/
theorem canName_descend (h : t.isProper = true) (hfound : t.descend? names = some u) :
    ∀ name ∈ names, canName name = true := by
  induction names generalizing t with
  | nil => simp
  | cons name names ih =>
    obtain ⟨v, hchild, hrest⟩ := Option.bind_eq_some_iff.mp hfound
    refine List.forall_mem_cons.mpr ⟨?_, ih (isProper_child h hchild) hrest⟩
    cases t with
    | file content => cases hchild
    | directory entries => exact canName_child h hchild

/-! ## Trees that differ in the order of their listings -/

mutual

/-- Two trees differ in the order of their listings only. -/
inductive Relisted : FileTree → FileTree → Prop where
  | file (content : ByteArray) : Relisted (.file content) (.file content)
  | directory {entries entries' : List (Text × FileTree)} (h : RelistedEntries entries entries') :
      Relisted (.directory entries) (.directory entries')

/-- Two listings have the same entries in some order, and so have the directories below them. -/
inductive RelistedEntries : List (Text × FileTree) → List (Text × FileTree) → Prop where
  | nil : RelistedEntries [] []
  | cons {entries entries' : List (Text × FileTree)} {t t' : FileTree} (name : Text)
      (hfirst : Relisted t t') (hrest : RelistedEntries entries entries') :
      RelistedEntries ((name, t) :: entries) ((name, t') :: entries')
  | swap (e e' : Text × FileTree) (entries : List (Text × FileTree)) :
      RelistedEntries (e :: e' :: entries) (e' :: e :: entries)
  | trans {entries entries' entries'' : List (Text × FileTree)}
      (h : RelistedEntries entries entries') (h' : RelistedEntries entries' entries'') :
      RelistedEntries entries entries''

end

mutual

theorem Relisted.refl : ∀ t : FileTree, Relisted t t
  | .file content => .file content
  | .directory entries => .directory (RelistedEntries.refl entries)

theorem RelistedEntries.refl : ∀ entries : List (Text × FileTree), RelistedEntries entries entries
  | [] => .nil
  | (name, t) :: entries => .cons name (Relisted.refl t) (RelistedEntries.refl entries)

end

/-- A listing may come in any order. -/
theorem RelistedEntries.of_perm {entries entries' : List (Text × FileTree)}
    (h : entries.Perm entries') : RelistedEntries entries entries' := by
  induction h with
  | nil => exact .nil
  | cons e _ ih => exact .cons e.1 (.refl e.2) ih
  | swap e e' entries => exact .swap e' e entries
  | trans _ _ ih ih' => exact .trans ih ih'

end FileTree

namespace Sources

open FileTree

variable {s : Settings} {dir name path root : Text} {names : List Text} {t u : FileTree}
  {entries entries' : List (Text × FileTree)}

/-! ## What a search finds -/

/-- The names lead down from `dir`, where the tree `t` is, to a source: a file that no hidden name
and no excluded directory is on the way to, and that has the extension of a source. -/
structure LeadsToSource (s : Settings) (t : FileTree) (dir : Text) (names : List Text)
    (path : Text) : Prop where
  path_eq : path = names.foldl Path.join dir
  file : ∃ content, t.descend? names = some (.file content)
  visible : ∀ name ∈ names, name.head? ≠ some '.'
  searched : ∀ name ∈ names.dropLast, name ∉ s.exclude
  extension : ∃ extension ∈ s.extensions, Path.extension? path = some extension

theorem accepts_iff :
    s.accepts path = true ↔ ∃ extension ∈ s.extensions, Path.extension? path = some extension := by
  unfold Settings.accepts
  cases Path.extension? path <;> simp

theorem excludes_iff : s.excludes name = true ↔ name ∈ s.exclude := by
  unfold Settings.excludes
  simp

theorem isHidden_iff : isHidden name = true ↔ name.head? = some '.' := by
  unfold isHidden
  simp

/-- Names lead to a source if the first one is visible and the others do, from the entry that it
names. -/
theorem leadsToSource_cons : LeadsToSource s t dir (name :: names) path ↔
    name.head? ≠ some '.' ∧ (names ≠ [] → name ∉ s.exclude) ∧
      ∃ u, t.child? name = some u ∧ LeadsToSource s u (Path.join dir name) names path := by
  constructor
  · rintro ⟨hpath, ⟨content, hfile⟩, hvisible, hsearched, hextension⟩
    obtain ⟨u, hchild, hrest⟩ := Option.bind_eq_some_iff.mp hfile
    obtain ⟨hfirst, hvisible⟩ := List.forall_mem_cons.mp hvisible
    refine ⟨hfirst, ?_, u, hchild, hpath, ⟨content, hrest⟩, hvisible, ?_, hextension⟩
    · intro hne
      exact hsearched name (by simp [List.dropLast_cons_of_ne_nil hne])
    · intro other hother
      have hne : names ≠ [] := by rintro rfl; cases hother
      exact hsearched other (by simp [List.dropLast_cons_of_ne_nil hne, hother])
  · rintro ⟨hfirst, hentered, u, hchild, hpath, ⟨content, hrest⟩, hvisible, hsearched, hextension⟩
    refine ⟨hpath, ⟨content, ?_⟩, List.forall_mem_cons.mpr ⟨hfirst, hvisible⟩, ?_, hextension⟩
    · rw [descend?, hchild]
      exact hrest
    · cases names with
      | nil => simp
      | cons next names =>
        rw [List.dropLast_cons_of_ne_nil (List.cons_ne_nil _ _)]
        exact List.forall_mem_cons.mpr ⟨hentered (List.cons_ne_nil _ _), hsearched⟩

/-- The only source in a file is that file. -/
theorem leadsToSource_file {content : ByteArray} :
    LeadsToSource s (.file content) dir names path ↔
      names = [] ∧ path = dir ∧ s.accepts dir = true := by
  rw [accepts_iff]
  constructor
  · rintro ⟨hpath, ⟨found, hfile⟩, _, _, hextension⟩
    cases names with
    | nil =>
      cases hpath
      exact ⟨rfl, rfl, hextension⟩
    | cons name names => cases hfile
  · rintro ⟨rfl, rfl, hextension⟩
    exact ⟨rfl, ⟨content, rfl⟩, by simp, by simp, hextension⟩

/-- A directory is not a source itself. -/
theorem LeadsToSource.ne_nil (h : LeadsToSource s (.directory entries) dir names path) :
    names ≠ [] := by
  rintro rfl
  obtain ⟨content, hfile⟩ := h.file
  cases hfile

/-- Names lead to a source in the first of some entries or in the others. -/
theorem leadsToSource_entries (hname : name ∉ entries.map (·.1)) :
    (∃ names, LeadsToSource s (.directory ((name, t) :: entries)) dir names path) ↔
      (name.head? ≠ some '.' ∧ ∃ names, (names ≠ [] → name ∉ s.exclude) ∧
        LeadsToSource s t (Path.join dir name) names path) ∨
      ∃ names, LeadsToSource s (.directory entries) dir names path := by
  constructor
  · rintro ⟨names, hleads⟩
    obtain ⟨first, names, rfl⟩ := List.exists_cons_of_ne_nil hleads.ne_nil
    obtain ⟨hvisible, hentered, u, hchild, hrest⟩ := leadsToSource_cons.mp hleads
    rw [child?_cons] at hchild
    split at hchild
    · rename_i heq
      cases heq
      cases hchild
      exact .inl ⟨hvisible, names, hentered, hrest⟩
    · exact .inr ⟨first :: names, leadsToSource_cons.mpr ⟨hvisible, hentered, u, hchild, hrest⟩⟩
  · rintro (⟨hvisible, names, hentered, hrest⟩ | ⟨names, hleads⟩)
    · refine ⟨name :: names, leadsToSource_cons.mpr ⟨hvisible, hentered, t, ?_, hrest⟩⟩
      rw [child?_cons, if_pos rfl]
    · obtain ⟨first, names, rfl⟩ := List.exists_cons_of_ne_nil hleads.ne_nil
      obtain ⟨hvisible, hentered, u, hchild, hrest⟩ := leadsToSource_cons.mp hleads
      refine ⟨first :: names, leadsToSource_cons.mpr ⟨hvisible, hentered, u, ?_, hrest⟩⟩
      -- the name of the first entry is not that of one of the others
      have hne : name ≠ first := fun heq => hname (heq ▸ mem_names_of_child? hchild)
      rw [child?_cons, if_neg hne]
      exact hchild

mutual

/-- What a search finds at an entry are the sources in it, unless it is an excluded directory. -/
theorem mem_search (s : Settings) (name dir path : Text) : ∀ t : FileTree,
    t.hasDistinctNames = true →
    (path ∈ paths (search s name dir t) ↔
      ∃ names, (names ≠ [] → name ∉ s.exclude) ∧ LeadsToSource s t dir names path)
  | .file content, _ => by
    simp only [leadsToSource_file]
    rw [search]
    split
    · rename_i haccepts
      simp [paths, haccepts]
    · rename_i hrefused
      simp [paths, hrefused]
  | .directory entries, hdistinct => by
    rw [search]
    split
    · rename_i hexcluded
      constructor
      · intro hpath
        cases hpath
      · rintro ⟨names, hentered, hleads⟩
        exact absurd (excludes_iff.mp hexcluded) (hentered hleads.ne_nil)
    · rename_i hentered
      rw [hasDistinctNames] at hdistinct
      rw [mem_searchEntries s dir path entries hdistinct]
      simp [← excludes_iff, hentered]

/-- **What a search finds in a directory** are the sources that names lead to. -/
theorem mem_searchEntries (s : Settings) (dir path : Text) : ∀ entries : List (Text × FileTree),
    haveDistinctNames entries = true →
    (path ∈ paths (searchEntries s dir entries) ↔
      ∃ names, LeadsToSource s (.directory entries) dir names path)
  | [], _ => by
    constructor
    · intro hpath
      rw [searchEntries] at hpath
      cases hpath
    · rintro ⟨names, hleads⟩
      obtain ⟨first, names, rfl⟩ := List.exists_cons_of_ne_nil hleads.ne_nil
      obtain ⟨_, _, u, hchild, _⟩ := leadsToSource_cons.mp hleads
      cases hchild
  | (name, t) :: entries, hdistinct => by
    obtain ⟨hname, ht, hentries⟩ := haveDistinctNames_cons.mp hdistinct
    rw [leadsToSource_entries hname, searchEntries, paths_append, List.mem_append,
      mem_searchEntries s dir path entries hentries, ← mem_search s name _ path t ht,
      Ne, ← isHidden_iff]
    split
    · rename_i hhidden
      simp [paths, hhidden]
    · rename_i hvisible
      simp [hvisible]

end

/-! ## Each source is found once -/

/-- The names that lead to a source are the components of its path below the directory. -/
theorem LeadsToSource.components (h : LeadsToSource s t dir names path) (hdir : dir ≠ [])
    (hproper : t.isProper = true) : Path.components path = Path.components dir ++ names := by
  obtain ⟨content, hfile⟩ := h.file
  rw [h.path_eq]
  refine Path.components_below hdir fun name hname => ?_
  have hvisible : isHidden name = false :=
    Bool.eq_false_iff.mpr (mt isHidden_iff.mp (h.visible name hname))
  obtain ⟨hplain, hentry⟩ := canName_visible (canName_descend hproper hfile name hname) hvisible
  exact ⟨hplain, (Bool.and_eq_true_iff.mp hentry).1⟩

mutual

theorem nodup_search (s : Settings) (name : Text) {dir : Text} (hdir : dir ≠ []) :
    ∀ t : FileTree, t.isProper = true → t.hasDistinctNames = true →
    (paths (search s name dir t)).Nodup
  | .file content, _, _ => by
    rw [search]
    split <;> simp [paths]
  | .directory entries, hproper, hdistinct => by
    rw [search]
    split
    · simp [paths]
    · rw [isProper] at hproper
      rw [hasDistinctNames] at hdistinct
      exact nodup_searchEntries s hdir entries hproper hdistinct

/-- **A search finds no source twice.** -/
theorem nodup_searchEntries (s : Settings) {dir : Text} (hdir : dir ≠ []) :
    ∀ entries : List (Text × FileTree), areProper entries = true →
    haveDistinctNames entries = true → (paths (searchEntries s dir entries)).Nodup
  | [], _, _ => by
    rw [searchEntries]
    exact List.nodup_nil
  | (name, t) :: entries, hproper, hdistinct => by
    obtain ⟨hcan, htproper, hentriesproper⟩ := areProper_cons.mp hproper
    obtain ⟨hname, ht, hentries⟩ := haveDistinctNames_cons.mp hdistinct
    have hrest := nodup_searchEntries s hdir entries hentriesproper hentries
    rw [searchEntries, paths_append]
    split
    · exact hrest
    · rename_i hvisible
      refine List.nodup_append.mpr
        ⟨nodup_search s name (Path.join_ne_nil hdir name) t htproper ht, hrest, ?_⟩
      rintro path hpath _ hpath' rfl
      obtain ⟨names, _, hleads⟩ := (mem_search s name _ path t ht).mp hpath
      obtain ⟨names', hleads'⟩ := (mem_searchEntries s dir path entries hentries).mp hpath'
      obtain ⟨first, names', rfl⟩ := List.exists_cons_of_ne_nil hleads'.ne_nil
      obtain ⟨hplain, hentry⟩ := canName_visible hcan (Bool.eq_false_iff.mpr hvisible)
      -- the component after the directory is the name of the entry that the path was found in
      have hcomponents := hleads.components (Path.join_ne_nil hdir name) htproper
      rw [hleads'.components hdir hentriesproper,
        Path.components_join hdir hplain (Bool.and_eq_true_iff.mp hentry).1,
        List.append_assoc] at hcomponents
      obtain ⟨rfl, _⟩ : first = name ∧ names' = names := by simpa using hcomponents
      obtain ⟨_, _, u, hchild, _⟩ := leadsToSource_cons.mp hleads'
      exact hname (mem_names_of_child? hchild)

end

/-! ## The order of the listings -/

mutual

theorem search_perm (s : Settings) (name dir : Text) {t t' : FileTree} :
    Relisted t t' → (search s name dir t).Perm (search s name dir t')
  | .file content => .refl _
  | .directory h => by
    rw [search, search]
    split
    · exact .refl _
    · exact searchEntries_perm s dir h

/-- **A search finds the same in every order of the listings**, in another order. -/
theorem searchEntries_perm (s : Settings) (dir : Text) {entries entries' : List (Text × FileTree)} :
    RelistedEntries entries entries' →
      (searchEntries s dir entries).Perm (searchEntries s dir entries')
  | .nil => .refl _
  | .cons name hfirst hrest => by
    rw [searchEntries, searchEntries]
    refine List.Perm.append ?_ (searchEntries_perm s dir hrest)
    split
    · exact .refl _
    · exact search_perm s name _ hfirst
  | .swap e e' entries => by
    rw [searchEntries, searchEntries, searchEntries, searchEntries, ← List.append_assoc,
      ← List.append_assoc]
    exact List.perm_append_comm.append_right _
  | .trans h h' => (searchEntries_perm s dir h).trans (searchEntries_perm s dir h')

end

/-! ## The files that are collected -/

theorem sorted_perm (found : List Found) : (sorted found).Perm (paths found) :=
  List.mergeSort_perm _ _

theorem collect_of_lookup {w : Workspace} (h : w.lookup root = .ok (.directory entries)) :
    collect w s root = .ok (sorted (searchEntries s root entries)) := by
  rw [collect, find, h]

/-- There is one order of what was found in which the paths are sorted, if no two of them have the
same components. -/
theorem sorted_eq_of_perm {found : List Found} {files : List Text}
    (hperm : files.Perm (paths found))
    (hsorted : files.Pairwise fun a b => Path.components a ≤ Path.components b)
    (hdistinct : ∀ a ∈ files, ∀ b ∈ files, Path.components a = Path.components b → a = b) :
    sorted found = files := by
  have hsame := (sorted_perm found).trans hperm.symm
  refine List.Perm.eq_of_pairwise ?_ (sorted_pairwise found) hsorted hsame
  intro a b ha hb hle hge
  exact hdistinct a (hsame.mem_iff.mp ha) b hb (le_antisymm hle hge)

/-- **The files that are collected in a directory** are those that visible names lead to, over
directories that are not excluded, and that have the extension of a source.  Each is there once, in
the order of components, and the order of the listings makes no difference. -/
theorem collect_directory (w : Workspace) (s : Settings) (root : Text)
    (entries : List (Text × FileTree)) (hroot : w.lookup root = .ok (.directory entries))
    (hproper : (directory entries).isProper = true)
    (hdistinct : (directory entries).hasDistinctNames = true) :
    ∃ files, collect w s root = .ok files ∧
      files.Nodup ∧
      (files.Pairwise fun a b => Path.components a ≤ Path.components b) ∧
      (∀ path, path ∈ files ↔ ∃ names, LeadsToSource s (.directory entries) root names path) ∧
      ∀ (w' : Workspace) (entries' : List (Text × FileTree)),
        w'.lookup root = .ok (.directory entries') →
        Relisted (.directory entries) (.directory entries') → collect w' s root = .ok files := by
  have hne : root ≠ [] := by
    rintro rfl
    cases hroot
  have hperm := sorted_perm (searchEntries s root entries)
  have hmem (path : Text) : path ∈ sorted (searchEntries s root entries) ↔
      ∃ names, LeadsToSource s (.directory entries) root names path := by
    rw [hperm.mem_iff, mem_searchEntries s root path entries hdistinct]
  refine ⟨_, collect_of_lookup hroot, ?_, sorted_pairwise _, hmem, ?_⟩
  · exact hperm.nodup_iff.mpr (nodup_searchEntries s hne entries hproper hdistinct)
  · rintro w' entries' hroot' (_ | hlisted)
    have hpaths : (paths (searchEntries s root entries)).Perm
        (paths (searchEntries s root entries')) :=
      (searchEntries_perm s root hlisted).filterMap _
    rw [collect_of_lookup hroot',
      sorted_eq_of_perm (hperm.trans hpaths) (sorted_pairwise _) fun a ha b hb heq => ?_]
    obtain ⟨names, hleads⟩ := (hmem a).mp ha
    obtain ⟨names', hleads'⟩ := (hmem b).mp hb
    rw [hleads.components hne hproper, hleads'.components hne hproper] at heq
    rw [hleads.path_eq, hleads'.path_eq, List.append_cancel_left heq]

/-- The component `a` comes before `a-b`, although a slash comes after a hyphen.  A file may have the
name of excluded directories; a hidden file and a hidden directory are passed over. -/
theorem collect_directory_relisted :
    let s : Settings := { exclude := ["target", "y.js"] }
    let source : FileTree := .file ⟨#[]⟩
    let first := ("a-b".toList, FileTree.directory [("x.c", source), ("c", source)])
    let second := ("a".toList, FileTree.directory [("y.js", source), ("x.c", source)])
    let second' := ("a".toList, FileTree.directory [("x.c", source), ("y.js", source)])
    let more : List (Text × FileTree) := [(".c", source), ("target.c", source),
      ("target", .directory [("z.c", source)]), (".git", .directory [("z.c", source)])]
    let w : Workspace := ⟨.directory [("src", .directory (first :: second :: more))], []⟩
    let w' : Workspace := ⟨.directory [("src", .directory (second' :: first :: more))], []⟩
    let files : List Text := ["src/a/x.c", "src/a/y.js", "src/a-b/x.c", "src/target.c"]
    w.lookup "src" = .ok (.directory (first :: second :: more)) ∧
      w'.lookup "src" = .ok (.directory (second' :: first :: more)) ∧
      (directory (first :: second :: more)).isProper = true ∧
      (directory (first :: second :: more)).hasDistinctNames = true ∧
      Relisted (.directory (first :: second :: more)) (.directory (second' :: first :: more)) ∧
      collect w s "src" = .ok files ∧ collect w' s "src" = .ok files ∧
      ∀ path, path ∈ files ↔
        ∃ names, LeadsToSource s (.directory (first :: second :: more)) "src" names path := by
  intro s source first second second' more w w' files
  have hroot : w.lookup "src" = .ok (.directory (first :: second :: more)) := by rfl
  have hroot' : w'.lookup "src" = .ok (.directory (second' :: first :: more)) := by rfl
  have hproper : (directory (first :: second :: more)).isProper = true := by decide +kernel
  have hdistinct : (directory (first :: second :: more)).hasDistinctNames = true := by
    decide +kernel
  have hlisted : Relisted (.directory (first :: second :: more))
      (.directory (second' :: first :: more)) :=
    .directory (.trans
      (.cons _ (.refl _) (.cons _ (.directory (.of_perm (.swap _ _ _))) (.refl more)))
      (.of_perm (.swap _ _ _)))
  have hsorted : files.Pairwise fun a b => Path.le a b = true := by decide +kernel
  have hfiles : collect w s "src" = .ok files := by
    rw [collect_of_lookup hroot, sorted_eq_of_perm (by decide +kernel)
      (hsorted.imp Path.le_iff.mp) (by decide +kernel)]
  obtain ⟨found, hfound, _, _, hmem, hsame⟩ :=
    collect_directory w s "src" _ hroot hproper hdistinct
  obtain rfl : files = found := Except.ok.inj (hfiles.symm.trans hfound)
  exact ⟨hroot, hroot', hproper, hdistinct, hlisted, hfiles, hsame w' _ hroot' hlisted, hmem⟩

end Sources

end CommentDocs
