import CommentDocs.Proofs.PathParts

/-!
# Where paths lead

Following a path depends only on which names lead to directories and which to files, so two trees
can be compared by what there is at the end of each list of names.

* `kindAt?`: what there is at the end of names.
* `route`: following a path as a walk over names; it goes where `follow` goes (`follow_place`).
* `Workspace.names?`: the names that a path stands for, and what reading it gives in terms of them
  (`lookup_eq_ok`, `readText_eq_ok`).
* `locateSlot_eq_ok`: the directory that the last part of a path is looked for in.
* `route_join`, `route_parent`: the route of a name below a directory, and of the directory that a
  name is in, whatever slashes and dots the path is written with.
-/

set_option autoImplicit false

namespace CommentDocs

namespace FileTree

/-- What there is in a place. -/
inductive Kind where
  | directory
  | file (content : ByteArray)

/-- What the tree is, without what is below it. -/
def kind : FileTree → Kind
  | .file content => .file content
  | .directory _ => .directory

/-- What there is at the end of the names. -/
def kindAt? (t : FileTree) (names : List Text) : Option Kind := (t.descend? names).map kind

variable {t u : FileTree} {back names : List Text} {name part : Text} {content : ByteArray}

theorem kindAt?_eq_file :
    t.kindAt? names = some (.file content) ↔ t.descend? names = some (.file content) := by
  unfold kindAt?
  cases t.descend? names with
  | none => simp
  | some u => cases u <;> simp [kind]

theorem kindAt?_eq_directory :
    t.kindAt? names = some .directory ↔ ∃ entries, t.descend? names = some (.directory entries) := by
  unfold kindAt?
  cases t.descend? names with
  | none => simp
  | some u => cases u <;> simp [kind]

theorem kindAt?_eq_none : t.kindAt? names = none ↔ t.descend? names = none := by
  simp [kindAt?]

theorem descend?_append (t : FileTree) (first more : List Text) :
    t.descend? (first ++ more) = (t.descend? first).bind fun u => u.descend? more := by
  induction first generalizing t with
  | nil => rfl
  | cons name first ih =>
    rw [List.cons_append, descend?, descend?, Option.bind_assoc]
    congr 1
    funext u
    exact ih u

theorem descend?_concat (t : FileTree) (names : List Text) (name : Text) :
    t.descend? (names ++ [name]) = (t.descend? names).bind fun u => u.child? name := by
  rw [descend?_append]
  congr 1
  funext u
  cases h : u.child? name <;> simp [descend?, h]

theorem descend?_of_entries_nil (hu : u.entries = []) (name : Text) (more : List Text) :
    u.descend? (name :: more) = none := by
  rw [descend?, child?, hu]
  rfl

/-- There is nothing below what is no directory. -/
theorem kindAt?_below (h : t.kindAt? names ≠ some .directory) (name : Text) (more : List Text) :
    t.kindAt? (names ++ name :: more) = none := by
  rw [kindAt?_eq_none, descend?_append]
  cases hu : t.descend? names with
  | none => rfl
  | some u =>
    cases u with
    | file content => exact descend?_of_entries_nil (u := .file content) rfl name more
    | directory entries => exact absurd (kindAt?_eq_directory.mpr ⟨entries, hu⟩) h

/-! ## Routes -/

/-- Go by one part of a path, from the place at the end of names that are given backwards. -/
def routeStep (t : FileTree) (back : List Text) (part : Text) : Except FileError (List Text) :=
  match t.kindAt? back.reverse with
  | none => .error .notFound
  | some (.file _) => .error .notDirectory
  | some .directory =>
    if !Path.isNaming part then .ok back
    else if part = ['.', '.'] then .ok back.tail
    else if isTooLong part then .error .nameTooLong
    else .ok (part :: back)

/-- Go by the parts of a path. -/
def route (t : FileTree) (back : List Text) : List Text → Except FileError (List Text)
  | [] => .ok back
  | part :: parts => (t.routeStep back part).bind fun back' => t.route back' parts

/-- Where two steps lead, both lead somewhere. -/
theorem bind_eq_ok {x : Except FileError (List Text)} {f : List Text → Except FileError (List Text)} :
    x.bind f = .ok names ↔ ∃ back, x = .ok back ∧ f back = .ok names := by
  cases x <;> simp [Except.bind]

/-- A step from a place is a step over its names. -/
theorem step_place (t : FileTree) (back : List Text) (part : Text) :
    t.step (t.place back) part = (t.routeStep back part).map t.place := by
  unfold step routeStep kindAt? place
  cases h : t.descend? back.reverse with
  | none => rfl
  | some u =>
    cases u with
    | file content => rfl
    | directory entries =>
      simp only [Option.map_some, kind]
      split
      · simp only [Except.map, h]
      · split
        · rfl
        · split
          · rfl
          · simp only [Except.map, List.reverse_cons, descend?_concat, h, Option.bind_some]

/-- **Following a path is a walk over names.** -/
theorem follow_place (t : FileTree) (back parts : List Text) :
    t.follow (t.place back) parts = (t.route back parts).map t.place := by
  induction parts generalizing back with
  | nil => rfl
  | cons part parts ih =>
    rw [follow, route, step_place]
    cases t.routeStep back part with
    | error e => rfl
    | ok back' => exact ih back'

theorem route_append (t : FileTree) (back first more : List Text) :
    t.route back (first ++ more) = (t.route back first).bind fun back' => t.route back' more := by
  induction first generalizing back with
  | nil => rfl
  | cons part first ih =>
    rw [List.cons_append, route, route]
    cases t.routeStep back part with
    | error e => rfl
    | ok back' => exact ih back'

theorem route_singleton (t : FileTree) (back : List Text) (part : Text) :
    t.route back [part] = t.routeStep back part := by
  rw [route]
  cases t.routeStep back part <;> rfl

theorem route_concat (t : FileTree) (back before : List Text) (part : Text) :
    t.route back (before ++ [part]) =
      (t.route back before).bind fun back' => t.routeStep back' part := by
  rw [route_append]
  simp only [route_singleton]

/-- A part that names nothing only asks for a directory, and so does every other part. -/
theorem routeStep_idle {idle : Text} (hidle : Path.isNaming idle = false) (t : FileTree)
    (back : List Text) (part : Text) :
    ((t.routeStep back idle).bind fun back' => t.routeStep back' part) =
      t.routeStep back part := by
  unfold routeStep
  cases h : t.kindAt? back.reverse with
  | none => rfl
  | some k =>
    cases k with
    | file content => rfl
    | directory => simp [hidle, Except.bind, h]

/-- Before another part, a part that names nothing makes no difference. -/
theorem route_concat_idle {idle : Text} (hidle : Path.isNaming idle = false) (t : FileTree)
    (back before : List Text) (part : Text) :
    ((t.route back (before ++ [idle])).bind fun back' => t.routeStep back' part) =
      (t.route back before).bind fun back' => t.routeStep back' part := by
  rw [route_concat]
  cases t.route back before with
  | error e => rfl
  | ok back' => exact routeStep_idle hidle t back' part

/-- From a directory, a name leads to the entry under it. -/
theorem routeStep_entry (hdir : t.kindAt? back.reverse = some .directory)
    (hentry : Workspace.isEntryName part = true) (hlong : isTooLong part = false) :
    t.routeStep back part = .ok (part :: back) := by
  obtain ⟨hnaming, hup⟩ := Bool.and_eq_true_iff.mp hentry
  simp [routeStep, hdir, hnaming, bne_iff_ne.mp hup, hlong]

/-- Where a step leads, it came from a directory; a name leads to the entry under it. -/
theorem routeStep_eq_ok {back' : List Text} (h : t.routeStep back part = .ok back') :
    t.kindAt? back.reverse = some .directory ∧
      (Workspace.isEntryName part = true → isTooLong part = false ∧ back' = part :: back) := by
  unfold routeStep at h
  split at h
  · cases h
  · cases h
  · rename_i hdir
    refine ⟨hdir, fun hentry => ?_⟩
    obtain ⟨hnaming, hup⟩ := Bool.and_eq_true_iff.mp hentry
    rw [hnaming, if_neg (by simp), if_neg (bne_iff_ne.mp hup)] at h
    split at h
    · cases h
    · rename_i hlong
      cases h
      exact ⟨Bool.eq_false_iff.mpr hlong, rfl⟩

/-- Parts that name nothing lead nowhere else. -/
theorem route_idle {idles : List Text} (hidle : ∀ part ∈ idles, Path.isNaming part = false)
    (hdir : t.kindAt? back.reverse = some .directory) : t.route back idles = .ok back := by
  induction idles with
  | nil => rfl
  | cons part idles ih =>
    obtain ⟨hpart, hidles⟩ := List.forall_mem_cons.mp hidle
    have hstep : t.routeStep back part = .ok back := by simp [routeStep, hdir, hpart]
    rw [route, hstep]
    exact ih hidles

theorem route_idle_eq_ok {idles back' : List Text}
    (hidle : ∀ part ∈ idles, Path.isNaming part = false) (h : t.route back idles = .ok back') :
    back' = back ∧ (idles ≠ [] → t.kindAt? back.reverse = some .directory) := by
  cases idles with
  | nil =>
    cases h
    exact ⟨rfl, fun hne => absurd rfl hne⟩
  | cons part idles =>
    have hdir : t.kindAt? back.reverse = some .directory := by
      rw [route] at h
      obtain ⟨_, hstep, _⟩ := bind_eq_ok.mp h
      exact (routeStep_eq_ok hstep).1
    rw [route_idle hidle hdir] at h
    cases h
    exact ⟨rfl, fun _ => hdir⟩

end FileTree

namespace Workspace

open FileTree

variable {w : Workspace} {path : Text} {names : List Text} {content : ByteArray}

/-- The names, backwards, that a path starts from. -/
def startBack (w : Workspace) (path : Text) : List Text :=
  if path.head? == some '/' then [] else w.home.reverse

/-- The names, backwards, that a path leads to. -/
def route (w : Workspace) (path : Text) : Except FileError (List Text) :=
  w.top.route (w.startBack path) (Path.parts path)

theorem startBack_congr {path' : Text} (w : Workspace) (h : path.head? = path'.head?) :
    w.startBack path = w.startBack path' := by
  rw [startBack, startBack, h]

/-- The names that a path stands for, whether or not there is something. -/
def names? (w : Workspace) (path : Text) : Option (List Text) :=
  match pathError? path, w.top.follow (w.start path) (Path.parts path) with
  | none, .ok place => some place.back.reverse
  | _, _ => none

theorem follow_start (w : Workspace) (path : Text) (parts : List Text) :
    w.top.follow (w.start path) parts = (w.top.route (w.startBack path) parts).map w.top.place :=
  follow_place w.top (w.startBack path) parts

theorem names?_eq_some :
    w.names? path = some names ↔ pathError? path = none ∧ w.route path = .ok names.reverse := by
  unfold names?
  rw [follow_start, route]
  cases pathError? path with
  | some e => simp
  | none =>
    cases w.top.route (w.startBack path) (Path.parts path) with
    | error e => simp [Except.map]
    | ok back => simp [Except.map, place, List.reverse_eq_iff]

theorem ne_nil_of_names? (h : w.names? path = some names) : path ≠ [] := by
  rintro rfl
  cases (names?_eq_some.mp h).1

/-- **What a path stands for** is at the end of its names. -/
theorem lookup_eq_ok {t : FileTree} :
    w.lookup path = .ok t ↔ ∃ names, w.names? path = some names ∧ w.top.descend? names = some t := by
  simp only [names?_eq_some]
  unfold lookup
  rw [follow_start, route]
  cases pathError? path with
  | some e => simp
  | none =>
    cases w.top.route (w.startBack path) (Path.parts path) with
    | error e => simp [Except.map]
    | ok back =>
      simp only [Except.map, place, true_and, Except.ok.injEq, ← List.reverse_eq_iff,
        exists_eq_left']
      cases w.top.descend? back.reverse <;> simp

theorem isFileAt_iff : w.isFileAt path = true ↔
    ∃ names content, w.names? path = some names ∧ w.top.kindAt? names = some (.file content) := by
  simp only [kindAt?_eq_file]
  have hlookup : w.isFileAt path = true ↔ ∃ content, w.lookup path = .ok (.file content) := by
    unfold isFileAt
    split <;> simp_all
  rw [hlookup]
  simp only [lookup_eq_ok]
  exact exists_comm

theorem isDirectoryAt_iff : w.isDirectoryAt path = true ↔
    ∃ names, w.names? path = some names ∧ w.top.kindAt? names = some .directory := by
  simp only [kindAt?_eq_directory]
  have hlookup : w.isDirectoryAt path = true ↔ ∃ entries, w.lookup path = .ok (.directory entries) := by
    unfold isDirectoryAt
    split <;> simp_all
  rw [hlookup]
  simp only [lookup_eq_ok]
  constructor
  · rintro ⟨entries, names, hnames, hfound⟩
    exact ⟨names, hnames, entries, hfound⟩
  · rintro ⟨names, hnames, entries, hfound⟩
    exact ⟨entries, names, hnames, hfound⟩

/-- **What is read at a path** is the text of the file at the end of its names. -/
theorem readText_eq_ok {text : Text} : w.readText path = .ok text ↔
    ∃ names content, w.names? path = some names ∧ w.top.kindAt? names = some (.file content) ∧
      (String.fromUTF8? content).map String.toList = some text := by
  simp only [kindAt?_eq_file]
  have hlookup : w.readText path = .ok text ↔ ∃ content, w.lookup path = .ok (.file content) ∧
      (String.fromUTF8? content).map String.toList = some text := by
    unfold readText
    cases w.lookup path with
    | error e => simp
    | ok t =>
      cases t with
      | directory entries => simp
      | file content => cases h : String.fromUTF8? content <;> simp [h]
  rw [hlookup]
  simp only [lookup_eq_ok]
  constructor
  · rintro ⟨content, ⟨names, hnames, hfound⟩, htext⟩
    exact ⟨names, content, hnames, hfound, htext⟩
  · rintro ⟨names, content, hnames, hfound, htext⟩
    exact ⟨content, ⟨names, hnames, hfound⟩, htext⟩

/-- **The slot of a path** is in the directory that the parts before the last one lead to. -/
theorem locateSlot_eq_ok {s : Slot} : w.locateSlot path = .ok s ↔
    pathError? path = none ∧ w.top.route (w.startBack path) (splitLast path).1 = .ok s.back ∧
      w.top.kindAt? s.back.reverse = some .directory ∧ s.name = (splitLast path).2 ∧
      s.found = w.top.descend? (s.back.reverse ++ [s.name]) := by
  obtain ⟨back, name, found⟩ := s
  unfold locateSlot
  rw [follow_start]
  cases pathError? path with
  | some e => simp
  | none =>
    cases w.top.route (w.startBack path) (splitLast path).1 with
    | error e => simp [Except.map]
    | ok back' =>
      simp only [Except.map, place, true_and, Except.ok.injEq, descend?_concat]
      cases hfound : w.top.descend? back'.reverse with
      | none =>
        constructor
        · intro h
          cases h
        · rintro ⟨rfl, hdir, _⟩
          rw [kindAt?, hfound] at hdir
          cases hdir
      | some u =>
        cases u with
        | file content =>
          constructor
          · intro h
            cases h
          · rintro ⟨rfl, hdir, _⟩
            rw [kindAt?, hfound] at hdir
            cases hdir
        | directory entries =>
          simp only [Except.ok.injEq, Slot.mk.injEq]
          constructor
          · rintro ⟨rfl, rfl, rfl⟩
            exact ⟨rfl, kindAt?_eq_directory.mpr ⟨entries, hfound⟩, rfl, by rw [hfound]; rfl⟩
          · rintro ⟨rfl, _, rfl, hslot⟩
            rw [hfound] at hslot
            exact ⟨rfl, rfl, hslot.symm⟩

/-! ## Names below directories -/

/-- A name alone is looked for at home. -/
theorem route_plain {name : Text} (w : Workspace) (hplain : '/' ∉ name) :
    w.route name = w.top.routeStep w.home.reverse name := by
  have hhead : name.head? ≠ some '/' := fun h => hplain (List.mem_of_mem_head? h)
  rw [route, Path.parts_of_plain hplain, route_singleton, startBack, if_neg (by simpa using hhead)]

/-- **The route of a name below a directory** goes over that directory. -/
theorem route_join {dir name : Text} (w : Workspace) (hdir : dir ≠ []) (hname : '/' ∉ name) :
    w.route (Path.join dir name) =
      (w.route dir).bind fun back => w.top.routeStep back name := by
  rw [route, route, startBack_congr w (Path.join_head? hdir name)]
  rcases Path.parts_join hdir hname with hparts | ⟨before, hparts, hjoin⟩
  · rw [hparts, route_concat]
  · -- the slash at the end of the directory asks for no more than the name does
    rw [hjoin, hparts, route_concat, route_concat_idle rfl]

/-- What is trimmed at the end of a directory asks for no more than a name below it does. -/
theorem route_trimReversed (t : FileTree) (back : List Text) (r name : Text) :
    ((t.route back (Path.parts (Path.trimReversed r).reverse)).bind fun b => t.routeStep b name) =
      (t.route back (Path.parts r.reverse)).bind fun b => t.routeStep b name := by
  fun_induction Path.trimReversed r with
  | case1 => rfl
  | case2 r _ ih => rw [ih, List.reverse_cons, Path.parts_concat_slash, route_concat_idle rfl]
  | case3 r ih =>
    have hdot : Path.parts ('.' :: '/' :: r).reverse = Path.parts r.reverse ++ [['.']] := by
      simp only [List.reverse_cons, List.append_assoc, List.singleton_append]
      exact Path.parts_slash r.reverse ['.']
    rw [ih, hdot, List.reverse_cons, Path.parts_concat_slash, route_concat_idle rfl,
      route_concat_idle rfl]
  | case4 => rfl

/-- What is trimmed leaves the start of a path alone. -/
theorem trimReversed_head? {r : Text} (hr : r ≠ []) :
    (Path.trimReversed r).reverse.head? = r.reverse.head? := by
  fun_induction Path.trimReversed r with
  | case1 => rfl
  | case2 r hne ih =>
    cases r with
    | nil => exact absurd rfl hne
    | cons c r =>
      rw [ih (List.cons_ne_nil _ _), List.head?_reverse, List.head?_reverse, List.getLast?_cons_cons]
  | case3 r ih =>
    rw [ih (List.cons_ne_nil _ _), List.head?_reverse, List.head?_reverse, List.getLast?_cons_cons]
  | case4 => rfl

/-- **The directory that a name is in** is where the route of the name goes over; it is where the
path starts if the path is nothing but the name. -/
theorem route_parent {last : Text} (w : Workspace) (hends : Path.EndsWith path last)
    (hnaming : Path.isNaming last = true) :
    ∃ dir, Path.parent? path = some dir ∧
      (dir = [] ∧ w.route path = w.top.routeStep w.home.reverse last ∨
        dir ≠ [] ∧ w.route path = (w.route dir).bind fun back => w.top.routeStep back last) := by
  obtain ⟨hplain, heq⟩ := hends
  rcases heq with rfl | ⟨q, rfl⟩
  · exact ⟨[], Path.parent?_plain hplain hnaming, .inl ⟨rfl, route_plain w hplain⟩⟩
  · have hhead := trimReversed_head? (r := '/' :: q.reverse) (List.cons_ne_nil _ _)
    have hstart : ('/' :: q.reverse).reverse.head? = (q ++ '/' :: last).head? := by
      cases q <;> simp
    refine ⟨_, Path.parent?_slash hplain hnaming q, .inr ⟨?_, ?_⟩⟩
    · intro hnil
      rw [hnil] at hhead
      simp at hhead
    · rw [route, route, startBack_congr w (hhead.trans hstart), route_trimReversed,
        Path.parts_slash, Path.parts_of_plain hplain, List.reverse_cons, List.reverse_reverse,
        Path.parts_concat_slash, route_concat, route_concat_idle rfl]

/-- Only a directory can be meant by a path that ends with a part that names nothing. -/
theorem isNaming_of_file {last : Text} (hnames : w.names? path = some names)
    (hfile : w.top.kindAt? names ≠ some .directory) (hends : Path.EndsWith path last) :
    Path.isNaming last = true := by
  obtain ⟨before, hparts⟩ := hends.parts
  have hroute := (names?_eq_some.mp hnames).2
  rw [route, hparts, route_append] at hroute
  obtain ⟨back, _, hlast⟩ := bind_eq_ok.mp hroute
  cases hidle : Path.isNaming last with
  | true => rfl
  | false =>
    have hidles : ∀ part ∈ [last], Path.isNaming part = false := by simpa using hidle
    obtain ⟨heq, hdir⟩ := route_idle_eq_ok hidles hlast
    have hkind := hdir (List.cons_ne_nil _ _)
    rw [← heq, List.reverse_reverse] at hkind
    exact absurd hkind hfile

end Workspace

end CommentDocs
