import CommentDocs.Settings

/-!
# The parts of a path

What is read off a path as it is written.

* `parts_slash`, `parts_of_plain`: a slash separates parts, and nothing else does.
* `EndsWith`: the last part of a path.  A path with a name below it ends with that name
  (`endsWith_join`), and what counts as its extension depends on that name only (`extension?_of_ends`).
* `splitLast_cases`: a path as its last part, those before it and the slashes after it.
* `parent?_plain`, `parent?_slash`: the directory of a path that ends with a name.
-/

set_option autoImplicit false

namespace CommentDocs

namespace Path

variable {last name path : Text}

theorem parts_ne_nil (path : Text) : parts path ≠ [] := by
  cases path with
  | nil => exact List.cons_ne_nil _ _
  | cons c path =>
    unfold parts
    split
    · exact List.cons_ne_nil _ _
    · split <;> exact List.cons_ne_nil _ _

/-- A text without slashes is a single part. -/
theorem parts_of_plain (h : '/' ∉ name) : parts name = [name] := by
  induction name with
  | nil => rfl
  | cons c name ih =>
    rw [List.mem_cons, not_or] at h
    simp only [parts, if_neg (Ne.symm h.1), ih h.2]

/-- **A slash separates parts.** -/
theorem parts_slash (p q : Text) : parts (p ++ '/' :: q) = parts p ++ parts q := by
  induction p with
  | nil => simp [parts]
  | cons c p ih =>
    rw [List.cons_append, parts, parts, ih]
    split
    · rfl
    · split
      · rename_i h
        exact absurd h (by simp [parts_ne_nil])
      · rename_i first more h
        cases hp : parts p with
        | nil => exact absurd hp (parts_ne_nil p)
        | cons first' more' =>
          rw [hp, List.cons_append, List.cons.injEq] at h
          simp [← h.1, ← h.2]

theorem parts_concat_slash (p : Text) : parts (p ++ ['/']) = parts p ++ [[]] := parts_slash p []

/-! ## The last part -/

/-- The last part of the path. -/
structure EndsWith (path last : Text) : Prop where
  plain : '/' ∉ last
  eq : path = last ∨ ∃ q, path = q ++ '/' :: last

theorem exists_endsWith (path : Text) : ∃ last, EndsWith path last := by
  induction path with
  | nil => exact ⟨[], List.not_mem_nil, .inl rfl⟩
  | cons c path ih =>
    obtain ⟨last, hplain, heq | ⟨q, heq⟩⟩ := ih
    · by_cases hc : c = '/'
      · exact ⟨last, hplain, .inr ⟨[], by rw [hc, heq]; rfl⟩⟩
      · exact ⟨c :: last, by simp [hplain, Ne.symm hc], .inl (by rw [heq])⟩
    · exact ⟨last, hplain, .inr ⟨c :: q, by rw [heq]; rfl⟩⟩

theorem EndsWith.parts (h : EndsWith path last) : ∃ before, Path.parts path = before ++ [last] := by
  obtain ⟨hplain, rfl | ⟨q, rfl⟩⟩ := h
  · exact ⟨[], parts_of_plain hplain⟩
  · exact ⟨Path.parts q, by rw [parts_slash, parts_of_plain hplain]⟩

theorem endsWith_of_parts {before : List Text} (h : Path.parts path = before ++ [last]) :
    EndsWith path last := by
  obtain ⟨last', hends⟩ := exists_endsWith path
  obtain ⟨before', hparts⟩ := hends.parts
  rw [hparts] at h
  obtain ⟨_, rfl⟩ : before' = before ∧ last' = last := by simpa using List.append_inj' h rfl
  exact hends

/-- A name below a directory, as parts. -/
theorem parts_join {dir : Text} (hdir : dir ≠ []) (hname : '/' ∉ name) :
    Path.parts (join dir name) = Path.parts dir ++ [name] ∨
      ∃ before, Path.parts dir = before ++ [[]] ∧ Path.parts (join dir name) = before ++ [name] := by
  unfold join
  split
  · rename_i h
    exact absurd (List.getLast?_eq_none_iff.mp h) hdir
  · rename_i h
    obtain ⟨q, rfl⟩ := List.getLast?_eq_some_iff.mp h
    refine .inr ⟨Path.parts q, parts_concat_slash q, ?_⟩
    rw [List.append_assoc, List.singleton_append, parts_slash, parts_of_plain hname]
  · rw [parts_slash, parts_of_plain hname]
    exact .inl rfl

theorem join_head? {dir : Text} (hdir : dir ≠ []) (name : Text) :
    (join dir name).head? = dir.head? := by
  cases dir with
  | nil => exact absurd rfl hdir
  | cons c dir =>
    unfold join
    split
    · rename_i h
      simp at h
    · rfl
    · rfl

theorem endsWith_join {dir : Text} (hdir : dir ≠ []) (hname : '/' ∉ name) :
    EndsWith (join dir name) name := by
  rcases parts_join hdir hname with h | ⟨before, _, h⟩ <;> exact endsWith_of_parts h

theorem join_ne_nil {dir : Text} (hdir : dir ≠ []) (name : Text) : join dir name ≠ [] := by
  intro h
  have hhead := join_head? hdir name
  rw [h] at hhead
  exact hdir (List.head?_eq_none_iff.mp hhead.symm)

/-! ## Names -/

/-- No character of a part, read backwards, is a slash. -/
theorem not_slash_of_plain (h : '/' ∉ last) : ∀ c ∈ last.reverse, (c != '/') = true := by
  intro c hc
  rw [bne_iff_ne]
  rintro rfl
  exact h (List.mem_reverse.mp hc)

/-- Nothing is trimmed behind a part that names something. -/
theorem trimReversed_of_naming (hnaming : isNaming name = true) (hplain : '/' ∉ name)
    (rest : Text) : trimReversed (name.reverse ++ rest) = name.reverse ++ rest := by
  simp only [isNaming, Bool.and_eq_true, Bool.not_eq_true', List.isEmpty_eq_false_iff, bne_iff_ne,
    ne_eq] at hnaming
  obtain ⟨hne, hdot⟩ := hnaming
  cases hrev : name.reverse with
  | nil => exact absurd (List.reverse_eq_nil_iff.mp hrev) hne
  | cons c before =>
    have hc : c ∈ name := List.mem_reverse.mp (by simp [hrev])
    have hbefore : ∀ b ∈ before, b ∈ name := fun b hb => List.mem_reverse.mp (by simp [hrev, hb])
    rw [List.cons_append]
    unfold trimReversed
    split
    · rename_i h
      rw [(List.cons.inj h).1] at hc
      exact absurd hc hplain
    · rename_i h
      rw [(List.cons.inj h).1] at hc
      exact absurd hc hplain
    · rename_i h
      obtain ⟨rfl, hnext⟩ := List.cons.inj h
      cases before with
      | nil => exact absurd (by simpa using congrArg List.reverse hrev) hdot
      | cons b before =>
        obtain ⟨rfl, _⟩ := List.cons.inj hnext
        exact absurd (hbefore '/' List.mem_cons_self) hplain
    · rfl

theorem EndsWith.reverse (h : EndsWith path last) : ∃ rest, path.reverse = last.reverse ++ rest ∧
    (rest = [] ∧ path = last ∨ ∃ q, rest = '/' :: q.reverse ∧ path = q ++ '/' :: last) := by
  obtain ⟨_, rfl | ⟨q, rfl⟩⟩ := h
  · exact ⟨[], by simp, .inl ⟨rfl, rfl⟩⟩
  · exact ⟨'/' :: q.reverse, by simp, .inr ⟨q, rfl, rfl⟩⟩

/-- The name at the end of a path. -/
theorem EndsWith.fileName? (h : EndsWith path last) (hentry : Workspace.isEntryName last = true) :
    Path.fileName? path = some last := by
  obtain ⟨hnaming, hup⟩ := Bool.and_eq_true_iff.mp hentry
  obtain ⟨rest, hrev, hrest⟩ := h.reverse
  have htake : (last.reverse ++ rest).takeWhile (fun c => c != '/') = last.reverse := by
    rw [List.takeWhile_append_of_pos (not_slash_of_plain h.plain)]
    rcases hrest with ⟨rfl, _⟩ | ⟨q, rfl, _⟩ <;> simp
  unfold Path.fileName?
  rw [hrev, trimReversed_of_naming hnaming h.plain, htake, List.reverse_reverse]
  simp only [isNaming, Bool.and_eq_true, Bool.not_eq_true', bne_iff_ne, ne_eq] at hnaming hup
  simp [hnaming.1, hnaming.2, hup]

/-- **What counts as the extension of a path** depends on its last part only. -/
theorem extension?_of_ends {path' : Text} (h : EndsWith path last) (h' : EndsWith path' last)
    (hentry : Workspace.isEntryName last = true) : extension? path = extension? path' := by
  unfold extension?
  rw [h.fileName? hentry, h'.fileName? hentry]

/-! ## The directory of a path -/

theorem dropWhile_of_ends (hplain : '/' ∉ last) (rest : Text) :
    (last.reverse ++ '/' :: rest).dropWhile (fun c => c != '/') = '/' :: rest := by
  rw [List.dropWhile_append_of_pos (not_slash_of_plain hplain)]
  rfl

/-- What is written before the last slash, less what names nothing at its end. -/
theorem parent?_slash (hplain : '/' ∉ last) (hnaming : isNaming last = true) (q : Text) :
    parent? (q ++ '/' :: last) = some (trimReversed ('/' :: q.reverse)).reverse := by
  have hrev : (q ++ '/' :: last).reverse = last.reverse ++ '/' :: q.reverse := by simp
  unfold parent?
  rw [hrev, trimReversed_of_naming hnaming hplain]
  split
  · rename_i h
    simp at h
  · rename_i h
    have hmem : '/' ∈ last.reverse ∨ last.reverse = [] := by
      cases hl : last.reverse with
      | nil => exact .inr rfl
      | cons c l =>
        rw [hl] at h
        simp at h
    rcases hmem with hmem | hnil
    · exact absurd (List.mem_reverse.mp hmem) hplain
    · rw [List.reverse_eq_nil_iff.mp hnil] at hnaming
      cases hnaming
  · rw [dropWhile_of_ends hplain]

/-- A single name is in the directory that the path starts from. -/
theorem parent?_plain (hplain : '/' ∉ last) (hnaming : isNaming last = true) :
    parent? last = some [] := by
  have htrim := trimReversed_of_naming hnaming hplain []
  rw [List.append_nil] at htrim
  unfold parent?
  rw [htrim]
  split
  · rename_i h
    rw [List.reverse_eq_nil_iff.mp h] at hnaming
    cases hnaming
  · rename_i h
    exact absurd (List.mem_reverse.mp (by simp [h])) hplain
  · have hdrop : last.reverse.dropWhile (fun c => c != '/') = [] := by
      rw [← List.append_nil last.reverse,
        List.dropWhile_append_of_pos (not_slash_of_plain hplain)]
      rfl
    rw [hdrop, trimReversed]
    · rfl
    all_goals simp

end Path

namespace Settings

/-- Whether a path is a source depends on its last part only. -/
theorem accepts_of_ends {s : Settings} {path path' last : Text} (h : Path.EndsWith path last)
    (h' : Path.EndsWith path' last) (hentry : Workspace.isEntryName last = true) :
    s.accepts path = s.accepts path' := by
  unfold accepts
  rw [Path.extension?_of_ends h h' hentry]

end Settings

namespace Workspace

/-- **A path by its last part**: there is none but the dot that a path of slashes stands for, or
the last part that is not empty stands before empty ones. -/
theorem splitLast_cases (path : Text) :
    (splitLast path = ([], ['.']) ∧ ∀ part ∈ Path.parts path, part = []) ∨
      ∃ empties : List Text, (∀ part ∈ empties, part = []) ∧
        Path.parts path = (splitLast path).1 ++ (splitLast path).2 :: empties := by
  have hsplit := List.takeWhile_append_dropWhile (p := fun part : Text => part.isEmpty)
    (l := (Path.parts path).reverse)
  have hempty : ∀ part ∈ (Path.parts path).reverse.takeWhile (fun part => part.isEmpty),
      part = [] := fun part hpart =>
    List.isEmpty_iff.mp (List.all_eq_true.mp List.all_takeWhile part hpart)
  unfold splitLast
  split
  · rename_i h
    rw [h, List.append_nil] at hsplit
    refine .inl ⟨rfl, fun part hpart => hempty part ?_⟩
    rw [hsplit]
    exact List.mem_reverse.mpr hpart
  · rename_i last before h
    rw [h] at hsplit
    refine .inr ⟨_, fun part hpart => hempty part (List.mem_reverse.mp hpart), ?_⟩
    have hparts := congrArg List.reverse hsplit
    rw [List.reverse_reverse, List.reverse_append, List.reverse_cons, List.append_assoc] at hparts
    exact hparts.symm

/-- If no slash is at the end of a path, nothing is after its last part. -/
theorem parts_of_entry {path : Text} (hslash : path.getLast? ≠ some '/')
    (hentry : isEntryName (splitLast path).2 = true) :
    Path.parts path = (splitLast path).1 ++ [(splitLast path).2] := by
  rcases splitLast_cases path with ⟨heq, _⟩ | ⟨empties, hempties, hparts⟩
  · rw [heq] at hentry
    cases hentry
  · rcases List.eq_nil_or_concat empties with rfl | ⟨empties, part, rfl⟩
    · exact hparts
    · obtain rfl := hempties part (by simp)
      rw [List.concat_eq_append, ← List.cons_append, ← List.append_assoc] at hparts
      rcases (Path.endsWith_of_parts hparts).eq with rfl | ⟨q, rfl⟩
      · cases hentry
      · simp at hslash

end Workspace

end CommentDocs
