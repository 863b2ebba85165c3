import CommentDocs.Document.Format
import CommentDocs.Proofs.Extraction
import CommentDocs.Proofs.Nesting
import CommentDocs.Proofs.Rejections
import CommentDocs.Proofs.Strictness
import CommentDocs.Proofs.WellFormed

/-!
# Overviews show the tree

A line of an overview is read by counting its bars and taking the names behind them; types, which
may hold bars, hyphens and brackets of their own, stand after the names.

* `Overview.level`, `Overview.caption`: what is read off a line.  `Record.ShownOn`: the form that
  lines of both formats have, and what is read off it (`ShownOn.level_eq`, `ShownOn.caption_eq`).
* `Tree.ShownBy`: lines show a tree: one for each record of the walk, at its level, with its names,
  and the parent on the nearest line above that is one level higher.
* `Registry.link_overview`: the overviews of a tree that was linked after a session show it, and no
  tree of another shape or with other names has the same overview.
-/

set_option autoImplicit false

namespace CommentDocs

/-! ## Characters that a text does not hold -/

namespace Text

/-- What stands before the first occurrence of a character. -/
theorem takeWhile_until {c : Char} {s : Text} (h : c ∉ s) (rest : Text) :
    (s ++ c :: rest).takeWhile (fun d => d != c) = s := by
  refine takeWhile_append_outside (fun d hd => ?_) (outside_cons rest (by simp))
  rw [bne_iff_ne]
  rintro rfl
  exact h hd

theorem mem_joinWith {separator : Text} {ts : List Text} {c : Char}
    (h : c ∈ joinWith separator ts) : c ∈ separator ∨ ∃ t ∈ ts, c ∈ t := by
  fun_induction joinWith separator ts with
  | case1 => cases h
  | case2 t => exact .inr ⟨t, List.mem_singleton_self t, h⟩
  | case3 t ts _ ih =>
    rw [List.mem_append, List.mem_append] at h
    rcases h with (h | h) | h
    · exact .inr ⟨t, List.mem_cons_self, h⟩
    · exact .inl h
    · rcases ih h with h | ⟨u, hu, h⟩
      · exact .inl h
      · exact .inr ⟨u, List.mem_cons_of_mem t hu, h⟩

/-- A line feed is no lower-case form of another character. -/
theorem lowerChar_ne {c : Char} (h : c ≠ '\n') : lowerChar c ≠ '\n' := by
  have himages : ∀ page ∈ lowerSteps, ∀ run ∈ page, '\n'.toNat < run.2.2.2 := by decide +kernel
  unfold lowerChar
  split
  · rename_i n hn
    obtain ⟨page, hpage, hrun⟩ := List.exists_of_findSome?_eq_some hn
    obtain ⟨⟨first, last, step, image⟩, hmem, himage⟩ := List.exists_of_findSome?_eq_some hrun
    have hlt : '\n'.toNat < image := himages page hpage _ hmem
    have hle : image ≤ n := by
      simp only [stepImage?, Option.ite_none_right_eq_some, Option.some.injEq] at himage
      omega
    intro heq
    by_cases hvalid : n.isValidChar
    · rw [Char.ofNat, dif_pos hvalid] at heq
      have hnat : n = '\n'.toNat := congrArg Char.toNat heq
      omega
    · rw [Char.ofNat, dif_neg hvalid] at heq
      cases heq
  · exact h

theorem not_mem_lowerAfter {t : Text} (h : '\n' ∉ t) (before : Text) :
    '\n' ∉ lowerAfter before t := by
  induction t generalizing before with
  | nil => exact List.not_mem_nil
  | cons c t ih =>
    rw [List.mem_cons, not_or] at h
    rw [lowerAfter, List.mem_append, not_or]
    refine ⟨?_, ih h.2 _⟩
    have hlower := lowerChar_ne (Ne.symm h.1)
    split
    · split <;> decide
    · split
      · decide
      · simpa using hlower.symm

end Text

/-! ## What is read off a line -/

/-- What an overview tells of a record: its name, and of an action the names of its parameters. -/
structure Caption where
  name : Text
  params : Option (List Text)
  deriving DecidableEq, Repr

/-- What an overview has to tell of the record. -/
def Record.caption (r : Record) : Caption :=
  ⟨r.name, if r.kind = .action then some (r.params.map (·.name)) else none⟩

namespace Overview

/-- The number of bars, each with a space before it, that a line starts with. -/
def level : Text → Nat
  | ' ' :: '|' :: t => level t + 1
  | _ => 0

/-- The runs of word characters in a text. -/
def words (t : Text) : List Text :=
  (t.splitOnP fun c => !isWordChar c).filter fun w => !w.isEmpty

/-- The caption that a text starts with.  An action has a sign before its name, and a bracket after
the names of its parameters. -/
def captionAt : Text → Caption
  | '@' :: t =>
    match words (t.takeWhile fun c => c != ')') with
    | [] => ⟨[], some []⟩
    | name :: params => ⟨name, some params⟩
  | t => ⟨t.takeWhile isWordChar, none⟩

/-- The caption on a line: two characters stand between the bars and it. -/
def caption (line : Text) : Caption := captionAt (line.drop (2 * level line + 2))

theorem length_bars (depth : Nat) : (bars depth).length = 2 * depth := by
  induction depth with
  | zero => rfl
  | succ depth ih =>
    rw [bars, List.length_cons, List.length_cons, ih]
    omega

theorem level_bars (depth : Nat) (t : Text) : level (bars depth ++ '-' :: t) = depth := by
  induction depth with
  | zero => rfl
  | succ depth ih =>
    rw [bars, List.cons_append, List.cons_append, level, ih]

theorem not_mem_bars (depth : Nat) : '\n' ∉ bars depth := by
  induction depth with
  | zero => exact List.not_mem_nil
  | succ depth ih => simp [bars, ih]

theorem words_append {c : Char} (hc : isWordChar c = false) (s t : Text) :
    words (s ++ c :: t) = words s ++ words t := by
  rw [words, List.splitOnP_append_cons s t (by simp [hc]), List.filter_append]
  rfl

theorem words_of_isWord {w : Text} (h : IsWord w) : words w = [w] := by
  rw [words, List.splitOnP_eq_singleton fun c hc => by simp [h.chars c hc]]
  simp [h.nonempty]

theorem words_joinWith {names : List Text} (h : ∀ n ∈ names, IsWord n) :
    words (Text.joinWith ", " names) = names := by
  induction names with
  | nil => rfl
  | cons n names ih =>
    obtain ⟨hn, hnames⟩ := List.forall_mem_cons.mp h
    cases names with
    | nil => exact words_of_isWord hn
    | cons n' names =>
      have hjoin : Text.joinWith ", " (n :: n' :: names) =
          n ++ ',' :: ([] ++ ' ' :: Text.joinWith ", " (n' :: names)) := by
        simp [Text.joinWith]
      rw [hjoin, words_append (by decide), words_append (by decide), words_of_isWord hn, ih hnames]
      rfl

/-- A name is read up to its end. -/
theorem captionAt_of_isWord {w rest : Text} (h : IsWord w) (hrest : Text.Outside isWordChar rest) :
    captionAt (w ++ rest) = ⟨w, none⟩ := by
  have htake := Text.takeWhile_append_outside h.chars hrest
  obtain ⟨c, w, rfl⟩ := List.exists_cons_of_ne_nil h.nonempty
  unfold captionAt
  split
  · rename_i heq
    obtain ⟨rfl, _⟩ := List.cons.inj heq
    exact absurd (h.chars '@' List.mem_cons_self) (by decide)
  · rw [htake]

end Overview

/-- Names, types and permissions as an overview can show them. -/
structure Record.Presentable (r : Record) : Prop where
  name : IsWord r.name
  params : ∀ p ∈ r.params, IsWord p.name
  valueType : ∀ n ∈ r.valueType, IsTypeName n
  permission : IsWord r.permission

namespace Record

variable {r : Record} {depth : Nat} {line : Text}

theorem root_presentable : root.Presentable := ⟨by decide, by decide, by decide, by decide⟩

theorem WellFormed.presentable (h : r.WellFormed) : r.Presentable where
  name := h.name
  params p hp := (h.params p hp).name
  valueType := h.valueType
  permission := by
    unfold permission
    cases hw : r.writable with
    | none => decide
    | some w => exact h.writable w hw

theorem Presentable.names (h : r.Presentable) : ∀ n ∈ r.params.map (·.name), IsWord n := by
  intro n hn
  obtain ⟨p, hp, rfl⟩ := List.mem_map.mp hn
  exact h.params p hp

/-- The names of parameters, as they are shown, hold words and the signs between them only. -/
theorem Presentable.not_mem_names (h : r.Presentable) {c : Char} (hc : isWordChar c = false)
    (hsigns : c ∉ ", ".toList) : c ∉ Text.joinWith ", " (r.params.map (·.name)) := by
  intro hmem
  rcases Text.mem_joinWith hmem with hmem | ⟨n, hn, hmem⟩
  · exact hsigns hmem
  · exact (h.names n hn).not_mem hc hmem

theorem Presentable.not_mem_title (h : r.Presentable) : '\n' ∉ r.title := by
  have hname : '\n' ∉ r.name := h.name.not_mem (by decide)
  have hnames := h.not_mem_names (c := '\n') (by decide) (by decide)
  unfold title
  split
  · simp only [signature, List.mem_append, List.mem_cons, List.not_mem_nil, not_or]
    exact ⟨⟨⟨by decide, hname⟩, by decide, hnames⟩, by decide, not_false⟩
  · exact hname

/-- The line of a record at a depth: bars, a hyphen, one more sign and the title, with something
after it that does not go on with a name. -/
def ShownOn (r : Record) (depth : Nat) (line : Text) : Prop :=
  ∃ sign rest, line = bars depth ++ '-' :: sign :: (r.title ++ rest) ∧
    Text.Outside isWordChar rest

theorem ShownOn.level_eq (h : r.ShownOn depth line) : Overview.level line = depth := by
  obtain ⟨sign, rest, rfl, _⟩ := h
  exact Overview.level_bars depth _

/-- The title tells the caption, whatever comes after it. -/
theorem Presentable.captionAt_title (h : r.Presentable) {rest : Text}
    (hrest : Text.Outside isWordChar rest) :
    Overview.captionAt (r.title ++ rest) = r.caption := by
  unfold title caption
  cases hkind : r.kind with
  | action =>
    have hname : ')' ∉ r.name := h.name.not_mem (by decide)
    have hnames := h.not_mem_names (c := ')') (by decide) (by decide)
    have hopen : ')' ∉ r.name ++ '(' :: Text.joinWith ", " (r.params.map (·.name)) := by
      simp only [List.mem_append, List.mem_cons, not_or]
      exact ⟨hname, by decide, hnames⟩
    have hsignature : r.signature ++ rest = '@' :: (r.name ++ '(' ::
        Text.joinWith ", " (r.params.map (·.name)) ++ ')' :: rest) := by
      simp [signature]
    rw [if_pos rfl, hsignature, Overview.captionAt, Text.takeWhile_until hopen,
      Overview.words_append (by decide), Overview.words_of_isWord h.name,
      Overview.words_joinWith h.names]
    rfl
  | node => exact Overview.captionAt_of_isWord h.name hrest
  | link => exact Overview.captionAt_of_isWord h.name hrest

theorem ShownOn.caption_eq (h : r.ShownOn depth line) (hr : r.Presentable) :
    Overview.caption line = r.caption := by
  have hlevel := h.level_eq
  obtain ⟨sign, rest, rfl, hrest⟩ := h
  have hdrop : (bars depth ++ '-' :: sign :: (r.title ++ rest)).drop (2 * depth + 2) =
      r.title ++ rest := by
    rw [← Overview.length_bars, List.drop_append]
    simp
  rw [Overview.caption, hlevel, hdrop, hr.captionAt_title hrest]

end Record

/-! ## The lines of both formats -/

namespace Plain

variable {r : Record}

theorem overviewLine_shown (r : Record) (depth : Nat) : r.ShownOn depth (overviewLine depth r) := by
  refine ⟨' ', valueNote r, by simp [overviewLine], ?_⟩
  unfold valueNote
  split
  · exact Text.outside_nil _
  · exact Text.outside_cons _ (by decide)
  · exact Text.outside_nil _

theorem not_mem_valueNote (h : r.Presentable) : '\n' ∉ valueNote r := by
  unfold valueNote
  split
  · exact List.not_mem_nil
  · rename_i type htype _
    have htype : '\n' ∉ type := (h.valueType type htype).not_mem (by decide +kernel)
    have hpermission : '\n' ∉ r.permission := h.permission.not_mem (by decide)
    simp only [List.mem_append, not_or]
    exact ⟨⟨⟨⟨by decide, htype⟩, by decide⟩, hpermission⟩, by decide⟩
  · exact List.not_mem_nil

theorem not_mem_overviewLine (h : r.Presentable) (depth : Nat) : '\n' ∉ overviewLine depth r := by
  simp only [overviewLine, List.mem_append, not_or]
  exact ⟨⟨⟨Overview.not_mem_bars depth, by decide⟩, h.not_mem_title⟩, not_mem_valueNote h⟩

end Plain

namespace Markdown

variable {r : Record}

theorem overviewLine_shown (r : Record) (depth : Nat) : r.ShownOn depth (overviewLine depth r) := by
  refine ⟨'[', "](#" ++ anchor r.name ++ [')'] ++ valueNote r, by simp [overviewLine, linkTo], ?_⟩
  exact Text.outside_cons _ (by decide)

theorem not_mem_valueNote (h : r.Presentable) : '\n' ∉ valueNote r := by
  unfold valueNote
  split
  · exact List.not_mem_nil
  · rename_i type htype _
    have htype : '\n' ∉ type := (h.valueType type htype).not_mem (by decide +kernel)
    simp only [List.mem_append, not_or]
    exact ⟨by decide, htype⟩
  · exact List.not_mem_nil

theorem not_mem_overviewLine (h : r.Presentable) (depth : Nat) : '\n' ∉ overviewLine depth r := by
  have hanchor : '\n' ∉ anchor r.name :=
    Text.not_mem_lowerAfter (h.name.not_mem (by decide)) []
  simp only [overviewLine, linkTo, List.mem_append, List.mem_cons, List.not_mem_nil, not_or]
  exact ⟨⟨Overview.not_mem_bars depth, by decide,
    ⟨⟨⟨by decide, h.not_mem_title⟩, by decide⟩, hanchor⟩, by decide, not_false⟩,
    not_mem_valueNote h⟩

end Markdown

/-! ## Trees and their overviews -/

namespace Tree

variable {t : Tree} {lines : List Text}

/-- The lines show the tree. -/
structure ShownBy (t : Tree) (lines : List Text) : Prop where
  /-- There are as many lines as records. -/
  length : lines.length = t.size
  /-- The walk meets every record once, -/
  once : (t.walk.map (·.2)).Perm (List.range t.size)
  /-- and the lines are in its order: each has as many bars as the record is deep, and its names. -/
  each : List.Forall₂ (fun x line => Overview.level line = t.depth x.2 ∧
    Overview.caption line = (t.record x.2).caption) t.walk lines
  /-- The parent of a record is on the nearest line before its own that is one level higher. -/
  parent : ∀ k i, 0 < k → t.metAt? k = some i → ∃ j p,
    IsAbove (lines.map Overview.level) j k ∧ t.metAt? j = some p ∧ t.parent? i = some p

theorem Proper.depth_of_mem_walk (h : t.Proper) {x : Nat × Nat} (hx : x ∈ t.walk) :
    t.depth x.2 = x.1 := by
  rw [h.walk_eq] at hx
  have hdepth := h.depth_of_mem_outline hx
  have hroot : t.depth 0 = 0 := depth_of_climbs h.closed .root
  omega

theorem Proper.length_walk (h : t.Proper) : t.walk.length = t.size := by
  have hlength := h.outline_perm.length_eq
  rwa [List.length_map, List.length_range, ← h.walk_eq] at hlength

theorem Proper.record_mem_of_mem_walk (h : t.Proper) {x : Nat × Nat} (hx : x ∈ t.walk) :
    t.record x.2 ∈ t.records := by
  have hplace := (h.walk_eq ▸ h.outline_perm).mem_iff.mp (List.mem_map_of_mem hx)
  rw [records_eq_map_range]
  exact List.mem_map_of_mem hplace

/-- Lines that have the form of overview lines show the tree. -/
theorem Proper.shownBy (h : t.Proper) (hr : ∀ r ∈ t.records, r.Presentable)
    {line : Nat → Record → Text} (hline : ∀ (r : Record) depth, r.ShownOn depth (line depth r)) :
    t.ShownBy (t.walk.map fun x => line x.1 (t.record x.2)) where
  length := by rw [List.length_map, h.length_walk]
  once := by
    rw [h.walk_eq]
    exact h.outline_perm
  each := by
    refine List.forall₂_map_right_iff.mpr (List.forall₂_same.mpr fun x hx => ?_)
    exact ⟨(hline _ _).level_eq.trans (h.depth_of_mem_walk hx).symm,
      (hline _ _).caption_eq (hr _ (h.record_mem_of_mem_walk hx))⟩
  parent := by
    intro k i hk hi
    have hlevels : (t.walk.map fun x => line x.1 (t.record x.2)).map Overview.level =
        t.walk.map (·.1) := by
      rw [List.map_map]
      exact List.map_congr_left fun x _ => (hline _ _).level_eq
    rw [hlevels]
    exact h.walk_above hk hi

/-- **What is read off the lines is the sketch of the tree.** -/
theorem ShownBy.sketch (hs : t.ShownBy lines) (h : t.Proper) :
    lines.map (fun line => (Overview.level line, Overview.caption line)) =
      (t.sketch Record.caption).entries 0 := by
  have hdepths : (t.walk.map fun x => (x.1, (t.record x.2).caption)) =
      t.walk.map fun x => (t.depth x.2, (t.record x.2).caption) :=
    List.map_congr_left fun x hx => by rw [h.depth_of_mem_walk hx]
  rw [← h.walk_sketch, hdepths, ← List.forall₂_eq_eq_eq, List.forall₂_map_left_iff,
    List.forall₂_map_right_iff]
  exact hs.each.flip.imp fun line x hline => Prod.ext hline.1 hline.2

/-- Trees that the same lines show have the same sketch. -/
theorem ShownBy.unique {t' : Tree} (hs : t.ShownBy lines) (h : t.Proper) (hs' : t'.ShownBy lines)
    (h' : t'.Proper) : t'.sketch Record.caption = t.sketch Record.caption :=
  Sketch.entries_inj ((hs'.sketch h').symm.trans (hs.sketch h))

/-- The first lines of a plain document, as many as the tree has records. -/
def plainLines (t : Tree) : List Text := (Text.splitLines (Plain.render t)).take t.size

/-- The lines of a Markdown document after the first one, as many as the tree has records. -/
def markdownLines (t : Tree) : List Text :=
  ((Text.splitLines (Markdown.render t)).drop 1).take t.size

/-- A document is split after the lines of its overview, whatever comes later. -/
theorem Proper.take_splitLines (h : t.Proper) (hr : ∀ r ∈ t.records, r.Presentable)
    {line : Nat → Record → Text}
    (hline : ∀ (r : Record) depth, r.Presentable → '\n' ∉ line depth r) (more : List Text) :
    (Text.splitLines (Text.unlines
      ((t.walk.map fun x => line x.1 (t.record x.2)) ++ more))).take t.size =
      t.walk.map fun x => line x.1 (t.record x.2) := by
  rw [Text.splitLines_unlines_append]
  · exact List.take_left' (by rw [List.length_map, h.length_walk])
  · intro l hl
    obtain ⟨x, hx, rfl⟩ := List.mem_map.mp hl
    exact hline _ _ (hr _ (h.record_mem_of_mem_walk hx))

theorem Proper.plainLines_eq (h : t.Proper) (hr : ∀ r ∈ t.records, r.Presentable) :
    t.plainLines = Plain.overview t := by
  rw [plainLines, Plain.render, List.append_assoc]
  exact h.take_splitLines hr (fun _ depth hr => Plain.not_mem_overviewLine hr depth) _

/-- The first line of a Markdown document opens the overview. -/
theorem splitLines_markdown (t : Tree) : Text.splitLines (Markdown.render t) =
    " <pre>".toList :: Text.splitLines (Text.unlines
      (Markdown.overview t ++ (Markdown.closing ++ (Markdown.rule ++ Markdown.sections t)))) := by
  rw [Markdown.render, List.append_assoc, List.append_assoc, List.append_assoc,
    Text.splitLines_unlines_append (by decide)]
  rfl

theorem Proper.markdownLines_eq (h : t.Proper) (hr : ∀ r ∈ t.records, r.Presentable) :
    t.markdownLines = Markdown.overview t := by
  rw [markdownLines, splitLines_markdown, List.drop_one, List.tail_cons]
  exact h.take_splitLines hr (fun _ depth hr => Markdown.not_mem_overviewLine hr depth) _

/-- **Both overviews of a tree show it.** -/
theorem Proper.overviews (h : t.Proper) (hr : ∀ r ∈ t.records, r.Presentable) :
    t.ShownBy t.plainLines ∧ t.ShownBy t.markdownLines := by
  rw [h.plainLines_eq hr, h.markdownLines_eq hr]
  exact ⟨h.shownBy hr Plain.overviewLine_shown, h.shownBy hr Markdown.overviewLine_shown⟩

end Tree

namespace Registry

/-- The records of a session can be shown. -/
theorem offerAll_presentable (batches : List Batch) :
    ∀ r ∈ (empty.offerAll batches).2.records, r.Presentable := by
  intro r hr
  rcases mem_offerAll_records.mp hr with hroot | ⟨j, b, hadmits⟩
  · obtain rfl : r = Record.root := by simpa [empty, records] using hroot
    exact Record.root_presentable
  · exact (parse_wellFormed _ _ _ (.inl ⟨_, hadmits.parses⟩)).presentable

/-- **The overviews of a tree show it unambiguously.**  They show every tree that is linked after a
session, and no tree of another shape or with other names has the same lines. -/
theorem link_overview (batches : List Batch) (t : Tree)
    (h : (empty.offerAll batches).2.link = .ok t) :
    t.ShownBy t.plainLines ∧
    (Text.splitLines (Markdown.render t)).head? = some " <pre>".toList ∧
    t.ShownBy t.markdownLines ∧
    ∀ (batches' : List Batch) (t' : Tree), (empty.offerAll batches').2.link = .ok t' →
      (t'.plainLines = t.plainLines ∨ t'.markdownLines = t.markdownLines) →
      t'.sketch Record.caption = t.sketch Record.caption := by
  have hshown {batches : List Batch} {t : Tree} (h : (empty.offerAll batches).2.link = .ok t) :
      t.Proper ∧ t.ShownBy t.plainLines ∧ t.ShownBy t.markdownLines := by
    have hc := offerAll_consistent empty_consistent batches
    have hproper := link_proper hc h
    refine ⟨hproper, hproper.overviews ?_⟩
    rw [link_records hc h]
    exact offerAll_presentable batches
  obtain ⟨hproper, hplain, hmarkdown⟩ := hshown h
  refine ⟨hplain, by rw [Tree.splitLines_markdown]; rfl, hmarkdown, ?_⟩
  rintro batches' t' h' (heq | heq)
  · obtain ⟨hproper', hplain', _⟩ := hshown h'
    exact hplain.unique hproper (heq ▸ hplain') hproper'
  · obtain ⟨hproper', _, hmarkdown'⟩ := hshown h'
    exact hmarkdown.unique hproper (heq ▸ hmarkdown') hproper'

/-- Types of bars, hyphens and brackets, an action with parameters and one without, a record that
came before its parent, and a batch that is rejected. -/
theorem link_overview_signs :
    let batches : List Batch :=
      [⟨"s", 1, ["@Node deep", "@Parent n", "@Value |-|[(*)]"]⟩,
        ⟨"s", 5, ["@Node n", "@Parent root", "@Value -|-(*)- write"]⟩,
        ⟨"s", 9, ["@Node last", "@Parent root"]⟩,
        ⟨"s", 10, ["@Node n", "@Parent last"]⟩,
        ⟨"s", 12, ["@Action Set", "@Parent n", "@Param a |", "@Param b_2 -", "@Value int"]⟩,
        ⟨"s", 18, ["@Action stop", "@Parent root"]⟩]
    let plain : List Text := ["- root", " |- @stop()", " |- n *-|-(*)- (write)*",
      " | |- @Set(a, b_2)", " | |- deep *|-|[(*)] (never)*", " |- last"]
    let markdown : List Text := ["-[root](#root)", " |-[@stop()](#stop)", " |-[n](#n) - -|-(*)-",
      " | |-[@Set(a, b_2)](#set)", " | |-[deep](#deep) - |-|[(*)]", " |-[last](#last)"]
    ∃ t, (empty.offerAll batches).2.link = .ok t ∧ t.plainLines = plain ∧
      t.markdownLines = markdown ∧
      t.ShownBy t.plainLines ∧
      (Text.splitLines (Markdown.render t)).head? = some " <pre>".toList ∧
      t.ShownBy t.markdownLines ∧
      ∀ (batches' : List Batch) (t' : Tree), (empty.offerAll batches').2.link = .ok t' →
        (t'.plainLines = t.plainLines ∨ t'.markdownLines = t.markdownLines) →
        t'.sketch Record.caption = t.sketch Record.caption := by
  intro batches plain markdown
  have h : (empty.offerAll batches).2.link.toOption.map
      (fun t => (t.plainLines, t.markdownLines)) = some (plain, markdown) := by decide +kernel
  obtain ⟨t, ht, hlines⟩ := Option.map_eq_some_iff.mp h
  obtain ⟨hplain, hmarkdown⟩ := Prod.mk.inj hlines
  have hlink := eq_ok_of_toOption ht
  exact ⟨t, hlink, hplain, hmarkdown, link_overview batches t hlink⟩

end Registry

end CommentDocs
