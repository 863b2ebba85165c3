import CommentDocs.Proofs.CleanLines
import CommentDocs.Proofs.Extraction
import CommentDocs.Proofs.Sessions
import CommentDocs.Proofs.Written

/-!
# The normal form of a source

A tree can be written out again: each record but the root as one batch, its attributes in a fixed
order and each of its texts on one line.  The source that results has the same tree.

* `Record.normalLines`, `Tree.normalForm`: the batch of a record and the source of a tree.
* `Record.Clean`: records that can be written so; all records of a source are (`parse_clean`).
* `Record.Clean.parses`: the batch of such a record parses to it.
* `parseSource_normalForm`: the source of a tree has this tree.
-/

set_option autoImplicit false

namespace CommentDocs

open Text (Trimmed spaced)

namespace Record

/-- A parameter on one line. -/
def parameterLine (k : Keyword) (p : Parameter) : Text :=
  attributeLine k (p.name :: p.type :: nonempty [p.description])

/-- A text with a blank line before it, if there is a text. -/
def textLines (run : Text) : List Text := if run.isEmpty then [] else [[], run]

/-- A record written out: the heading and the attributes that place it, each text after a blank
line, and after another blank line the attributes that describe its use. -/
def normalLines (r : Record) : List Text :=
  [headingLine r.kind (some r.name)] ++
    (if r.key = r.name then [] else [attributeLine .metaType [r.key]]) ++
    r.is.toList.map (fun name => attributeLine .is [name]) ++
    r.parent.toList.map (fun key => attributeLine .parent [key]) ++
    textLines r.short ++
    textLines r.long ++
    [[]] ++
    r.params.map (parameterLine .param) ++
    r.returns.toList.map (fun type => attributeLine .returns [type]) ++
    r.columns.map (parameterLine .column) ++
    r.valueType.toList.map fun type => attributeLine .value (type :: r.writable.toList)

/-- What can be written on the lines of a batch: texts without line feeds, of which no run starts
with a sign, and a name, a key and a parent. -/
structure Clean (r : Record) : Prop where
  sound : r.Sound FitsLine FitsOwnLine
  name : IsWord r.name
  key : IsWord r.key
  parent : r.parent ≠ none

end Record

/-- The source of a tree: every record but the root, with a separator between any two. -/
def Tree.normalForm (separator : Text) (t : Tree) : Text :=
  Text.unlines (Batch.documented separator (t.records.tail.map Record.normalLines))

theorem FitsOwnLine.isTextLine {t : Text} (h : FitsOwnLine t) (h0 : t ≠ []) : IsTextLine t :=
  ⟨h0, h.trimmed, h.no_sign⟩

/-! ## A record as blocks -/

namespace Record

/-- The attributes before the texts. -/
def leadingItems (r : Record) : List WrittenItem :=
  (if r.key = r.name then [] else [.metaType r.key]) ++ r.is.toList.map .is ++
    r.parent.toList.map .parent

/-- The texts. -/
def textItems (r : Record) : List WrittenItem := (nonempty [r.short, r.long]).map (.text · [])

/-- The attributes after the texts. -/
def closingItems (r : Record) : List WrittenItem :=
  r.params.map (fun p => .param p.name p.type p.description []) ++
    r.returns.toList.map .returns ++
    r.columns.map (fun p => .column p.name p.type p.description []) ++
    r.valueType.toList.map fun type => .value type r.writable

/-- Items with one blank line before the first of them. -/
def apart : List WrittenItem → List Block
  | [] => []
  | i :: items => ⟨1, i⟩ :: items.map (⟨0, ·⟩)

/-- The items of a record in their normal order, the texts and what comes after them set apart. -/
def normalBlocks (r : Record) : List Block :=
  r.leadingItems.map (⟨0, ·⟩) ++ r.textItems.map (⟨1, ·⟩) ++ apart r.closingItems

variable {r : Record}

theorem flatMap_lines (n : Nat) (items : List WrittenItem) :
    (items.map (Block.mk n ·)).flatMap Block.lines =
      items.flatMap fun i => List.replicate n [] ++ i.lines := by
  rw [List.flatMap_map]
  rfl

/-- Items on one line each. -/
theorem flatMap_single {α : Type} {f : α → WrittenItem} {g : α → Text}
    (h : ∀ a, (f a).lines = [g a]) (xs : List α) :
    (xs.map f).flatMap WrittenItem.lines = xs.map g := by
  rw [List.flatMap_map, List.map_eq_flatMap]
  exact congrArg (List.flatMap · xs) (funext h)

/-- The blank line before the last attributes ends the batch if there are none. -/
theorem flatMap_apart (items : List WrittenItem) :
    (apart items).flatMap Block.lines ++ List.replicate (if items.isEmpty then 1 else 0) [] =
      [] :: items.flatMap WrittenItem.lines := by
  cases items with
  | nil => rfl
  | cons i items =>
    rw [apart, List.flatMap_cons, flatMap_lines]
    simp [Block.lines]

theorem leading_lines (r : Record) :
    r.leadingItems.flatMap WrittenItem.lines =
      (if r.key = r.name then [] else [attributeLine .metaType [r.key]]) ++
        r.is.toList.map (fun name => attributeLine .is [name]) ++
        r.parent.toList.map (fun key => attributeLine .parent [key]) := by
  rw [leadingItems, List.flatMap_append, List.flatMap_append, flatMap_single fun _ => rfl,
    flatMap_single fun _ => rfl]
  split <;> rfl

theorem text_lines (r : Record) :
    (r.textItems.flatMap fun i => List.replicate 1 [] ++ i.lines) =
      textLines r.short ++ textLines r.long := by
  rw [textItems, List.flatMap_map]
  by_cases hs : r.short = [] <;> by_cases hl : r.long = [] <;>
    simp [nonempty, textLines, hs, hl, WrittenItem.lines]

theorem closing_lines (r : Record) :
    r.closingItems.flatMap WrittenItem.lines =
      r.params.map (parameterLine .param) ++
        r.returns.toList.map (fun type => attributeLine .returns [type]) ++
        r.columns.map (parameterLine .column) ++
        r.valueType.toList.map fun type => attributeLine .value (type :: r.writable.toList) := by
  simp only [closingItems, List.flatMap_append]
  rw [flatMap_single (g := parameterLine .param) fun _ => rfl, flatMap_single fun _ => rfl,
    flatMap_single (g := parameterLine .column) fun _ => rfl, flatMap_single fun _ => rfl]

/-- **The lines of a record are those of its blocks.** -/
theorem normalLines_eq (r : Record) :
    r.normalLines = writtenLines r.kind (some r.name) r.normalBlocks
      (if r.closingItems.isEmpty then 1 else 0) := by
  have hleading : (r.leadingItems.map (⟨0, ·⟩)).flatMap Block.lines =
      r.leadingItems.flatMap WrittenItem.lines := flatMap_lines 0 _
  rw [writtenLines, normalBlocks, List.flatMap_append, List.flatMap_append, List.append_assoc,
    flatMap_apart, hleading, flatMap_lines, leading_lines, text_lines, closing_lines]
  simp [normalLines]

/-! ## What the blocks say -/

/-- A description on the line of its attribute is all there is. -/
theorem spaced_nonempty (t : Text) : spaced (nonempty [t]) = t := by
  cases t <;> rfl

theorem foldl_params (ps : List Parameter) (r : Record) :
    (ps.map Item.param).foldl add r = { r with params := r.params ++ ps } := by
  induction ps generalizing r with
  | nil => simp
  | cons p ps ih => simp [ih, add]

theorem foldl_columns (ps : List Parameter) (r : Record) :
    (ps.map Item.column).foldl add r = { r with columns := r.columns ++ ps } := by
  induction ps generalizing r with
  | nil => simp
  | cons p ps ih => simp [ih, add]

theorem leading_says (r : Record) (h0 : r.name ≠ []) :
    (r.leadingItems.map (·.item)).foldl add (opening r.kind (some r.name) r.origin) =
      { kind := r.kind, name := r.name, key := r.key, is := r.is, parent := r.parent
        origin := r.origin } := by
  by_cases hk : r.key = r.name <;> cases his : r.is <;> cases hp : r.parent <;>
    simp [leadingItems, opening, add, WrittenItem.item, hk, his, hp, h0]

theorem texts_say (r s : Record) (hs : s.short = []) (hl : s.long = [])
    (hlong : r.long ≠ [] → r.short ≠ []) :
    (r.textItems.map (·.item)).foldl add s = { s with short := r.short, long := r.long } := by
  have hitems : r.textItems.map (·.item) = (nonempty [r.short, r.long]).map .text := by
    simp [textItems, WrittenItem.item, spaced, Text.joinWith]
  rw [hitems]
  cases s
  cases hs
  cases hl
  by_cases h₁ : r.short = []
  · have h₂ : r.long = [] := Decidable.byContradiction fun h => hlong h h₁
    simp [nonempty, h₁, h₂]
  · by_cases h₂ : r.long = [] <;> simp [nonempty, h₁, h₂, add, addText]

theorem closing_says (r s : Record) (hp : s.params = []) (hr : s.returns = none)
    (hc : s.columns = []) (hv : s.valueType = none) (hw : s.writable = none)
    (hwritable : ∀ w ∈ r.writable, r.valueType ≠ none) :
    (r.closingItems.map (·.item)).foldl add s =
      { s with
        params := r.params, returns := r.returns, columns := r.columns
        valueType := r.valueType, writable := r.writable } := by
  have hitems : r.closingItems.map (·.item) =
      r.params.map .param ++ r.returns.toList.map .returns ++ r.columns.map .column ++
        r.valueType.toList.map (.value · r.writable) := by
    simp [closingItems, Function.comp_def, WrittenItem.item, spaced_nonempty]
  rw [hitems]
  cases s
  cases hp
  cases hr
  cases hc
  cases hv
  cases hw
  have hnone : r.valueType = none → r.writable = none := fun hv =>
    Option.eq_none_iff_forall_not_mem.mpr fun w hw => hwritable w hw hv
  cases hreturns : r.returns <;> cases hvalue : r.valueType <;>
    simp [foldl_params, foldl_columns, add, hvalue, hnone]

/-- **The blocks of a record describe it.** -/
theorem Clean.says (h : r.Clean) :
    ofItems r.kind (some r.name) r.origin (r.normalBlocks.map (·.item.item)) = r := by
  have hitems : r.normalBlocks.map (·.item.item) = r.leadingItems.map (·.item) ++
      r.textItems.map (·.item) ++ r.closingItems.map (·.item) := by
    have hapart : (apart r.closingItems).map (·.item.item) = r.closingItems.map (·.item) := by
      cases r.closingItems <;> simp [apart]
    simp [normalBlocks, Function.comp_def, hapart]
  rw [ofItems, hitems, List.foldl_append, List.foldl_append, leading_says r h.name.nonempty,
    texts_say r _ rfl rfl fun hl => (h.sound.long hl).1,
    closing_says r _ rfl rfl rfl rfl rfl fun w hw => (h.sound.writable w hw).1]

/-! ## What the blocks are made of -/

theorem Clean.leading_wellFormed (h : r.Clean) :
    ∀ i ∈ r.leadingItems, i.WellFormed r.kind ∧ i.isText = false := by
  intro i hi
  simp only [leadingItems, List.mem_append, List.mem_map, Option.mem_toList] at hi
  obtain (hi | ⟨w, hw, rfl⟩) | ⟨w, hw, rfl⟩ := hi
  · split at hi
    · cases hi
    · rw [List.mem_singleton.mp hi]
      exact ⟨h.key, rfl⟩
  · exact ⟨h.sound.is w hw, rfl⟩
  · exact ⟨h.sound.parent w hw, rfl⟩

theorem Clean.text_wellFormed (h : r.Clean) : ∀ i ∈ r.textItems, i.WellFormed r.kind := by
  intro i hi
  obtain ⟨run, hrun, rfl⟩ := List.mem_map.mp hi
  obtain ⟨hmem, h0⟩ : (run = r.short ∨ run = r.long) ∧ run ≠ [] := by
    simpa [nonempty] using hrun
  rcases hmem with rfl | rfl
  · exact ⟨(h.sound.short h0).isTextLine h0, by simp⟩
  · exact ⟨(h.sound.long h0).2.isTextLine h0, by simp⟩

theorem Clean.closing_wellFormed (h : r.Clean) :
    ∀ i ∈ r.closingItems, i.WellFormed r.kind ∧ i.isText = false := by
  intro i hi
  simp only [closingItems, List.mem_append, List.mem_map, Option.mem_toList] at hi
  obtain ((⟨p, hp, rfl⟩ | ⟨w, hw, rfl⟩) | ⟨p, hp, rfl⟩) | ⟨n, hn, rfl⟩ := hi
  · obtain ⟨hk, hp⟩ := h.sound.params p hp
    exact ⟨⟨hk, hp.name, hp.type, hp.description.trimmed, by simp⟩, rfl⟩
  · exact ⟨h.sound.returns w hw, rfl⟩
  · obtain ⟨hk, hp⟩ := h.sound.columns p hp
    exact ⟨⟨hk, hp.name, hp.type, hp.description.trimmed, by simp⟩, rfl⟩
  · exact ⟨⟨h.sound.valueType n hn, fun w hw => (h.sound.writable w hw).2⟩, rfl⟩

/-- Items that are no text may have any number of blank lines before them. -/
theorem block_wellFormed {kind : RecordKind} {i : WrittenItem} (n : Nat)
    (h : i.WellFormed kind ∧ i.isText = false) : (Block.mk n i).WellFormed kind :=
  ⟨h.1, fun ht => absurd ht (by simp [h.2])⟩

theorem Clean.blocks_wellFormed (h : r.Clean) : ∀ b ∈ r.normalBlocks, b.WellFormed r.kind := by
  intro b hb
  simp only [normalBlocks, List.mem_append, List.mem_map] at hb
  obtain (⟨i, hi, rfl⟩ | ⟨i, hi, rfl⟩) | hb := hb
  · exact block_wellFormed 0 (h.leading_wellFormed i hi)
  · exact ⟨h.text_wellFormed i hi, fun _ => Nat.le_refl 1⟩
  · have hclosing := h.closing_wellFormed
    cases hitems : r.closingItems with
    | nil => rw [hitems] at hb; cases hb
    | cons i items =>
      rw [hitems] at hb hclosing
      obtain ⟨hfirst, hmore⟩ := List.forall_mem_cons.mp hclosing
      rcases List.mem_cons.mp hb with rfl | hb
      · exact block_wellFormed 1 hfirst
      · obtain ⟨j, hj, rfl⟩ := List.mem_map.mp hb
        exact block_wellFormed 0 (hmore j hj)

/-- **The batch of a record parses to it.** -/
theorem Clean.parses (h : r.Clean) (firstLine : Nat) :
    Record.parse r.origin firstLine r.normalLines = .ok r := by
  have hname : ∀ w ∈ some r.name, IsWord w := by
    intro w hw
    cases hw
    exact h.name
  rw [normalLines_eq, parse_blocks r.origin firstLine hname h.blocks_wellFormed (by simp), h.says]
  simp [located, h.name.nonempty, h.parent]

end Record

/-! ## Lines that fit -/

theorem fitsLine_of_solid {t : Text} (h : ∀ c ∈ t, Text.isBlank c = false) : FitsLine t :=
  ⟨Text.trimmed_of_solid h, fun hn => absurd (h _ hn) (by decide)⟩

theorem IsWord.fitsLine {w : Text} (h : IsWord w) : w ≠ [] ∧ FitsLine w :=
  ⟨h.nonempty, fitsLine_of_solid fun c hc => Text.isBlank_of_isWordChar (h.chars c hc)⟩

theorem IsTypeName.fitsLine {n : Text} (h : IsTypeName n) : n ≠ [] ∧ FitsLine n :=
  ⟨h.nonempty, fitsLine_of_solid fun c hc => Text.isBlank_of_isTypeChar (h.chars c hc)⟩

theorem spaced_fitsLine {parts : List Text} (h : ∀ t ∈ parts, t ≠ [] ∧ FitsLine t) :
    FitsLine (spaced parts) := by
  refine ⟨Text.spaced_trimmed fun t ht => ⟨(h t ht).1, (h t ht).2.trimmed⟩, ?_⟩
  cases parts with
  | nil => simp [spaced, Text.joinWith]
  | cons a parts =>
    obtain ⟨ha, hparts⟩ := List.forall_mem_cons.mp h
    rw [Text.spaced_cons, List.mem_append, List.mem_flatMap, not_or]
    refine ⟨ha.2.oneLine, ?_⟩
    rintro ⟨t, ht, hn⟩
    simp [(hparts t ht).2.oneLine] at hn

/-- A sign and a reserved word, with arguments that fit. -/
theorem attributeLine_fitsLine (k : Keyword) {arguments : List Text}
    (h : ∀ t ∈ arguments, t ≠ [] ∧ FitsLine t) : FitsLine (attributeLine k arguments) := by
  refine spaced_fitsLine (List.forall_mem_cons.mpr ⟨⟨by simp, fitsLine_of_solid ?_⟩, h⟩)
  exact List.forall_mem_cons.mpr ⟨by decide, fun c hc =>
    Text.isBlank_of_isWordChar (k.spelling_chars c hc)⟩

theorem headingLine_eq (kind : RecordKind) (name : Option Text) :
    headingLine kind name = attributeLine kind.keyword name.toList := by
  rw [headingLine, attributeLine, kind.name_eq_spelling]

namespace Record

variable {r : Record}

theorem parameterLine_fitsLine (k : Keyword) {p : Parameter} (h : p.MadeOf FitsLine) :
    FitsLine (parameterLine k p) := by
  refine attributeLine_fitsLine k (List.forall_mem_cons.mpr ⟨h.name.fitsLine,
    List.forall_mem_cons.mpr ⟨h.type.fitsLine, fun t ht => ?_⟩⟩)
  obtain ⟨rfl, h0⟩ : t = p.description ∧ t ≠ [] := by simpa [nonempty] using ht
  exact ⟨h0, h.description⟩

theorem wordLine_fitsLine (k : Keyword) {w : Text} (h : IsWord w) :
    FitsLine (attributeLine k [w]) :=
  attributeLine_fitsLine k (by simpa using h.fitsLine)

theorem textLines_fitLine {run : Text} (h : run ≠ [] → FitsLine run) :
    ∀ l ∈ textLines run, FitsLine l := by
  intro l hl
  unfold textLines at hl
  split at hl
  · cases hl
  · rename_i h0
    rcases List.mem_cons.mp hl with rfl | hl
    · exact ⟨rfl, by simp⟩
    · rw [List.mem_singleton.mp hl]
      exact h (by simpa using h0)

/-- **The lines of a record are a batch of a source.** -/
theorem Clean.isGroup (h : r.Clean) : Batch.IsGroup r.normalLines := by
  have hfits : ∀ l ∈ r.normalLines, FitsLine l := by
    intro l hl
    simp only [normalLines, List.mem_append, List.mem_map, Option.mem_toList, List.mem_singleton,
      or_assoc] at hl
    rcases hl with rfl | hl | ⟨w, hw, rfl⟩ | ⟨w, hw, rfl⟩ | hl | hl | rfl | ⟨p, hp, rfl⟩ |
      ⟨w, hw, rfl⟩ | ⟨p, hp, rfl⟩ | ⟨n, hn, rfl⟩
    · rw [headingLine_eq]
      exact wordLine_fitsLine _ h.name
    · split at hl
      · cases hl
      · rw [List.mem_singleton.mp hl]
        exact wordLine_fitsLine _ h.key
    · exact wordLine_fitsLine _ (h.sound.is w hw)
    · exact wordLine_fitsLine _ (h.sound.parent w hw)
    · exact textLines_fitLine (fun h0 => (h.sound.short h0).toFitsLine) l hl
    · exact textLines_fitLine (fun h0 => (h.sound.long h0).2.toFitsLine) l hl
    · exact ⟨rfl, by simp⟩
    · exact parameterLine_fitsLine _ (h.sound.params p hp).2
    · exact wordLine_fitsLine _ (h.sound.returns w hw).2
    · exact parameterLine_fitsLine _ (h.sound.columns p hp).2
    · refine attributeLine_fitsLine _ (List.forall_mem_cons.mpr
        ⟨(h.sound.valueType n hn).fitsLine, fun w hw => ?_⟩)
      exact (h.sound.writable w (Option.mem_toList.mp hw)).2.fitsLine
  exact ⟨by simp [normalLines], fun l hl => (hfits l hl).oneLine, fun l hl => (hfits l hl).trimmed⟩

end Record

/-! ## Sources -/

/-- **Every record of a source can be written out again.** -/
theorem parse_clean {source text : Text} {b : Batch} {r : Record}
    (hb : b ∈ Batch.extract Batch.defaultMarker source text) (h : b.Parses r) :
    r.Clean ∧ r.origin = source := by
  obtain ⟨hsource, hlines⟩ := Batch.extract_lines hb
  obtain ⟨hsound, hname, hkey, hparent, horigin⟩ :=
    Record.parse_sound Cursor.clean_yields (Cursor.start_clean hlines) h
  exact ⟨⟨hsound, hname, hkey, hparent⟩, horigin.trans hsource⟩

/-- Batches that are the lines of records parse to the records. -/
theorem parses_normalLines {source : Text} {batches : List Batch} {rs : List Record}
    (hlines : batches.map (·.lines) = rs.map Record.normalLines)
    (hsource : ∀ b ∈ batches, b.source = source)
    (hclean : ∀ r ∈ rs, r.Clean ∧ r.origin = source) : List.Forall₂ Batch.Parses batches rs := by
  induction rs generalizing batches with
  | nil =>
    rw [List.map_nil, List.map_eq_nil_iff] at hlines
    rw [hlines]
    exact .nil
  | cons r rs ih =>
    cases batches with
    | nil => cases hlines
    | cons b batches =>
      simp only [List.map_cons, List.cons.injEq] at hlines
      obtain ⟨hb, hbatches⟩ := List.forall_mem_cons.mp hsource
      obtain ⟨⟨hr, horigin⟩, hrs⟩ := List.forall_mem_cons.mp hclean
      refine .cons ?_ (ih hlines.2 hbatches hrs)
      rw [Batch.Parses, hlines.1, hb, ← horigin]
      exact hr.parses b.startLine

/-- **The source of a tree has this tree**: whatever source a tree was read from, writing the tree
out and reading it again gives the same records in the same order, with the same links. -/
theorem parseSource_normalForm (source text separator : Text) (t : Tree)
    (hseparator : Batch.IsSeparator separator) (h : parseSource source text = .ok t) :
    parseSource source (t.normalForm separator) = .ok t := by
  obtain ⟨rs, reg, hparses, hinsert, hlink⟩ := parseSource_eq_ok.mp h
  have hclean : ∀ r ∈ rs, r.Clean ∧ r.origin = source := by
    intro r hr
    obtain ⟨b, hb, hparse⟩ := Batch.exists_parses hparses hr
    exact parse_clean hb hparse
  have hgroups : ∀ g ∈ rs.map Record.normalLines, Batch.IsGroup g := by
    intro g hg
    obtain ⟨r, hr, rfl⟩ := List.mem_map.mp hg
    exact (hclean r hr).1.isGroup
  have hform : t.normalForm separator =
      Text.unlines (Batch.documented separator (rs.map Record.normalLines)) := by
    rw [Tree.normalForm, records_of_insertAll hinsert hlink, List.tail_cons]
  have hbatches := Batch.extract_documented source hseparator hgroups
  rw [← hform] at hbatches
  refine parseSource_eq_ok.mpr ⟨rs, reg, ?_, hinsert, hlink⟩
  exact parses_normalLines hbatches (fun b hb => (Batch.extract_lines hb).1) hclean

/-- Two batches with several attributes on a line, a description over two lines, a name from a meta
type, and a parent that is registered after its child. -/
def serviceSource : Text := Text.unlines
  ["  //* @Action restart  @Parent svc", "//* @Param mode enum[soft,hard]",
    "//*   soft keeps //* jobs,", "//* hard drops @them", "//*", "//*", "//*\tStops and starts.",
    "end", "int x; //*@Node", "//*", "//* Runs jobs", "//* in order.",
    "//* @MetaType svc @Parent root @Value number"]

/-- The same records in normal form, a line of dashes between them. -/
def serviceNormalForm : Text := Text.unlines
  ["//* @Action restart", "//* @Parent svc", "//*", "//* Stops and starts.", "//*",
    "//* @Param mode enum[soft,hard] soft keeps //* jobs, hard drops @them", "---", "//* @Node svc",
    "//* @Parent root", "//*", "//* Runs jobs in order.", "//*", "//* @Value number"]

theorem parseSource_normalForm_service :
    ∃ t, parseSource "svc" serviceSource = .ok t ∧ t.normalForm "---" = serviceNormalForm ∧
      parseSource "svc" (t.normalForm "---") = .ok t := by
  have h : (parseSource "svc" serviceSource).toOption.map (Tree.normalForm "---") =
      some serviceNormalForm := by
    decide +kernel
  obtain ⟨t, ht, hform⟩ := Option.map_eq_some_iff.mp h
  have hok := eq_ok_of_toOption ht
  exact ⟨t, hok, hform, parseSource_normalForm _ _ _ t ⟨by decide, by decide⟩ hok⟩

end CommentDocs
