import Mathlib.Data.List.Forall2
import CommentDocs.Document.Markdown
import CommentDocs.Proofs.Extraction
import CommentDocs.Proofs.Parsed

/-!
# Tables of parameters

A row of a table has its cells between pipes, so a pipe inside a cell is written with a backslash
before it.  Whatever the cells hold, they can be told apart again.

* `cells`: a line taken apart at its pipes, those right after a backslash left alone.
* `NoSeparator`: a text that stays in one cell.  An escaped text does, whatever is before it
  (`escapeCell_noSeparator`), and escaping is undone by `unescapeCell`.
* `IsRow`: the line is the row of the parameter.  `tableRow_isRow`: every row that is written is, and
  no line is the row of two parameters (`isRow_unique`).
* `table_rows`: the table of any parameters, line by line.
-/

set_option autoImplicit false

namespace CommentDocs.Markdown

/-! ## Cells -/

/-- The cells of a line of which the given character, if there is one, stands right before: a pipe
ends a cell unless a backslash stands right before it. -/
def cellsAfter : Option Char → Text → List Text
  | _, [] => [[]]
  | before, c :: t =>
    if c = '|' ∧ before ≠ some '\\' then [] :: cellsAfter (some c) t
    else
      match cellsAfter (some c) t with
      | [] => [[c]]
      | cell :: more => (c :: cell) :: more

/-- The cells of a line. -/
def cells (line : Text) : List Text := cellsAfter none line

/-- A text without the backslash before each pipe. -/
def unescapeCell : Text → Text
  | [] => []
  | '\\' :: '|' :: t => '|' :: unescapeCell t
  | c :: t => c :: unescapeCell t

/-- The line has three cells: the name, the type as code and the description, set off by single
spaces and escaped. -/
def IsRow (line : Text) (p : Parameter) : Prop :=
  ∃ name type description : Text,
    cells line = [name ++ " ", " " ++ code type ++ " ", " " ++ description] ∧
      unescapeCell name = p.name ∧ unescapeCell type = p.type ∧
        unescapeCell description = p.description

/-- No line is the row of two parameters. -/
theorem isRow_unique : Relator.RightUnique IsRow := by
  intro line p q hp hq
  obtain ⟨name, type, description, hcells, hname, htype, hdescription⟩ := hp
  obtain ⟨name', type', description', hcells', hname', htype', hdescription'⟩ := hq
  rw [hcells] at hcells'
  obtain ⟨rfl, rfl, rfl⟩ : name = name' ∧ type = type' ∧ description = description' := by
    simpa [code] using hcells'
  cases p
  cases q
  simp_all

/-! ## Texts in one cell -/

/-- No pipe of the text separates cells if the given character stands right before the text. -/
def NoSeparator : Option Char → Text → Prop
  | _, [] => True
  | before, c :: t => (c = '|' → before = some '\\') ∧ NoSeparator (some c) t

variable {before : Option Char} {a b t : Text}

theorem noSeparator_append :
    NoSeparator before (a ++ b) ↔ NoSeparator before a ∧ NoSeparator (a.getLast?.or before) b := by
  induction a generalizing before with
  | nil => simp [NoSeparator]
  | cons c a ih =>
    rw [List.cons_append, NoSeparator, NoSeparator, ih, and_assoc, List.getLast?_cons]
    cases a.getLast? <;> simp

/-- Without pipes there are no separators. -/
theorem noSeparator_of_not_mem (h : '|' ∉ t) : NoSeparator before t := by
  induction t generalizing before with
  | nil => trivial
  | cons c t ih =>
    rw [List.mem_cons, not_or] at h
    exact ⟨fun hc => absurd hc.symm h.1, ih h.2⟩

/-- **An escaped text stays in one cell.** -/
theorem escapeCell_noSeparator (before : Option Char) (t : Text) :
    NoSeparator before (escapeCell t) := by
  induction t generalizing before with
  | nil => trivial
  | cons c t ih =>
    rw [escapeCell, List.flatMap_cons]
    split
    · exact ⟨by simp, fun _ => rfl, ih _⟩
    · rename_i hc
      exact ⟨fun h => absurd h hc, ih _⟩

/-- A text that no pipe separates is one cell. -/
theorem cellsAfter_eq (h : NoSeparator before t) : cellsAfter before t = [t] := by
  induction t generalizing before with
  | nil => rfl
  | cons c t ih =>
    rw [cellsAfter, if_neg fun hsep => hsep.2 (h.1 hsep.1), ih h.2]

/-- It ends at the next pipe, unless its last character escapes that. -/
theorem cellsAfter_append (h : NoSeparator before a) (hlast : a.getLast?.or before ≠ some '\\') :
    cellsAfter before (a ++ '|' :: t) = a :: cellsAfter (some '|') t := by
  induction a generalizing before with
  | nil => rw [List.nil_append, cellsAfter, if_pos ⟨rfl, by simpa using hlast⟩]
  | cons c a ih =>
    have hlast' : a.getLast?.or (some c) ≠ some '\\' := by
      rw [List.getLast?_cons] at hlast
      cases hl : a.getLast? <;> simpa [hl] using hlast
    rw [List.cons_append, cellsAfter, if_neg fun hsep => hsep.2 (h.1 hsep.1), ih h.2 hlast']

/-! ## Escaping -/

theorem escapeCell_head (t : Text) : (escapeCell t).head? ≠ some '|' := by
  cases t with
  | nil => simp [escapeCell]
  | cons c t =>
    rw [escapeCell, List.flatMap_cons]
    split
    · simp
    · rename_i hc
      simpa using hc

theorem unescapeCell_cons {c : Char} (h : t.head? ≠ some '|') :
    unescapeCell (c :: t) = c :: unescapeCell t := by
  conv => lhs; unfold unescapeCell
  split
  · contradiction
  · rename_i heq
    obtain ⟨_, rfl⟩ := List.cons.inj heq
    exact absurd rfl h
  · rename_i heq
    obtain ⟨rfl, rfl⟩ := List.cons.inj heq
    rfl

/-- **Escaping is undone.**  A backslash of the text itself is kept, since what follows it is never
a bare pipe. -/
theorem unescapeCell_escapeCell (t : Text) : unescapeCell (escapeCell t) = t := by
  induction t with
  | nil => rfl
  | cons c t ih =>
    by_cases hc : c = '|'
    · subst hc
      have hcons : escapeCell ('|' :: t) = '\\' :: '|' :: escapeCell t := rfl
      rw [hcons, unescapeCell, ih]
    · have hcons : escapeCell (c :: t) = c :: escapeCell t := by simp [escapeCell, hc]
      rw [hcons, unescapeCell_cons (escapeCell_head t), ih]

theorem escapeCell_of_not_mem (h : '|' ∉ t) : escapeCell t = t := by
  induction t with
  | nil => rfl
  | cons c t ih =>
    rw [List.mem_cons, not_or] at h
    have hcons : escapeCell (c :: t) = c :: escapeCell t := by simp [escapeCell, Ne.symm h.1]
    rw [hcons, ih h.2]

theorem mem_escapeCell {c : Char} (h : c ∈ escapeCell t) : c = '\\' ∨ c ∈ t := by
  obtain ⟨d, hd, hc⟩ := List.mem_flatMap.mp h
  split at hc
  · rename_i heq
    subst heq
    rcases List.mem_pair.mp hc with rfl | rfl
    · exact .inl rfl
    · exact .inr hd
  · rw [List.mem_singleton.mp hc]
    exact .inr hd

/-! ## Rows -/

/-- **A row is taken apart into its cells** if no pipe is in the name. -/
theorem cells_tableRow {p : Parameter} (h : '|' ∉ p.name) :
    cells (tableRow p) = [p.name ++ " ", " " ++ code (escapeCell p.type) ++ " ",
      " " ++ escapeCell p.description] := by
  have hrow : tableRow p = (p.name ++ " ") ++ '|' ::
      ((" " ++ code (escapeCell p.type) ++ " ") ++ '|' :: (" " ++ escapeCell p.description)) := by
    simp [tableRow, code]
  have hcode : (" " ++ code (escapeCell p.type) ++ " " : Text) =
      [' ', '\x60'] ++ (escapeCell p.type ++ ['\x60', ' ']) := by
    simp [code]
  have hname : NoSeparator none (p.name ++ " ") := noSeparator_of_not_mem (by simp [h])
  have htype : NoSeparator (some '|') (" " ++ code (escapeCell p.type) ++ " ") := by
    rw [hcode, noSeparator_append, noSeparator_append]
    exact ⟨noSeparator_of_not_mem (by decide), escapeCell_noSeparator _ _,
      noSeparator_of_not_mem (by decide)⟩
  have hdescription : NoSeparator (some '|') (" " ++ escapeCell p.description) :=
    noSeparator_append.mpr ⟨noSeparator_of_not_mem (by decide), escapeCell_noSeparator _ _⟩
  rw [cells, hrow, cellsAfter_append hname (by simp),
    cellsAfter_append htype (by rw [List.getLast?_append]; simp), cellsAfter_eq hdescription]

/-- A parameter whose name and type are as they are read from a batch, and whose description is on
one line. -/
abbrev Tabular (p : Parameter) : Prop := p.MadeOf fun description => '\n' ∉ description

instance (p : Parameter) : Decidable (Tabular p) :=
  decidable_of_iff (IsWord p.name ∧ IsTypeName p.type ∧ '\n' ∉ p.description)
    ⟨fun ⟨h₁, h₂, h₃⟩ => ⟨h₁, h₂, h₃⟩, fun h => ⟨h.name, h.type, h.description⟩⟩

/-- **Every row that is written is the row of its parameter.** -/
theorem tableRow_isRow {p : Parameter} (h : Tabular p) : IsRow (tableRow p) p := by
  have hpipe : '|' ∉ p.name := fun hmem => absurd (h.name.chars _ hmem) (by decide)
  refine ⟨_, _, _, cells_tableRow hpipe, ?_, unescapeCell_escapeCell _, unescapeCell_escapeCell _⟩
  rw [← escapeCell_of_not_mem hpipe, unescapeCell_escapeCell, escapeCell_of_not_mem hpipe]

/-- A row takes one line. -/
theorem not_mem_tableRow {p : Parameter} (h : Tabular p) : '\n' ∉ tableRow p := by
  have hname : '\n' ∉ p.name := h.name.not_mem (by decide)
  have htype : '\n' ∉ p.type := h.type.not_mem (by decide +kernel)
  have hescape {t : Text} (ht : '\n' ∉ t) : '\n' ∉ escapeCell t := by
    intro hmem
    rcases mem_escapeCell hmem with heq | hmem
    · cases heq
    · exact ht hmem
  simp [tableRow, code, hname, hescape htype, hescape h.description]

/-- The lines of a table, and an empty line after the last line feed. -/
theorem splitLines_table {ps : List Parameter} (h : ∀ p ∈ ps, Tabular p) :
    Text.splitLines (Text.unlines (tableLines ps)) =
      ["Name | Type | Description".toList, "--- | --- | ---".toList] ++ ps.map tableRow ++ [[]] := by
  rw [Text.splitLines_unlines]
  · rfl
  · intro line hline
    rw [tableLines, List.mem_cons, List.mem_cons, List.mem_map] at hline
    rcases hline with rfl | rfl | ⟨p, hp, rfl⟩
    · decide
    · decide
    · exact not_mem_tableRow (h p hp)

/-- **A table keeps its cells.**  After two lines there is one line for each parameter, in order,
and from its cells the parameter can be told; so no other parameters have the same table. -/
theorem table_rows (ps : List Parameter) (h : ∀ p ∈ ps, Tabular p) :
    (∃ rows, Text.splitLines (Text.unlines (tableLines ps)) =
        ["Name | Type | Description".toList, "--- | --- | ---".toList] ++ rows ++ [[]] ∧
      List.Forall₂ IsRow rows ps) ∧
    ∀ ps', (∀ p ∈ ps', Tabular p) →
      Text.unlines (tableLines ps') = Text.unlines (tableLines ps) → ps' = ps := by
  have hrows {ps : List Parameter} (h : ∀ p ∈ ps, Tabular p) :
      List.Forall₂ IsRow (ps.map tableRow) ps :=
    List.forall₂_map_left_iff.mpr (List.forall₂_same.mpr fun p hp => tableRow_isRow (h p hp))
  refine ⟨⟨ps.map tableRow, splitLines_table h, hrows h⟩, ?_⟩
  intro ps' h' heq
  have hlines := splitLines_table h'
  rw [heq, splitLines_table h] at hlines
  have hsame : ps.map tableRow = ps'.map tableRow := by simpa using hlines
  have hboth := hrows h'
  rw [← hsame] at hboth
  exact List.right_unique_forall₂' isRow_unique hboth (hrows h)

/-- Pipes, backslashes and backticks at the ends of descriptions and next to each other, and a type
with a pipe. -/
theorem table_rows_escaped :
    let ps : List Parameter := [⟨"on", "a|b", "\\|\\"⟩, ⟨"off_2", "map<é,|>", " ` | \\\\| "⟩, ⟨"x", "*", ""⟩]
    (∀ p ∈ ps, Tabular p) ∧
      ps.map tableRow = ["on | `a\\|b` | \\\\|\\".toList,
        "off_2 | `map<é,\\|>` |  ` \\| \\\\\\| ".toList, "x | `*` | ".toList] ∧
      (∃ rows, Text.splitLines (Text.unlines (tableLines ps)) =
          ["Name | Type | Description".toList, "--- | --- | ---".toList] ++ rows ++ [[]] ∧
        List.Forall₂ IsRow rows ps) ∧
      ∀ ps', (∀ p ∈ ps', Tabular p) →
        Text.unlines (tableLines ps') = Text.unlines (tableLines ps) → ps' = ps := by
  intro ps
  have h : ∀ p ∈ ps, Tabular p := by decide +kernel
  exact ⟨h, by decide, table_rows ps h⟩

end CommentDocs.Markdown
