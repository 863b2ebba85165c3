import CommentDocs.Proofs.Extraction
import CommentDocs.Proofs.Parsed
import CommentDocs.Session

/-!
# Where faults show

The position of a syntax error is a place in the source, and what is wrong stands there.

* `Cursor.On`: a cursor on one of the lines of a batch, with what is to its left and its right.
  Every mode keeps it on the lines, so that a token stands where its position says (`Token.On`).
* `Cause.ShowsIn`: what each cause says about the line and the column of a fault.
* `unexpected_shows`: a token that is met where something else had to stand shows at its position.
* `attributeItem_shows`, `items_shows`, `record_shows`: so does every fault of an item, and by
  induction of a batch.
* `registerBatch_shows`: the same in the source that the batch was extracted from.
-/

set_option autoImplicit false

namespace CommentDocs

/-- The text occurs in `w` at the column, counted from one. -/
def Text.OccursAt (found : Text) (column : Nat) (w : Text) : Prop :=
  1 ≤ column ∧ found <+: w.drop (column - 1)

theorem Text.occursAt_append (before found after : Text) :
    Text.OccursAt found (before.length + 1) (before ++ (found ++ after)) := by
  refine ⟨Nat.le_add_left 1 _, ?_⟩
  rw [Nat.add_sub_cancel, List.drop_left]
  exact List.prefix_append found after

/-- What a cause says about the column of the line `w` where it shows.  `first` and `last` tell
whether that line is the first or the last one of its batch. -/
def Cause.ShowsIn (w : Text) (column : Nat) (first last : Prop) : Cause → Prop
  | .illegalCharacter c => Text.OccursAt [c] column w
  | .unexpectedToken found _ =>
    found = "end of line" ∧ column = w.length + 1 ∧ ¬ last ∨
      found ≠ [] ∧ Text.OccursAt found column w
  | .unexpectedEnd _ => column = w.length + 1 ∧ last
  | .actionOnly named _ =>
    ∃ k : Keyword, named = .keyword k ∧ Text.OccursAt ('@' :: k.spelling) (column - 1) w
  | .missingName => column = 1 ∧ first
  | .missingParent => column = 1 ∧ first

/-- What is found where something else had to stand comes with advice exactly if it is a reserved
word. -/
def Cause.Advised (hint : Option String) : Cause → Prop
  | .unexpectedToken found _ =>
    (hint = some ("`" ++ String.ofList found ++ "` is a reserved word") ↔
      ∃ k : Keyword, k.spelling = found) ∧
    (hint = none ↔ ∀ k : Keyword, k.spelling ≠ found)
  | _ => True

/-- The fault shows on the line `w` at the place `i` of the lines. -/
structure Fault.ShowsOn (lines : List Text) (i : Nat) (w : Text) (f : Fault) : Prop where
  text : lines[i]? = some w
  line : f.position.line = i + 1
  column : 1 ≤ f.position.column ∧ f.position.column ≤ w.length + 1
  cause : f.cause.ShowsIn w f.position.column (i = 0) (i + 1 = lines.length)
  hint : f.cause.Advised f.hint

/-- The fault shows on one of the lines. -/
def Fault.Shows (lines : List Text) (f : Fault) : Prop := ∃ i w, f.ShowsOn lines i w

/-! ## Cursors on lines -/

namespace Cursor

/-- The cursor is on one of the lines, with `before` to its left and `after` to its right. -/
structure On (lines : List Text) (before after : Text) (c : Cursor) : Prop where
  text : lines[c.line]? = some (before ++ after)
  column : c.column = before.length
  offset : c.offset = Text.byteSize before
  rest : c.rest = after :: lines.drop (c.line + 1)

/-- The cursor is on one of the lines. -/
def Inside (lines : List Text) (c : Cursor) : Prop := ∃ before after, c.On lines before after

variable {lines : List Text} {before after : Text} {c : Cursor}

theorem start_inside (h : lines ≠ []) : (start lines).Inside lines := by
  obtain ⟨line, more, rfl⟩ := List.exists_cons_of_ne_nil h
  exact ⟨[], line, rfl, rfl, rfl, rfl⟩

theorem On.inside (h : c.On lines before after) : c.Inside lines := ⟨before, after, h⟩

theorem On.lt (h : c.On lines before after) : c.line < lines.length :=
  (List.getElem?_eq_some_iff.mp h.text).1

theorem On.span (h : c.On lines before after) (p : Char → Bool) :
    (c.span p).1 = after.takeWhile p ∧
      (c.span p).2.On lines (before ++ after.takeWhile p) (after.dropWhile p) := by
  simp only [Cursor.span, h.rest, true_and]
  refine ⟨?_, ?_, ?_, rfl⟩
  · rw [List.append_assoc, List.takeWhile_append_dropWhile]
    exact h.text
  · rw [List.length_append, h.column]
  · rw [Text.byteSize_append, h.offset]

theorem On.skipGaps (h : c.On lines before after) :
    ∃ before' after', c.skipGaps.On lines before' after' :=
  ⟨_, _, (h.span Text.isGap).2⟩

theorem On.step_char {a : Char} (h : c.On lines before after) (hp : c.peek = .char a) :
    ∃ after', after = a :: after' ∧ c.step.On lines (before ++ [a]) after' := by
  cases after with
  | nil =>
    -- at the end of a line there is no character, whether or not it is the last one
    simp only [peek, h.rest] at hp
    split at hp <;> simp_all
  | cons b after' =>
    obtain rfl : b = a := by simpa [peek, h.rest] using hp
    refine ⟨after', rfl, ?_⟩
    simp only [step, h.rest]
    refine ⟨by simpa using h.text, by simp [h.column], ?_, rfl⟩
    rw [Text.byteSize_append, h.offset]
    rfl

/-- The lines from the place `n` on start with the line there. -/
theorem drop_eq_cons {n : Nat} {next : Text} {more : List Text}
    (h : lines.drop n = next :: more) : lines[n]? = some next ∧ lines.drop (n + 1) = more := by
  rw [← List.head?_drop, ← List.tail_drop, h]
  exact ⟨rfl, rfl⟩

theorem On.step_lineEnd (h : c.On lines before after) (hp : c.peek = .lineEnd) :
    after = [] ∧ c.line + 1 < lines.length ∧ c.step.Inside lines := by
  unfold peek at hp
  split at hp <;> try cases hp
  rename_i next more hr
  have hrest := h.rest
  rw [hr, List.cons.injEq] at hrest
  obtain ⟨htext, hmore⟩ := drop_eq_cons hrest.2.symm
  refine ⟨hrest.1.symm, (List.getElem?_eq_some_iff.mp htext).1, [], next, ?_⟩
  simp only [step, hr]
  exact ⟨htext, rfl, rfl, by rw [hmore]⟩

theorem On.of_batchEnd (h : c.On lines before after) (hp : c.peek = .batchEnd) :
    after = [] ∧ c.line + 1 = lines.length := by
  have hlt := h.lt
  simp only [peek, h.rest] at hp
  split at hp
  · simp_all
  · cases hp
  · rename_i hr
    rw [List.cons.injEq, List.drop_eq_nil_iff] at hr
    exact ⟨hr.1, by omega⟩
  · cases hp

end Cursor

/-! ## Tokens on lines -/

/-- The token stands on the line at the place `i`, with `before` to its left and `after` to its
right.  Nothing is right of one that ends a line or the batch. -/
structure Token.On (lines : List Text) (i : Nat) (before after : Text) (t : Token) : Prop where
  position : t.position = ⟨i + 1, before.length + 1⟩
  text : lines[i]? = some (before ++ (t.lexeme ++ after))
  covers : t.kind.Covers t.lexeme
  lineEnd : t.kind = .lineEnd → after = [] ∧ i + 1 < lines.length
  batchEnd : t.kind = .batchEnd → after = [] ∧ i + 1 = lines.length

/-- The token stands on one of the lines, where its position says. -/
def Token.Stands (lines : List Text) (t : Token) : Prop :=
  ∃ i before after, t.On lines i before after

/-- Only the end of a line or of the batch stands for no characters. -/
theorem TokenKind.Covers.not_end {kind : TokenKind} {t : Text} (h : kind.Covers t) (h0 : t ≠ []) :
    kind ≠ .lineEnd ∧ kind ≠ .batchEnd := by
  constructor
  · rintro rfl
    exact h0 h
  · rintro rfl
    exact h0 h

namespace Cursor

variable {lines : List Text} {before after : Text} {c : Cursor}

/-- **A token stands at the cursor**, and the cursor goes on behind it or, after a line end, on the
next line. -/
theorem On.token (h : c.On lines before after) :
    ∃ after', c.token.1.On lines c.line before after' ∧
      (c.token.1.kind = .lineEnd → c.token.2.Inside lines) ∧
      (c.token.1.kind ≠ .lineEnd → c.token.1.kind ≠ .batchEnd →
        c.token.2.On lines (before ++ c.token.1.lexeme) after') := by
  have hposition : c.position = ⟨c.line + 1, before.length + 1⟩ := by rw [position, h.column]
  rcases token_cases c with ⟨hp, heq⟩ | ⟨hp, heq⟩ | ⟨p, kind, h0, hcovers, heq⟩ |
    ⟨a, kind, hp, hcovers, heq⟩
  · obtain ⟨rfl, hlast⟩ := h.of_batchEnd hp
    rw [heq]
    refine ⟨[], ⟨hposition, h.text, rfl, nofun, fun _ => ⟨rfl, hlast⟩⟩, nofun, ?_⟩
    exact fun _ hk => absurd rfl hk
  · obtain ⟨rfl, hlt, hnext⟩ := h.step_lineEnd hp
    rw [heq]
    refine ⟨[], ⟨hposition, h.text, rfl, fun _ => ⟨rfl, hlt⟩, nofun⟩, fun _ => hnext, ?_⟩
    exact fun hk => absurd rfl hk
  · obtain ⟨hrun, hnext⟩ := h.span p
    obtain ⟨hline, hbatch⟩ := hcovers.not_end h0
    rw [heq]
    refine ⟨after.dropWhile p, ⟨hposition, ?_, hcovers, fun hk => absurd hk hline,
      fun hk => absurd hk hbatch⟩, fun hk => absurd hk hline, fun _ _ => ?_⟩
    · rw [hrun, List.takeWhile_append_dropWhile]
      exact h.text
    · rw [hrun]
      exact hnext
  · obtain ⟨after', rfl, hnext⟩ := h.step_char hp
    obtain ⟨hline, hbatch⟩ := hcovers.not_end (List.cons_ne_nil a [])
    rw [heq]
    exact ⟨after', ⟨hposition, h.text, hcovers, fun hk => absurd hk hline,
      fun hk => absurd hk hbatch⟩, fun hk => absurd hk hline, fun _ _ => hnext⟩

/-- In token mode the cursor stays on the lines until the batch ends. -/
theorem Inside.token (h : c.Inside lines) :
    c.token.1.Stands lines ∧ (c.token.1.kind ≠ .batchEnd → c.token.2.Inside lines) := by
  obtain ⟨before, after, h⟩ := h
  obtain ⟨after', hon, hline, hnext⟩ := h.token
  refine ⟨⟨_, _, _, hon⟩, fun hk => ?_⟩
  by_cases hl : c.token.1.kind = .lineEnd
  · exact hline hl
  · exact (hnext hl hk).inside

/-- In type mode it stays there if there is a type name; else a token stands there. -/
theorem Inside.typeName (h : c.Inside lines) :
    if c.typeName.1.kind = .typeName then c.typeName.2.Inside lines
    else c.typeName.1.Stands lines := by
  obtain ⟨before, after, h⟩ := h
  obtain ⟨before', after', hskip⟩ := h.skipGaps
  rcases typeName_cases c with heq | ⟨_, heq⟩
  · rw [heq, if_neg (token_kind_ne_typeName _)]
    exact hskip.inside.token.1
  · rw [heq, if_pos rfl]
    exact (hskip.span isTypeChar).2.inside

/-- At the end of its line the cursor is still on the lines. -/
theorem On.atEnd (h : c.On lines before after) :
    (Cursor.mk c.line (c.column + after.length) (c.offset + Text.byteSize after)
      ([] :: lines.drop (c.line + 1))).On lines (before ++ after) [] := by
  refine ⟨?_, ?_, ?_, rfl⟩
  · rw [List.append_nil]
    exact h.text
  · rw [List.length_append, h.column]
  · rw [Text.byteSize_append, h.offset]

/-- The cursor after the gap that the next line starts with. -/
theorem on_next {next : Text} {more : List Text} {i : Nat} (h : lines.drop (i + 1) = next :: more) :
    (Cursor.mk (i + 1) (next.takeWhile Text.isGap).length
      (Text.byteSize (next.takeWhile Text.isGap)) (next.dropWhile Text.isGap :: more)).On lines
        (next.takeWhile Text.isGap) (next.dropWhile Text.isGap) := by
  obtain ⟨htext, hmore⟩ := drop_eq_cons h
  refine ⟨?_, rfl, rfl, by rw [hmore]⟩
  rw [List.takeWhile_append_dropWhile]
  exact htext

/-- A text run ends on one of the lines. -/
theorem On.runFrom {current : Text} {more : List Text} (h : c.On lines before current)
    (hm : lines.drop (c.line + 1) = more) :
    (runFrom c.line c.column c.offset current more).2.Inside lines := by
  induction more generalizing c before current with
  | nil =>
    have hend := h.atEnd
    rw [hm] at hend
    exact hend.inside
  | cons next more ih =>
    unfold Cursor.runFrom
    split
    · have hend := h.atEnd
      rw [hm] at hend
      exact hend.inside
    · exact ih (on_next hm) (drop_eq_cons hm).2

theorem Inside.text (h : c.Inside lines) : c.text.2.Inside lines := by
  obtain ⟨before, after, h⟩ := h
  obtain ⟨before', after', hskip⟩ := h.skipGaps
  simp only [Cursor.text, hskip.rest]
  exact hskip.runFrom rfl

end Cursor

/-! ## Faults of single tokens -/

theorem Keyword.spelling_ne_of_not_wordChar {t : Text} {a : Char} (ha : a ∈ t)
    (hw : isWordChar a = false) (k : Keyword) : k.spelling ≠ t := by
  rintro rfl
  rw [k.spelling_chars a ha] at hw
  cases hw

theorem isWordChar_of_isGap {a : Char} (h : Text.isGap a = true) : isWordChar a = false := by
  cases hw : isWordChar a with
  | false => rfl
  | true => rw [Reader.isGap_of_isWordChar hw] at h; cases h

theorem Token.On.column {lines : List Text} {i : Nat} {before after : Text} {t : Token}
    (h : t.On lines i before after) :
    1 ≤ t.position.column ∧ t.position.column ≤ (before ++ (t.lexeme ++ after)).length + 1 := by
  rw [h.position, List.length_append]
  exact ⟨Nat.le_add_left 1 _, Nat.add_le_add_right (Nat.le_add_right _ _) 1⟩

theorem Cause.advised_none {found : Text} (h : ∀ k : Keyword, k.spelling ≠ found)
    (expected : Expected) : (Cause.unexpectedToken found expected).Advised none :=
  ⟨⟨nofun, fun ⟨k, hk⟩ => absurd hk (h k)⟩, fun _ => h, fun _ => rfl⟩

theorem Cause.advised_reserved (k : Keyword) (expected : Expected) :
    (Cause.unexpectedToken k.spelling expected).Advised
      (some ("`" ++ String.ofList k.spelling ++ "` is a reserved word")) :=
  ⟨⟨fun _ => ⟨k, rfl⟩, fun _ => rfl⟩, nofun, fun h => absurd rfl (h k)⟩

/-- A fault at a token that stands for characters shows them. -/
theorem Token.On.found_shows {lines : List Text} {i : Nat} {before after : Text} {t : Token}
    (h : t.On lines i before after) (h0 : t.lexeme ≠ []) {expected : Expected}
    {hint : Option String} (hhint : (Cause.unexpectedToken t.lexeme expected).Advised hint) :
    Fault.Shows lines ⟨.unexpectedToken t.lexeme expected, t.position, hint⟩ := by
  refine ⟨i, _, h.text, by rw [h.position], h.column, .inr ⟨h0, ?_⟩, hhint⟩
  rw [h.position]
  exact Text.occursAt_append before t.lexeme after

/-- **A token that is met where something else had to stand** shows at its position. -/
theorem Fault.unexpected_shows {lines : List Text} {t : Token} (h : t.Stands lines)
    (expected : Expected) : (Fault.unexpected t expected).Shows lines := by
  obtain ⟨i, before, after, h⟩ := h
  have hcolumn := h.column
  obtain ⟨kind, position, lexeme⟩ := t
  obtain rfl := h.position
  have hcovers := h.covers
  cases kind with
  | lineEnd =>
    obtain rfl : lexeme = [] := hcovers
    obtain ⟨rfl, hlt⟩ := h.lineEnd rfl
    have hfree : ∀ k : Keyword, k.spelling ≠ "end of line" := by
      intro k
      cases k <;> decide
    refine ⟨i, _, h.text, rfl, hcolumn, .inl ⟨rfl, ?_, Nat.ne_of_lt hlt⟩,
      Cause.advised_none hfree expected⟩
    rw [List.append_nil, List.append_nil]
    rfl
  | batchEnd =>
    obtain rfl : lexeme = [] := hcovers
    obtain ⟨rfl, hlast⟩ := h.batchEnd rfl
    refine ⟨i, _, h.text, rfl, hcolumn, ⟨?_, hlast⟩, trivial⟩
    rw [List.append_nil, List.append_nil]
    rfl
  | illegal =>
    obtain ⟨a, rfl⟩ := hcovers
    exact ⟨i, _, h.text, rfl, hcolumn, Text.occursAt_append before [a] after, trivial⟩
  | keyword k =>
    obtain rfl : lexeme = k.spelling := hcovers
    exact h.found_shows k.spelling_ne_nil (Cause.advised_reserved k expected)
  | attr =>
    obtain rfl : lexeme = ['@'] := hcovers
    refine h.found_shows (List.cons_ne_nil _ _) (Cause.advised_none ?_ expected)
    exact Keyword.spelling_ne_of_not_wordChar List.mem_cons_self (by decide)
  | gap =>
    obtain ⟨a, ha⟩ := List.exists_mem_of_ne_nil lexeme hcovers.1
    refine h.found_shows hcovers.1 (Cause.advised_none ?_ expected)
    exact Keyword.spelling_ne_of_not_wordChar ha (isWordChar_of_isGap (hcovers.2 a ha))
  | word => exact h.found_shows hcovers.nonempty (Cause.advised_none hcovers.free expected)
  -- names of types and texts are taken where they are met
  | typeName => cases hcovers
  | text => cases hcovers

/-! ## Faults of a batch -/

namespace Reader

variable {lines : List Text} {r : Reader}

theorem scan_stands (h : r.Clear (Cursor.Inside lines)) :
    r.scan.1.Stands lines ∧ (r.scan.1.kind ≠ .batchEnd → r.scan.2.Clear (Cursor.Inside lines)) := by
  obtain ⟨htoken, hcursor⟩ := scan_fresh h.1
  obtain ⟨hstands, hnext⟩ := h.2.token
  rw [htoken]
  refine ⟨hstands, fun hk => ⟨scan_pending r, ?_⟩⟩
  rw [hcursor]
  exact hnext hk

theorem scanPastGap_stands (h : r.Clear (Cursor.Inside lines)) :
    r.scanPastGap.1.Stands lines ∧
      (r.scanPastGap.1.kind ≠ .batchEnd → r.scanPastGap.2.Clear (Cursor.Inside lines)) := by
  obtain ⟨c, hc, htoken, hcursor⟩ := scanPastGap_cases h.1
  have hinside : c.Inside lines := by
    rcases hc with rfl | ⟨rfl, hgap⟩
    · exact h.2
    · exact h.2.token.2 (by simp [hgap])
  rw [htoken]
  refine ⟨hinside.token.1, fun hk => ⟨scanPastGap_pending r, ?_⟩⟩
  rw [hcursor]
  exact hinside.token.2 hk

theorem word_shows (h : r.Clear (Cursor.Inside lines)) :
    r.word.Meets (fun _ r' => r'.Clear (Cursor.Inside lines)) (Fault.Shows lines) := by
  obtain ⟨hstands, hnext⟩ := scanPastGap_stands h
  unfold word
  simp only
  split
  · rename_i hk
    exact hnext (by simp [hk])
  · exact Fault.unexpected_shows hstands _

theorem typeName_shows (h : r.Clear (Cursor.Inside lines)) :
    r.typeName.Meets (fun _ r' => r'.Clear (Cursor.Inside lines)) (Fault.Shows lines) := by
  have htype := h.2.typeName
  unfold typeName
  simp only
  split
  · rename_i hk
    rw [if_pos (show r.cursor.typeName.1.kind = .typeName from hk)] at htype
    exact ⟨by simpa using h.1, htype⟩
  · rename_i hk
    rw [if_neg (show r.cursor.typeName.1.kind ≠ .typeName from hk)] at htype
    exact Fault.unexpected_shows htype _

theorem text_shows (h : r.Clear (Cursor.Inside lines)) :
    r.text.Meets (fun _ r' => r'.Clear (Cursor.Inside lines)) (Fault.Shows lines) :=
  ⟨by simpa [scanText] using h.1, h.2.text⟩

theorem parameter_shows (h : r.Clear (Cursor.Inside lines)) :
    r.parameter.Meets (fun _ r' => r'.Clear (Cursor.Inside lines)) (Fault.Shows lines) := by
  refine (word_shows h).andThen fun _ r₁ h₁ => ?_
  refine (typeName_shows h₁).andThen fun _ r₂ h₂ => ?_
  exact (text_shows h₂).map fun _ _ h₃ => h₃

/-- Between two items: the cursor is on the lines unless the batch has ended, and only the end of a
line or of the batch may be put back. -/
def Within (lines : List Text) (r : Reader) : Prop :=
  r.Settled ∧ (r.cursor.Inside lines ∨ r.cursor.rest = [])

theorem Clear.within (h : r.Clear (Cursor.Inside lines)) : r.Within lines :=
  ⟨settled_of_pending h.1, .inl h.2⟩

theorem unscan_within (h : r.Clear (Cursor.Inside lines))
    (hk : r.scanPastGap.1.kind = .lineEnd ∨ r.scanPastGap.1.kind = .batchEnd) :
    (r.scanPastGap.2.unscan r.scanPastGap.1).Within lines := by
  refine ⟨unscan_settled h.1 hk, ?_⟩
  rw [unscan_cursor]
  rcases hk with hk | hk
  · exact .inl ((scanPastGap_stands h).2 (by simp [hk])).2
  · obtain ⟨c, _, htoken, hcursor⟩ := scanPastGap_cases h.1
    rw [htoken] at hk
    rw [hcursor]
    exact .inr (Cursor.rest_of_batchEnd hk)

theorem permission_shows (h : r.Clear (Cursor.Inside lines)) :
    r.permission.Meets (fun _ r' => r'.Within lines) (Fault.Shows lines) := by
  have hslot : r.checkSlot.Clear (Cursor.Inside lines) := ⟨by simpa using h.1, by simpa using h.2⟩
  obtain ⟨hstands, hnext⟩ := scanPastGap_stands hslot
  unfold permission
  simp only [peek]
  split
  · split
    · split
      · rename_i hk; exact (hnext (by simp [hk])).within
      · rename_i hk; exact unscan_within hslot (.inl hk)
      · rename_i hk; exact unscan_within hslot (.inr hk)
      · exact Fault.unexpected_shows hstands _
    · exact hslot.within
  · exact hslot.within

/-- **Faults of an attribute** show at their positions.  An attribute is read right after its
sign, so that a name that the record may not have stands after one. -/
theorem attributeItem_shows (kind : RecordKind) {before after : Text} (hp : r.pending = none)
    (h : r.cursor.On lines (before ++ ['@']) after) :
    (r.attributeItem kind).Meets (fun _ r' => r'.Within lines) (Fault.Shows lines) := by
  obtain ⟨hstands, hnext⟩ := scan_stands ⟨hp, h.inside⟩
  obtain ⟨after', hon, _⟩ := h.token
  rw [← (scan_fresh hp).1] at hon
  have hrefused (expected : Expected) :
      Reading.Meets (α := Item) (.error (.unexpected r.scan.1 expected), r.scan.2)
        (fun _ r' => r'.Within lines) (Fault.Shows lines) :=
    Fault.unexpected_shows hstands expected
  unfold attributeItem
  simp only
  split
  · rename_i k hk
    have hs := hnext (by simp [hk])
    have hcovers := hon.covers
    rw [hk] at hcovers
    split
    · have hoccurs := Text.occursAt_append before ('@' :: k.spelling) after'
      refine ⟨_, _, hon.text, by rw [hon.position], hon.column, ⟨k, hk, ?_⟩, trivial⟩
      rw [hon.position, show r.scan.1.lexeme = k.spelling from hcovers]
      simpa using hoccurs
    · split
      · exact (word_shows hs).map fun _ _ hr => hr.within
      · exact (word_shows hs).map fun _ _ hr => hr.within
      · exact (word_shows hs).map fun _ _ hr => hr.within
      · exact (parameter_shows hs).map fun _ _ hr => hr.within
      · exact (word_shows hs).map fun _ _ hr => hr.within
      · exact (parameter_shows hs).map fun _ _ hr => hr.within
      · refine (typeName_shows hs).andThen fun _ r' hr => ?_
        exact (permission_shows hr).map fun _ _ hr' => hr'
      all_goals exact hrefused _
  · exact hrefused _

/-- **The step to the next item** ends the batch, or gives a token that stands on the lines. -/
theorem advance_stands (h : r.Within lines) (hk : r.advance.1.kind ≠ .batchEnd) :
    r.advance.1.Stands lines ∧ r.advance.2.Clear (Cursor.Inside lines) ∧
      (r.advance.1.kind = .attr →
        ∃ before after, r.advance.2.cursor.On lines (before ++ ['@']) after) := by
  obtain ⟨_, hpending, ⟨hend, _⟩ | ⟨c, hc, htoken, hcursor⟩⟩ := advance_cases h.1
  · exact absurd hend hk
  rw [htoken] at hk ⊢
  have hinside : c.Inside lines := by
    rcases h.2 with hin | hrest
    · rcases hc with rfl | ⟨rfl, hline⟩
      · exact hin
      · exact hin.token.2 (by simp [hline])
    · -- with nothing left, only the end of the batch can come next
      have hend : r.cursor.token.1.kind = .batchEnd := by
        simp [Cursor.token, Cursor.peek, hrest]
      rcases hc with rfl | ⟨_, hline⟩
      · exact absurd hend hk
      · rw [hend] at hline
        cases hline
  refine ⟨hinside.token.1, ⟨hpending, by rw [hcursor]; exact hinside.token.2 hk⟩, fun hattr => ?_⟩
  obtain ⟨before, after, hon⟩ := hinside
  obtain ⟨after', ht, _, hnext⟩ := hon.token
  have hcovers := ht.covers
  have hbehind := hnext (by simp [hattr]) hk
  rw [hattr] at hcovers
  rw [show c.token.1.lexeme = ['@'] from hcovers, ← hcursor] at hbehind
  exact ⟨before, after', hbehind⟩

/-- **Faults of the items of a batch** show at their positions. -/
theorem items_shows (kind : RecordKind) (r : Reader) (h : r.Within lines) :
    (r.items kind).Meets (fun _ _ => True) (Fault.Shows lines) := by
  fun_induction items kind r with
  | case1 r hk => trivial
  | case2 r hk ih => exact ih (advance_stands h (by simp [hk])).2.1.within
  | case3 r hk hsign ih =>
    exact ih (peek_clear (advance_stands h (by simp [hk])).2.1).within
  | case4 r hk hsign s ih =>
    have hclear := peek_clear (advance_stands h (by simp [hk])).2.1
    exact (ih (text_shows hclear : s.2.Clear _).within).map fun _ _ _ => trivial
  | case5 r hk e r' ha =>
    obtain ⟨_, hclear, hsign⟩ := advance_stands h (by simp [hk])
    obtain ⟨before, after, hon⟩ := hsign hk
    have hattr := attributeItem_shows kind hclear.1 hon
    rwa [ha] at hattr
  | case6 r hk i r' ha ih =>
    obtain ⟨_, hclear, hsign⟩ := advance_stands h (by simp [hk])
    obtain ⟨before, after, hon⟩ := hsign hk
    have hattr := attributeItem_shows kind hclear.1 hon
    rw [ha] at hattr
    exact (ih hattr).map fun _ _ _ => trivial
  | case7 r hend => exact Fault.unexpected_shows (advance_stands h hend).1 _

theorem heading_shows (h : r.Clear (Cursor.Inside lines)) :
    r.heading.Meets (fun _ r' => r'.Within lines) (Fault.Shows lines) := by
  obtain ⟨hsign, hs⟩ := scan_stands h
  unfold heading
  simp only
  split
  · exact Fault.unexpected_shows hsign _
  · rename_i hattr
    obtain ⟨hname, ht⟩ := scan_stands (hs (by simp [not_not.mp hattr]))
    split
    · rename_i k hk
      have hclear := ht (by simp [hk])
      obtain ⟨hstands, hu⟩ := scanPastGap_stands hclear
      split
      · split
        · rename_i hword
          exact (hu (by simp [hword])).within
        · rename_i hline
          exact unscan_within hclear (.inl hline)
        · exact Fault.unexpected_shows hstands _
      · exact Fault.unexpected_shows hname _
    · exact Fault.unexpected_shows hname _

/-- **Every fault of a batch** shows at its position. -/
theorem record_shows (origin : Text) (h : lines ≠ []) :
    ((start lines).record origin).Meets (fun _ _ => True) (Fault.Shows lines) := by
  obtain ⟨line, more, rfl⟩ := List.exists_cons_of_ne_nil h
  refine (heading_shows (r := start _) ⟨rfl, Cursor.start_inside h⟩).andThen fun k r hr => ?_
  refine (items_shows k.1 r hr).andThen fun items r' _ => ?_
  have hcolumn : 1 ≤ line.length + 1 := Nat.le_add_left 1 _
  simp only
  split
  · exact ⟨0, line, rfl, rfl, ⟨Nat.le_refl 1, hcolumn⟩, ⟨rfl, rfl⟩, trivial⟩
  · split
    · exact ⟨0, line, rfl, rfl, ⟨Nat.le_refl 1, hcolumn⟩, ⟨rfl, rfl⟩, trivial⟩
    · trivial

end Reader

/-! ## Errors in a source -/

theorem Record.parse_eq_error {origin : Text} {firstLine : Nat} {lines : List Text}
    {e : SyntaxError} (h : Record.parse origin firstLine lines = .error e) :
    ∃ f, ((Reader.start lines).record origin).1 = .error f ∧
      e = .ofFault origin (firstLine - 1) f := by
  unfold Record.parse located at h
  split at h
  · cases h
  · rename_i f hf
    cases h
    exact ⟨f, hf, rfl⟩

namespace Registry

theorem registerBatch_eq_malformed {reg : Registry} {b : Batch} {e : SyntaxError}
    (h : reg.registerBatch b = .error (.malformed e)) :
    Record.parse b.source b.startLine b.lines = .error e := by
  unfold registerBatch at h
  split at h
  · rename_i hparse
    cases h
    exact hparse
  · split at h <;> cases h

/-- **Syntax errors point at what is wrong in the source.**  The line of the error is a line of the
source that belongs to the batch; `w` is what follows the marker on it, and the column counts its
characters. -/
theorem registerBatch_shows (marker source text : Text) (reg : Registry) (b : Batch)
    (e : SyntaxError) (hb : b ∈ Batch.extract marker source text)
    (h : reg.registerBatch b = .error (.malformed e)) :
    ∃ i k line w, e.position.line = b.startLine + i ∧ b.lines[i]? = some w ∧
      e.position.line = k + 1 ∧ (Text.splitLines text)[k]? = some line ∧
      Batch.content? marker line = some w ∧
      1 ≤ e.position.column ∧ e.position.column ≤ w.length + 1 ∧
      e.cause.ShowsIn w e.position.column (i = 0) (i + 1 = b.lines.length) ∧
      e.cause.Advised e.hint ∧ e.origin = source := by
  obtain ⟨f, hf, rfl⟩ := Record.parse_eq_error (registerBatch_eq_malformed h)
  have hread := Reader.record_shows b.source (Batch.ofContents_runOf hb).nonempty
  obtain ⟨i, w, hshows⟩ := hread.of_error hf
  obtain ⟨k, line, hk, hline, hcontent⟩ := Batch.extract_content? hb hshows.text
  have hplace : f.position.line + (b.startLine - 1) = b.startLine + i := by
    have hstart := Batch.le_startLine hb
    rw [hshows.line]
    omega
  exact ⟨i, k, line, w, hplace, hshows.text, hplace.trans hk, hline, hcontent, hshows.column.1,
    hshows.column.2, hshows.cause, hshows.hint, (Batch.extract_lines hb).1⟩

/-- A reserved word on the last line of a source, after a character of two bytes. -/
theorem registerBatch_shows_reserved :
    let text : Text := "x\n  //* @Node n\r\n  //* @Value é Node"
    let b : Batch := ⟨"s", 2, ["@Node n", "@Value é Node"]⟩
    let e : SyntaxError := ⟨.unexpectedToken "Node" (.description "a write permission"), "s",
      ⟨3, 10⟩, some "`Node` is a reserved word"⟩
    b ∈ Batch.extract "//*" "s" text ∧ empty.registerBatch b = .error (.malformed e) ∧
      ∃ i k line w, 3 = b.startLine + i ∧ 3 = k + 1 ∧
        (Text.splitLines text)[k]? = some line ∧ Batch.content? "//*" line = some w ∧
        e.cause.ShowsIn w 10 (i = 0) (i + 1 = 2) ∧ e.cause.Advised e.hint := by
  intro text b e
  have hb : b ∈ Batch.extract "//*" "s" text := by decide +kernel
  have h : empty.registerBatch b = .error (.malformed e) := by decide +kernel
  obtain ⟨i, k, line, w, hplace, _, hk, hline, hcontent, _, _, hcause, hhint, _⟩ :=
    registerBatch_shows "//*" "s" text empty b e hb h
  exact ⟨hb, h, i, k, line, w, hplace, hk, hline, hcontent, hcause, hhint⟩

end Registry

end CommentDocs
