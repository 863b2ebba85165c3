import CommentDocs.Proofs.Parsed

/-!
# No visible character is dropped

Blanks separate what a batch says and are skipped freely.  Every other character ends up in what is
read, in its place:

* `Cursor.Passes c t c'`: between the two cursors stand the visible characters of `t`.  It composes
  (`Passes.trans`), and every mode passes exactly the lexeme that it gives (`token_passes`,
  `typeName_passes`, `text_passes`).
* `attributeItem_passes` is the step over one attribute, `items_passes` the run over a body.
* `parse_visible`: the visible characters of a batch that parses are those of its kind, its name
  and its items, in order.
-/

set_option autoImplicit false

namespace CommentDocs

open Text (Trimmed isBlank isGap)

/-! ## Visible characters -/

namespace Text

/-- The characters of a text that are no blanks. -/
def visible (t : Text) : Text := t.filter fun c => !isBlank c

@[simp] theorem visible_nil : visible [] = [] := rfl

@[simp] theorem visible_append (a b : Text) : visible (a ++ b) = visible a ++ visible b :=
  List.filter_append ..

theorem visible_cons (c : Char) (t : Text) : visible (c :: t) = visible [c] ++ visible t :=
  visible_append [c] t

@[simp] theorem visible_space (t : Text) : visible (' ' :: t) = visible t := rfl

theorem visible_of_blank {t : Text} (h : ∀ c ∈ t, isBlank c = true) : visible t = [] := by
  rw [visible, List.filter_eq_nil_iff]
  intro c hc
  simp [h c hc]

theorem visible_of_gap {t : Text} (h : ∀ c ∈ t, isGap c = true) : visible t = [] :=
  visible_of_blank fun c hc => isBlank_of_isGap (h c hc)

/-- A text is seen in two parts, a run of a class and what follows it. -/
theorem visible_split (p : Char → Bool) (t : Text) :
    visible t = visible (t.takeWhile p) ++ visible (t.dropWhile p) := by
  rw [← visible_append, List.takeWhile_append_dropWhile]

/-- Leaving out a run of blanks leaves out nothing visible. -/
theorem visible_dropWhile {p : Char → Bool} (hp : ∀ c, p c = true → isBlank c = true) (t : Text) :
    visible (t.dropWhile p) = visible t := by
  have hblank : visible (t.takeWhile p) = [] :=
    visible_of_blank fun c hc => hp c (List.all_eq_true.mp List.all_takeWhile c hc)
  rw [visible_split p t, hblank, List.nil_append]

theorem visible_reverse (t : Text) : visible t.reverse = (visible t).reverse :=
  List.filter_reverse ..

/-- **Trimming leaves out nothing visible.** -/
theorem visible_trim (t : Text) : visible (trim t) = visible t := by
  calc visible (trim t) = (visible ((trimStart t).reverse.dropWhile isBlank)).reverse :=
        visible_reverse _
    _ = visible (trimStart t) := by
        rw [visible_dropWhile fun _ h => h, visible_reverse, List.reverse_reverse]
    _ = visible t := visible_dropWhile (fun _ h => h) t

end Text

open Text (visible)

/-- What separates words, or ends a line or the batch. -/
def TokenKind.IsBlank (kind : TokenKind) : Prop :=
  kind = .gap ∨ kind = .lineEnd ∨ kind = .batchEnd

theorem TokenKind.Covers.visible_blank {kind : TokenKind} {t : Text} (h : kind.Covers t)
    (hk : kind.IsBlank) : visible t = [] := by
  rcases hk with rfl | rfl | rfl
  · exact Text.visible_of_gap h.2
  · rw [show t = [] from h]; rfl
  · rw [show t = [] from h]; rfl

/-! ## Cursors -/

namespace Cursor

/-- Between the two cursors stand the visible characters of a text. -/
def Passes (c : Cursor) (t : Text) (c' : Cursor) : Prop :=
  visible c.rest.flatten = visible t ++ visible c'.rest.flatten

variable {c c' c'' : Cursor} {t u : Text}

theorem Passes.refl (c : Cursor) : c.Passes [] c := rfl

theorem Passes.trans (h : c.Passes t c') (h' : c'.Passes u c'') : c.Passes (t ++ u) c'' := by
  unfold Passes at *
  rw [h, h', Text.visible_append, List.append_assoc]

/-- What is passed counts by its visible characters only. -/
theorem Passes.congr (h : c.Passes t c') (htu : visible t = visible u) : c.Passes u c' := by
  unfold Passes at *
  rw [h, htu]

theorem span_passes (p : Char → Bool) (c : Cursor) : c.Passes (c.span p).1 (c.span p).2 := by
  unfold Passes span
  split
  · rfl
  · rename_i line more hr
    simp only [hr, List.flatten_cons, Text.visible_append]
    rw [Text.visible_split p line, List.append_assoc]

theorem skipGaps_passes (c : Cursor) : c.Passes [] c.skipGaps :=
  (span_passes isGap c).congr (Text.visible_of_gap (span_chars isGap c))

/-- A step over a character passes it. -/
theorem step_passes {a : Char} (hp : c.peek = .char a) : c.Passes [a] c.step := by
  unfold peek at hp
  split at hp <;> cases hp
  rename_i hr
  simp only [Passes, step, hr, List.flatten_cons, List.cons_append]
  exact Text.visible_cons _ _

/-- A step at the end of a line passes nothing. -/
theorem step_passes_end (hp : c.peek = .lineEnd ∨ c.peek = .batchEnd) : c.Passes [] c.step := by
  unfold peek at hp
  split at hp
  · rename_i hr; simp [Passes, step, hr]
  · simp at hp
  · rename_i hr; simp [Passes, step, hr]
  · rename_i hr; simp [Passes, step, hr]

/-- **Token mode passes the token.** -/
theorem token_passes (c : Cursor) : c.Passes c.token.1.lexeme c.token.2 := by
  rcases token_cases c with ⟨hp, heq⟩ | ⟨hp, heq⟩ | ⟨p, _, _, _, heq⟩ | ⟨a, _, hp, _, heq⟩
  · rw [heq]; exact step_passes_end (.inr hp)
  · rw [heq]; exact step_passes_end (.inl hp)
  · rw [heq]; exact span_passes p c
  · rw [heq]; exact step_passes hp

/-- **Type mode passes the type name.** -/
theorem typeName_passes (c : Cursor) : c.Passes c.typeName.1.lexeme c.typeName.2 := by
  have hskip := skipGaps_passes c
  rcases typeName_cases c with heq | ⟨_, heq⟩
  · rw [heq]; exact hskip.trans (token_passes _)
  · rw [heq]; exact hskip.trans (span_passes isTypeChar _)

/-- A text run holds the visible characters of the lines that it goes on over. -/
theorem runFrom_passes (line column offset : Nat) (current : Text) (more : List Text) :
    (Cursor.mk line column offset (current :: more)).Passes
      (runFrom line column offset current more).1 (runFrom line column offset current more).2 := by
  induction more generalizing line column offset current with
  | nil => simp [Passes, runFrom]
  | cons next more ih =>
    unfold runFrom
    split
    · simp [Passes]
    · have hrun := ih (line + 1) (next.takeWhile isGap).length
        (Text.byteSize (next.takeWhile isGap)) (next.dropWhile isGap)
      have hnext := Text.visible_dropWhile (fun _ h => Text.isBlank_of_isGap h) next
      simp only [Passes, List.flatten_cons, Text.visible_append] at hrun ⊢
      rw [← hnext, hrun]
      simp

/-- **Text mode passes the text.** -/
theorem text_passes (c : Cursor) : c.Passes c.text.1.lexeme c.text.2 := by
  have hskip := skipGaps_passes c
  unfold text
  simp only
  split
  · exact hskip
  · rename_i current more hr
    have hrun := runFrom_passes c.skipGaps.line c.skipGaps.column c.skipGaps.offset current more
    rw [← hr] at hrun
    exact hskip.trans (hrun.congr (Text.visible_trim _).symm)

theorem token_passes_blank (hk : c.token.1.kind.IsBlank) : c.Passes [] c.token.2 :=
  (token_passes c).congr ((token_covers c).visible_blank hk)

end Cursor

/-! ## Items -/

/-- An attribute with its arguments, without what separates them. -/
def Keyword.signed (k : Keyword) (arguments : List Text) : Text :=
  '@' :: (k.spelling ++ arguments.flatten)

/-- The characters of an item: the sign, the name and the arguments of an attribute, or the text of
a run. -/
def Item.characters : Item → Text
  | .metaType key => Keyword.signed .metaType [key]
  | .is name => Keyword.signed .is [name]
  | .parent key => Keyword.signed .parent [key]
  | .param p => Keyword.signed .param [p.name, p.type, p.description]
  | .returns type => Keyword.signed .returns [type]
  | .column p => Keyword.signed .column [p.name, p.type, p.description]
  | .value type permission => Keyword.signed .value (type :: permission.toList)
  | .text run => run

namespace Reader

/-- No condition on faults. -/
def anyFault (_ : Fault) : Prop := True

variable {r : Reader} {kind : RecordKind}

theorem scanPastGap_passes (hp : r.pending = none) :
    r.cursor.Passes r.scanPastGap.1.lexeme r.scanPastGap.2.cursor := by
  obtain ⟨c, hc, htoken, hcursor⟩ := scanPastGap_cases hp
  rw [htoken, hcursor]
  rcases hc with rfl | ⟨rfl, hk⟩
  · exact Cursor.token_passes _
  · exact (Cursor.token_passes_blank (.inl hk)).trans (Cursor.token_passes _)

theorem word_passes (hp : r.pending = none) :
    r.word.Meets (fun w r' => r.cursor.Passes w r'.cursor ∧ r'.pending = none) anyFault := by
  unfold word
  simp only
  split
  · exact ⟨scanPastGap_passes hp, scanPastGap_pending r⟩
  · trivial

theorem typeName_passes (hp : r.pending = none) :
    r.typeName.Meets (fun n r' => r.cursor.Passes n r'.cursor ∧ r'.pending = none) anyFault := by
  unfold typeName
  simp only
  split
  · exact ⟨Cursor.typeName_passes _, by simpa [scanType] using hp⟩
  · trivial

theorem text_passes (hp : r.pending = none) :
    r.text.Meets (fun t r' => r.cursor.Passes t r'.cursor ∧ r'.pending = none) anyFault :=
  ⟨Cursor.text_passes _, by simpa [scanText] using hp⟩

theorem parameter_passes (hp : r.pending = none) :
    r.parameter.Meets (fun p r' =>
      r.cursor.Passes [p.name, p.type, p.description].flatten r'.cursor ∧ r'.pending = none)
      anyFault := by
  refine (word_passes hp).andThen fun name r₁ h₁ => ?_
  refine (typeName_passes h₁.2).andThen fun type r₂ h₂ => ?_
  refine (text_passes h₂.2).map fun description r₃ h₃ => ⟨?_, h₃.2⟩
  simpa using h₁.1.trans (h₂.1.trans h₃.1)

/-- The end of a line or of the batch that is put back was passed with the gap before it. -/
theorem unscan_passes (hp : r.pending = none)
    (hk : r.scanPastGap.1.kind = .lineEnd ∨ r.scanPastGap.1.kind = .batchEnd) :
    r.cursor.Passes [] (r.scanPastGap.2.unscan r.scanPastGap.1).cursor := by
  obtain ⟨c, _, htoken, _⟩ := scanPastGap_cases hp
  have hcovers := Cursor.token_covers c
  rw [← htoken] at hcovers
  rw [unscan_cursor]
  exact (scanPastGap_passes hp).congr (hcovers.visible_blank (.inr hk))

theorem permission_passes (hp : r.pending = none) :
    r.permission.Meets (fun p r' =>
      r.cursor.Passes p.toList.flatten r'.cursor ∧ r'.Settled) anyFault := by
  have hslot : r.checkSlot.pending = none := by simpa using hp
  have hscan := scanPastGap_passes hslot
  have hstay : r.cursor.Passes [] r.checkSlot.cursor ∧ r.checkSlot.Settled :=
    ⟨by rw [checkSlot_cursor]; exact .refl _, settled_of_pending hslot⟩
  have hback (hk : r.checkSlot.scanPastGap.1.kind = .lineEnd ∨
      r.checkSlot.scanPastGap.1.kind = .batchEnd) :
      r.cursor.Passes [] (r.checkSlot.scanPastGap.2.unscan r.checkSlot.scanPastGap.1).cursor ∧
        (r.checkSlot.scanPastGap.2.unscan r.checkSlot.scanPastGap.1).Settled := by
    have hpass := unscan_passes hslot hk
    rw [checkSlot_cursor] at hpass
    exact ⟨hpass, unscan_settled hslot hk⟩
  unfold permission
  simp only [peek]
  split
  · split
    · split
      · rw [checkSlot_cursor] at hscan
        exact ⟨by simpa using hscan, settled_of_pending (scanPastGap_pending _)⟩
      · rename_i hk; exact hback (.inl hk)
      · rename_i hk; exact hback (.inr hk)
      · trivial
    · exact hstay
  · exact hstay

/-- **One attribute**: with the sign before it, its name and its arguments are what is passed. -/
theorem attributeItem_passes (kind : RecordKind) (hp : r.pending = none) :
    (r.attributeItem kind).Meets (fun i r' =>
      (∃ t, i.characters = '@' :: t ∧ r.cursor.Passes t r'.cursor) ∧ r'.Settled) anyFault := by
  obtain ⟨htoken, hcursor⟩ := scan_fresh hp
  have hs := scan_pending r
  have hcovers := Cursor.token_covers r.cursor
  have hname := Cursor.token_passes r.cursor
  rw [← htoken] at hcovers hname
  rw [← hcursor] at hname
  have hword {k : Keyword} {f : Text → Item} (hk : r.scan.1.kind = .keyword k)
      (hf : ∀ w, (f w).characters = k.signed [w]) :
      (r.scan.2.word.map f).Meets (fun i r' =>
        (∃ t, i.characters = '@' :: t ∧ r.cursor.Passes t r'.cursor) ∧ r'.Settled) anyFault := by
    rw [hk] at hcovers
    refine (word_passes hs).map fun w r' h => ⟨⟨_, hf w, ?_⟩, settled_of_pending h.2⟩
    rw [← show r.scan.1.lexeme = k.spelling from hcovers]
    simpa using hname.trans h.1
  have hparameter {k : Keyword} {f : Parameter → Item} (hk : r.scan.1.kind = .keyword k)
      (hf : ∀ p, (f p).characters = k.signed [p.name, p.type, p.description]) :
      (r.scan.2.parameter.map f).Meets (fun i r' =>
        (∃ t, i.characters = '@' :: t ∧ r.cursor.Passes t r'.cursor) ∧ r'.Settled) anyFault := by
    rw [hk] at hcovers
    refine (parameter_passes hs).map fun p r' h => ⟨⟨_, hf p, ?_⟩, settled_of_pending h.2⟩
    rw [← show r.scan.1.lexeme = k.spelling from hcovers]
    exact hname.trans h.1
  unfold attributeItem
  simp only
  split
  · rename_i k hk
    split
    · trivial
    · split
      · exact hword hk fun _ => rfl
      · exact hword hk fun _ => rfl
      · exact hword hk fun _ => rfl
      · exact hparameter hk fun _ => rfl
      · exact hword hk fun _ => rfl
      · exact hparameter hk fun _ => rfl
      · rw [hk] at hcovers
        refine (typeName_passes hs).andThen fun type r₁ h₁ => ?_
        refine (permission_passes h₁.2).map fun p r₂ h₂ => ⟨⟨_, rfl, ?_⟩, h₂.2⟩
        rw [← show r.scan.1.lexeme = Keyword.spelling .value from hcovers]
        exact hname.trans (h₁.1.trans h₂.1)
      all_goals trivial
  · trivial

/-- The step to the next item passes the token that it gives, and at most a line end before it. -/
theorem advance_passes (h : r.Settled) :
    r.cursor.Passes r.advance.1.lexeme r.advance.2.cursor ∧
      (r.advance.1.kind = .batchEnd → r.advance.2.cursor.rest = []) := by
  obtain ⟨hcovers, _, ⟨hk, hcursor, hrest⟩ | ⟨c, hc, htoken, hcursor⟩⟩ := advance_cases h
  · rw [hk] at hcovers
    rw [show r.advance.1.lexeme = [] from hcovers, hcursor]
    exact ⟨.refl _, fun _ => hrest⟩
  · have hpass : r.cursor.Passes [] c := by
      rcases hc with rfl | ⟨rfl, hk⟩
      · exact .refl _
      · exact Cursor.token_passes_blank (.inr (.inl hk))
    rw [htoken, hcursor]
    exact ⟨hpass.trans (Cursor.token_passes c), Cursor.rest_of_batchEnd⟩

/-- **The body of a batch**: the items that are read are all that is visible up to its end. -/
theorem items_passes (kind : RecordKind) (r : Reader) (h : r.Settled) :
    (r.items kind).Meets (fun items r' =>
      r.cursor.Passes (items.flatMap Item.characters) r'.cursor ∧ r'.cursor.rest = [])
      anyFault := by
  have hblank {r : Reader} (h : r.Settled) (hk : r.advance.1.kind.IsBlank) :
      r.cursor.Passes [] r.advance.2.cursor :=
    (advance_passes h).1.congr ((advance_cases h).1.visible_blank hk)
  fun_induction items kind r with
  | case1 r hk => exact ⟨hblank h (.inr (.inr hk)), (advance_passes h).2 hk⟩
  | case2 r hk ih =>
    refine (ih (settled_of_pending (advance_cases h).2.1)).mono fun items r' hmore => ?_
    exact ⟨(hblank h (.inl hk)).trans hmore.1, hmore.2⟩
  | case3 r hk hsign ih =>
    have hclear : r.advance.2.peek.2.pending = none := by simpa using (advance_cases h).2.1
    refine (ih (settled_of_pending hclear)).mono fun items r' hmore => ?_
    rw [peek_cursor] at hmore
    exact ⟨(hblank h (.inr (.inl hk))).trans hmore.1, hmore.2⟩
  | case4 r hk hsign s ih =>
    have hclear : s.2.pending = none := by simpa [s] using (advance_cases h).2.1
    have hrun : r.advance.2.peek.2.cursor.Passes s.1.lexeme s.2.cursor := Cursor.text_passes _
    rw [peek_cursor] at hrun
    refine (ih (settled_of_pending hclear)).map fun items r' hmore => ?_
    exact ⟨(hblank h (.inr (.inl hk))).trans (hrun.trans hmore.1), hmore.2⟩
  | case5 r hk e r' ha => trivial
  | case6 r hk i r' ha ih =>
    have hitem := attributeItem_passes kind (advance_cases h).2.1
    rw [ha] at hitem
    obtain ⟨⟨t, hchars, hpass⟩, hsettled⟩ := hitem
    have hcovers := (advance_cases h).1
    rw [hk] at hcovers
    have hsign := (advance_passes h).1
    rw [show r.advance.1.lexeme = ['@'] from hcovers] at hsign
    refine (ih hsettled).map fun items r' hmore => ⟨?_, hmore.2⟩
    rw [List.flatMap_cons, hchars]
    exact (hsign.trans hpass).trans hmore.1
  | case7 r => trivial

/-- The word that opens a record is the name of its kind. -/
theorem spelling_of_recordKind? {k : Keyword} (h : k.recordKind? = some kind) :
    k.spelling = kind.name := by
  cases k <;> cases h <;> rfl

/-- The heading passes the sign, the kind and the name. -/
theorem heading_passes (hp : r.pending = none) :
    r.heading.Meets (fun k r' =>
      r.cursor.Passes ('@' :: k.1.name ++ k.2.getD []) r'.cursor ∧ r'.Settled) anyFault := by
  have hscan₁ := scan_fresh hp
  have hscan₂ := scan_fresh (scan_pending r)
  have hcovers₁ := Cursor.token_covers r.cursor
  have hcovers₂ := Cursor.token_covers r.scan.2.cursor
  have hpass₁ := Cursor.token_passes r.cursor
  have hpass₂ := Cursor.token_passes r.scan.2.cursor
  rw [← hscan₁.1] at hcovers₁ hpass₁
  rw [← hscan₁.2] at hpass₁
  rw [← hscan₂.1] at hcovers₂ hpass₂
  rw [← hscan₂.2] at hpass₂
  have hclear := scan_pending r.scan.2
  unfold heading
  simp only
  split
  · trivial
  · rename_i hsign
    rw [Decidable.not_not] at hsign
    rw [hsign] at hcovers₁
    rw [show r.scan.1.lexeme = ['@'] from hcovers₁] at hpass₁
    split
    · rename_i k hk
      rw [hk] at hcovers₂
      split
      · rename_i kind hkind
        rw [show r.scan.2.scan.1.lexeme = k.spelling from hcovers₂,
          spelling_of_recordKind? hkind] at hpass₂
        have hopening := hpass₁.trans hpass₂
        split
        · exact ⟨hopening.trans (scanPastGap_passes hclear),
            settled_of_pending (scanPastGap_pending _)⟩
        · rename_i hend
          exact ⟨hopening.trans (unscan_passes hclear (.inl hend)),
            unscan_settled hclear (.inl hend)⟩
        · trivial
      · trivial
    · trivial

end Reader

/-- **No visible character of a batch is dropped.**  A batch that parses says something about a
record in a kind, perhaps a name, and items: the record is what they describe, and the visible
characters of the batch are theirs, in order. -/
theorem parse_visible (origin : Text) (firstLine : Nat) (lines : List Text) (record : Record)
    (h : Record.parse origin firstLine lines = .ok record) :
    ∃ kind name items, record = Record.ofItems kind name origin items ∧
      (∀ w ∈ name, IsWord w) ∧ (∀ i ∈ items, i.MadeOf kind Trimmed Trimmed) ∧
      visible lines.flatten =
        visible ('@' :: kind.name ++ name.getD [] ++ items.flatMap Item.characters) := by
  obtain ⟨kind, name, items, hheading, hitems, hrecord⟩ :=
    Reader.record_eq_ok (Record.parse_eq_ok h)
  have hclear : (Reader.start lines).pending = none := rfl
  obtain ⟨hopening, hsettled⟩ := (Reader.heading_passes hclear).of_ok hheading
  obtain ⟨hbody, hrest⟩ := (Reader.items_passes kind _ hsettled).of_ok hitems
  refine ⟨kind, name, items, hrecord, ?_, ?_, ?_⟩
  · exact (Reader.heading_ensures Cursor.trimmed_yields trivial).value _ hheading
  · exact (Reader.items_ensures Cursor.trimmed_yields kind _ trivial).value _ hitems
  · have hall : visible (Reader.start lines).cursor.rest.flatten = _ := hopening.trans hbody
    rw [hrest, List.flatten_nil, Text.visible_nil, List.append_nil] at hall
    exact hall

/-- A batch with blanks of several sorts at both ends of its lines, two attributes on one line, a
description that goes on, a key of its own, a name given twice, and two text runs, the first one
after lines of blanks. -/
def greetingLines : List Text :=
  ["@Action\tgreet ", "  @Parent root @Is hello", " \t", "", "Grüße", "\u00a0 an  @alle ", "",
    "@Param mode enum[a,b]  fast or", "\tslow", "@MetaType hail @Is greeting", "@Param to string",
    "@Value int write ", "", "Bis  bald", "", "@Return values"]

theorem parse_visible_greeting :
    let record : Record :=
      { kind := .action, name := "greet", key := "hail", is := some "greeting",
        parent := some "root", short := "Grüße \u00a0 an  @alle", long := "Bis  bald",
        params := [⟨"mode", "enum[a,b]", "fast or slow"⟩, ⟨"to", "string", []⟩],
        returns := some "values", valueType := some "int", writable := some "write",
        origin := "svc" }
    Record.parse "svc" 1 greetingLines = .ok record ∧
      visible greetingLines.flatten =
        "@Actiongreet@Parentroot@IshelloGrüßean@alle@Parammodeenum[a,b]fastorslow" ++
          "@MetaTypehail@Isgreeting@Paramtostring@ValueintwriteBisbald@Returnvalues" ∧
      ∃ kind name items, record = Record.ofItems kind name "svc" items ∧
        (∀ w ∈ name, IsWord w) ∧ (∀ i ∈ items, i.MadeOf kind Trimmed Trimmed) ∧
        visible greetingLines.flatten =
          visible ('@' :: kind.name ++ name.getD [] ++ items.flatMap Item.characters) := by
  intro record
  have hok : Record.parse "svc" 1 greetingLines = .ok record :=
    eq_ok_of_toOption (by decide +kernel)
  exact ⟨hok, by decide +kernel, parse_visible _ _ _ record hok⟩

end CommentDocs
