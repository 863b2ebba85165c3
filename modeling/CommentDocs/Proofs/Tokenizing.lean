import CommentDocs.Proofs.FaultPlaces

/-!
# All tokens of a batch

Token mode takes a batch apart without loss: the tokens between two line ends spell a line, each of
them says where it starts, and none could be longer.

* `IsRun`: a longest run of a class on a line.  `TokenKind.Reads`: what a token of each kind is,
  between what stands before it and after it.
* `Apart`: no run goes on from what was read to what is left.  Every token leaves the cursor at such
  a seam, so a run that starts there has not been cut short at its start.
* `On.token_reads`: what a token step can do at a seam.
* `On.tokens_split`, `On.tokens_positions`, `On.tokens_read`: what follows for all tokens from a
  cursor on, by induction over the steps.
* `tokenize_lossless`: the tokens of every batch that has a line.
-/

set_option autoImplicit false

namespace CommentDocs

open Text (Outside isGap)

/-- A longest run of characters of a class: none of them stands right before it or after it. -/
structure Text.IsRun (p : Char → Bool) (before run after : Text) : Prop where
  nonempty : run ≠ []
  chars : ∀ a ∈ run, p a = true
  left : ∀ a, before.getLast? = some a → p a = false
  right : Outside p after

/-- What a token of the kind stands for, between what is before it and what is after it on its
line. -/
def TokenKind.Reads (before lexeme after : Text) : TokenKind → Prop
  | .keyword k => lexeme = k.spelling ∧ Text.IsRun isWordChar before lexeme after
  | .word => (∀ k : Keyword, lexeme ≠ k.spelling) ∧ Text.IsRun isWordChar before lexeme after
  | .gap => Text.IsRun isGap before lexeme after
  | .attr => lexeme = ['@']
  | .illegal => ∃ a, lexeme = [a] ∧ isGap a = false ∧ isWordChar a = false ∧ a ≠ '@'
  | .lineEnd => lexeme = [] ∧ after = []
  | .batchEnd => lexeme = [] ∧ after = []
  | .typeName => False
  | .text => False

/-- Whether the kind ends a line. -/
def TokenKind.endsLine (kind : TokenKind) : Bool := kind == .lineEnd

theorem TokenKind.endsLine_of_eq {kind : TokenKind} (h : kind = .lineEnd) :
    kind.endsLine = true := by
  rw [h]
  rfl

theorem TokenKind.endsLine_of_ne {kind : TokenKind} (h : kind ≠ .lineEnd) :
    ¬ kind.endsLine = true := by
  simpa [endsLine] using h

/-- The characters that the tokens stand for. -/
def Token.spelled (tokens : List Token) : Text := tokens.flatMap (·.lexeme)

/-- Where the next token starts, after one that started at the position. -/
def Position.past (p : Position) (t : Token) : Position :=
  if t.kind.endsLine then ⟨p.line + 1, 1⟩ else ⟨p.line, p.column + t.lexeme.length⟩

/-- The token stands where its position says, and is what its kind says there. -/
structure Token.ReadIn (lines : List Text) (i : Nat) (before after : Text) (t : Token) : Prop where
  position : t.position = ⟨i + 1, before.length + 1⟩
  text : lines[i]? = some (before ++ (t.lexeme ++ after))
  reads : t.kind.Reads before t.lexeme after
  lineEnd : t.kind = .lineEnd → i + 1 < lines.length
  batchEnd : t.kind = .batchEnd → i + 1 = lines.length

/-- What the tokens of a batch tell about its lines. -/
structure Tokenization (lines : List Text) (tokens : List Token) : Prop where
  /-- The end of the batch comes last and only there; what the tokens before it spell between line
  ends are the lines. -/
  split : ∃ init last, tokens = init ++ [last] ∧ last.kind = .batchEnd ∧
    (∀ t ∈ init, t.kind ≠ .batchEnd) ∧
    (init.splitOnP (·.kind.endsLine)).map Token.spelled = lines
  /-- Each token starts where those before it end. -/
  position : ∀ before t after, tokens = before ++ t :: after →
    t.position = before.foldl Position.past ⟨1, 1⟩
  /-- It stands there on its line, and could not be longer. -/
  read : ∀ t ∈ tokens, ∃ i before after, t.ReadIn lines i before after

/-! ## Seams -/

/-- The classes that are read in runs. -/
def runClasses : List (Char → Bool) := [isGap, isWordChar]

/-- No character is in two of them. -/
theorem eq_of_runClasses {p q : Char → Bool} (hp : p ∈ runClasses) (hq : q ∈ runClasses) {a : Char}
    (hpa : p a = true) (hqa : q a = true) : p = q := by
  simp only [runClasses, List.mem_cons, List.not_mem_nil, or_false] at hp hq
  rcases hp with rfl | rfl <;> rcases hq with rfl | rfl
  · rfl
  · rw [isWordChar_of_isGap hpa] at hqa; cases hqa
  · rw [isWordChar_of_isGap hqa] at hpa; cases hpa
  · rfl

/-- No run goes on from what is before to what is after. -/
def Apart (before after : Text) : Prop :=
  ∀ p ∈ runClasses, ∀ a, before.getLast? = some a → p a = true → Outside p after

theorem apart_nil (after : Text) : Apart [] after := by
  intro p _ a ha
  cases ha

/-- A run that is taken at a seam is a longest one, and leaves a seam. -/
theorem Apart.run {before after : Text} {p : Char → Bool} {a : Char} (h : Apart before after)
    (hp : p ∈ runClasses) (ha : after.head? = some a) (hpa : p a = true) :
    Text.IsRun p before (after.takeWhile p) (after.dropWhile p) ∧
      Apart (before ++ after.takeWhile p) (after.dropWhile p) := by
  have hchars : ∀ b ∈ after.takeWhile p, p b = true := List.all_eq_true.mp List.all_takeWhile
  have hne : after.takeWhile p ≠ [] := by
    cases after with
    | nil => cases ha
    | cons b after =>
      cases ha
      simp [hpa]
  refine ⟨⟨hne, hchars, ?_, Text.outside_dropWhile p after⟩, ?_⟩
  · intro b hb
    cases hpb : p b with
    | false => rfl
    | true =>
      have hout := h p hp b hb hpb a ha
      rw [hpa] at hout
      cases hout
  · intro q hq b hb hqb
    rw [List.getLast?_append_of_ne_nil _ hne] at hb
    have hpb := hchars b (List.mem_of_getLast? hb)
    rw [eq_of_runClasses hq hp hqb hpb]
    exact Text.outside_dropWhile p after

/-- A character that belongs to no run leaves a seam. -/
theorem apart_concat {a : Char} (hg : isGap a = false) (hw : isWordChar a = false)
    (before after : Text) : Apart (before ++ [a]) after := by
  intro p hp b hb hpb
  rw [List.getLast?_concat] at hb
  cases hb
  simp only [runClasses, List.mem_cons, List.not_mem_nil, or_false] at hp
  rcases hp with rfl | rfl
  · rw [hg] at hpb; cases hpb
  · rw [hw] at hpb; cases hpb

/-! ## One token -/

namespace Cursor

variable {lines : List Text} {before after : Text} {c : Cursor}

theorem On.position_eq (h : c.On lines before after) :
    c.position = ⟨c.line + 1, before.length + 1⟩ := by
  rw [position, h.column]

theorem token_position (c : Cursor) : c.token.1.position = c.position := by
  rcases token_cases c with ⟨_, heq⟩ | ⟨_, heq⟩ | ⟨_, _, _, _, heq⟩ | ⟨_, _, _, _, heq⟩ <;> rw [heq]

/-- The kind of a run of word characters is a reserved word exactly if the run spells one. -/
theorem wordKind_reads {run : Text} (h : Text.IsRun isWordChar before run after) :
    (wordKind run).Reads before run after := by
  have hcovers := wordKind_covers h.nonempty h.chars
  unfold wordKind at hcovers ⊢
  split at hcovers
  · exact ⟨hcovers, h⟩
  · exact ⟨fun k hk => hcovers.free k hk.symm, h⟩

/-- At the end of a line that another follows, the next token ends the line. -/
theorem On.next_line (h : c.On lines before after) (hp : c.peek = .lineEnd) :
    after = [] ∧ ∃ next, lines.drop (c.line + 1) = next :: lines.drop (c.line + 2) ∧
      c.step.line = c.line + 1 ∧ c.step.On lines [] next := by
  unfold peek at hp
  split at hp <;> try cases hp
  rename_i next more hr
  have hrest := h.rest
  rw [hr, List.cons.injEq] at hrest
  obtain ⟨htext, hmore⟩ := drop_eq_cons hrest.2.symm
  refine ⟨hrest.1.symm, next, ?_, by simp [Cursor.step, hr], ?_⟩
  · rw [hmore]
    exact hrest.2.symm
  · simp only [Cursor.step, hr]
    exact ⟨htext, rfl, rfl, by rw [hmore]⟩

/-- A run that the cursor takes at a seam is a longest one, and leaves the cursor at a seam. -/
theorem On.run_reads {p : Char → Bool} {a : Char} (h : c.On lines before after)
    (hs : Apart before after) (hp : p ∈ runClasses) (ha : after.head? = some a)
    (hpa : p a = true) :
    ∃ after', after = (c.span p).1 ++ after' ∧ Text.IsRun p before (c.span p).1 after' ∧
      (c.span p).2.line = c.line ∧ (c.span p).2.On lines (before ++ (c.span p).1) after' ∧
      Apart (before ++ (c.span p).1) after' := by
  obtain ⟨hlexeme, hon⟩ := h.span p
  obtain ⟨hrun, hseam⟩ := hs.run hp ha hpa
  have hline : (c.span p).2.line = c.line := by simp [Cursor.span, h.rest]
  rw [hlexeme]
  exact ⟨after.dropWhile p, List.takeWhile_append_dropWhile.symm, hrun, hline, hon, hseam⟩

/-- **What a token step can do at a seam**: end the batch, go to the next line, or take a token that
could not be longer and leave a seam. -/
theorem On.token_reads (h : c.On lines before after) (hs : Apart before after) :
    (c.token.1.kind = .batchEnd ∧ c.token.1.lexeme = [] ∧ after = [] ∧
      c.line + 1 = lines.length) ∨
    (c.token.1.kind = .lineEnd ∧ c.token.1.lexeme = [] ∧ after = [] ∧
      ∃ next, lines.drop (c.line + 1) = next :: lines.drop (c.line + 2) ∧
        c.token.2.line = c.line + 1 ∧ c.token.2.On lines [] next) ∨
    ∃ after', after = c.token.1.lexeme ++ after' ∧ c.token.1.kind ≠ .batchEnd ∧
      c.token.1.kind ≠ .lineEnd ∧ c.token.1.kind.Reads before c.token.1.lexeme after' ∧
      c.token.2.line = c.line ∧ c.token.2.On lines (before ++ c.token.1.lexeme) after' ∧
      Apart (before ++ c.token.1.lexeme) after' := by
  cases hp : c.peek with
  | batchEnd =>
    obtain ⟨hafter, hlast⟩ := h.of_batchEnd hp
    simp only [Cursor.token, hp]
    exact .inl ⟨trivial, trivial, hafter, hlast⟩
  | lineEnd =>
    obtain ⟨hafter, hnext⟩ := h.next_line hp
    simp only [Cursor.token, hp]
    exact .inr (.inl ⟨trivial, trivial, hafter, hnext⟩)
  | char a =>
    right; right
    obtain ⟨after₀, rfl, hstep⟩ := h.step_char hp
    have hline : c.step.line = c.line := by simp [Cursor.step, h.rest]
    simp only [Cursor.token, hp]
    split
    · rename_i hg
      obtain ⟨after', hafter, hrun, hnext⟩ := h.run_reads hs (by simp [runClasses]) rfl hg
      exact ⟨after', hafter, by simp, by simp, hrun, hnext⟩
    · rename_i hg
      split
      · rename_i hw
        obtain ⟨after', hafter, hrun, hnext⟩ := h.run_reads hs (by simp [runClasses]) rfl hw
        obtain ⟨hline, hbatch⟩ := (wordKind_covers hrun.nonempty hrun.chars).not_end hrun.nonempty
        exact ⟨after', hafter, hbatch, hline, wordKind_reads hrun, hnext⟩
      · rename_i hw
        have hg' : isGap a = false := Bool.eq_false_iff.mpr hg
        have hw' : isWordChar a = false := Bool.eq_false_iff.mpr hw
        have hseam := apart_concat hg' hw' before after₀
        split
        · rename_i hsign
          exact ⟨after₀, rfl, by simp, by simp, by rw [hsign]; rfl, hline, hstep, hseam⟩
        · rename_i hsign
          exact ⟨after₀, rfl, by simp, by simp, ⟨a, rfl, hg', hw', hsign⟩, hline, hstep, hseam⟩

/-! ## All tokens -/

theorem tokens_of_batchEnd (hk : c.token.1.kind = .batchEnd) : c.tokens = [c.token.1] := by
  rw [tokens, dif_pos hk]

theorem tokens_cons (hk : c.token.1.kind ≠ .batchEnd) :
    c.tokens = c.token.1 :: c.token.2.tokens := by
  rw [tokens, dif_neg hk]

/-- **Nothing is lost**: between line ends, the tokens spell what is left of the line and the lines
after it. -/
theorem On.tokens_split (h : c.On lines before after) (hs : Apart before after) :
    ∃ init last, c.tokens = init ++ [last] ∧ last.kind = .batchEnd ∧
      (∀ t ∈ init, t.kind ≠ .batchEnd) ∧
      (init.splitOnP (·.kind.endsLine)).map Token.spelled =
        after :: lines.drop (c.line + 1) := by
  induction c using tokens.induct generalizing before after with
  | case1 c hk =>
    obtain ⟨_, _, rfl, hlast⟩ | ⟨hk', _⟩ | ⟨_, _, hk', _⟩ := h.token_reads hs
    · refine ⟨[], c.token.1, tokens_of_batchEnd hk, hk, by simp, ?_⟩
      rw [List.drop_eq_nil_of_le (by omega)]
      rfl
    · rw [hk] at hk'; cases hk'
    · exact absurd hk hk'
  | case2 c hk ih =>
    obtain ⟨hk', _⟩ | ⟨hline, hlexeme, rfl, next, hdrop, hnum, hon⟩ |
      ⟨after', hafter, _, hline, _, hnum, hon, hseam⟩ := h.token_reads hs
    · exact absurd hk' hk
    · obtain ⟨init, last, htokens, hlast, hinit, hsplit⟩ := ih hon (apart_nil next)
      refine ⟨c.token.1 :: init, last, by rw [tokens_cons hk, htokens]; rfl, hlast, ?_, ?_⟩
      · simpa using ⟨hk, hinit⟩
      · rw [List.splitOnP_cons_eq_if_modifyHead, if_pos (TokenKind.endsLine_of_eq hline),
          List.map_cons, hsplit, hdrop, hnum]
        rfl
    · obtain ⟨init, last, htokens, hlast, hinit, hsplit⟩ := ih hon hseam
      refine ⟨c.token.1 :: init, last, by rw [tokens_cons hk, htokens]; rfl, hlast, ?_, ?_⟩
      · simpa using ⟨hk, hinit⟩
      · rw [List.splitOnP_cons_eq_if_modifyHead, if_neg (TokenKind.endsLine_of_ne hline)]
        -- the token is the first of the group that spells the rest of its line
        cases hgroups : init.splitOnP (·.kind.endsLine) with
        | nil => rw [hgroups] at hsplit; cases hsplit
        | cons group groups =>
          rw [hgroups, List.map_cons, List.cons.injEq, hnum] at hsplit
          rw [List.modifyHead_cons, List.map_cons, hsplit.2, hafter, ← hsplit.1]
          rfl

/-- **Each token starts where those before it end.** -/
theorem On.tokens_positions (h : c.On lines before after) (hs : Apart before after) {t : Token}
    {first more : List Token} (htokens : c.tokens = first ++ t :: more) :
    t.position = first.foldl Position.past c.position := by
  induction c using tokens.induct generalizing before after first with
  | case1 c hk =>
    rw [tokens_of_batchEnd hk] at htokens
    obtain ⟨rfl, rfl, _⟩ : first = [] ∧ t = c.token.1 ∧ more = [] := by
      simpa [List.singleton_eq_append_iff] using htokens
    exact token_position c
  | case2 c hk ih =>
    rw [tokens_cons hk] at htokens
    cases first with
    | nil =>
      obtain ⟨rfl, _⟩ := List.cons.inj htokens
      exact token_position c
    | cons t' first =>
      obtain ⟨rfl, hrest⟩ := List.cons.inj htokens
      rw [List.foldl_cons]
      obtain ⟨hk', _⟩ | ⟨hline, _, _, next, _, hnum, hon⟩ |
        ⟨after', _, _, hline, _, hnum, hon, hseam⟩ := h.token_reads hs
      · exact absurd hk' hk
      · rw [ih hon (apart_nil next) hrest, Position.past, if_pos (TokenKind.endsLine_of_eq hline),
          hon.position_eq, hnum]
        rfl
      · rw [ih hon hseam hrest, Position.past, if_neg (TokenKind.endsLine_of_ne hline),
          hon.position_eq, hnum, h.position_eq, List.length_append, Nat.add_right_comm]

/-- **Each token stands on its line and could not be longer.** -/
theorem On.tokens_read (h : c.On lines before after) (hs : Apart before after) :
    ∀ t ∈ c.tokens, ∃ i before after, t.ReadIn lines i before after := by
  induction c using tokens.induct generalizing before after with
  | case1 c hk =>
    obtain ⟨_, hlexeme, rfl, hlast⟩ | ⟨hk', _⟩ | ⟨_, _, hk', _⟩ := h.token_reads hs
    · intro t ht
      rw [tokens_of_batchEnd hk, List.mem_singleton] at ht
      subst ht
      refine ⟨c.line, before, [], by rw [token_position, h.position_eq], ?_, ?_, ?_, fun _ => hlast⟩
      · rw [hlexeme]
        exact h.text
      · rw [hk]
        exact ⟨hlexeme, rfl⟩
      · rw [hk]
        nofun
    · rw [hk] at hk'; cases hk'
    · exact absurd hk hk'
  | case2 c hk ih =>
    intro t ht
    rw [tokens_cons hk, List.mem_cons] at ht
    obtain ⟨hk', _⟩ | ⟨hline, hlexeme, rfl, next, hdrop, _, hon⟩ |
      ⟨after', hafter, _, hline, hreads, _, hon, hseam⟩ := h.token_reads hs
    · exact absurd hk' hk
    · rcases ht with rfl | ht
      · refine ⟨c.line, before, [], by rw [token_position, h.position_eq], ?_, ?_, fun _ => ?_,
          fun hk' => absurd hk' hk⟩
        · rw [hlexeme]
          exact h.text
        · rw [hline]
          exact ⟨hlexeme, rfl⟩
        · exact (List.getElem?_eq_some_iff.mp (drop_eq_cons hdrop).1).1
      · exact ih hon (apart_nil next) t ht
    · rcases ht with rfl | ht
      · refine ⟨c.line, before, after', by rw [token_position, h.position_eq], ?_, hreads,
          fun hl => absurd hl hline, fun hk' => absurd hk' hk⟩
        rw [← hafter]
        exact h.text
      · exact ih hon hseam t ht

end Cursor

/-- **Token mode loses nothing of a batch**: its tokens spell the lines, say where they start, and
could not be longer. -/
theorem tokenize_lossless (lines : List Text) (h : lines ≠ []) :
    Tokenization lines (tokenize lines) := by
  obtain ⟨line, more, rfl⟩ := List.exists_cons_of_ne_nil h
  have hon : (Cursor.start (line :: more)).On (line :: more) [] line :=
    ⟨rfl, rfl, rfl, rfl⟩
  have hs := apart_nil line
  exact ⟨hon.tokens_split hs, fun _ _ _ htokens => hon.tokens_positions hs htokens,
    hon.tokens_read hs⟩

/-- A word that goes on after a reserved one, a character of several bytes, and an empty last
line. -/
theorem tokenize_lossless_header :
    let lines : List Text := ["@Nodes \t é", ""]
    tokenize lines =
        [⟨.attr, ⟨1, 1⟩, "@"⟩, ⟨.word, ⟨1, 2⟩, "Nodes"⟩, ⟨.gap, ⟨1, 7⟩, " \t "⟩,
          ⟨.illegal, ⟨1, 10⟩, "é"⟩, ⟨.lineEnd, ⟨1, 11⟩, ""⟩, ⟨.batchEnd, ⟨2, 1⟩, ""⟩] ∧
      Tokenization lines (tokenize lines) := by
  intro lines
  exact ⟨by decide +kernel, tokenize_lossless lines (List.cons_ne_nil _ _)⟩

end CommentDocs
