import CommentDocs.Proofs.Reading

/-!
# What scanning does

Every mode of a cursor and every way a reader scans, said once, so that what holds of whole batches
is derived without opening a scanner again:

* `token_cases`, `token_covers`: a step in token mode, and what the kind of its token tells about
  the characters.
* `typeName_cases`: type mode gives a type name, or what token mode gives after the gap.
* `scanPastGap_cases`, `advance_cases`: scanning past a gap, and to the next item, is one token step
  of the cursor after at most one more.  The only token that stays put back until the next item
  starts is the end of a line or of the batch (`Settled`).
* `Reading.Meets`: a condition on what is read and the reader after it, and one on faults.
-/

set_option autoImplicit false

namespace CommentDocs

/-- The characters that a token of the kind stands for in token mode. -/
def TokenKind.Covers : TokenKind → Text → Prop
  | .keyword k, t => t = k.spelling
  | .attr, t => t = ['@']
  | .gap, t => t ≠ [] ∧ ∀ a ∈ t, Text.isGap a = true
  | .word, t => IsWord t
  | .lineEnd, t => t = []
  | .batchEnd, t => t = []
  | .illegal, t => ∃ a, t = [a]
  | .typeName, _ => False
  | .text, _ => False

/-! ## Cursors -/

namespace Cursor

variable {c : Cursor}

/-- A run that starts with a character of its class is not empty. -/
theorem span_nonempty {p : Char → Bool} {a : Char} (hc : c.peek = .char a) (hp : p a = true) :
    (c.span p).1 ≠ [] := by
  unfold peek at hc
  split at hc <;> try cases hc
  rename_i h
  simp [span, h, hp]

theorem span_chars (p : Char → Bool) (c : Cursor) : ∀ a ∈ (c.span p).1, p a = true := by
  intro a ha
  unfold span at ha
  split at ha
  · cases ha
  · exact List.all_eq_true.mp List.all_takeWhile a ha

/-- A run of word characters is a reserved word or a word. -/
theorem wordKind_covers {w : Text} (h0 : w ≠ []) (hw : ∀ a ∈ w, isWordChar a = true) :
    (wordKind w).Covers w := by
  unfold wordKind
  split
  · rename_i k hk
    have hspelling := List.find?_some hk
    exact (beq_iff_eq.mp hspelling).symm
  · rename_i hk
    exact ⟨h0, hw, Keyword.spelling_ne_of_ofSpelling? hk⟩

/-- **A token step** ends the batch or a line, takes a run of a class, or takes one character. -/
theorem token_cases (c : Cursor) :
    (c.peek = .batchEnd ∧ c.token = (⟨.batchEnd, c.position, []⟩, c.step)) ∨
    (c.peek = .lineEnd ∧ c.token = (⟨.lineEnd, c.position, []⟩, c.step)) ∨
    (∃ (p : Char → Bool) (kind : TokenKind), (c.span p).1 ≠ [] ∧ kind.Covers (c.span p).1 ∧
      c.token = (⟨kind, c.position, (c.span p).1⟩, (c.span p).2)) ∨
    ∃ (a : Char) (kind : TokenKind), c.peek = .char a ∧ kind.Covers [a] ∧
      c.token = (⟨kind, c.position, [a]⟩, c.step) := by
  cases hp : c.peek with
  | batchEnd => exact .inl ⟨rfl, by simp only [token, hp]⟩
  | lineEnd => exact .inr (.inl ⟨rfl, by simp only [token, hp]⟩)
  | char a =>
    right; right
    simp only [token, hp]
    split
    · rename_i hg
      have h0 := span_nonempty hp hg
      exact .inl ⟨Text.isGap, .gap, h0, ⟨h0, span_chars _ c⟩, rfl⟩
    · split
      · rename_i hw
        have h0 := span_nonempty hp hw
        exact .inl ⟨isWordChar, _, h0, wordKind_covers h0 (span_chars _ c), rfl⟩
      · split
        · rename_i hs
          exact .inr ⟨a, .attr, rfl, by rw [hs]; rfl, rfl⟩
        · exact .inr ⟨a, .illegal, rfl, ⟨a, rfl⟩, rfl⟩

/-- **The kind of a token tells what its characters are.** -/
theorem token_covers (c : Cursor) : c.token.1.kind.Covers c.token.1.lexeme := by
  rcases token_cases c with ⟨_, heq⟩ | ⟨_, heq⟩ | ⟨_, _, _, hcovers, heq⟩ | ⟨_, _, _, hcovers, heq⟩
  · rw [heq]; rfl
  · rw [heq]; rfl
  · rw [heq]; exact hcovers
  · rw [heq]; exact hcovers

/-- A token that ends a line stands at its end. -/
theorem peek_of_lineEnd (hk : c.token.1.kind = .lineEnd) : c.peek = .lineEnd := by
  rcases token_cases c with ⟨_, heq⟩ | ⟨hp, _⟩ | ⟨_, kind, h0, hcovers, heq⟩ | ⟨_, kind, _, hcovers, heq⟩
  · rw [heq] at hk; cases hk
  · exact hp
  · rw [heq] at hk; subst hk; exact absurd hcovers h0
  · rw [heq] at hk; subst hk; cases hcovers

/-- A token that ends the batch stands at its end. -/
theorem peek_of_batchEnd (hk : c.token.1.kind = .batchEnd) : c.peek = .batchEnd := by
  rcases token_cases c with ⟨hp, _⟩ | ⟨_, heq⟩ | ⟨_, kind, h0, hcovers, heq⟩ | ⟨_, kind, _, hcovers, heq⟩
  · exact hp
  · rw [heq] at hk; cases hk
  · rw [heq] at hk; subst hk; exact absurd hcovers h0
  · rw [heq] at hk; subst hk; cases hcovers

/-- Nothing is left after the end of the batch. -/
theorem rest_of_batchEnd (hk : c.token.1.kind = .batchEnd) : c.token.2.rest = [] := by
  have hp := peek_of_batchEnd hk
  have hstep : c.token.2 = c.step := by simp [token, hp]
  rw [hstep]
  unfold peek at hp
  split at hp <;> try cases hp
  · rename_i hr; simp [step, hr]
  · rename_i hr; simp [step, hr]

/-- What token mode gives as a word is one. -/
theorem token_isWord (h : c.token.1.kind = .word) : IsWord c.token.1.lexeme := by
  have hcovers := token_covers c
  rwa [h] at hcovers

/-- Token mode gives no type names. -/
theorem token_kind_ne_typeName (c : Cursor) : c.token.1.kind ≠ .typeName := by
  intro h
  have hcovers := token_covers c
  rw [h] at hcovers
  exact hcovers

/-- Type mode gives the type name after the gap, or else the token there. -/
theorem typeName_cases (c : Cursor) :
    c.typeName = c.skipGaps.token ∨
      IsTypeName (c.skipGaps.span isTypeChar).1 ∧
        c.typeName = (⟨.typeName, c.skipGaps.position, (c.skipGaps.span isTypeChar).1⟩,
          (c.skipGaps.span isTypeChar).2) := by
  unfold typeName
  simp only
  split
  · exact .inl rfl
  · rename_i name c' hne hspan
    refine .inr ⟨⟨?_, span_chars _ _⟩, by rw [hspan]⟩
    rw [hspan]
    exact hne

/-- What type mode gives as a type name is one. -/
theorem typeName_isTypeName (h : c.typeName.1.kind = .typeName) :
    IsTypeName c.typeName.1.lexeme := by
  rcases typeName_cases c with heq | ⟨hname, heq⟩
  · rw [heq] at h
    exact absurd h (token_kind_ne_typeName _)
  · rw [heq]
    exact hname

end Cursor

/-! ## Readers -/

namespace Reader

variable {r : Reader}

@[simp] theorem peek_cursor (r : Reader) : r.peek.2.cursor = r.cursor := checkSlot_cursor r

@[simp] theorem peek_pending (r : Reader) : r.peek.2.pending = r.pending := checkSlot_pending r

@[simp] theorem scanType_pending (r : Reader) : r.scanType.2.pending = r.pending :=
  checkSlot_pending r

@[simp] theorem scanText_pending (r : Reader) : r.scanText.2.pending = r.pending :=
  checkSlot_pending r

@[simp] theorem unscan_cursor (r : Reader) (t : Token) : (r.unscan t).cursor = r.cursor :=
  checkSlot_cursor r

theorem scan_fresh (hp : r.pending = none) :
    r.scan.1 = r.cursor.token.1 ∧ r.scan.2.cursor = r.cursor.token.2 := by
  simp [scan, hp]

/-- Scanning past a gap is one token step, from the cursor or from where the gap ends. -/
theorem scanPastGap_cases (hp : r.pending = none) :
    ∃ c : Cursor, (c = r.cursor ∨ c = r.cursor.token.2 ∧ r.cursor.token.1.kind = .gap) ∧
      r.scanPastGap.1 = c.token.1 ∧ r.scanPastGap.2.cursor = c.token.2 := by
  obtain ⟨htoken, hcursor⟩ := scan_fresh hp
  by_cases hg : r.scan.1.kind = .gap
  · have hpast : r.scanPastGap = r.scan.2.scan := by simp [scanPastGap, hg]
    obtain ⟨htoken', hcursor'⟩ := scan_fresh (scan_pending r)
    rw [hcursor] at htoken' hcursor'
    rw [htoken] at hg
    rw [hpast]
    exact ⟨r.cursor.token.2, .inr ⟨rfl, hg⟩, htoken', hcursor'⟩
  · have hpast : r.scanPastGap = r.scan := by simp [scanPastGap, hg]
    rw [hpast]
    exact ⟨r.cursor, .inl rfl, htoken, hcursor⟩

/-- A token that is put back ends a line or the batch, and nothing is left after the end of the
batch. -/
def Settled (r : Reader) : Prop :=
  ∀ t ∈ r.pending, t.kind.Covers t.lexeme ∧
    (t.kind = .lineEnd ∨ t.kind = .batchEnd ∧ r.cursor.rest = [])

theorem settled_of_pending (hp : r.pending = none) : r.Settled := by
  intro t ht
  rw [hp] at ht
  cases ht

/-- An end that was scanned past a gap may be put back. -/
theorem unscan_settled (hp : r.pending = none)
    (hk : r.scanPastGap.1.kind = .lineEnd ∨ r.scanPastGap.1.kind = .batchEnd) :
    (r.scanPastGap.2.unscan r.scanPastGap.1).Settled := by
  obtain ⟨c, _, htoken, hcursor⟩ := scanPastGap_cases hp
  intro t ht
  obtain rfl : r.scanPastGap.1 = t := by simpa [unscan] using ht
  rw [unscan_cursor, hcursor]
  rw [htoken] at hk ⊢
  refine ⟨Cursor.token_covers c, ?_⟩
  rcases hk with hk | hk
  · exact .inl hk
  · exact .inr ⟨hk, Cursor.rest_of_batchEnd hk⟩

/-- **The step to the next item** meets the end of the batch that was put back, or is one token step
of the cursor: from where it is, or after a line end. -/
theorem advance_cases (h : r.Settled) :
    r.advance.1.kind.Covers r.advance.1.lexeme ∧ r.advance.2.pending = none ∧
      (r.advance.1.kind = .batchEnd ∧ r.advance.2.cursor = r.cursor ∧ r.cursor.rest = [] ∨
        ∃ c : Cursor,
          (c = r.cursor ∨ c = r.cursor.token.2 ∧ r.cursor.token.1.kind = .lineEnd) ∧
          r.advance.1 = c.token.1 ∧ r.advance.2.cursor = c.token.2) := by
  by_cases hl : r.scan.1.kind = .lineEnd
  · have hskip : r.skipLineEnd = r.scan.2 := by simp [skipLineEnd, hl]
    obtain ⟨htoken, hcursor⟩ := scan_fresh (scan_pending r)
    rw [advance, hskip, htoken, hcursor]
    refine ⟨Cursor.token_covers _, scan_pending _, .inr ⟨r.scan.2.cursor, ?_, rfl, rfl⟩⟩
    cases hp : r.pending with
    | none =>
      obtain ⟨htoken, hcursor⟩ := scan_fresh hp
      rw [htoken] at hl
      exact .inr ⟨hcursor, hl⟩
    | some t => exact .inl (by simp [scan, hp])
  · have hskip : r.skipLineEnd = r.scan.2.unscan r.scan.1 := by simp [skipLineEnd, hl]
    rw [advance, hskip, scan_unscan]
    simp only [checkSlot_cursor]
    cases hp : r.pending with
    | none =>
      obtain ⟨htoken, hcursor⟩ := scan_fresh hp
      rw [htoken, hcursor]
      exact ⟨Cursor.token_covers _, trivial, .inr ⟨r.cursor, .inl rfl, rfl, rfl⟩⟩
    | some t =>
      have hscan : r.scan.1 = t ∧ r.scan.2.cursor = r.cursor := by simp [scan, hp]
      rw [hscan.1] at hl ⊢
      obtain ⟨hcovers, hline | ⟨hend, hrest⟩⟩ := h t (by simp [hp])
      · exact absurd hline hl
      · exact ⟨hcovers, trivial, .inl ⟨hend, hscan.2, hrest⟩⟩

end Reader

/-! ## Readings -/

/-- What is read, with the reader afterwards, has the property `P`, and a fault has the property
`E`. -/
def Reading.Meets {α : Type} (x : Reading α) (P : α → Reader → Prop) (E : Fault → Prop) : Prop :=
  match x with
  | (.ok a, r) => P a r
  | (.error e, _) => E e

namespace Reading

variable {α β : Type} {x : Reading α} {P P' : α → Reader → Prop} {Q : β → Reader → Prop}
  {E : Fault → Prop}

theorem Meets.andThen {f : α → Reader → Reading β} (hx : x.Meets P E)
    (hf : ∀ a r, P a r → (f a r).Meets Q E) : (x.andThen f).Meets Q E := by
  obtain ⟨e | a, r⟩ := x
  · exact hx
  · exact hf a r hx

theorem Meets.map {f : α → β} (hx : x.Meets P E) (hf : ∀ a r, P a r → Q (f a) r) :
    (x.map f).Meets Q E :=
  hx.andThen hf

theorem Meets.mono (hx : x.Meets P E) (h : ∀ a r, P a r → P' a r) : x.Meets P' E := by
  obtain ⟨e | a, r⟩ := x
  · exact hx
  · exact h a r hx

theorem Meets.of_ok {a : α} (hx : x.Meets P E) (h : x.1 = .ok a) : P a x.2 := by
  obtain ⟨e | b, r⟩ := x
  · cases h
  · cases h
    exact hx

theorem Meets.of_error {e : Fault} (hx : x.Meets P E) (h : x.1 = .error e) : E e := by
  obtain ⟨e' | a, r⟩ := x
  · cases h
    exact hx
  · cases h

end Reading

end CommentDocs
