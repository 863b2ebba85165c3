import CommentDocs.Proofs.Texts
import CommentDocs.Record.Grammar

/-!
# Reading what is written

For each reader, what it gives where the thing it reads is written, and what is left afterwards.
Where the reader stands is told by the lines still to come (`Reader.At`), so no statement here
depends on positions:

* `scan_sign`, `scan_word`, `scan_gap`, `scan_lineEnd`, `scan_batchEnd`: single tokens.
* `word_reads`, `typeName_reads`, `text_reads`, `permission_reads_none`, `permission_reads_some`:
  the parts of attributes.  A text run takes all lines up to one that ends it.
* `AtLineEnd`: the reader has read all of a line, or has put the end of it back.  The two cannot
  be told apart by what is read next (`advance_sign`, `advance_blank`, `advance_end`).
-/

set_option autoImplicit false

namespace CommentDocs

open Text (Outside isGap Trimmed)

theorem eq_ok_of_toOption {ε α : Type} {x : Except ε α} {a : α} (h : x.toOption = some a) :
    x = .ok a := by
  cases x with
  | error e => cases h
  | ok b => cases h; rfl

/-- A word that is not reserved. -/
structure IsWord (w : Text) : Prop where
  nonempty : w ≠ []
  chars : ∀ c ∈ w, isWordChar c = true
  free : ∀ k : Keyword, k.spelling ≠ w

/-- The name of a type. -/
structure IsTypeName (n : Text) : Prop where
  nonempty : n ≠ []
  chars : ∀ c ∈ n, isTypeChar c = true

theorem IsWord.trimmed {w : Text} (h : IsWord w) : Trimmed w :=
  Text.trimmed_of_solid fun c hc => Text.isBlank_of_isWordChar (h.chars c hc)

theorem IsTypeName.trimmed {n : Text} (h : IsTypeName n) : Trimmed n :=
  Text.trimmed_of_solid fun c hc => Text.isBlank_of_isTypeChar (h.chars c hc)

theorem IsWord.not_mem {w : Text} {c : Char} (h : IsWord w) (hc : isWordChar c = false) : c ∉ w :=
  fun hmem => Bool.false_ne_true (hc.symm.trans (h.chars c hmem))

theorem IsTypeName.not_mem {n : Text} {c : Char} (h : IsTypeName n) (hc : isTypeChar c = false) :
    c ∉ n :=
  fun hmem => Bool.false_ne_true (hc.symm.trans (h.chars c hmem))

namespace Keyword

theorem ofSpelling?_spelling (k : Keyword) : ofSpelling? k.spelling = some k := by
  cases k <;> decide

theorem spelling_chars (k : Keyword) : ∀ c ∈ k.spelling, isWordChar c = true := by
  apply List.all_eq_true.mp
  cases k <;> decide

theorem spelling_ne_nil (k : Keyword) : k.spelling ≠ [] := by
  cases k <;> decide

theorem ofSpelling?_eq_none {w : Text} (h : ∀ k : Keyword, k.spelling ≠ w) :
    ofSpelling? w = none := by
  rw [ofSpelling?, List.find?_eq_none]
  intro k _
  simpa using h k

theorem spelling_ne_of_ofSpelling? {w : Text} (h : ofSpelling? w = none) (k : Keyword) :
    k.spelling ≠ w := by
  rintro rfl
  rw [ofSpelling?_spelling] at h
  cases h

end Keyword

instance (w : Text) : Decidable (IsWord w) :=
  decidable_of_iff (w ≠ [] ∧ w.all isWordChar = true ∧ Keyword.ofSpelling? w = none)
    ⟨fun ⟨h₁, h₂, h₃⟩ =>
        ⟨h₁, List.all_eq_true.mp h₂, Keyword.spelling_ne_of_ofSpelling? h₃⟩,
      fun h =>
        ⟨h.nonempty, List.all_eq_true.mpr h.chars, Keyword.ofSpelling?_eq_none h.free⟩⟩

instance (n : Text) : Decidable (IsTypeName n) :=
  decidable_of_iff (n ≠ [] ∧ n.all isTypeChar = true)
    ⟨fun ⟨h₁, h₂⟩ => ⟨h₁, List.all_eq_true.mp h₂⟩,
      fun h => ⟨h.nonempty, List.all_eq_true.mpr h.chars⟩⟩

/-! ## Tokens -/

namespace Cursor

/-- What is left after the longest run of a class. -/
theorem span_of_cons {c : Cursor} (p : Char → Bool) {line : Text} {more : List Text}
    (h : c.rest = line :: more) :
    ∃ next, c.span p = (line.takeWhile p, next) ∧ next.rest = line.dropWhile p :: more := by
  simp only [span, h]
  exact ⟨_, rfl, rfl⟩

/-- A run of a class, up to the next character outside it. -/
theorem span_of_rest {c : Cursor} {p : Char → Bool} {w t : Text} {more : List Text}
    (h : c.rest = (w ++ t) :: more) (hw : ∀ a ∈ w, p a = true) (ht : Outside p t) :
    ∃ next, c.span p = (w, next) ∧ next.rest = t :: more := by
  obtain ⟨next, hspan, hrest⟩ := span_of_cons p h
  rw [Text.takeWhile_append_outside hw ht] at hspan
  rw [Text.dropWhile_append_outside hw ht] at hrest
  exact ⟨next, hspan, hrest⟩

theorem peek_of_rest {c : Cursor} {a : Char} {t : Text} {more : List Text}
    (h : c.rest = (a :: t) :: more) : c.peek = .char a := by
  simp [peek, h]

theorem step_of_rest {c : Cursor} {a : Char} {t : Text} {more : List Text}
    (h : c.rest = (a :: t) :: more) : c.step.rest = t :: more := by
  simp [step, h]

theorem step_of_lineEnd {c : Cursor} {more : List Text} (h : c.rest = [] :: more) :
    c.step.rest = more := by
  simp [step, h]

end Cursor

namespace Reader

/-- The reader has the given lines before it and no token put back. -/
structure At (r : Reader) (rest : List Text) : Prop where
  clear : r.pending = none
  rest : r.cursor.rest = rest

theorem start_at (lines : List Text) : (start lines).At lines := ⟨rfl, rfl⟩

variable {r : Reader} {t w : Text} {more : List Text}

/-- With nothing put back, scanning is a step of the cursor. -/
theorem At.scan {rest : List Text} {token : Token} {c : Cursor} (h : r.At rest)
    (ht : r.cursor.token = (token, c)) : r.scan.1 = token ∧ r.scan.2.At c.rest := by
  simp only [Reader.scan, h.clear, ht, true_and]
  exact ⟨rfl, rfl⟩

theorem scan_sign (h : r.At (('@' :: t) :: more)) :
    r.scan.1.kind = .attr ∧ r.scan.2.At (t :: more) := by
  have htoken : r.cursor.token = (⟨.attr, r.cursor.position, ['@']⟩, r.cursor.step) := by
    simp only [Cursor.token, Cursor.peek_of_rest h.rest]
    rfl
  obtain ⟨h₁, h₂⟩ := h.scan htoken
  exact ⟨by rw [h₁], by rwa [Cursor.step_of_rest h.rest] at h₂⟩

theorem isGap_of_isWordChar {c : Char} (h : isWordChar c = true) : isGap c = false :=
  Text.isGap_of_isBlank (Text.isBlank_of_isWordChar h)

theorem scan_word (h : r.At ((w ++ t) :: more)) (h0 : w ≠ []) (hw : ∀ c ∈ w, isWordChar c = true)
    (ht : Outside isWordChar t) :
    r.scan.1.kind = Cursor.wordKind w ∧ r.scan.1.lexeme = w ∧ r.scan.2.At (t :: more) := by
  obtain ⟨c, w', rfl⟩ := List.exists_cons_of_ne_nil h0
  have hc := hw c (by simp)
  obtain ⟨next, hspan, hrest⟩ := Cursor.span_of_rest h.rest hw ht
  have htoken : r.cursor.token =
      (⟨Cursor.wordKind (c :: w'), r.cursor.position, c :: w'⟩, next) := by
    simp only [Cursor.token, Cursor.peek_of_rest h.rest, isGap_of_isWordChar hc, hc, hspan]
    rfl
  obtain ⟨h₁, h₂⟩ := h.scan htoken
  exact ⟨by rw [h₁], by rw [h₁], by rwa [hrest] at h₂⟩

theorem scan_gap (h : r.At ((' ' :: t) :: more)) (ht : Outside isGap t) :
    r.scan.1.kind = .gap ∧ r.scan.2.At (t :: more) := by
  obtain ⟨next, hspan, hrest⟩ := Cursor.span_of_rest h.rest Text.isGap_space ht
  have htoken : r.cursor.token = (⟨.gap, r.cursor.position, [' ']⟩, next) := by
    simp only [Cursor.token, Cursor.peek_of_rest h.rest, hspan]
    rfl
  obtain ⟨h₁, h₂⟩ := h.scan htoken
  exact ⟨by rw [h₁], by rwa [hrest] at h₂⟩

theorem scan_lineEnd (h : r.At ([] :: t :: more)) :
    r.scan.1.kind = .lineEnd ∧ r.scan.2.At (t :: more) := by
  have htoken : r.cursor.token = (⟨.lineEnd, r.cursor.position, []⟩, r.cursor.step) := by
    simp [Cursor.token, Cursor.peek, h.rest]
  obtain ⟨h₁, h₂⟩ := h.scan htoken
  exact ⟨by rw [h₁], by rwa [Cursor.step_of_lineEnd h.rest] at h₂⟩

theorem scan_batchEnd (h : r.At [[]]) : r.scan.1.kind = .batchEnd ∧ r.scan.2.At [] := by
  have htoken : r.cursor.token = (⟨.batchEnd, r.cursor.position, []⟩, r.cursor.step) := by
    simp [Cursor.token, Cursor.peek, h.rest]
  obtain ⟨h₁, h₂⟩ := h.scan htoken
  exact ⟨by rw [h₁], by rwa [Cursor.step_of_lineEnd h.rest] at h₂⟩

/-! ## Parts of attributes -/

end Reader

/-- Reading gives the value and leaves the lines. -/
def Reading.Reads {α : Type} (x : Reading α) (a : α) (rest : List Text) : Prop :=
  x.1 = .ok a ∧ x.2.At rest

namespace Reading

variable {α β : Type} {x : Reading α} {a : α} {b : β} {rest rest' : List Text}

theorem Reads.andThen {f : α → Reader → Reading β} (hx : x.Reads a rest)
    (hf : (f a x.2).Reads b rest') : (x.andThen f).Reads b rest' := by
  obtain ⟨value, r⟩ := x
  obtain ⟨h, _⟩ := hx
  cases h
  exact hf

theorem Reads.map {f : α → β} (hx : x.Reads a rest) : (x.map f).Reads (f a) rest :=
  Reads.andThen hx ⟨rfl, hx.2⟩

end Reading

namespace Reader

variable {r : Reader} {t w : Text} {more : List Text}

theorem At.checkSlot {rest : List Text} (h : r.At rest) : r.checkSlot = r := by
  simp [Reader.checkSlot, h.clear]

theorem scanPastGap_word (h : r.At ((' ' :: (w ++ t)) :: more)) (hw : IsWord w)
    (ht : Outside isWordChar t) :
    r.scanPastGap.1.kind = .word ∧ r.scanPastGap.1.lexeme = w ∧
      r.scanPastGap.2.At (t :: more) := by
  have hgap : Outside isGap (w ++ t) := by
    obtain ⟨c, w', rfl⟩ := List.exists_cons_of_ne_nil hw.nonempty
    exact Text.outside_cons _ (isGap_of_isWordChar (hw.chars c (by simp)))
  obtain ⟨h₁, h₂⟩ := scan_gap h hgap
  obtain ⟨h₃, h₄, h₅⟩ := scan_word h₂ hw.nonempty hw.chars ht
  simp only [scanPastGap, h₁, if_true]
  exact ⟨by rw [h₃, Cursor.wordKind, Keyword.ofSpelling?_eq_none hw.free], h₄, h₅⟩

theorem scanPastGap_lineEnd {l : Text} (h : r.At ([] :: l :: more)) :
    r.scanPastGap.1.kind = .lineEnd ∧ r.scanPastGap.2.At (l :: more) := by
  obtain ⟨h₁, h₂⟩ := scan_lineEnd h
  simpa [scanPastGap, h₁] using h₂

theorem word_reads (h : r.At ((' ' :: (w ++ t)) :: more)) (hw : IsWord w)
    (ht : Outside isWordChar t) : r.word.Reads w (t :: more) := by
  obtain ⟨h₁, h₂, h₃⟩ := scanPastGap_word h hw ht
  simp only [word, h₁, if_true]
  exact ⟨by rw [h₂], h₃⟩

theorem typeName_reads {n : Text} (h : r.At ((' ' :: (n ++ t)) :: more)) (hn : IsTypeName n)
    (ht : Outside isTypeChar t) : r.typeName.Reads n (t :: more) := by
  obtain ⟨c, n', rfl⟩ := List.exists_cons_of_ne_nil hn.nonempty
  have hgap : Outside isGap (c :: n' ++ t) :=
    Text.outside_cons _ (Text.isGap_of_isBlank (Text.isBlank_of_isTypeChar
      (hn.chars c (by simp))))
  obtain ⟨skipped, hskip, hskipped⟩ := Cursor.span_of_rest h.rest Text.isGap_space hgap
  obtain ⟨next, hspan, hrest⟩ := Cursor.span_of_rest hskipped hn.chars ht
  have htoken : r.cursor.typeName.1.kind = .typeName ∧ r.cursor.typeName.1.lexeme = c :: n' ∧
      r.cursor.typeName.2.rest = t :: more := by
    simp [Cursor.typeName, Cursor.skipGaps, hskip, hspan, hrest]
  simp only [typeName, scanType, htoken.1, if_true, h.checkSlot]
  exact ⟨by rw [htoken.2.1], h.clear, htoken.2.2⟩

/-- What follows a text run: nothing, a blank line or an attribute. -/
def StopsRun (tail : List Text) : Prop := ∀ l, tail.head? = some l → endsRun l = true

/-- A text run takes the lines that follow up to one that ends it. -/
theorem runFrom_eq {lines tail : List Text} (hl : ∀ l ∈ lines, endsRun l = false ∧ Outside isGap l)
    (htail : StopsRun tail) :
    ∀ (line column offset : Nat) (first : Text),
      (Cursor.runFrom line column offset first (lines ++ tail)).1 = Text.spaced (first :: lines) ∧
        (Cursor.runFrom line column offset first (lines ++ tail)).2.rest = [] :: tail := by
  induction lines with
  | nil =>
    intro line column offset first
    cases tail with
    | nil => simp [Cursor.runFrom, Text.spaced, Text.joinWith]
    | cons l tail => simp [Cursor.runFrom, htail l rfl, Text.spaced, Text.joinWith]
  | cons l lines ih =>
    intro line column offset first
    obtain ⟨hends, hgap⟩ := hl l (by simp)
    obtain ⟨h₁, h₂⟩ := ih (fun l' hl' => hl l' (List.mem_cons_of_mem _ hl')) (line + 1) 0 0 l
    simp [Cursor.runFrom, hends, Text.takeWhile_outside hgap, Text.dropWhile_outside hgap,
      Text.byteSize, h₁, h₂, Text.spaced_cons_cons]

theorem text_reads {gap first : Text} {lines tail : List Text} (hgap : ∀ c ∈ gap, isGap c = true)
    (h : r.At ((gap ++ first) :: (lines ++ tail))) (hf : Outside isGap first)
    (hl : ∀ l ∈ lines, endsRun l = false ∧ Outside isGap l) (htail : StopsRun tail) :
    r.text.Reads (Text.trim (Text.spaced (first :: lines))) ([] :: tail) := by
  obtain ⟨skipped, hskip, hskipped⟩ := Cursor.span_of_rest h.rest hgap hf
  obtain ⟨h₁, h₂⟩ := runFrom_eq hl htail skipped.line skipped.column skipped.offset first
  have htext : r.cursor.text.1.lexeme = Text.trim (Text.spaced (first :: lines)) ∧
      r.cursor.text.2.rest = [] :: tail := by
    simp [Cursor.text, Cursor.skipGaps, hskip, hskipped, h₁, h₂]
  simp only [text, scanText, h.checkSlot]
  exact ⟨by rw [htext.1], h.clear, htext.2⟩

theorem permission_reads_none (h : r.At ([] :: more)) : r.permission.Reads none ([] :: more) := by
  cases more with
  | nil => simpa [permission, peek, Cursor.peek, h.rest, h.checkSlot] using ⟨rfl, h⟩
  | cons l more => simpa [permission, peek, Cursor.peek, h.rest, h.checkSlot] using ⟨rfl, h⟩

theorem permission_reads_some (h : r.At ((' ' :: w) :: more)) (hw : IsWord w) :
    r.permission.Reads (some w) ([] :: more) := by
  obtain ⟨h₁, h₂, h₃⟩ := scanPastGap_word (t := []) (by simpa using h) hw (Text.outside_nil _)
  simp only [permission, peek, Cursor.peek_of_rest h.rest, h.checkSlot, h₁]
  exact ⟨by rw [← h₂]; rfl, h₃⟩

/-! ## The ends of lines -/

/-- The reader has read all of a line, or put the end of it back, and has the given lines before
it. -/
def AtLineEnd (r : Reader) (lines : List Text) : Prop :=
  r.At ([] :: lines) ∨
    (∃ token, r.pending = some token ∧ token.kind = .lineEnd) ∧ r.cursor.rest = lines ∧ lines ≠ []

/-- The end of the line is passed over, whether it was put back or not. -/
theorem AtLineEnd.skipLineEnd {l : Text} (h : r.AtLineEnd (l :: more)) :
    r.skipLineEnd.At (l :: more) := by
  rcases h with h | ⟨⟨token, hp, hk⟩, hr, _⟩
  · obtain ⟨h₁, h₂⟩ := scan_lineEnd h
    rw [Reader.skipLineEnd]
    simp only [h₁, if_true]
    exact h₂
  · rw [Reader.skipLineEnd]
    simp only [scan, hp, hk, if_true]
    exact ⟨rfl, hr⟩

/-- A token other than the end of a line is put back and scanned again. -/
theorem advance_of_scan {rest : List Text} (hk : r.scan.1.kind ≠ .lineEnd)
    (h : r.scan.2.At rest) : r.advance.1 = r.scan.1 ∧ r.advance.2.At rest := by
  rw [advance, skipLineEnd]
  simp only [hk, if_false, scan_unscan]
  exact ⟨trivial, rfl, by rw [checkSlot_cursor]; exact h.rest⟩

theorem advance_sign_of_lineEnd (h : r.AtLineEnd (('@' :: t) :: more)) :
    r.advance.1.kind = .attr ∧ r.advance.2.At (t :: more) :=
  scan_sign h.skipLineEnd

theorem advance_sign (h : r.At (('@' :: t) :: more)) :
    r.advance.1.kind = .attr ∧ r.advance.2.At (t :: more) := by
  obtain ⟨h₁, h₂⟩ := scan_sign h
  obtain ⟨h₃, h₄⟩ := advance_of_scan (by rw [h₁]; decide) h₂
  exact ⟨by rw [h₃, h₁], h₄⟩

theorem advance_blank {l : Text} (h : r.AtLineEnd ([] :: l :: more)) :
    r.advance.1.kind = .lineEnd ∧ r.advance.2.At (l :: more) :=
  scan_lineEnd h.skipLineEnd

theorem advance_end (h : r.AtLineEnd [] ∨ r.AtLineEnd [[]]) : r.advance.1.kind = .batchEnd := by
  rcases h with (h | h) | h
  · obtain ⟨h₁, h₂⟩ := scan_batchEnd h
    rw [(advance_of_scan (by rw [h₁]; decide) h₂).1, h₁]
  · exact absurd rfl h.2.2
  · exact (scan_batchEnd h.skipLineEnd).1

end Reader

end CommentDocs
