import CommentDocs.Proofs.Parsed

/-!
# Texts read from trimmed lines

Batches hold trimmed lines without line feeds.  What is read from such lines can be written on one
line again: no text holds a line feed, and no text run starts with a sign.

* `Cursor.Clean`: the invariant; only the line that the cursor is on may have lost its start.
* `clean_yields`: every mode keeps it, and the texts are as said.
-/

set_option autoImplicit false

namespace CommentDocs

open Text (Trimmed Outside isBlank isGap)

/-- A text that can stand on a line. -/
structure FitsLine (t : Text) : Prop where
  trimmed : Trimmed t
  oneLine : '\n' ∉ t

/-- A text that can stand on a line of its own. -/
structure FitsOwnLine (t : Text) : Prop extends FitsLine t where
  no_sign : t.head? ≠ some '@'

theorem FitsOwnLine.append_space {a b : Text} (ha0 : a ≠ []) (hb0 : b ≠ []) (ha : FitsOwnLine a)
    (hb : FitsOwnLine b) : FitsOwnLine (a ++ ' ' :: b) where
  trimmed := ha.trimmed.append_space ha0 hb.trimmed hb0
  oneLine := by simp [ha.oneLine, hb.oneLine]
  no_sign := by
    obtain ⟨c, a, rfl⟩ := List.exists_cons_of_ne_nil ha0
    exact ha.no_sign

namespace Cursor

/-- No line still to come holds a line feed, and all but the current one are trimmed. -/
structure Clean (c : Cursor) : Prop where
  oneLine : ∀ l ∈ c.rest, '\n' ∉ l
  trimmed : ∀ l ∈ c.rest.tail, Trimmed l

variable {c : Cursor}

theorem start_clean {lines : List Text} (h : ∀ l ∈ lines, Trimmed l ∧ '\n' ∉ l) :
    (start lines).Clean :=
  ⟨fun l hl => (h l hl).2, fun l hl => (h l (List.mem_of_mem_tail hl)).1⟩

/-- Going on in the current line, or to a later one. -/
theorem Clean.of_rest {line : Text} {more : List Text} (h : c.Clean) (hr : c.rest = line :: more)
    {c' : Cursor} {line' : Text} {more' : List Text} (hr' : c'.rest = line' :: more')
    (hline : line' ⊆ line) (hmore : more' <:+ more) : c'.Clean := by
  have htrim : ∀ l ∈ more, Trimmed l := by simpa [hr] using h.trimmed
  have hone : '\n' ∉ line ∧ ∀ l ∈ more, '\n' ∉ l := by simpa [hr] using h.oneLine
  constructor
  · rw [hr']
    exact List.forall_mem_cons.mpr ⟨fun hn => hone.1 (hline hn),
      fun l hl => hone.2 l (hmore.subset hl)⟩
  · rw [hr']
    exact fun l hl => htrim l (hmore.subset hl)

theorem Clean.span (h : c.Clean) (p : Char → Bool) : (c.span p).2.Clean := by
  unfold Cursor.span
  split
  · exact h
  · rename_i line more hr
    exact h.of_rest hr rfl (List.dropWhile_suffix p).subset List.suffix_rfl

theorem Clean.step (h : c.Clean) : c.step.Clean := by
  unfold Cursor.step
  split
  · exact h
  · rename_i a line more hr
    exact h.of_rest hr rfl (List.subset_cons_self a line) List.suffix_rfl
  · rename_i more hr
    have hmore : ∀ l ∈ more, '\n' ∉ l := by simpa [hr] using h.oneLine
    have htrim : ∀ l ∈ more, Trimmed l := by simpa [hr] using h.trimmed
    exact ⟨hmore, fun l hl => htrim l (List.mem_of_mem_tail hl)⟩

theorem Clean.token (h : c.Clean) : c.token.2.Clean := by
  unfold Cursor.token
  split
  · exact h.step
  · exact h.step
  · split
    · exact h.span _
    · split
      · exact h.span _
      · split <;> exact h.step

theorem Clean.typeName (h : c.Clean) : c.typeName.2.Clean := by
  have hskip : c.skipGaps.Clean := h.span isGap
  unfold Cursor.typeName
  simp only
  split
  · exact hskip.token
  · rename_i hspan
    have hnext := hskip.span isTypeChar
    rwa [hspan] at hnext

/-- After a text run the cursor stands at the end of a line. -/
theorem runFrom_rest (line column offset : Nat) (current : Text) (more : List Text) :
    ∃ tail, (runFrom line column offset current more).2.rest = [] :: tail ∧ tail <:+ more := by
  induction more generalizing line column offset current with
  | nil => exact ⟨[], rfl, List.suffix_rfl⟩
  | cons next more ih =>
    unfold runFrom
    split
    · exact ⟨_, rfl, List.suffix_rfl⟩
    · obtain ⟨tail, hrest, hsuffix⟩ := ih (line + 1) _ _ (next.dropWhile isGap)
      exact ⟨tail, hrest, hsuffix.trans (List.suffix_cons next more)⟩

/-- A text run holds characters of its lines, and spaces. -/
theorem not_mem_runFrom (line column offset : Nat) {current : Text} {more : List Text}
    (hc : '\n' ∉ current) (hm : ∀ l ∈ more, '\n' ∉ l) :
    '\n' ∉ (runFrom line column offset current more).1 := by
  induction more generalizing line column offset current with
  | nil => exact hc
  | cons next more ih =>
    obtain ⟨hnext, hmore⟩ := List.forall_mem_cons.mp hm
    have hrun := ih (line + 1) (next.takeWhile isGap).length (Text.byteSize (next.takeWhile isGap))
      (fun hn => hnext ((List.dropWhile_suffix isGap).subset hn)) hmore
    unfold runFrom
    split
    · exact hc
    · simp [hc, hrun]

theorem head?_runFrom (line column offset : Nat) {current : Text} (more : List Text)
    (h : current ≠ []) : (runFrom line column offset current more).1.head? = current.head? := by
  obtain ⟨a, t, rfl⟩ := List.exists_cons_of_ne_nil h
  cases more with
  | nil => rfl
  | cons next more =>
    unfold runFrom
    split <;> rfl

theorem Clean.text (h : c.Clean) : c.text.2.Clean := by
  have hskip : c.skipGaps.Clean := h.span isGap
  unfold Cursor.text
  simp only
  split
  · exact hskip
  · rename_i current more hr
    obtain ⟨tail, hrest, hsuffix⟩ := runFrom_rest c.skipGaps.line c.skipGaps.column
      c.skipGaps.offset current more
    exact hskip.of_rest hr hrest (List.nil_subset _) hsuffix

theorem Clean.text_fitsLine (h : c.Clean) : FitsLine c.text.1.lexeme := by
  refine ⟨text_trimmed c, ?_⟩
  have hskip : c.skipGaps.Clean := h.span isGap
  unfold Cursor.text
  simp only
  split
  · simp
  · rename_i current more hr
    have hone : '\n' ∉ current ∧ ∀ l ∈ more, '\n' ∉ l := by simpa [hr] using hskip.oneLine
    exact fun hn => not_mem_runFrom _ _ _ hone.1 hone.2 (Text.trim_subset _ hn)

/-- A run that starts with a trimmed line starts like the line. -/
theorem head?_trim_runFrom (line column offset : Nat) {current : Text} (more : List Text)
    (h0 : current ≠ []) (ht : Trimmed current) :
    (Text.trim (runFrom line column offset current more).1).head? = current.head? := by
  have hhead := head?_runFrom line column offset more h0
  rw [Text.head?_trim, hhead]
  intro a ha
  rw [hhead] at ha
  exact ht.outside a ha

/-- **A text run that starts on a trimmed line does not start with a sign** unless the line does.
If the line is empty, the run starts on the next one, which it would not go on with if that one
started with a sign. -/
theorem trim_runFrom_no_sign (line column offset : Nat) {current : Text} {more : List Text}
    (ht : ∀ l ∈ current :: more, Trimmed l) (hsign : current.head? ≠ some '@') :
    (Text.trim (runFrom line column offset current more).1).head? ≠ some '@' := by
  obtain ⟨hcurrent, hmore⟩ := List.forall_mem_cons.mp ht
  by_cases h0 : current = []
  · subst h0
    cases more with
    | nil => simp [runFrom, Text.trim_nil]
    | cons next more =>
      unfold runFrom
      split
      · simp [Text.trim_nil]
      · rename_i hends
        have hnext : Trimmed next := hmore next (by simp)
        obtain ⟨a, t, rfl⟩ : ∃ a t, next = a :: t :=
          List.exists_cons_of_ne_nil fun hnil => hends (by rw [hnil]; rfl)
        simp only [List.nil_append, Text.trim_space, Text.dropWhile_outside hnext.outside_gap]
        rw [head?_trim_runFrom _ _ _ more (by simp) hnext]
        simpa [endsRun] using hends
  · rwa [head?_trim_runFrom line column offset more h0 hcurrent]

/-- A line end leaves the cursor at the start of the next line. -/
theorem rest_of_lineEnd (hk : c.token.1.kind = .lineEnd) :
    ∃ next more, c.rest = [] :: next :: more ∧ c.token.2.rest = next :: more := by
  have hpeek := peek_of_lineEnd hk
  have hrest : ∃ next more, c.rest = [] :: next :: more := by
    unfold peek at hpeek
    split at hpeek <;> cases hpeek
    rename_i next more hr
    exact ⟨next, more, hr⟩
  obtain ⟨next, more, hr⟩ := hrest
  exact ⟨next, more, hr, by simp [token, hpeek, step, hr]⟩

theorem Clean.run_fitsOwnLine (h : c.Clean) (hk : c.token.1.kind = .lineEnd)
    (hsign : c.token.2.peek ≠ .char '@') : FitsOwnLine c.token.2.text.1.lexeme := by
  refine ⟨h.token.text_fitsLine, ?_⟩
  obtain ⟨next, more, hr, hr'⟩ := rest_of_lineEnd hk
  have ht : ∀ l ∈ next :: more, Trimmed l := by simpa [hr] using h.trimmed
  have hfirst : next.head? ≠ some '@' := by
    cases next with
    | nil => simp
    | cons a next => simpa [peek, hr'] using hsign
  have hskip : c.token.2.skipGaps.rest = next :: more := by
    simp [skipGaps, Cursor.span, hr', Text.dropWhile_outside (ht next (by simp)).outside_gap]
  simp only [Cursor.text, hskip]
  exact trim_runFrom_no_sign _ _ _ ht hfirst

/-- **What is read from clean lines fits on lines again.** -/
theorem clean_yields : Yields Clean FitsLine FitsOwnLine where
  token _ h := h.token
  typeName _ h := h.typeName
  text _ h := h.text
  description _ h := h.text_fitsLine
  run _ h hk hsign := h.run_fitsOwnLine hk hsign
  join _ _ := FitsOwnLine.append_space

end Cursor

end CommentDocs
