import CommentDocs.Cursor

/-!
# Character classes and trimmed texts

What scanning relies on about texts:

* `takeWhile_append_outside`, `dropWhile_append_outside`: a run of a class ends where a character
  outside it follows.
* `isBlank_of_isTypeChar`, `isBlank_of_isWordChar`: no blank is part of a type name or a word.
* `Trimmed`: texts that trimming leaves alone, by their ends (`trimmed_iff`), and closed under
  joining with a space (`Trimmed.append_space`).
-/

set_option autoImplicit false

namespace CommentDocs.Text

/-! ## Bytes -/

theorem byteSize_append (a b : Text) : byteSize (a ++ b) = byteSize a + byteSize b := by
  induction a with
  | nil => simp [byteSize]
  | cons c a ih => simp only [List.cons_append, byteSize, ih]; omega

/-! ## Runs of a class -/

/-- The text does not start with a character of the class. -/
def Outside (p : Char → Bool) (t : Text) : Prop := ∀ c, t.head? = some c → p c = false

theorem outside_nil (p : Char → Bool) : Outside p [] := by
  intro c h; cases h

theorem outside_cons {p : Char → Bool} {c : Char} (t : Text) (h : p c = false) :
    Outside p (c :: t) := by
  intro c' h'; cases h'; exact h

theorem takeWhile_outside {p : Char → Bool} {t : Text} (h : Outside p t) : t.takeWhile p = [] := by
  cases t with
  | nil => rfl
  | cons c t => simp [h c rfl]

theorem dropWhile_outside {p : Char → Bool} {t : Text} (h : Outside p t) : t.dropWhile p = t := by
  cases t with
  | nil => rfl
  | cons c t => simp [h c rfl]

theorem takeWhile_append_outside {p : Char → Bool} {w t : Text} (hw : ∀ c ∈ w, p c = true)
    (ht : Outside p t) : (w ++ t).takeWhile p = w := by
  rw [List.takeWhile_append_of_pos hw, takeWhile_outside ht, List.append_nil]

theorem dropWhile_append_outside {p : Char → Bool} {w t : Text} (hw : ∀ c ∈ w, p c = true)
    (ht : Outside p t) : (w ++ t).dropWhile p = t := by
  rw [List.dropWhile_append_of_pos hw, dropWhile_outside ht]

theorem outside_dropWhile (p : Char → Bool) (t : Text) : Outside p (t.dropWhile p) := by
  intro c hc
  have hnot := List.head?_dropWhile_not p t
  rw [hc] at hnot
  simpa using hnot

/-! ## Blanks -/

/-- The code points of the blanks. -/
def blankCodes : List Nat :=
  [9, 10, 11, 12, 13, 0x20, 0x85, 0xA0, 0x1680, 0x2000, 0x2001, 0x2002, 0x2003, 0x2004, 0x2005,
    0x2006, 0x2007, 0x2008, 0x2009, 0x200A, 0x2028, 0x2029, 0x202F, 0x205F, 0x3000]

theorem mem_blankCodes {c : Char} (h : isBlank c = true) : c.toNat ∈ blankCodes := by
  simp only [isBlank, Bool.or_eq_true, Bool.and_eq_true, decide_eq_true_eq, beq_iff_eq] at h
  simp only [blankCodes, List.mem_cons, List.not_mem_nil, or_false]
  omega

theorem blankCodes_outside :
    ∀ n ∈ blankCodes, isTypeChar (Char.ofNat n) = false ∧ isWordChar (Char.ofNat n) = false := by
  decide +kernel

/-- Blanks are in no class of characters that tokens are made of. -/
theorem isBlank_outside {c : Char} (h : isBlank c = true) :
    isTypeChar c = false ∧ isWordChar c = false := by
  have := blankCodes_outside c.toNat (mem_blankCodes h)
  rwa [Char.ofNat_toNat] at this

theorem isBlank_of_isTypeChar {c : Char} (h : isTypeChar c = true) : isBlank c = false := by
  cases hb : isBlank c with
  | false => rfl
  | true => rw [(isBlank_outside hb).1] at h; cases h

theorem isBlank_of_isWordChar {c : Char} (h : isWordChar c = true) : isBlank c = false := by
  cases hb : isBlank c with
  | false => rfl
  | true => rw [(isBlank_outside hb).2] at h; cases h

theorem isBlank_of_isGap {c : Char} (h : isGap c = true) : isBlank c = true := by
  simp only [isGap, Bool.or_eq_true, beq_iff_eq] at h
  rcases h with rfl | rfl <;> rfl

theorem isGap_space : ∀ c ∈ [' '], isGap c = true := by
  simp [isGap]

/-- What does not start with a blank does not start with a gap. -/
theorem isGap_of_isBlank {c : Char} (h : isBlank c = false) : isGap c = false := by
  cases hg : isGap c with
  | false => rfl
  | true => rw [isBlank_of_isGap hg] at h; cases h

/-! ## Trimmed texts -/

/-- Trimming leaves the text alone. -/
def Trimmed (t : Text) : Prop := trim t = t

instance (t : Text) : Decidable (Trimmed t) := inferInstanceAs (Decidable (trim t = t))

/-- The text does not end with a blank. -/
def EndsSolid (t : Text) : Prop := ∀ c, t.getLast? = some c → isBlank c = false

theorem trimStart_outside (t : Text) : Outside isBlank (trimStart t) :=
  outside_dropWhile isBlank t

theorem trimEnd_endsSolid (t : Text) : EndsSolid (trimEnd t) := by
  intro c h
  rw [trimEnd, List.getLast?_reverse] at h
  exact outside_dropWhile isBlank t.reverse c h

theorem trimEnd_initial (t : Text) : trimEnd t <+: t := by
  have := List.reverse_prefix.mpr (List.dropWhile_suffix isBlank (l := t.reverse))
  rwa [List.reverse_reverse] at this

theorem trimEnd_eq_self {t : Text} (h : EndsSolid t) : trimEnd t = t := by
  rw [trimEnd, dropWhile_outside, List.reverse_reverse]
  intro c hc
  rw [List.head?_reverse] at hc
  exact h c hc

/-- Trimming leaves no blank at either end. -/
theorem trim_ends (t : Text) : Outside isBlank (trim t) ∧ EndsSolid (trim t) := by
  refine ⟨?_, trimEnd_endsSolid _⟩
  intro c hc
  obtain ⟨s, hs⟩ := trimEnd_initial (trimStart t)
  apply trimStart_outside t c
  rw [trim] at hc
  rw [← hs, List.head?_append, hc]
  rfl

/-- **Texts are trimmed exactly if neither end is a blank.** -/
theorem trimmed_iff {t : Text} : Trimmed t ↔ Outside isBlank t ∧ EndsSolid t := by
  constructor
  · intro h
    have hends := trim_ends t
    rwa [h] at hends
  · rintro ⟨hstart, hend⟩
    rw [Trimmed, trim, trimStart, dropWhile_outside hstart, trimEnd_eq_self hend]

theorem Trimmed.outside {t : Text} (h : Trimmed t) : Outside isBlank t := (trimmed_iff.mp h).1

theorem Trimmed.outside_gap {t : Text} (h : Trimmed t) : Outside isGap t :=
  fun c hc => isGap_of_isBlank (h.outside c hc)

theorem trim_trimmed (t : Text) : Trimmed (trim t) := trimmed_iff.mpr (trim_ends t)

theorem trimmed_of_solid {t : Text} (h : ∀ c ∈ t, isBlank c = false) : Trimmed t :=
  trimmed_iff.mpr ⟨fun c hc => h c (List.mem_of_mem_head? hc),
    fun c hc => h c (List.mem_of_getLast? hc)⟩

theorem trim_nil : trim [] = [] := rfl

theorem trim_space (t : Text) : trim (' ' :: t) = trim t := rfl

/-- A text that does not start with a blank keeps its first character. -/
theorem head?_trim {t : Text} (h : Outside isBlank t) : (trim t).head? = t.head? := by
  cases t with
  | nil => rfl
  | cons c t =>
    have hc : isBlank c = false := h c rfl
    rw [trim, trimStart, dropWhile_outside h, trimEnd, List.head?_reverse, List.reverse_cons,
      List.dropWhile_append]
    split <;> simp [hc]

theorem trim_subset (t : Text) : trim t ⊆ t :=
  fun _ hc => (List.dropWhile_suffix isBlank).subset ((trimEnd_initial _).subset hc)

/-- What stands before a text does not change how it ends. -/
theorem EndsSolid.append {b : Text} (h : EndsSolid b) (h0 : b ≠ []) (a : Text) :
    EndsSolid (a ++ b) := by
  intro c hc
  apply h c
  cases hb : b.getLast? with
  | none => exact absurd (List.getLast?_eq_none_iff.mp hb) h0
  | some d => simpa [List.getLast?_append, hb] using hc

/-- Two trimmed texts with a space between them are trimmed. -/
theorem Trimmed.append_space {a b : Text} (ha : Trimmed a) (ha0 : a ≠ []) (hb : Trimmed b)
    (hb0 : b ≠ []) : Trimmed (a ++ ' ' :: b) := by
  refine trimmed_iff.mpr ⟨?_, ?_⟩
  · intro c hc
    cases a with
    | nil => exact absurd rfl ha0
    | cons d a => exact ha.outside c hc
  · rw [List.append_cons]
    exact (trimmed_iff.mp hb).2.append hb0 _

/-- The texts with a space between any two neighbours. -/
def spaced (parts : List Text) : Text := joinWith [' '] parts

/-- Whatever comes after the first text has a space before it. -/
theorem spaced_cons (a : Text) (parts : List Text) :
    spaced (a :: parts) = a ++ parts.flatMap (' ' :: ·) := by
  unfold spaced
  induction parts generalizing a with
  | nil => simp [joinWith]
  | cons b parts ih => simp [joinWith, ih]

theorem spaced_cons_cons (a b : Text) (parts : List Text) :
    spaced (a :: b :: parts) = a ++ ' ' :: spaced (b :: parts) := by
  simp [spaced_cons]

theorem spaced_ne_nil {parts : List Text} (h0 : parts ≠ []) (h : ∀ t ∈ parts, t ≠ []) :
    spaced parts ≠ [] := by
  cases parts with
  | nil => exact absurd rfl h0
  | cons a parts => simp [spaced_cons, h a]

/-- **Trimmed texts with spaces between them are trimmed.** -/
theorem spaced_trimmed {parts : List Text} (h : ∀ t ∈ parts, t ≠ [] ∧ Trimmed t) :
    Trimmed (spaced parts) := by
  induction parts with
  | nil => rfl
  | cons a parts ih =>
    obtain ⟨ha0, ha⟩ := h a (by simp)
    have hrest : ∀ t ∈ parts, t ≠ [] ∧ Trimmed t := fun t ht => h t (List.mem_cons_of_mem _ ht)
    cases parts with
    | nil => simpa [spaced, joinWith] using ha
    | cons b parts =>
      rw [spaced_cons_cons]
      exact ha.append_space ha0 (ih hrest) (spaced_ne_nil (by simp) fun t ht => (hrest t ht).1)

end CommentDocs.Text
