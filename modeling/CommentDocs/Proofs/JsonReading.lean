import CommentDocs.Json
import CommentDocs.Proofs.Texts

/-!
# Reading JSON texts

A reader for the JSON values that documents are made of.  Spaces, tabs and line ends may stand
between any two signs.  In a string a character stands for itself or is escaped, by its letter or
by number, the larger ones as two surrogates; controls have to be escaped.

* `readChars_escape`: an escaped text reads back, whatever characters it holds.
* `readValue_write`: so does a written value, and what follows it is left.
* `read?_pretty`: the indented text of a value, with blanks after it, is read as that value.
-/

set_option autoImplicit false

namespace CommentDocs.Json

/-! ## Strings -/

/-- The value of a hexadecimal digit. -/
def hexValue? (c : Char) : Option Nat :=
  if '0' ≤ c ∧ c ≤ '9' then some (c.toNat - 48)
  else if 'a' ≤ c ∧ c ≤ 'f' then some (c.toNat - 87)
  else if 'A' ≤ c ∧ c ≤ 'F' then some (c.toNat - 55)
  else none

/-- The number that four hexadecimal digits give. -/
def readUnit : Text → Option (Nat × Text)
  | a :: b :: c :: d :: rest =>
    match hexValue? a, hexValue? b, hexValue? c, hexValue? d with
    | some a, some b, some c, some d => some (((a * 16 + b) * 16 + c) * 16 + d, rest)
    | _, _, _, _ => none
  | _ => none

/-- The second of two surrogates, escaped by itself. -/
def readLowSurrogate : Text → Option (Nat × Text)
  | '\\' :: 'u' :: t =>
    (readUnit t).bind fun u => if 0xDC00 ≤ u.1 ∧ u.1 < 0xE000 then some u else none
  | _ => none

/-- The character that is given by number: one number, or two that are surrogates. -/
def readCodePoint (t : Text) : Option (Char × Text) :=
  (readUnit t).bind fun u =>
    if u.1 < 0xD800 ∨ 0xE000 ≤ u.1 then some (Char.ofNat u.1, u.2)
    else if 0xDC00 ≤ u.1 then none
    else
      (readLowSurrogate u.2).map fun v =>
        (Char.ofNat (0x10000 + (u.1 - 0xD800) * 0x400 + (v.1 - 0xDC00)), v.2)

/-- The escapes by letter, each with the character it stands for. -/
def letterEscapes : List (Char × Char) :=
  [('\x22', '\x22'), ('\\', '\\'), ('/', '/'), ('b', '\x08'), ('f', '\x0c'), ('n', '\n'),
    ('r', '\r'), ('t', '\t')]

/-- The character that an escape stands for, read from after the backslash. -/
def readEscape : Text → Option (Char × Text)
  | [] => none
  | c :: t => if c = 'u' then readCodePoint t else (letterEscapes.lookup c).map fun d => (d, t)

theorem readUnit_length {t : Text} {u : Nat × Text} (h : readUnit t = some u) :
    u.2.length < t.length := by
  unfold readUnit at h
  split at h
  · split at h
    · cases h
      simp only [List.length_cons]
      omega
    · cases h
  · cases h

theorem readLowSurrogate_length {t : Text} {u : Nat × Text} (h : readLowSurrogate t = some u) :
    u.2.length < t.length := by
  unfold readLowSurrogate at h
  split at h
  · obtain ⟨v, hv, hu⟩ := Option.bind_eq_some_iff.mp h
    have := readUnit_length hv
    split at hu
    · cases hu
      simp only [List.length_cons]
      omega
    · cases hu
  · cases h

theorem readCodePoint_length {t : Text} {c : Char × Text} (h : readCodePoint t = some c) :
    c.2.length < t.length := by
  obtain ⟨u, hu, hc⟩ := Option.bind_eq_some_iff.mp h
  have := readUnit_length hu
  split at hc
  · cases hc
    exact this
  · split at hc
    · cases hc
    · obtain ⟨v, hv, rfl⟩ := Option.map_eq_some_iff.mp hc
      have := readLowSurrogate_length hv
      simp only
      omega

theorem readEscape_length {t : Text} {c : Char × Text} (h : readEscape t = some c) :
    c.2.length < t.length := by
  unfold readEscape at h
  split at h
  · cases h
  · rw [List.length_cons]
    split at h
    · have := readCodePoint_length h
      omega
    · obtain ⟨d, _, rfl⟩ := Option.map_eq_some_iff.mp h
      exact Nat.lt_succ_self _

/-- The text up to the closing quote, and what follows the quote. -/
def readChars : Text → Option (Text × Text)
  | [] => none
  | c :: t =>
    if c = '\x22' then some ([], t)
    else if c = '\\' then
      match _h : readEscape t with
      | none => none
      | some d => (readChars d.2).map fun s => (d.1 :: s.1, s.2)
    else if c.toNat < 0x20 then none
    else (readChars t).map fun s => (c :: s.1, s.2)
  termination_by t => t.length
  decreasing_by
  · have := readEscape_length _h
    simp only [List.length_cons]
    omega
  · exact Nat.lt_succ_self _

theorem hexValue?_hexDigit : ∀ n < 16, hexValue? (hexDigit n) = some n := by decide

/-- After a backslash, the reader goes on with the character that the escape stands for. -/
theorem readChars_backslash {t rest : Text} {c : Char} (h : readEscape t = some (c, rest)) :
    readChars ('\\' :: t) = (readChars rest).map fun s => (c :: s.1, s.2) := by
  rw [readChars, if_neg (by decide), if_pos rfl]
  split
  · rename_i hnone
    rw [h] at hnone
    cases hnone
  · rename_i d hd
    rw [h] at hd
    cases hd
    rfl

/-- A control that is given by number reads back. -/
theorem readEscape_control {c : Char} (h : c.toNat < 0x20) (rest : Text) :
    readEscape ('u' :: '0' :: '0' :: hexDigit (c.toNat / 16) :: hexDigit (c.toNat % 16) :: rest) =
      some (c, rest) := by
  have hhigh := hexValue?_hexDigit (c.toNat / 16) (by omega)
  have hlow := hexValue?_hexDigit (c.toNat % 16) (by omega)
  have hzero : hexValue? '0' = some 0 := by decide
  have hsum : ((0 * 16 + 0) * 16 + c.toNat / 16) * 16 + c.toNat % 16 = c.toNat := by omega
  rw [readEscape, if_pos rfl, readCodePoint, readUnit, hhigh, hlow, hzero]
  simp only [hsum, Option.bind_some]
  rw [if_pos (by omega), Char.ofNat_toNat]

/-- **One character reads back**, escaped or not. -/
theorem readChars_escapeChar (c : Char) (rest : Text) :
    readChars (escapeChar c ++ rest) = (readChars rest).map fun s => (c :: s.1, s.2) := by
  unfold escapeChar
  split
  · rename_i h; rw [h]; exact readChars_backslash (by rfl)
  split
  · rename_i h; rw [h]; exact readChars_backslash (by rfl)
  split
  · rename_i h; rw [h]; exact readChars_backslash (by rfl)
  split
  · rename_i h; rw [h]; exact readChars_backslash (by rfl)
  split
  · rename_i h; rw [h]; exact readChars_backslash (by rfl)
  split
  · rename_i h; rw [h]; exact readChars_backslash (by rfl)
  split
  · rename_i h; rw [h]; exact readChars_backslash (by rfl)
  split
  · rename_i h; exact readChars_backslash (readEscape_control h rest)
  · rename_i hquote hslash _ _ _ _ _ hcontrol
    rw [List.singleton_append, readChars, if_neg hquote, if_neg hslash, if_neg hcontrol]

/-- **A text between quotes reads back**, whatever characters it holds. -/
theorem readChars_escape (t rest : Text) :
    readChars (t.flatMap escapeChar ++ '\x22' :: rest) = some (t, rest) := by
  induction t with
  | nil => rw [List.flatMap_nil, List.nil_append, readChars, if_pos rfl]
  | cons c t ih => rw [List.flatMap_cons, List.append_assoc, readChars_escapeChar, ih]; rfl

/-! ## Values -/

/-- The characters that may stand between signs. -/
def isSpace (c : Char) : Bool := c == ' ' || c == '\t' || c == '\n' || c == '\r'

/-- What follows a sign, if it comes next. -/
def sign? (c : Char) (t : Text) : Option Text :=
  match t.dropWhile isSpace with
  | [] => none
  | d :: rest => if d = c then some rest else none

/-- The name of a field with the colon after it. -/
def readName (t : Text) : Option (Text × Text) :=
  ((sign? '\x22' t).bind readChars).bind fun s => (sign? ':' s.2).map fun rest => (s.1, rest)

mutual

/-- The value that comes next, and what follows it.  Each value and each sign after one takes a
character at least, so as many steps as there are characters are enough. -/
def readValue : Nat → Text → Option (Json × Text)
  | 0, _ => none
  | limit + 1, t =>
    match sign? '\x22' t, sign? '[' t, sign? '\x7b' t with
    | some t, _, _ => (readChars t).map fun s => (.text s.1, s.2)
    | none, some t, _ =>
      match sign? ']' t with
      | some rest => some (.list [], rest)
      | none =>
        (readValue limit t).bind fun x =>
          (readItems limit x.2).map fun xs => (.list (x.1 :: xs.1), xs.2)
    | none, none, some t =>
      match sign? '\x7d' t with
      | some rest => some (.object [], rest)
      | none =>
        (readName t).bind fun name => (readValue limit name.2).bind fun x =>
          (readFields limit x.2).map fun fs => (.object ((name.1, x.1) :: fs.1), fs.2)
    | none, none, none => none

/-- The items of a list after the first one, up to its end. -/
def readItems : Nat → Text → Option (List Json × Text)
  | 0, _ => none
  | limit + 1, t =>
    match sign? ']' t, sign? ',' t with
    | some rest, _ => some ([], rest)
    | none, some t =>
      (readValue limit t).bind fun x =>
        (readItems limit x.2).map fun xs => (x.1 :: xs.1, xs.2)
    | none, none => none

/-- The fields of an object after the first one, up to its end. -/
def readFields : Nat → Text → Option (List (Text × Json) × Text)
  | 0, _ => none
  | limit + 1, t =>
    match sign? '\x7d' t, sign? ',' t with
    | some rest, _ => some ([], rest)
    | none, some t =>
      (readName t).bind fun name => (readValue limit name.2).bind fun x =>
        (readFields limit x.2).map fun fs => ((name.1, x.1) :: fs.1, fs.2)
    | none, none => none

end

/-- The value that a whole text is read as. -/
def read? (t : Text) : Option Json :=
  (readValue (t.length + 1) t).bind fun x => if x.2.all isSpace then some x.1 else none

/-! ## Signs -/

theorem newline_isSpace (depth : Nat) : ∀ c ∈ newline depth, isSpace c = true := by
  intro c hc
  rcases List.mem_cons.mp hc with rfl | hc
  · rfl
  · rw [List.eq_of_mem_replicate hc]
    rfl

@[simp] theorem sign?_newline (c : Char) (depth : Nat) (t : Text) :
    sign? c (newline depth ++ t) = sign? c t := by
  rw [sign?, List.dropWhile_append_of_pos (newline_isSpace depth), sign?]

theorem sign?_cons {d : Char} (hd : isSpace d = false) (c : Char) (t : Text) :
    sign? c (d :: t) = if d = c then some t else none := by
  simp [sign?, hd]

@[simp] theorem sign?_space (c : Char) (t : Text) : sign? c (' ' :: t) = sign? c t := rfl

@[simp] theorem readValue_newline (limit depth : Nat) (t : Text) :
    readValue limit (newline depth ++ t) = readValue limit t := by
  cases limit with
  | zero => rfl
  | succ limit => simp only [readValue, sign?_newline]

@[simp] theorem readName_newline (depth : Nat) (t : Text) :
    readName (newline depth ++ t) = readName t := by
  simp only [readName, sign?_newline]

@[simp] theorem readValue_space (limit : Nat) (t : Text) :
    readValue limit (' ' :: t) = readValue limit t := by
  cases limit with
  | zero => rfl
  | succ limit => simp only [readValue, sign?_space]

theorem readName_escape (name rest : Text) :
    readName (escape name ++ ':' :: rest) = some (name, rest) := by
  have hquote : sign? '\x22' (escape name ++ ':' :: rest) =
      some (name.flatMap escapeChar ++ '\x22' :: ':' :: rest) := by
    simp [escape, sign?_cons (d := '\x22') (by decide)]
  have hcolon : sign? ':' (':' :: rest) = some rest := by
    rw [sign?_cons (by decide), if_pos rfl]
  rw [readName, hquote, Option.bind_some, readChars_escape, Option.bind_some, hcolon]
  rfl

/-- No object ends where a name starts. -/
theorem sign?_escape (name t : Text) : sign? '\x7d' (escape name ++ t) = none := by
  simp [escape, sign?_cons (d := '\x22') (by decide)]

/-! ## Steps of the reader -/

theorem readValue_list (limit : Nat) (t : Text) :
    readValue (limit + 1) ('[' :: t) =
      match sign? ']' t with
      | some rest => some (.list [], rest)
      | none =>
        (readValue limit t).bind fun x =>
          (readItems limit x.2).map fun xs => (.list (x.1 :: xs.1), xs.2) := by
  simp only [readValue, sign?_cons (d := '[') (by decide), Char.reduceEq, if_true, if_false]

theorem readValue_object (limit : Nat) (t : Text) :
    readValue (limit + 1) ('\x7b' :: t) =
      match sign? '\x7d' t with
      | some rest => some (.object [], rest)
      | none =>
        (readName t).bind fun name => (readValue limit name.2).bind fun x =>
          (readFields limit x.2).map fun fs => (.object ((name.1, x.1) :: fs.1), fs.2) := by
  simp only [readValue, sign?_cons (d := '\x7b') (by decide), Char.reduceEq, if_true, if_false]

theorem readItems_comma (limit : Nat) (t : Text) :
    readItems (limit + 1) (',' :: t) =
      (readValue limit t).bind fun x =>
        (readItems limit x.2).map fun xs => (x.1 :: xs.1, xs.2) := by
  simp only [readItems, sign?_cons (d := ',') (by decide), Char.reduceEq, if_true, if_false]

theorem readFields_comma (limit : Nat) (t : Text) :
    readFields (limit + 1) (',' :: t) =
      (readName t).bind fun name => (readValue limit name.2).bind fun x =>
        (readFields limit x.2).map fun fs => ((name.1, x.1) :: fs.1, fs.2) := by
  simp only [readFields, sign?_cons (d := ',') (by decide), Char.reduceEq, if_true, if_false]

/-! ## Written values -/

/-- A written value starts with the sign of its sort. -/
theorem write_head (depth : Nat) (x : Json) (rest : Text) :
    ∃ c t, write depth x rest = c :: t ∧ (c = '\x22' ∨ c = '[' ∨ c = '\x7b') := by
  cases x with
  | text t => exact ⟨_, _, rfl, .inl rfl⟩
  | list items =>
    cases items with
    | nil => exact ⟨_, _, rfl, .inr (.inl rfl)⟩
    | cons x xs => exact ⟨_, _, rfl, .inr (.inl rfl)⟩
  | object fields =>
    cases fields with
    | nil => exact ⟨_, _, rfl, .inr (.inr rfl)⟩
    | cons f fs => exact ⟨_, _, rfl, .inr (.inr rfl)⟩

/-- No list or object ends where a value starts. -/
theorem sign?_write {c : Char} (hc : c = ']' ∨ c = '\x7d') (depth : Nat) (x : Json)
    (rest : Text) : sign? c (write depth x rest) = none := by
  obtain ⟨d, t, hw, hd⟩ := write_head depth x rest
  have hspace : isSpace d = false := by
    rcases hd with rfl | rfl | rfl <;> rfl
  rw [hw, sign?_cons hspace, if_neg]
  rcases hd with rfl | rfl | rfl <;> rcases hc with rfl | rfl <;> decide

mutual

/-- What follows a value is written after it. -/
theorem write_append : ∀ (x : Json) (depth : Nat) (rest : Text),
    write depth x rest = write depth x [] ++ rest
  | .text t, depth, rest => by simp [write]
  | .list [], depth, rest => by simp [write]
  | .list (x :: xs), depth, rest => by
    simp only [write]
    rw [write_append x _ (writeItems _ xs (_ ++ ']' :: rest)), write_append x _ (writeItems _ xs _),
      writeItems_append xs _ (_ ++ ']' :: rest), writeItems_append xs _ (_ ++ [']'])]
    simp
  | .object [], depth, rest => by simp [write]
  | .object ((name, x) :: fs), depth, rest => by
    simp only [write]
    rw [write_append x _ (writeFields _ fs (_ ++ '\x7d' :: rest)),
      write_append x _ (writeFields _ fs _), writeFields_append fs _ (_ ++ '\x7d' :: rest),
      writeFields_append fs _ (_ ++ ['\x7d'])]
    simp

theorem writeItems_append : ∀ (xs : List Json) (depth : Nat) (rest : Text),
    writeItems depth xs rest = writeItems depth xs [] ++ rest
  | [], depth, rest => by simp [writeItems]
  | x :: xs, depth, rest => by
    simp only [writeItems]
    rw [write_append x _ (writeItems _ xs rest), write_append x _ (writeItems _ xs []),
      writeItems_append xs _ rest]
    simp

theorem writeFields_append : ∀ (fs : List (Text × Json)) (depth : Nat) (rest : Text),
    writeFields depth fs rest = writeFields depth fs [] ++ rest
  | [], depth, rest => by simp [writeFields]
  | (name, x) :: fs, depth, rest => by
    simp only [writeFields]
    rw [write_append x _ (writeFields _ fs rest), write_append x _ (writeFields _ fs []),
      writeFields_append fs _ rest]
    simp

end

theorem length_le_write (depth : Nat) (x : Json) (rest : Text) :
    rest.length ≤ (write depth x rest).length := by
  rw [write_append, List.length_append]
  omega

mutual

/-- **A written value is read back**, and what follows it is left. -/
theorem readValue_write : ∀ (x : Json) (depth limit : Nat) (rest : Text),
    (write depth x rest).length ≤ limit → readValue limit (write depth x rest) = some (x, rest)
  | x, depth, 0, rest, h => by
    obtain ⟨c, t, hw, _⟩ := write_head depth x rest
    rw [hw] at h
    cases h
  | .text t, depth, limit + 1, rest, h => by
    have hquote : sign? '\x22' (escape t ++ rest) =
        some (t.flatMap escapeChar ++ '\x22' :: rest) := by
      simp [escape, sign?_cons (d := '\x22') (by decide)]
    simp only [write, readValue, hquote, readChars_escape, Option.map_some]
  | .list [], depth, limit + 1, rest, h => by
    rw [write, readValue_list, sign?_cons (by decide), if_pos rfl]
  | .list (x :: xs), depth, limit + 1, rest, h => by
    simp only [write, List.length_cons, List.length_append] at h
    have hx := readValue_write x (depth + 1) limit
      (writeItems (depth + 1) xs (newline depth ++ ']' :: rest)) (by omega)
    have hle := length_le_write (depth + 1) x
      (writeItems (depth + 1) xs (newline depth ++ ']' :: rest))
    have hxs := readItems_write xs (depth + 1) depth limit rest (by omega)
    rw [write, readValue_list, sign?_newline, sign?_write (.inl rfl), readValue_newline, hx]
    simp only [Option.bind_some, hxs, Option.map_some]
  | .object [], depth, limit + 1, rest, h => by
    rw [write, readValue_object, sign?_cons (by decide), if_pos rfl]
  | .object ((name, x) :: fs), depth, limit + 1, rest, h => by
    simp only [write, List.length_cons, List.length_append] at h
    have hx := readValue_write x (depth + 1) limit
      (writeFields (depth + 1) fs (newline depth ++ '\x7d' :: rest)) (by omega)
    have hle := length_le_write (depth + 1) x
      (writeFields (depth + 1) fs (newline depth ++ '\x7d' :: rest))
    have hfs := readFields_write fs (depth + 1) depth limit rest (by omega)
    rw [write, readValue_object, sign?_newline, sign?_escape, readName_newline, readName_escape]
    simp only [Option.bind_some, readValue_space, hx, hfs, Option.map_some]

theorem readItems_write : ∀ (xs : List Json) (depth above limit : Nat) (rest : Text),
    (writeItems depth xs (newline above ++ ']' :: rest)).length ≤ limit →
      readItems limit (writeItems depth xs (newline above ++ ']' :: rest)) = some (xs, rest)
  | [], depth, above, 0, rest, h => by simp [writeItems] at h
  | [], depth, above, limit + 1, rest, h => by
    simp only [writeItems, readItems, sign?_newline, sign?_cons (d := ']') (by decide), if_true]
  | x :: xs, depth, above, 0, rest, h => by cases h
  | x :: xs, depth, above, limit + 1, rest, h => by
    simp only [writeItems, List.length_cons, List.length_append] at h
    have hx := readValue_write x depth limit
      (writeItems depth xs (newline above ++ ']' :: rest)) (by omega)
    have hle := length_le_write depth x (writeItems depth xs (newline above ++ ']' :: rest))
    have hxs := readItems_write xs depth above limit rest (by omega)
    rw [writeItems, readItems_comma, readValue_newline, hx]
    simp only [Option.bind_some, hxs, Option.map_some]

theorem readFields_write : ∀ (fs : List (Text × Json)) (depth above limit : Nat) (rest : Text),
    (writeFields depth fs (newline above ++ '\x7d' :: rest)).length ≤ limit →
      readFields limit (writeFields depth fs (newline above ++ '\x7d' :: rest)) = some (fs, rest)
  | [], depth, above, 0, rest, h => by simp [writeFields] at h
  | [], depth, above, limit + 1, rest, h => by
    simp only [writeFields, readFields, sign?_newline, sign?_cons (d := '\x7d') (by decide),
      if_true]
  | (name, x) :: fs, depth, above, 0, rest, h => by cases h
  | (name, x) :: fs, depth, above, limit + 1, rest, h => by
    simp only [writeFields, List.length_cons, List.length_append] at h
    have hx := readValue_write x depth limit
      (writeFields depth fs (newline above ++ '\x7d' :: rest)) (by omega)
    have hle := length_le_write depth x (writeFields depth fs (newline above ++ '\x7d' :: rest))
    have hfs := readFields_write fs depth above limit rest (by omega)
    rw [writeFields, readFields_comma, readName_newline, readName_escape]
    simp only [Option.bind_some, readValue_space, hx, hfs, Option.map_some]

end

/-- **The indented text of a value is read as that value**, also with blanks after it. -/
theorem read?_pretty (x : Json) {blanks : Text} (h : blanks.all isSpace = true) :
    read? (x.pretty ++ blanks) = some x := by
  rw [pretty, ← write_append, read?, readValue_write x 0 _ blanks (Nat.le_succ _),
    Option.bind_some, if_pos h]

end CommentDocs.Json
