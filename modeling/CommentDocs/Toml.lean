import CommentDocs.Toml.Strings

/-!
# TOML documents

The part of TOML that settings are written in: strings, booleans, arrays and tables.  A document
with a number, a date or an array of tables is refused as a whole, as one with a fault is, since
no setting has such a value.

Tables keep the order of their keys.  A key has one value, and a table is opened by one header:
tables that only stand above an opened one (`implicit`) may still be opened, and those that dotted
keys made (`dotted`) may only be extended by dotted keys.
-/

set_option autoImplicit false

namespace CommentDocs.Toml

/-- How a table came to be. -/
inductive TableStyle where
  | opened
  | implicit
  | dotted
  | inline
  deriving DecidableEq, Repr

/-- The values of settings. -/
inductive Value where
  | string (t : Text)
  | boolean (b : Bool)
  | array (items : List Value)
  | table (style : TableStyle) (entries : List (Text × Value))
  deriving Repr

/-- The keys of a table with their values, in order. -/
abbrev Entries := List (Text × Value)

namespace Entries

/-- The value of a key. -/
def get? (key : Text) (entries : Entries) : Option Value :=
  (entries.find? fun e => e.1 == key).map (·.2)

/-- The entries with the value of a key set, a new key at the end. -/
def set (key : Text) (v : Value) : Entries → Entries
  | [] => [(key, v)]
  | (other, u) :: entries =>
    if other = key then (key, v) :: entries else (other, u) :: set key v entries

/-- Give a dotted key its value, in a table of the given style.  `dotted` says whether some keys
were passed already. -/
def assign (style : TableStyle) (dotted : Bool) (v : Value) : List Text → Entries → Option Entries
  | [], _ => none
  | [key], entries =>
    if (style == .dotted) != dotted then none
    else
      match get? key entries with
      | some _ => none
      | none => some (entries ++ [(key, v)])
  | key :: keys, entries =>
    match get? key entries with
    | none => (assign .dotted true v keys []).map fun sub => set key (.table .dotted sub) entries
    | some (.table inner sub) =>
      if inner = .opened || inner = .inline then none
      else (assign inner true v keys sub).map fun sub => set key (.table inner sub) entries
    | some _ => none

/-- Give a dotted key its value in the table that a header opened. -/
def assignBelow (v : Value) (keys : List Text) : List Text → Entries → Option Entries
  | [], entries => assign .opened false v keys entries
  | key :: header, entries =>
    match get? key entries with
    | some (.table style sub) =>
      (assignBelow v keys header sub).map fun sub => set key (.table style sub) entries
    | _ => none

/-- Open the table that a header names. -/
def openTable : List Text → Entries → Option Entries
  | [], _ => none
  | [key], entries =>
    match get? key entries with
    | none => some (entries ++ [(key, .table .opened [])])
    | some (.table .implicit sub) => some (set key (.table .opened sub) entries)
    | some _ => none
  | key :: keys, entries =>
    match get? key entries with
    | none => (openTable keys []).map fun sub => set key (.table .implicit sub) entries
    | some (.table style sub) =>
      if style = .inline then none
      else (openTable keys sub).map fun sub => set key (.table style sub) entries
    | some _ => none

end Entries

/-! ## Values -/

mutual

/-- A value; `limit` bounds the nesting and the length of arrays and tables. -/
def value : Nat → Text → Option (Value × Text)
  | 0, _ => none
  | limit + 1, t =>
    match t with
    | 't' :: 'r' :: 'u' :: 'e' :: rest => some (.boolean true, rest)
    | 'f' :: 'a' :: 'l' :: 's' :: 'e' :: rest => some (.boolean false, rest)
    | '[' :: rest => (items limit rest).map fun (xs, rest) => (.array xs, rest)
    | '\x7b' :: rest =>
      match skipGaps rest with
      | '\x7d' :: rest => some (.table .inline [], rest)
      | rest => (fields limit [] rest).map fun (es, rest) => (.table .inline es, rest)
    | _ => (string t).map fun (s, rest) => (.string s, rest)

/-- The items of an array up to its end; a comma may follow the last one. -/
def items : Nat → Text → Option (List Value × Text)
  | 0, _ => none
  | limit + 1, t =>
    match skipLines false t with
    | none => none
    | some (']' :: rest) => some ([], rest)
    | some t =>
      match value limit t with
      | none => none
      | some (x, t) =>
        match skipLines false t with
        | some (',' :: rest) => (items limit rest).map fun (xs, rest) => (x :: xs, rest)
        | some (']' :: rest) => some ([x], rest)
        | _ => none

/-- The fields of an inline table up to its end, after those read already. -/
def fields : Nat → Entries → Text → Option (Entries × Text)
  | 0, _, _ => none
  | limit + 1, entries, t =>
    match keyPath (skipGaps t) with
    | some (keys, '=' :: t) =>
      match value limit (skipGaps t) with
      | none => none
      | some (x, t) =>
        match Entries.assign .opened false x keys entries with
        | none => none
        | some entries =>
          match skipGaps t with
          | ',' :: rest => fields limit entries rest
          | '\x7d' :: rest => some (entries, rest)
          | _ => none
    | _ => none

end

/-! ## Documents -/

/-- The statements of a document, at most `limit` of them, after those read already. -/
def statements : Nat → List Text → Entries → Text → Option Entries
  | 0, _, _, _ => none
  | limit + 1, header, entries, t =>
    match skipGaps t with
    | [] => some entries
    | '[' :: rest =>
      match keyPath (skipGaps rest) with
      | some (keys, ']' :: rest) =>
        match finishLine? rest, Entries.openTable keys entries with
        | some rest, some entries => statements limit keys entries rest
        | _, _ => none
      | _ => none
    | u =>
      match finishLine? u with
      | some rest => statements limit header entries rest
      | none =>
        match keyPath u with
        | some (keys, '=' :: rest) =>
          match value (rest.length + 1) (skipGaps rest) with
          | none => none
          | some (x, rest) =>
            match finishLine? rest, Entries.assignBelow x keys header entries with
            | some rest, some entries => statements limit header entries rest
            | _, _ => none
        | _ => none

/-- The top table of a document; a byte order mark may come first.  Every statement takes a
character at least. -/
def parse (t : Text) : Option Entries :=
  let t := match t with
    | '\ufeff' :: u => u
    | u => u
  statements (t.length + 1) [] [] t

end CommentDocs.Toml
