import Multipart.Toml.Number
import Multipart.Toml.Text

/-!
# Values and tables

A table remembers how it came to be, because that decides what may still be added to it.
-/

namespace Multipart.Toml

inductive TableKind
  | header
  | passed
  | dotted
  | inline
  deriving DecidableEq, Repr

inductive Value
  | string (s : String)
  | integer (n : Int)
  | float (x : Double)
  | boolean (b : Bool)
  | dateTime (text : String)
  | array (items : List Value)
  | table (kind : TableKind) (entries : List (String × Value))
  /-- Tables of one name, latest first. -/
  | tables (elements : List Value)

abbrev Entries := List (String × Value)

namespace Entries

def get? (entries : Entries) (key : String) : Option Value :=
  (entries.find? (·.1 == key)).map (·.2)

def put (entries : Entries) (key : String) (value : Value) : Entries :=
  if entries.any (·.1 == key) then
    entries.map fun entry => if entry.1 == key then (key, value) else entry
  else entries ++ [(key, value)]

end Entries

namespace Value

/-- Changes the table at the end of a path. Tables missing on the way are made, of the given kind. A
dotted path does not lead into a table that has a header of its own. -/
def updateAt (missing : TableKind) (f : Value → Option Value) : List String → Value → Option Value
  | [], t => f t
  | key :: path, .table kind entries => do
    let child ← match Entries.get? entries key with
      | none => updateAt missing f path (.table missing [])
      | some (.table .inline _) => none
      | some (.table .header entries) =>
        if missing = .dotted then none else updateAt missing f path (.table .header entries)
      | some (.table kind entries) => updateAt missing f path (.table kind entries)
      | some (.tables (last :: earlier)) =>
        (updateAt missing f path last).map fun last => .tables (last :: earlier)
      | some _ => none
    some (.table kind (Entries.put entries key child))
  | _ :: _, _ => none

/-- Adds a key to a table. A dotted key adds to the table that its path leads to, which must have
been made by dotted keys alone. -/
def insert (path : List String) (key : String) (value : Value) : Value → Option Value :=
  updateAt .dotted add path
where
  add : Value → Option Value
    | .table kind entries =>
      if (kind ≠ .dotted ∧ path ≠ []) ∨ (Entries.get? entries key).isSome then none
      else some (.table kind (Entries.put entries key value))
    | _ => none

/-- Opens the table of a header. It is new, or was passed on the way of a longer header. -/
def openTable (path : List String) (key : String) : Value → Option Value :=
  updateAt .passed enter path
where
  enter : Value → Option Value
    | .table kind entries =>
      match Entries.get? entries key with
      | none => some (.table kind (Entries.put entries key (.table .header [])))
      | some (.table .passed inner) =>
        some (.table kind (Entries.put entries key (.table .header inner)))
      | some _ => none
    | _ => none

def openElement (path : List String) (key : String) : Value → Option Value :=
  updateAt .passed enter path
where
  enter : Value → Option Value
    | .table kind entries =>
      match Entries.get? entries key with
      | none => some (.table kind (Entries.put entries key (.tables [.table .header []])))
      | some (.tables elements) =>
        some (.table kind (Entries.put entries key (.tables (.table .header [] :: elements))))
      | some _ => none
    | _ => none

end Value

def isWordChar (c : Char) : Bool := c.isAlphanum || c ∈ ['+', '-', '_', '.', ':']

def ofWord? (word : List Char) : Option Value :=
  if word = "true".toList then some (.boolean true)
  else if word = "false".toList then some (.boolean false)
  else if isDateTime word then some (.dateTime (String.ofList word))
  else match float? word with
    | some x => some (.float x)
    | none => (integer? word).map .integer

/-- A value without brackets or quotes: a word, or a date and a time of day with a blank between
them. -/
def word? (cs : List Char) : Option (Value × List Char) :=
  let (word, rest) := cs.span isWordChar
  let (second, after) := rest.tail.span isWordChar
  if isDate word && rest.head? = some ' ' && !second.isEmpty then
    if isTimeWithOffset second then
      some (.dateTime (String.ofList (word ++ ' ' :: second)), after)
    else none
  else (ofWord? word).map (·, rest)

def items? (item : List Char → Option (Value × List Char)) :
    Nat → List Char → Option (List Value × List Char)
  | 0, _ => none
  | fuel + 1, cs => do
    match ← skipLines? false cs with
    | ']' :: rest => some ([], rest)
    | cs =>
      let (value, rest) ← item cs
      match ← skipLines? false rest with
      | ']' :: rest => some ([value], rest)
      | ',' :: rest =>
        let (values, rest) ← items? item fuel rest
        some (value :: values, rest)
      | _ => none

/-- Tables and arrays nest, and keys have parts, less often than this. -/
def depthLimit : Nat := 80

def keyValue? (value : List Char → Option (Value × List Char)) (cs : List Char) :
    Option ((List String × Value) × List Char) := do
  let (keys, rest) ← key? (depthLimit - 1) cs
  match rest with
  | '=' :: rest =>
    let (v, rest) ← value (skipBlanks rest)
    some ((keys, v), rest)
  | _ => none

def insertKeys (keys : List String) (v : Value) (t : Value) : Option Value := do
  Value.insert keys.dropLast (← keys.getLast?) v t

/-- The entries of an inline table from a first entry on, added to a table. No comma follows the
last. -/
def inlineEntries? (value : List Char → Option (Value × List Char)) :
    Nat → Value → List Char → Option (Value × List Char)
  | 0, _, _ => none
  | fuel + 1, t, cs => do
    let ((keys, v), rest) ← keyValue? value cs
    let t ← insertKeys keys v t
    match skipBlanks rest with
    | '}' :: rest => some (t, rest)
    | ',' :: rest => inlineEntries? value fuel t rest
    | _ => none

/-- A value with at most so many levels of brackets and braces. -/
def value? : Nat → List Char → Option (Value × List Char)
  | _, '"' :: cs => (string? ('"' :: cs)).map fun (s, rest) => (.string s, rest)
  | _, '\'' :: cs => (string? ('\'' :: cs)).map fun (s, rest) => (.string s, rest)
  | depth + 1, '[' :: cs =>
    (items? (value? depth) (cs.length + 1) cs).map fun (vs, rest) => (.array vs, rest)
  | depth + 1, '{' :: cs =>
    match skipBlanks cs with
    | '}' :: rest => some (.table .inline [], rest)
    | cs => inlineEntries? (value? depth) (cs.length + 1) (.table .inline []) cs
  | _, cs => word? cs

end Multipart.Toml
