import ClusterFence.Document.Toml.Moment
import ClusterFence.Document.Toml.Number
import ClusterFence.Document.Toml.Table

namespace ClusterFence.Toml

/-- Lists and tables in braces stand in one another up to this depth, and a dotted key has at most
    so many parts. TOML itself knows no such limit; it is assumed of the reader that the daemon
    uses. -/
def nestingLimit : Nat := 79

def skipBlanks (cs : List Char) : List Char := cs.dropWhile isBlank

/-- What follows blanks, line endings and comments. A comment goes on to a line ending. -/
def skipLines? (inComment : Bool) : List Char → Option (List Char)
  | '\n' :: rest => skipLines? false rest
  | '\r' :: '\n' :: rest => skipLines? false rest
  | c :: rest =>
    if inComment then if isPlain c then skipLines? true rest else none
    else if c == '#' then skipLines? true rest
    else if isBlank c then skipLines? false rest
    else some (c :: rest)
  | [] => if inComment then none else some []

/-- Characters of keys without quotes. -/
def isBare (c : Char) : Bool := c.isAlphanum || c == '-' || c == '_'

/-- One part of a key, with quotes or without. -/
def keyPart? : List Char → Option (List Char × List Char)
  | '"' :: rest => lineText? .between rest
  | '\'' :: rest => lineLiteral? rest
  | cs =>
    match cs.takeWhile isBare with
    | [] => none
    | part => some (part, cs.dropWhile isBare)

/-- A key of at most so many parts, with dots between them, and the blanks around it. -/
def keyParts? : Nat → List Char → Option (List String × List Char)
  | 0, _ => none
  | limit + 1, cs => do
    let (part, cs) ← keyPart? (skipBlanks cs)
    match skipBlanks cs with
    | '.' :: cs => do
      let (parts, cs) ← keyParts? limit cs
      return (String.ofList part :: parts, cs)
    | cs => return ([String.ofList part], cs)

def key? : List Char → Option (List String × List Char) := keyParts? nestingLimit

/-- The items of a list, its bracket being open. An item may be followed by a comma also when it
    is the last. -/
def items? (item? : List Char → Option (Document × List Char)) :
    Nat → List Char → Option (List Document × List Char)
  | 0, _ => none
  | fuel + 1, cs => do
    match ← skipLines? false cs with
    | ']' :: rest => return ([], rest)
    | cs => do
      let (d, cs) ← item? cs
      match ← skipLines? false cs with
      | ',' :: cs => do
        let (ds, rest) ← items? item? fuel cs
        return (d :: ds, rest)
      | ']' :: rest => return ([d], rest)
      | _ => none

/-- A field: its key and its value. -/
def field? (value? : List Char → Option (Document × List Char)) (cs : List Char) :
    Option ((List String × Document) × List Char) := do
  let (key, cs) ← key? cs
  match cs with
  | '=' :: cs => do
    let (d, rest) ← value? (skipBlanks cs)
    return ((key, d), rest)
  | _ => none

/-- The fields of a table in braces, which are open, from the first or the next on. -/
def fields? (value? : List Char → Option (Document × List Char)) :
    Nat → List Char → Option (List (List String × Document) × List Char)
  | 0, _ => none
  | fuel + 1, cs => do
    let (field, cs) ← field? value? cs
    match skipBlanks cs with
    | ',' :: cs => do
      let (fields, rest) ← fields? value? fuel cs
      return (field :: fields, rest)
    | '\x7d' :: rest => return ([field], rest)
    | _ => none

/-- The table that has these fields, if no two of them are in conflict. -/
def tableOf? (fields : List (List String × Document)) : Option Document := do
  let table : Fields ←
    fields.foldlM (fun (table : Fields) field => table.assign? field.1 field.2) []
  return table.toDocument

/-- A value that holds no other values. -/
def scalarValue? (cs : List Char) : Option (Document × List Char) :=
  match cs with
  | '"' :: _ | '\'' :: _ => do
    let (text, rest) ← text? cs
    return (.text (String.ofList text), rest)
  | 't' :: 'r' :: 'u' :: 'e' :: rest => some (.boolean true, rest)
  | 'f' :: 'a' :: 'l' :: 's' :: 'e' :: rest => some (.boolean false, rest)
  | _ =>
    match moment? cs with
    | some rest => some (.moment, rest)
    | none => number? cs

/-- A value in which values are nested up to a depth. -/
def valueWithin? : Nat → List Char → Option (Document × List Char)
  | 0, cs => scalarValue? cs
  | depth + 1, cs =>
    match cs with
    | '[' :: rest => do
      let (items, rest) ← items? (valueWithin? depth) (rest.length + 1) rest
      return (.list items, rest)
    | '\x7b' :: rest =>
      match skipBlanks rest with
      | '\x7d' :: rest => some (.table [], rest)
      | rest => do
        let (fields, rest) ← fields? (valueWithin? depth) (rest.length + 1) rest
        return (← tableOf? fields, rest)
    | cs => scalarValue? cs

def value? : List Char → Option (Document × List Char) := valueWithin? nestingLimit

end ClusterFence.Toml
