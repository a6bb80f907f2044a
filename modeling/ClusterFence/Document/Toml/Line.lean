import ClusterFence.Document.Toml.Value

namespace ClusterFence.Toml

/-- What a line says: which table the fields after it belong to, or a field. The line of a field
    may be several lines of text, if its value goes on. -/
inductive Line where
  | blank
  | header (path : List String)
  | rowHeader (path : List String)
  | field (key : List String) (d : Document)
deriving Inhabited

/-- Goes on after the end of a line, before which a comment may stand. -/
def lineEnd? (cs : List Char) : Option (List Char) :=
  let rest := match skipBlanks cs with
    | '#' :: rest => rest.dropWhile isPlain
    | rest => rest
  if rest.isEmpty then some [] else lineEnding? rest

/-- The line at the front, up to its end. -/
def content? (cs : List Char) : Option (Line × List Char) :=
  match skipBlanks cs with
  | [] | '#' :: _ | '\n' :: _ | '\r' :: _ => some (.blank, cs)
  | '[' :: '[' :: rest => do
    let (path, rest) ← key? rest
    match rest with
    | ']' :: ']' :: rest => return (.rowHeader path, rest)
    | _ => none
  | '[' :: rest => do
    let (path, rest) ← key? rest
    match rest with
    | ']' :: rest => return (.header path, rest)
    | _ => none
  | rest => do
    let ((key, d), rest) ← field? value? rest
    return (.field key d, rest)

def line? (cs : List Char) : Option (Line × List Char) := do
  let (line, rest) ← content? cs
  return (line, ← lineEnd? rest)

/-- The lines of a text that has not more than `fuel` of them. -/
def lines? : Nat → List Char → Option (List Line)
  | _, [] => some []
  | 0, _ => none
  | fuel + 1, cs => do
    let (line, rest) ← line? cs
    return line :: (← lines? fuel rest)

/-- A text that has been read so far: the header of the table that fields go to, and everything
    that there is. -/
structure Reading where
  header : List String := []
  fields : Fields := []
deriving Inhabited

/-- Takes up one more line. -/
def Reading.add? (r : Reading) : Line → Option Reading
  | .blank => some r
  | .header path => (r.fields.openTable? path).map fun fields => { header := path, fields }
  | .rowHeader path => (r.fields.openNext? path).map fun fields => { header := path, fields }
  | .field key d => (r.fields.assignUnder? r.header key d).map fun fields => { r with fields }

/-- A mark that may stand at the beginning of a text and does not belong to it. -/
def skipMark : List Char → List Char
  | '\ufeff' :: rest => rest
  | cs => cs

end ClusterFence.Toml

namespace ClusterFence

namespace Document

/-- The table that a TOML text describes, if it is well formed. The daemon has its configuration
    read by a library; this stands for it, on the assumption that the library reads TOML 1.0, with
    limits on numbers and depth (`Toml.overflows`, `Toml.nestingLimit`). -/
def ofToml? (text : String) : Option Document := do
  let cs := Toml.skipMark text.toList
  let lines ← Toml.lines? cs.length cs
  let reading : Toml.Reading ← lines.foldlM Toml.Reading.add? {}
  return reading.fields.toDocument

/-- In TOML a list that stands for a section may go on after the section's fields. -/
def Convention.toml : Convention := { exactLists := false }

end Document

end ClusterFence
