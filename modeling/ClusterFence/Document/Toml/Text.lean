namespace ClusterFence.Toml

/-- A blank does not end a line. -/
def isBlank (c : Char) : Bool := c == ' ' || c == '\t'

/-- Characters of which texts and comments are made: of the control characters only the tab. -/
def isPlain (c : Char) : Bool := c == '\t' || (0x20 ≤ c.toNat && c.toNat != 0x7f)

/-- A line ends with a line feed, with or without a carriage return before it. -/
def lineEnding? : List Char → Option (List Char)
  | '\n' :: rest => some rest
  | '\r' :: '\n' :: rest => some rest
  | _ => none

def hexDigit? (c : Char) : Option Nat :=
  if '0' ≤ c && c ≤ '9' then some (c.toNat - '0'.toNat)
  else if 'a' ≤ c && c ≤ 'f' then some (c.toNat - 'a'.toNat + 10)
  else if 'A' ≤ c && c ≤ 'F' then some (c.toNat - 'A'.toNat + 10)
  else none

/-- The character with a number, if there is one. -/
def scalar? (n : Nat) : Option Char :=
  if n.isValidChar then some (Char.ofNat n) else none

/-- What a single character after a backslash stands for. -/
def escaped? : Char → Option Char
  | 'b' => some '\x08'
  | 't' => some '\t'
  | 'n' => some '\n'
  | 'f' => some '\x0c'
  | 'r' => some '\r'
  | '"' => some '"'
  | '\\' => some '\\'
  | _ => none

/-- A place within a text between double quotes: between two characters, after a backslash, or
    within the number of a character, with the digits to come and the number so far. At a seam a
    backslash has been followed by blanks, so that the line has to end; after it blanks and line
    endings do not count. -/
inductive TextPlace where
  | between
  | backslash
  | number (digits : Nat) (value : Nat)
  | seam
  | afterSeam
deriving DecidableEq, Repr, Inhabited

/-- Puts a character in front of what is read after it. -/
def before (c : Char) : Option (List Char × List Char) → Option (List Char × List Char)
  | some (text, rest) => some (c :: text, rest)
  | none => none

/-- One more digit for the number of a character: a place further on, and at the last digit the
    character. -/
def nextDigit? (digits value : Nat) (c : Char) : Option (TextPlace × Option Char) := do
  let value := 16 * value + (← hexDigit? c)
  if digits ≤ 1 then return (.between, some (← scalar? value))
  else return (.number (digits - 1) value, none)

/-- The rest of a text that ends at a double quote and with its line. -/
def lineText? : TextPlace → List Char → Option (List Char × List Char)
  | _, [] => none
  | .number digits value, c :: rest =>
    match nextDigit? digits value c with
    | some (place, some c) => before c (lineText? place rest)
    | some (place, none) => lineText? place rest
    | none => none
  | .backslash, 'u' :: rest => lineText? (.number 4 0) rest
  | .backslash, 'U' :: rest => lineText? (.number 8 0) rest
  | .backslash, c :: rest =>
    match escaped? c with
    | some c => before c (lineText? .between rest)
    | none => none
  | _, '"' :: rest => some ([], rest)
  | _, '\\' :: rest => lineText? .backslash rest
  | _, c :: rest => if isPlain c then before c (lineText? .between rest) else none

/-- The rest of a text that ends at three double quotes; up to two more belong to the text. Every
    line ending in it counts as a line feed. -/
def blockText? : TextPlace → List Char → Option (List Char × List Char)
  | _, [] => none
  | .number digits value, c :: rest =>
    match nextDigit? digits value c with
    | some (place, some c) => before c (blockText? place rest)
    | some (place, none) => blockText? place rest
    | none => none
  | .backslash, 'u' :: rest => blockText? (.number 4 0) rest
  | .backslash, 'U' :: rest => blockText? (.number 8 0) rest
  | .backslash, '\n' :: rest => blockText? .afterSeam rest
  | .backslash, '\r' :: '\n' :: rest => blockText? .afterSeam rest
  | .backslash, c :: rest =>
    if isBlank c then blockText? .seam rest
    else
      match escaped? c with
      | some c => before c (blockText? .between rest)
      | none => none
  | .seam, '\n' :: rest => blockText? .afterSeam rest
  | .seam, '\r' :: '\n' :: rest => blockText? .afterSeam rest
  | .seam, c :: rest => if isBlank c then blockText? .seam rest else none
  | .afterSeam, ' ' :: rest => blockText? .afterSeam rest
  | .afterSeam, '\t' :: rest => blockText? .afterSeam rest
  | .afterSeam, '\n' :: rest => blockText? .afterSeam rest
  | .afterSeam, '\r' :: '\n' :: rest => blockText? .afterSeam rest
  | _, '"' :: '"' :: '"' :: '"' :: '"' :: rest => some (['"', '"'], rest)
  | _, '"' :: '"' :: '"' :: '"' :: rest => some (['"'], rest)
  | _, '"' :: '"' :: '"' :: rest => some ([], rest)
  | _, '\\' :: rest => blockText? .backslash rest
  | _, '\n' :: rest => before '\n' (blockText? .between rest)
  | _, '\r' :: '\n' :: rest => before '\n' (blockText? .between rest)
  | _, c :: rest => if isPlain c then before c (blockText? .between rest) else none

/-- The rest of a text that ends at a single quote and with its line. -/
def lineLiteral? : List Char → Option (List Char × List Char)
  | [] => none
  | '\'' :: rest => some ([], rest)
  | c :: rest => if isPlain c then before c (lineLiteral? rest) else none

/-- The rest of a text that ends at three single quotes; up to two more belong to the text. -/
def blockLiteral? : List Char → Option (List Char × List Char)
  | [] => none
  | '\'' :: '\'' :: '\'' :: '\'' :: '\'' :: rest => some (['\'', '\''], rest)
  | '\'' :: '\'' :: '\'' :: '\'' :: rest => some (['\''], rest)
  | '\'' :: '\'' :: '\'' :: rest => some ([], rest)
  | '\n' :: rest => before '\n' (blockLiteral? rest)
  | '\r' :: '\n' :: rest => before '\n' (blockLiteral? rest)
  | c :: rest => if isPlain c then before c (blockLiteral? rest) else none

/-- A line ending straight after the three quotes does not belong to the text. -/
def blockStart (cs : List Char) : List Char := (lineEnding? cs).getD cs

/-- A text in quotes of any kind. -/
def text? : List Char → Option (List Char × List Char)
  | '"' :: '"' :: '"' :: rest => blockText? .between (blockStart rest)
  | '"' :: rest => lineText? .between rest
  | '\'' :: '\'' :: '\'' :: rest => blockLiteral? (blockStart rest)
  | '\'' :: rest => lineLiteral? rest
  | _ => none

end ClusterFence.Toml
