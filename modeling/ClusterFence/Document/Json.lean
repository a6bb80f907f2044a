import ClusterFence.Document.Basic

namespace ClusterFence

namespace Document

/-- In JSON a list that stands for a section has no more items than the section has fields. -/
def Convention.json : Convention := { exactLists := true }

/-- The digits of a byte in hexadecimal. -/
def hexByte (n : Nat) : String :=
  String.ofList [Nat.digitChar (n / 16), Nat.digitChar (n % 16)]

/-- A character as it is written between quotes. Control characters have a short form or their
    number; all others stand for themselves. -/
def escapeChar : Char → String
  | '"' => "\\\""
  | '\\' => "\\\\"
  | '\x08' => "\\b"
  | '\x0c' => "\\f"
  | '\n' => "\\n"
  | '\r' => "\\r"
  | '\t' => "\\t"
  | c => if c.toNat < 32 then "\\u00" ++ hexByte c.toNat else c.toString

def quote (s : String) : String := "\"" ++ String.join (s.toList.map escapeChar) ++ "\""

/-- A new line that is `depth` levels in. -/
def newline (depth : Nat) : String := "\n" ++ String.ofList (List.replicate (2 * depth) ' ')

/-- Values between brackets, each on a line of its own. -/
def block (left right : String) (depth : Nat) (items : List String) : String :=
  if items.isEmpty then left ++ right
  else
    left ++ String.intercalate "," (items.map (newline (depth + 1) ++ ·)) ++ newline depth ++ right

mutual

/-- A document `depth` levels in. Moments and decimals are not written. -/
def prettyAt (depth : Nat) : Document → String
  | .null | .decimal | .moment => "null"
  | .boolean b => if b then "true" else "false"
  | .integer n => toString n
  | .text s => quote s
  | .list items => block "[" "]" depth (prettyItems (depth + 1) items)
  | .table fields => block "\x7b" "\x7d" depth (prettyFields (depth + 1) fields)

def prettyItems (depth : Nat) : List Document → List String
  | [] => []
  | d :: rest => prettyAt depth d :: prettyItems depth rest

def prettyFields (depth : Nat) : List (String × Document) → List String
  | [] => []
  | (name, d) :: rest => (quote name ++ ": " ++ prettyAt depth d) :: prettyFields depth rest

end

/-- One value on a line, two more blanks in for each level. An empty list or table stays on its
    line. -/
def pretty (d : Document) : String := d.prettyAt 0

end Document

end ClusterFence
