namespace ClusterFence

/-- A value in a document. A moment is a date or a time of day, and a decimal a number that was
    not written as an integer. -/
inductive Document where
  | null
  | boolean (value : Bool)
  | integer (value : Int)
  | decimal
  | moment
  | text (value : String)
  | list (items : List Document)
  | table (fields : List (String × Document))
deriving Inhabited

namespace Document

/-- How a notation fits documents to sections: whether a list may go on after the last field. -/
structure Convention where
  exactLists : Bool
deriving DecidableEq, Repr, Inhabited

/-- The values of a section's fields, in the order of their names. A moment has none of them. -/
def fields? (conv : Convention) (names : List String) : Document → Option (List (Option Document))
  | .table fields => some (names.map fun name => fields.lookup name)
  | .list items =>
    if conv.exactLists && names.length < items.length then none
    else some (names.mapIdx fun i _ => items[i]?)
  | .moment => some (names.map fun _ => none)
  | _ => none

def text? : Document → Option String
  | .text s => some s
  | _ => none

def boolean? : Document → Option Bool
  | .boolean b => some b
  | _ => none

def list? : Document → Option (List Document)
  | .list items => some items
  | _ => none

/-- An integer from `lo` to `hi`. -/
def integer? (lo hi : Int) : Document → Option Int
  | .integer n => if lo ≤ n && n ≤ hi then some n else none
  | _ => none

def uint32? (d : Document) : Option UInt32 :=
  (d.integer? 0 (UInt32.size - 1)).map fun n => UInt32.ofNat n.toNat

def uint64? (d : Document) : Option UInt64 :=
  (d.integer? 0 (UInt64.size - 1)).map fun n => UInt64.ofNat n.toNat

def int32? (d : Document) : Option Int32 :=
  (d.integer? Int32.minValue.toInt Int32.maxValue.toInt).map Int32.ofInt

/-- A text, or no value at all where the notation can say so. -/
def optionalText? : Document → Option (Option String)
  | .null => some none
  | .text s => some (some s)
  | _ => none

/-- Reads a field that may be left out. -/
def orDefault {α : Type} (default : α) (read : Document → Option α) :
    Option Document → Option α
  | none => some default
  | some d => read d

end Document

end ClusterFence
