import ClusterFence.Document.Basic

namespace ClusterFence.Toml

/-- How a table has come into being: by its header, on the way to another table, or by a key with
    dots in it. This decides who may add to it later: a header may be given to a table that so far
    was only passed on the way, and fields go to the table under whose header they stand and, by
    dotted keys, to tables that dotted keys have made. -/
inductive Origin where
  | header
  | passed
  | dotted
deriving DecidableEq, Repr, Inhabited

/-- What a table has under a name: a value, a table, or a row of tables, of which the last one is
    still open. -/
inductive Entry where
  | value (d : Document)
  | table (origin : Origin) (fields : List (String × Entry))
  | tables (closed : List Document) (last : List (String × Entry))
deriving Inhabited

/-- The fields of a table. -/
abbrev Fields := List (String × Entry)

mutual

/-- An entry to which nothing is added any more. -/
def Entry.toDocument : Entry → Document
  | .value d => d
  | .table _ fields => .table (documentFields fields)
  | .tables closed last => .list (closed ++ [.table (documentFields last)])

/-- Fields to which nothing is added any more. -/
def documentFields : List (String × Entry) → List (String × Document)
  | [] => []
  | (name, e) :: rest => (name, e.toDocument) :: documentFields rest

end

namespace Fields

/-- Gives a name another entry. A new name comes last. -/
def put (name : String) (e : Entry) : Fields → Fields
  | [] => [(name, e)]
  | (other, old) :: rest =>
    if other == name then (other, e) :: rest else (other, old) :: put name e rest

/-- Changes the table at the end of a path, where a row of tables stands for its last one. Tables
    that are missing come into being with origin `missing`. Dotted keys do not go through a table
    that has a header of its own. -/
def changeAt (missing : Origin) (change : Origin → Fields → Option Fields) :
    List String → Origin → Fields → Option Fields
  | [], origin, fields => change origin fields
  | name :: path, _, fields =>
    let found? : Option Entry :=
      match fields.lookup name with
      | none => (changeAt missing change path missing []).map (.table missing)
      | some (.value _) => none
      | some (.table origin inner) =>
        if missing == .dotted && origin == .header then none
        else (changeAt missing change path origin inner).map (.table origin)
      | some (.tables closed last) =>
        (changeAt missing change path .header last).map (.tables closed)
    found?.map fun e => fields.put name e

/-- Gives a table a field by a key, which is a path and a name. Names are given once. -/
def assign? (key : List String) (d : Document) (fields : Fields) : Option Fields := do
  let name ← key.getLast?
  let path := key.dropLast
  let change (origin : Origin) (fields : Fields) : Option Fields :=
    if (origin == .dotted) == path.isEmpty || (fields.lookup name).isSome then none
    else some (fields.put name (.value d))
  changeAt .dotted change path .header fields

/-- Gives a field to the table with a header. -/
def assignUnder? (header key : List String) (d : Document) (fields : Fields) : Option Fields :=
  changeAt .passed (fun _ fields => fields.assign? key d) header .header fields

/-- Opens the table with a header. -/
def openTable? (header : List String) (fields : Fields) : Option Fields := do
  let name ← header.getLast?
  let change (_ : Origin) (fields : Fields) : Option Fields :=
    match fields.lookup name with
    | none => some (fields.put name (.table .header []))
    | some (.table .passed inner) => some (fields.put name (.table .header inner))
    | _ => none
  changeAt .passed change header.dropLast .header fields

/-- Opens one more table in the row with a header. -/
def openNext? (header : List String) (fields : Fields) : Option Fields := do
  let name ← header.getLast?
  let change (_ : Origin) (fields : Fields) : Option Fields :=
    match fields.lookup name with
    | none => some (fields.put name (.tables [] []))
    | some (.tables closed last) =>
      some (fields.put name (.tables (closed ++ [.table (documentFields last)]) []))
    | _ => none
  changeAt .passed change header.dropLast .header fields

/-- The table of these fields. -/
def toDocument (fields : Fields) : Document := .table (documentFields fields)

end Fields

end ClusterFence.Toml
