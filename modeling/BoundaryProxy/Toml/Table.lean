import BoundaryProxy.Document.Basic

/-!
# `BoundaryProxy.Toml.Table` — tables built up statement by statement

A table of a TOML text may be built up by several statements, but by each in its own way and once: a table
with a header of its own cannot get a second one, nor new keys through a dotted key; a table that dotted keys
made cannot get a header; what is written between braces or brackets is finished. A table that only stands
on the way to another one is still open for a header of its own.
-/

namespace BoundaryProxy.Toml

/-- How a table came to be. -/
inductive Origin where
  /-- It has a header, or it is the root. -/
  | header
  /-- It stands on the way to a table with a header. -/
  | passage
  /-- A dotted key made it. -/
  | dotted
deriving Repr, DecidableEq

/-- What a key of a table leads to. -/
inductive Node where
  | value (d : Document)
  | table (origin : Origin) (entries : List (String × Node))
  /-- An array of tables, the newest first. -/
  | elements (tables : List (List (String × Node)))
deriving Inhabited

/-- The keys of a table and what they lead to. -/
abbrev Table := List (String × Node)

/-- The table with a key leading somewhere else. -/
def setKey (key : String) (node : Node) : Table → Table
  | [] => [(key, node)]
  | (k, n) :: rest => if k = key then (key, node) :: rest else (k, n) :: setKey key node rest

/-- Change the table at the end of a path. Tables missing on the way are made, dotted or as passages; a path
    through an array of tables goes through its newest element. -/
def updateAt (byDots : Bool) (change : Origin → Table → Option Table) (origin : Origin) :
    List String → Table → Option Table
  | [], t => change origin t
  | key :: path, t =>
    let fresh := if byDots then Origin.dotted else Origin.passage
    match t.lookup key with
    | none => do
      let inner ← updateAt byDots change fresh path []
      return setKey key (.table fresh inner) t
    | some (.value _) => none
    | some (.elements []) => none
    | some (.elements (newest :: older)) => do
      let inner ← updateAt byDots change .header path newest
      return setKey key (.elements (inner :: older)) t
    | some (.table made inner) =>
      if byDots && made == .header then none
      else do
        let inner ← updateAt byDots change made path inner
        return setKey key (.table made inner) t

/-- Add a pair to the table it belongs to: the one it stands in, or one that dotted keys made. -/
def addPair (path : List String) (value : Document) (t : Table) : Option Table :=
  match path.getLast? with
  | none => none
  | some key =>
    updateAt true (fun origin inner =>
        if (origin == .dotted) == path.dropLast.isEmpty || (inner.lookup key).isSome then none
        else some (setKey key (.value value) inner))
      .header path.dropLast t

/-- The pairs of a section added to its table one after another. -/
def addPairs (pairs : List (List String × Document)) (t : Table) : Option Table :=
  pairs.foldlM (fun t (path, value) => addPair path value t) t

/-- Add the section of a table with a header. -/
def addTable (path : List String) (pairs : List (List String × Document)) (root : Table) : Option Table :=
  match path.getLast? with
  | none => none
  | some key =>
    updateAt false (fun _ parent =>
        match parent.lookup key with
        | none => do return setKey key (.table .header (← addPairs pairs [])) parent
        | some (.table .passage inner) => do
          return setKey key (.table .header (← addPairs pairs inner)) parent
        | some _ => none)
      .header path.dropLast root

/-- Add the section of one more element of an array of tables. -/
def addElement (path : List String) (pairs : List (List String × Document)) (root : Table) :
    Option Table :=
  match path.getLast? with
  | none => none
  | some key =>
    updateAt false (fun _ parent =>
        match parent.lookup key with
        | none => do return setKey key (.elements [← addPairs pairs []]) parent
        | some (.elements tables) => do
          return setKey key (.elements ((← addPairs pairs []) :: tables)) parent
        | some _ => none)
      .header path.dropLast root

mutual

/-- What a key leads to, as a document. -/
def Node.document : Node → Document
  | .value d => d
  | .table _ entries => .record (entriesDocument entries)
  | .elements tables => .list (elementsDocument tables).reverse

/-- The fields of a table. -/
def entriesDocument : List (String × Node) → List (Option String × Document)
  | [] => []
  | (key, node) :: rest => (some key, node.document) :: entriesDocument rest

/-- The elements of an array of tables, in the order in which they are kept. -/
def elementsDocument : List (List (String × Node)) → List Document
  | [] => []
  | t :: rest => .record (entriesDocument t) :: elementsDocument rest

end

/-- A table as a document. -/
def tableDocument (t : Table) : Document :=
  .record (entriesDocument t)

end BoundaryProxy.Toml
