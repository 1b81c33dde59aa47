/-!
# TOML documents

The values of a configuration file. A document is put together from sections,
each a table that is named by a header and filled with pairs of a dotted key
and a value. A table remembers how it came about, since that says what may
still be added to it.

* `Toml` — a value.
* `Toml.ofSections?` — the members of the document that some sections make up.
-/

namespace ContentBlocking

/-- How a table came about. -/
inductive Toml.Origin where
  /-- It stands in braces and is complete. -/
  | inline
  /-- It has a header. -/
  | header
  /-- It is only named on the way to a table with a header. -/
  | implied
  /-- It is only named in the dotted key of a pair. -/
  | dotted
  deriving Repr, DecidableEq

/-- A value of a configuration file. -/
inductive Toml where
  | str (s : String)
  | int (n : Int)
  | float
  | bool (b : Bool)
  | dateTime
  | array (items : List Toml)
  | table (origin : Toml.Origin) (fields : List (String × Toml))
  /-- Tables with one header each, all of the same name. -/
  | tables (all : List (List (String × Toml)))
  deriving Repr

namespace Toml

/-- The members of a table. -/
abbrev Fields := List (String × Toml)

namespace Fields

/-- The value of a key. -/
def get? (fields : Fields) (key : String) : Option Toml := fields.lookup key

/-- Puts a value in the place of the one with the same key, or at the end. -/
def set (fields : Fields) (key : String) (value : Toml) : Fields :=
  match fields with
  | [] => [(key, value)]
  | (k, v) :: rest => if k == key then (key, value) :: rest else (k, v) :: set rest key value

/-- Changes the table at the end of a path, which `change` is told the origin
    of. Tables that are missing are made; a path goes through the last of
    several tables of one name, and not into a complete value. The path of a
    dotted key (`dotted`) goes through no table that has a header. -/
def update? (dotted : Bool) (change : Origin → Fields → Option Fields) (origin : Origin)
    (fields : Fields) : (path : List String) → Option Fields
  | [] => change origin fields
  | key :: path =>
    match fields.get? key with
    | none =>
      let made := if dotted then Origin.dotted else Origin.implied
      (update? dotted change made [] path).map fun inner => fields.set key (.table made inner)
    | some (.table inner fs) =>
      if inner = .inline ∨ (dotted ∧ inner = .header) then none
      else (update? dotted change inner fs path).map fun fs => fields.set key (.table inner fs)
    | some (.tables all) =>
      match all.getLast? with
      | none => none
      | some last =>
        (update? dotted change .header last path).map fun last =>
          fields.set key (.tables (all.dropLast ++ [last]))
    | some _ => none

/-- Adds a pair of a dotted key and a value. The key must be new, and a table
    that the dots lead to must not have come about otherwise. -/
def insert? (fields : Fields) (path : List String) (key : String) (value : Toml) : Option Fields :=
  update? true (fun origin inner =>
    if (path ≠ [] ∧ origin ≠ .dotted) ∨ (inner.get? key).isSome then none
    else some (inner.set key value)) .header fields path

end Fields

/-- A pair of a dotted key, in its parts, and a value. -/
structure Pair where
  path : List String
  key : String
  value : Toml
  deriving Repr

/-- Adds some pairs. -/
def addPairs? (fields : Fields) (pairs : List Pair) : Option Fields :=
  pairs.foldlM (fun fields p => fields.insert? p.path p.key p.value) fields

/-- What a header names: a table, or one more of several tables. -/
inductive Header where
  | single (path : List String) (key : String)
  | several (path : List String) (key : String)
  deriving Repr, DecidableEq

/-- A header with the pairs that follow it. -/
structure Section where
  header : Header
  pairs : List Pair
  deriving Repr

/-- Adds a section. Its table must be new, or have been named only on the way
    to another one. -/
def addSection? (fields : Fields) (s : Section) : Option Fields :=
  match s.header with
  | .single path key =>
    fields.update? false (fun _ inner =>
      match inner.get? key with
      | none => (addPairs? [] s.pairs).map fun made => inner.set key (.table .header made)
      | some (.table .implied named) =>
        (addPairs? named s.pairs).map fun made => inner.set key (.table .header made)
      | some _ => none) .header path
  | .several path key =>
    fields.update? false (fun _ inner =>
      match inner.get? key with
      | none => (addPairs? [] s.pairs).map fun made => inner.set key (.tables [made])
      | some (.tables all) =>
        (addPairs? [] s.pairs).map fun made => inner.set key (.tables (all ++ [made]))
      | some _ => none) .header path

/-- The members of the document with the given pairs and, after them,
    sections. -/
def ofSections? (pairs : List Pair) (sections : List Section) : Option Fields := do
  let top ← addPairs? [] pairs
  sections.foldlM addSection? top

end Toml

end ContentBlocking
