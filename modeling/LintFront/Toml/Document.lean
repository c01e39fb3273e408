import LintFront.Toml.Defect
import LintFront.Value
/-!
# Building the tables of a document

A document builds nested tables, and each table may be built in one way only: a table that was
declared may not be declared again, one that was written out as a value may not be added to, and one
that dotted keys opened may not be declared later on. Two lists of keys record this besides the
data: the keys that are *declared*, and the keys whose value is *frozen* with all below it.

Dotted keys open tables for the part of the document they stand in. That part may add to them
freely, so they count as declared only from the next header on; until then they are *pending*.
-/

namespace LintFront.Toml

/-- A key from the root of a document. -/
abbrev Key := List String

/-- A document that has been read in part. -/
structure Document where
  data : Entries Value := []
  declared : List Key := []
  frozen : List Key := []
  pending : List Key := []

/-- Does a key lead through a value, or to a table it must not change? -/
inductive Clash where
  | overwrite
  | duplicate (name : String)

/-- Changes the table at a key with `f`. Tables that are missing on the way are made. Through an
array of tables the way goes by its last table, where `arrays` allows that. -/
def within (arrays : Bool) (f : Entries Value → Except Clash (Entries Value)) :
    Key → Entries Value → Except Clash (Entries Value)
  | [], table => f table
  | name :: rest, table =>
    match table.find? name with
    | none => (within arrays f rest []).map fun sub => table.insert name (.table sub)
    | some (.table sub) =>
      (within arrays f rest sub).map fun sub => table.insert name (.table sub)
    | some (.list items) =>
      if arrays then
        match items.getLast? with
        | some (.table sub) =>
          (within arrays f rest sub).map fun sub =>
            table.insert name (.list (items.dropLast ++ [.table sub]))
        | _ => .error .overwrite
      else .error .overwrite
    | some _ => .error .overwrite

/-- Adds a new entry to a table. -/
def addNew (name : String) (value : Value) (table : Entries Value) :
    Except Clash (Entries Value) :=
  if table.has name then .error (.duplicate name) else .ok (table.insert name value)

/-- Adds an empty table to the array `name` of a table; the array is made if it is missing. -/
def extendArray (name : String) (table : Entries Value) : Except Clash (Entries Value) :=
  match table.find? name with
  | none => .ok (table.insert name (.list [.table []]))
  | some (.list items) => .ok (table.insert name (.list (items ++ [.table []])))
  | some _ => .error .overwrite

namespace Document

/-- Is the key, or one above it, frozen? -/
def isFrozen (frozen : List Key) (key : Key) : Bool :=
  key ≠ [] && frozen.any fun f => f.isPrefixOf key

/-- Ends the part of a document in which dotted keys may add to the tables they opened. -/
def endPart (doc : Document) : Document :=
  { doc with declared := doc.pending ++ doc.declared, pending := [] }

/-- Declares the table at a key. -/
def declare (doc : Document) (key : Key) : Except Cause Document :=
  if doc.declared.contains key || isFrozen doc.frozen key then .error (.declaredTwice key)
  else
    match within true .ok key doc.data with
    | .error _ => .error .overwritten
    | .ok data => .ok { doc with data := data, declared := key :: doc.declared }

/-- Adds a table to the array of tables at a key. What was declared or frozen below the key was so
for the table before. -/
def declareArray (doc : Document) (key : Key) : Except Cause Document :=
  if isFrozen doc.frozen key then .error (.immutable key)
  else
    let below (k : Key) : Bool := key.isPrefixOf k
    match within true (extendArray (key.getLast?.getD "")) key.dropLast doc.data with
    | .error _ => .error .overwritten
    | .ok data =>
      .ok { doc with
        data := data
        declared := key :: doc.declared.filter fun k => !below k
        frozen := doc.frozen.filter fun k => !below k }

/-- The keys of the tables that a dotted key opens below a header. -/
def opened (header key : Key) : List Key :=
  (List.range (key.length - 1)).map fun i => header ++ key.take (i + 1)

/-- Gives the value to a dotted key below a header. -/
def assign (doc : Document) (header key : Key) (value : Value) : Except Cause Document :=
  match (opened header key).find? doc.declared.contains with
  | some k => .error (.redefined k)
  | none =>
    let parent := header ++ key.dropLast
    if isFrozen doc.frozen parent then .error (.immutable parent)
    else
      match within true (addNew (key.getLast?.getD "") value) parent doc.data with
      | .error _ => .error .overwritten
      | .ok data =>
        let frozen := match value with
          | .table _ | .list _ => (header ++ key) :: doc.frozen
          | _ => doc.frozen
        .ok { doc with data := data, frozen := frozen, pending := opened header key ++ doc.pending }

end Document

/-- Gives a value to a dotted key in a table that is written out on one line; `frozen` are the keys
of tables and arrays in it. -/
def assignInline (frozen : List Key) (table : Entries Value) (key : Key) (value : Value) :
    Except Cause (Entries Value) :=
  if Document.isFrozen frozen key then .error (.immutable key)
  else
    match within false (addNew (key.getLast?.getD "") value) key.dropLast table with
    | .error .overwrite => .error .overwritten
    | .error (.duplicate name) => .error (.duplicateKey name)
    | .ok table => .ok table

end LintFront.Toml
