import Handheld.Toml.Value

/-!
# Building TOML tables

A document fills its tables statement by statement.  A table can be defined
only once: a header may turn a parent of an earlier header into a table of its
own, a dotted key may extend tables made by dotted keys, and a table between
braces is complete.
-/

namespace Handheld.Toml

/-- A table that is being filled. -/
structure Table where
  origin : Origin
  entries : Entries := []
  deriving Inhabited

/-- The table as a value. -/
def Table.toValue (t : Table) : Value := .table t.origin t.entries

/-- Whether a path may go on into a table.  A dotted key enters no table that
has a header of its own. -/
def Origin.canEnter (byKey : Bool) : Origin → Bool
  | .header => !byKey
  | .parent | .dotted => true
  | .inline => false

/-- The origin of the tables that a path makes on its way. -/
def Origin.onWay (byKey : Bool) : Origin :=
  if byKey then .dotted else .parent

/-- Changes the table at the end of a path, making the tables that are missing
on the way.  `byKey` tells the path of a dotted key from that of a header.  A
path through an array of tables goes through its last table. -/
def Table.change (byKey : Bool) (path : List String) (f : Table → Option Table) (t : Table) :
    Option Table :=
  match path with
  | [] => f t
  | key :: path => do
    let entries := t.entries
    match entries.find? key with
    | none =>
      let child ← Table.change byKey path f { origin := .onWay byKey }
      return { t with entries := entries.put key child.toValue }
    | some (.table origin inner) =>
      guard (origin.canEnter byKey)
      let child ← Table.change byKey path f { origin, entries := inner }
      return { t with entries := entries.put key child.toValue }
    | some (.tables items) =>
      let last ← items.getLast?
      let child ← Table.change byKey path f { origin := .header, entries := last }
      return { t with entries := entries.put key (.tables (items.dropLast ++ [child.entries])) }
    | some _ => none

/-- Adds a new key to a table. -/
def Table.addNew (key : String) (value : Value) (t : Table) : Option Table := do
  guard ((t.entries.find? key).isNone)
  return { t with entries := t.entries.put key value }

/-- Adds the value of a dotted key to a table.  The table that the last part of
the key falls into must have been made by dotted keys, if there are parts
before it. -/
def Table.addKey (keys : List String) (value : Value) (t : Table) : Option Table := do
  let key ← keys.getLast?
  let path := keys.dropLast
  t.change true path fun inner => do
    guard ((inner.origin = .dotted) = !path.isEmpty)
    inner.addNew key value

/-- Defines the table of a header. -/
def Table.defineTable (keys : List String) (t : Table) : Option Table := do
  let key ← keys.getLast?
  t.change false keys.dropLast fun inner =>
    match inner.entries.find? key with
    | none => inner.addNew key (.table .header [])
    | some (.table .parent entries) =>
      some { inner with entries := inner.entries.put key (.table .header entries) }
    | some _ => none

/-- Adds a table to the array of tables of a header. -/
def Table.appendTable (keys : List String) (t : Table) : Option Table := do
  let key ← keys.getLast?
  t.change false keys.dropLast fun inner =>
    match inner.entries.find? key with
    | none => inner.addNew key (.tables [[]])
    | some (.tables items) =>
      some { inner with entries := inner.entries.put key (.tables (items ++ [[]])) }
    | some _ => none

/-- Adds the value of a dotted key to the table of a header. -/
def Table.addUnder (header keys : List String) (value : Value) (t : Table) : Option Table :=
  t.change false header (·.addKey keys value)

end Handheld.Toml
