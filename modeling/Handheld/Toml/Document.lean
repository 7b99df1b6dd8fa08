import Handheld.Toml.Quoted
import Handheld.Toml.Scalar
import Handheld.Toml.Table

/-!
# TOML documents

Reading a document in the TOML format, version 1.1.  A document is a sequence
of statements, each on a line of its own: a key with its value, the header of
a table, or the header of one more table in an array of tables.
-/

namespace Handheld.Toml

/-- A reader takes a part off the front of the characters. -/
abbrev Reader (α : Type) := List Char → Option (α × List Char)

/-! ## Between the parts -/

/-- Without spaces at the start. -/
def skipSpaces (cs : List Char) : List Char := cs.dropWhile isSpace

/-- Without spaces, line breaks and comments at the start.  `comment` says that
a comment has begun. -/
def skipFiller : (comment : Bool) → List Char → List Char
  | _, [] => []
  | _, '\n' :: rest => skipFiller false rest
  | _, '\r' :: '\n' :: rest => skipFiller false rest
  | comment, c :: rest =>
    if comment then (if isTextual c then skipFiller true rest else c :: rest)
    else if isSpace c then skipFiller false rest
    else if c = '#' then skipFiller true rest
    else c :: rest

/-- The characters behind the end of a line.  Spaces and a comment may stand
before it. -/
def afterLine? (cs : List Char) : Option (List Char) :=
  let rest := match skipSpaces cs with
    | '#' :: rest => rest.dropWhile isTextual
    | rest => rest
  if rest.isEmpty then some [] else afterBreak? rest

/-! ## Values -/

/-- The items of an array up to its end.  `fuel` bounds their number. -/
def readItems (item : Reader Value) : (fuel : Nat) → Reader (List Value)
  | 0, _ => none
  | fuel + 1, cs =>
    match skipFiller false cs with
    | ']' :: rest => some ([], rest)
    | cs => do
      let (value, rest) ← item cs
      match skipFiller false rest with
      | ',' :: rest =>
        let (values, rest) ← readItems item fuel rest
        return (value :: values, rest)
      | ']' :: rest => return ([value], rest)
      | _ => none

/-- A key and its value.  `skip` passes over what may stand between them. -/
def readPair (skip : List Char → List Char) (item : Reader Value) :
    Reader (List String × Value) := fun cs => do
  let (keys, rest) ← readKey? cs
  let (value, rest) ← item (skip (← expect? '=' (skip rest)))
  return ((keys, value), rest)

/-- The pairs of a table between braces up to its end, which may follow a comma.
`fuel` bounds their number. -/
def readPairs (item : Reader Value) : (fuel : Nat) → Table → Reader Table
  | 0, _, _ => none
  | fuel + 1, table, cs =>
    match skipFiller false cs with
    | '}' :: rest => some (table, rest)
    | cs => do
      let ((keys, value), rest) ← readPair (skipFiller false) item cs
      let table ← table.addKey keys value
      match skipFiller false rest with
      | ',' :: rest => readPairs item fuel table rest
      | '}' :: rest => return (table, rest)
      | _ => none

/-- A table between braces, behind the opening one. -/
def readInline (item : Reader Value) : Reader Value := fun cs =>
  (readPairs item (cs.length + 1) { origin := .inline } cs).map
    fun (table, rest) => (table.toValue, rest)

/-- A string or a value without delimiters. -/
def readPlain : Reader Value := fun cs =>
  match cs with
  | '"' :: _ | '\'' :: _ => (readString? cs).map fun (text, rest) => (.string text, rest)
  | cs => readScalar? cs

/-- A value.  Arrays and tables nest at most `depth` deep. -/
def readValue : (depth : Nat) → Reader Value
  | 0 => readPlain
  | depth + 1 => fun cs =>
    match cs with
    | '[' :: rest =>
      (readItems (readValue depth) rest.length rest).map
        fun (values, rest) => (.array values, rest)
    | '\x7b' :: rest => readInline (readValue depth) rest
    | cs => readPlain cs

/-- How deep arrays and tables may nest. -/
def maxDepth : Nat := 80

/-! ## Statements -/

/-- A statement. -/
inductive Statement where
  | pair (keys : List String) (value : Value)
  | table (keys : List String)
  | tableItem (keys : List String)

/-- Reads a statement. -/
def readStatement : Reader Statement := fun cs =>
  match cs with
  | '[' :: '[' :: rest => do
    let (keys, rest) ← readKey? rest
    let rest ← expect? ']' rest
    return (.tableItem keys, ← expect? ']' rest)
  | '[' :: rest => do
    let (keys, rest) ← readKey? rest
    return (.table keys, ← expect? ']' rest)
  | cs => (readPair skipSpaces (readValue maxDepth) cs).map
      fun ((keys, value), rest) => (.pair keys value, rest)

/-- A document up to some point: the tables so far, and the last header. -/
structure Progress where
  root : Table := { origin := .header }
  header : List String := []

/-- Takes in a statement. -/
def Progress.add (p : Progress) : Statement → Option Progress
  | .pair keys value =>
    (p.root.addUnder p.header keys value).map fun root => { p with root }
  | .table keys => (p.root.defineTable keys).map fun root => { root, header := keys }
  | .tableItem keys => (p.root.appendTable keys).map fun root => { root, header := keys }

/-- Reads the statements.  `fuel` bounds their number. -/
def readStatements : (fuel : Nat) → Progress → List Char → Option Progress
  | 0, _, _ => none
  | fuel + 1, progress, cs =>
    match skipFiller false cs with
    | [] => some progress
    | cs => do
      let (statement, rest) ← readStatement cs
      readStatements fuel (← progress.add statement) (← afterLine? rest)

/-- Reads a document.  A byte order mark at its start is passed over. -/
def readDocument? (text : String) : Option Entries :=
  let cs := match text.toList with
    | '\uFEFF' :: rest => rest
    | cs => cs
  (readStatements (cs.length + 1) {} cs).map (·.root.entries)

end Handheld.Toml
