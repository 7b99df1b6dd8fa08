import Handheld.Pattern.Meaning
import Handheld.Session.Location
import Handheld.Session.Notice
import Handheld.Text.Blank

/-!
# Which notices are logged

A specification tells which notices are logged: directives between commas,
each with a source, a severity or both, as in `warn,dotboy_core=debug`.  The
directive with the longest matching source decides.  A pattern behind a slash
must occur in the text of the notice.
-/

namespace Handheld

/-- How severe a notice must be to be logged; `none` admits no notice. -/
abbrev Threshold := Option Severity

namespace Threshold

/-- The threshold that admits every notice. -/
def all : Threshold := some .trace

/-- The threshold with this name, whatever the case of its letters. -/
def ofName? (name : String) : Option Threshold :=
  match name.map Char.toUpper with
  | "OFF" => some none
  | "ERROR" => some (some .error)
  | "WARN" => some (some .warn)
  | "INFO" => some (some .info)
  | "DEBUG" => some (some .debug)
  | "TRACE" => some (some .trace)
  | _ => none

/-- Whether notices of a severity are admitted. -/
def admits (t : Threshold) (severity : Severity) : Bool :=
  match t with
  | some least => severity.rank ≤ least.rank
  | none => false

end Threshold

/-- A directive: the threshold for the sources that start with a name, or for
all sources. -/
structure Directive where
  source : Option String
  threshold : Threshold
  deriving DecidableEq, Repr, Inhabited

namespace Directive

/-- The length of the name in bytes. -/
def length (d : Directive) : Nat :=
  (d.source.map (·.utf8ByteSize)).getD 0

/-- Whether the directive is about a source. -/
def covers (d : Directive) (source : String) : Bool :=
  match d.source with
  | some name => name.toList.isPrefixOf source.toList
  | none => true

/-- Reads a directive.  What cannot be read is answered as an error. -/
def read (text : String) : Except String Directive :=
  match text.splitOn "=" with
  | [part] =>
    match Threshold.ofName? part with
    | some threshold => .ok ⟨none, threshold⟩
    | none => .ok ⟨some part, .all⟩
  | [name, level] =>
    let level := Text.trim level
    if level.isEmpty then .ok ⟨some name, .all⟩
    else
      match Threshold.ofName? level with
      | some threshold => .ok ⟨some name, threshold⟩
      | none => .error level
  | _ => .error text

end Directive

/-- Which notices are logged. -/
structure LogFilter where
  /-- No two of the directives have the same source. -/
  directives : List Directive := []
  /-- What must occur in the text of a notice. -/
  pattern : Option Pattern.Expression := none
  deriving Repr, Inhabited

namespace LogFilter

/-- Adds a directive, in the place of the one with the same source. -/
def put (directives : List Directive) (d : Directive) : List Directive :=
  match directives with
  | [] => [d]
  | e :: rest => if e.source = d.source then d :: rest else e :: put rest d

/-- The directives of a specification, and the parts that could not be read. -/
def readDirectives (text : String) : List Directive × List String :=
  ((text.splitOn ",").map Text.trim).foldl
    (fun (directives, refused) part =>
      if part.isEmpty then (directives, refused)
      else
        match Directive.read part with
        | .ok d => (put directives d, refused)
        | .error what => (directives, refused ++ [what]))
    ([], [])

/-- Names something that is no specification. -/
def badSpec (text : String) : String :=
  "logging spec '" ++ text ++ "'"

/-- Reads a specification.  Answers also what could not be read. -/
def read (spec : String) : LogFilter × List String :=
  match spec.splitOn "/" with
  | [text] =>
    let (directives, refused) := readDirectives text
    ({ directives }, refused.map badSpec)
  | [text, pattern] =>
    let (directives, refused) := readDirectives text
    match Pattern.Expression.read pattern with
    | .ok e => ({ directives, pattern := some e }, refused.map badSpec)
    | .error why =>
      ({ directives }, refused.map badSpec ++ ["regex filter - " ++ why])
  | _ => ({}, [badSpec spec ++ " (too many '/'s)"])

/-- The text on the parts of a specification that could not be read.  Unlike
notices, it is written as it is. -/
def complain (refused : List String) : String :=
  String.join (refused.map fun what => "warning: invalid " ++ what ++ ", ignoring it\n")

/-- The specification that holds where the environment has none. -/
def defaultSpec : String := "info"

/-- The filter that the environment asks for, and the parts of its specification
that could not be read. -/
def ofEnvironment (env : Environment) : LogFilter × List String :=
  read ((env "RUST_LOG").getD defaultSpec)

/-- The directives that decide: without any, only errors are logged. -/
def effective (f : LogFilter) : List Directive :=
  if f.directives.isEmpty then [⟨none, some .error⟩] else f.directives

/-- The threshold for a source: that of the longest directive about it, and of
directives as long as that the last one. -/
def threshold (f : LogFilter) (source : String) : Threshold :=
  let sorted := f.effective.mergeSort fun d e => d.length ≤ e.length
  match sorted.reverse.find? (·.covers source) with
  | some d => d.threshold
  | none => none

/-- Whether a notice is logged. -/
def heeds (f : LogFilter) (n : SessionNotice) : Bool :=
  (f.threshold n.source).admits n.severity && f.pattern.all (·.occursIn n.text)

/-- Whether any notices for debugging are logged. -/
def heedsDebugging (f : LogFilter) : Bool :=
  f.effective.any (·.threshold.admits .debug)

/-- The log of notices. -/
def log (f : LogFilter) (notices : List SessionNotice) : String :=
  String.join ((notices.filter f.heeds).map (·.entry))

end LogFilter
end Handheld
