import Handheld.Image.Png
import Handheld.Session.Pacer
import Handheld.Session.Program

/-!
# The command

Runs the program in the real world.  Files are read and written, typed lines
are read by a thread of their own, and notices go to the standard error output.
-/

namespace Handheld.Command

/-! ## Files -/

/-- Why a file could not be used.  Some calls answer the number of the reason,
others its negative. -/
def reasonOf (code : UInt32) (reason : String) : FileError :=
  .ofCode (if code < 0x80000000 then code else -code).toNat reason

/-- Why a file could not be used. -/
def fileError : IO.Error → FileError
  | .noFileOrDirectory _ code reason => reasonOf code reason
  | .permissionDenied _ code reason => reasonOf code reason
  | .inappropriateType _ code reason => reasonOf code reason
  | .invalidArgument _ code reason => reasonOf code reason
  | .resourceExhausted _ code reason => reasonOf code reason
  | .noSuchThing _ code reason => reasonOf code reason
  | .resourceBusy code reason => reasonOf code reason
  | .otherError code reason => reasonOf code reason
  | error => .other 5 (toString error)

/-- Runs an action on files. -/
def withFiles {α : Type} (action : IO α) : IO (Except FileError α) := do
  match ← action.toBaseIO with
  | .ok result => return .ok result
  | .error error => return .error (fileError error)

/-- Reads a file. -/
def readFile (path : String) : IO FileContents :=
  if path.contains (Char.ofNat 0) then return .error .malformedName
  else withFiles do return (← IO.FS.readBinFile path).data

/-- Writes a file. -/
def writeFile (path : String) (bytes : Array UInt8) : IO (Except FileError Unit) :=
  if path.contains (Char.ofNat 0) then return .error .malformedName
  else withFiles (IO.FS.writeBinFile path ⟨bytes⟩)

/-- The environment, as far as the program looks at it. -/
def readEnvironment : IO Environment := do
  let names := ["XDG_CONFIG_HOME", "HOME", "APPDATA", "RUST_LOG"]
  let values ← names.mapM fun name => return (name, ← IO.getEnv name)
  return fun name => (values.lookup name).join

/-! ## Reports -/

/-- Logs notices. -/
def log (filter : LogFilter) (notices : List SessionNotice) : IO Unit :=
  IO.eprint (filter.log notices)

/-- Passes reports on. -/
def tell (filter : LogFilter) (reports : List Report) : IO Unit :=
  reports.forM fun
    | .notice n => log filter [n]
    | .line text => IO.println text

/-! ## Typed commands -/

/-- The events that were typed and not taken yet, as long as they are wanted. -/
abbrev Typing := IO.Ref (Option (List ButtonEvent))

/-- Takes in a typed line. -/
def takeLine (filter : LogFilter) (typing : Typing) (line : String) : IO Unit :=
  match TypedLine.read line with
  | .empty => return
  | .command event => typing.modify (·.map (· ++ [event]))
  | .unrecognized line => log filter [.unknownCommand line]

/-- Reads lines as long as there are any and events are wanted. -/
partial def readLines (filter : LogFilter) (typing : Typing) : IO Unit := do
  let line ← (← IO.getStdin).getLine
  if line.isEmpty then log filter [.typingEnded]
  else if (← typing.get).isSome then
    takeLine filter typing line
    readLines filter typing

/-- Begins to read lines. -/
def startTyping (filter : LogFilter) : IO Typing := do
  let typing ← IO.mkRef (some [])
  let _ ← IO.asTask (readLines filter typing) .dedicated
  return typing

/-- Takes the events that were typed. -/
def takeEvents (typing : Typing) : IO (List ButtonEvent) :=
  typing.modifyGet fun events => (events.getD [], events.map fun _ => [])

/-! ## Frames -/

/-- Waits for the deadline of a picture. -/
def keepPace (pacer : Pacer) : IO Pacer := do
  let (time, pacer) := pacer.wait (← IO.monoNanosNow)
  IO.sleep ((time + 999999) / 1000000).toUInt32
  return pacer

/-- Runs a frame with the events that were typed, and passes its reports on. -/
def runFrame (filter : LogFilter) (plan : Plan) (typing : Option Typing) (s : Session) :
    IO Session := do
  let events ← match typing with
    | some typing => takeEvents typing
    | none => pure []
  let s := s.addTyped events
  let next := s.frame
  tell filter (Session.frameReports filter plan.debug s next)
  return next

/-- Runs frames until a limit is reached, at most `fuel` frames. -/
def runFrames (filter : LogFilter) (plan : Plan) (typing : Option Typing) :
    (fuel : Nat) → Pacer → Session → IO Session
  | 0, _, s => return s
  | fuel + 1, pacer, s => do
    let next ← runFrame filter plan typing s
    let shown := next.presented ≠ s.presented
    let pacer ← if plan.pace && shown then keepPace pacer else pure pacer
    if next.isOver plan.limits then return next
    else runFrames filter plan typing fuel pacer next

/-! ## The command -/

/-- Saves the last picture where the plan asks for it. -/
def save (filter : LogFilter) (plan : Plan) (s : Session) : IO ExitStatus := do
  match plan.screenshot with
  | none => return .success
  | some path =>
    match ← writeFile path (Png.encode s.raster) with
    | .ok () =>
      log filter [.screenshotSaved path]
      return .success
    | .error cause =>
      log filter [.screenshotFailed path cause]
      return .failure

/-- Carries out a plan. -/
def carryOut (filter : LogFilter) (plan : Plan) : IO ExitStatus := do
  let files := { rom := ← readFile plan.rom, bootRom := ← plan.bootRom.mapM readFile }
  log filter (plan.startNotices files)
  match plan.start files with
  | .error _ => return .failure
  | .ok session =>
    let typing ← if plan.typed then some <$> startTyping filter else pure none
    let final ← runFrames filter plan typing plan.limits.mostFrames {} session
    typing.forM (·.set none)
    log filter [final.finishedNotice]
    save filter plan final

/-- Carries out arguments. -/
def runArguments (arguments : Arguments) : IO ExitStatus := do
  let env ← readEnvironment
  let (filter, refused) := LogFilter.ofEnvironment env
  IO.eprint (LogFilter.complain refused)
  let path := arguments.settingsPath env
  let (settings, opening) := Settings.accept path (Settings.ofFile? (← readFile path))
  log filter opening
  carryOut filter (arguments.plan settings)

end Handheld.Command

open Handheld in
/-- The command. -/
def main (arguments : List String) : IO UInt32 := do
  match Arguments.read arguments with
  | .error refusal =>
    let outcome := refusal.outcome
    outcome.printed.forM (IO.println ·)
    IO.eprint outcome.logged
    return outcome.status.code.toUInt32
  | .ok arguments =>
    let status ← Command.runArguments arguments
    return status.code.toUInt32
