import Handheld.Image.Raster
import Handheld.Session.Plan
import Handheld.Session.Report

/-!
# The program

The whole program as a function: from its arguments, its environment, the
files that it finds and the lines that are typed, to what it prints, logs and
saves.
-/

namespace Handheld

/-- What a program finds. -/
structure Surroundings where
  arguments : List String
  environment : Environment
  /-- The contents of the file at a path. -/
  read : String → FileContents
  /-- Whether a file can be created at a path. -/
  create : String → Except FileError Unit
  /-- All lines that will be typed; they are there from the start. -/
  typed : List String := []

/-- How a program ends. -/
inductive ExitStatus where
  | success
  | failure
  | misuse
  deriving DecidableEq, Repr, Inhabited

/-- The number of the status. -/
def ExitStatus.code : ExitStatus → Nat
  | success => 0
  | failure => 1
  | misuse => 2

/-- What a program does. -/
structure Outcome where
  status : ExitStatus
  /-- The lines that are printed. -/
  printed : List String := []
  /-- The log. -/
  logged : String := ""
  /-- The picture that is saved, and its path. -/
  saved : Option (String × Raster) := none

/-! ## Stages -/

/-- What is done when the arguments are not carried out. -/
def Refusal.outcome : Refusal → Outcome
  | .helpWanted => { status := .success, printed := Arguments.help }
  | refusal => {
      status := .misuse
      logged := "error: " ++ refusal.message ++ "\n\nFor more information, try '--help'.\n" }

/-- The notices on typed lines, and on the end of typing. -/
def TypedLine.notices (lines : List TypedLine) : List SessionNotice :=
  lines.filterMap (fun
    | .unrecognized line => some (.unknownCommand line)
    | _ => none) ++ [.typingEnded]

/-- The last picture of a session; before the first one it is black. -/
def Session.raster (s : Session) : Raster :=
  (s.shown.map (·.picture.raster)).getD .black

/-- The settings that hold, and the notice on a file that was refused. -/
def Settings.accept (path : String) (settings : Option Settings) :
    Settings × List SessionNotice :=
  match settings with
  | some settings => (settings, [])
  | none => ({}, [.settingsRefused path])

/-- The files of a plan. -/
def Surroundings.filesOf (here : Surroundings) (p : Plan) : PlanFiles where
  rom := here.read p.rom
  bootRom := p.bootRom.map here.read

/-- The lines that are typed, if they are heeded. -/
def Surroundings.typedLines (here : Surroundings) (p : Plan) : List TypedLine :=
  if p.typed then here.typed.map .read else []

/-! ## The program -/

/-- Saves the last picture where the plan asks for it. -/
def Surroundings.save (here : Surroundings) (p : Plan) (s : Session) :
    ExitStatus × List SessionNotice × Option (String × Raster) :=
  match p.screenshot with
  | none => (.success, [], none)
  | some path =>
    match here.create path with
    | .ok () => (.success, [.screenshotSaved path], some (path, s.raster))
    | .error cause => (.failure, [.screenshotFailed path cause], none)

/-- Carries out a plan.  `opening` holds the notices so far. -/
def Surroundings.carryOut (here : Surroundings) (filter : LogFilter) (p : Plan)
    (opening : List SessionNotice) : Outcome :=
  let files := here.filesOf p
  let opening := opening ++ p.startNotices files
  match p.start files with
  | .error _ => { status := .failure, logged := filter.log opening }
  | .ok session =>
    let typed := here.typedLines p
    let typing := if p.typed then TypedLine.notices typed else []
    let session := session.addTyped (typed.filterMap (·.event?))
    let most := p.limits.mostFrames
    let reports := session.reports filter p.debug p.limits most
    let final := session.run p.limits most
    let (status, closing, saved) := here.save p final
    { status
      printed := reports.filterMap (·.printed?)
      logged := filter.log
        (opening ++ typing ++ reports.filterMap (·.notice?) ++ final.finishedNotice :: closing)
      saved }

/-- Runs the program. -/
def Surroundings.run (here : Surroundings) : Outcome :=
  match Arguments.read here.arguments with
  | .error refusal => refusal.outcome
  | .ok arguments =>
    let (filter, refused) := LogFilter.ofEnvironment here.environment
    let path := arguments.settingsPath here.environment
    let (settings, opening) := Settings.accept path (Settings.ofFile? (here.read path))
    let outcome := here.carryOut filter (arguments.plan settings) opening
    { outcome with logged := LogFilter.complain refused ++ outcome.logged }

end Handheld
