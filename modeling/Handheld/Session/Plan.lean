import Handheld.Cartridge.Notice
import Handheld.Machine.Notice
import Handheld.Session.Arguments
import Handheld.Session.Basic
import Handheld.Session.Notice

/-!
# Planning a session

The arguments and the settings together say what a session does; where both
speak, the arguments count.
-/

namespace Handheld

/-- What a session does. -/
structure Plan where
  rom : String
  bootRom : Option String := none
  screenshot : Option String := none
  limits : Limits := {}
  /-- Whether pictures come at the rate of the handheld. -/
  pace : Bool := false
  /-- Whether typed commands are heeded. -/
  typed : Bool := false
  /-- Whether status lines are printed. -/
  debug : Bool := false
  script : List ScriptEntry := []
  deriving Repr, Inhabited

/-- The plan that arguments and settings make. -/
def Arguments.plan (a : Arguments) (s : Settings) : Plan where
  rom := a.rom
  bootRom := a.options.bootRom <|> s.bootRom
  screenshot := a.options.screenshot <|> s.screenshot
  limits := { frames := a.options.frames <|> s.frames, cycles := a.options.cycles }
  pace := a.options.pace || s.pace
  typed := a.options.typed
  debug := a.options.debug
  script := s.input

/-- What reading the files of a plan gave. -/
structure PlanFiles where
  rom : FileContents
  bootRom : Option FileContents := none

namespace Plan

/-- The machine that a plan starts from: with a boot ROM at power-on, else as a
boot ROM leaves it. -/
def machine (boot : Option (Array UInt8)) : Machine :=
  match boot with
  | some boot => { Machine.powerOn with bus := Machine.powerOn.bus.installBoot boot }
  | none => .postBoot

/-- The boot ROM among the files, if it could be read. -/
def bootRom? (files : PlanFiles) : Option (Array UInt8) :=
  files.bootRom.bind (·.toOption)

/-- Starts the session. -/
def start (p : Plan) (files : PlanFiles) : Except LoadError Session := do
  let cartridge ← Cartridge.ofFile files.rom
  let m := machine (bootRom? files)
  return {
    machine := { m with bus := m.bus.insert cartridge }
    input := { replay := .ofEntries p.script } }

/-- The notices on a boot ROM that cannot be read. -/
def bootNotices (p : Plan) (files : PlanFiles) : List SessionNotice :=
  match p.bootRom, files.bootRom with
  | some path, some (.error cause) => [.bootRomFailed path cause]
  | _, _ => []

/-- The notices on building the machine. -/
def machineNotices (files : PlanFiles) : List SessionNotice :=
  if (bootRom? files).isSome then [] else Machine.postBootNotices.map .machine

/-- The notices on starting the session. -/
def startNotices (p : Plan) (files : PlanFiles) : List SessionNotice :=
  (Cartridge.fileNotices p.rom files.rom).map .machine ++
    match Cartridge.ofFile files.rom with
    | .error cause => [.cartridgeFailed p.rom cause]
    | .ok _ =>
      p.bootNotices files ++ machineNotices files ++
        (ScriptEntry.unknownNames p.script).map .unknownButton

end Plan
end Handheld
