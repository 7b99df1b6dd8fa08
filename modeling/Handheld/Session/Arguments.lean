import Handheld.Session.Location
import Handheld.Session.Settings

/-!
# Arguments

A session is asked for by arguments: the path of the cartridge and options,
which start with two hyphens.  The value of an option is the next argument or
stands behind an equals sign.  Behind an argument of two hyphens alone there
are no more options.
-/

namespace Handheld

/-- The options that take a value. -/
inductive ValueOption where
  | bootRom | settings | frames | cycles | screenshot
  deriving DecidableEq, Repr

namespace ValueOption

/-- The options that take a value. -/
def all : List ValueOption := [bootRom, settings, frames, cycles, screenshot]

/-- The name of the option. -/
def name : ValueOption → String
  | bootRom => "bootrom"
  | settings => "config"
  | frames => "frames"
  | cycles => "cycles"
  | screenshot => "screenshot"

end ValueOption

/-- The options without a value. -/
inductive Switch where
  | pace | typed | debug
  deriving DecidableEq, Repr

namespace Switch

/-- The options without a value. -/
def all : List Switch := [pace, typed, debug]

/-- The name of the option. -/
def name : Switch → String
  | pace => "pace"
  | typed => "stdin-input"
  | debug => "debug"

end Switch

/-- Why arguments are not carried out. -/
inductive Refusal where
  | helpWanted
  | unexpected (argument : String)
  | missingValue (option : ValueOption)
  | needlessValue (name value : String)
  | emptyValue (name : String)
  | badNumber (option : ValueOption) (value : String)
  | repeated (name : String)
  | missingCartridge
  deriving DecidableEq, Repr

/-- The refusal in words. -/
def Refusal.message : Refusal → String
  | helpWanted => "help is wanted"
  | unexpected argument => "unexpected argument '" ++ argument ++ "' found"
  | missingValue option => "a value is required for '--" ++ option.name ++ "' but none was supplied"
  | needlessValue name value => "unexpected value '" ++ value ++ "' for '--" ++ name ++ "' found"
  | emptyValue name => "a value is required for '" ++ name ++ "' but none was supplied"
  | badNumber option value => "invalid value '" ++ value ++ "' for '--" ++ option.name ++ "'"
  | repeated name => "the argument '--" ++ name ++ "' cannot be used multiple times"
  | missingCartridge => "the path of the cartridge was not provided"

/-- What the options ask for. -/
structure Options where
  bootRom : Option String := none
  settings : Option String := none
  screenshot : Option String := none
  frames : Option Nat := none
  cycles : Option Nat := none
  pace : Bool := false
  typed : Bool := false
  debug : Bool := false
  deriving DecidableEq, Repr, Inhabited

/-- What the arguments ask for. -/
structure Arguments where
  rom : String
  options : Options := {}
  deriving DecidableEq, Repr, Inhabited

/-! ## Values -/

/-- The natural number that a text writes in decimal digits, a plus sign before
them or not, if it is of at most 64 bits. -/
def count? (text : String) : Option Nat :=
  let digits := match text.toList with
    | '+' :: digits => digits
    | digits => digits
  if digits.isEmpty || !digits.all Char.isDigit then none
  else
    let n := digits.foldl (fun n c => 10 * n + (c.toNat - 48)) 0
    if n < UInt64.size then some n else none

namespace Options

/-- The value of an option that is a path. -/
def path (option : ValueOption) (former : Option String) (text : String) :
    Except Refusal (Option String) :=
  if former.isSome then .error (.repeated option.name)
  else if text.isEmpty then .error (.emptyValue option.name)
  else .ok (some text)

/-- The value of an option that is a number. -/
def number (option : ValueOption) (former : Option Nat) (text : String) :
    Except Refusal (Option Nat) :=
  if former.isSome then .error (.repeated option.name)
  else
    match count? text with
    | some n => .ok (some n)
    | none => .error (.badNumber option text)

/-- Sets an option that takes a value. -/
def set (o : Options) (option : ValueOption) (text : String) : Except Refusal Options :=
  match option with
  | .bootRom => return { o with bootRom := ← path option o.bootRom text }
  | .settings => return { o with settings := ← path option o.settings text }
  | .screenshot => return { o with screenshot := ← path option o.screenshot text }
  | .frames => return { o with frames := ← number option o.frames text }
  | .cycles => return { o with cycles := ← number option o.cycles text }

/-- Whether an option without a value is set. -/
def isSet (o : Options) : Switch → Bool
  | .pace => o.pace
  | .typed => o.typed
  | .debug => o.debug

/-- Sets an option without a value. -/
def turnOn (o : Options) (switch : Switch) : Except Refusal Options :=
  if o.isSet switch then .error (.repeated switch.name)
  else
    match switch with
    | .pace => .ok { o with pace := true }
    | .typed => .ok { o with typed := true }
    | .debug => .ok { o with debug := true }

end Options

/-! ## Reading arguments -/

/-- What an argument is taken for where options may stand. -/
inductive ArgumentKind where
  /-- No more options follow. -/
  | lastOption
  /-- An option with its name and the value behind an equals sign. -/
  | option (name : String) (value : Option String)
  /-- An option of one hyphen, with its letters. -/
  | letters (text : List Char)
  /-- A path. -/
  | plain
  deriving DecidableEq, Repr

/-- The name and the value of an option. -/
def splitOption (text : List Char) : ArgumentKind :=
  let name := text.takeWhile (· ≠ '=')
  match text.drop name.length with
  | _ :: value => .option (.ofList name) (some (.ofList value))
  | [] => .option (.ofList name) none

/-- What an argument is taken for.  A single hyphen is a path. -/
def ArgumentKind.of (argument : String) : ArgumentKind :=
  match argument.toList with
  | ['-', '-'] => lastOption
  | '-' :: '-' :: text => splitOption text
  | '-' :: c :: text => letters (c :: text)
  | _ => plain

/-- What an option of this name is. -/
inductive KnownOption where
  | help
  | value (option : ValueOption)
  | switch (switch : Switch)

/-- The option of a name. -/
def KnownOption.ofName? (name : String) : Option KnownOption :=
  if name = "help" then some help
  else
    match ValueOption.all.find? (·.name = name) with
    | some option => some (value option)
    | none => (Switch.all.find? (·.name = name)).map switch

/-- The arguments read so far. -/
structure ArgumentReading where
  rom : Option String := none
  options : Options := {}

namespace ArgumentReading

/-- Takes a path. -/
def addPath (r : ArgumentReading) (path : String) : Except Refusal ArgumentReading :=
  if r.rom.isSome then .error (.unexpected path)
  else if path.isEmpty then .error (.emptyValue "<ROM>")
  else .ok { r with rom := some path }

/-- The arguments, if they are complete. -/
def finish (r : ArgumentReading) : Except Refusal Arguments :=
  match r.rom with
  | some rom => .ok { rom, options := r.options }
  | none => .error .missingCartridge

/-- Sets an option that takes a value. -/
def set (r : ArgumentReading) (option : ValueOption) (text : String) :
    Except Refusal ArgumentReading :=
  return { r with options := ← r.options.set option text }

/-- Sets an option without a value. -/
def turnOn (r : ArgumentReading) (switch : Switch) : Except Refusal ArgumentReading :=
  return { r with options := ← r.options.turnOn switch }

/-- Reads the arguments behind those read so far. -/
def read (r : ArgumentReading) : List String → Except Refusal Arguments
  | [] => r.finish
  | argument :: rest =>
    match ArgumentKind.of argument with
    | .lastOption => do (← rest.foldlM addPath r).finish
    | .plain => do read (← r.addPath argument) rest
    | .letters ('h' :: _) => .error .helpWanted
    | .letters _ => .error (.unexpected argument)
    | .option name value =>
      match KnownOption.ofName? name, value, rest with
      | none, _, _ => .error (.unexpected argument)
      | some .help, none, _ => .error .helpWanted
      | some .help, some value, _ => .error (.needlessValue name value)
      | some (.switch _), some value, _ => .error (.needlessValue name value)
      | some (.switch switch), none, rest => do read (← r.turnOn switch) rest
      | some (.value option), some value, rest => do read (← r.set option value) rest
      | some (.value option), none, [] => .error (.missingValue option)
      | some (.value option), none, next :: rest =>
        if ArgumentKind.of next = .plain then do read (← r.set option next) rest
        else .error (.missingValue option)

end ArgumentReading

namespace Arguments

/-- Reads arguments. -/
def read (arguments : List String) : Except Refusal Arguments :=
  ({} : ArgumentReading).read arguments

/-- The path of the settings. -/
def settingsPath (a : Arguments) (env : Environment) : String :=
  a.options.settings.getD (defaultSettingsPath env)

/-- The lines that explain the arguments. -/
def help : List String := [
  "Headless DMG Game Boy emulator",
  "",
  "Usage: dotboy [OPTIONS] <ROM>",
  "",
  "Arguments:",
  "  <ROM>  Path to ROM file",
  "",
  "Options:",
  "      --bootrom <BOOTROM>        Path to boot ROM file; starts from the power-on state",
  "      --config <CONFIG>          Path to config file",
  "      --frames <FRAMES>          Number of frames to run",
  "      --cycles <CYCLES>          Number of CPU cycles to run, checked at frame boundaries",
  "      --screenshot <SCREENSHOT>  Write the last presented frame to this PNG file",
  "      --pace                     Throttle to the hardware frame rate",
  "      --stdin-input              Read `press <button>` / `release <button>` lines from stdin",
  "      --debug                    Print CPU state every 60 frames",
  "  -h, --help                     Print help"]

end Arguments
end Handheld
