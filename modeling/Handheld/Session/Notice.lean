import Handheld.Notice
import Handheld.Cartridge.Basic
import Handheld.Text.Terminal

/-!
# Notices of a session

Besides the events in the machine, a session tells what became of its files,
its input and its pictures.
-/

namespace Handheld

/-- An event in a session. -/
inductive SessionNotice where
  /-- An event in the machine. -/
  | machine (notice : Notice)
  /-- The settings could not be understood. -/
  | settingsRefused (path : String)
  /-- The cartridge could not be loaded. -/
  | cartridgeFailed (path : String) (cause : LoadError)
  /-- The boot ROM could not be read. -/
  | bootRomFailed (path : String) (cause : FileError)
  /-- The input script names a button that there is not. -/
  | unknownButton (name : String)
  /-- A typed line is no command. -/
  | unknownCommand (line : String)
  /-- No more lines can be typed. -/
  | typingEnded
  /-- The session is over. -/
  | finished (runs presented cycles : Nat)
  /-- The picture could not be saved. -/
  | screenshotFailed (path : String) (cause : FileError)
  /-- The picture was saved. -/
  | screenshotSaved (path : String)

namespace SessionNotice

/-- How much the notice matters. -/
def severity : SessionNotice → Severity
  | machine notice => notice.severity
  | cartridgeFailed .. | screenshotFailed .. => .error
  | settingsRefused _ | bootRomFailed .. | unknownButton _ | unknownCommand _ => .warn
  | finished .. | screenshotSaved _ => .info
  | typingEnded => .debug

/-- The part of the program that the notice comes from. -/
def source : SessionNotice → String
  | machine notice => notice.source
  | settingsRefused _ => "dotboy::config"
  | unknownButton _ | unknownCommand _ | typingEnded => "dotboy::input"
  | cartridgeFailed .. | bootRomFailed .. | finished .. | screenshotFailed ..
  | screenshotSaved _ => "dotboy"

/-- The notice in words. -/
def text : SessionNotice → String
  | machine notice => notice.text
  | settingsRefused path =>
    "Failed to parse config " ++ path ++ ": TOML parse error; using defaults"
  | cartridgeFailed path cause => "Failed to load ROM " ++ path ++ ": " ++ cause.message
  | bootRomFailed path cause => "Failed to load boot ROM " ++ path ++ ": " ++ cause.message
  | unknownButton name => "Ignoring scripted input with unknown button '" ++ name ++ "'"
  | unknownCommand line => "Unrecognized input command: " ++ line
  | typingEnded => "stdin input thread exiting"
  | finished runs presented cycles =>
    "Ran " ++ toString runs ++ " frames (" ++ toString presented ++ " presented), " ++
      toString cycles ++ " cycles"
  | screenshotFailed path cause =>
    "Failed to write screenshot " ++ path ++ ": " ++ cause.message
  | screenshotSaved path => "Saved screenshot to " ++ path

/-- The notice as it is laid out in the log.  Its first line names severity and
source; the others are indented. -/
def layout (n : SessionNotice) : String :=
  let severity := Text.Field.lay { width := 5 } n.severity.name
  let lines := ("\n" ++ Text.blanks 4).intercalate (n.text.splitOn "\n")
  "[" ++ severity ++ " " ++ n.source ++ "] " ++ lines ++ "\n"

/-- What the notice adds to the log. -/
def entry (n : SessionNotice) : String :=
  Text.Terminal.strip n.layout

end SessionNotice
end Handheld
