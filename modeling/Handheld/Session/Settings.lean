import Handheld.FileError
import Handheld.Input.Replay
import Handheld.Text.Utf8
import Handheld.Toml.Document

/-!
# Settings

Settings that hold for every session can be kept in a file.  The file is a
TOML document; keys that have no meaning are passed over, but a value of the
wrong kind makes the whole file unusable.
-/

namespace Handheld

/-! ## Entries of the input script -/

namespace ScriptEntry

/-- The keys of an entry. -/
def keys : List String := ["frame", "button", "pressed"]

/-- The entry with the value of a key. -/
def set? (entry : ScriptEntry) (key : String) (value : Toml.Value) : Option ScriptEntry :=
  match key with
  | "frame" => return { entry with frame := ← value.count? }
  | "button" => return { entry with button := ← value.string? }
  | "pressed" => return { entry with pressed := ← value.boolean? }
  | _ => if value.isRepresentable then some entry else none

/-- The entry with the values of several keys. -/
def setAll? (entry : ScriptEntry) (entries : Toml.Entries) : Option ScriptEntry :=
  entries.foldlM (fun entry (key, value) => entry.set? key value) entry

/-- The entry that a value describes.  An array gives the values of the keys in
their order, and what stands behind them is not looked at.  A date gives no
key a value. -/
def ofValue? : Toml.Value → Option ScriptEntry
  | .table _ entries => ({} : ScriptEntry).setAll? entries
  | .array items => ({} : ScriptEntry).setAll? (keys.zip items)
  | .dateTime _ => some {}
  | _ => none

/-- The entries that a value describes: an array of entries, or tables that
each have a header of their own. -/
def listOfValue? : Toml.Value → Option (List ScriptEntry)
  | .array items => items.mapM ofValue?
  | .tables items => items.mapM ({} : ScriptEntry).setAll?
  | _ => none

end ScriptEntry

/-! ## Settings -/

/-- The settings of a session. -/
structure Settings where
  bootRom : Option String := none
  frames : Option Nat := none
  screenshot : Option String := none
  pace : Bool := false
  input : List ScriptEntry := []
  deriving DecidableEq, Repr, Inhabited

namespace Settings

/-- The settings with the value of a key. -/
def set? (s : Settings) (key : String) (value : Toml.Value) : Option Settings :=
  match key with
  | "boot_rom" => return { s with bootRom := ← value.string? }
  | "frames" => return { s with frames := ← value.count? }
  | "screenshot" => return { s with screenshot := ← value.string? }
  | "pace" => return { s with pace := ← value.boolean? }
  | "input" => return { s with input := ← ScriptEntry.listOfValue? value }
  | _ => if value.isRepresentable then some s else none

/-- The settings that the entries of a document describe. -/
def ofEntries? (entries : Toml.Entries) : Option Settings :=
  entries.foldlM (fun s (key, value) => s.set? key value) {}

/-- The settings that a text describes. -/
def ofText? (text : String) : Option Settings :=
  (Toml.readDocument? text).bind ofEntries?

/-- The settings in a file.  Without a file, and if it holds no text, there are
no settings; a text that describes no settings is refused. -/
def ofFile? (contents : FileContents) : Option Settings :=
  match contents with
  | .error _ => some {}
  | .ok bytes =>
    match Text.Utf8.decode? bytes.toList with
    | none => some {}
    | some text => ofText? (.ofList text)

end Settings
end Handheld
