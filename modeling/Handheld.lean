import Handheld.Assembly.Assembler
import Handheld.Assembly.Meaning
import Handheld.Assembly.Statement
import Handheld.Assembly.Term
import Handheld.Bus.Basic
import Handheld.Bus.Notice
import Handheld.Bus.Place
import Handheld.Cartridge.Basic
import Handheld.Cartridge.Header
import Handheld.Cartridge.Notice
import Handheld.Checked.Arithmetic
import Handheld.Checked.Bus
import Handheld.Checked.Cartridge
import Handheld.Checked.Cpu
import Handheld.Checked.FlagByte
import Handheld.Checked.FlagCpu
import Handheld.Checked.Picture
import Handheld.Checked.StoredMachine
import Handheld.Checked.Timing
import Handheld.Cpu.Access
import Handheld.Cpu.Alu
import Handheld.Cpu.Basic
import Handheld.Cpu.Execute
import Handheld.Cpu.Flags
import Handheld.Cpu.Registers
import Handheld.FileError
import Handheld.Image.Png
import Handheld.Image.Raster
import Handheld.Input.Command
import Handheld.Input.Replay
import Handheld.Instruction.Basic
import Handheld.Instruction.Cost
import Handheld.Instruction.Decode
import Handheld.Instruction.Listing
import Handheld.Instruction.Table
import Handheld.Interrupt
import Handheld.Joypad
import Handheld.Machine.Basic
import Handheld.Machine.Frame
import Handheld.Machine.Notice
import Handheld.Main
import Handheld.Notice
import Handheld.Pattern.Bracket
import Handheld.Pattern.CharSet
import Handheld.Pattern.Cursor
import Handheld.Pattern.Escape
import Handheld.Pattern.Expression
import Handheld.Pattern.Fault
import Handheld.Pattern.Meaning
import Handheld.Pattern.Reader
import Handheld.Pattern.Tree
import Handheld.Screen.Basic
import Handheld.Screen.Picture
import Handheld.Screen.Register
import Handheld.Screen.Sprite
import Handheld.Screen.Timing
import Handheld.Session.Arguments
import Handheld.Session.Basic
import Handheld.Session.Location
import Handheld.Session.LogFilter
import Handheld.Session.Notice
import Handheld.Session.Pacer
import Handheld.Session.Plan
import Handheld.Session.Program
import Handheld.Session.Report
import Handheld.Session.Settings
import Handheld.Text.Blank
import Handheld.Text.Field
import Handheld.Text.Hex
import Handheld.Text.Terminal
import Handheld.Text.Utf8
import Handheld.Timer
import Handheld.Toml.Document
import Handheld.Toml.Quoted
import Handheld.Toml.Scalar
import Handheld.Toml.Table
import Handheld.Toml.Value
import Handheld.Word
import Handheld.Proofs.Screen.FrameClock
import Handheld.Proofs.Machine.Reachable
import Handheld.Proofs.Machine.FrameLoop
import Handheld.Proofs.Machine.Sprites
import Handheld.Proofs.Screen.LineSprites
import Handheld.Proofs.Screen.PlainPicture
import Handheld.Proofs.Machine.Provenance
import Handheld.Proofs.Machine.Reset
import Handheld.Proofs.Checked.Cartridge
import Handheld.Proofs.Checked.FlagByte
import Handheld.Proofs.Checked.Bus
import Handheld.Proofs.Checked.Picture
import Handheld.Proofs.Checked.Timing
import Handheld.Proofs.Checked.Opcode
import Handheld.Proofs.Checked.Cpu
import Handheld.Proofs.Checked.Machine
import Handheld.Proofs.Assembly.Reading
import Handheld.Proofs.Assembly.Listing
import Handheld.Proofs.Assembly.Meaning
import Handheld.Proofs.Assembly.Agreement
import Handheld.Proofs.Assembly.Footprint
import Handheld.Proofs.Cartridge.Control
import Handheld.Proofs.Cartridge.Loading
import Handheld.Proofs.Cartridge.RamStore
import Handheld.Proofs.Bus.Slot
import Handheld.Proofs.Cartridge.RomWindow
import Handheld.Proofs.Bus.BootRom
import Handheld.Proofs.Bus.Requests
import Handheld.Proofs.Machine.Events
import Handheld.Proofs.Machine.Requests
import Handheld.Proofs.Screen.Dots
import Handheld.Proofs.Screen.Requests
import Handheld.Proofs.Screen.OwnLines
import Handheld.Proofs.Machine.Clocks
import Handheld.Proofs.Machine.Presented
import Handheld.Proofs.Timer.Splitting
import Handheld.Proofs.Timer.ClosedForm
import Handheld.Proofs.Timer.Rate
import Handheld.Proofs.Machine.Idling
import Handheld.Proofs.Machine.Dispatch
import Handheld.Proofs.Bus.Stores
import Handheld.Proofs.Screen.Status
import Handheld.Proofs.Input.Replay
import Handheld.Proofs.Session.Run
import Handheld.Proofs.Cpu.Numeral
import Handheld.Proofs.Cpu.Decimal
import Handheld.Proofs.Cpu.Binary
import Handheld.Proofs.Bus.SpriteCopy
import Handheld.Proofs.Cartridge.Overlay
import Handheld.Proofs.Assembly.Assembled
import Handheld.Proofs.Input.Polling
import Handheld.Proofs.Input.Deliveries
import Handheld.Proofs.Input.Buttons
import Handheld.Proofs.Input.Handles
import Handheld.Proofs.Machine.Stack
import Handheld.Proofs.Machine.Calls
import Handheld.Proofs.Text.Words
import Handheld.Proofs.Input.Command
import Handheld.Proofs.Screen.Bounds
import Handheld.Proofs.Cartridge.Bounds
import Handheld.Proofs.Machine.WellFormed
import Handheld.Proofs.Checked.FlagCpu
import Handheld.Proofs.Checked.StoredMachine
