import Handheld.Session.Basic
import Handheld.Session.LogFilter

/-!
# Reports

While a session runs, it logs notices and may print status lines.  What it
reports is a function of its states before and after each frame.
-/

namespace Handheld

/-- What a session tells. -/
inductive Report where
  /-- A notice for the log. -/
  | notice (notice : SessionNotice)
  /-- A line that is printed. -/
  | line (text : String)

namespace Report

/-- The line that is printed. -/
def printed? : Report → Option String
  | line text => some text
  | notice _ => none

/-- The notice for the log. -/
def notice? : Report → Option SessionNotice
  | notice n => some n
  | line _ => none

end Report

namespace Session

/-- How many frames lie between two status lines. -/
def statusInterval : Nat := 60

/-- The reports on the state after a frame: every so many frames, the CPU and
the next instruction. -/
def statusReports (s : Session) : List Report :=
  if s.runs % statusInterval = 0 then
    let line := s.machine.nextLine
    (Machine.listingNotices line).map (fun n => .notice (.machine n)) ++
      [.line (s.machine.cpu.summary ++ " " ++ Text.hexWord line.address ++ ": " ++ line.text)]
  else []

/-- The notices of a frame that a filter may heed.  Besides notices for
debugging there is only one: that the boot ROM was taken off. -/
def frameNotices (filter : LogFilter) (before after : Session) : List Notice :=
  if filter.heedsDebugging then
    before.machine.frameNotices SessionInput.source before.frameInput
  else if after.machine.bus.bootDisabled && !before.machine.bus.bootDisabled then
    [.bootUnmapped]
  else []

/-- The reports on a frame, given the states before and after it. -/
def frameReports (filter : LogFilter) (debug : Bool) (before after : Session) : List Report :=
  ((frameNotices filter before after).map .machine |>.filter filter.heeds).map .notice ++
    if debug then after.statusReports else []

/-- The reports on running frames until a limit is reached, at most `fuel`
frames. -/
def reports (filter : LogFilter) (debug : Bool) (limits : Limits) :
    (fuel : Nat) → Session → List Report
  | 0, _ => []
  | fuel + 1, s =>
    let next := s.frame
    frameReports filter debug s next ++
      if next.isOver limits then [] else reports filter debug limits fuel next

/-- The notice on the end of a session. -/
def finishedNotice (s : Session) : SessionNotice :=
  .finished s.runs s.presented s.cycles

end Session
end Handheld
