import Std.Time.DateTime.Timestamp
import Pseudocode.Command.Run
import Pseudocode.Screen.View

/-!
# The program

The command line of the interpreter. Files are read into a workspace, the invocation is computed on
it, and what it changed is written back. Nothing is decided here: dialogues and screens are
replayed from the answers and keys given so far.
-/

namespace Pseudocode.Main

open Command

/-- The workspace with the directories that a path goes through. -/
def passThrough (w : Workspace) (path : String) : Workspace :=
  let parts := Text.splitText '/' path
  let lengths := List.range parts.length
  lengths.foldl (fun w n =>
    let place := pathParts (String.intercalate "/" (parts.take n))
    if place.isEmpty || place.contains ".." then w else w.put place .directory) w

/-- Puts the file at a path into the workspace, under a place of its own. -/
def load (w : Workspace) (path place : String) : IO Workspace := do
  try
    let text ← IO.FS.readFile path
    return (passThrough w place).insert place (.text text)
  catch
    | .noFileOrDirectory .. => return w
    | _ => return w.insert place .directory

/-- The directory part of a path. -/
def parent (path : String) : String :=
  String.ofList (path.toList.reverse.dropWhile (· ≠ '/')).reverse

/-- Writes the saved algorithms back. -/
def storeCatalog (w : Workspace) (path : String) : IO Unit := do
  match w.find path with
  | .ok (.catalog c) =>
    unless parent path = "" do IO.FS.createDirAll (parent path)
    IO.FS.writeFile path c.toText
  | _ => pure ()

/-- A line of the input, without its line break; nothing at the end of the input. -/
def readLine? : IO (Option String) := do
  let line ← (← IO.getStdin).getLine
  return (Text.inputLines line).head?

/-- Holds a dialogue, asking for each answer when it is needed. -/
partial def converse (session : Session) (showVars : Bool) (answers : List String) (shown : Nat) :
    IO Transcript := do
  let t := Dialogue.hold session answers .interrupted showVars
  let out ← IO.getStdout
  out.putStr (String.ofList (t.shown.toList.drop shown))
  out.flush
  if t.session.waiting then
    match ← readLine? with
    | some answer => converse session showVars (answers ++ [answer]) t.shown.length
    | none => return t
  else return t

/-- Shows a screen and feeds it the keys of each input line; the end of a line that is an answer is
the enter key. -/
partial def present (s : Screen) : IO Unit := do
  let out ← IO.getStdout
  for line in s.view.toLines do out.putStrLn line
  out.flush
  match ← readLine? with
  | none => return
  | some keys =>
    let r := s.updateAll (keys.toList.map fun c => .key (.char c))
    unless r.quit do
      present (if s.waiting then (r.screen.update (.key .enter)).screen else r.screen)

/-- A clock that stands at the present time. -/
def clock : IO Clock := do
  let now := (← Std.Time.Timestamp.now).toNanosecondsSinceUnixEpoch.val
  return {
    time := fun _ => now.fdiv 1000000000
    nanos := fun _ => Fin.ofNat _ (now.fmod 1000000000).toNat }

/-- Runs a source in the way the options ask for. -/
def runSource (w : Workspace) (o : Options) (src : SourceText) : IO Printed := do
  let session := Session.start src o.budget
  if o.plain then
    let home := (← IO.getEnv "HOME").getD "."
    let path := home ++ "/" ++ historyPath
    let w ← load w path historyPath
    let (printed, w) := conclude w (← converse session o.showVars [] 0)
    match w.text historyPath with
    | .ok s => try IO.FS.writeFile path s catch _ => pure ()
    | .error _ => pure ()
    return { printed with out := "" }
  else
    present ((Screen.start src o.budget).update (.resize 80 24)).screen
    return {}

end Pseudocode.Main

open Pseudocode Pseudocode.Main in
/-- The program: its exit code says whether it failed. -/
def main (args : List String) : IO UInt32 := do
  let mut w : Command.Workspace := {}
  if let some path := Command.configPath? args then w ← load w path path
  let mut paths := []
  if let .ok o := Command.options w.text args then paths := o.paths
  for path in paths do w ← load w path path
  let now ← clock
  let (outcome, w', _) := Command.prepare w now args
  for path in paths do storeCatalog w' path
  let printed ← match outcome.toRun? with
    | some (o, src) => runSource w' o src
    | none => pure (Command.announce outcome)
  (← IO.getStdout).putStr printed.out
  unless printed.complaint = "" do (← IO.getStderr).putStrLn printed.complaint
  return printed.exitCode.toUInt32
