import Pseudocode.Screen.Block
import Pseudocode.Session.Basic

/-!
# The screen

A session on a screen: a window on the output that can be scrolled, a field for answers, and a
status line. Messages are window sizes and keys. While the program waits for an answer, keys go to
the field and only the enter key goes on with the session; otherwise four letters run, step, reset
and quit, and the others scroll.
-/

namespace Pseudocode.Screen

/-- A window on a list of lines. -/
structure Window where
  /-- The columns; none are left out if this is not positive. -/
  width : Int := 80
  height : Nat := 10
  lines : List (List Char) := []
  /-- The number of lines above the window. -/
  offset : Nat := 0

namespace Window

/-- The offset at which the last line is in the last row. -/
def lastOffset (w : Window) : Nat :=
  w.lines.length - w.height

/-- Shows a text, scrolled to its end. -/
def display (w : Window) (cs : List Char) : Window :=
  let w := { w with lines := Text.splitAtChar '\n' (Text.dropReturns cs) }
  { w with offset := w.lastOffset }

/-- Scrolls towards the end, no further than the last line. -/
def scrollDown (w : Window) (n : Nat) : Window :=
  { w with offset := min (w.offset + n) w.lastOffset }

/-- Scrolls towards the start. -/
def scrollUp (w : Window) (n : Nat) : Window :=
  { w with offset := w.offset - n }

/-- The lines in the window. -/
def visible (w : Window) : List (List Char) :=
  (w.lines.drop w.offset).take w.height

/-- The keys that scroll: by a line, by half a window, or by a whole one. -/
def scroll (w : Window) (c : Char) : Window :=
  match c with
  | 'k' => w.scrollUp 1
  | 'j' => w.scrollDown 1
  | 'u' => w.scrollUp (w.height / 2)
  | 'd' => w.scrollDown (w.height / 2)
  | 'b' => w.scrollUp w.height
  | 'f' | ' ' => w.scrollDown w.height
  | _ => w

end Window

/-- A field for a line of text. -/
structure Field where
  value : List Char := []
  /-- What is shown while the value is empty. -/
  placeholder : String := ""
  focused : Bool := false

namespace Field

/-- The most characters of a value. -/
def limit : Nat := 4096

/-- What typing a character puts into the field: tabs and line breaks are spaces, other controls are
dropped. -/
def accepted (c : Char) : List Char :=
  if c = '\t' ∨ c = '\n' ∨ c = '\r' then [' ']
  else if c.toNat < 0x20 ∨ (0x7f ≤ c.toNat ∧ c.toNat < 0xa0) ∨ c.toNat = 0xfffd then []
  else [c]

/-- Types a character. -/
def type (f : Field) (c : Char) : Field :=
  if f.value.length < limit then { f with value := f.value ++ accepted c } else f

/-- Takes back the last character. -/
def erase (f : Field) : Field :=
  { f with value := f.value.dropLast }

/-- Opens the field for an answer. -/
def ask (f : Field) (placeholder : String) : Field :=
  { f with placeholder, focused := true }

/-- Closes the field. -/
def close (f : Field) : Field :=
  { f with focused := false }

end Field

/-- A key. -/
inductive Key where
  | char (c : Char)
  | enter
  | backspace
  /-- The key that breaks off. -/
  | interrupt
  /-- Any other key. What it makes of the text in the field and of the place of the window is up to
  these. -/
  | other (edit : List Char → List Char) (scroll : Nat → Nat)

/-- What a screen is told. -/
inductive Message where
  | resize (width height : Int)
  | key (k : Key)

/-- The status of a session. -/
def statusOf (s : Session) : String :=
  if s.fault.isSome then "erreur"
  else
    match s.last.pending with
    | some name => "Lire " ++ name ++ " (ligne " ++ toString s.last.line ++ ")"
    | none =>
      if s.last.completed then "terminé"
      else if s.mode = .step then
        "pas " ++ toString s.last.cursor ++ " (ligne " ++ toString s.last.line ++ ")"
      else "prêt"

/-- The text of the output pane: the outputs, a line each, and the message of a fault. -/
def outputText (s : Session) : List Char :=
  let outputs := s.last.output.toList.flatMap fun v => v.toText.toList ++ ['\n']
  let message := (s.fault.map fun f => ((Block.ofText f.message.toList).fill 0).toText).getD []
  let text := ((outputs ++ message).reverse.dropWhile (· = '\n')).reverse
  if text.isEmpty then "(aucune sortie)".toList else text

end Pseudocode.Screen

namespace Pseudocode

/-- A screen. -/
structure Screen where
  session : Session
  window : Screen.Window := {}
  field : Screen.Field := {}
  /-- Whether the size of the screen is known. -/
  ready : Bool := false
  status : String := "prêt"

namespace Screen

/-- A screen for a source. -/
def start (source : SourceText) (budget : Int) : Screen where
  session := Session.start source budget

/-- Whether the program waits for an answer. -/
def waiting (s : Screen) : Bool :=
  s.session.waiting

/-- Brings the output, the field and the status in line with the session. -/
def refresh (s : Screen) : Screen :=
  { s with
    window := s.window.display (outputText s.session)
    status := statusOf s.session
    field :=
      match s.session.fault, s.session.last.pending with
      | none, some name => s.field.ask name
      | _, _ => s.field.close }

/-- The screen after an operation on its session. -/
def operate (s : Screen) (f : Session → Session) : Screen :=
  { s with session := f s.session }.refresh

/-- What a message leads to: the screen after it, and whether to quit. -/
structure Reaction where
  screen : Screen
  quit : Bool := false

/-- A key while the program waits for an answer. -/
def answerKey (s : Screen) : Key → Screen
  | .char c => { s with field := s.field.type c }
  | .backspace => { s with field := s.field.erase }
  | .enter =>
    { s with field := { s.field with value := [] } }.operate
      (·.provide (String.ofList s.field.value))
  | .interrupt => s
  | .other edit _ => { s with field := { s.field with value := edit s.field.value } }

/-- A key while the program does not wait. -/
def commandKey (s : Screen) : Key → Reaction
  | .char 'q' => { screen := s, quit := true }
  | .char 'r' => { screen := s.operate Session.run }
  | .char 's' => { screen := s.operate Session.step }
  | .char 'x' => { screen := s.operate Session.reset }
  | .char c => { screen := { s with window := s.window.scroll c } }
  | .other _ scroll =>
    { screen := { s with window := { s.window with offset := scroll s.window.offset } } }
  | _ => { screen := s }

/-- The least height of the output window. -/
def leastHeight : Nat := 3

/-- The screen at a size: a third of its height is for the output and its frame. -/
def resize (s : Screen) (width height : Int) : Screen :=
  { s with
    window := { s.window with
      width := width - 4
      height := max leastHeight (height.tdiv 3 - 2).toNat }
    ready := true }.refresh

/-- The reaction to a message. -/
def update (s : Screen) : Message → Reaction
  | .resize width height => { screen := s.resize width height }
  | .key .interrupt => { screen := s, quit := true }
  | .key k => if s.waiting then { screen := s.answerKey k } else s.commandKey k

/-- After a refresh the field is open exactly while the program waits. -/
theorem focused_refresh (s : Screen) : s.refresh.field.focused = s.session.waiting := by
  unfold refresh Session.waiting
  cases s.session.fault <;> cases s.session.last.pending <;> rfl

/-- The reaction to several messages: whether to quit is decided by the last. -/
def updateAll (s : Screen) (messages : List Message) : Reaction :=
  messages.foldl (fun r m => r.screen.update m) { screen := s }

end Screen

end Pseudocode
