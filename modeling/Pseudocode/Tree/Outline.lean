import Pseudocode.Source

/-!
# Outlines

A program tree as indented text, one statement a line, for looking at what was parsed; and the
listing of a source's tokens that can precede it.
-/

namespace Pseudocode

/-- Numbers in an outline: the fewest digits that read back, with a power of ten from `10 ^ 6` on
and below `10 ^ -4`. -/
def outlineLayout : Decimal.Layout where
  positionalFrom := -4
  positionalBelow := 6
  exponentDigits := 2
  zero := "0"
  negativeZero := "-0"
  infinity := "+Inf"
  negativeInfinity := "-Inf"
  nan := "NaN"

/-- An expression on one line, with parentheses around every operation. -/
def Expr.outline : Expr → String
  | num x => outlineLayout.format x
  | str s => Text.quote s
  | ident name _ => name
  | bin op left right _ => "(" ++ left.outline ++ " " ++ op.symbol ++ " " ++ right.outline ++ ")"
  | unknown label => label

/-- The indentation at a depth. -/
def indent (depth : Nat) : String :=
  String.ofList (List.replicate (2 * depth) ' ')

/-- A line of an outline about a statement. -/
def outlineLine (depth : Nat) (line : Int) (text : String) : String :=
  indent depth ++ "L" ++ toString line ++ " " ++ text

mutual

/-- The lines of a statement at a depth. -/
def Stmt.outline (depth : Nat) : Stmt → List String
  | .assign name value line =>
    [outlineLine depth line ("Assign " ++ name ++ " = " ++ value.outline)]
  | .write value line => [outlineLine depth line ("Write " ++ value.outline)]
  | .read name line => [outlineLine depth line ("Read " ++ name)]
  | .cond test yes none line =>
    outlineLine depth line ("If " ++ test.outline) :: outlineAll (depth + 1) yes
  | .cond test yes (some no) line =>
    outlineLine depth line ("If " ++ test.outline) :: outlineAll (depth + 1) yes
      ++ (indent depth ++ "Else") :: outlineAll (depth + 1) no
  | .loop test body line =>
    outlineLine depth line ("While " ++ test.outline) :: outlineAll (depth + 1) body
  | .count name first last body line =>
    outlineLine depth line
        ("For " ++ name ++ " from " ++ first.outline ++ " to " ++ last.outline)
      :: outlineAll (depth + 1) body
  | .unknown label _ => [indent depth ++ label]

/-- The lines of a list of statements at a depth. -/
def outlineAll (depth : Nat) : List Stmt → List String
  | [] => []
  | s :: ss => s.outline depth ++ outlineAll depth ss

end

/-- Lines as text, each with a line feed at its end. -/
def unlines (lines : List String) : String :=
  String.join (lines.map (· ++ "\n"))

/-- What the inspection of a source prints, and whether the source was sound. -/
structure Inspection where
  printed : String
  sound : Bool

/-- Prints the tokens of a source, if asked for, and an outline of its program. A source that cannot
be scanned prints nothing, one that cannot be parsed no outline. -/
def inspect (source : String) (withTokens : Bool) : Inspection :=
  match Source.tokens source with
  | .error _ => { printed := "", sound := false }
  | .ok ts =>
    let listing :=
      if withTokens then
        unlines (ts.map fun t => s!"{t.line}:{t.column} " ++ t.describe) ++ "\n"
      else ""
    match Source.programOfTokens ts with
    | .error _ => { printed := listing, sound := false }
    | .ok p => { printed := listing ++ unlines (outlineAll 0 p.statements), sound := true }

end Pseudocode
