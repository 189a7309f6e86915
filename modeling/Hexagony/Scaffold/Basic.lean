import Hexagony.Plane.Basic

namespace Hexagony

inductive Ending (τ : Type) where
  | jump (target : τ)
  | branch (positive nonPositive : τ)
  | exit
  deriving DecidableEq

namespace Ending
variable {τ υ : Type}

def map (f : τ → υ) : Ending τ → Ending υ
  | jump target => jump (f target)
  | branch positive nonPositive => branch (f positive) (f nonPositive)
  | exit => exit

def targets : Ending τ → List τ
  | jump target => [target]
  | branch positive nonPositive => [positive, nonPositive]
  | exit => []

end Ending

structure Segment (κ τ : Type) where
  commands : List κ
  ending : Ending τ
  deriving DecidableEq

-- A place in a list of segments. The offset after the last command is that of the ending.
structure Location where
  segment : Nat
  offset : Nat
  deriving DecidableEq, Inhabited

inductive Node where
  | command (slot : Nat)
  | jump (target : Nat)
  | branch (positive nonPositive : Nat)
  -- Runs through the body for ever, from the phase on. The body is its own least rotation.
  | loop (body : List Nat) (phase : Nat)
  | exit
  deriving DecidableEq

structure Slot where
  position : Point
  cell : Char
  deriving DecidableEq

namespace Slot

def placeholder : Char := '?'

def isPlaceholder (slot : Slot) : Bool := slot.cell == placeholder

def instruction? (slot : Slot) : Option Char :=
  if slot.isPlaceholder then none else some slot.cell

end Slot

structure Scaffold where
  nodes : List Node
  slots : List Slot
  deriving DecidableEq

def Node.text : Node → String
  | .command slot => "_" ++ toString slot
  | .jump target => ">" ++ toString target
  | .branch positive nonPositive => ">?" ++ toString positive ++ ":" ++ toString nonPositive
  | .loop body phase =>
    "loop[" ++ " ".intercalate (body.map fun slot => "_" ++ toString slot) ++ "]" ++
      (if phase = 0 then "" else "+" ++ toString phase)
  | .exit => "@"

def Slot.text (slot : Slot) : String := slot.position.text ++ " " ++ String.singleton slot.cell

namespace Scaffold

def placeholderCount (scaffold : Scaffold) : Nat := scaffold.slots.countP Slot.isPlaceholder

def loopBodies (scaffold : Scaffold) : List (List Nat) :=
  scaffold.nodes.filterMap fun
    | .loop body _ => some body
    | _ => none

def numbered (lines : List String) : List String :=
  lines.zipIdx.map fun (line, number) => Text.column 4 number ++ "  " ++ line

def text (scaffold : Scaffold) : String :=
  Text.unlines <|
    ["nodes:"] ++ numbered (scaffold.nodes.map Node.text) ++
      ["slots:"] ++ numbered (scaffold.slots.map Slot.text)

end Scaffold
end Hexagony
