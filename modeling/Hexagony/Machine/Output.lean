namespace Hexagony

structure Output where
  written : String := ""
  target : Option (List Char) := none
  length : Nat := 0
  success : Bool := true
  deriving DecidableEq

namespace Output

def write (output : Output) (text : String) : Output :=
  {output with written := output.written ++ text}

def setTarget (output : Output) (target : Option String) : Output :=
  {output with target := target.map String.toList}

def targetText (output : Output) : Option String := output.target.map String.ofList

-- Whether a character stands for the expected one: a blank may stand for a line break.
def fits (expected char : Char) : Bool := expected == char || (expected == '\n' && char == ' ')

-- Line breaks past the end of the target do no harm.
def append (output : Output) (char : Char) : Output :=
  match output.target with
  | none => {output with written := output.written.push char, length := output.length + 1}
  | some target =>
    match target[output.length]? with
    | none => if char = '\n' then output else {output with success := false}
    | some expected =>
      if fits expected char then {output with length := output.length + 1}
      else {output with success := false}

def appendAll (output : Output) : List Char → Output
  | [] => output
  | char :: rest =>
    let next := output.append char
    if next.success then next.appendAll rest else next

def appendInteger (output : Output) (value : Int64) : Output :=
  output.appendAll (toString value.toInt).toList

def finish (output : Output) : Output :=
  match output.target with
  | none => output
  | some target => {output with success := output.success && output.length == target.length}

end Output
end Hexagony
