import Hexagony.Plane.Mirror

namespace Hexagony

inductive Opcode where
  | nop
  | terminate
  | increment
  | decrement
  | add
  | subtract
  | multiply
  | negate
  | divide
  | modulo
  | moveLeft
  | moveRight
  | reverse
  | backLeft
  | backRight
  | moveBySign
  | copyBySign
  | readByte
  | writeByte
  | readInteger
  | writeInteger
  | mirror (mirror : Mirror)
  | nextPointer
  | previousPointer
  | selectPointer
  | skip
  | digit (value : Nat)
  | literal (char : Char)
  deriving DecidableEq

namespace Opcode

def ofSymbol? : Char → Option Opcode
  | '.' | '\x00' => some nop
  | '@' => some terminate
  | ')' => some increment
  | '(' => some decrement
  | '+' => some add
  | '-' => some subtract
  | '*' => some multiply
  | '~' => some negate
  | ':' => some divide
  | '%' => some modulo
  | '\x7b' => some moveLeft
  | '\x7d' => some moveRight
  | '=' => some reverse
  | '\x22' => some backLeft
  | '\x27' => some backRight
  | '^' => some moveBySign
  | '&' => some copyBySign
  | ',' => some readByte
  | ';' => some writeByte
  | '?' => some readInteger
  | '!' => some writeInteger
  | ']' => some nextPointer
  | '[' => some previousPointer
  | '#' => some selectPointer
  | '$' => some skip
  | _ => none

def decode (char : Char) : Opcode :=
  match Mirror.ofChar? char with
  | some found => mirror found
  | none =>
    match ofSymbol? char with
    | some opcode => opcode
    | none => if char.isDigit then digit (char.toNat - '0'.toNat) else literal char

-- Steers pointers instead of touching memory, input or output.
def isControl : Opcode → Bool
  | mirror _ | nextPointer | previousPointer | selectPointer | skip => true
  | _ => false

def name : Opcode → String
  | nop => "Nop"
  | terminate => "Terminate"
  | increment => "Increment"
  | decrement => "Decrement"
  | add => "Add"
  | subtract => "Subtract"
  | multiply => "Multiply"
  | negate => "Negate"
  | divide => "Divide"
  | modulo => "Modulo"
  | moveLeft => "MoveLeft"
  | moveRight => "MoveRight"
  | reverse => "Reverse"
  | backLeft => "BackLeft"
  | backRight => "BackRight"
  | moveBySign => "MoveBySign"
  | copyBySign => "CopyBySign"
  | readByte => "ReadByte"
  | writeByte => "WriteByte"
  | readInteger => "ReadInteger"
  | writeInteger => "WriteInteger"
  | mirror _ => "Mirror"
  | nextPointer => "NextIp"
  | previousPointer => "PreviousIp"
  | selectPointer => "SelectIp"
  | skip => "Skip"
  | digit _ => "Digit"
  | literal _ => "Literal"

def quoted (char : Char) : String :=
  let inner :=
    match char with
    | '\t' => "\\t"
    | '\n' => "\\n"
    | '\r' => "\\r"
    | _ =>
      if char.toNat < 32 || char.toNat == 127 then
        "\\u\x7b" ++ String.ofList (Nat.toDigits 16 char.toNat) ++ "\x7d"
      else String.singleton char
  "'" ++ inner ++ "'"

def text (opcode : Opcode) : String :=
  match opcode with
  | mirror which => opcode.name ++ "(" ++ which.name ++ ")"
  | digit value => opcode.name ++ "(" ++ toString value ++ ")"
  | literal char => opcode.name ++ "(" ++ quoted char ++ ")"
  | _ => opcode.name

end Opcode
end Hexagony
