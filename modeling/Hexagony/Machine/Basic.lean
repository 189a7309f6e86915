import Hexagony.Opcode
import Hexagony.Memory.Basic
import Hexagony.Machine.Input
import Hexagony.Machine.Output

namespace Hexagony

-- Quotient and remainder, or nothing for the divisor zero. The one quotient that has no word, of
-- the least word by minus one, wraps around.
def floorDivMod? (dividend divisor : Int64) : Option (Int64 × Int64) :=
  if divisor = 0 then none
  else
    let quotient := dividend / divisor
    let remainder := dividend % divisor
    if remainder ≠ 0 ∧ decide (dividend < 0) ≠ decide (divisor < 0) then
      some (quotient - 1, remainder + divisor)
    else some (quotient, remainder)

structure Machine where
  memory : Memory := {}
  input : Input := {}
  output : Output := {}
  deriving DecidableEq

inductive Flow where
  | proceed
  | halt
  deriving DecidableEq

namespace Machine

def isPositive (machine : Machine) : Bool := machine.memory.isPositive

def setTarget (machine : Machine) (target : Option String) : Machine :=
  {machine with output := machine.output.setTarget target}

def remember (machine : Machine) (memory : Memory) : Flow × Machine :=
  (.proceed, {machine with memory})

def store (machine : Machine) (value : Int64) : Flow × Machine :=
  machine.remember (machine.memory.set value)

def terminate (machine : Machine) : Flow × Machine :=
  (.halt, {machine with output := machine.output.finish})

def emit (machine : Machine) (output : Output) : Flow × Machine :=
  (if output.success then .proceed else .halt, {machine with output})

def readByte (machine : Machine) : Flow × Machine :=
  let (value, input) := machine.input.readByte
  {machine with input}.store value

def readInteger (machine : Machine) : Flow × Machine :=
  let (value, input) := machine.input.readInteger
  {machine with input}.store value

def charOfWord (value : Int64) : Char := Char.ofNat (value.toInt % 256).toNat

def appendDigit (value : Int64) (digit : Nat) : Int64 :=
  let digit := Int64.ofNat digit
  value * 10 + (if value < 0 then -digit else digit)

-- Carries out an instruction. Division by zero ends the program. Instructions that only steer
-- pointers do nothing here.
def execute (machine : Machine) (opcode : Opcode) : Flow × Machine :=
  let memory := machine.memory
  match opcode with
  | .terminate => machine.terminate
  | .increment => machine.store (memory.get + 1)
  | .decrement => machine.store (memory.get - 1)
  | .add => machine.store (memory.getLeft + memory.getRight)
  | .subtract => machine.store (memory.getLeft - memory.getRight)
  | .multiply => machine.store (memory.getLeft * memory.getRight)
  | .negate => machine.store (-memory.get)
  | .divide =>
    match floorDivMod? memory.getLeft memory.getRight with
    | some (quotient, _) => machine.store quotient
    | none => machine.terminate
  | .modulo =>
    match floorDivMod? memory.getLeft memory.getRight with
    | some (_, remainder) => machine.store remainder
    | none => machine.terminate
  | .moveLeft => machine.remember memory.moveLeft
  | .moveRight => machine.remember memory.moveRight
  | .reverse => machine.remember memory.reverse
  | .backLeft => machine.remember memory.backLeft
  | .backRight => machine.remember memory.backRight
  | .moveBySign =>
    machine.remember (if memory.isPositive then memory.moveRight else memory.moveLeft)
  | .copyBySign => machine.store (if memory.isPositive then memory.getRight else memory.getLeft)
  | .readByte => machine.readByte
  | .readInteger => machine.readInteger
  | .writeByte => machine.emit (machine.output.append (charOfWord memory.get))
  | .writeInteger => machine.emit (machine.output.appendInteger memory.get)
  | .digit value => machine.store (appendDigit memory.get value)
  | .literal char => machine.store (Int64.ofNat char.toNat)
  | .nop | .mirror _ | .nextPointer | .previousPointer | .selectPointer | .skip =>
    (.proceed, machine)

end Machine
end Hexagony
