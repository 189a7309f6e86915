namespace Hexagony

inductive ReadEvent where
  | byte (value : UInt8)
  | endOfInput
  | interrupted
  | failed
  deriving DecidableEq

-- The source as its remaining events; after the last one the input has ended for good.
structure Input where
  events : List ReadEvent := []
  pushedBack : Option Int64 := none
  deriving DecidableEq

namespace Input

def ended : Int64 := -1

def ofBytes (bytes : List UInt8) : Input := {events := bytes.map .byte}

def wordOfByte (byte : UInt8) : Int64 := Int64.ofNat byte.toNat

def nextEvent : List ReadEvent → Int64 × List ReadEvent
  | [] => (ended, [])
  | .byte value :: rest => (wordOfByte value, rest)
  | .interrupted :: rest => nextEvent rest
  | .endOfInput :: rest | .failed :: rest => (ended, rest)

def readByte (input : Input) : Int64 × Input :=
  match input.pushedBack with
  | some value => (value, {input with pushedBack := none})
  | none =>
    let (value, rest) := nextEvent input.events
    (value, {input with events := rest})

def pushBack (input : Input) (value : Int64) : Input := {input with pushedBack := some value}

def isDigit (value : Int64) : Bool := 48 ≤ value && value ≤ 57

inductive Lead where
  | sign (negative : Bool)
  -- A digit or the end of the input, which is left to be read again.
  | stop (value : Int64)

def lead? (value : Int64) : Option Lead :=
  if value = 43 then some (.sign false)
  else if value = 45 then some (.sign true)
  else if isDigit value || value = ended then some (.stop value)
  else none

def Lead.leave (lead : Lead) (events : List ReadEvent) : Bool × Input :=
  match lead with
  | .sign negative => (negative, {events := events})
  | .stop value => (false, {events := events, pushedBack := some value})

def seekIn : List ReadEvent → Bool × Input
  | [] => (Lead.stop ended).leave []
  | .interrupted :: rest => seekIn rest
  | .endOfInput :: rest | .failed :: rest => (Lead.stop ended).leave rest
  | .byte value :: rest =>
    match lead? (wordOfByte value) with
    | some lead => lead.leave rest
    | none => seekIn rest

def seek (input : Input) : Bool × Input :=
  match input.pushedBack with
  | none => seekIn input.events
  | some value =>
    match lead? value with
    | some lead => lead.leave input.events
    | none => seekIn input.events

def appendDigit (number digit : Int64) : Int64 := number * 10 + (digit - 48)

def digitsIn (number : Int64) : List ReadEvent → Int64 × Input
  | [] => (number, {events := [], pushedBack := some ended})
  | .interrupted :: rest => digitsIn number rest
  | .endOfInput :: rest | .failed :: rest => (number, {events := rest, pushedBack := some ended})
  | .byte value :: rest =>
    let word := wordOfByte value
    if isDigit word then digitsIn (appendDigit number word) rest
    else (number, {events := rest, pushedBack := some word})

def digits (input : Input) : Int64 × Input :=
  match input.pushedBack with
  | none => digitsIn 0 input.events
  | some value =>
    if isDigit value then digitsIn (appendDigit 0 value) input.events else (0, input)

def readInteger (input : Input) : Int64 × Input :=
  let (negative, start) := input.seek
  let (number, rest) := start.digits
  (if negative then -number else number, rest)

end Input
end Hexagony
