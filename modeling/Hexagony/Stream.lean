namespace Hexagony

inductive WriteReply where
  | all
  -- One byte is taken, and as many more as given if there are so many.
  | short (more : Nat := 0)
  | zero
  | interrupted
  | error
  deriving DecidableEq

inductive FlushReply where
  | ok
  | error
  deriving DecidableEq

inductive StreamError where
  | closed
  | stalled
  deriving DecidableEq

def StreamError.message : StreamError → String
  | closed => "closed"
  | stalled => "failed to write whole buffer"

structure Device where
  writes : List WriteReply := []
  flushes : List FlushReply := []
  taken : Array UInt8 := #[]
  writeCalls : Nat := 0
  flushCalls : Nat := 0
  deriving DecidableEq

structure Offer where
  writes : List WriteReply
  taken : List UInt8 := []
  calls : Nat := 0
  error : Option StreamError := none
  deriving DecidableEq

namespace Offer

def taking (bytes : List UInt8) (offer : Offer) : Offer :=
  {offer with taken := bytes ++ offer.taken, calls := offer.calls + 1}

def make : List WriteReply → List UInt8 → Offer
  | writes, [] => {writes}
  | [], bytes => taking bytes {writes := []}
  | .all :: writes, bytes => taking bytes {writes}
  | .short more :: writes, byte :: bytes =>
    taking (byte :: bytes.take more) (make writes (bytes.drop more))
  | .interrupted :: writes, bytes => taking [] (make writes bytes)
  | .zero :: writes, _ => taking [] {writes, error := some .stalled}
  | .error :: writes, _ => taking [] {writes, error := some .closed}

end Offer

namespace Device

def write (device : Device) (bytes : List UInt8) : Option StreamError × Device :=
  let offer := Offer.make device.writes bytes
  (offer.error,
    {device with
      writes := offer.writes
      taken := device.taken ++ offer.taken.toArray
      writeCalls := device.writeCalls + offer.calls})

def flush (device : Device) : Option StreamError × Device :=
  let called := {device with flushCalls := device.flushCalls + 1}
  match device.flushes with
  | [] => (none, called)
  | .ok :: flushes => (none, {called with flushes})
  | .error :: flushes => (some .closed, {called with flushes})

end Device

structure Stream where
  device : Device := {}
  failure : Option StreamError := none
  deriving DecidableEq

namespace Stream

def send (stream : Stream) (char : Char) : Stream :=
  match stream.failure with
  | some _ => stream
  | none =>
    match stream.device.write (String.utf8EncodeChar char) with
    | (some error, device) => {device, failure := some error}
    | (none, device) =>
      if char = '\n' then
        let (failure, device) := device.flush
        {device, failure}
      else {device}

def sendAll (stream : Stream) (text : String) : Stream := text.toList.foldl send stream

inductive FinishError where
  | lost
  | flush (error : StreamError)
  deriving DecidableEq

-- The last flush. A stream that failed before has lost output and is left alone.
def finish (stream : Stream) : Except FinishError Unit × Stream :=
  match stream.failure with
  | some _ => (.error .lost, stream)
  | none =>
    let (error, device) := stream.device.flush
    (match error with
      | some error => .error (.flush error)
      | none => .ok (),
      {stream with device})

end Stream
end Hexagony
