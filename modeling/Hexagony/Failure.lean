import Hexagony.Escape
import Hexagony.Scaffold.Compile
import Hexagony.Search.Config
import Hexagony.Stream

namespace Hexagony

inductive AccessError where
  | notFound
  | isDirectory
  | notText
  | stream (error : StreamError)
  | other (text : String)
  deriving DecidableEq

def AccessError.message : AccessError → String
  | notFound => "No such file or directory (os error 2)"
  | isDirectory => "Is a directory (os error 21)"
  | notText => "stream did not contain valid UTF-8"
  | stream error => error.message
  | other text => text

inductive Failure where
  | fill (error : FillError)
  | search (error : Search.Error)
  | escape (error : EscapeError)
  | access (path : String) (error : AccessError)
  | outputLost
  deriving DecidableEq

namespace Failure

def ofFinish : Stream.FinishError → Failure
  | .lost => outputLost
  | .flush error => access "<stdout>" (.stream error)

def message : Failure → String
  | fill (.missing slot) => "No fill character supplied for slot " ++ toString slot
  | fill (.unsupported slot char) =>
    "Slot " ++ toString slot ++ " cannot hold `" ++ String.singleton char ++
      "`: control flow is fixed once compiled"
  | search (.notEnoughSlots free required) =>
    "Template has " ++ toString free ++ " free cells but " ++ toString required ++
      " characters are required"
  | search (.threadPool reason) => "Failed to start worker threads: " ++ reason
  | escape _ => "Invalid escape sequence"
  | access path error => "Failed to access " ++ path ++ ": " ++ error.message
  | outputLost => "Program output could not be written to stdout"

def code : Failure → String
  | fill (.missing _) => "runtime::missing_fill"
  | fill (.unsupported ..) => "runtime::unsupported_command"
  | search (.notEnoughSlots ..) => "search::not_enough_slots"
  | search (.threadPool _) => "search::thread_pool"
  | escape _ => "hexsearch::escape"
  | access .. => "hexsearch::io"
  | outputLost => "hexsearch::output"

def help : Failure → Option String
  | fill (.missing _) => some "supply one character per `?` placeholder, in slot order"
  | fill (.unsupported ..) =>
    some "mirrors, `$` and IP switches must be written into the grid before compiling"
  | search (.notEnoughSlots ..) =>
    some "add `.` cells to the template or drop required characters"
  | search (.threadPool _) => none
  | escape _ => some "supported escapes are \\n \\t \\r \\0 \\\\ \\\" and \\'"
  | access .. => none
  | outputLost => some "the output stream was closed while the program was running"

end Failure
end Hexagony
