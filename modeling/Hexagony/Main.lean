import Hexagony.Command.Session

namespace Hexagony.Main

partial def readAll (stream : IO.FS.Stream) (bytes : ByteArray := .empty) : IO ByteArray := do
  let chunk ← stream.read 65536
  if chunk.isEmpty then return bytes else readAll stream (bytes ++ chunk)

def readEntry (path : String) : IO (Option FileEntry) := do
  try
    return some (.file (← IO.FS.readBinFile path))
  catch
    | .noFileOrDirectory .. => return none
    | .inappropriateType .. => return some .directory
    | other => return some (.unreadable other.toString)

def filesOf : Command.Invocation → List String
  | .run file options | .scaffold file _ options => file :: options.input.toList
  | .grid file => [file]
  | .search _ => []

def readsInput : Command.Invocation → Bool
  | .run _ options => options.input.isNone
  | .scaffold _ fill options => fill.isSome && options.input.isNone
  | .grid _ | .search _ => false

def worldOf (invocation : Command.Invocation) : IO World := do
  let entries ← (filesOf invocation).filterMapM fun path => do
    return (← readEntry path).map ((path, ·))
  let standardInput ← if readsInput invocation then readAll (← IO.getStdin) else pure .empty
  return {
    files := fun path => entries.lookup path
    standardInput
    threadSetting := ← IO.getEnv ThreadMode.variableName}

def report : Command.Outcome → IO UInt32
  | .badArguments => do
    IO.eprintln "error: bad arguments"
    return 2
  | .failed printed failure => do
    IO.print printed
    IO.eprintln ("Error: " ++ failure.message)
    if let some help := failure.help then IO.eprintln ("help: " ++ help)
    return 1
  | .done printed summary => do
    IO.print printed
    IO.eprint summary
    return 0

end Hexagony.Main

def main (arguments : List String) : IO UInt32 := do
  match Hexagony.Command.Arguments.parse arguments with
  | none => Hexagony.Main.report .badArguments
  | some invocation =>
    Hexagony.Main.report (invocation.carryOut (← Hexagony.Main.worldOf invocation))
