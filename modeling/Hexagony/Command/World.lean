import Hexagony.Failure
import Hexagony.Machine.Input

namespace Hexagony

inductive FileEntry where
  | file (bytes : ByteArray)
  | directory
  | unreadable (reason : String)

structure World where
  files : String → Option FileEntry
  standardInput : ByteArray := .empty
  threadSetting : Option String := none
  cores : Nat := 1
  poolRefusal : Option String := none

inductive InputSource where
  | standard
  | file (path : String)
  | empty
  deriving DecidableEq

namespace World

def readSource (world : World) (path : String) : Except Failure String :=
  match world.files path with
  | none => .error (.access path .notFound)
  | some .directory => .error (.access path .isDirectory)
  | some (.unreadable reason) => .error (.access path (.other reason))
  | some (.file bytes) =>
    match String.fromUTF8? bytes with
    | some text => .ok text
    | none => .error (.access path .notText)

-- A directory can be opened, but every attempt to read from it fails.
def openInput (world : World) : InputSource → Except Failure Input
  | .standard => .ok (.ofBytes world.standardInput.toList)
  | .empty => .ok {}
  | .file path =>
    match world.files path with
    | none => .error (.access path .notFound)
    | some .directory => .ok {}
    | some (.unreadable reason) => .error (.access path (.other reason))
    | some (.file bytes) => .ok (.ofBytes bytes.toList)

end World
end Hexagony
