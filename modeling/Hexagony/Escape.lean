namespace Hexagony

-- A backslash that starts no escape: where it stands, in bytes of the text as UTF-8, and the
-- character after it, if there is one.
structure EscapeError where
  offset : Nat
  next : Option Char
  deriving DecidableEq

namespace EscapeError

def width (error : EscapeError) : Nat :=
  match error.next with
  | some char => 1 + char.utf8Size
  | none => 1

def label (error : EscapeError) : String :=
  match error.next with
  | some char => "unknown escape `\\" ++ String.singleton char ++ "`"
  | none => "dangling backslash"

end EscapeError

namespace Escape

def value? : Char → Option Char
  | 'n' => some '\n'
  | 't' => some '\t'
  | 'r' => some '\r'
  | '0' => some '\x00'
  | '\\' => some '\\'
  | '\x22' => some '\x22'
  | '\x27' => some '\x27'
  | _ => none

def decodeFrom (offset : Nat) : List Char → Except EscapeError (List Char)
  | [] => .ok []
  | '\\' :: char :: rest =>
    match value? char with
    | some value => do
      let others ← decodeFrom (offset + 1 + char.utf8Size) rest
      return value :: others
    | none => .error ⟨offset, some char⟩
  | char :: rest =>
    if char = '\\' then .error ⟨offset, none⟩
    else do
      let others ← decodeFrom (offset + char.utf8Size) rest
      return char :: others

def decode (text : String) : Except EscapeError String :=
  (decodeFrom 0 text.toList).map String.ofList

end Escape
end Hexagony
