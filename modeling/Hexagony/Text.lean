namespace Hexagony

namespace Text

def blanks (count : Nat) : String := String.ofList (List.replicate count ' ')

def padLeft (width : Nat) (text : String) : String := blanks (width - text.length) ++ text

def padRight (width : Nat) (text : String) : String := text ++ blanks (width - text.length)

def padBoth (width : Nat) (text : String) : String :=
  let missing := width - text.length
  blanks (missing / 2) ++ text ++ blanks (missing - missing / 2)

def column (width : Nat) (value : Int) : String := padLeft width (toString value)

def unlines (lines : List String) : String := String.join (lines.map (· ++ "\n"))

def isBlank (char : Char) : Bool :=
  let code := char.toNat
  (9 ≤ code && code ≤ 13) || code == 0x20 || code == 0x85 || code == 0xA0 || code == 0x1680 ||
    (0x2000 ≤ code && code ≤ 0x200A) || code == 0x2028 || code == 0x2029 || code == 0x202F ||
    code == 0x205F || code == 0x3000

def trim (chars : List Char) : List Char :=
  ((chars.dropWhile isBlank).reverse.dropWhile isBlank).reverse

def wordLimit : Nat := UInt64.size

def digitValue (number : Nat) (digit : Char) : Nat := number * 10 + (digit.toNat - '0'.toNat)

def parseDigits? (chars : List Char) : Option Nat :=
  if chars.isEmpty || chars.any (fun char => !char.isDigit) then none
  else
    let number := chars.foldl digitValue 0
    if number < wordLimit then some number else none

def parseWord? : List Char → Option Nat
  | '+' :: digits => parseDigits? digits
  | digits => parseDigits? digits

def twoDigits (number : Nat) : String :=
  if number < 10 then "0" ++ toString number else toString number

-- A time of seconds and nanoseconds as `d.hh:mm:ss`; parts of a second do not show.
def duration (seconds nanoseconds : Nat) : String :=
  let seconds := seconds + nanoseconds / 1000000000
  toString (seconds / 86400) ++ "." ++ twoDigits (seconds / 3600 % 24) ++ ":" ++
    twoDigits (seconds / 60 % 60) ++ ":" ++ twoDigits (seconds % 60)

end Text

namespace Log

inductive Level where
  | trace
  | debug
  | info
  | warn
  deriving DecidableEq

namespace Level

def name : Level → String
  | trace => "TRACE"
  | debug => "DEBUG"
  | info => "INFO"
  | warn => "WARN"

def severity : Level → Nat
  | trace => 0
  | debug => 1
  | info => 2
  | warn => 3

end Level

structure Entry where
  level : Level
  message : String
  deriving DecidableEq

def Entry.text (entry : Entry) : String := entry.level.name ++ " " ++ entry.message

def report (level : Level) (entries : List Entry) : List String :=
  (entries.filter fun entry => level.severity ≤ entry.level.severity).map Entry.text

end Log

end Hexagony
