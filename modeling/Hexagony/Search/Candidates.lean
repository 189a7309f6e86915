namespace Hexagony

namespace Choice
variable {α : Type}

-- The sublists of a given size. Those with the first item come first.
def subsets (size : Nat) (items : List α) : List (List α) :=
  if items.length < size then []
  else
    match size, items with
    | 0, _ => [[]]
    | _ + 1, [] => []
    | size + 1, first :: rest =>
      if rest.length = size then [first :: rest]
      else (subsets size rest).map (first :: ·) ++ subsets (size + 1) rest

def binomial (count size : Nat) : Nat :=
  if count < size then 0
  else (List.range size).foldl (fun total index => total * (count - index) / (index + 1)) 1

def picks : List α → List (α × List α)
  | [] => []
  | first :: rest => (first, rest) :: (picks rest).map fun (item, others) => (item, first :: others)

def arrangements : Nat → List α → List (List α)
  | 0, _ => [[]]
  | length + 1, items =>
    (picks items).flatMap fun (first, others) => (arrangements length others).map (first :: ·)

def orderings (items : List α) : List (List α) := arrangements items.length items

end Choice

def advanceDigits (base : Nat) : List Nat → Option (List Nat)
  | [] => none
  | digit :: rest =>
    match advanceDigits base rest with
    | some advanced => some (digit :: advanced)
    | none => if digit + 1 < base then some ((digit + 1) :: rest.map fun _ => 0) else none

structure Words where
  alphabet : Array Char
  digits : Option (List Nat)

namespace Words
variable {β : Type}

-- An empty alphabet has only the empty word.
def ofAlphabet (alphabet : List Char) (length : Nat) : Words where
  alphabet := alphabet.toArray
  digits := if alphabet.isEmpty && 0 < length then none else some (List.replicate length 0)

def next? (words : Words) : Option (List Char × Words) :=
  words.digits.map fun digits =>
    (digits.map (words.alphabet.getD · '.'),
      {words with digits := advanceDigits words.alphabet.size digits})

def foldl (f : β → List Char → β) : Nat → β → Words → β
  | 0, result, _ => result
  | count + 1, result, words =>
    match words.next? with
    | none => result
    | some (word, rest) => foldl f count (f result word) rest

def take (count : Nat) (words : Words) : List (List Char) :=
  (words.foldl Array.push count #[]).toList

def countLimit : Nat := Nat.pow 2 128 - 1

-- The number of words. Of the length only the low 32 bits count. A power of a base of two or more
-- is past the limit from the exponent 128 on.
def total (letters length : Nat) : Nat :=
  let exponent := length % UInt32.size
  if letters ≤ 1 || exponent < 128 then min (Nat.pow letters exponent) countLimit else countLimit

end Words
end Hexagony
