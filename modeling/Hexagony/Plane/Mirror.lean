import Hexagony.Plane.Basic

namespace Hexagony

inductive Mirror where
  | slash
  | backslash
  | underscore
  | pipe
  | lessThan
  | greaterThan
  deriving DecidableEq

namespace Mirror
open Direction

def ofChar? : Char → Option Mirror
  | '/' => some slash
  | '\\' => some backslash
  | '_' => some underscore
  | '|' => some pipe
  | '<' => some lessThan
  | '>' => some greaterThan
  | _ => none

def name : Mirror → String
  | slash => "Slash"
  | backslash => "Backslash"
  | underscore => "Underscore"
  | pipe => "Pipe"
  | lessThan => "LessThan"
  | greaterThan => "GreaterThan"

def signDependent : Mirror → Bool
  | lessThan | greaterThan => true
  | slash | backslash | underscore | pipe => false

def reflect (mirror : Mirror) (positive : Bool) : Direction → Direction :=
  match mirror with
  | slash => fun
    | east => northWest
    | southEast => west
    | southWest => southWest
    | west => southEast
    | northWest => east
    | northEast => northEast
  | backslash => fun
    | east => southWest
    | southEast => southEast
    | southWest => east
    | west => northEast
    | northWest => northWest
    | northEast => west
  | underscore => fun
    | east => east
    | southEast => northEast
    | southWest => northWest
    | west => west
    | northWest => southWest
    | northEast => southEast
  | pipe => fun
    | east => west
    | southEast => southWest
    | southWest => southEast
    | west => east
    | northWest => northEast
    | northEast => northWest
  | lessThan => fun
    | east => if positive then southEast else northEast
    | southEast => northWest
    | southWest => west
    | west => east
    | northWest => west
    | northEast => southWest
  | greaterThan => fun
    | east => west
    | southEast => east
    | southWest => northEast
    | west => if positive then northWest else southWest
    | northWest => southEast
    | northEast => east

end Mirror
end Hexagony
