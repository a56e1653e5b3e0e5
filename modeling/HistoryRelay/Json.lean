/-! JSON values as a text gives them, from left to right and as far as the text goes. A
text that stops being JSON leaves a mark at the place where it does, so a reader that walks
the value in order meets a wrong value before or after the broken place as the text has
them. -/
namespace HistoryRelay

/-- Numbers of a JSON text. No wire form has other than whole numbers. -/
inductive Json.Number where
  /-- Digits with an optional minus, between -2^63 and 2^64 - 1, minus zero excepted. -/
  | integer (value : Int)
  /-- Any other number, as it is written. -/
  | real (numeral : String)
  /-- Too large for a double, as the reader puts it together. -/
  | overflow
deriving DecidableEq

inductive Json where
  | null
  | bool (value : Bool)
  | number (value : Json.Number)
  /-- A string; `none` when its code units or bytes are no Unicode text. -/
  | string (value : Option String)
  | array (items : List Json) (closed : Bool)
  | object (members : List (Option String × Json)) (closed : Bool)
  /-- The text is not JSON from here on. -/
  | broken

namespace Json

def text (s : String) : Json := .string (some s)
def int (n : Int) : Json := .number (.integer n)
def nat (n : Nat) : Json := int n
def list (items : List Json) : Json := .array items true
def record (fields : List (String × Json)) : Json :=
  .object (fields.map fun (name, value) => (some name, value)) true

mutual

/-- Whether the text of the value is JSON to its end. Strings and numbers count by their
form alone. -/
def wellFormed : Json → Bool
  | .array items closed => closed && allWellFormed items
  | .object members closed => closed && membersWellFormed members
  | .broken => false
  | _ => true

def allWellFormed : List Json → Bool
  | [] => true
  | j :: rest => wellFormed j && allWellFormed rest

def membersWellFormed : List (Option String × Json) → Bool
  | [] => true
  | (_, j) :: rest => wellFormed j && membersWellFormed rest

end

end Json

end HistoryRelay
