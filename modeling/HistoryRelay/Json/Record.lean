import HistoryRelay.Json.Reader
import HistoryRelay.Word
import HistoryRelay.Timestamp.Reader
import HistoryRelay.Text.Base64

/-! Typed values from JSON. A record is an object with named fields in any order, or an
array of its fields in order; unknown names are passed over and a name may come once. What
is reported is the first fault met from left to right. -/
namespace HistoryRelay.Json

inductive Fault where
  /-- The text is not JSON. -/
  | notJson
  /-- It is JSON of another shape. -/
  | shape
deriving DecidableEq

abbrev Decoder (α : Type) := Json → Except Fault α

def mismatch : Json → Fault
  | .broken => .notJson
  | .string none => .notJson
  | .number .overflow => .notJson
  | _ => .shape

def asText : Decoder String
  | .string (some s) => .ok s
  | j => .error (mismatch j)

def asBool : Decoder Bool
  | .bool b => .ok b
  | j => .error (mismatch j)

def asBelow (bound : Nat) : Decoder (Fin bound)
  | .number (.integer n) =>
    if h : 0 ≤ n ∧ n < bound then .ok ⟨n.toNat, by omega⟩ else .error .shape
  | j => .error (mismatch j)

def asWord : Decoder Word.Full := asBelow Word.bound

def asHalf : Decoder Word.Half := asBelow Word.halfBound

/-- A count as messages have it. In the store it may leave the 32 bits. -/
def asHalfWord : Decoder Nat := fun j => Fin.val <$> asHalf j

def asTextOf {α : Type} (read : String → Option α) : Decoder α := fun j => do
  match read (← asText j) with
  | some a => .ok a
  | none => .error .shape

def asBytes : Decoder (List UInt8) := asTextOf Text.Base64.decode?

def asTimestamp : Decoder Timestamp := asTextOf Timestamp.ofText?

def asOption {α : Type} (decode : Decoder α) : Decoder (Option α)
  | .null => .ok none
  | j => some <$> decode j

def asList {α : Type} (decode : Decoder α) : Decoder (List α)
  | .array items closed => do
    let values ← items.mapM decode
    if closed then .ok values else .error .notJson
  | j => .error (mismatch j)

/-- A field: its name, the values it takes, and what stands for it when it is missing from
an object, or from the end of an array. -/
structure Field (α : Type) where
  name : String
  decode : Decoder α
  absent : Option α := none
  absentAtEnd : Option α := none

def required {α : Type} (name : String) (decode : Decoder α) : Field α := { name, decode }

def defaulted {α : Type} (name : String) (decode : Decoder α) (default : α) : Field α :=
  { name, decode, absent := some default, absentAtEnd := some default }

/-- A field that may be null; in an object it may also be left out. -/
def nullable {α : Type} (name : String) (decode : Decoder α) : Field (Option α) :=
  { name, decode := asOption decode, absent := some none }

/-- How a record is read: for each field in order its name and a check of a value for it;
then the record from the fields of an object, or from the items of an array. The two
constructions assume that the values given have passed the checks. -/
structure Shape (α : Type) where
  checks : List (String × (Json → Option Fault))
  ofFields : (String → Option Json) → Except Fault α
  ofItems : List Json → Except Fault (α × List Json)

namespace Shape
variable {α β : Type}

def pure (a : α) : Shape α := ⟨[], fun _ => .ok a, fun items => .ok (a, items)⟩

def and (s : Shape (β → α)) (f : Field β) : Shape α where
  checks := s.checks ++ [(f.name, fun j => match f.decode j with
    | .ok _ => none
    | .error fault => some fault)]
  ofFields get := do
    let make ← s.ofFields get
    match get f.name, f.absent with
    | some j, _ => return make (← f.decode j)
    | none, some b => return make b
    | none, none => .error .shape
  ofItems items := do
    let (make, items) ← s.ofItems items
    match items, f.absentAtEnd with
    | j :: rest, _ => return (make (← f.decode j), rest)
    | [], some b => return (make b, [])
    | [], none => .error .shape

/-- The first fault among the members of an object, in their order. -/
def faultOf (s : Shape α) (seen : List String) : List (Option String × Json) → Option Fault
  | [] => none
  | (none, _) :: _ => some .notJson
  | (some name, j) :: rest =>
    match s.checks.find? (·.1 = name) with
    | none => if j.wellFormed then s.faultOf seen rest else some .notJson
    | some (_, check) =>
      if name ∈ seen then some .shape
      else match check j with
        | some fault => some fault
        | none => s.faultOf (name :: seen) rest

def lookup (members : List (Option String × Json)) (name : String) : Option Json :=
  (members.find? (·.1 = some name)).map (·.2)

def decode (s : Shape α) : Decoder α
  | .object members closed =>
    match s.faultOf [] members with
    | some fault => .error fault
    | none => if closed then s.ofFields (lookup members) else .error .notJson
  | .array items closed => do
    -- an unfinished array breaks where its items end, before a missing field is noticed
    if closed then
      let (a, rest) ← s.ofItems items
      if rest.isEmpty then .ok a else .error .notJson
    else
      match s.ofItems (items ++ [.broken]) with
      | .error fault => .error fault
      | .ok _ => .error .notJson
  | j => .error (mismatch j)

end Shape

def decodeBytes {α : Type} (decode : Decoder α) (bytes : List UInt8) : Except Fault α := do
  let (j, ends) := ofBytes bytes
  let a ← decode j
  if ends then .ok a else .error .notJson

end HistoryRelay.Json
