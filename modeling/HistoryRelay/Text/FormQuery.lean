import HistoryRelay.Text.Utf8

/-! Query strings in the form-urlencoded format: pairs between ampersands, the first
equals sign parts name from value, a plus is a space, a percent sign with two hexadecimal
digits is a byte. A percent sign without them stands for itself, and ill-formed UTF-8 is
shown with replacement characters, so every text is a query string. -/
namespace HistoryRelay.Text.FormQuery

def hexValue? (b : UInt8) : Option Nat :=
  let n := b.toNat
  if 48 ≤ n ∧ n ≤ 57 then some (n - 48)
  else if 65 ≤ n ∧ n ≤ 70 then some (n - 55)
  else if 97 ≤ n ∧ n ≤ 102 then some (n - 87)
  else none

def percentDecode : List UInt8 → List UInt8
  | 0x25 :: a :: b :: rest =>
    match hexValue? a, hexValue? b with
    | some x, some y => UInt8.ofNat (x * 16 + y) :: percentDecode rest
    | _, _ => 0x25 :: percentDecode (a :: b :: rest)
  | b :: rest => b :: percentDecode rest
  | [] => []

def plusToSpace (bytes : List UInt8) : List UInt8 := bytes.map fun b => if b = 0x2B then 0x20 else b

def component (bytes : List UInt8) : String :=
  String.ofList (Utf8.decodeLossy (percentDecode (plusToSpace bytes)))

def pair (piece : List UInt8) : String × String :=
  (component (piece.takeWhile (· ≠ 0x3D)), component ((piece.dropWhile (· ≠ 0x3D)).drop 1))

/-- The pairs of a query string in order; empty pieces are no pairs. -/
def pairs (query : String) : List (String × String) :=
  (((Utf8.encode query.toList).splitOn 0x26).filter (!·.isEmpty)).map pair

end HistoryRelay.Text.FormQuery
