import HistoryRelay.Double
import HistoryRelay.Json
import HistoryRelay.Text.Utf8
import HistoryRelay.Word

/-! Reading JSON from bytes. Nesting has no limit: the recursion is bounded by the length
of the text. -/
namespace HistoryRelay.Json
open Text

def isSpace (b : UInt8) : Bool := b = 0x20 || b = 0x0A || b = 0x0D || b = 0x09

def skipSpace (bytes : List UInt8) : List UInt8 := bytes.dropWhile isSpace

def isDigit (b : UInt8) : Bool := 0x30 ≤ b && b ≤ 0x39

/-- What is read, and the bytes after it; no bytes follow where the text broke. -/
abbrev Reading (α : Type) := α × Option (List UInt8)

section Number

/-- Digits from the front, as long as the value they make with `n` before them fits a word:
that value, and the digits that are left. -/
def gather : Nat → List UInt8 → Nat × List UInt8
  | n, [] => (n, [])
  | n, b :: rest =>
    let next := n * 10 + (b.toNat - 0x30)
    if next < Word.bound then gather next rest else (n, b :: rest)

/-- Whether a number is too large for a double, the way it is put together: of its digits a
word is kept, the nearest double is taken, and that is multiplied by the double nearest to the
power of ten. Thus the bound is not the same for all spellings of a number. -/
def overflows (whole fraction : List UInt8) (exponent : Int) : Bool :=
  let (kept, dropped) := gather 0 whole
  let (kept, unread) := gather kept fraction
  let exponent := exponent + dropped.length - fraction.length + unread.length
  if kept = 0 || exponent < 0 then false
  else 308 < exponent ||
    Double.limit ≤ Double.round kept * Double.round (Nat.pow 10 exponent.toNat)

def valueOfDigits (digits : List UInt8) : Nat :=
  digits.foldl (fun n b => n * 10 + (b.toNat - 0x30)) 0

def exponent? (bytes : List UInt8) : Option (Int × List UInt8) :=
  let (negative, bytes) := match bytes with
    | 0x2B :: rest => (false, rest)
    | 0x2D :: rest => (true, rest)
    | _ => (false, bytes)
  let digits := bytes.takeWhile isDigit
  if digits.isEmpty then none
  else
    let value : Int := valueOfDigits digits
    some (if negative then -value else value, bytes.drop digits.length)

def numeral (negative : Bool) (bytes : List UInt8) : String :=
  let marks : List UInt8 := [0x2B, 0x2D, 0x2E, 0x45, 0x65]
  let used := bytes.takeWhile fun b => isDigit b || marks.contains b
  (if negative then "-" else "") ++ String.ofList (used.map fun b => Char.ofNat b.toNat)

def number? (negative : Bool) (bytes : List UInt8) : Option (Json.Number × List UInt8) := do
  let whole := bytes.takeWhile isDigit
  let rest := bytes.drop whole.length
  if whole.isEmpty || (whole.head? = some 0x30 && 1 < whole.length) then none
  let (fraction, rest) ← match rest with
    | 0x2E :: tail =>
      let digits := tail.takeWhile isDigit
      if digits.isEmpty then none else some (digits, tail.drop digits.length)
    | _ => some ([], rest)
  let marked := match rest with
    | b :: _ => b = 0x65 || b = 0x45
    | [] => false
  let (exponent, rest) ← if marked then exponent? (rest.drop 1) else some (0, rest)
  let real : Json.Number :=
    if overflows whole fraction exponent then .overflow else .real (numeral negative bytes)
  let value := valueOfDigits whole
  if !fraction.isEmpty || marked then some (real, rest)
  else if negative then
    some (if 0 < value ∧ Word.isSigned (-value) then .integer (-value) else real, rest)
  else
    some (if value < Word.bound then .integer value else real, rest)

end Number

section Text

def hexDigit? (b : UInt8) : Option Nat :=
  let n := b.toNat
  if 48 ≤ n ∧ n ≤ 57 then some (n - 48)
  else if 65 ≤ n ∧ n ≤ 70 then some (n - 55)
  else if 97 ≤ n ∧ n ≤ 102 then some (n - 87)
  else none

def codeUnit? (a b c d : UInt8) : Option Nat := do
  let a ← hexDigit? a
  let b ← hexDigit? b
  let c ← hexDigit? c
  let d ← hexDigit? d
  some (((a * 16 + b) * 16 + c) * 16 + d)

def escape? (b : UInt8) : Option UInt8 :=
  if b = 0x22 ∨ b = 0x5C ∨ b = 0x2F then some b
  else if b = 0x62 then some 8
  else if b = 0x66 then some 12
  else if b = 0x6E then some 10
  else if b = 0x72 then some 13
  else if b = 0x74 then some 9
  else none

/-- A string in the making: its bytes in reverse, a high surrogate that waits for its other
half, and whether some code unit has stayed without one. -/
structure StringDraft where
  bytes : List UInt8 := []
  high : Option Nat := none
  lone : Bool := false

def StringDraft.push (p : StringDraft) (bytes : List UInt8) : StringDraft :=
  ⟨bytes.reverse ++ p.bytes, none, p.lone || p.high.isSome⟩

def StringDraft.pushUnit (p : StringDraft) (unit : Nat) : StringDraft :=
  if 0xD800 ≤ unit ∧ unit < 0xDC00 then ⟨p.bytes, some unit, p.lone || p.high.isSome⟩
  else if 0xDC00 ≤ unit ∧ unit < 0xE000 then
    match p.high with
    | some high =>
      let code := 0x10000 + (high - 0xD800) * 1024 + (unit - 0xDC00)
      ⟨(String.utf8EncodeChar (Char.ofNat code)).reverse ++ p.bytes, none, p.lone⟩
    | none => { p with lone := true }
  else p.push (String.utf8EncodeChar (Char.ofNat unit))

def StringDraft.finish (p : StringDraft) : Option String :=
  if p.lone || p.high.isSome then none else (Utf8.decode? p.bytes.reverse).map String.ofList

def string? (p : StringDraft) : List UInt8 → Option (Option String × List UInt8)
  | [] => none
  | 0x22 :: rest => some (p.finish, rest)
  | 0x5C :: 0x75 :: a :: b :: c :: d :: rest =>
    match codeUnit? a b c d with
    | some unit => string? (p.pushUnit unit) rest
    | none => none
  | 0x5C :: b :: rest =>
    match escape? b with
    | some byte => string? (p.push [byte]) rest
    | none => none
  | b :: rest => if b < 0x20 then none else string? (p.push [b]) rest

end Text

def literal (tail : List UInt8) (value : Json) (bytes : List UInt8) : Reading Json :=
  if tail.isPrefixOf bytes then (value, some (bytes.drop tail.length)) else (.broken, none)

mutual

def value : Nat → List UInt8 → Reading Json
  | 0, _ => (.broken, none)
  | fuel + 1, bytes =>
    match skipSpace bytes with
    | 0x6E :: rest => literal [0x75, 0x6C, 0x6C] .null rest
    | 0x74 :: rest => literal [0x72, 0x75, 0x65] (.bool true) rest
    | 0x66 :: rest => literal [0x61, 0x6C, 0x73, 0x65] (.bool false) rest
    | 0x22 :: rest =>
      match string? {} rest with
      | some (s, rest) => (.string s, some rest)
      | none => (.broken, none)
    | 0x5B :: rest => items fuel [] true rest
    | 0x7B :: rest => members fuel [] true rest
    | b :: rest =>
      match number? (b = 0x2D) (if b = 0x2D then rest else b :: rest) with
      | some (n, rest) => (.number n, some rest)
      | none => (.broken, none)
    | [] => (.broken, none)

def items : Nat → List Json → Bool → List UInt8 → Reading Json
  | 0, done, _, _ => (.array done.reverse false, none)
  | fuel + 1, done, first, bytes =>
    match skipSpace bytes with
    | 0x5D :: rest => (.array done.reverse true, some rest)
    | b :: rest =>
      if first || b = 0x2C then
        let bytes := if first then b :: rest else skipSpace rest
        if bytes.head? = some 0x5D then (.array done.reverse false, none)
        else
          match value fuel bytes with
          | (j, some rest) => items fuel (j :: done) false rest
          | (j, none) => (.array (j :: done).reverse false, none)
      else (.array done.reverse false, none)
    | [] => (.array done.reverse false, none)

/-- The members of an object, likewise. A name with no value after it has a broken one. -/
def members : Nat → List (Option String × Json) → Bool → List UInt8 → Reading Json
  | 0, done, _, _ => (.object done.reverse false, none)
  | fuel + 1, done, first, bytes =>
    match skipSpace bytes with
    | 0x7D :: rest => (.object done.reverse true, some rest)
    | b :: rest =>
      if first || b = 0x2C then
        match (if first then b :: rest else skipSpace rest) with
        | 0x22 :: rest =>
          match string? {} rest with
          | some (name, rest) =>
            match skipSpace rest with
            | 0x3A :: rest =>
              match value fuel rest with
              | (j, some rest) => members fuel ((name, j) :: done) false rest
              | (j, none) => (.object ((name, j) :: done).reverse false, none)
            | _ => (.object ((name, .broken) :: done).reverse false, none)
          | none => (.object done.reverse false, none)
        | _ => (.object done.reverse false, none)
      else (.object done.reverse false, none)
    | [] => (.object done.reverse false, none)

end

/-- A whole text: its value, and whether only blanks follow. -/
def ofBytes (bytes : List UInt8) : Json × Bool :=
  match value (2 * bytes.length + 2) bytes with
  | (j, some rest) => (j, (skipSpace rest).isEmpty)
  | (j, none) => (j, false)

end HistoryRelay.Json
