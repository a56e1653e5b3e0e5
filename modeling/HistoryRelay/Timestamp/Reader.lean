import HistoryRelay.Timestamp
import HistoryRelay.Text.Blank
import HistoryRelay.Text.Number

/-! Reading timestamps. The form is RFC 3339 taken loosely: blanks around the fields, one
digit or two in each of them, years of any length behind a sign, an offset with or without
colon. -/
namespace HistoryRelay.Timestamp
open Text

def field? (most low high : Nat) (cs : List Char) : Option (Nat × List Char) := do
  let (n, rest) ← digits? 1 most (skipBlanks cs)
  if low ≤ n ∧ n ≤ high then some (n, rest) else none

def mark? (c : Char) (cs : List Char) : Option (List Char) :=
  match skipBlanks cs with
  | d :: rest => if d = c then some rest else none
  | [] => none

/-- A year: at most four digits, or a sign and any number of them. -/
def year? (cs : List Char) : Option (Int × List Char) :=
  match skipBlanks cs with
  | '-' :: rest => (digits? 1 rest.length rest).map fun (n, rest) => (-(n : Int), rest)
  | '+' :: rest => (digits? 1 rest.length rest).map fun (n, rest) => ((n : Int), rest)
  | cs => (digits? 1 4 cs).map fun (n, rest) => ((n : Int), rest)

def date? (cs : List Char) : Option (Date × List Char) := do
  let (year, cs) ← year? cs
  let cs ← mark? '-' cs
  let (month, cs) ← field? 2 1 12 cs
  let cs ← mark? '-' cs
  let (day, cs) ← field? 2 1 31 cs
  let d : Date := ⟨year, month, day⟩
  if firstYear ≤ year ∧ year ≤ lastYear ∧ d.Valid then some (d, cs) else none

def separator? : List Char → Option (List Char)
  | 'T' :: rest => some rest
  | 't' :: rest => some rest
  | ' ' :: rest => some rest
  | _ => none

/-- Nanoseconds after a point: nine digits count, further ones are dropped. -/
def fraction? : List Char → Option (Nat × List Char)
  | '.' :: rest => do
    let (n, tail) ← digits? 1 9 rest
    let missing := 9 - (rest.length - tail.length)
    some (n * Nat.pow 10 missing, tail.dropWhile Char.isDigit)
  | cs => some (0, cs)

/-- Second of the day and nanoseconds; second 60 is second 59 and a second more. -/
def clock? (cs : List Char) : Option (Nat × Nat × List Char) := do
  let (hour, cs) ← field? 2 0 23 cs
  let cs ← mark? ':' cs
  let (minute, cs) ← field? 2 0 59 cs
  let cs ← mark? ':' cs
  let (second, cs) ← field? 2 0 60 cs
  let (nanos, cs) ← fraction? cs
  let start := hour * 3600 + minute * 60
  some (if second = 60 then (start + 59, nanos + 1000000000, cs) else (start + second, nanos, cs))

/-- Seconds east of Greenwich: two digits of hours, any colons and blanks, two of minutes. -/
def offset? : List Char → Option (Int × List Char)
  | 'Z' :: rest => some (0, rest)
  | 'z' :: rest => some (0, rest)
  | u :: t :: c :: rest =>
    if u.toLower = 'u' ∧ t.toLower = 't' ∧ c.toLower = 'c' then some (0, rest)
    else if u = '+' then (magnitude? (t :: c :: rest))
    else if u = '-' ∨ u = '\u2212' then
      (magnitude? (t :: c :: rest)).map fun (n, rest) => (-n, rest)
    else none
  | _ => none
where
  magnitude? (cs : List Char) : Option (Int × List Char) := do
    let (hours, cs) ← digits? 2 2 cs
    let (minutes, cs) ← digits? 2 2 (cs.dropWhile fun c => c = ':' || isBlank c)
    if hours ≤ 23 ∧ minutes ≤ 59 then some (((hours * 3600 + minutes * 60 : Nat) : Int), cs)
    else none

def ofText? (s : String) : Option Timestamp := do
  let (date, cs) ← date? s.toList
  let cs ← separator? cs
  let (second, nanos, cs) ← clock? cs
  let (offset, cs) ← offset? (skipBlanks cs)
  if (skipBlanks cs).isEmpty then make? (date.toDays * 86400 + second - offset) nanos else none

end HistoryRelay.Timestamp
