import HistoryRelay.Toml
import HistoryRelay.Calendar
import HistoryRelay.Double
import HistoryRelay.Json.Reader
import HistoryRelay.Text.Number

/-! Scalars of TOML: keys, strings, numbers and times, each read from the front of a text. -/
namespace HistoryRelay.Toml
open Text

abbrev Read (α : Type) := List Char → Option (α × List Char)

def skipWs (cs : List Char) : List Char := cs.dropWhile fun c => c = ' ' || c = '\t'

def isPlain (c : Char) : Bool := c = '\t' || (0x20 ≤ c.toNat && c.toNat ≠ 0x7F)

/-- The text after a line end, or at the end of all. -/
def newline? : List Char → Option (List Char)
  | '\n' :: rest => some rest
  | '\r' :: '\n' :: rest => some rest
  | _ => none

section Strings

def scalar? (count : Nat) (cs : List Char) : Option (Char × List Char) := do
  let digits ← (cs.take count).mapM fun c => Json.hexDigit? (UInt8.ofNat (min c.toNat 255))
  if digits.length ≠ count then none
  let code := digits.foldl (fun n d => n * 16 + d) 0
  if code < 0xD800 ∨ (0xE000 ≤ code ∧ code < 0x110000) then some (Char.ofNat code, cs.drop count)
  else none

def escape? : Read Char
  | 'b' :: rest => some ('\x08', rest)
  | 't' :: rest => some ('\t', rest)
  | 'n' :: rest => some ('\n', rest)
  | 'f' :: rest => some ('\x0c', rest)
  | 'r' :: rest => some ('\r', rest)
  | '"' :: rest => some ('"', rest)
  | '\\' :: rest => some ('\\', rest)
  | 'u' :: rest => scalar? 4 rest
  | 'U' :: rest => scalar? 8 rest
  | _ => none

/-- The rest of a basic string after its quote; `done` holds its start in reverse. -/
def basic? : Nat → List Char → Read String
  | 0, _, _ => none
  | fuel + 1, done, cs =>
    match cs with
    | '"' :: rest => some (String.ofList done.reverse, rest)
    | '\\' :: rest => do
      let (c, rest) ← escape? rest
      basic? fuel (c :: done) rest
    | c :: rest => if isPlain c then basic? fuel (c :: done) rest else none
    | [] => none

def literal? (cs : List Char) : Option (String × List Char) :=
  let inner := cs.takeWhile fun c => c ≠ '\'' && isPlain c
  match cs.drop inner.length with
  | '\'' :: rest => some (String.ofList inner, rest)
  | _ => none

def skipLines (cs : List Char) : List Char :=
  match cs with
  | ' ' :: rest => skipLines rest
  | '\t' :: rest => skipLines rest
  | '\n' :: rest => skipLines rest
  | '\r' :: '\n' :: rest => skipLines rest
  | _ => cs

/-- The rest of a string of several lines. Three to five quotes close it, those before the
last three being part of it; line ends become line feeds. -/
def multiline? (quote : Char) (escapes : Bool) : Nat → List Char → Read String
  | 0, _, _ => none
  | fuel + 1, done, cs =>
    match cs with
    | [] => none
    | c :: rest =>
      if c = quote then
        let run := cs.takeWhile (· = quote)
        if run.length < 3 then multiline? quote escapes fuel (run ++ done) (cs.drop run.length)
        else
          let inside := min (run.length - 3) 2
          some (String.ofList (List.replicate inside quote ++ done).reverse, cs.drop (inside + 3))
      else match newline? cs with
        | some rest => multiline? quote escapes fuel ('\n' :: done) rest
        | none =>
          if c = '\\' && escapes then
            match newline? (skipWs rest) with
            | some rest => multiline? quote escapes fuel done (skipLines rest)
            | none => do
              let (c, rest) ← escape? rest
              multiline? quote escapes fuel (c :: done) rest
          else if isPlain c then multiline? quote escapes fuel (c :: done) rest
          else none

/-- A string of any of the four kinds, from its opening quote. A line end right after the
opening of several lines is not part of it. -/
def string? (cs : List Char) : Option (String × List Char) :=
  let body (cs : List Char) := (newline? cs).getD cs
  let fuel := cs.length + 1
  match cs with
  | '"' :: '"' :: '"' :: rest => multiline? '"' true fuel [] (body rest)
  | '"' :: rest => basic? fuel [] rest
  | '\'' :: '\'' :: '\'' :: rest => multiline? '\'' false fuel [] (body rest)
  | '\'' :: rest => literal? rest
  | _ => none

end Strings

section Keys

def isBare (c : Char) : Bool := c.isAlphanum || c = '-' || c = '_'

def part? (cs : List Char) : Option (String × List Char) :=
  match cs with
  | '"' :: rest => basic? cs.length [] rest
  | '\'' :: rest => literal? rest
  | _ =>
    let bare := cs.takeWhile isBare
    if bare.isEmpty then none else some (String.ofList bare, cs.drop bare.length)

/-- Keys between dots, blanks around each; as many as `fuel` at most. -/
def key? : Nat → Read (List String)
  | 0, _ => none
  | fuel + 1, cs => do
    let (first, rest) ← part? (skipWs cs)
    match skipWs rest with
    | '.' :: rest => do
      let (keys, rest) ← key? fuel rest
      some (first :: keys, rest)
    | rest => some ([first], rest)

end Keys

section Numbers

def underscored (isDigit : Char → Bool) : List Char → List Char × List Char
  | '_' :: c :: rest =>
    if isDigit c then
      let (digits, rest) := underscored isDigit rest
      (c :: digits, rest)
    else ([], '_' :: c :: rest)
  | c :: rest =>
    if isDigit c then
      let (digits, rest) := underscored isDigit rest
      (c :: digits, rest)
    else ([], c :: rest)
  | [] => ([], [])

def digitRun? (isDigit : Char → Bool) (cs : List Char) : Option (List Char × List Char) :=
  match cs with
  | c :: _ => if isDigit c then some (underscored isDigit cs) else none
  | [] => none

def based? (base : Nat) (isDigit : Char → Bool) : Read Word.Signed := fun cs => do
  let (digits, rest) ← digitRun? isDigit cs
  let value := digits.foldl (fun n c =>
    n * base + ((Json.hexDigit? (UInt8.ofNat c.toNat)).getD 0)) 0
  return (← Word.signed? value, rest)

def isHexDigit (c : Char) : Bool := c.isDigit || ('a' ≤ c && c ≤ 'f') || ('A' ≤ c && c ≤ 'F')

/-- Digits of a decimal whole number; a zero in front stands alone. -/
def whole? : Read (List Char)
  | '0' :: rest => some (['0'], rest)
  | cs => digitRun? Char.isDigit cs

def unsigned? (negative : Bool) : Read (Option Word.Signed) := fun cs => do
  let (whole, rest) ← whole? cs
  let (fraction, rest) ← match rest with
    | '.' :: rest => digitRun? Char.isDigit rest
    | _ => some ([], rest)
  let (exponent, rest) ← match rest with
    | e :: rest =>
      if e = 'e' ∨ e = 'E' then
        let (down, digits) := match rest with
          | '-' :: rest => (true, rest)
          | '+' :: rest => (false, rest)
          | _ => (false, rest)
        (digitRun? Char.isDigit digits).map fun (digits, rest) =>
          let n : Int := Text.valueOf digits
          (some (if down then -n else n), rest)
      else some (none, e :: rest)
    | [] => some (none, [])
  if fraction.isEmpty ∧ exponent.isNone then
    let n : Int := Text.valueOf whole
    return (some (← Word.signed? (if negative then -n else n)), rest)
  else if !negative && Double.overflows (Text.valueOf (whole ++ fraction))
      (exponent.getD 0 - fraction.length) then none
  else some (none, rest)

def signed? (negative : Bool) : Read (Option Word.Signed) := fun cs =>
  match cs with
  | 'i' :: 'n' :: 'f' :: rest => some (none, rest)
  | 'n' :: 'a' :: 'n' :: rest => some (none, rest)
  | _ => unsigned? negative cs

def number? (cs : List Char) : Option (Value × List Char) := do
  let inBase (base : Nat) (isDigit : Char → Bool) (digits : List Char) :
      Option (Option Word.Signed × List Char) :=
    (based? base isDigit digits).map fun (n, rest) => (some n, rest)
  let (whole, rest) ← match cs with
    | '+' :: rest => signed? false rest
    | '-' :: rest => signed? true rest
    | '0' :: 'x' :: rest => inBase 16 isHexDigit rest
    | '0' :: 'o' :: rest => inBase 8 (fun c => '0' ≤ c && c ≤ '7') rest
    | '0' :: 'b' :: rest => inBase 2 (fun c => c = '0' || c = '1') rest
    | _ => signed? false cs
  match whole with
  | some n => return (.integer n, rest)
  | none => return (.real (String.ofList (cs.take (cs.length - rest.length))), rest)

end Numbers

section Times

def pair? (low high : Nat) (cs : List Char) : Option (List Char) := do
  let (n, rest) ← digits? 2 2 cs
  if low ≤ n ∧ n ≤ high then some rest else none

def after (c : Char) : List Char → Option (List Char)
  | d :: rest => if d = c then some rest else none
  | [] => none

def clock? (cs : List Char) : Option (List Char) := do
  let cs ← pair? 0 23 cs
  let cs ← after ':' cs
  let cs ← pair? 0 59 cs
  let cs ← after ':' cs
  let cs ← pair? 0 60 cs
  match cs with
  | '.' :: c :: rest => if c.isDigit then some (rest.dropWhile Char.isDigit) else some cs
  | _ => some cs

def offset? (cs : List Char) : Option (List Char) :=
  match cs with
  | 'Z' :: rest => some rest
  | 'z' :: rest => some rest
  | c :: rest =>
    if c = '+' ∨ c = '-' then do
      let cs ← pair? 0 23 rest
      let cs ← after ':' cs
      pair? 0 59 cs
    else some cs
  | [] => some cs

/-- A date, a clock time, or both with an offset perhaps. A date that its separator does
not join to a clock time stands alone. -/
def time? (cs : List Char) : Option (List Char) :=
  let date : Option (List Char) := do
    let (year, cs) ← digits? 4 4 cs
    let cs ← after '-' cs
    let (month, cs) ← digits? 2 2 cs
    let cs ← after '-' cs
    let (day, cs) ← digits? 2 2 cs
    if (Date.mk year month day).Valid then some cs else none
  match date with
  | some cs =>
    match cs with
    | c :: rest =>
      if c = 'T' ∨ c = 't' ∨ c = ' ' then
        match clock? rest with
        | some rest => offset? rest
        | none => some cs
      else some cs
    | [] => some cs
  | none => clock? cs

end Times

end HistoryRelay.Toml
