/-! Decimal numbers as text: runs of ASCII digits read as a value, and values written
with a least number of digits. -/
namespace HistoryRelay.Text

def digitValue (c : Char) : Nat := c.toNat - 48

def valueOf (digits : List Char) : Nat := digits.foldl (fun n c => n * 10 + digitValue c) 0

/-- An unsigned decimal number that fills the whole text: digits only, at least one. -/
def natural? (cs : List Char) : Option Nat :=
  if cs.isEmpty || cs.any (fun c => !c.isDigit) then none else some (valueOf cs)

/-- An unsigned number below `bound`; one leading plus sign is allowed. -/
def unsigned? (bound : Nat) (cs : List Char) : Option (Fin bound) :=
  let digits := match cs with
    | '+' :: rest => rest
    | _ => cs
  (natural? digits).bind fun n => if h : n < bound then some ⟨n, h⟩ else none

def padded (width n : Nat) : String :=
  let digits := toString n
  String.ofList (List.replicate (width - digits.length) '0') ++ digits

def digits? (least most : Nat) (cs : List Char) : Option (Nat × List Char) :=
  let run := (cs.take most).takeWhile Char.isDigit
  if run.length < least then none else some (valueOf run, cs.drop run.length)

end HistoryRelay.Text
