import HistoryRelay.Timestamp
import HistoryRelay.Text.Number

/-! Timestamps as text. A year outside 0..9999 carries a sign; the fraction has no digits
or three, six or nine of them, the fewest that lose nothing; a leap second is second 60. -/
namespace HistoryRelay.Timestamp
open Text

def yearText (year : Int) : String :=
  if 0 ≤ year ∧ year ≤ 9999 then padded 4 year.toNat
  else (if year < 0 then "-" else "+") ++ padded 4 year.natAbs

def dateText (d : Date) : String :=
  yearText d.year ++ "-" ++ padded 2 d.month ++ "-" ++ padded 2 d.day

def fractionText (nanos : Nat) : String :=
  if nanos = 0 then ""
  else if nanos % 1000000 = 0 then "." ++ padded 3 (nanos / 1000000)
  else if nanos % 1000 = 0 then "." ++ padded 6 (nanos / 1000)
  else "." ++ padded 9 nanos

def clockText (t : Timestamp) : String :=
  let s := t.secondOfDay
  let second := if t.isLeapSecond then 60 else s % 60
  padded 2 (s / 3600) ++ ":" ++ padded 2 (s / 60 % 60) ++ ":" ++ padded 2 second ++
    fractionText (t.nanos % 1000000000)

/-- The form of the wire, `2024-01-02T03:04:05.120Z`. -/
def text (t : Timestamp) : String := dateText t.date ++ "T" ++ clockText t ++ "Z"

/-- The form of messages to people, `2024-01-02 03:04:05.120 UTC`. -/
def display (t : Timestamp) : String := dateText t.date ++ " " ++ clockText t ++ " UTC"

end HistoryRelay.Timestamp
