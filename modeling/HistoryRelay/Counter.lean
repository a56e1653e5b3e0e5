import HistoryRelay.Double
import HistoryRelay.Word

/-! Counters as the store keeps them: whole numbers of 64 bits with a sign, and doubles once a
sum has left those. Main statement: as long as the sums fit, adding is exact. -/
namespace HistoryRelay

inductive Counter where
  | whole (n : Int)
  /-- A double, which is a whole number too. -/
  | rounded (n : Int)
deriving DecidableEq

namespace Counter

def value : Counter → Int
  | .whole n => n
  | .rounded n => n

def whole? : Counter → Option Int
  | .whole n => some n
  | .rounded _ => none

/-- How a double is stored: as a whole number again if it lies within the 64 bits, their two
ends left out. -/
def ofDouble (n : Int) : Counter :=
  if Word.isSigned (n - 1) && Word.isSigned (n + 1) then .whole n else .rounded n

/-- The counter after `n` more: whole if it was and the sum fits, else the sum of two doubles. -/
def add (c : Counter) (n : Int) : Counter :=
  match c.whole?.map (· + n) with
  | some sum => if Word.isSigned sum then .whole sum else doubled
  | none => doubled
where
  doubled : Counter :=
    ofDouble (Double.roundSigned (Double.roundSigned c.value + Double.roundSigned n))

theorem add_whole {m n : Int} (h : Word.isSigned (m + n)) : (whole m).add n = .whole (m + n) := by
  simp [add, whole?, h]

inductive Sum where
  | whole (n : Int)
  /-- Some counter is rounded, hence the sum. -/
  | rounded
  /-- All counters are whole, and some partial sum does not fit. -/
  | overflow
deriving DecidableEq

/-- The sum of numbers, each partial sum of which has to fit. -/
def sumFrom (total : Int) : List Int → Option Int
  | [] => some total
  | n :: rest => if Word.isSigned (total + n) then sumFrom (total + n) rest else none

theorem sumFrom_eq {ns : List Int} {total sum : Int} (h : sumFrom total ns = some sum) :
    sum = ns.foldl (· + ·) total := by
  induction ns generalizing total with
  | nil => simp_all [sumFrom]
  | cons n rest ih =>
    rw [sumFrom] at h
    split at h
    · exact ih h
    · contradiction

def sum (cs : List Counter) : Sum :=
  match cs.mapM whole? with
  | none => .rounded
  | some ns => match sumFrom 0 ns with
    | some n => .whole n
    | none => .overflow

end Counter

end HistoryRelay
