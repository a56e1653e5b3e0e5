import HistoryRelay.Calendar

/-! Times as clients send them and as the store keeps them. A timestamp has nanoseconds,
may fall into a leap second and spans some half a million years; a stored instant is a
64-bit count of nanoseconds from 1970, in which a leap second is the second after it. -/
namespace HistoryRelay

def Timestamp.firstYear : Int := -262143
def Timestamp.lastYear : Int := 262142

/-- Midnight of the first day of the first year, in seconds from 1970. -/
def Timestamp.firstSecond : Int := -8334601228800

def Timestamp.lastSecond : Int := 8210266876799

/-- A time in UTC: whole seconds from 1970 rounded down, and nanoseconds after them. A
leap second is told as a nanosecond part of one second or more after second 59. -/
structure Timestamp where
  seconds : Int
  nanos : Nat
  nanos_lt : nanos < 2000000000
  leap_ends_minute : 1000000000 ≤ nanos → seconds % 60 = 59
  first_le : Timestamp.firstSecond ≤ seconds
  le_last : seconds ≤ Timestamp.lastSecond
deriving DecidableEq

namespace Timestamp

instance : Inhabited Timestamp := ⟨⟨0, 0, by decide, by decide, by decide, by decide⟩⟩

example : firstSecond = (Date.mk firstYear 1 1).toDays * 86400 := by decide
example : lastSecond = (Date.mk lastYear 12 31).toDays * 86400 + 86399 := by decide

def make? (seconds : Int) (nanos : Nat) : Option Timestamp :=
  if h : nanos < 2000000000 ∧ (1000000000 ≤ nanos → seconds % 60 = 59) ∧
      firstSecond ≤ seconds ∧ seconds ≤ lastSecond then
    some ⟨seconds, nanos, h.1, h.2.1, h.2.2.1, h.2.2.2⟩
  else none

def isLeapSecond (t : Timestamp) : Bool := 1000000000 ≤ t.nanos

def date (t : Timestamp) : Date := Date.ofDays (t.seconds / 86400)

def year (t : Timestamp) : Int := t.date.year

def secondOfDay (t : Timestamp) : Nat := (t.seconds % 86400).toNat

/-- Nanoseconds from 1970; a leap second counts as the second after it. -/
def totalNanos (t : Timestamp) : Int := t.seconds * 1000000000 + t.nanos

/-- The time some days earlier. A leap second has no place on another day, so it moves as
the second after it; nothing comes before the first year. -/
def minusDays (t : Timestamp) (days : Nat) : Option Timestamp :=
  if days = 0 then some t
  else if t.isLeapSecond then make? (t.seconds + 1 - days * 86400) (t.nanos - 1000000000)
  else make? (t.seconds - days * 86400) t.nanos

end Timestamp

/-- A time as the store keeps it: nanoseconds from 1970 in 64 bits. -/
structure Instant where
  nanos : Int
  low : -9223372036854775808 ≤ nanos
  high : nanos ≤ 9223372036854775807
deriving DecidableEq

namespace Instant

def make? (nanos : Int) : Option Instant :=
  if h : -9223372036854775808 ≤ nanos ∧ nanos ≤ 9223372036854775807 then some ⟨nanos, h.1, h.2⟩
  else none

instance : LE Instant := ⟨fun a b => a.nanos ≤ b.nanos⟩
instance : LT Instant := ⟨fun a b => a.nanos < b.nanos⟩
instance (a b : Instant) : Decidable (a ≤ b) := inferInstanceAs (Decidable (a.nanos ≤ b.nanos))
instance (a b : Instant) : Decidable (a < b) := inferInstanceAs (Decidable (a.nanos < b.nanos))

theorem le_iff (a b : Instant) : a ≤ b ↔ a.nanos ≤ b.nanos := Iff.rfl
theorem lt_iff (a b : Instant) : a < b ↔ a.nanos < b.nanos := Iff.rfl

/-- Every stored instant is a timestamp. -/
def toTimestamp (i : Instant) : Timestamp where
  seconds := i.nanos / 1000000000
  nanos := (i.nanos % 1000000000).toNat
  nanos_lt := by omega
  leap_ends_minute := by omega
  first_le := by have := i.low; unfold Timestamp.firstSecond; omega
  le_last := by have := i.high; unfold Timestamp.lastSecond; omega

end Instant

def Timestamp.toInstant? (t : Timestamp) : Option Instant := Instant.make? t.totalNanos

theorem Timestamp.toInstant?_eq_some {t : Timestamp} {i : Instant} :
    t.toInstant? = some i ↔ t.totalNanos = i.nanos := by
  have := i.low
  have := i.high
  unfold toInstant? Instant.make?
  split
  · obtain ⟨nanos, low, high⟩ := i
    simp
  · simp only [reduceCtorEq, false_iff]
    omega

end HistoryRelay
