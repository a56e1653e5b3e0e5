/-! Whole numbers of 32 and of 64 bits. -/
namespace HistoryRelay.Word

/-- Unsigned numbers of 32 bits are below 2 to the 32. -/
def halfBound : Nat := 4294967296

/-- Unsigned numbers of 64 bits are below 2 to the 64. -/
def bound : Nat := 18446744073709551616

-- The zero is named because it is the one that the literals of `Fin` look for.
instance : @NeZero Nat Zero.ofOfNat0 halfBound := ⟨Nat.succ_ne_zero 4294967295⟩
instance : @NeZero Nat Zero.ofOfNat0 bound := ⟨Nat.succ_ne_zero 18446744073709551615⟩

/-- Numbers that carry their range. -/
abbrev Half := Fin halfBound
abbrev Full := Fin bound

def isSigned (n : Int) : Bool := -9223372036854775808 ≤ n && n ≤ 9223372036854775807

theorem isSigned_iff {n : Int} :
    isSigned n = true ↔ -9223372036854775808 ≤ n ∧ n ≤ 9223372036854775807 := by
  simp only [isSigned, Bool.and_eq_true, decide_eq_true_eq]

abbrev Signed := { n : Int // isSigned n = true }

def signed? (n : Int) : Option Signed := if h : isSigned n = true then some ⟨n, h⟩ else none

/-- The 64 bits of `n` read as a signed number: the upper half is negative. -/
def signed (n : Nat) : Int := Int.bmod n bound

theorem signed_of_lt {n : Nat} (h : n < 9223372036854775808) : signed n = n := by
  unfold signed bound
  rw [Int.bmod_def]
  split <;> omega

end HistoryRelay.Word
