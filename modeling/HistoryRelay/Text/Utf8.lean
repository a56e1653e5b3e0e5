/-! UTF-8 read byte by byte. A byte list falls into well-formed characters and
maximal ill-formed runs; the strict reader refuses a list with such a run, the lossy
one shows each run as one replacement character. -/
namespace HistoryRelay.Text.Utf8

def encode (cs : List Char) : List UInt8 := cs.flatMap String.utf8EncodeChar

/-- What may follow a lead byte: the bits it carries, the range allowed for the second
byte, and how many further continuation bytes come after that one. -/
structure Lead where
  bits : Nat
  low : UInt8
  high : UInt8
  more : Nat

/-- The lead bytes of sequences of two to four bytes. The narrow ranges after E0, ED, F0
and F4 shut out overlong forms, surrogates and values above U+10FFFF. -/
def lead? (b : UInt8) : Option Lead :=
  let n := b.toNat
  if 0xC2 ≤ n ∧ n ≤ 0xDF then some ⟨n - 0xC0, 0x80, 0xBF, 0⟩
  else if n = 0xE0 then some ⟨0, 0xA0, 0xBF, 1⟩
  else if n = 0xED then some ⟨0xD, 0x80, 0x9F, 1⟩
  else if 0xE1 ≤ n ∧ n ≤ 0xEF then some ⟨n - 0xE0, 0x80, 0xBF, 1⟩
  else if n = 0xF0 then some ⟨0, 0x90, 0xBF, 2⟩
  else if 0xF1 ≤ n ∧ n ≤ 0xF3 then some ⟨n - 0xF0, 0x80, 0xBF, 2⟩
  else if n = 0xF4 then some ⟨4, 0x80, 0x8F, 2⟩
  else none

/-- Continuation bytes of one character: the character, or nothing where the sequence
breaks off, and the bytes that were not used. -/
def continuation : Nat → Nat → UInt8 → UInt8 → List UInt8 → Option Char × List UInt8
  | _, _, _, _, [] => (none, [])
  | value, more, low, high, b :: rest =>
    if low ≤ b ∧ b ≤ high then
      let value := value * 64 + (b.toNat - 0x80)
      match more with
      | 0 => (some (Char.ofNat value), rest)
      | more + 1 => continuation value more 0x80 0xBF rest
    else (none, b :: rest)

theorem continuation_length (value more : Nat) (low high : UInt8) (bytes : List UInt8) :
    (continuation value more low high bytes).2.length ≤ bytes.length := by
  induction bytes generalizing value more low high with
  | nil => simp [continuation]
  | cons b rest ih =>
    unfold continuation
    split
    · cases more with
      | zero => simp
      | succ more => exact Nat.le_succ_of_le (ih ..)
    · simp

/-- One character, or one ill-formed run, starting at byte `b`. -/
def next (b : UInt8) (rest : List UInt8) : Option Char × List UInt8 :=
  if b < 0x80 then (some (Char.ofNat b.toNat), rest)
  else match lead? b with
    | none => (none, rest)
    | some l => continuation l.bits l.more l.low l.high rest

theorem next_length (b : UInt8) (rest : List UInt8) : (next b rest).2.length ≤ rest.length := by
  unfold next
  split
  · simp
  · split
    · simp
    · exact continuation_length ..

/-- The characters of a byte list, `none` standing for each ill-formed run. -/
def pieces : List UInt8 → List (Option Char)
  | [] => []
  | b :: rest => (next b rest).1 :: pieces (next b rest).2
  termination_by bytes => bytes.length
  decreasing_by exact Nat.lt_succ_of_le (next_length b rest)

def decode? (bytes : List UInt8) : Option (List Char) := (pieces bytes).mapM id

def decodeLossy (bytes : List UInt8) : List Char := (pieces bytes).map (·.getD '\uFFFD')

end HistoryRelay.Text.Utf8
