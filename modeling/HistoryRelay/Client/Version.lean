import HistoryRelay.Text.DecimalDigit
import HistoryRelay.Text.Number
import HistoryRelay.Word

/-! Client versions. A version header is any text with one token `v<major>.<minor>` in it;
versions compare as ordinal pairs. -/
namespace HistoryRelay

structure ClientVersion where
  major : Nat
  minor : Nat
deriving DecidableEq

namespace ClientVersion
open Text

def compare (a b : ClientVersion) : Ordering :=
  (Ord.compare a.major b.major).then (Ord.compare a.minor b.minor)

def text (v : ClientVersion) : String := "v" ++ toString v.major ++ "." ++ toString v.minor

/-- The two digit runs of a token that starts here: the letter, decimal digits of any
script, a dot, decimal digits. Runs are as long as they go. -/
def tokenAt : List Char → Option (List Char × List Char)
  | 'v' :: rest =>
    let major := rest.takeWhile isDecimalDigit
    match rest.dropWhile isDecimalDigit with
    | '.' :: tail =>
      let minor := tail.takeWhile isDecimalDigit
      if major.isEmpty || minor.isEmpty then none else some (major, minor)
    | _ => none
  | _ => none

/-- The tokens of a text. Only the first letter of a token is a `v`, so no two overlap. -/
def tokens : List Char → List (List Char × List Char)
  | [] => []
  | c :: rest =>
    match tokenAt (c :: rest) with
    | some token => token :: tokens rest
    | none => tokens rest

/-- The version in a text that holds exactly one token, both of whose numbers are ASCII and
fit 32 bits. -/
def ofText? (s : String) : Option ClientVersion :=
  match tokens s.toList with
  | [(major, minor)] => do
    let major ← (natural? major).filter (· < Word.halfBound)
    let minor ← (natural? minor).filter (· < Word.halfBound)
    some ⟨major, minor⟩
  | _ => none

/-- The last version that understands a bare acknowledgement of a submit and no more. -/
def lastBareSubmit : ClientVersion := ⟨0, 221⟩

/-- Whether a client of this version header gets pending requests with its submits. A
header that is no version, as in development builds, gets everything. -/
def wantsRequests (header : String) : Bool :=
  match ofText? header with
  | some v => v.compare lastBareSubmit = .gt
  | none => true

end ClientVersion

end HistoryRelay
