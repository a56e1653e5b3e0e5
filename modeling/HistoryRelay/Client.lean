import HistoryRelay.Client.Version
import HistoryRelay.Text.Blank

/-! What a client and the proxy in front of the relay say about the client. -/
namespace HistoryRelay

/-- Request headers in order; names count without regard to case. -/
abbrev Headers := List (String × String)

/-- The value of the first header of a name, if it is printable ASCII and tabs. -/
def Headers.get? (headers : Headers) (name : String) : Option String :=
  match headers.find? (fun (n, _) => n.toLower = name.toLower) with
  | some (_, value) =>
    if value.toList.all (fun c => (0x20 ≤ c.toNat && c.toNat ≤ 0x7E) || c = '\t') then some value
    else none
  | none => none

structure Client where
  version : String
  ip : String
deriving DecidableEq

namespace Client

def unknownIp : String := "UnknownIp"

def unknown : Client := ⟨"", unknownIp⟩

/-- A header that is absent, unreadable or blank says nothing. -/
def ofHeaders (headers : Headers) : Client :=
  let said (name : String) : Option String :=
    ((headers.get? name).map Text.trim).filter (· ≠ "")
  ⟨(said "x-histsync-version").getD "", (said "x-real-ip").getD unknownIp⟩

def wantsRequests (c : Client) : Bool := ClientVersion.wantsRequests c.version

end Client

end HistoryRelay
