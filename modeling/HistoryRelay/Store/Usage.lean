import HistoryRelay.Store
import HistoryRelay.Word

/-! The usage ledger: activity counters of each device, folded from events. Nothing in the
synchronization reads it. -/
namespace HistoryRelay

structure UsageEvent where
  user : String
  device : String
  time : Timestamp
  ip : String
  version : String
  entries : Nat
  isQuery : Bool

namespace UsageRow

def is (u : UsageRow) (user device : String) : Bool := u.user = user && u.device = device

def ofEvent (e : UsageEvent) (time : Instant) : UsageRow where
  user := e.user
  device := e.device
  lastUsed := time
  lastIp := e.ip
  entriesHandled := .whole (Word.signed e.entries)
  lastQueried := if e.isQuery then some time else none
  queries := if e.isQuery then 1 else 0
  version := e.version

/-- The row after a further event: the event counts as the latest one whatever its time, an
empty version says nothing. -/
def add (u : UsageRow) (e : UsageEvent) (time : Instant) : UsageRow where
  user := u.user
  device := u.device
  lastUsed := time
  lastIp := e.ip
  entriesHandled := u.entriesHandled.add (Word.signed e.entries)
  lastQueried := if e.isQuery then some time else u.lastQueried
  queries := if e.isQuery then u.queries + 1 else u.queries
  version := if e.version = "" then u.version else e.version

end UsageRow

structure UsageSummary where
  user : String
  devices : Nat
  entriesHandled : Int
  queries : Nat
  lastUsed : Instant
  lastQueried : Option Instant
  ipAddresses : List String
  versions : List String
deriving DecidableEq

namespace Usage

def record (e : UsageEvent) (time : Instant) (us : List UsageRow) : List UsageRow :=
  if us.any (·.is e.user e.device) then
    us.map fun u => if u.is e.user e.device then u.add e time else u
  else us ++ [UsageRow.ofEvent e time]

/-- What the rows have handled together. The order of the rows matters where it overflows. -/
def handled (us : List UsageRow) : Counter.Sum := Counter.sum (us.map (·.entriesHandled))

/-- The rows of a user in the order of the devices, in which they are summed. -/
def ofUser (user : String) (us : List UsageRow) : List UsageRow :=
  (us.filter (·.user = user)).mergeSort fun a b => a.device ≤ b.device

def read (of : LedgerSum) : Counter.Sum → Except RelayError Int
  | .whole n => .ok n
  | .rounded => .error (.roundedSum of)
  | .overflow => .error .counterOverflow

def latest (is : List Instant) : Option Instant :=
  is.foldl (fun l i => match l with
    | some l => if l < i then some i else some l
    | none => some i) none

/-- Values that the ledger has for a user, in order. The ledger keeps them in one text with
commas between, so a value with commas counts as several. -/
def parts (values : List String) : List String :=
  ((values.eraseDups.flatMap fun v => (v.toList.splitOn ',').map String.ofList).filter
    (· ≠ "")).mergeSort fun a b => a ≤ b

def summary? (user : String) (us : List UsageRow) : Except RelayError (Option UsageSummary) := do
  let rows := ofUser user us
  match latest (rows.map (·.lastUsed)) with
  | none => return none
  | some lastUsed =>
    let entriesHandled ← read .perUser (handled rows)
    let queries := rows.foldl (fun n u => n + u.queries) 0
    return some ⟨user, rows.length, entriesHandled, queries, lastUsed,
      latest (rows.filterMap (·.lastQueried)), parts (rows.map (·.lastIp)),
      parts (rows.map (·.version))⟩

def users (us : List UsageRow) : List String := (us.map (·.user)).eraseDups

/-- One summary for each user, the latest used first. All sums are made before one is read. -/
def summaries (us : List UsageRow) : Except RelayError (List UsageSummary) := do
  if (users us).any fun user => handled (ofUser user us) = .overflow then
    .error .counterOverflow
  let found ← (users us).mapM fun user => summary? user us
  return (found.filterMap id).mergeSort fun a b =>
    b.lastUsed < a.lastUsed || (a.lastUsed = b.lastUsed && a.user ≤ b.user)

/-- Users with more than one device, none of whose rows is of a later time than `cutoff`. -/
def inactive (cutoff : Instant) (devices : List DeviceRow) (us : List UsageRow) : List String :=
  ((users us).filter fun user =>
    1 < devices.countP (·.user = user) &&
      us.all fun u => !(u.user = user) || u.lastUsed ≤ cutoff).mergeSort fun a b => a ≤ b

end Usage

namespace Store
open Step

def recordUsage (refusals : Refusals) (e : UsageEvent) : Step Store Unit := do
  let time ← storedTime e.time
  permit refusals (.insert .usage [])
  update fun s => { s with usage := Usage.record e time s.usage }

def inactiveUsers (refusals : Refusals) (cutoff : Timestamp) : Step Store (List String) := do
  let cutoff ← storedTime cutoff
  permit refusals (.select .usage)
  let s ← get
  return Usage.inactive cutoff s.devices s.usage

def totalEntriesHandled (refusals : Refusals) : Step Store Int := do
  permit refusals (.select .usage)
  ofExcept (Usage.read .total (Usage.handled (← get).usage))

def countActiveSince (refusals : Refusals) (since : Timestamp) : Step Store Nat := do
  let since ← storedTime since
  permit refusals (.select .usage)
  return (← get).usage.countP (since < ·.lastUsed)

def countQueriedSince (refusals : Refusals) (since : Timestamp) : Step Store Nat := do
  let since ← storedTime since
  permit refusals (.select .usage)
  return (← get).usage.countP fun u => u.lastQueried.any (since < ·)

def usageSummaries (refusals : Refusals) : Step Store (List UsageSummary) := do
  permit refusals (.select .usage)
  ofExcept (Usage.summaries (← get).usage)

end Store

end HistoryRelay
