import HistoryRelay.Counter
import HistoryRelay.Step
import HistoryRelay.Json

/-! The relay's store: six tables whose rows keep the order in which they were inserted.
Every statement on a table may be refused, and a refused statement changes nothing. -/
namespace HistoryRelay

structure DeviceRow where
  user : String
  device : String
  registrationIp : String
  registered : Instant
  isTest : Bool
  uninstalled : Option Instant
deriving DecidableEq

/-- One copy of an entry, for one destination device. -/
structure EntryRow where
  /-- Rows are numbered as they come in, and no number is given twice. -/
  id : Nat
  user : String
  device : String
  encryptedId : String
  data : List UInt8
  nonce : List UInt8
  date : Instant
  readCount : Nat
  fromSameDevice : Bool
deriving DecidableEq

structure DumpRow where
  id : Nat
  user : String
  requester : String
  time : Instant
  readCount : Nat
deriving DecidableEq

/-- A tombstone for one destination device; its messages are kept as their JSON. -/
structure DeletionRow where
  id : Nat
  user : String
  destination : String
  sendTime : Instant
  readCount : Nat
  messages : Json

structure UsageRow where
  user : String
  device : String
  lastUsed : Instant
  lastIp : String
  entriesHandled : Counter
  lastQueried : Option Instant
  queries : Nat
  version : String
deriving DecidableEq

structure FeedbackRow where
  user : String
  date : Instant
  feedback : String
deriving DecidableEq

structure Store where
  devices : List DeviceRow := []
  entries : List EntryRow := []
  dumpRequests : List DumpRow := []
  deletionRequests : List DeletionRow := []
  usage : List UsageRow := []
  feedback : List FeedbackRow := []
  /-- The number given last in each of the numbered tables. -/
  lastEntry : Nat := 0
  lastDump : Nat := 0
  lastDeletion : Nat := 0

inductive Table where
  | devices | entries | dumpRequests | deletionRequests | usage | feedback
deriving DecidableEq

/-- What the store is asked to do: an insert with the ids of the entries in it, an update or
delete with the number of rows it hits, or a look at a table. -/
inductive Statement where
  | insert (table : Table) (entryIds : List String)
  | update (table : Table) (rows : Nat)
  | delete (table : Table) (rows : Nat)
  | select (table : Table)
deriving DecidableEq

/-- Which statements the store refuses, and what it says then. A select is refused as well when one
of its rows cannot be read back, because the row's count has left 32 bits. -/
abbrev Refusals := Statement → Option String

namespace Store
open Step

def permit {σ : Type} (refusals : Refusals) (s : Statement) : Step σ Unit :=
  match refusals s with
  | some reason => fail (.refused reason)
  | none => pure ()

def storedTime {σ : Type} (t : Timestamp) : Step σ Instant :=
  ofOption (.unstorableTime t) t.toInstant?

def storedTimes {σ : Type} : List Timestamp → Step σ (List Instant)
  | [] => pure []
  | t :: rest => do
    let i ← storedTime t
    let is ← storedTimes rest
    pure (i :: is)

end Store

end HistoryRelay
