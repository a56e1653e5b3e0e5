import HistoryRelay.Store
import HistoryRelay.DumpRequest

/-! The ledger of dump requests. A request waits for the peers of the device that made it. -/
namespace HistoryRelay

namespace DumpRow

/-- What a row is read as. Its count is taken as it is, see `Refusals`. -/
def toRequest (r : DumpRow) : DumpRequest := ⟨r.user, r.requester, r.time.toTimestamp, r.readCount⟩

/-- Whether `device` of `user` can answer the request: it is another device's. -/
def isForPeer (r : DumpRow) (user device : String) : Bool := r.user = user && r.requester ≠ device

def isBy (r : DumpRow) (user device : String) : Bool := r.user = user && r.requester = device

end DumpRow

namespace DumpRequests

def bump (user device : String) (rs : List DumpRow) : List DumpRow :=
  rs.map fun r => if r.isForPeer user device then { r with readCount := r.readCount + 1 } else r

end DumpRequests

namespace Store
open Step

def createDumpRequest (refusals : Refusals) (r : DumpRequest) : Step Store Unit := do
  let time ← storedTime r.time
  permit refusals (.insert .dumpRequests [])
  update fun s => { s with
    dumpRequests := s.dumpRequests ++ [⟨s.lastDump + 1, r.user, r.requester, time, 0⟩]
    lastDump := s.lastDump + 1 }

def dumpRequestsForPeer (refusals : Refusals) (user device : String) :
    Step Store (List DumpRequest) := do
  permit refusals (.select .dumpRequests)
  return ((← get).dumpRequests.filter (·.isForPeer user device)).map DumpRow.toRequest

def bumpDumpRequests (refusals : Refusals) (user device : String) : Step Store Nat := do
  let hit := (← get).dumpRequests.countP (·.isForPeer user device)
  permit refusals (.update .dumpRequests hit)
  update fun s => { s with dumpRequests := DumpRequests.bump user device s.dumpRequests }
  return hit

def deleteDumpRequests (refusals : Refusals) (which : DumpRow → Bool) : Step Store Nat := do
  let hit := (← get).dumpRequests.countP which
  permit refusals (.delete .dumpRequests hit)
  update fun s => { s with dumpRequests := s.dumpRequests.filter fun r => !which r }
  return hit

def deleteDumpRequestsBy (refusals : Refusals) (user device : String) : Step Store Nat :=
  deleteDumpRequests refusals (·.isBy user device)

def deleteDumpRequestsReadOver (refusals : Refusals) (count : Nat) : Step Store Nat :=
  deleteDumpRequests refusals (count < ·.readCount)

end Store

end HistoryRelay
