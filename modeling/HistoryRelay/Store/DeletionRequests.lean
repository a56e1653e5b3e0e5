import HistoryRelay.Store
import HistoryRelay.DeletionRequest

/-! The ledger of deletion requests: one tombstone for each destination device. -/
namespace HistoryRelay

namespace DeletionRow

def isFor (r : DeletionRow) (user device : String) : Bool := r.user = user && r.destination = device

/-- What a row is read as, if its messages can be read back. Its count is taken as it is, see
`Refusals`. -/
def toRequest (r : DeletionRow) : Except RelayError DeletionRequest :=
  match Message.listOfJson r.messages with
  | .ok messages => .ok ⟨r.user, r.destination, r.sendTime.toTimestamp, r.readCount, messages⟩
  | .error _ => .error .corruptMessages

end DeletionRow

namespace DeletionRequests

def bump (user device : String) (rs : List DeletionRow) : List DeletionRow :=
  rs.map fun r => if r.isFor user device then { r with readCount := r.readCount + 1 } else r

end DeletionRequests

namespace Store
open Step

def insertTombstones (refusals : Refusals) (row : DeletionRow) : List String → Step Store Nat
  | [] => pure 0
  | device :: rest => do
    permit refusals (.insert .deletionRequests [])
    update fun s => { s with
      deletionRequests :=
        s.deletionRequests ++ [{ row with id := s.lastDeletion + 1, destination := device }]
      lastDeletion := s.lastDeletion + 1 }
    let n ← insertTombstones refusals row rest
    pure (n + 1)

def createDeletionRequests (refusals : Refusals) (r : DeletionRequest) (devices : List String) :
    Step Store Nat := do
  let sendTime ← storedTime r.sendTime
  insertTombstones refusals ⟨0, r.user, "", sendTime, 0, Message.listToJson r.messages⟩ devices

def deletionRequestsFor (refusals : Refusals) (user device : String) :
    Step Store (List DeletionRequest) := do
  permit refusals (.select .deletionRequests)
  ofExcept (((← get).deletionRequests.filter (·.isFor user device)).mapM DeletionRow.toRequest)

def bumpDeletionRequests (refusals : Refusals) (user device : String) : Step Store Nat := do
  let hit := (← get).deletionRequests.countP (·.isFor user device)
  permit refusals (.update .deletionRequests hit)
  update fun s =>
    { s with deletionRequests := DeletionRequests.bump user device s.deletionRequests }
  return hit

def deleteDeletionRequests (refusals : Refusals) (which : DeletionRow → Bool) :
    Step Store Nat := do
  let hit := (← get).deletionRequests.countP which
  permit refusals (.delete .deletionRequests hit)
  update fun s => { s with deletionRequests := s.deletionRequests.filter fun r => !which r }
  return hit

def deleteDeletionRequestsFor (refusals : Refusals) (user device : String) : Step Store Nat :=
  deleteDeletionRequests refusals (·.isFor user device)

def deleteDeletionRequestsReadOver (refusals : Refusals) (count : Nat) : Step Store Nat :=
  deleteDeletionRequests refusals (count < ·.readCount)

end Store

end HistoryRelay
