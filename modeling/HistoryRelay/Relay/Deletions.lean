import HistoryRelay.Relay
import HistoryRelay.Store.Devices
import HistoryRelay.Store.Entries
import HistoryRelay.Store.DeletionRequests

/-! Deleting history: every active device of the user gets a tombstone, and the entries that
are there go at once. -/
namespace HistoryRelay.Relay
open Step

def bury (w : Setting) (r : DeletionRequest) : Step Store Nat := do
  let active ← Store.activeDevices w.refusals r.user
  if active.isEmpty then fail (.noDevices r.user .deletion)
  else do
    let _ ← Store.createDeletionRequests w.refusals r (active.map (·.device))
    Store.deleteMatching w.refusals r.user r.messages

/-- Takes a deletion request; tells how many rows went. Messages without a device id are
never applied, each other one has to name something. -/
def addDeletionRequest (w : Setting) (r : DeletionRequest) : Step Relay Nat := do
  requireId "user_id" r.user
  match r.messages.find? fun m => m.device ≠ "" && !m.isMatchable with
  | some m => fail (.unmatchableMessage m.device)
  | none => locked (transaction (bury w r))

def deliverDeletionRequests (w : Setting) (user device : String) :
    Step Store (List DeletionRequest) := do
  let _ ← Store.bumpDeletionRequests w.refusals user device
  Store.deletionRequestsFor w.refusals user device

def deletionRequests (w : Setting) (user device : String) :
    Step Relay (List DeletionRequest) := do
  requireId "user_id" user
  requireId "device_id" device
  locked (transaction (deliverDeletionRequests w user device))

end HistoryRelay.Relay
