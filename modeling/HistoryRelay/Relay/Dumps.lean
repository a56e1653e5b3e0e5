import HistoryRelay.Relay
import HistoryRelay.Store.Entries
import HistoryRelay.Store.DumpRequests

/-! Full histories for new devices: a peer uploads them, perhaps in chunks, on behalf of the
device that asked. -/
namespace HistoryRelay.Relay
open Step

/-- Stores entries for the requester. Its requests stay until the last chunk is there. -/
def storeDump (w : Setting) (user requester : String) (isChunk : Bool) (dump : List Entry) :
    Step Store Nat := do
  let inserted ← Store.insertAsIs w.refusals (dump.map fun e => { e with device := requester })
    w.config.insertChunk
  if isChunk then pure inserted
  else do
    let _ ← Store.deleteDumpRequestsBy w.refusals user requester
    pure inserted

def submitDump (w : Setting) (user source requester : String) (isChunk : Bool)
    (dump : List Entry) (client : Client) : Step Relay Nat := do
  requireId "user_id" user
  requireId "source_device_id" source
  requireId "requesting_device_id" requester
  match dump.find? (·.user ≠ user) with
  | some e => fail (.foreignEntry e.user user)
  | none =>
    locked do
      let inserted ← transaction (storeDump w user requester isChunk dump)
      noteUsage w user source client dump.length false
      pure inserted

def deliverDumpRequests (w : Setting) (user device : String) : Step Store (List DumpRequest) := do
  let pending ← Store.dumpRequestsForPeer w.refusals user device
  let _ ← Store.bumpDumpRequests w.refusals user device
  pure pending

/-- Dump requests that a device can answer; listing them counts as a delivery. -/
def pendingDumpRequests (w : Setting) (user device : String) : Step Relay (List DumpRequest) := do
  requireId "user_id" user
  requireId "device_id" device
  locked (transaction (deliverDumpRequests w user device))

end HistoryRelay.Relay
