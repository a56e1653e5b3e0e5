import HistoryRelay.Relay
import HistoryRelay.SubmitReply
import HistoryRelay.Store.Devices
import HistoryRelay.Store.Entries
import HistoryRelay.Store.DumpRequests
import HistoryRelay.Store.DeletionRequests

/-! Entries on their way between devices: a submit stores a copy for each active device, a
query fetches what waits for one device, a bootstrap fetches everything of a user. -/
namespace HistoryRelay.Relay
open Step

/-- What a structured reply lists for the source of a submit; listing counts as a delivery. -/
def pendingRequests (w : Setting) (user source : String) : Step Store SubmitReply := do
  let dumps ← Store.dumpRequestsForPeer w.refusals user source
  let _ ← Store.bumpDumpRequests w.refusals user source
  let deletions ← Store.deletionRequestsFor w.refusals user source
  let _ ← Store.bumpDeletionRequests w.refusals user source
  pure ⟨some dumps, some deletions⟩

def distribute (w : Setting) (user : String) (batch : List Entry) (source : Option String)
    (client : Client) : Step Store SubmitReply := do
  let active ← Store.activeDevices w.refusals user
  if active.isEmpty then fail (.noDevices user .entries)
  else do
    let _ ← Store.insertForDevices w.refusals batch (active.map (·.device)) source
      w.config.insertChunk
    match source with
    | some source =>
      if client.wantsRequests then pendingRequests w user source else pure .bare
    | none => pure .bare

/-- Stores a batch for every active device of its user. An empty batch asks nothing of the
relay; submitting the same batch again stores it again. -/
def submit (w : Setting) (batch : List Entry) (source : Option String) (client : Client) :
    Step Relay SubmitReply :=
  match batch with
  | [] => pure .bare
  | first :: rest => do
    requireId "user_id" first.user
    match rest.find? (·.user ≠ first.user) with
    | some other => fail (.mixedUsers first.user other.user)
    | none =>
      let source := source.filter (· ≠ "")
      locked do
        let reply ← transaction (distribute w first.user (first :: rest) source client)
        noteUsage w first.user (source.getD first.device) client (first :: rest).length false
        pure reply

/-- Queries that a client makes on its own in the background are no activity of the user. -/
def isBackground (reason : Option String) : Bool :=
  reason = some "preload" || reason = some "newclient"

def applyTombstones (w : Setting) : List DeletionRequest → Step Store Unit
  | [] => pure ()
  | r :: rest => do
    let _ ← Store.deleteMatching w.refusals r.user r.messages
    applyTombstones w rest

def applyDeletions (w : Setting) (user device : String) : Step Store Unit := do
  let requests ← Store.deletionRequestsFor w.refusals user device
  applyTombstones w requests

/-- The first half of a query: deletions are applied and the waiting entries read. -/
def readPending (w : Setting) (user device : String) (reason : Option String) (client : Client) :
    Step Relay (List Entry) := do
  requireId "user_id" user
  requireId "device_id" device
  locked do
    if isBackground reason then pure () else noteUsage w user device client 0 true
    transaction (applyDeletions w user device)
    Store.pendingEntries w.refusals user device w.config.queryReadLimit

/-- The second half: a read of every row for the device is counted. -/
def countRead (w : Setting) (user device : String) : Step Relay Unit := do
  let _ ← locked (Store.bumpEntries w.refusals user device)
  pure ()

/-- The lock is free between the halves. In production the second one runs on its own and
its failure is nobody's. -/
def query (w : Setting) (user device : String) (reason : Option String) (client : Client) :
    Step Relay (List Entry) := do
  let found ← readPending w user device reason client
  if w.config.environment = .production then rescue (countRead w user device) fun _ => pure ()
  else countRead w user device
  pure found

def bootstrap (w : Setting) (user device : String) (client : Client) :
    Step Relay (List Entry) := do
  requireId "user_id" user
  requireId "device_id" device
  locked do
    noteUsage w user device client 0 false
    Store.entriesOfUser w.refusals user

end HistoryRelay.Relay
