import HistoryRelay.Relay
import HistoryRelay.Store.Devices
import HistoryRelay.Store.Entries
import HistoryRelay.Store.DumpRequests
import HistoryRelay.Store.DeletionRequests
import HistoryRelay.Store.Feedback

/-! Devices come and go: registration, uninstall, and what a client says when it goes. -/
namespace HistoryRelay

structure Registration where
  user : String
  device : String
  isTestDevice : Bool
deriving DecidableEq

structure RegistrationReply where
  /-- Active devices of the user besides the one that registers. -/
  existingDevices : Nat
  dumpRequested : Bool
deriving DecidableEq

namespace Relay
open Step

/-- Refuses a new user when the cap is reached. Users with any device row are not new. -/
def enforceCap (w : Setting) (user : String) : Step Store Unit :=
  match w.config.maxUsers with
  | none => pure ()
  | some limit => do
    let known ← Store.userExists w.refusals user
    if known then pure ()
    else do
      let registered ← Store.countUsers w.refusals
      if limit ≤ registered then fail (.userCapReached registered limit) else pure ()

/-- Registers a device or brings it back. When the user has other active devices, one of
them is asked for a dump of the history. -/
def enroll (w : Setting) (r : Registration) (client : Client) : Step Store RegistrationReply := do
  enforceCap w r.user
  let now ← readClock w
  let existing ← Store.otherActiveDevices w.refusals r.user r.device
  Store.upsertDevice w.refusals ⟨r.user, r.device, client.ip, now, r.isTestDevice, none⟩
  if 0 < existing then Store.createDumpRequest w.refusals ⟨r.user, r.device, now, 0⟩ else pure ()
  pure ⟨existing, 0 < existing⟩

def register (w : Setting) (r : Registration) (client : Client) :
    Step Relay RegistrationReply := do
  requireId "user_id" r.user
  requireId "device_id" r.device
  locked do
    let reply ← transaction (enroll w r client)
    noteUsage w r.user r.device client 0 false
    pure reply

/-- Drops everything addressed to a device or asked for by it, and dates its uninstalling. -/
def withdraw (w : Setting) (user device : String) : Step Store Nat := do
  let entries ← Store.deleteEntriesFor w.refusals user device
  let deletions ← Store.deleteDeletionRequestsFor w.refusals user device
  let dumps ← Store.deleteDumpRequestsBy w.refusals user device
  let now ← readClock w
  let _ ← Store.markUninstalled w.refusals user device now
  pure (entries + deletions + dumps)

def uninstall (w : Setting) (user device : String) : Step Relay Nat := do
  requireId "user_id" user
  requireId "device_id" device
  locked (transaction (withdraw w user device))

def recordFeedback (w : Setting) (f : Feedback) : Step Relay Unit := do
  requireId "user_id" f.user
  locked (Store.insertFeedback w.refusals f)

end Relay

end HistoryRelay
