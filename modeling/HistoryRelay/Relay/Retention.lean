import HistoryRelay.Relay.Statistics
import HistoryRelay.Store.DumpRequests
import HistoryRelay.Store.DeletionRequests

/-! Housekeeping: sweeps remove what has been read often enough, deep cleans remove the old
entries of users who are inactive or store far too much, and stale test devices. -/
namespace HistoryRelay

structure SweepReport where
  entries : Nat
  deletionRequests : Nat
  dumpRequests : Nat
deriving DecidableEq

structure DeepCleanReport where
  inactiveUsers : Nat
  overgrownUsers : Nat
  entries : Nat
  testDevices : Nat
deriving DecidableEq

namespace Relay
open Step

def sweep (w : Setting) : Step Relay SweepReport :=
  locked do
    let entries ← Store.deleteEntriesReadOver w.refusals w.config.entryReadCap
    let deletions ← Store.deleteDeletionRequestsReadOver w.refusals w.config.deletionReadCap
    let dumps ← Store.deleteDumpRequestsReadOver w.refusals w.config.dumpReadCap
    pure ⟨entries, deletions, dumps⟩

def trimUsers (w : Setting) (cutoff : Timestamp) : List String → Step Store Nat
  | [] => pure 0
  | user :: rest => do
    let n ← Store.deleteEntriesUpTo w.refusals user cutoff
    let m ← trimUsers w cutoff rest
    pure (n + m)

def removeDevices (w : Setting) : List (String × String) → Step Store (Nat × Nat)
  | [] => pure (0, 0)
  | (user, device) :: rest => do
    let entries ← Store.deleteEntriesFor w.refusals user device
    let _ ← Store.deleteDeletionRequestsFor w.refusals user device
    let _ ← Store.deleteDumpRequestsBy w.refusals user device
    let gone ← Store.deleteDevice w.refusals user device
    let (moreEntries, moreDevices) ← removeDevices w rest
    pure (entries + moreEntries, (if gone then 1 else 0) + moreDevices)

def cleanUp (w : Setting) (cutoff : Timestamp) : Step Store DeepCleanReport := do
  let inactive ← Store.inactiveUsers w.refusals cutoff
  let ofInactive ← trimUsers w cutoff inactive
  let overgrown ← Store.usersOver w.refusals w.config.maxEntriesPerUser
  let ofOvergrown ← trimUsers w cutoff overgrown
  let stale ← Store.staleTestDevices w.refusals cutoff
  let (ofStale, devices) ← removeDevices w stale
  pure ⟨inactive.length, overgrown.length, ofInactive + ofOvergrown + ofStale, devices⟩

/-- A deep clean as of `now`. The retention is counted back before the store is touched. -/
def deepClean (w : Setting) (now : Timestamp) : Step Relay DeepCleanReport := do
  let cutoff ← daysBefore now w.config.retentionDays
  locked (transaction (cleanUp w cutoff))

/-- Runs a step for its effect alone, whatever comes of it. -/
def unheeded {α : Type} (a : Step Relay α) : Step Relay Unit := fun r => (.answer (), (a r).2)

/-- One round of background work. Only production has deep cleans. -/
def backgroundRound (w : Setting) : Step Relay Unit := do
  unheeded (sweep w)
  if w.config.environment = .production then
    unheeded do
      let now ← readClock w
      deepClean w now
  else pure ()

end Relay

end HistoryRelay
