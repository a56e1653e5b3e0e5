import HistoryRelay.Relay
import HistoryRelay.Store.Devices
import HistoryRelay.Store.Entries
import HistoryRelay.Store.Feedback

/-! What operators see: totals, a rollup of the usage ledger, whether the store answers. -/
namespace HistoryRelay

structure Statistics where
  users : Nat
  devices : Nat
  entriesProcessed : Int
  storedEntries : Nat
  weeklyActiveInstalls : Nat
  weeklyActiveQueriers : Nat
  dailyUninstalls : Nat
  lastRegistration : Option Instant
deriving DecidableEq

namespace Relay
open Step

def daysBefore {σ : Type} (t : Timestamp) (days : Nat) : Step σ Timestamp :=
  match t.minusDays days with
  | some t => pure t
  | none => crash

def statistics (w : Setting) : Step Relay Statistics :=
  locked do
    let now ← readClock w
    let weekAgo ← daysBefore now 7
    let users ← Store.countUsers w.refusals
    let devices ← Store.countDevices w.refusals
    let entriesProcessed ← Store.totalEntriesHandled w.refusals
    let storedEntries ← Store.countEntries w.refusals
    let installs ← Store.countActiveSince w.refusals weekAgo
    let queriers ← Store.countQueriedSince w.refusals weekAgo
    let dayAgo ← daysBefore now 1
    let uninstalls ← Store.countFeedbackSince w.refusals dayAgo
    let lastRegistration ← Store.lastRegistration w.refusals
    pure ⟨users, devices, entriesProcessed, storedEntries, installs, queriers, uninstalls,
      lastRegistration⟩

def usageStatistics (w : Setting) : Step Relay (List UsageSummary) :=
  locked (Store.usageSummaries w.refusals)

def wipeEntries (w : Setting) : Step Relay Nat :=
  if w.config.environment = .test then locked (Store.deleteAllEntries w.refusals)
  else fail .wipeOutsideTest

def ping : Step Relay Unit := locked (pure ())

end Relay

end HistoryRelay
