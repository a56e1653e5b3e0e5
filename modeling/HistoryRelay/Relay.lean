import HistoryRelay.Config
import HistoryRelay.Client
import HistoryRelay.Store.Usage

/-! The relay: its store behind a lock. A call that crashes while it holds the lock poisons
it, and from then on nothing reaches the store. -/
namespace HistoryRelay

structure Relay where
  store : Store := {}
  poisoned : Bool := false

/-- What a call finds: the configuration, the time on the wall clock, and the statements
that the store will refuse. -/
structure Setting where
  config : Config
  clock : Timestamp
  refusals : Refusals

instance : Inhabited Setting := ⟨⟨{}, default, fun _ => none⟩⟩

namespace Relay
open Step

def locked {α : Type} (a : Step Store α) : Step Relay α := fun r =>
  if r.poisoned then (.failure .poisonedLock, r)
  else match a r.store with
    | (.answer v, s) => (.answer v, { r with store := s })
    | (.failure e, s) => (.failure e, { r with store := s })
    | (.crash, s) => (.crash, ⟨s, true⟩)

theorem locked_poisoned {α : Type} (a : Step Store α) {r : Relay} (h : r.poisoned = true) :
    locked a r = (.failure .poisonedLock, r) := by
  simp [locked, h]

/-- The time on the wall clock. A clock before 1970 cannot be read. -/
def readClock {σ : Type} (w : Setting) : Step σ Timestamp :=
  if w.clock.seconds < 0 then crash else pure w.clock

def requireId {σ : Type} (name value : String) : Step σ Unit :=
  if value = "" then fail (.emptyId name) else pure ()

/-- Notes a call in the usage ledger. In production nobody hears of a failure to do so. -/
def noteUsage (w : Setting) (user device : String) (client : Client) (entries : Nat)
    (isQuery : Bool) : Step Store Unit :=
  if !w.config.trackUsage then pure ()
  else do
    let time ← readClock w
    rescue
      (Store.recordUsage w.refusals
        ⟨user, device, time, client.ip, client.version, entries, isQuery⟩)
      fun e =>
        if w.config.environment = .production then pure () else fail (.bookkeeping e)

end Relay

end HistoryRelay
