import HistoryRelay.Store
import HistoryRelay.Feedback

/-! Feedback of uninstalling clients. -/
namespace HistoryRelay.Store
open Step

def insertFeedback (refusals : Refusals) (f : HistoryRelay.Feedback) : Step Store Unit := do
  let date ← storedTime f.date
  permit refusals (.insert .feedback [])
  update fun s => { s with feedback := s.feedback ++ [⟨f.user, date, f.feedback⟩] }

/-- Feedback later than `since`, that of users with a test device left out. -/
def countFeedbackSince (refusals : Refusals) (since : Timestamp) : Step Store Nat := do
  let since ← storedTime since
  permit refusals (.select .feedback)
  let s ← get
  return s.feedback.countP fun f =>
    since < f.date && !(s.devices.any fun d => d.user = f.user && d.isTest)

end HistoryRelay.Store
