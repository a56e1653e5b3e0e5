import HistoryRelay.Json.Record
import HistoryRelay.Timestamp.Printer

/-! Free text that a client sends when it is uninstalled. -/
namespace HistoryRelay

structure Feedback where
  user : String
  date : Timestamp
  feedback : String
deriving DecidableEq

namespace Feedback
open Json

def toJson (f : Feedback) : Json := record [
  ("user_id", text f.user),
  ("date", text f.date.text),
  ("feedback", text f.feedback)]

def shape : Shape Feedback :=
  (((Shape.pure Feedback.mk).and (required "user_id" asText)).and
    (required "date" asTimestamp)).and
    (defaulted "feedback" asText "")

def ofJson : Decoder Feedback := shape.decode

end Feedback

end HistoryRelay
