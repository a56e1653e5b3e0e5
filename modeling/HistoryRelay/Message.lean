import HistoryRelay.Json.Record
import HistoryRelay.Timestamp.Printer

/-! Messages that name entries to delete, by end time, by entry id, or by either. -/
namespace HistoryRelay

structure Message where
  device : String
  endTime : Option Timestamp
  entryId : String
deriving DecidableEq

namespace Message
open Json

/-- The end time; a time of year one or before is how older clients leave it unset. -/
def effectiveEndTime (m : Message) : Option Timestamp := m.endTime.filter (1 < ·.year)

def effectiveEntryId (m : Message) : Option String :=
  if m.entryId = "" then none else some m.entryId

def isMatchable (m : Message) : Bool := m.effectiveEndTime.isSome || m.effectiveEntryId.isSome

/-- An end time or entry id that is not given is left out. -/
def toJson (m : Message) : Json :=
  record ([("device_id", text m.device)] ++
    (match m.endTime with
      | some t => [("end_time", text t.text)]
      | none => []) ++
    (if m.entryId = "" then [] else [("entry_id", text m.entryId)]))

def shape : Shape Message :=
  (((Shape.pure Message.mk).and (defaulted "device_id" asText "")).and
    (defaulted "end_time" (asOption asTimestamp) none)).and
    (defaulted "entry_id" asText "")

def ofJson : Decoder Message := shape.decode

def listToJson (ms : List Message) : Json := record [("message_ids", list (ms.map toJson))]

def listShape : Shape (List Message) :=
  (Shape.pure id).and (defaulted "message_ids" (asList ofJson) [])

def listOfJson : Decoder (List Message) := listShape.decode

end Message

end HistoryRelay
