import HistoryRelay.Json.Record
import HistoryRelay.Timestamp.Printer

/-! A device that asks its peers for a full upload of the history. -/
namespace HistoryRelay

structure DumpRequest where
  user : String
  requester : String
  time : Timestamp
  /-- In a message it has 32 bits, as in an `Entry`. -/
  readCount : Nat
deriving DecidableEq

namespace DumpRequest
open Json

def toJson (r : DumpRequest) : Json := record [
  ("user_id", text r.user),
  ("requesting_device_id", text r.requester),
  ("request_time", text r.time.text),
  ("read_count", nat r.readCount)]

def shape : Shape DumpRequest :=
  ((((Shape.pure DumpRequest.mk).and (required "user_id" asText)).and
    (required "requesting_device_id" asText)).and
    (required "request_time" asTimestamp)).and
    (defaulted "read_count" asHalfWord 0)

def ofJson : Decoder DumpRequest := shape.decode

end DumpRequest

end HistoryRelay
