import HistoryRelay.Message

/-! A tombstone: messages that name deleted entries, addressed to one device. -/
namespace HistoryRelay

structure DeletionRequest where
  user : String
  destination : String
  sendTime : Timestamp
  /-- In a message it has 32 bits, as in an `Entry`. -/
  readCount : Nat
  messages : List Message
deriving DecidableEq

namespace DeletionRequest
open Json

def toJson (r : DeletionRequest) : Json := record [
  ("user_id", text r.user),
  ("destination_device_id", text r.destination),
  ("send_time", text r.sendTime.text),
  ("read_count", nat r.readCount),
  ("messages", Message.listToJson r.messages)]

def shape : Shape DeletionRequest :=
  (((((Shape.pure DeletionRequest.mk).and (required "user_id" asText)).and
    (defaulted "destination_device_id" asText "")).and
    (required "send_time" asTimestamp)).and
    (defaulted "read_count" asHalfWord 0)).and
    (defaulted "messages" Message.listOfJson [])

def ofJson : Decoder DeletionRequest := shape.decode

end DeletionRequest

end HistoryRelay
