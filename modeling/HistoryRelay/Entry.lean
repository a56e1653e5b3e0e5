import HistoryRelay.Json.Record
import HistoryRelay.Timestamp.Printer

/-! One encrypted history entry, addressed to one destination device. -/
namespace HistoryRelay

/-- Payload and nonce are opaque: the relay cannot decrypt them. -/
structure Entry where
  data : List UInt8
  nonce : List UInt8
  /-- Destination device of this copy. -/
  device : String
  user : String
  time : Timestamp
  encryptedId : String
  /-- In a message it has 32 bits. The count of a row may leave them. -/
  readCount : Nat
  fromSameDevice : Bool
deriving DecidableEq

namespace Entry
open Json

def toJson (e : Entry) : Json := record [
  ("enc_data", text (Text.Base64.encode e.data)),
  ("nonce", text (Text.Base64.encode e.nonce)),
  ("device_id", text e.device),
  ("user_id", text e.user),
  ("time", text e.time.text),
  ("encrypted_id", text e.encryptedId),
  ("read_count", nat e.readCount),
  ("is_from_same_device", bool e.fromSameDevice)]

def shape : Shape Entry :=
  ((((((((Shape.pure Entry.mk).and (required "enc_data" asBytes)).and
    (required "nonce" asBytes)).and
    (required "device_id" asText)).and
    (required "user_id" asText)).and
    (required "time" asTimestamp)).and
    (defaulted "encrypted_id" asText "")).and
    (defaulted "read_count" asHalfWord 0)).and
    (defaulted "is_from_same_device" asBool false)

def ofJson : Decoder Entry := shape.decode

end Entry

end HistoryRelay
