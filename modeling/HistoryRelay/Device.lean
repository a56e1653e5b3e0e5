import HistoryRelay.Json.Record
import HistoryRelay.Timestamp.Printer

/-! A registered device; user and device id together name it. -/
namespace HistoryRelay

structure Device where
  user : String
  device : String
  registrationIp : String
  registrationDate : Timestamp
  /-- Devices of integration tests are cleaned away early. -/
  isTestDevice : Bool
  uninstallDate : Option Timestamp
deriving DecidableEq

namespace Device
open Json

def toJson (d : Device) : Json := record [
  ("user_id", text d.user),
  ("device_id", text d.device),
  ("registration_ip", text d.registrationIp),
  ("registration_date", text d.registrationDate.text),
  ("is_integration_test_device", bool d.isTestDevice),
  ("uninstall_date", match d.uninstallDate with
    | some t => text t.text
    | none => .null)]

def shape : Shape Device :=
  ((((((Shape.pure Device.mk).and (required "user_id" asText)).and
    (required "device_id" asText)).and
    (required "registration_ip" asText)).and
    (required "registration_date" asTimestamp)).and
    (required "is_integration_test_device" asBool)).and
    (nullable "uninstall_date" asTimestamp)

def ofJson : Decoder Device := shape.decode

end Device

end HistoryRelay
