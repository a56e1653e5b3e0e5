import HistoryRelay.Store
import HistoryRelay.Device

/-! The device registry. Uninstalling keeps the row and dates it; registering again brings
it back as it was. Only a deep clean removes rows. -/
namespace HistoryRelay

namespace DeviceRow

def is (d : DeviceRow) (user device : String) : Bool := d.user = user && d.device = device

/-- Uninstall dates before this instant, the start of 1971, leave a device active. -/
def uninstallFloor : Int := 31536000 * 1000000000

def active (d : DeviceRow) : Bool :=
  match d.uninstalled with
  | none => true
  | some date => date.nanos < uninstallFloor

def toDevice (d : DeviceRow) : Device :=
  ⟨d.user, d.device, d.registrationIp, d.registered.toTimestamp, d.isTest,
    d.uninstalled.map Instant.toTimestamp⟩

def notAfter (a b : DeviceRow) : Bool :=
  a.registered < b.registered || (a.registered = b.registered && a.device ≤ b.device)

end DeviceRow

namespace Devices

/-- Adds a device, or makes the one of its ids active again and changes nothing else. -/
def register (row : DeviceRow) (ds : List DeviceRow) : List DeviceRow :=
  if ds.any (·.is row.user row.device) then
    ds.map fun d => if d.is row.user row.device then { d with uninstalled := none } else d
  else ds ++ [row]

def activeOf (user : String) (ds : List DeviceRow) : List DeviceRow :=
  (ds.filter fun d => d.user = user && d.active).mergeSort DeviceRow.notAfter

def otherActive (user device : String) (ds : List DeviceRow) : Nat :=
  ds.countP fun d => d.user = user && d.device ≠ device && d.active

def hasUser (user : String) (ds : List DeviceRow) : Bool := ds.any (·.user = user)

def users (ds : List DeviceRow) : List String := (ds.map (·.user)).eraseDups

def uninstall (user device : String) (date : Instant) (ds : List DeviceRow) : List DeviceRow :=
  ds.map fun d => if d.is user device then { d with uninstalled := some date } else d

def remove (user device : String) (ds : List DeviceRow) : List DeviceRow :=
  ds.filter fun d => !d.is user device

/-- Test devices registered at or before `cutoff` and not used after it, by user and id. -/
def staleTests (cutoff : Instant) (usage : List UsageRow) (ds : List DeviceRow) :
    List (String × String) :=
  let stale := ds.filter fun d => d.isTest && d.registered ≤ cutoff &&
    usage.all fun u => !(u.user = d.user && u.device = d.device) || u.lastUsed ≤ cutoff
  (stale.map fun d => (d.user, d.device)).mergeSort fun a b =>
    a.1 < b.1 || (a.1 = b.1 && a.2 ≤ b.2)

end Devices

namespace Store
open Step

def upsertDevice (refusals : Refusals) (d : Device) : Step Store Unit := do
  let registered ← storedTime d.registrationDate
  permit refusals (.insert .devices [])
  let row : DeviceRow := ⟨d.user, d.device, d.registrationIp, registered, d.isTestDevice, none⟩
  update fun s => { s with devices := Devices.register row s.devices }

def activeDevices (refusals : Refusals) (user : String) : Step Store (List DeviceRow) := do
  permit refusals (.select .devices)
  return Devices.activeOf user (← get).devices

def otherActiveDevices (refusals : Refusals) (user device : String) : Step Store Nat := do
  permit refusals (.select .devices)
  return Devices.otherActive user device (← get).devices

def userExists (refusals : Refusals) (user : String) : Step Store Bool := do
  permit refusals (.select .devices)
  return Devices.hasUser user (← get).devices

def countUsers (refusals : Refusals) : Step Store Nat := do
  permit refusals (.select .devices)
  return (Devices.users (← get).devices).length

def countDevices (refusals : Refusals) : Step Store Nat := do
  permit refusals (.select .devices)
  return (← get).devices.length

def lastRegistration (refusals : Refusals) : Step Store (Option Instant) := do
  permit refusals (.select .devices)
  return ((← get).devices.map (·.registered)).foldl (fun latest i => match latest with
    | some l => if l < i then some i else some l
    | none => some i) none

def markUninstalled (refusals : Refusals) (user device : String) (moment : Timestamp) :
    Step Store Bool := do
  let date ← storedTime moment
  let s ← get
  let hit := s.devices.countP (·.is user device)
  permit refusals (.update .devices hit)
  update fun s => { s with devices := Devices.uninstall user device date s.devices }
  return 0 < hit

def staleTestDevices (refusals : Refusals) (cutoff : Timestamp) :
    Step Store (List (String × String)) := do
  let cutoff ← storedTime cutoff
  permit refusals (.select .devices)
  let s ← get
  return Devices.staleTests cutoff s.usage s.devices

def deleteDevice (refusals : Refusals) (user device : String) : Step Store Bool := do
  let s ← get
  let hit := s.devices.countP (·.is user device)
  permit refusals (.delete .devices hit)
  update fun s => { s with devices := Devices.remove user device s.devices }
  return 0 < hit

end Store

end HistoryRelay
