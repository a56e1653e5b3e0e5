import HistoryRelay.Relay.Call

/-! What the relay answers, as JSON. -/
namespace HistoryRelay
open Json

def RegistrationReply.toJson (r : RegistrationReply) : Json := record [
  ("existing_devices", nat r.existingDevices),
  ("dump_requested", bool r.dumpRequested)]

def Instant.optionToJson : Option Instant → Json
  | some i => text i.toTimestamp.text
  | none => .null

def UsageSummary.toJson (s : UsageSummary) : Json := record [
  ("user_id", text s.user),
  ("num_devices", nat s.devices),
  ("num_entries_handled", int s.entriesHandled),
  ("num_queries", nat s.queries),
  ("last_used", text s.lastUsed.toTimestamp.text),
  ("last_queried", Instant.optionToJson s.lastQueried),
  ("ip_addresses", list (s.ipAddresses.map text)),
  ("versions", list (s.versions.map text))]

def Statistics.toJson (s : Statistics) : Json := record [
  ("num_users", nat s.users),
  ("num_devices", nat s.devices),
  ("num_entries_processed", int s.entriesProcessed),
  ("num_db_entries", nat s.storedEntries),
  ("weekly_active_installs", nat s.weeklyActiveInstalls),
  ("weekly_active_queriers", nat s.weeklyActiveQueriers),
  ("daily_uninstalls", nat s.dailyUninstalls),
  ("last_registration", Instant.optionToJson s.lastRegistration)]

def SweepReport.toJson (r : SweepReport) : Json := record [
  ("entries", nat r.entries),
  ("deletion_requests", nat r.deletionRequests),
  ("dump_requests", nat r.dumpRequests)]

def DeepCleanReport.toJson (r : DeepCleanReport) : Json := record [
  ("inactive_users", nat r.inactiveUsers),
  ("overgrown_users", nat r.overgrownUsers),
  ("entries", nat r.entries),
  ("test_devices", nat r.testDevices)]

namespace Answer

def toJson : Answer → Json
  | done => .null
  | count n => nat n
  | registered r => r.toJson
  | submitted r => r.toJson
  | entries es => list (es.map Entry.toJson)
  | dumpRequests rs => list (rs.map DumpRequest.toJson)
  | deletionRequests rs => list (rs.map DeletionRequest.toJson)
  | statistics s => s.toJson
  | usage us => list (us.map UsageSummary.toJson)
  | swept r => r.toJson
  | cleaned r => r.toJson

end Answer

end HistoryRelay
