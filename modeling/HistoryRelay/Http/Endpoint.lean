/-! The endpoints of the relay: where they are, how they are called, and which query
parameters they know. -/
namespace HistoryRelay.Http

inductive Endpoint where
  | register | uninstall | feedback | submit | query | bootstrap | submitDump | dumpRequests
  | addDeletion | deletionRequests | healthcheck | sweep | wipe | statistics | usageStatistics
deriving DecidableEq

namespace Endpoint

def all : List Endpoint := [.register, .uninstall, .feedback, .submit, .query, .bootstrap,
  .submitDump, .dumpRequests, .addDeletion, .deletionRequests, .healthcheck, .sweep, .wipe,
  .statistics, .usageStatistics]

def path : Endpoint → String
  | .register => "/api/v1/register"
  | .uninstall => "/api/v1/uninstall"
  | .feedback => "/api/v1/feedback"
  | .submit => "/api/v1/submit"
  | .query => "/api/v1/query"
  | .bootstrap => "/api/v1/bootstrap"
  | .submitDump => "/api/v1/submit-dump"
  | .dumpRequests => "/api/v1/get-dump-requests"
  | .addDeletion => "/api/v1/add-deletion-request"
  | .deletionRequests => "/api/v1/get-deletion-requests"
  | .healthcheck => "/healthcheck"
  | .sweep => "/api/v1/trigger-cron"
  | .wipe => "/api/v1/wipe-db-entries"
  | .statistics => "/internal/api/v1/stats"
  | .usageStatistics => "/internal/api/v1/usage-stats"

def isPost : Endpoint → Bool
  | .register | .uninstall | .feedback | .submit | .submitDump | .addDeletion | .sweep | .wipe =>
    true
  | _ => false

/-- What can be read can also be asked for its head. -/
def allows (e : Endpoint) (method : String) : Bool :=
  if e.isPost then method = "POST" else method = "GET" || method = "HEAD"

def parameters : Endpoint → List String
  | .register => ["user_id", "device_id", "is_integration_test_device"]
  | .uninstall | .bootstrap | .dumpRequests | .deletionRequests => ["user_id", "device_id"]
  | .submit => ["source_device_id"]
  | .query => ["user_id", "device_id", "queryReason"]
  | .submitDump => ["user_id", "source_device_id", "requesting_device_id", "is_chunk"]
  | _ => []

def ofPath? (path : String) : Option Endpoint := all.find? (·.path = path)

end Endpoint

end HistoryRelay.Http
