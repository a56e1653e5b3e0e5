import HistoryRelay.Http.ContentType
import HistoryRelay.Http.Endpoint
import HistoryRelay.Http.Parameters
import HistoryRelay.Relay.Report

/-! The relay as an HTTP service. Of several faults of a request the one in the query
string is told first, then the one in the body, then the ones in the parameters. -/
namespace HistoryRelay.Http
open Json

def announcedLength? (headers : Headers) : Option Nat := do
  let value ← headers.get? "content-length"
  return (← Text.unsigned? Word.bound value.toList).val

/-- The value in a JSON body. Nothing is read past the limit or past the announced length. -/
def readBody {α : Type} (limit : Nat) (r : Request) (decode : Decoder α) : Except RelayError α :=
  let length := min limit ((announcedLength? r.headers).getD limit)
  if !((r.headers.get? "content-type").any ContentType.isJson) then .error (.badBody .contentType)
  else if length < r.body.length then .error (.badBody .tooLong)
  else match decodeBytes decode r.body with
    | .ok a => .ok a
    | .error .notJson => .error (.badBody .notJson)
    | .error .shape => .error (.badBody .shape)

def userAndDevice (ps : Parameters) : Except RelayError (String × String) := do
  let user ← requiredParameter "user_id" (ps.get? "user_id")
  let device ← requiredParameter "device_id" (ps.get? "device_id")
  return (user, device)

def callOf (c : Config) (e : Endpoint) (r : Request) : Except RelayError Call := do
  let client := Client.ofHeaders r.headers
  let strict : Bool := c.environment = .test
  let ps ← Parameters.read e.parameters r.query
  match e with
  | .register =>
    let (user, device) ← userAndDevice ps
    return .register ⟨user, device, isTrue (ps.get? "is_integration_test_device")⟩ client
  | .uninstall =>
    let (user, device) ← userAndDevice ps
    return .uninstall user device
  | .feedback => return .recordFeedback (← readBody c.maxPayload r Feedback.ofJson)
  | .submit =>
    let batch ← readBody c.maxPayload r (asList Entry.ofJson)
    let source ← optionalParameter strict "source_device_id" (ps.get? "source_device_id")
    return .submit batch source client
  | .query =>
    let (user, device) ← userAndDevice ps
    let reason ← optionalParameter strict "queryReason" (ps.get? "queryReason")
    return .query user device reason client
  | .bootstrap =>
    let (user, device) ← userAndDevice ps
    return .bootstrap user device client
  | .submitDump =>
    let dump ← readBody c.maxPayload r (asList Entry.ofJson)
    let user ← requiredParameter "user_id" (ps.get? "user_id")
    let source ← requiredParameter "source_device_id" (ps.get? "source_device_id")
    let requester ← requiredParameter "requesting_device_id" (ps.get? "requesting_device_id")
    let isChunk ← optionalParameter strict "is_chunk" (ps.get? "is_chunk")
    return .submitDump user source requester (isTrue isChunk) dump client
  | .dumpRequests =>
    let (user, device) ← userAndDevice ps
    return .dumpRequests user device
  | .addDeletion => return .addDeletion (← readBody c.maxPayload r DeletionRequest.ofJson)
  | .deletionRequests =>
    let (user, device) ← userAndDevice ps
    return .deletionRequests user device
  | .healthcheck => return .ping
  | .sweep => return .sweep
  | .wipe => return .wipe
  | .statistics => return .statistics
  | .usageStatistics => return .usageStatistics

/-- How an endpoint tells an answer: a bare count or nothing is put into words. -/
def bodyOf (e : Endpoint) (a : Answer) : Body :=
  let told (status : String) (counts : List (String × Json)) : Body :=
    .json (record (("status", text status) :: counts))
  match e, a with
  | .healthcheck, _ => .text "OK"
  | .feedback, _ => told "recorded" []
  | .uninstall, .count n => told "uninstalled" [("removed", nat n)]
  | .submitDump, .count n => told "stored" [("rows", nat n)]
  | .addDeletion, .count n => told "recorded" [("deleted", nat n)]
  | .wipe, .count n => told "wiped" [("entries", nat n)]
  | _, a => .json a.toJson

def respond (w : Setting) (e : Endpoint) (r : Request) (relay : Relay) : Response × Relay :=
  match callOf w.config e r with
  | .error fault => (.ofError fault, relay)
  | .ok call =>
    match call.perform w relay with
    | (.answer a, relay) => (⟨200, bodyOf e a⟩, relay)
    | (.failure fault, relay) => (.ofError fault, relay)
    | (.crash, relay) => (.unavailable, relay)

/-- The response with the body still there that a request for the head does not get. -/
def dispatch (w : Setting) (r : Request) (relay : Relay) : Response × Relay :=
  if (announcedLength? r.headers).any (w.config.maxPayload.val < ·) then
    (⟨413, .text "length limit exceeded"⟩, relay)
  else if r.method = "OPTIONS" then (.empty 200, relay)
  else match Endpoint.ofPath? r.path with
    | none => (.empty 404, relay)
    | some e => if e.allows r.method then respond w e r relay else (.empty 405, relay)

/-- One request, from its arrival to the response. Endpoints keep the body back from a request
for the head; where there is no endpoint, nobody does. -/
def handle (w : Setting) (r : Request) (relay : Relay) : Response × Relay :=
  let (response, relay) := dispatch w r relay
  if r.method = "HEAD" && (Endpoint.ofPath? r.path).isSome then (.empty response.status, relay)
  else (response, relay)

end HistoryRelay.Http
