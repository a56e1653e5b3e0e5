import HistoryRelay.Timestamp.Printer
import HistoryRelay.Text.Quoted

/-! Why a call fails. An error is its cause; kind, wording and what the client gets to see
follow from it. Only a bad request is the client's own fault and told to it. -/
namespace HistoryRelay

inductive ErrorKind where
  | badRequest
  /-- The relay is not in a state that allows the call. -/
  | precondition
  | storage
  /-- Usage bookkeeping failed, nothing else. -/
  | nonCritical
  | internal
deriving DecidableEq

inductive FanOut where
  | entries | deletion
deriving DecidableEq

/-- A sum of the entries handled: of the whole ledger, or of each user. -/
inductive LedgerSum where
  | total | perUser
deriving DecidableEq

inductive BodyFault where
  | contentType | tooLong | notJson | shape
deriving DecidableEq

inductive RelayError where
  | emptyId (name : String)
  | mixedUsers (first other : String)
  | foreignEntry (entryUser user : String)
  /-- A deletion message for this device names no entry. -/
  | unmatchableMessage (device : String)
  | unstorableTime (time : Timestamp)
  | deletionWithoutUser
  | wipeOutsideTest
  | missingParameter (name : String)
  | badQuery
  | badBody (fault : BodyFault)
  | userCapReached (registered limit : Nat)
  | noDevices (user : String) (purpose : FanOut)
  | corruptMessages
  /-- The store refused a statement. -/
  | refused (reason : String)
  /-- Whole counters whose sum does not fit. -/
  | counterOverflow
  /-- A sum that is a double, where a whole number is read. -/
  | roundedSum (of : LedgerSum)
  /-- Usage bookkeeping failed, for this cause. -/
  | bookkeeping (cause : RelayError)
  /-- A call died while it held the store. -/
  | poisonedLock
  | stated (kind : ErrorKind) (message : String)
deriving DecidableEq

namespace BodyFault

def message : BodyFault → String
  | .contentType => "Expected request with \x60Content-Type: application/json\x60"
  | .tooLong => "Failed to buffer the request body: length limit exceeded"
  | .notJson => "Failed to parse the request body as JSON"
  | .shape => "Failed to deserialize the JSON body into the target type"

end BodyFault

namespace LedgerSum

/-- Where the sum stands in the answer of the store. -/
def column : LedgerSum → String
  | .total => "index: 0, name: COALESCE(SUM(num_entries_handled), 0)"
  | .perUser => "index: 2, name: SUM(num_entries_handled)"

end LedgerSum

namespace ErrorKind

def label : ErrorKind → String
  | .badRequest => "Bad request"
  | .precondition => "Precondition violated"
  | .storage => "Storage error"
  | .nonCritical => "Non-critical error"
  | .internal => "Internal error"

end ErrorKind

namespace RelayError

def kind : RelayError → ErrorKind
  | .emptyId _ | .mixedUsers .. | .foreignEntry .. | .unmatchableMessage _ | .unstorableTime _
  | .deletionWithoutUser | .wipeOutsideTest | .missingParameter _ | .badQuery | .badBody _ =>
    .badRequest
  | .userCapReached .. | .noDevices .. => .precondition
  | .corruptMessages | .refused _ | .counterOverflow | .roundedSum _ => .storage
  | .bookkeeping _ => .nonCritical
  | .poisonedLock => .internal
  | .stated kind _ => kind

def shown (kind : ErrorKind) (message : String) : String := kind.label ++ ": " ++ message

def message : RelayError → String
  | .emptyId name => s!"{name} must not be empty"
  | .mixedUsers first other => s!"Batch mixes user ids {first} and {other}"
  | .foreignEntry entryUser user =>
    s!"Dump contains an entry for user {entryUser} but user_id is {user}"
  | .unmatchableMessage device =>
    "Deletion message for device " ++ Text.quoted device ++
      " has neither an end time nor an entry id"
  | .unstorableTime time => "Timestamp out of range: " ++ time.display
  | .deletionWithoutUser => "Cannot delete entries without a user id"
  | .wipeOutsideTest => "Wiping entries is only allowed in the test environment"
  | .missingParameter name => s!"Missing required query parameter {name}"
  | .badQuery => "Invalid query string: Failed to deserialize query string"
  | .badBody fault => "Failed to decode body: " ++ fault.message
  | .userCapReached registered limit =>
    s!"Refusing to register a new user: {registered} users registered, limit is {limit}"
  | .noDevices user .entries => s!"No devices registered for user {user}, cannot store entries"
  | .noDevices user .deletion => s!"No devices registered for user {user}, cannot record deletion"
  | .corruptMessages => "Corrupt JSON column"
  | .refused reason => reason
  | .counterOverflow => "integer overflow"
  | .roundedSum of => "Invalid column type Real at " ++ of.column
  | .bookkeeping cause => shown cause.kind cause.message
  | .poisonedLock => "Lock error: poisoned lock: another task failed inside"
  | .stated _ message => message

def display (e : RelayError) : String := shown e.kind e.message

def status (e : RelayError) : Nat := if e.kind = .badRequest then 400 else 503

def reply (e : RelayError) : String :=
  if e.kind = .badRequest then e.message else "Service unavailable"

end RelayError

end HistoryRelay
