import HistoryRelay.Environment
import HistoryRelay.Json.Record

/-! The relay's configuration: fifteen settings, each with a default, and two of them
overridable by environment variables. -/
namespace HistoryRelay

structure Config where
  listenAddress : String := "127.0.0.1:8080"
  storagePath : String := "histsync.db"
  environment : Environment := .development
  /-- Cap on distinct users. -/
  maxUsers : Option Word.Full := none
  trackUsage : Bool := true
  /-- Bytes of a request body. -/
  maxPayload : Word.Full := 33554432
  /-- A query leaves out entries read this many times. -/
  queryReadLimit : Word.Half := 5
  /-- Rows of one insert statement. -/
  insertChunk : Word.Full := 1000
  /-- A sweep removes what has been read more often than this. -/
  entryReadCap : Word.Half := 10
  deletionReadCap : Word.Half := 100
  dumpReadCap : Word.Half := 100
  sweepSeconds : Word.Full := 3600
  deepCleanSeconds : Word.Full := 86400
  retentionDays : Word.Half := 90
  /-- Users with more rows lose the entries older than the retention. -/
  maxEntriesPerUser : Word.Full := 50000000
deriving DecidableEq

namespace Config
open Json

/-- A name, or a record with that name as its only field and nothing in it, where
`isNothing` tells how the format writes nothing. -/
def asEnvironment (isNothing : Json → Bool) : Decoder Environment
  | .object [(some name, inner)] true =>
    if isNothing inner then asTextOf Environment.ofName? (.string (some name)) else .error .shape
  | j => asTextOf Environment.ofName? j

def shape (isNothing : Json → Bool) : Shape Config :=
  let d : Config := {}
  (((((((((((((((Shape.pure Config.mk).and (defaulted "listen_addr" asText d.listenAddress)).and
    (defaulted "storage_path" asText d.storagePath)).and
    (defaulted "environment" (asEnvironment isNothing) d.environment)).and
    (defaulted "max_users" (asOption asWord) d.maxUsers)).and
    (defaulted "track_usage_data" asBool d.trackUsage)).and
    (defaulted "max_payload_size" asWord d.maxPayload)).and
    (defaulted "query_read_limit" asHalf d.queryReadLimit)).and
    (defaulted "insert_chunk_size" asWord d.insertChunk)).and
    (defaulted "entry_gc_read_count" asHalf d.entryReadCap)).and
    (defaulted "deletion_gc_read_count" asHalf d.deletionReadCap)).and
    (defaulted "dump_gc_read_count" asHalf d.dumpReadCap)).and
    (defaulted "sweep_interval_secs" asWord d.sweepSeconds)).and
    (defaulted "deep_clean_interval_secs" asWord d.deepCleanSeconds)).and
    (defaulted "inactive_retention_days" asHalf d.retentionDays)).and
    (defaulted "max_entries_per_user" asWord d.maxEntriesPerUser)

def ofJson : Decoder Config :=
  (shape fun
    | .null => true
    | _ => false).decode

def toJson (c : Config) : Json := record [
  ("listen_addr", text c.listenAddress),
  ("storage_path", text c.storagePath),
  ("environment", text c.environment.name),
  ("max_users", match c.maxUsers with
    | some n => nat n
    | none => .null),
  ("track_usage_data", bool c.trackUsage),
  ("max_payload_size", nat c.maxPayload),
  ("query_read_limit", nat c.queryReadLimit),
  ("insert_chunk_size", nat c.insertChunk),
  ("entry_gc_read_count", nat c.entryReadCap),
  ("deletion_gc_read_count", nat c.deletionReadCap),
  ("dump_gc_read_count", nat c.dumpReadCap),
  ("sweep_interval_secs", nat c.sweepSeconds),
  ("deep_clean_interval_secs", nat c.deepCleanSeconds),
  ("inactive_retention_days", nat c.retentionDays),
  ("max_entries_per_user", nat c.maxEntriesPerUser)]

/-- The settings after the environment variables `HISTSYNC_ENV` and
`HISTSYNC_MAX_NUM_USERS`, which `lookup` finds. An unknown flavour is ignored, a cap
that is no number lifts the cap. -/
def withVariables (c : Config) (lookup : String → Option String) : Config :=
  let flavour := (lookup "HISTSYNC_ENV").bind Environment.ofSetting?
  let c := { c with environment := flavour.getD c.environment }
  match lookup "HISTSYNC_MAX_NUM_USERS" with
  | some s => { c with maxUsers := Text.unsigned? Word.bound (Text.trim s).toList }
  | none => c

end Config

end HistoryRelay
