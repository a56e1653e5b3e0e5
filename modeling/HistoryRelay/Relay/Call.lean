import HistoryRelay.Relay.Registration
import HistoryRelay.Relay.Sync
import HistoryRelay.Relay.Dumps
import HistoryRelay.Relay.Deletions
import HistoryRelay.Relay.Retention

/-! Everything that can be asked of the relay, as one type, and what it answers. -/
namespace HistoryRelay

inductive Call where
  | register (r : Registration) (client : Client)
  | submit (batch : List Entry) (source : Option String) (client : Client)
  | query (user device : String) (reason : Option String) (client : Client)
  | bootstrap (user device : String) (client : Client)
  | submitDump (user source requester : String) (isChunk : Bool) (dump : List Entry)
      (client : Client)
  | dumpRequests (user device : String)
  | addDeletion (r : DeletionRequest)
  | deletionRequests (user device : String)
  | uninstall (user device : String)
  | recordFeedback (f : Feedback)
  | statistics
  | usageStatistics
  | wipe
  | ping
  | sweep
  | deepClean (now : Timestamp)

inductive Answer where
  | done
  | count (n : Nat)
  | registered (r : RegistrationReply)
  | submitted (r : SubmitReply)
  | entries (es : List Entry)
  | dumpRequests (rs : List DumpRequest)
  | deletionRequests (rs : List DeletionRequest)
  | statistics (s : Statistics)
  | usage (us : List UsageSummary)
  | swept (r : SweepReport)
  | cleaned (r : DeepCleanReport)
deriving DecidableEq

namespace Call

def perform (w : Setting) : Call → Step Relay Answer
  | register r client => .registered <$> Relay.register w r client
  | submit batch source client => .submitted <$> Relay.submit w batch source client
  | query user device reason client => .entries <$> Relay.query w user device reason client
  | bootstrap user device client => .entries <$> Relay.bootstrap w user device client
  | submitDump user source requester isChunk dump client =>
    .count <$> Relay.submitDump w user source requester isChunk dump client
  | dumpRequests user device => .dumpRequests <$> Relay.pendingDumpRequests w user device
  | addDeletion r => .count <$> Relay.addDeletionRequest w r
  | deletionRequests user device => .deletionRequests <$> Relay.deletionRequests w user device
  | uninstall user device => .count <$> Relay.uninstall w user device
  | recordFeedback f => (fun _ => .done) <$> Relay.recordFeedback w f
  | statistics => .statistics <$> Relay.statistics w
  | usageStatistics => .usage <$> Relay.usageStatistics w
  | wipe => .count <$> Relay.wipeEntries w
  | ping => (fun _ => .done) <$> Relay.ping
  | sweep => .swept <$> Relay.sweep w
  | deepClean now => .cleaned <$> Relay.deepClean w now

end Call

end HistoryRelay
