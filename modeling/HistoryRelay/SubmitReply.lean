import HistoryRelay.DumpRequest
import HistoryRelay.DeletionRequest

/-! The answer to a submit. Clients that only understand a bare acknowledgement get
neither list, and a list that is not there is left out. -/
namespace HistoryRelay

structure SubmitReply where
  dumpRequests : Option (List DumpRequest)
  deletionRequests : Option (List DeletionRequest)
deriving DecidableEq

namespace SubmitReply
open Json

def bare : SubmitReply := ⟨none, none⟩

def toJson (r : SubmitReply) : Json :=
  record ((match r.dumpRequests with
      | some rs => [("dump_requests", list (rs.map DumpRequest.toJson))]
      | none => []) ++
    (match r.deletionRequests with
      | some rs => [("deletion_requests", list (rs.map DeletionRequest.toJson))]
      | none => []))

def shape : Shape SubmitReply :=
  ((Shape.pure SubmitReply.mk).and
    (defaulted "dump_requests" (asOption (asList DumpRequest.ofJson)) none)).and
    (defaulted "deletion_requests" (asOption (asList DeletionRequest.ofJson)) none)

def ofJson : Decoder SubmitReply := shape.decode

end SubmitReply

end HistoryRelay
