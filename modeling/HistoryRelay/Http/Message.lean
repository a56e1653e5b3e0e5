import HistoryRelay.Client
import HistoryRelay.Json
import HistoryRelay.RelayError

/-! Requests to the relay and its responses. -/
namespace HistoryRelay.Http

structure Request where
  method : String
  /-- Path and query string; a fragment is not part of either. A scheme and an authority may
  stand before the path. -/
  target : String
  headers : Headers := []
  body : List UInt8 := []

namespace Request

def isSchemeChar (c : Char) : Bool := c.isAlphanum || c = '+' || c = '-' || c = '.'

/-- The path and what follows it. Where scheme and authority are all there is, the path is the
root. -/
def afterAuthority (target : List Char) : List Char :=
  match target.dropWhile isSchemeChar with
  | ':' :: '/' :: '/' :: rest =>
    match rest.dropWhile fun c => c ≠ '/' && c ≠ '?' with
    | '/' :: rest => '/' :: rest
    | rest => '/' :: rest
  | _ => target

/-- The target without its fragment, from the path on. -/
def visibleTarget (r : Request) : List Char :=
  afterAuthority (r.target.toList.takeWhile (· ≠ '#'))

def path (r : Request) : String := String.ofList (r.visibleTarget.takeWhile (· ≠ '?'))

def query (r : Request) : String := String.ofList ((r.visibleTarget.dropWhile (· ≠ '?')).drop 1)

end Request

inductive Body where
  | text (s : String)
  | json (value : Json)

structure Response where
  status : Nat
  body : Body

namespace Response

def empty (status : Nat) : Response := ⟨status, .text ""⟩

def ofError (e : RelayError) : Response :=
  ⟨e.status, .json (Json.record [("error", Json.text e.reply)])⟩

/-- What a client sees of a crash. -/
def unavailable : Response :=
  ⟨503, .json (Json.record [("error", Json.text "Service unavailable")])⟩

end Response

end HistoryRelay.Http
