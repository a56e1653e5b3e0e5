import HistoryRelay.Relay.Call

/-! Calls one after another. Each finds the relay as the one before it left it, but has a
setting of its own: the clock moves in any direction, and what the store refuses changes. -/
namespace HistoryRelay

structure Turn where
  setting : Setting
  call : Call

namespace Turn

def take (t : Turn) (r : Relay) : Outcome Answer × Relay := t.call.perform t.setting r

end Turn

namespace Relay

def run (r : Relay) (turns : List Turn) : Relay := turns.foldl (fun r t => (t.take r).2) r

def outcomes : Relay → List Turn → List (Outcome Answer)
  | _, [] => []
  | r, t :: rest => (t.take r).1 :: outcomes (t.take r).2 rest

theorem run_cons (r : Relay) (t : Turn) (rest : List Turn) :
    r.run (t :: rest) = (t.take r).2.run rest := rfl

theorem run_append (r : Relay) (ts us : List Turn) : r.run (ts ++ us) = (r.run ts).run us :=
  List.foldl_append

theorem outcomes_append (r : Relay) (ts us : List Turn) :
    r.outcomes (ts ++ us) = r.outcomes ts ++ (r.run ts).outcomes us := by
  induction ts generalizing r with
  | nil => rfl
  | cons t rest ih => rw [List.cons_append, outcomes, ih]; rfl

end Relay

end HistoryRelay
