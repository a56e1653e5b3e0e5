import HistoryRelay.Proofs.Redelivery

/-! Queries whose halves lie apart. Between the two the lock is free, so other calls, and halves of
other queries, come in between. Main statement: what one event does to the rows of a device and to
the number of its queries that have read and not counted yet. -/
namespace HistoryRelay
open Step

/-- The relay, and a place for each query that has read its rows and not counted that yet. -/
structure Traffic where
  relay : Relay := {}
  inFlight : List (String × String) := []

namespace Traffic

/-- What happens to the relay at one time. A query is two events, every other call is one. -/
inductive Event where
  | turn (t : Turn)
      (whole : ∀ user device reason client, t.call ≠ .query user device reason client)
  | read (w : Setting) (user device : String) (reason : Option String) (client : Client)
  | count (w : Setting) (user device : String)

def Event.setting : Event → Setting
  | .turn t _ => t.setting
  | .read w _ _ _ _ => w
  | .count w _ _ => w

/-- A query that reads is in flight until its read is counted. It stays there when the count fails,
and for good when nobody tries. -/
def step (s : Traffic) : Event → Traffic
  | .turn t _ => { s with relay := (t.take s.relay).2 }
  | .read w user device reason client =>
    let (outcome, relay) := Relay.readPending w user device reason client s.relay
    ⟨relay, if outcome.answered then (user, device) :: s.inFlight else s.inFlight⟩
  | .count w user device =>
    if (user, device) ∈ s.inFlight then
      let (outcome, relay) := Relay.countRead w user device s.relay
      ⟨relay, if outcome.answered then s.inFlight.erase (user, device) else s.inFlight⟩
    else s

def run (s : Traffic) (events : List Event) : Traffic := events.foldl step s

/-- How many queries of the device have read and not counted yet. -/
def flying (s : Traffic) (user device : String) : Nat := s.inFlight.count (user, device)

namespace Event

/-- A query of the device that reads the row of a number. That counts as a delivery even when the
query fails over its count later. -/
def delivers (user device : String) (id : Nat) (s : Traffic) : Event → Bool
  | .read w u d reason client =>
    u = user && d = device && (Relay.readPending w u d reason client s.relay).1.answered &&
      (Relay.reported w u d reason client s.relay).any (·.id = id)
  | _ => false

end Event

def deliveries (user device : String) (id : Nat) : Traffic → List Event → Nat
  | _, [] => 0
  | s, e :: rest =>
    (if e.delivers user device id s then 1 else 0) + deliveries user device id (s.step e) rest

theorem run_cons (s : Traffic) (e : Event) (rest : List Event) :
    s.run (e :: rest) = (s.step e).run rest := rfl

theorem run_append (s : Traffic) (es fs : List Event) : s.run (es ++ fs) = (s.run es).run fs :=
  List.foldl_append

theorem query_state {w : Setting} {user device : String} {reason : Option String}
    {client : Client} {r r₁ : Relay} {es : List Entry}
    (h : Relay.readPending w user device reason client r = (.answer es, r₁)) :
    (Relay.query w user device reason client r).2 = (Relay.countRead w user device r₁).2 := by
  have hrescue : (rescue (Relay.countRead w user device) (fun _ => pure ()) r₁).2 =
      (Relay.countRead w user device r₁).2 := by
    unfold rescue
    cases Relay.countRead w user device r₁ with
    | mk o r₂ => cases o <;> rfl
  rw [Relay.query, bind_answer h]
  split
  · rw [← hrescue]
    exact (map_answered (fun _ => es) _ r₁).2
  · exact (map_answered (fun _ => es) _ r₁).2

/-- Halves of a query that follow on one another leave the relay that the query as a whole does. -/
theorem step_step_of_query {s : Traffic} {user device : String}
    (h : (user, device) ∉ s.inFlight) (w : Setting) (reason : Option String) (client : Client) :
    ((s.step (.read w user device reason client)).step (.count w user device)).relay =
      (Relay.query w user device reason client s.relay).2 := by
  cases hread : Relay.readPending w user device reason client s.relay with
  | mk o r =>
    have hstep : s.step (.read w user device reason client) =
        ⟨r, if o.answered then (user, device) :: s.inFlight else s.inFlight⟩ := by
      rw [step, hread]
    rw [hstep]
    cases o with
    | answer es => simp [step, Outcome.answered, query_state hread]
    | failure e => simp [step, Outcome.answered, h, Relay.query, bind_failure hread]
    | crash => simp [step, Outcome.answered, h, Relay.query, bind_crash hread]

section Events
variable {s : Traffic} {user device : String}

theorem step_leads (s : Traffic) (e : Event) :
    Leads (fun _ => True) s.relay.store (s.step e).relay.store := by
  cases e with
  | turn t whole => exact (t.leads s.relay).mono fun _ _ => trivial
  | read w user device reason client =>
    exact ((Relay.readPending_orderly w user device reason client (fun _ _ => trivial)
      fun _ _ _ => trivial).moves s.relay).1
  | count w user device =>
    rw [step]
    split
    · obtain ⟨-, h⟩ | ⟨-, h⟩ := Relay.countRead_cases w user device s.relay
      · show Leads _ _ (Relay.countRead w user device s.relay).2.store
        rw [h]
        exact .one trivial _
      · show Leads _ _ (Relay.countRead w user device s.relay).2.store
        rw [h]
        exact refl_of _ _
    · exact refl_of _ _

/-- What one event does, as far as a device is concerned. -/
inductive Event.Effect (user device : String) (s : Traffic) (e : Event) : Prop where
  | grown (rows : s.relay.store.Grows (s.step e).relay.store)
      (flying : (s.step e).flying user device = s.flying user device)
      (delivers : ∀ id, e.delivers user device id s = false)
  | asked (rows : s.relay.store.Grows (s.step e).relay.store)
      (flying : (s.step e).flying user device = s.flying user device + 1)
      (delivers : ∀ id, e.delivers user device id s =
        (Entries.pending user device e.setting.config.queryReadLimit
          (s.step e).relay.store.entries).any (·.id = id))
  | counted (rows : (s.step e).relay.store =
        (Change.bumpEntries user device).apply s.relay.store)
      (flying : (s.step e).flying user device + 1 = s.flying user device)
      (delivers : ∀ id, e.delivers user device id s = false)
  | otherCounted (u d : String) (other : ¬(u = user ∧ d = device))
      (rows : (s.step e).relay.store = (Change.bumpEntries u d).apply s.relay.store)
      (flying : (s.step e).flying user device = s.flying user device)
      (delivers : ∀ id, e.delivers user device id s = false)

theorem Event.effect (user device : String) (s : Traffic) (e : Event) :
    e.Effect user device s := by
  cases e with
  | turn t whole => exact .grown (Turn.grows s.relay whole) rfl fun _ => rfl
  | read w u d reason client =>
    have hrows := Relay.readPending_grows w u d reason client s.relay
    by_cases hanswer : (Relay.readPending w u d reason client s.relay).1.answered = true
    · by_cases hown : u = user ∧ d = device
      · obtain ⟨rfl, rfl⟩ := hown
        refine .asked hrows ?_ fun id => ?_
        · simp [step, flying, hanswer]
        · simp [delivers, hanswer, Relay.reported, step, setting]
      · refine .grown hrows ?_ fun id => ?_
        · simp [step, flying, hanswer, hown]
        · simp [delivers, hown]
    · refine .grown hrows ?_ fun id => ?_
      · simp [step, flying, hanswer]
      · simp [delivers, hanswer]
  | count w u d =>
    by_cases hin : (u, d) ∈ s.inFlight
    · obtain ⟨hanswer, hstore⟩ | ⟨hanswer, hstore⟩ := Relay.countRead_cases w u d s.relay
      · have hrows : (s.step (.count w u d)).relay.store =
            (Change.bumpEntries u d).apply s.relay.store := by
          simpa [step, hin] using hstore
        by_cases hown : u = user ∧ d = device
        · obtain ⟨rfl, rfl⟩ := hown
          have hpos : 0 < s.inFlight.count (u, d) := List.count_pos_iff.2 hin
          refine .counted hrows ?_ fun _ => rfl
          simp only [step, flying, hin, hanswer, if_true, List.count_erase_self]
          omega
        · have hne : (user, device) ≠ (u, d) := fun h => hown ⟨(congrArg Prod.fst h).symm,
            (congrArg Prod.snd h).symm⟩
          refine .otherCounted u d hown hrows ?_ fun _ => rfl
          simp [step, flying, hin, hanswer, List.count_erase_of_ne hne]
      · refine .grown ?_ ?_ fun _ => rfl
        · rw [step, if_pos hin]
          show s.relay.store.Grows (Relay.countRead w u d s.relay).2.store
          rw [hstore]
          exact refl_of _ _
        · simp [step, flying, hin, hanswer]
    · have hsame : s.step (.count w u d) = s := by rw [step, if_neg hin]
      exact .grown (by rw [hsame]; exact refl_of _ _) (by rw [hsame]) fun _ => rfl

end Events

end Traffic

end HistoryRelay
