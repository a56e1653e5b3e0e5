import HistoryRelay.Proofs.Queries

/-! Calls that write, taken apart: each makes its checks, does all its work in one transaction and
notes itself last. Main statement: these parts make up the call, so that the relay's store is what
it was or what the work makes of it, the usage ledger apart. -/
namespace HistoryRelay
open Step

namespace Step

theorem transaction_map {σ α β : Type} (f : α → β) (a : Step σ α) :
    transaction (f <$> a) = f <$> transaction a := by
  funext s
  simp only [transaction, map_eq, bind_apply]
  cases a s with
  | mk o t => cases o <;> rfl

/-- The step broken off. Where the breaks name a reason, one of its statements is refused for it,
whichever it is, and what the step has made of the state until then is what the breaks say. -/
def broken {σ α : Type} (breaks : σ → Option (String × σ)) (a : Step σ α) : Step σ α := fun s =>
  match breaks s with
  | none => a s
  | some (reason, t) => (.failure (.refused reason), t)

theorem broken_critical {σ α : Type} {a : Step σ α} (h : Critical a)
    (breaks : σ → Option (String × σ)) : Critical (broken breaks a) := by
  intro s e he
  unfold broken at he
  split at he
  · exact h s e he
  · injection he with he
    simp [← he, RelayError.kind]

/-- Goes on unless there is something that must not be there. -/
def refuse {σ β : Type} (e : β → RelayError) : Option β → Step σ Unit
  | some b => fail (e b)
  | none => pure ()

theorem refuse_eq_answer {σ β : Type} {e : β → RelayError} {o : Option β} {v : Unit} {s t : σ} :
    refuse e o s = (.answer v, t) ↔ o = none ∧ t = s := by
  cases o with
  | none => simp [refuse, pure_apply, eq_comm]
  | some b => simp [refuse, fail]

/-- Refuses or lets pass without a change, and fails for a reason of its own. -/
structure Guards {σ α : Type} (a : Step σ α) : Prop where
  looks : Moves (· = ·) a
  critical : Critical a

namespace Guards
variable {σ α β : Type}

theorem pure (v : α) : Guards (Pure.pure v : Step σ α) := ⟨.pure v, .pure v⟩

theorem bind {a : Step σ α} {next : α → Step σ β} (ha : Guards a) (hn : ∀ v, Guards (next v)) :
    Guards (a >>= next) :=
  ⟨.bind ha.looks fun v => (hn v).looks, .bind ha.critical fun v => (hn v).critical⟩

theorem refuse {e : β → RelayError} (he : ∀ b, (e b).kind ≠ .nonCritical) (o : Option β) :
    Guards (Step.refuse e o : Step σ Unit) := by
  cases o with
  | some b => exact ⟨.fail _, .fail (he b)⟩
  | none => exact pure ()

end Guards

end Step

/-- The same with usage noted or not, in another environment, and with something else said to new
rows of the usage ledger. -/
def Setting.bookkeeping (w : Setting) (track : Bool) (environment : Environment)
    (refusal : Option String) : Setting where
  config := { w.config with trackUsage := track, environment }
  clock := w.clock
  refusals
    | .insert .usage _ => refusal
    | st => w.refusals st

theorem Setting.refusals_bookkeeping {w : Setting} {track : Bool} {environment : Environment}
    {refusal : Option String} {st : Statement} (h : ∀ ids, st ≠ .insert .usage ids) :
    (w.bookkeeping track environment refusal).refusals st = w.refusals st := by
  unfold bookkeeping
  dsimp only
  split
  · rename_i ids
    exact absurd rfl (h ids)
  · rfl

/-- The settings differ at most in whether usage is noted and in what is said to new rows of the
usage ledger. -/
structure Setting.SameButUsage (w w' : Setting) : Prop where
  config : { w.config with trackUsage := false } = { w'.config with trackUsage := false }
  clock : w.clock = w'.clock
  refusals : ∀ st, (∀ ids, st ≠ .insert .usage ids) → w.refusals st = w'.refusals st

namespace Setting.SameButUsage
variable {w w' : Setting}

theorem refl (w : Setting) : w.SameButUsage w := ⟨rfl, rfl, fun _ _ => rfl⟩

theorem environment (h : w.SameButUsage w') : w.config.environment = w'.config.environment :=
  congrArg (·.environment) h.config

theorem bookkeeping_eq (h : w.SameButUsage w') :
    w.bookkeeping false .production none = w'.bookkeeping false .production none := by
  have hconfig : ({ w.config with trackUsage := false, environment := .production } : Config) =
      { w'.config with trackUsage := false, environment := .production } :=
    congrArg (fun c : Config => { c with environment := .production }) h.config
  have hrefusals : (w.bookkeeping false .production none).refusals =
      (w'.bookkeeping false .production none).refusals := by
    funext st
    by_cases hst : ∃ ids, st = .insert .usage ids
    · obtain ⟨ids, rfl⟩ := hst
      rfl
    · have hother : ∀ ids, st ≠ .insert .usage ids := fun ids he => hst ⟨ids, he⟩
      rw [refusals_bookkeeping hother, refusals_bookkeeping hother, h.refusals st hother]
  exact (Setting.mk.injEq ..).mpr ⟨hconfig, h.clock, hrefusals⟩

theorem congr {β : Type} (h : w.SameButUsage w') (f : Setting → β)
    (hf : ∀ w track environment refusal, f (w.bookkeeping track environment refusal) = f w) :
    f w = f w' := by
  rw [← hf w false .production none, h.bookkeeping_eq, hf]

end Setting.SameButUsage

def Store.besidesUsage (s : Store) : Store := { s with usage := [] }

/-- What a call has noted of itself. -/
structure UsageNote where
  user : String
  device : String
  client : Client
  entries : Nat

/-- A call that writes, in its parts. -/
structure Undertaking where
  check : Step Relay Unit
  body : Step Store Answer
  note : Option UsageNote := none

namespace Undertaking

def bookkeep (w : Setting) (u : Undertaking) : Step Store Unit :=
  match u.note with
  | none => pure ()
  | some n => Relay.noteUsage w n.user n.device n.client n.entries false

def perform (w : Setting) (breaks : Store → Option (String × Store)) (u : Undertaking) :
    Step Relay Answer := do
  u.check
  Relay.locked do
    let answer ← transaction (broken breaks u.body)
    u.bookkeep w
    pure answer

/-- Neither the checks nor the work fail over bookkeeping. -/
structure Sound (u : Undertaking) : Prop where
  guards : Guards u.check
  critical : Critical u.body

end Undertaking

namespace Call
open Relay

def undertaking? (w : Setting) : Call → Option Undertaking
  | .register r client => some {
      check := do
        requireId "user_id" r.user
        requireId "device_id" r.device
      body := .registered <$> enroll w r client
      note := some ⟨r.user, r.device, client, 0⟩ }
  | .submit (first :: rest) source client => some {
      check := do
        requireId "user_id" first.user
        refuse (fun other => .mixedUsers first.user other.user)
          (rest.find? (·.user ≠ first.user))
      body := .submitted <$> distribute w first.user (first :: rest) (source.filter (· ≠ "")) client
      note := some ⟨first.user, (source.filter (· ≠ "")).getD first.device, client,
        (first :: rest).length⟩ }
  | .submitDump user source requester isChunk dump client => some {
      check := do
        requireId "user_id" user
        requireId "source_device_id" source
        requireId "requesting_device_id" requester
        refuse (fun e => .foreignEntry e.user user) (dump.find? (·.user ≠ user))
      body := .count <$> storeDump w user requester isChunk dump
      note := some ⟨user, source, client, dump.length⟩ }
  | .dumpRequests user device => some {
      check := do
        requireId "user_id" user
        requireId "device_id" device
      body := .dumpRequests <$> deliverDumpRequests w user device }
  | .addDeletion r => some {
      check := do
        requireId "user_id" r.user
        refuse (fun m => .unmatchableMessage m.device)
          (r.messages.find? fun m => m.device ≠ "" && !m.isMatchable)
      body := .count <$> bury w r }
  | .deletionRequests user device => some {
      check := do
        requireId "user_id" user
        requireId "device_id" device
      body := .deletionRequests <$> deliverDeletionRequests w user device }
  | .uninstall user device => some {
      check := do
        requireId "user_id" user
        requireId "device_id" device
      body := .count <$> withdraw w user device }
  | .deepClean now => some {
      check := do
        let _ : Timestamp ← daysBefore now w.config.retentionDays
        pure ()
      body := do
        let cutoff ← daysBefore now w.config.retentionDays
        .cleaned <$> cleanUp w cutoff }
  | _ => none

/-- The call with the work of an undertaking perhaps broken off. -/
def performBroken (w : Setting) (breaks : Store → Option (String × Store)) (call : Call) :
    Step Relay Answer :=
  match call.undertaking? w with
  | some u => u.perform w breaks
  | none => call.perform w

end Call

section Bookkeeping
variable (w : Setting) (track : Bool) (environment : Environment) (refusal : Option String)

namespace Store

theorem insertRuns_bookkeeping (runs : List (List EntryRow)) :
    insertRuns (w.bookkeeping track environment refusal).refusals runs =
      insertRuns w.refusals runs := by
  induction runs with
  | nil => rfl
  | cons run rest ih =>
    rw [insertRuns, insertRuns, ih]
    rfl

theorem insertTombstones_bookkeeping (row : DeletionRow) (devices : List String) :
    insertTombstones (w.bookkeeping track environment refusal).refusals row devices =
      insertTombstones w.refusals row devices := by
  induction devices with
  | nil => rfl
  | cons device rest ih =>
    rw [insertTombstones, insertTombstones, ih]
    rfl

theorem deleteMatching_bookkeeping (user : String) (messages : List Message) :
    deleteMatching (w.bookkeeping track environment refusal).refusals user messages =
      deleteMatching w.refusals user messages := by
  have hnamed : deleteNamed (w.bookkeeping track environment refusal).refusals user messages =
      deleteNamed w.refusals user messages := by
    induction messages with
    | nil => rfl
    | cons m rest ih =>
      rw [deleteNamed, deleteNamed, ih]
      rfl
  rw [deleteMatching, deleteMatching, hnamed]

end Store

namespace Relay

theorem applyTombstones_bookkeeping (requests : List DeletionRequest) :
    applyTombstones (w.bookkeeping track environment refusal) requests =
      applyTombstones w requests := by
  induction requests with
  | nil => rfl
  | cons r rest ih =>
    rw [applyTombstones, applyTombstones, ih, Store.deleteMatching_bookkeeping]

theorem trimUsers_bookkeeping (cutoff : Timestamp) (users : List String) :
    trimUsers (w.bookkeeping track environment refusal) cutoff users =
      trimUsers w cutoff users := by
  induction users with
  | nil => rfl
  | cons user rest ih =>
    rw [trimUsers, trimUsers, ih]
    rfl

theorem removeDevices_bookkeeping (ds : List (String × String)) :
    removeDevices (w.bookkeeping track environment refusal) ds = removeDevices w ds := by
  induction ds with
  | nil => rfl
  | cons d rest ih =>
    rw [removeDevices, removeDevices, ih]
    rfl

end Relay

theorem Call.undertaking?_bookkeeping (call : Call) :
    call.undertaking? (w.bookkeeping track environment refusal) = call.undertaking? w := by
  cases call with
  | submit batch source client =>
    cases batch with
    | nil => rfl
    | cons first rest =>
      simp only [undertaking?, Relay.distribute, Store.insertForDevices,
        Store.insertRuns_bookkeeping]
      rfl
  | submitDump user source requester isChunk dump client =>
    simp only [undertaking?, Relay.storeDump, Store.insertAsIs, Store.insertRuns_bookkeeping]
    rfl
  | addDeletion r =>
    simp only [undertaking?, Relay.bury, Store.createDeletionRequests,
      Store.insertTombstones_bookkeeping, Store.deleteMatching_bookkeeping]
    rfl
  | deepClean now =>
    simp only [undertaking?, Relay.cleanUp, Relay.trimUsers_bookkeeping,
      Relay.removeDevices_bookkeeping]
    rfl
  | _ => rfl

end Bookkeeping

namespace Relay
variable {w : Setting}

theorem locked_map {α β : Type} (f : α → β) (a : Step Store α) :
    f <$> locked a = locked (f <$> a) := by
  funext r
  rw [map_eq, map_eq, bind_apply, locked, locked, bind_apply]
  cases r.poisoned with
  | true => rfl
  | false =>
    cases a r.store with
    | mk o s => cases o <;> rfl

theorem map_locked_noted {α β : Type} (f : α → β) (a : Step Store α) (note : Step Store Unit) :
    f <$> locked (do let v ← transaction a; note; pure v) =
      locked (do let v ← transaction (f <$> a); note; pure v) := by
  simp only [locked_map, transaction_map, map_bind, map_pure, bind_map_left]

theorem map_locked_whole {α β : Type} (f : α → β) (a : Step Store α) :
    f <$> locked (transaction a) = locked (transaction (f <$> a)) := by
  rw [locked_map, transaction_map]

/-- The parts of a call make the call up, as long as nothing breaks. -/
theorem perform_of_undertaking {call : Call} {u : Undertaking} (h : call.undertaking? w = some u) :
    u.perform w (fun _ => none) = call.perform w := by
  have hwhole (a : Step Store Answer) : broken (fun _ => none) a = a := rfl
  unfold Undertaking.perform Undertaking.bookkeep Call.perform
  simp only [hwhole]
  cases call with
  | register r client =>
    cases h
    simp only [register, map_bind, bind_assoc, map_locked_noted]
  | submit batch source client =>
    cases batch with
    | nil => cases h
    | cons first rest =>
      cases h
      simp only [submit, map_bind, bind_assoc]
      cases rest.find? (·.user ≠ first.user) with
      | some other => rfl
      | none => simp only [refuse, pure_bind, map_locked_noted]
  | submitDump user source requester isChunk dump client =>
    cases h
    simp only [submitDump, map_bind, bind_assoc]
    cases dump.find? (·.user ≠ user) with
    | some e => rfl
    | none => simp only [refuse, pure_bind, map_locked_noted]
  | dumpRequests user device =>
    cases h
    simp only [pendingDumpRequests, map_bind, bind_assoc, map_locked_whole, pure_bind, bind_pure]
  | addDeletion r =>
    cases h
    simp only [addDeletionRequest, map_bind, bind_assoc]
    cases r.messages.find? fun m => m.device ≠ "" && !m.isMatchable with
    | some m => rfl
    | none => simp only [refuse, pure_bind, bind_pure, map_locked_whole]
  | deletionRequests user device =>
    cases h
    simp only [deletionRequests, map_bind, bind_assoc, map_locked_whole, pure_bind, bind_pure]
  | uninstall user device =>
    cases h
    simp only [uninstall, map_bind, bind_assoc, map_locked_whole, pure_bind, bind_pure]
  | deepClean now =>
    cases h
    simp only [deepClean, map_bind, bind_assoc, daysBefore]
    cases now.minusDays w.config.retentionDays with
    | some cutoff => simp only [pure_bind, bind_pure, map_locked_whole]
    | none => rfl
  | _ => cases h

/-- Enrolling and withdrawing look at the clock but at nothing that concerns bookkeeping, so what
they do in production they do everywhere. -/
theorem enroll_critical (r : Registration) (client : Client) : Critical (enroll w r client) :=
  (enroll_tame (w.bookkeeping false .production none) r client).critical rfl

theorem withdraw_critical (user device : String) : Critical (withdraw w user device) :=
  (withdraw_tame (w.bookkeeping false .production none) user device).critical rfl

theorem requireId_guards (name value : String) :
    Guards (requireId name value : Step Relay Unit) :=
  ⟨requireId_moves name value, requireId_critical name value⟩

theorem undertaking_sound {call : Call} {u : Undertaking} (h : call.undertaking? w = some u) :
    u.Sound := by
  have hids (name value name' value' : String) :
      Guards (do requireId name value; requireId name' value' : Step Relay Unit) :=
    .bind (requireId_guards name value) fun _ => requireId_guards name' value'
  cases call with
  | register r client =>
    cases h
    exact ⟨hids _ _ _ _, .map _ (enroll_critical r client)⟩
  | submit batch source client =>
    cases batch with
    | nil => cases h
    | cons first rest =>
      cases h
      have hbody : Steady (Leads fun _ => True)
          (distribute w first.user (first :: rest) (source.filter (· ≠ "")) client) :=
        distribute_steady w _ _ _ _ (fun _ _ => trivial) (fun _ _ => trivial) fun _ _ => trivial
      refine ⟨.bind (requireId_guards _ _) fun _ => .refuse (fun other => ?_) _,
        .map _ hbody.critical⟩
      simp [RelayError.kind]
  | submitDump user source requester isChunk dump client =>
    cases h
    have hbody : Steady (Leads fun _ => True) (storeDump w user requester isChunk dump) :=
      storeDump_steady w _ _ _ _ (fun _ _ => trivial) trivial
    refine ⟨.bind (requireId_guards _ _) fun _ => .bind (requireId_guards _ _) fun _ =>
      .bind (requireId_guards _ _) fun _ => .refuse (fun e => ?_) _, .map _ hbody.critical⟩
    simp [RelayError.kind]
  | dumpRequests user device =>
    cases h
    exact ⟨hids _ _ _ _, .map _ (deliverDumpRequests_steady w user device).critical⟩
  | addDeletion r =>
    cases h
    refine ⟨.bind (requireId_guards _ _) fun _ => .refuse (fun m => ?_) _,
      .map _ (bury_steady w r).critical⟩
    simp [RelayError.kind]
  | deletionRequests user device =>
    cases h
    exact ⟨hids _ _ _ _, .map _ (deliverDeletionRequests_steady w user device).critical⟩
  | uninstall user device =>
    cases h
    exact ⟨hids _ _ _ _, .map _ (withdraw_critical user device)⟩
  | deepClean now =>
    cases h
    exact ⟨.bind ⟨daysBefore_moves _ _, daysBefore_critical _ _⟩ fun _ => .pure (),
      .bind (daysBefore_critical _ _) fun cutoff => .map _ (cleanUp_steady w now cutoff).critical⟩
  | _ => cases h

theorem noteUsage_besides (w : Setting) (user device : String) (client : Client) (n : Nat)
    (isQuery : Bool) (s : Store) :
    (noteUsage w user device client n isQuery s).2.besidesUsage = s.besidesUsage := by
  have htame : Tame w (fun c => ∃ e time, c = .recordUsage e time)
      (noteUsage w user device client n isQuery) :=
    noteUsage_tame w _ _ _ _ _ fun e time _ => ⟨e, time, rfl⟩
  refine (htame.moves s).frame Store.besidesUsage fun c s hc => ?_
  obtain ⟨e, time, rfl⟩ := hc
  rfl

end Relay

namespace Undertaking

theorem bookkeep_answer (w : Setting) (u : Undertaking) (answer : Answer) (s : Store) :
    let noted : Step Store Answer := do
      u.bookkeep w
      pure answer
    (noted s).1.answered = (u.bookkeep w s).1.answered ∧
      (noted s).2.besidesUsage = s.besidesUsage := by
  intro noted
  have hmap := map_answered (fun _ => answer) (u.bookkeep w) s
  rw [map_eq] at hmap
  have hnote : (u.bookkeep w s).2.besidesUsage = s.besidesUsage := by
    unfold bookkeep
    cases u.note with
    | none => rfl
    | some n => exact Relay.noteUsage_besides w _ _ _ _ _ s
  exact ⟨hmap.1, (congrArg Store.besidesUsage hmap.2).trans hnote⟩

/-- Without its work an undertaking leaves the store as it was, and fails for a reason of its own
unless a part of it crashes. With it all that is left is the note, and the note decides. -/
theorem work_cases {u : Undertaking} (hu : u.Sound) (w : Setting)
    (breaks : Store → Option (String × Store)) (r : Relay) :
    ((u.perform w breaks r).2.store = r.store ∧
        ((∃ e, (u.perform w breaks r).1 = .failure e ∧ e.kind ≠ .nonCritical) ∨
          (u.perform w breaks r).1 = .crash ∧
            ((u.check r).1 = .crash ∨ (broken breaks u.body r.store).1 = .crash))) ∨
      ∃ answer s, u.check r = (.answer (), r) ∧
        broken breaks u.body r.store = (.answer answer, s) ∧
        (u.perform w breaks r).1 = (((fun _ => answer) <$> u.bookkeep w) s).1 ∧
        (u.perform w breaks r).2.store = (((fun _ => answer) <$> u.bookkeep w) s).2 := by
  have hlooks := hu.guards.looks r
  cases hcheck : u.check r with
  | mk o r₁ =>
    rw [hcheck] at hlooks
    obtain rfl : r = r₁ := hlooks
    cases o with
    | failure e =>
      rw [perform, bind_failure hcheck]
      exact .inl ⟨rfl, .inl ⟨e, rfl, hu.guards.critical r e (congrArg Prod.fst hcheck)⟩⟩
    | crash =>
      rw [perform, bind_crash hcheck]
      exact .inl ⟨rfl, .inr ⟨rfl, .inl rfl⟩⟩
    | answer _ =>
      rw [perform, bind_answer hcheck]
      cases hfree : r.poisoned with
      | true =>
        rw [Relay.locked_poisoned _ hfree]
        exact .inl ⟨rfl, .inl ⟨_, rfl, by decide⟩⟩
      | false =>
        rw [(Relay.locked_apply _ hfree).1, (Relay.locked_apply _ hfree).2]
        cases hbody : broken breaks u.body r.store with
        | mk o s =>
          cases o with
          | answer answer =>
            rw [bind_answer (transaction_answer hbody)]
            exact .inr ⟨answer, s, rfl, rfl, by rw [map_eq], by rw [map_eq]⟩
          | failure e =>
            have hback : transaction (broken breaks u.body) r.store = (.failure e, r.store) := by
              simp [transaction, hbody]
            have hkind := broken_critical hu.critical breaks r.store e (congrArg Prod.fst hbody)
            rw [bind_failure hback]
            exact .inl ⟨rfl, .inl ⟨e, rfl, hkind⟩⟩
          | crash =>
            have hback : transaction (broken breaks u.body) r.store = (.crash, r.store) := by
              simp [transaction, hbody]
            rw [bind_crash hback]
            exact .inl ⟨rfl, .inr ⟨rfl, .inr rfl⟩⟩

end Undertaking

/-- A call that writes leaves the store as it was, or as its work makes it. -/
theorem Call.perform_cases (w : Setting) (call : Call) {u : Undertaking}
    (h : call.undertaking? w = some u) (r : Relay) :
    (call.perform w r).2.store = r.store ∨ ∃ answer s, u.check r = (.answer (), r) ∧
      u.body r.store = (.answer answer, s) ∧
      (call.perform w r).2.store.besidesUsage = s.besidesUsage := by
  rw [← Relay.perform_of_undertaking h]
  obtain ⟨hstore, -⟩ | ⟨answer, s, hcheck, hbody, -, hstore⟩ :=
    Undertaking.work_cases (Relay.undertaking_sound h) w (fun _ => none) r
  · exact .inl hstore
  · have hnote := (Undertaking.bookkeep_answer w u answer s).2
    rw [← map_eq] at hnote
    exact .inr ⟨answer, s, hcheck, hbody, hstore ▸ hnote⟩

end HistoryRelay
