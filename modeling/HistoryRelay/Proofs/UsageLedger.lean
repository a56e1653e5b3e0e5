import HistoryRelay.Proofs.Matching
import HistoryRelay.Proofs.Overlap
import HistoryRelay.Proofs.Poisoning
import HistoryRelay.Proofs.Tombstones
import HistoryRelay.Proofs.UsageRows

/-! The usage ledger is the fold of what the calls note. Main statement: after any run a device has
a row exactly if it had an event, and the row tells its events; where usage is tracked and the store
takes it, the events are the calls that answer. -/
namespace HistoryRelay
open Step

section Events

/-- The event that a call is. A submit is one of its source, or else of the device that its first
entry names; a query in the background is none. -/
def Call.event? (time : Timestamp) : Call → Option UsageEvent
  | .register r client => some ⟨r.user, r.device, time, client.ip, client.version, 0, false⟩
  | .submit (first :: rest) source client =>
    some ⟨first.user, (source.filter (· ≠ "")).getD first.device, time, client.ip, client.version,
      (first :: rest).length, false⟩
  | .query user device reason client =>
    if Relay.isBackground reason then none
    else some ⟨user, device, time, client.ip, client.version, 0, true⟩
  | .bootstrap user device client => some ⟨user, device, time, client.ip, client.version, 0, false⟩
  | .submitDump user source _ _ dump client =>
    some ⟨user, source, time, client.ip, client.version, dump.length, false⟩
  | _ => none

/-- A call that names its user and device gets past its checks and the lock. -/
def Relay.admits (r : Relay) (user device : String) : Bool :=
  !r.poisoned && (user ≠ "" && device ≠ "")

namespace Turn

/-- The event of a turn that answers. -/
def event? (t : Turn) (r : Relay) : Option UsageEvent :=
  if (t.take r).1.answered then t.call.event? t.setting.clock else none

/-- The turn gets as far as its note. A query and a bootstrap note themselves first. -/
def notes (t : Turn) (r : Relay) : Bool :=
  match t.call with
  | .query user device _ _ | .bootstrap user device _ => r.admits user device
  | _ => (t.take r).1.answered

/-- The event that a turn notes, if usage is tracked and can be noted. -/
def note? (t : Turn) (r : Relay) : Option UsageEvent :=
  if t.setting.config.trackUsage = true ∧ t.setting.Noting ∧ t.notes r = true then
    t.call.event? t.setting.clock
  else none

variable {t : Turn} {r : Relay}

theorem note?_of_notes (h : t.notes r = true) : t.note? r =
    if t.setting.config.trackUsage = true ∧ t.setting.Noting then t.call.event? t.setting.clock
    else none := by
  simp only [note?, h, and_true]

theorem note?_of_not (h : t.notes r = false) : t.note? r = none := by
  simp only [note?, h, Bool.false_eq_true, and_false, if_false]

end Turn

/-- What the turns of a run bring, in their order. -/
def Relay.gather {α : Type} (f : Turn → Relay → Option α) : Relay → List Turn → List α
  | _, [] => []
  | r, t :: rest => (f t r).toList ++ gather f (t.take r).2 rest

theorem Relay.gather_concat {α : Type} (f : Turn → Relay → Option α) (r : Relay)
    (turns : List Turn) (t : Turn) :
    gather f r (turns ++ [t]) = gather f r turns ++ (f t (r.run turns)).toList := by
  induction turns generalizing r with
  | nil => simp [gather, run]
  | cons u rest ih => rw [List.cons_append, gather, gather, ih, run_cons, List.append_assoc]

abbrev Relay.events : Relay → List Turn → List UsageEvent := gather Turn.event?

end Events

/-- The ledger afterwards is the one before with this event recorded, if there is one. -/
def Usage.Follows (before after : List UsageRow) : Option UsageEvent → Prop
  | none => after = before
  | some e => ∃ time, e.time.toInstant? = some time ∧ after = record e time before

theorem Usage.Accounts.follows {before after : List UsageRow} {user device : String}
    {es : List UsageEvent} {o : Option UsageEvent}
    (h : Accounts before user device (es.filter (·.isOf user device)))
    (ho : Follows before after o) :
    Accounts after user device ((es ++ o.toList).filter (·.isOf user device)) := by
  cases o with
  | none =>
    obtain rfl : after = before := ho
    simpa using h
  | some e =>
    obtain ⟨time, ht, rfl⟩ := ho
    exact h.record ht

namespace Relay
variable {w : Setting}

theorem noteUsage_follows (user device : String) (client : Client) (n : Nat) (isQuery : Bool)
    (s : Store) :
    Usage.Follows s.usage (noteUsage w user device client n isQuery s).2.usage
      (if w.config.trackUsage = true ∧ w.Noting then
        some ⟨user, device, w.clock, client.ip, client.version, n, isQuery⟩
      else none) := by
  unfold noteUsage
  cases htrack : w.config.trackUsage with
  | false => exact rfl
  | true =>
    by_cases hclock : w.clock.seconds < 0
    · -- the clock cannot be read, and the note crashes before it writes
      have hnot : ¬w.Noting := fun h => Int.not_lt.2 h.readable hclock
      have hcrash : (readClock w : Step Store Timestamp) = crash := if_pos hclock
      simp only [hnot, and_false, if_false, Bool.not_true, Bool.false_eq_true, hcrash]
      rfl
    · have hread : (readClock w : Step Store Timestamp) = pure w.clock := if_neg hclock
      simp only [hread, pure_bind, Bool.not_true, Bool.false_eq_true, if_false, true_and]
      let e : UsageEvent := ⟨user, device, w.clock, client.ip, client.version, n, isQuery⟩
      have hsteady : Steady (Leads fun _ => True) (Store.recordUsage w.refusals e) :=
        Store.recordUsage_steady _ _ fun _ => trivial
      unfold rescue
      cases hrecord : Store.recordUsage w.refusals e s with
      | mk o t =>
        cases o with
        | answer _ =>
          obtain ⟨time, htime, hgranted, rfl⟩ := Store.recordUsage_eq_answer.1 hrecord
          have hnoting : w.Noting := ⟨Int.not_lt.1 hclock, by simp [htime, e], hgranted⟩
          rw [if_pos hnoting]
          exact ⟨time, htime, rfl⟩
        | failure cause =>
          have hsame : t = s := change_dated_intact _ (Change.recordUsage e) _ _ s _ t hrecord
          have hnot : ¬w.Noting := fun h => by
            obtain ⟨time, htime⟩ := Option.isSome_iff_exists.1 h.storable
            have hanswer : Store.recordUsage w.refusals e s = (.answer (), _) :=
              Store.recordUsage_eq_answer.2 ⟨time, htime, h.granted, rfl⟩
            cases hrecord.symm.trans hanswer
          have hafter : ((if w.config.environment = .production then pure ()
              else fail (.bookkeeping cause) : Step Store Unit) s).2 = s := by
            split <;> rfl
          rw [if_neg hnot, hsame]
          exact congrArg Store.usage hafter
        | crash => exact absurd (congrArg Prod.fst hrecord) (hsteady.calm s)

end Relay

def UsageNote.event (n : UsageNote) (time : Timestamp) : UsageEvent :=
  ⟨n.user, n.device, time, n.client.ip, n.client.version, n.entries, false⟩

namespace Undertaking
variable {w : Setting} {u : Undertaking}

theorem bookkeep_follows (s : Store) : Usage.Follows s.usage (u.bookkeep w s).2.usage
    (if w.config.trackUsage = true ∧ w.Noting then u.note.map (·.event w.clock) else none) := by
  unfold bookkeep
  cases u.note with
  | none => simp only [Option.map_none, ite_self]; rfl
  | some n => exact Relay.noteUsage_follows n.user n.device n.client n.entries false s

theorem perform_follows (hu : u.Sound)
    (hbody : ∀ s answer t, u.body s = (.answer answer, t) → t.usage = s.usage) (r : Relay) :
    let out := u.perform w (fun _ => none) r
    Usage.Follows r.store.usage out.2.store.usage
      (if w.config.trackUsage = true ∧ w.Noting ∧ out.1.answered = true then
        u.note.map (·.event w.clock)
      else none) := by
  intro out
  obtain ⟨hstore, hout⟩ | ⟨answer, s, -, hwork, hout, hstore⟩ :=
    work_cases hu w (fun _ => none) r
  · have hno : out.1.answered = false := by
      obtain ⟨e, he, -⟩ | ⟨hcrash, -⟩ := hout
      · exact congrArg Outcome.answered he
      · exact congrArg Outcome.answered hcrash
    rw [if_neg (by simp [hno])]
    exact congrArg Store.usage hstore
  · obtain ⟨hanswered, hnoted⟩ := map_answered (fun _ => answer) (u.bookkeep w) s
    have hwill : w.Noting → out.1.answered = true := fun h => by
      rw [hout, hanswered]
      exact bookkeep_willing h u s
    -- the work is done: where the note is made it cannot fail, so that the call answers
    have hcond : (w.config.trackUsage = true ∧ w.Noting ∧ out.1.answered = true) ↔
        (w.config.trackUsage = true ∧ w.Noting) :=
      ⟨fun h => ⟨h.1, h.2.1⟩, fun h => ⟨h.1, h.2, hwill h.2⟩⟩
    have hfollows := bookkeep_follows (w := w) (u := u) s
    rw [hbody _ _ _ hwork] at hfollows
    rw [hstore, hnoted, if_congr hcond rfl rfl]
    exact hfollows

end Undertaking

namespace Call
variable {w : Setting} {call : Call} {u : Undertaking}

theorem event?_of_undertaking (h : call.undertaking? w = some u) (time : Timestamp) :
    call.event? time = u.note.map (·.event time) := by
  cases call with
  | submit batch source client =>
    cases batch with
    | nil => cases h
    | cons first rest =>
      cases h
      rfl
  | query | bootstrap | recordFeedback | statistics | usageStatistics | wipe | ping | sweep =>
    cases h
  | _ =>
    cases h
    rfl

theorem usage_of_body (hlast : call.notesLast) (h : call.undertaking? w = some u) {s t : Store}
    {answer : Answer} (hbody : u.body s = (.answer answer, t)) : t.usage = s.usage := by
  cases call with
  | register reg client =>
    cases h
    obtain ⟨reply, henroll, -⟩ := map_eq_answer.1 hbody
    obtain ⟨-, -, time, -, rfl⟩ := Relay.enroll_answer henroll
    split <;> rfl
  | submit | submitDump =>
    have husage := usage_of_bringsEntries rfl h s
    rwa [hbody] at husage
  | _ => cases hlast

end Call

namespace Relay
variable {w : Setting} {user device : String}

theorem ids_locked {α : Type} (a : Step Store α) (r : Relay) :
    let out := (do
      requireId "user_id" user
      requireId "device_id" device
      locked a : Step Relay α) r
    out.1.answered = (r.admits user device && (a r.store).1.answered) ∧
      out.2.store = if r.admits user device then (a r.store).2 else r.store := by
  unfold requireId admits
  by_cases hu : user = ""
  · simp [hu, bind_apply, fail, Outcome.answered]
  · by_cases hd : device = ""
    · simp [hu, hd, bind_apply, pure_apply, fail, Outcome.answered]
    · cases hp : r.poisoned with
      | true => simp [hu, hd, locked_poisoned a hp, Outcome.answered]
      | false => simp [hu, hd, locked_apply a hp]

theorem usage_rest {α β : Type} {a : Step Store α} {next : α → Step Store β}
    (hn : ∀ v, Moves (Leads fun c => ∀ s, (c.apply s).usage = s.usage) (next v)) (s : Store) :
    ((a >>= next) s).2.usage = (a s).2.usage :=
  (Moves.rest hn s).frame Store.usage fun _ s hc => hc s

theorem usage_countRead (r : Relay) :
    (countRead w user device r).2.store.usage = r.store.usage := by
  obtain ⟨-, h⟩ | ⟨-, h⟩ := countRead_cases w user device r
  · exact (congrArg Store.usage h).trans rfl
  · exact congrArg Store.usage h

theorem query_follows (reason : Option String) (client : Client) (r : Relay) :
    Usage.Follows r.store.usage (query w user device reason client r).2.store.usage
      (Turn.note? ⟨w, .query user device reason client⟩ r) := by
  have hread : (query w user device reason client r).2.store.usage =
      (readPending w user device reason client r).2.store.usage := by
    obtain ⟨-, -, -, h⟩ | ⟨-, h⟩ := query_cases w user device reason client r
    · rw [h, usage_countRead]
    · rw [h]
  have hfetch : Steady (Leads fun c => ∀ s, (c.apply s).usage = s.usage) _ :=
    fetchPending_steady w user device fun _ _ _ => rfl
  rw [hread, readPending, (ids_locked _ r).2]
  cases hopen : r.admits user device with
  | false =>
    rw [Turn.note?_of_not (t := ⟨w, .query user device reason client⟩) hopen]
    exact rfl
  | true =>
    rw [Turn.note?_of_notes (t := ⟨w, .query user device reason client⟩) hopen, if_pos rfl,
      Call.event?]
    cases isBackground reason with
    | true =>
      rw [if_pos rfl, if_pos rfl, ite_self]
      exact (hfetch.moves r.store).frame Store.usage fun _ s hc => hc s
    | false =>
      rw [if_neg Bool.false_ne_true, if_neg Bool.false_ne_true, usage_rest fun _ => hfetch.moves]
      exact noteUsage_follows _ _ _ _ _ _

theorem bootstrap_follows (client : Client) (r : Relay) :
    Usage.Follows r.store.usage (bootstrap w user device client r).2.store.usage
      (Turn.note? ⟨w, .bootstrap user device client⟩ r) := by
  have hread : Steady (Leads fun c => ∀ s, (c.apply s).usage = s.usage)
      (Store.entriesOfUser w.refusals user) := (Store.entriesOfUser_looks _ _).steady
  rw [bootstrap, (ids_locked _ r).2]
  cases hopen : r.admits user device with
  | false =>
    rw [Turn.note?_of_not (t := ⟨w, .bootstrap user device client⟩) hopen]
    exact rfl
  | true =>
    rw [Turn.note?_of_notes (t := ⟨w, .bootstrap user device client⟩) hopen, if_pos rfl,
      usage_rest fun _ => hread.moves]
    exact noteUsage_follows _ _ _ _ _ _

end Relay

namespace Turn
variable {t : Turn}

theorem usage_of_eventless (h : t.call.event? t.setting.clock = none) (r : Relay) :
    (t.take r).2.store.usage = r.store.usage := by
  obtain ⟨w, call⟩ := t
  cases call with
  | register | bootstrap | submitDump => cases h
  | submit batch source client =>
    cases batch with
    | nil => rfl
    | cons first rest => cases h
  | query user device reason client =>
    let t : Turn := ⟨w, .query user device reason client⟩
    have hfollows : Usage.Follows r.store.usage
        (Relay.query w user device reason client r).2.store.usage (t.note? r) :=
      Relay.query_follows reason client r
    rw [Turn.note?, h, ite_self] at hfollows
    rw [Turn.take, Call.perform, (map_answered _ _ r).2]
    exact hfollows
  | _ =>
    refine (Turn.leads _ r).frame Store.usage fun c s hc => ?_
    cases c <;> first | rfl | cases hc

theorem note_follows_last {u : Undertaking} (hlast : t.call.notesLast)
    (h : t.call.undertaking? t.setting = some u) (r : Relay) :
    Usage.Follows r.store.usage (t.take r).2.store.usage (t.note? r) := by
  have hfollows := u.perform_follows (w := t.setting) (Relay.undertaking_sound h)
    (fun _ _ _ => Call.usage_of_body hlast h) r
  have hnotes : t.notes r = (t.take r).1.answered := by
    obtain ⟨w, call⟩ := t
    cases call <;> first | rfl | cases hlast
  rw [Relay.perform_of_undertaking h, ← Call.event?_of_undertaking h] at hfollows
  rw [note?, hnotes]
  exact hfollows

/-- A turn records its note and does nothing else to the ledger. -/
theorem note_follows (t : Turn) (r : Relay) :
    Usage.Follows r.store.usage (t.take r).2.store.usage (t.note? r) := by
  cases hevent : t.call.event? t.setting.clock with
  | none =>
    rw [note?, hevent, ite_self]
    exact usage_of_eventless hevent r
  | some e =>
    obtain ⟨w, call⟩ := t
    cases call with
    | register | submitDump => exact note_follows_last rfl rfl r
    | submit batch source client =>
      cases batch with
      | nil => cases hevent
      | cons first rest => exact note_follows_last rfl rfl r
    | query user device reason client =>
      rw [Turn.take, Call.perform, (map_answered _ _ r).2]
      exact Relay.query_follows reason client r
    | bootstrap user device client =>
      rw [Turn.take, Call.perform, (map_answered _ _ r).2]
      exact Relay.bootstrap_follows client r
    | _ => cases hevent

end Turn

namespace Relay

/-- After any run, under any settings, every device has its account of what was noted. -/
theorem accounts_notes (turns : List Turn) (user device : String) :
    Usage.Accounts (run {} turns).store.usage user device
      ((gather Turn.note? {} turns).filter (·.isOf user device)) := by
  induction turns using List.reverseRecOn with
  | nil => exact Usage.accounts_nil user device
  | append_singleton turns t ih =>
    rw [run_append, gather_concat]
    exact ih.follows (t.note_follows _)

end Relay

def Store.Legible (s : Store) : Prop := ∀ row ∈ s.deletionRequests, ∃ q, row.toRequest = .ok q

theorem Relay.legible_run (turns : List Turn) : (run {} turns).store.Legible := by
  intro row hrow
  obtain ⟨req, hreq⟩ := row.exists_stemsFrom hrow
  exact ⟨⟨row.user, row.destination, row.sendTime.toTimestamp, row.readCount, req.messages⟩,
    DeletionRow.toRequest_eq_ok.2 ⟨hreq.messages, rfl, rfl, rfl, rfl⟩⟩

namespace Relay
variable {w : Setting} {user device : String} {r : Relay} {s : Store}

section Free
variable (hfree : ∀ st, w.refusals st = none)
include hfree

theorem applyTombstones_willing {requests : List DeletionRequest}
    (h : ∀ q ∈ requests, q.user ≠ "") : Willing (applyTombstones w requests) := by
  induction requests with
  | nil => exact .pure ()
  | cons q rest ih =>
    rw [applyTombstones, Store.deleteMatching_eq_deleteNamed (h q List.mem_cons_self)]
    exact .bind (Store.deleteNamed_willing hfree _ _) fun _ =>
      ih fun q' hq => h q' (List.mem_cons_of_mem q hq)

theorem applyDeletions_answers (huser : user ≠ "") (hs : s.Legible) :
    ∃ t, applyDeletions w user device s = (.answer (), t) := by
  cases hread : (s.deletionRequests.filter (·.isFor user device)).mapM DeletionRow.toRequest with
  | error e =>
    obtain ⟨row, hrow, hbad⟩ := error_of_mapM hread
    obtain ⟨q, hq⟩ := hs row (List.mem_of_mem_filter hrow)
    cases hbad.symm.trans hq
  | ok requests =>
    have hlisted : Store.deletionRequestsFor w.refusals user device s = (.answer requests, s) :=
      Store.deletionRequestsFor_eq_answer.2 ⟨hfree _, mapM_eq_ok.1 hread, rfl⟩
    have hnamed : ∀ q ∈ requests, q.user ≠ "" := fun q hq =>
      Store.user_of_deletionRequestsFor hlisted q hq ▸ huser
    obtain ⟨_, t, ht⟩ := (applyTombstones_willing hfree hnamed).answer s
    exact ⟨t, (bind_answer hlisted).trans ht⟩

theorem fetchPending_answers (huser : user ≠ "") (hs : s.Legible) :
    ((do
      transaction (applyDeletions w user device)
      Store.pendingEntries w.refusals user device w.config.queryReadLimit :
        Step Store (List Entry)) s).1.answered = true := by
  obtain ⟨t, ht⟩ := applyDeletions_answers hfree huser hs
  rw [bind_answer (transaction_eq_answer.2 ht)]
  exact Store.look_willing hfree _ _ t

theorem query_answers (hw : w.Noting) (hopen : r.admits user device) (hs : r.store.Legible)
    (reason : Option String) (client : Client) :
    (query w user device reason client r).1.answered = true := by
  have huser : user ≠ "" := by
    simp only [admits, Bool.and_eq_true, decide_eq_true_eq] at hopen
    exact hopen.2.1
  have hread : (readPending w user device reason client r).1.answered = true := by
    rw [readPending, (ids_locked _ r).1, hopen, Bool.true_and]
    split
    · exact fetchPending_answers hfree huser hs
    · -- the note comes before the tombstones are read and does not touch them
      obtain ⟨_, s, hnote⟩ := (noteUsage_willing hw user device client 0 true).answer r.store
      have hbesides := noteUsage_besides w user device client 0 true r.store
      rw [hnote] at hbesides
      have hsame : s.deletionRequests = r.store.deletionRequests :=
        congrArg (·.deletionRequests) hbesides
      rw [bind_answer hnote]
      refine fetchPending_answers hfree huser fun row hrow => hs row ?_
      rwa [← hsame]
  cases hfound : readPending w user device reason client r with
  | mk o r₁ =>
    rw [hfound] at hread
    obtain ⟨es, rfl⟩ := Outcome.answered_iff.1 hread
    have hids := (requireId_bind_eq_answer.1 (requireId_bind_eq_answer.1 hfound).2).2
    obtain ⟨-, hfree₁, -⟩ := locked_eq_answer.1 hids
    obtain ⟨hcounted, -⟩ := Traffic.countRead_free hfree user device hfree₁
    rw [query, bind_answer hfound]
    split
    · refine (map_answered (fun _ => es) _ r₁).1.trans ?_
      rwa [rescue_of_answered hcounted]
    · exact (map_answered (fun _ => es) _ r₁).1.trans hcounted

theorem bootstrap_answers (hw : w.Noting) (hopen : r.admits user device) (client : Client) :
    (bootstrap w user device client r).1.answered = true := by
  have hread : Willing (noteUsage w user device client 0 false >>= fun _ =>
      Store.entriesOfUser w.refusals user) :=
    .bind (noteUsage_willing hw _ _ _ _ _) fun _ => Store.look_willing hfree _ _
  rw [bootstrap, (ids_locked _ r).1, hopen, Bool.true_and]
  exact hread r.store

end Free

end Relay

namespace Turn
variable {t : Turn} {r : Relay}

theorem notes_eq_answered (hw : t.setting.Noting)
    (hfree : t.call.notesFirst → ∀ st, t.setting.refusals st = none) (hs : r.store.Legible) :
    t.notes r = (t.take r).1.answered := by
  obtain ⟨w, call⟩ := t
  cases call with
  | query user device reason client =>
    rw [take, Call.perform, (map_answered _ _ r).1]
    change r.admits user device = _
    cases hopen : r.admits user device with
    | true => exact (Relay.query_answers (hfree rfl) hw hopen hs reason client).symm
    | false =>
      obtain ⟨es, hread, -, -⟩ | ⟨hfails, -⟩ := Relay.query_cases w user device reason client r
      · have hno : (Relay.readPending w user device reason client r).1.answered = false := by
          rw [Relay.readPending, (Relay.ids_locked _ r).1, hopen, Bool.false_and]
        rw [hread] at hno
        cases hno
      · exact hfails.symm
  | bootstrap user device client =>
    rw [take, Call.perform, (map_answered _ _ r).1]
    change r.admits user device = _
    cases hopen : r.admits user device with
    | true => exact (Relay.bootstrap_answers (hfree rfl) hw hopen client).symm
    | false => rw [Relay.bootstrap, (Relay.ids_locked _ r).1, hopen, Bool.false_and]
  | _ => rfl

/-- Usage is tracked and can be noted, and a call that notes itself first is refused nothing. That
excludes rows which cannot be read back, too: a select that meets a count past 32 bits fails, and a
refusal of it is all that stands for this failure here. -/
structure Tracked (t : Turn) : Prop where
  tracks : t.setting.config.trackUsage = true
  noting : t.setting.Noting
  free : t.call.notesFirst → ∀ st, t.setting.refusals st = none

theorem Tracked.note?_eq_event? (h : t.Tracked) (hs : r.store.Legible) :
    t.note? r = t.event? r := by
  have hnotes : t.notes r = (t.take r).1.answered := notes_eq_answered h.noting h.free hs
  simp only [note?, event?, h.tracks, h.noting, hnotes, true_and]

end Turn

namespace Relay

theorem gather_notes {turns : List Turn} (h : ∀ t ∈ turns, t.Tracked) :
    gather Turn.note? {} turns = events {} turns := by
  induction turns using List.reverseRecOn with
  | nil => rfl
  | append_singleton turns t ih =>
    have ht : t.Tracked := h t (List.mem_append_right turns List.mem_cons_self)
    have hbefore := ih fun u hu => h u (List.mem_append_left [t] hu)
    rw [events, gather_concat, gather_concat, hbefore, ht.note?_eq_event? (legible_run turns)]

/-- After any run a device has a row exactly if it had an event, and the row tells its events: all
that were noted, whatever the settings, and where every turn is tracked these are the calls that
have answered. A call that is no event leaves the ledger alone, on any relay: so do listing,
uninstalling, sweeping and deep cleaning. -/
theorem usage_is_fold_of_events :
    (∀ turns user device, Usage.Accounts (run {} turns).store.usage user device
      ((gather Turn.note? {} turns).filter (·.isOf user device))) ∧
    (∀ turns, (∀ t ∈ turns, t.Tracked) → ∀ user device,
      Usage.Accounts (run {} turns).store.usage user device
        ((events {} turns).filter (·.isOf user device))) ∧
    ∀ (t : Turn) (r : Relay), t.call.event? t.setting.clock = none →
      (t.take r).2.store.usage = r.store.usage := by
  refine ⟨accounts_notes, fun turns h user device => ?_, fun t r h => Turn.usage_of_eventless h r⟩
  rw [← gather_notes h]
  exact accounts_notes turns user device

/-- A device registers, asks once by itself and once for its user, and submits under a clock that
has gone back, without a version. Then it is uninstalled and everything is cleaned. -/
theorem usage_is_fold_of_events_for_desk :
    let later : Timestamp := ⟨100, 0, by decide, by decide, by decide, by decide⟩
    let w : Setting := { (default : Setting) with clock := later }
    let e : Entry := ⟨[1], [2], "desk", "ada", default, "e", 0, false⟩
    let turns : List Turn := [⟨w, .register ⟨"ada", "desk", false⟩ ⟨"2.0", "home"⟩⟩,
      ⟨w, .query "ada" "desk" none .unknown⟩, ⟨default, .submit [e, e] (some "") ⟨"", "away"⟩⟩,
      ⟨w, .query "ada" "desk" (some "preload") ⟨"3.0", "home"⟩⟩, ⟨w, .uninstall "ada" "desk"⟩,
      ⟨w, .sweep⟩, ⟨w, .deepClean later⟩]
    (∀ t ∈ turns, t.Tracked) ∧ ∃ u ∈ (run {} turns).store.usage,
      u.key = ("ada", "desk") ∧ u.lastUsed = ⟨0, by decide, by decide⟩ ∧ u.lastIp = "away" ∧
        u.entriesHandled = .whole 2 ∧ u.queries = 1 ∧
        u.lastQueried = later.toInstant? ∧ u.version = "2.0" := by
  intro later w e turns
  have htracked : ∀ t ∈ turns, t.Tracked := by
    have hsettings : ∀ t ∈ turns, t.setting = w ∨ t.setting = default := by simp [turns]
    intro t ht
    obtain h | h := hsettings t ht
    · exact ⟨by rw [h]; rfl, by rw [h]; decide, fun _ _ => by rw [h]; rfl⟩
    · exact ⟨by rw [h]; rfl, by rw [h]; decide, fun _ _ => by rw [h]; rfl⟩
  have hevents : (events {} turns).filter (·.isOf "ada" "desk") =
      [⟨"ada", "desk", later, "home", "2.0", 0, false⟩,
        ⟨"ada", "desk", later, Client.unknownIp, "", 0, true⟩,
        ⟨"ada", "desk", default, "away", "", 2, false⟩] := by cbv
  obtain ⟨-, hfold, -⟩ := usage_is_fold_of_events
  have haccount := hfold turns htracked "ada" "desk"
  rw [hevents] at haccount
  obtain ⟨u, hu, hkey⟩ := haccount.known.2 (by simp)
  have htells := haccount.tells u hu hkey
  refine ⟨htracked, u, hu, hkey, ?_, ?_, htells.entriesHandled (by decide), htells.queries,
    htells.lastQueried, htells.version⟩
  · exact (Option.some.inj htells.lastUsed).symm
  · exact (Option.some.inj htells.lastIp).symm

end Relay

end HistoryRelay
