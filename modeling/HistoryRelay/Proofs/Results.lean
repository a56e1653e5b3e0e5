import HistoryRelay.Proofs.Cleaning
import HistoryRelay.Proofs.Failure
import HistoryRelay.Proofs.FanOut

/-! Calls that write, by what their work leaves and answers. Main statement: such a call leaves the
store as it was, or as its work makes it, and then answers what the work does or fails over the
note alone. -/
namespace HistoryRelay
open Step

/-- Usage can be noted: the clock is not before 1970 and can be stored, and the store takes the
row. -/
structure Setting.Noting (w : Setting) : Prop where
  readable : 0 ≤ w.clock.seconds
  storable : w.clock.toInstant?.isSome
  granted : w.refusals (.insert .usage []) = none

instance (w : Setting) : Decidable w.Noting :=
  decidable_of_iff (0 ≤ w.clock.seconds ∧ w.clock.toInstant?.isSome = true ∧
    w.refusals (.insert .usage []) = none)
    ⟨fun h => ⟨h.1, h.2.1, h.2.2⟩, fun h => ⟨h.readable, h.storable, h.granted⟩⟩

theorem Step.rescue_of_answered {σ α : Type} {a : Step σ α} {s : σ}
    (h : (a s).1.answered = true) (after : RelayError → Step σ α) : rescue a after s = a s := by
  unfold rescue
  cases ha : a s with
  | mk o t => cases o <;> first | rfl | simp [ha, Outcome.answered] at h

theorem Step.Willing.rescue {σ α : Type} {a : Step σ α} (h : Willing a)
    (after : RelayError → Step σ α) : Willing (Step.rescue a after) := fun s => by
  rw [rescue_of_answered (h s)]
  exact h s

theorem Relay.noteUsage_willing {w : Setting} (h : w.Noting) (user device : String)
    (client : Client) (n : Nat) (isQuery : Bool) :
    Willing (noteUsage w user device client n isQuery) := by
  unfold noteUsage
  split
  · exact .pure ()
  · have hclock : (readClock w : Step Store Timestamp) = pure w.clock :=
      if_neg (Int.not_lt.2 h.readable)
    obtain ⟨time, htime⟩ := Option.isSome_iff_exists.1 h.storable
    rw [hclock, pure_bind]
    refine .rescue (fun s => ?_) _
    have hrecorded : Store.recordUsage w.refusals
        ⟨user, device, w.clock, client.ip, client.version, n, isQuery⟩ s = (.answer (), _) :=
      Store.recordUsage_eq_answer.2 ⟨time, htime, h.granted, rfl⟩
    rw [hrecorded]
    rfl

theorem Undertaking.bookkeep_willing {w : Setting} (h : w.Noting) (u : Undertaking) :
    Willing (u.bookkeep w) := by
  unfold bookkeep
  cases u.note with
  | none => exact .pure ()
  | some n => exact Relay.noteUsage_willing h _ _ _ _ _

section Calm
variable {σ : Type}

theorem Step.refuse_calm {β : Type} (e : β → RelayError) (o : Option β) :
    Calm (refuse e o : Step σ Unit) := by
  cases o with
  | some b => exact .fail _
  | none => exact .pure ()

theorem Relay.requireId_bind_calm {α : Type} (name value : String) {next : Unit → Step σ α}
    (h : ∀ v, Calm (next v)) : Calm (requireId name value >>= next) := by
  refine .bind_of_answer ?_ fun _ v _ _ => h v
  unfold requireId
  split
  · exact .fail _
  · exact .pure ()

end Calm

namespace Call
open Relay

/-- Calls that write and look at no clock while they do, so that their work does not crash. -/
def isTimeless : Call → Bool
  | .submit .. | .submitDump .. | .dumpRequests .. | .addDeletion _ | .deletionRequests .. => true
  | _ => false

theorem undertaking_calm {w : Setting} {call : Call} {u : Undertaking}
    (h : call.undertaking? w = some u) (ht : call.isTimeless) : Calm u.check ∧ Calm u.body := by
  have hid (name value : String) : Calm (requireId name value : Step Relay Unit) := by
    simpa using requireId_bind_calm (σ := Relay) name value fun v => .pure v
  cases call with
  | submit batch source client =>
    cases batch with
    | nil => cases h
    | cons first rest =>
      cases h
      have hbody : Steady (Leads fun _ => True)
          (distribute w first.user (first :: rest) (source.filter (· ≠ "")) client) :=
        distribute_steady w _ _ _ _ (fun _ _ => trivial) (fun _ _ => trivial) fun _ _ => trivial
      exact ⟨requireId_bind_calm _ _ fun _ => refuse_calm _ _, .map _ hbody.calm⟩
  | submitDump user source requester isChunk dump client =>
    cases h
    have hbody : Steady (Leads fun _ => True) (storeDump w user requester isChunk dump) :=
      storeDump_steady w _ _ _ _ (fun _ _ => trivial) trivial
    exact ⟨requireId_bind_calm _ _ fun _ => requireId_bind_calm _ _ fun _ =>
      requireId_bind_calm _ _ fun _ => refuse_calm _ _, .map _ hbody.calm⟩
  | dumpRequests user device =>
    cases h
    exact ⟨requireId_bind_calm _ _ fun _ => hid _ _,
      .map _ (deliverDumpRequests_steady w user device).calm⟩
  | addDeletion r =>
    cases h
    exact ⟨requireId_bind_calm _ _ fun _ => refuse_calm _ _, .map _ (bury_steady w r).calm⟩
  | deletionRequests user device =>
    cases h
    exact ⟨requireId_bind_calm _ _ fun _ => hid _ _,
      .map _ (deliverDeletionRequests_steady w user device).calm⟩
  | _ => cases ht

end Call

/-- A call that writes does not answer and leaves the store as it was, or its work is done, and then
it answers what the work does if only it can be noted. -/
theorem Turn.work_cases {t : Turn} {u : Undertaking}
    (h : t.call.undertaking? t.setting = some u) (r : Relay) :
    ((t.take r).2.store = r.store ∧ (t.take r).1.answered = false ∧
        (t.call.isTimeless → (t.take r).1.committed = false)) ∨
      ∃ answer s, u.body r.store = (.answer answer, s) ∧
        (t.take r).2.store.besidesUsage = s.besidesUsage ∧
        (t.take r).1.committed = true ∧
        (∀ a, (t.take r).1 = .answer a → a = answer) ∧
        (t.setting.Noting ∨ u.note = none → (t.take r).1 = .answer answer) := by
  obtain ⟨w, call⟩ := t
  have htake : (Turn.mk w call).take r = u.perform w (fun _ => none) r :=
    (congrFun (Relay.perform_of_undertaking h) r).symm
  rw [htake]
  obtain ⟨hstore, hout⟩ | ⟨answer, s, -, hbody, hout, hstore⟩ :=
    Undertaking.work_cases (Relay.undertaking_sound h) w (fun _ => none) r
  · refine .inl ⟨hstore, ?_⟩
    obtain ⟨e, he, hkind⟩ | ⟨hcrash, hparts⟩ := hout
    · rw [he]
      exact ⟨rfl, fun _ => decide_eq_false hkind⟩
    · rw [hcrash]
      refine ⟨rfl, fun ht => ?_⟩
      obtain ⟨hcheck, hbody⟩ := Call.undertaking_calm h ht
      exact (hparts.elim (hcheck r) (hbody r.store)).elim
  · refine .inr ⟨answer, s, hbody, ?_, ?_⟩
    · have hsame := (Undertaking.bookkeep_answer w u answer s).2
      rw [← map_eq] at hsame
      exact hstore ▸ hsame
    · have hwilling : w.Noting ∨ u.note = none → (u.bookkeep w s).1.answered = true := by
        rintro (hw | hnone)
        · exact Undertaking.bookkeep_willing hw u s
        · simp [Undertaking.bookkeep, hnone, pure_apply, Outcome.answered]
      rw [hout]
      cases hnote : u.bookkeep w s with
      | mk o t =>
        rw [hnote] at hwilling
        cases o with
        | answer v =>
          rw [map_eq_answer.2 ⟨v, hnote, rfl⟩]
          exact ⟨rfl, fun a ha => (Outcome.answer.inj ha).symm, fun _ => rfl⟩
        | failure e =>
          rw [map_eq_failure.2 hnote]
          refine ⟨decide_eq_true (Undertaking.bookkeep_failure hnote).2.1, fun _ ha => ?_,
            fun hw => ?_⟩
          · cases ha
          · cases hwilling hw
        | crash =>
          rw [map_eq, bind_crash hnote]
          refine ⟨rfl, fun _ ha => ?_, fun hw => ?_⟩
          · cases ha
          · cases hwilling hw

theorem Turn.take_of_body {t : Turn} {u : Undertaking} {r : Relay} {answer : Answer} {s : Store}
    (h : t.call.undertaking? t.setting = some u) (hw : t.setting.Noting)
    (hfree : r.poisoned = false) (hcheck : u.check r = (.answer (), r))
    (hbody : u.body r.store = (.answer answer, s)) :
    (t.take r).1 = .answer answer ∧ (t.take r).2.store.besidesUsage = s.besidesUsage := by
  have hwhole : broken (fun _ => none) u.body r.store = (.answer answer, s) := hbody
  have hanswered : (t.take r).1.answered = true := by
    rw [take, ← Relay.perform_of_undertaking h,
      (Undertaking.perform_of_body hcheck hfree hwhole _).1]
    exact Undertaking.bookkeep_willing hw u s
  obtain ⟨-, hno, -⟩ | ⟨_, _, hwork, hstore, -, -, hout⟩ := work_cases h r
  · rw [hanswered] at hno
    cases hno
  · obtain ⟨hanswer, rfl⟩ := Prod.mk.inj (hbody.symm.trans hwork)
    obtain rfl := Outcome.answer.inj hanswer
    exact ⟨hout (.inl hw), hstore⟩

theorem Turn.answered_of_committed {t : Turn} {r : Relay} (ht : t.call.isTimeless)
    (hw : t.setting.Noting) (h : (t.take r).1.committed = true) : (t.take r).1.answered = true := by
  obtain ⟨w, call⟩ := t
  cases hu : call.undertaking? w with
  | none =>
    cases call with
    | submit batch source client =>
      cases batch with
      | nil => rfl
      | cons first rest => cases hu
    | submitDump | dumpRequests | addDeletion | deletionRequests => cases hu
    | _ => cases ht
  | some u =>
    obtain ⟨-, -, hno⟩ | ⟨answer, s, -, -, -, -, hout⟩ := work_cases (t := ⟨w, call⟩) hu r
    · exact absurd h (ne_true_of_eq_false (hno ht))
    · exact congrArg Outcome.answered (hout (.inl hw))

section Tombstones

def DeletionRequests.copies (row : DeletionRow) (last : Nat) : List String → List DeletionRow
  | [] => []
  | device :: rest =>
    { row with id := last + 1, destination := device } :: copies row (last + 1) rest

namespace DeletionRequests
variable {row : DeletionRow} {last : Nat} {devices : List String}

theorem destinations_copies : (copies row last devices).map (·.destination) = devices := by
  induction devices generalizing last with
  | nil => rfl
  | cons device rest ih => rw [copies, List.map_cons, ih]

theorem mem_copies {x : DeletionRow} (h : x ∈ copies row last devices) :
    last < x.id ∧ x.destination ∈ devices ∧
      x = { row with id := x.id, destination := x.destination } := by
  induction devices generalizing last with
  | nil => cases h
  | cons device rest ih =>
    obtain rfl | h := List.mem_cons.1 h
    · exact ⟨Nat.lt_succ_self last, List.mem_cons_self, rfl⟩
    · obtain ⟨hlt, hin, he⟩ := ih h
      exact ⟨Nat.lt_of_succ_lt hlt, List.mem_cons_of_mem device hin, he⟩

end DeletionRequests

theorem Store.insertTombstones_eq {refusals : Refusals} {row : DeletionRow}
    {devices : List String} {n : Nat} {s t : Store}
    (h : insertTombstones refusals row devices s = (.answer n, t)) :
    t = { s with
      deletionRequests :=
        s.deletionRequests ++ DeletionRequests.copies row s.lastDeletion devices
      lastDeletion := s.lastDeletion + devices.length } := by
  induction devices generalizing s t n with
  | nil =>
    obtain ⟨-, rfl⟩ := pure_eq_answer.1 h
    simp [DeletionRequests.copies]
  | cons device rest ih =>
    obtain ⟨_, s₁, hp, h⟩ := bind_eq_answer.1 h
    obtain ⟨_, s₂, hu, h⟩ := bind_eq_answer.1 h
    obtain ⟨k, s₃, hrest, h⟩ := bind_eq_answer.1 h
    rw [← (pure_eq_answer.1 h).2, ih hrest, update_eq_answer.1 hu, (permit_eq_answer.1 hp).2]
    simp [DeletionRequests.copies, Nat.add_assoc, Nat.add_comm 1]

end Tombstones

section Dumps

/-- The rows that a dump brings: a copy of each entry for the device that asked for it. -/
def Entries.received (requester : String) (dump : List Entry) : List EntryRow :=
  dump.filterMap fun e => e.time.toInstant?.map fun date => EntryRow.copy e date requester false

namespace Entries
variable {requester : String} {dump : List Entry}

theorem received_eq_zip {dates : List Instant}
    (h : dump.map (·.time.toInstant?) = dates.map some) :
    received requester dump =
      (dump.zip dates).map fun (e, date) => EntryRow.copy e date requester false := by
  induction dump generalizing dates with
  | nil => rfl
  | cons e rest ih =>
    cases dates with
    | nil => simp at h
    | cons date more =>
      obtain ⟨hdate, hrest⟩ := List.cons.inj h
      have htime : e.time.toInstant? = some date := hdate
      rw [received, List.filterMap_cons, htime, List.zip_cons_cons, List.map_cons, ← ih hrest]
      rfl

theorem received_append (more : List Entry) :
    received requester (dump ++ more) = received requester dump ++ received requester more :=
  List.filterMap_append

theorem readCount_received {row : EntryRow} (h : row ∈ received requester dump) :
    row.readCount = 0 := by
  obtain ⟨e, -, he⟩ := List.mem_filterMap.1 h
  obtain ⟨date, -, rfl⟩ := Option.map_eq_some_iff.1 he
  rfl

end Entries

theorem Store.insertRuns_counts {refusals : Refusals} {runs : List (List EntryRow)} {n : Nat}
    {s t : Store} (h : insertRuns refusals runs s = (.answer n, t)) : n = runs.flatten.length := by
  induction runs generalizing s t n with
  | nil => exact (pure_eq_answer.1 h).1.symm
  | cons run rest ih =>
    obtain ⟨_, s₁, -, h⟩ := bind_eq_answer.1 h
    obtain ⟨_, s₂, -, h⟩ := bind_eq_answer.1 h
    obtain ⟨_, s₃, -, h⟩ := bind_eq_answer.1 h
    obtain ⟨m, s₄, hrest, h⟩ := bind_eq_answer.1 h
    rw [← (pure_eq_answer.1 h).1, ih hrest, List.flatten_cons, List.length_append]

theorem Store.insertAsIs_answer {refusals : Refusals} {entries : List Entry} {chunk n : Nat}
    {s t : Store} (h : insertAsIs refusals entries chunk s = (.answer n, t)) :
    ∃ dates, entries.map (·.time.toInstant?) = dates.map some ∧ n = entries.length ∧
      t = (Change.addEntries ((entries.zip dates).map fun (e, date) =>
        EntryRow.copy e date e.device false)).apply s := by
  obtain ⟨dates, s₁, hdates, hruns⟩ := bind_eq_answer.1 h
  obtain ⟨htimes, rfl⟩ := Store.storedTimes_eq_answer.1 hdates
  have hn := Store.insertRuns_counts hruns
  have ht := Store.insertRuns_answer hruns
  rw [Entries.flatten_runs] at hn ht
  have hlength := congrArg List.length htimes
  simp only [List.length_map] at hlength
  refine ⟨dates, by simpa [Function.comp_def] using htimes, ?_, ht⟩
  rw [hn, List.length_map, List.length_zip, hlength, min_self]

end Dumps

/-- Whose pending requests the reply to a submit lists: those of a source that is named, if the
client understands them. -/
def Call.informs? : Call → Option (String × String)
  | .submit (first :: _) source client =>
    if client.wantsRequests then (source.filter (· ≠ "")).map (first.user, ·) else none
  | _ => none

/-- What the reply to a submit lists, each request as it is before this delivery counts. -/
def SubmitReply.Tells (s : Store) (reply : SubmitReply) : Option (String × String) → Prop
  | none => reply = .bare
  | some (user, device) =>
    reply.dumpRequests =
        some ((s.dumpRequests.filter (·.isForPeer user device)).map DumpRow.toRequest) ∧
      ∃ rs, reply.deletionRequests = some rs ∧
        List.Forall₂ (fun row r => row.toRequest = .ok r)
          (s.deletionRequests.filter (·.isFor user device)) rs

def Store.told (s : Store) : Option (String × String) → Store
  | none => s
  | some (user, device) =>
    (Change.bumpTombstones user device).apply ((Change.bumpDumps user device).apply s)

namespace Relay
variable {w : Setting} {s t : Store}

theorem readClock_eq_answer {σ : Type} {time : Timestamp} {s t : σ} :
    readClock w s = (.answer time, t) ↔ 0 ≤ w.clock.seconds ∧ time = w.clock ∧ t = s := by
  unfold readClock
  split
  · rename_i hearly
    simp [crash, Int.not_le.2 hearly]
  · rename_i hlate
    simp [pure_apply, Int.not_lt.1 hlate, eq_comm]

theorem enroll_answer {r : Registration} {client : Client} {reply : RegistrationReply}
    (h : enroll w r client s = (.answer reply, t)) :
    let existing := Devices.otherActive r.user r.device s.devices
    reply = ⟨existing, 0 < existing⟩ ∧ 0 ≤ w.clock.seconds ∧ ∃ time,
      w.clock.toInstant? = some time ∧
      t = if 0 < existing then (Change.addDump ⟨0, r.user, r.device, time, 0⟩).apply
          ((Change.register ⟨r.user, r.device, client.ip, time, r.isTestDevice, none⟩).apply s)
        else
          (Change.register ⟨r.user, r.device, client.ip, time, r.isTestDevice, none⟩).apply s := by
  obtain ⟨_, s₁, hcap, h⟩ := bind_eq_answer.1 h
  obtain ⟨now, s₂, hnow, h⟩ := bind_eq_answer.1 h
  obtain ⟨existing, s₃, hexisting, h⟩ := bind_eq_answer.1 h
  obtain ⟨_, s₄, hupsert, h⟩ := bind_eq_answer.1 h
  have hlooks := (enforceCap_looks w r.user).moves s
  rw [hcap] at hlooks
  obtain rfl : s = s₁ := hlooks
  obtain ⟨hclock, rfl, rfl⟩ := readClock_eq_answer.1 hnow
  obtain ⟨-, rfl, rfl⟩ := Store.otherActiveDevices_eq_answer.1 hexisting
  obtain ⟨time, htime, -, rfl⟩ := Store.upsertDevice_eq_answer.1 hupsert
  clear hcap hnow hexisting hupsert
  intro existing
  split at h
  · rename_i hpeers
    obtain ⟨_, s₅, hcreate, h⟩ := bind_eq_answer.1 h
    obtain ⟨rfl, rfl⟩ := pure_eq_answer.1 h
    obtain ⟨time', htime', -, rfl⟩ := Store.createDumpRequest_eq_answer.1 hcreate
    obtain rfl := Option.some.inj (htime.symm.trans htime')
    exact ⟨rfl, hclock, time, htime, (if_pos hpeers).symm⟩
  · rename_i hpeers
    obtain ⟨rfl, rfl⟩ := pure_eq_answer.1 h
    exact ⟨rfl, hclock, time, htime, (if_neg hpeers).symm⟩

theorem pendingRequests_answer {user source : String} {reply : SubmitReply}
    (h : pendingRequests w user source s = (.answer reply, t)) :
    reply.Tells s (some (user, source)) ∧ t = s.told (some (user, source)) := by
  obtain ⟨dumps, s₁, hdumps, h⟩ := bind_eq_answer.1 h
  obtain ⟨_, s₂, hbump, h⟩ := bind_eq_answer.1 h
  obtain ⟨deletions, s₃, hdeletions, h⟩ := bind_eq_answer.1 h
  obtain ⟨_, s₄, hbump', h⟩ := bind_eq_answer.1 h
  obtain ⟨rfl, rfl⟩ := pure_eq_answer.1 h
  obtain ⟨-, rfl, rfl⟩ := Store.dumpRequestsForPeer_eq_answer.1 hdumps
  obtain ⟨-, -, rfl⟩ := Store.bumpDumpRequests_eq_answer.1 hbump
  obtain ⟨-, hrows, rfl⟩ := Store.deletionRequestsFor_eq_answer.1 hdeletions
  obtain ⟨-, -, rfl⟩ := Store.bumpDeletionRequests_eq_answer.1 hbump'
  exact ⟨⟨rfl, deletions, rfl, hrows⟩, rfl⟩

theorem distribute_reply {user : String} {batch : List Entry} {source : Option String}
    {client : Client} {reply : SubmitReply}
    (h : distribute w user batch source client s = (.answer reply, t)) :
    let informed := if client.wantsRequests then source.map (user, ·) else none
    reply.Tells s informed ∧ ∃ rows : List EntryRow, (∀ row ∈ rows, row.readCount = 0) ∧
      t = ((Change.addEntries rows).apply s).told informed := by
  obtain ⟨active, s₁, hactive, h⟩ := bind_eq_answer.1 h
  obtain ⟨-, rfl, rfl⟩ := Store.activeDevices_eq_answer.1 hactive
  split at h
  · exact absurd h fail_ne_answer
  · obtain ⟨n, s₂, hinsert, h⟩ := bind_eq_answer.1 h
    obtain ⟨dates, -, rfl⟩ := Store.insertForDevices_answer hinsert
    suffices hlist : reply.Tells s₁ (if client.wantsRequests then source.map (user, ·) else none) ∧
        t = ((Change.addEntries (Entries.fanOut (batch.zip dates) source
          ((Devices.activeOf user s₁.devices).map (·.device)))).apply s₁).told
            (if client.wantsRequests then source.map (user, ·) else none) by
      refine ⟨hlist.1, _, fun row hrow => ?_, hlist.2⟩
      obtain ⟨device, -, hcopy⟩ := List.mem_flatMap.1 hrow
      obtain ⟨⟨e, date⟩, -, rfl⟩ := List.mem_map.1 hcopy
      rfl
    cases source with
    | none =>
      obtain ⟨rfl, rfl⟩ := pure_eq_answer.1 h
      simp [SubmitReply.Tells, Store.told]
    | some source =>
      dsimp only at h
      split at h
      · rename_i hwants
        obtain ⟨htells, rfl⟩ := pendingRequests_answer h
        rw [if_pos hwants]
        exact ⟨htells, rfl⟩
      · rename_i hwants
        obtain ⟨rfl, rfl⟩ := pure_eq_answer.1 h
        rw [if_neg hwants]
        exact ⟨rfl, rfl⟩

theorem storeDump_answer {user requester : String} {isChunk : Bool} {dump : List Entry} {n : Nat}
    (h : storeDump w user requester isChunk dump s = (.answer n, t)) : n = dump.length ∧
      t = if isChunk then (Change.addEntries (Entries.received requester dump)).apply s
        else (Change.dropDumps (·.isBy user requester)).apply
          ((Change.addEntries (Entries.received requester dump)).apply s) := by
  obtain ⟨_, s₁, hinsert, h⟩ := bind_eq_answer.1 h
  obtain ⟨dates, hdates, rfl, rfl⟩ := Store.insertAsIs_answer hinsert
  have hrows : ((dump.map fun e => { e with device := requester }).zip dates).map
      (fun (e, date) => EntryRow.copy e date e.device false) = Entries.received requester dump := by
    rw [Entries.received_eq_zip (by simpa [Function.comp_def] using hdates), List.zip_map_left,
      List.map_map]
    rfl
  rw [hrows] at h
  rw [List.length_map] at h
  cases isChunk with
  | true =>
    obtain ⟨rfl, rfl⟩ := pure_eq_answer.1 h
    exact ⟨rfl, rfl⟩
  | false =>
    obtain ⟨_, s₂, hdelete, h⟩ := bind_eq_answer.1 h
    obtain ⟨-, -, rfl⟩ := Store.deleteDumpRequests_eq_answer.1 hdelete
    obtain ⟨rfl, rfl⟩ := pure_eq_answer.1 h
    exact ⟨rfl, rfl⟩

theorem deliverDumpRequests_answer {user device : String} {rs : List DumpRequest}
    (h : deliverDumpRequests w user device s = (.answer rs, t)) :
    rs = (s.dumpRequests.filter (·.isForPeer user device)).map DumpRow.toRequest ∧
      t = (Change.bumpDumps user device).apply s := by
  obtain ⟨_, s₁, hlist, h⟩ := bind_eq_answer.1 h
  obtain ⟨_, s₂, hbump, h⟩ := bind_eq_answer.1 h
  obtain ⟨rfl, rfl⟩ := pure_eq_answer.1 h
  obtain ⟨-, rfl, rfl⟩ := Store.dumpRequestsForPeer_eq_answer.1 hlist
  obtain ⟨-, -, rfl⟩ := Store.bumpDumpRequests_eq_answer.1 hbump
  exact ⟨rfl, rfl⟩

theorem deliverDeletionRequests_answer {user device : String} {rs : List DeletionRequest}
    (h : deliverDeletionRequests w user device s = (.answer rs, t)) :
    t = (Change.bumpTombstones user device).apply s ∧
      List.Forall₂ (fun row r => row.toRequest = .ok r)
        (t.deletionRequests.filter (·.isFor user device)) rs := by
  obtain ⟨_, s₁, hbump, h⟩ := bind_eq_answer.1 h
  obtain ⟨-, -, rfl⟩ := Store.bumpDeletionRequests_eq_answer.1 hbump
  obtain ⟨-, hrows, rfl⟩ := Store.deletionRequestsFor_eq_answer.1 h
  exact ⟨rfl, hrows⟩

theorem bury_of_addDeletionRequest {req : DeletionRequest} {n : Nat} {r r' : Relay}
    (h : addDeletionRequest w req r = (.answer n, r')) :
    bury w req r.store = (.answer n, r'.store) := by
  unfold addDeletionRequest at h
  obtain ⟨-, h⟩ := requireId_bind_eq_answer.1 h
  cases hfind : req.messages.find? fun m => m.device ≠ "" && !m.isMatchable with
  | some m =>
    rw [hfind] at h
    exact absurd h fail_ne_answer
  | none =>
    rw [hfind] at h
    obtain ⟨-, -, h⟩ := locked_eq_answer.1 h
    exact transaction_eq_answer.1 h

theorem bury_answer {r : DeletionRequest} {n : Nat} (h : bury w r s = (.answer n, t)) :
    let devices := (Devices.activeOf r.user s.devices).map (·.device)
    ∃ sent, r.sendTime.toInstant? = some sent ∧
      t.deletionRequests = s.deletionRequests ++ DeletionRequests.copies
        ⟨0, r.user, "", sent, 0, Message.listToJson r.messages⟩ s.lastDeletion devices ∧
      t.lastDeletion = s.lastDeletion + devices.length := by
  obtain ⟨active, s₁, hactive, h⟩ := bind_eq_answer.1 h
  obtain ⟨-, rfl, rfl⟩ := Store.activeDevices_eq_answer.1 hactive
  split at h
  · exact absurd h fail_ne_answer
  · obtain ⟨k, s₂, hcreate, hdelete⟩ := bind_eq_answer.1 h
    obtain ⟨sent, s₃, hsent, hinsert⟩ := bind_eq_answer.1 hcreate
    obtain ⟨htime, rfl⟩ := Store.storedTime_eq_answer.1 hsent
    have hsteady : Steady (Leads fun c => ∃ which, c = .dropEntries which)
        (Store.deleteMatching w.refusals r.user r.messages) :=
      Store.deleteMatching_steady _ _ _ fun m _ => ⟨_, rfl⟩
    have hmoves := hsteady.moves s₂
    rw [hdelete] at hmoves
    have hsame := hmoves.frame (fun s => (s.deletionRequests, s.lastDeletion)) fun c s hc => by
      obtain ⟨which, rfl⟩ := hc
      rfl
    rw [Store.insertTombstones_eq hinsert] at hsame
    exact ⟨sent, htime, Prod.mk.inj hsame⟩

theorem withdraw_answer {user device : String} {n : Nat}
    (h : withdraw w user device s = (.answer n, t)) :
    n = s.entries.countP (·.isFor user device) +
        s.deletionRequests.countP (·.isFor user device) +
        s.dumpRequests.countP (·.isBy user device) ∧
      ∃ date, w.clock.toInstant? = some date ∧
        t = (Change.uninstall user device date).apply
          ((Change.dropDumps (·.isBy user device)).apply
            ((Change.dropTombstones (·.isFor user device)).apply
              ((Change.dropEntries (·.isFor user device)).apply s))) := by
  obtain ⟨_, s₁, hentries, h⟩ := bind_eq_answer.1 h
  obtain ⟨_, s₂, htombstones, h⟩ := bind_eq_answer.1 h
  obtain ⟨_, s₃, hdumps, h⟩ := bind_eq_answer.1 h
  obtain ⟨now, s₄, hnow, h⟩ := bind_eq_answer.1 h
  obtain ⟨_, s₅, hmark, h⟩ := bind_eq_answer.1 h
  obtain ⟨rfl, rfl⟩ := pure_eq_answer.1 h
  obtain ⟨-, rfl, rfl⟩ := Store.deleteEntries_eq_answer.1 hentries
  obtain ⟨-, rfl, rfl⟩ := Store.deleteDeletionRequests_eq_answer.1 htombstones
  obtain ⟨-, rfl, rfl⟩ := Store.deleteDumpRequests_eq_answer.1 hdumps
  obtain ⟨-, rfl, rfl⟩ := readClock_eq_answer.1 hnow
  obtain ⟨date, _, hdate, hmark⟩ := bind_eq_answer.1 hmark
  obtain ⟨hstored, rfl⟩ := Store.storedTime_eq_answer.1 hdate
  obtain ⟨-, -, rfl⟩ := Store.change_at_eq_answer (c := .uninstall user device date).1 hmark
  exact ⟨rfl, date, hstored, rfl⟩

end Relay

/-- A submit leaves the store as it was and tells nobody of anything, or it adds unread entries and
counts what it tells. -/
theorem Turn.submit_cases (w : Setting) (batch : List Entry) (source : Option String)
    (client : Client) (r : Relay) :
    let t : Turn := ⟨w, .submit batch source client⟩
    ((t.take r).2.store = r.store ∧
        (t.call.informs? = none ∨ (t.take r).1.committed = false)) ∨
      ∃ rows : List EntryRow, (∀ row ∈ rows, row.readCount = 0) ∧
        (t.take r).2.store.besidesUsage =
          (((Change.addEntries rows).apply r.store).told t.call.informs?).besidesUsage ∧
        (t.take r).1.committed = true := by
  cases batch with
  | nil => exact .inl ⟨rfl, .inl rfl⟩
  | cons first rest =>
    obtain ⟨hs, -, hno⟩ | ⟨answer, s, hbody, hs, hdone, -⟩ :=
      work_cases (t := ⟨w, .submit (first :: rest) source client⟩) rfl r
    · exact .inl ⟨hs, .inr (hno rfl)⟩
    · obtain ⟨reply, hbody, -⟩ := map_eq_answer.1 hbody
      obtain ⟨-, rows, hrows, rfl⟩ := Relay.distribute_reply hbody
      exact .inr ⟨rows, hrows, hs, hdone⟩

section Replies
variable {w : Setting} {r : Relay}

theorem Call.informs?_eq_some {call : Call} {user device : String} :
    call.informs? = some (user, device) ↔ ∃ first rest client,
      call = .submit (first :: rest) (some device) client ∧ first.user = user ∧ device ≠ "" ∧
        client.wantsRequests = true := by
  constructor
  · intro h
    cases call with
    | submit batch source client =>
      cases batch with
      | nil => cases h
      | cons first rest =>
        simp only [informs?, Option.ite_none_right_eq_some, Option.map_eq_some_iff,
          Option.filter_eq_some_iff, decide_eq_true_eq, Prod.mk.injEq] at h
        obtain ⟨hwants, d, ⟨rfl, hd⟩, rfl, rfl⟩ := h
        exact ⟨first, rest, client, rfl, rfl, hd, hwants⟩
    | _ => cases h
  · rintro ⟨first, rest, client, rfl, rfl, hd, hwants⟩
    simp [informs?, hwants, hd]

theorem Relay.submit_tells {batch : List Entry} {source : Option String} {client : Client}
    {reply : SubmitReply} (h : (submit w batch source client r).1 = .answer reply) :
    reply.Tells r.store (Call.submit batch source client).informs? := by
  cases batch with
  | nil =>
    obtain rfl : SubmitReply.bare = reply := Outcome.answer.inj h
    rfl
  | cons first rest =>
    have htake : ((Turn.mk w (.submit (first :: rest) source client)).take r).1 =
        .answer (.submitted reply) :=
      (map_fst_eq_answer fun _ _ => Answer.submitted.inj).2 h
    obtain ⟨-, hno, -⟩ | ⟨answer, s, hbody, -, -, hanswer, -⟩ :=
      Turn.work_cases (t := ⟨w, .submit (first :: rest) source client⟩) rfl r
    · rw [htake] at hno
      cases hno
    · obtain ⟨reply', hbody, he⟩ := map_eq_answer.1 hbody
      obtain rfl := Answer.submitted.inj (he.trans (hanswer _ htake).symm)
      exact (distribute_reply hbody).1

theorem Relay.submit_informs {batch : List Entry} {source : Option String} {client : Client}
    {reply : SubmitReply} (h : (submit w batch source client r).1 = .answer reply)
    (hne : reply ≠ .bare) : ∃ first rest device, batch = first :: rest ∧ source = some device ∧
      (Call.submit batch source client).informs? = some (first.user, device) ∧
        reply.Tells r.store (some (first.user, device)) := by
  have htells := submit_tells h
  cases hinforms : (Call.submit batch source client).informs? with
  | none =>
    rw [hinforms] at htells
    exact absurd htells hne
  | some p =>
    obtain ⟨user, device⟩ := p
    rw [hinforms] at htells
    obtain ⟨first, rest, _, hcall, rfl, -⟩ := Call.informs?_eq_some.1 hinforms
    cases hcall
    exact ⟨first, rest, device, rfl, rfl, rfl, htells⟩

theorem Outcome.answered_iff {α : Type} {o : Outcome α} :
    o.answered = true ↔ ∃ v, o = .answer v := by
  cases o <;> simp [answered]

/-- Where usage can be noted, the work of a call is done exactly if it answers. -/
theorem Turn.committed_iff {call : Call} (ht : call.isTimeless) (hw : w.Noting) {α : Type}
    {f : α → Answer} {a : Step Relay α} (hf : call.perform w = f <$> a) :
    ((Turn.mk w call).take r).1.committed = true ↔ ∃ v, (a r).1 = .answer v := by
  have htake : (Turn.mk w call).take r = (f <$> a) r := congrFun hf r
  rw [← Outcome.answered_iff, ← (map_answered f a r).1, ← htake]
  refine ⟨answered_of_committed ht hw, fun h => ?_⟩
  obtain ⟨v, hv⟩ := Outcome.answered_iff.1 h
  rw [hv]
  rfl

/-- A turn has informed a device by its reply exactly if it is a submit from that device that has
answered with more than the bare acknowledgement. -/
theorem Turn.informed_iff {t : Turn} (hw : t.setting.Noting) {user device : String} :
    (t.call.informs? = some (user, device) ∧ (t.take r).1.committed = true) ↔
      ∃ first rest client reply, t.call = .submit (first :: rest) (some device) client ∧
        first.user = user ∧
        (Relay.submit t.setting (first :: rest) (some device) client r).1 = .answer reply ∧
          reply ≠ .bare := by
  obtain ⟨w, call⟩ := t
  constructor
  · rintro ⟨hinforms, hdone⟩
    obtain ⟨first, rest, client, rfl, rfl, -⟩ := Call.informs?_eq_some.1 hinforms
    obtain ⟨reply, hout⟩ := (committed_iff rfl hw rfl).1 hdone
    have htells := Relay.submit_tells hout
    dsimp only at hinforms
    rw [hinforms] at htells
    refine ⟨first, rest, client, reply, rfl, rfl, hout, fun hbare => ?_⟩
    rw [hbare] at htells
    cases htells.1
  · rintro ⟨first, rest, client, reply, rfl, rfl, hout, hne⟩
    obtain ⟨_, _, _, hbatch, hsource, hinforms, -⟩ := Relay.submit_informs hout hne
    cases hbatch
    cases hsource
    exact ⟨hinforms, (committed_iff rfl hw rfl).2 ⟨reply, hout⟩⟩

end Replies

end HistoryRelay
