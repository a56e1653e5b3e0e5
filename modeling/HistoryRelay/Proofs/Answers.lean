import HistoryRelay.Proofs.Change

/-! What the functions on the store answer, and what they leave behind when they do. -/
namespace HistoryRelay

theorem DeletionRow.toRequest_eq_ok {row : DeletionRow} {r : DeletionRequest} :
    row.toRequest = .ok r ↔ Message.listOfJson row.messages = .ok r.messages ∧
      r.user = row.user ∧ r.destination = row.destination ∧
        r.sendTime = row.sendTime.toTimestamp ∧ r.readCount = row.readCount := by
  unfold toRequest
  cases hm : Message.listOfJson row.messages with
  | error fault => simp
  | ok messages =>
    cases r
    simp only [Except.ok.injEq, DeletionRequest.mk.injEq]
    constructor
    · rintro ⟨rfl, rfl, rfl, rfl, rfl⟩
      exact ⟨rfl, rfl, rfl, rfl, rfl⟩
    · rintro ⟨rfl, rfl, rfl, rfl, rfl⟩
      exact ⟨rfl, rfl, rfl, rfl, rfl⟩

namespace Store
open Step
variable {refusals : Refusals} {s t : Store}

section Looking

theorem permit_eq_answer {σ : Type} {st : Statement} {s t : σ} {u : Unit} :
    permit refusals st s = (.answer u, t) ↔ refusals st = none ∧ t = s := by
  unfold permit
  cases refusals st with
  | none => simp [pure_apply, eq_comm]
  | some reason => simp [fail]

theorem storedTime_eq_answer {σ : Type} {time : Timestamp} {i : Instant} {s t : σ} :
    storedTime time s = (.answer i, t) ↔ time.toInstant? = some i ∧ t = s :=
  ofOption_eq_answer

theorem storedTimes_eq_answer {σ : Type} {times : List Timestamp} {is : List Instant} {s t : σ} :
    storedTimes times s = (.answer is, t) ↔
      times.map Timestamp.toInstant? = is.map some ∧ t = s := by
  induction times generalizing is s t with
  | nil =>
    rw [storedTimes, pure_eq_answer]
    cases is <;> simp [eq_comm (a := s)]
  | cons time rest ih =>
    simp only [storedTimes, bind_eq_answer, storedTime_eq_answer, ih, pure_eq_answer]
    constructor
    · rintro ⟨i, s', ⟨hi, rfl⟩, js, t', ⟨hjs, rfl⟩, rfl, rfl⟩
      exact ⟨by simp [hi, hjs], rfl⟩
    · rintro ⟨h, rfl⟩
      cases is with
      | nil => simp at h
      | cons i js =>
        simp only [List.map_cons, List.cons.injEq] at h
        exact ⟨i, t, ⟨h.1, rfl⟩, js, t, ⟨h.2, rfl⟩, rfl, rfl⟩

theorem look_eq_answer {α : Type} {table : Table} {f : Store → α} {v : α} :
    (do permit refusals (.select table); return f (← get) : Step Store α) s = (.answer v, t) ↔
      refusals (.select table) = none ∧ v = f s ∧ t = s := by
  simp only [bind_eq_answer, permit_eq_answer, get_eq_answer, pure_eq_answer]
  constructor
  · rintro ⟨_, _, ⟨hp, rfl⟩, _, _, ⟨rfl, rfl⟩, rfl, rfl⟩
    exact ⟨hp, rfl, rfl⟩
  · rintro ⟨hp, rfl, rfl⟩
    exact ⟨(), t, ⟨hp, rfl⟩, t, t, ⟨rfl, rfl⟩, rfl, rfl⟩

theorem look_or_fail_eq_answer {α : Type} {table : Table} {f : Store → Except RelayError α}
    {v : α} :
    (do permit refusals (.select table); ofExcept (f (← get)) : Step Store α) s = (.answer v, t) ↔
      refusals (.select table) = none ∧ f s = .ok v ∧ t = s := by
  simp only [bind_eq_answer, permit_eq_answer, get_eq_answer, ofExcept_eq_answer]
  constructor
  · rintro ⟨_, _, ⟨hp, rfl⟩, _, _, ⟨rfl, rfl⟩, hf, rfl⟩
    exact ⟨hp, hf, rfl⟩
  · rintro ⟨hp, hf, rfl⟩
    exact ⟨(), t, ⟨hp, rfl⟩, t, t, ⟨rfl, rfl⟩, hf, rfl⟩

theorem activeDevices_eq_answer {user : String} {ds : List DeviceRow} :
    activeDevices refusals user s = (.answer ds, t) ↔
      refusals (.select .devices) = none ∧ ds = Devices.activeOf user s.devices ∧ t = s :=
  look_eq_answer

theorem pendingEntries_eq_answer {user device : String} {limit : Nat} {es : List Entry} :
    pendingEntries refusals user device limit s = (.answer es, t) ↔
      refusals (.select .entries) = none ∧
        es = (Entries.pending user device limit s.entries).map EntryRow.toEntry ∧ t = s :=
  look_eq_answer

theorem otherActiveDevices_eq_answer {user device : String} {n : Nat} :
    otherActiveDevices refusals user device s = (.answer n, t) ↔
      refusals (.select .devices) = none ∧ n = Devices.otherActive user device s.devices ∧ t = s :=
  look_eq_answer

theorem dumpRequestsForPeer_eq_answer {user device : String} {rs : List DumpRequest} :
    dumpRequestsForPeer refusals user device s = (.answer rs, t) ↔
      refusals (.select .dumpRequests) = none ∧
        rs = (s.dumpRequests.filter (·.isForPeer user device)).map DumpRow.toRequest ∧ t = s :=
  look_eq_answer

theorem deletionRequestsFor_eq_answer {user device : String} {rs : List DeletionRequest} :
    deletionRequestsFor refusals user device s = (.answer rs, t) ↔
      refusals (.select .deletionRequests) = none ∧
        List.Forall₂ (fun row r => row.toRequest = .ok r)
          (s.deletionRequests.filter (·.isFor user device)) rs ∧ t = s := by
  rw [← mapM_eq_ok]
  exact look_or_fail_eq_answer

theorem user_of_deletionRequestsFor {user device : String} {rs : List DeletionRequest}
    (h : deletionRequestsFor refusals user device s = (.answer rs, t)) :
    ∀ r ∈ rs, r.user = user := by
  intro r hr
  obtain ⟨-, hrs, -⟩ := deletionRequestsFor_eq_answer.1 h
  obtain ⟨row, hrow, hto⟩ := exists_left_of_forall₂ hrs hr
  have hfor := (List.mem_filter.1 hrow).2
  simp only [DeletionRow.isFor, Bool.and_eq_true, decide_eq_true_eq] at hfor
  rw [(DeletionRow.toRequest_eq_ok.1 hto).2.1, hfor.1]

end Looking

section Writing

theorem change_at_eq_answer {β : Type} {c : Change} {st : Store → Statement} {f : Store → β}
    {v : β} :
    (do
      let s ← get
      permit refusals (st s)
      update c.apply
      return f s : Step Store β) s = (.answer v, t) ↔
      refusals (st s) = none ∧ v = f s ∧ t = c.apply s := by
  simp only [bind_eq_answer, permit_eq_answer, get_eq_answer, update_eq_answer, pure_eq_answer]
  constructor
  · rintro ⟨_, _, ⟨rfl, rfl⟩, _, _, ⟨hp, rfl⟩, _, _, rfl, rfl, rfl⟩
    exact ⟨hp, rfl, rfl⟩
  · rintro ⟨hp, rfl, rfl⟩
    exact ⟨s, s, ⟨rfl, rfl⟩, (), s, ⟨hp, rfl⟩, (), _, rfl, rfl, rfl⟩

theorem change_dated_eq_answer {c : Instant → Change} {time : Timestamp} {st : Statement}
    {u : Unit} :
    (do
      let i ← storedTime time
      permit refusals st
      update (c i).apply : Step Store Unit) s = (.answer u, t) ↔
      ∃ i, time.toInstant? = some i ∧ refusals st = none ∧ t = (c i).apply s := by
  simp only [bind_eq_answer, storedTime_eq_answer, permit_eq_answer, update_eq_answer]
  constructor
  · rintro ⟨i, _, ⟨hi, rfl⟩, _, _, ⟨hp, rfl⟩, ht⟩
    exact ⟨i, hi, hp, ht⟩
  · rintro ⟨i, hi, hp, ht⟩
    exact ⟨i, s, ⟨hi, rfl⟩, (), s, ⟨hp, rfl⟩, ht⟩

theorem upsertDevice_eq_answer {d : Device} {u : Unit} :
    upsertDevice refusals d s = (.answer u, t) ↔
      ∃ i, d.registrationDate.toInstant? = some i ∧ refusals (.insert .devices []) = none ∧
        t = (Change.register
          ⟨d.user, d.device, d.registrationIp, i, d.isTestDevice, none⟩).apply s :=
  change_dated_eq_answer
    (c := fun i => .register ⟨d.user, d.device, d.registrationIp, i, d.isTestDevice, none⟩)

theorem createDumpRequest_eq_answer {r : DumpRequest} {u : Unit} :
    createDumpRequest refusals r s = (.answer u, t) ↔
      ∃ i, r.time.toInstant? = some i ∧ refusals (.insert .dumpRequests []) = none ∧
        t = (Change.addDump ⟨0, r.user, r.requester, i, 0⟩).apply s :=
  change_dated_eq_answer (c := fun i => .addDump ⟨0, r.user, r.requester, i, 0⟩)

theorem recordUsage_eq_answer {e : UsageEvent} {u : Unit} :
    recordUsage refusals e s = (.answer u, t) ↔
      ∃ i, e.time.toInstant? = some i ∧ refusals (.insert .usage []) = none ∧
        t = (Change.recordUsage e i).apply s :=
  change_dated_eq_answer (c := fun i => .recordUsage e i)

theorem deleteEntries_eq_answer {which : EntryRow → Bool} {n : Nat} :
    deleteEntries refusals which s = (.answer n, t) ↔
      refusals (.delete .entries (s.entries.countP which)) = none ∧
        n = s.entries.countP which ∧ t = (Change.dropEntries which).apply s :=
  change_at_eq_answer (c := .dropEntries which)

theorem deleteEntries_counts {which : EntryRow → Bool} {n : Nat}
    (h : deleteEntries refusals which s = (.answer n, t)) :
    n + t.entries.length = s.entries.length := by
  obtain ⟨-, rfl, rfl⟩ := deleteEntries_eq_answer.1 h
  simp only [Change.apply, ← List.countP_eq_length_filter]
  simpa using (List.length_eq_countP_add_countP which (l := s.entries)).symm

theorem bumpEntries_eq_answer {user device : String} {n : Nat} :
    bumpEntries refusals user device s = (.answer n, t) ↔
      refusals (.update .entries (s.entries.countP (·.isFor user device))) = none ∧
        n = s.entries.countP (·.isFor user device) ∧
          t = (Change.bumpEntries user device).apply s :=
  change_at_eq_answer (c := .bumpEntries user device)

theorem deleteDeletionRequests_eq_answer {which : DeletionRow → Bool} {n : Nat} :
    deleteDeletionRequests refusals which s = (.answer n, t) ↔
      refusals (.delete .deletionRequests (s.deletionRequests.countP which)) = none ∧
        n = s.deletionRequests.countP which ∧ t = (Change.dropTombstones which).apply s :=
  change_at_eq_answer (c := .dropTombstones which)

theorem deleteDumpRequests_eq_answer {which : DumpRow → Bool} {n : Nat} :
    deleteDumpRequests refusals which s = (.answer n, t) ↔
      refusals (.delete .dumpRequests (s.dumpRequests.countP which)) = none ∧
        n = s.dumpRequests.countP which ∧ t = (Change.dropDumps which).apply s :=
  change_at_eq_answer (c := .dropDumps which)

theorem bumpDumpRequests_eq_answer {user device : String} {n : Nat} :
    bumpDumpRequests refusals user device s = (.answer n, t) ↔
      refusals (.update .dumpRequests (s.dumpRequests.countP (·.isForPeer user device))) = none ∧
        n = s.dumpRequests.countP (·.isForPeer user device) ∧
          t = (Change.bumpDumps user device).apply s :=
  change_at_eq_answer (c := .bumpDumps user device)

theorem bumpDeletionRequests_eq_answer {user device : String} {n : Nat} :
    bumpDeletionRequests refusals user device s = (.answer n, t) ↔
      refusals (.update .deletionRequests (s.deletionRequests.countP (·.isFor user device))) =
          none ∧
        n = s.deletionRequests.countP (·.isFor user device) ∧
          t = (Change.bumpTombstones user device).apply s :=
  change_at_eq_answer (c := .bumpTombstones user device)

theorem deleteDevice_eq_answer {user device : String} {gone : Bool} :
    deleteDevice refusals user device s = (.answer gone, t) ↔
      refusals (.delete .devices (s.devices.countP (·.is user device))) = none ∧
        gone = decide (0 < s.devices.countP (·.is user device)) ∧
          t = (Change.removeDevice user device).apply s :=
  change_at_eq_answer (c := .removeDevice user device)

end Writing

end Store

end HistoryRelay
