import HistoryRelay.Store.Devices
import HistoryRelay.Store.Entries
import HistoryRelay.Store.DumpRequests
import HistoryRelay.Store.DeletionRequests
import HistoryRelay.Store.Usage
import HistoryRelay.Store.Feedback
import HistoryRelay.Proofs.Lists
import HistoryRelay.Proofs.Step

/-! The single changes that the store knows. Every function on the store leads from one store to
the next by changes of a kind that can be named, so what each change keeps, the function keeps. -/
namespace HistoryRelay

inductive Change where
  | register (row : DeviceRow)
  | uninstall (user device : String) (date : Instant)
  | removeDevice (user device : String)
  | addEntries (rows : List EntryRow)
  | bumpEntries (user device : String)
  | dropEntries (which : EntryRow → Bool)
  /-- The number of the row does not count, as it gets the next one. -/
  | addDump (row : DumpRow)
  | bumpDumps (user device : String)
  | dropDumps (which : DumpRow → Bool)
  /-- The number of the row does not count here either. -/
  | addTombstone (row : DeletionRow)
  | bumpTombstones (user device : String)
  | dropTombstones (which : DeletionRow → Bool)
  | recordUsage (event : UsageEvent) (time : Instant)
  | addFeedback (row : FeedbackRow)

namespace Change

def apply : Change → Store → Store
  | register row, s => { s with devices := Devices.register row s.devices }
  | uninstall user device date, s =>
    { s with devices := Devices.uninstall user device date s.devices }
  | removeDevice user device, s => { s with devices := Devices.remove user device s.devices }
  | addEntries rows, s => { s with
      entries := s.entries ++ Entries.numbered s.lastEntry rows
      lastEntry := s.lastEntry + rows.length }
  | bumpEntries user device, s => { s with entries := Entries.bump user device s.entries }
  | dropEntries which, s => { s with entries := s.entries.filter fun r => !which r }
  | addDump row, s => { s with
      dumpRequests := s.dumpRequests ++ [{ row with id := s.lastDump + 1 }]
      lastDump := s.lastDump + 1 }
  | bumpDumps user device, s =>
    { s with dumpRequests := DumpRequests.bump user device s.dumpRequests }
  | dropDumps which, s => { s with dumpRequests := s.dumpRequests.filter fun r => !which r }
  | addTombstone row, s => { s with
      deletionRequests := s.deletionRequests ++ [{ row with id := s.lastDeletion + 1 }]
      lastDeletion := s.lastDeletion + 1 }
  | bumpTombstones user device, s =>
    { s with deletionRequests := DeletionRequests.bump user device s.deletionRequests }
  | dropTombstones which, s =>
    { s with deletionRequests := s.deletionRequests.filter fun r => !which r }
  | recordUsage event time, s => { s with usage := Usage.record event time s.usage }
  | addFeedback row, s => { s with feedback := s.feedback ++ [row] }

end Change

/-- The second store comes from the first by changes of a kind, any number of them. -/
def Leads (may : Change → Prop) : Store → Store → Prop :=
  Relation.ReflTransGen fun s t => ∃ c, may c ∧ t = c.apply s

namespace Leads
variable {may : Change → Prop} {s t : Store}

instance : IsPreorder Store (Leads may) :=
  inferInstanceAs (IsPreorder Store (Relation.ReflTransGen _))

theorem one {c : Change} (h : may c) (s : Store) : Leads may s (c.apply s) :=
  .single ⟨c, h, rfl⟩

theorem mono {might : Change → Prop} (h : Leads may s t) (hm : ∀ c, may c → might c) :
    Leads might s t :=
  Relation.ReflTransGen.mono (fun _ _ ⟨c, hc, he⟩ => ⟨c, hm c hc, he⟩) _ _ h

theorem along {R : Store → Store → Prop} [IsPreorder Store R] (h : Leads may s t)
    (hc : ∀ c s, may c → R s (c.apply s)) : R s t := by
  induction h with
  | refl => exact refl_of R s
  | tail _ hs ih =>
    obtain ⟨c, hm, rfl⟩ := hs
    exact trans_of R ih (hc c _ hm)

theorem keeps {P : Store → Prop} (h : Leads may s t) (hs : P s)
    (hc : ∀ c s, may c → P s → P (c.apply s)) : P t := by
  induction h with
  | refl => exact hs
  | tail _ ht ih =>
    obtain ⟨c, hm, rfl⟩ := ht
    exact hc c _ hm ih

theorem frame {β : Type} (f : Store → β) (h : Leads may s t)
    (hc : ∀ c s, may c → f (c.apply s) = f s) : f t = f s :=
  h.keeps (P := fun t => f t = f s) rfl fun c s' hm he => (hc c s' hm).trans he

end Leads

namespace Step
variable {α : Type} {may : Change → Prop}

theorem Steady.change {c : Change} (h : may c) : Steady (Leads may) (update c.apply) :=
  ⟨fun s => .one h s, .update _, .update _⟩

end Step

namespace Store
open Step
variable {may : Change → Prop} (refusals : Refusals)

section Looking

theorem permit_looks (st : Statement) : Looks (permit refusals st : Step Store Unit) := by
  unfold permit
  cases refusals st with
  | none => exact .pure ()
  | some reason => exact .fail (by simp [RelayError.kind])

theorem storedTime_looks (t : Timestamp) : Looks (storedTime t : Step Store Instant) :=
  .ofOption (by simp [RelayError.kind]) _

theorem storedTimes_looks (ts : List Timestamp) : Looks (storedTimes ts : Step Store _) := by
  induction ts with
  | nil => exact .pure []
  | cons t rest ih => exact .bind (storedTime_looks t) fun i => .bind ih fun is => .pure (i :: is)

theorem limitRows_looks (rows : Nat) : Looks (limitRows rows) :=
  .ite (.pure ()) (.fail (by simp [RelayError.kind]))

theorem look {α : Type} (table : Table) (f : Store → α) :
    Looks (do permit refusals (.select table); return f (← get) : Step Store α) :=
  .bind (permit_looks refusals _) fun _ => .bind .get fun _ => .pure _

theorem look_or_fail {α : Type} (table : Table) {f : Store → Except RelayError α}
    (hf : ∀ s e, f s = .error e → e.kind ≠ .nonCritical) :
    Looks (do permit refusals (.select table); ofExcept (f (← get)) : Step Store α) :=
  .bind (permit_looks refusals _) fun _ => .bind .get fun s => .ofExcept (hf s)

section Kinds
variable {α : Type} {p : ErrorKind → Prop}

theorem permit_never {σ : Type} (hp : ¬p .storage) (st : Statement) :
    Never p (permit refusals st : Step σ Unit) := by
  unfold permit
  cases refusals st with
  | none => exact .pure ()
  | some reason => exact .fail hp

theorem look_never (hp : ¬p .storage) (table : Table) (f : Store → α) :
    Never p (do permit refusals (.select table); return f (← get) : Step Store α) :=
  .bind (permit_never refusals hp _) fun _ => .bind .get fun _ => .pure _

theorem change_at_never (hp : ¬p .storage) (c : Change) (st : Store → Statement) (f : Store → α) :
    Never p (do
      let s ← get
      permit refusals (st s)
      update c.apply
      return f s : Step Store α) :=
  .bind .get fun _ => .bind (permit_never refusals hp _) fun _ => .bind (.update _) fun _ =>
    .pure _

theorem change_dated_never (hp : ¬p .storage) (ht : ¬p .badRequest) (c : Instant → Change)
    (t : Timestamp) (st : Statement) :
    Never p (do
      let i ← storedTime t
      permit refusals st
      update (c i).apply : Step Store Unit) :=
  .bind (.ofOption ht _) fun _ => .bind (permit_never refusals hp _) fun _ => .update _

end Kinds

theorem activeDevices_looks (user : String) : Looks (activeDevices refusals user) :=
  look refusals _ _

theorem otherActiveDevices_looks (user device : String) :
    Looks (otherActiveDevices refusals user device) :=
  look refusals _ _

theorem userExists_looks (user : String) : Looks (userExists refusals user) := look refusals _ _

theorem countUsers_looks : Looks (countUsers refusals) := look refusals _ _

theorem countDevices_looks : Looks (countDevices refusals) := look refusals _ _

theorem lastRegistration_looks : Looks (lastRegistration refusals) := look refusals _ _

theorem pendingEntries_looks (user device : String) (limit : Nat) :
    Looks (pendingEntries refusals user device limit) :=
  look refusals _ _

theorem entriesOfUser_looks (user : String) : Looks (entriesOfUser refusals user) :=
  look refusals _ _

theorem usersOver_looks (most : Nat) : Looks (usersOver refusals most) := look refusals _ _

theorem countEntries_looks : Looks (countEntries refusals) := look refusals _ _

theorem dumpRequestsForPeer_looks (user device : String) :
    Looks (dumpRequestsForPeer refusals user device) :=
  look refusals _ _

theorem deletionRequestsFor_looks (user device : String) :
    Looks (deletionRequestsFor refusals user device) :=
  look_or_fail refusals _ fun s e he => by
    obtain ⟨row, -, hrow⟩ := error_of_mapM he
    unfold DeletionRow.toRequest at hrow
    split at hrow
    · simp at hrow
    · injection hrow with hrow
      simp [← hrow, RelayError.kind]

theorem kind_of_read {of : LedgerSum} {sum : Counter.Sum} {e : RelayError}
    (h : Usage.read of sum = .error e) : e.kind ≠ .nonCritical := by
  cases sum with
  | whole n => simp [Usage.read] at h
  | rounded =>
    injection h with h
    simp [← h, RelayError.kind]
  | overflow =>
    injection h with h
    simp [← h, RelayError.kind]

theorem kind_of_summary? {user : String} {us : List UsageRow} {e : RelayError}
    (h : Usage.summary? user us = .error e) : e.kind ≠ .nonCritical := by
  unfold Usage.summary? at h
  extract_lets rows at h
  split at h
  · simp [pure, Except.pure] at h
  · obtain h | ⟨n, -, h⟩ := bind_eq_error.1 h
    · exact kind_of_read h
    · simp [pure, Except.pure] at h

theorem kind_of_summaries {us : List UsageRow} {e : RelayError}
    (h : Usage.summaries us = .error e) : e.kind ≠ .nonCritical := by
  unfold Usage.summaries at h
  split at h
  · obtain h | ⟨_, h, -⟩ := bind_eq_error.1 h
    · injection h with h
      simp [← h, RelayError.kind]
    · simp at h
  · obtain h | ⟨found, -, h⟩ := bind_eq_error.1 h
    · obtain ⟨user, -, h⟩ := error_of_mapM h
      exact kind_of_summary? h
    · simp [pure, Except.pure] at h

theorem totalEntriesHandled_looks : Looks (totalEntriesHandled refusals) :=
  look_or_fail refusals _ fun _ _ => kind_of_read

theorem usageSummaries_looks : Looks (usageSummaries refusals) :=
  look_or_fail refusals _ fun _ _ => kind_of_summaries

theorem staleTestDevices_looks (cutoff : Timestamp) : Looks (staleTestDevices refusals cutoff) :=
  .bind (storedTime_looks cutoff) fun _ => look refusals _ _

theorem inactiveUsers_looks (cutoff : Timestamp) : Looks (inactiveUsers refusals cutoff) :=
  .bind (storedTime_looks cutoff) fun _ => look refusals _ _

theorem countActiveSince_looks (since : Timestamp) : Looks (countActiveSince refusals since) :=
  .bind (storedTime_looks since) fun _ => look refusals _ _

theorem countQueriedSince_looks (since : Timestamp) : Looks (countQueriedSince refusals since) :=
  .bind (storedTime_looks since) fun _ => look refusals _ _

theorem countFeedbackSince_looks (since : Timestamp) : Looks (countFeedbackSince refusals since) :=
  .bind (storedTime_looks since) fun _ => look refusals _ _

end Looking

section Writing

/-- A statement that is told from the store as it finds it, as the change it makes is reported. -/
theorem change_at {β : Type} {c : Change} (h : may c) (st : Store → Statement) (f : Store → β) :
    Steady (Leads may) (do
      let s ← get
      permit refusals (st s)
      update c.apply
      return f s : Step Store β) :=
  .bind .get fun _ => .bind (permit_looks refusals _).steady fun _ =>
    .bind (.change h) fun _ => .pure _

/-- A statement that first needs the stored form of a time. -/
theorem change_dated {c : Instant → Change} (h : ∀ i, may (c i)) (t : Timestamp) (st : Statement) :
    Steady (Leads may) (do
      let i ← storedTime t
      permit refusals st
      update (c i).apply : Step Store Unit) :=
  .bind (storedTime_looks t).steady fun i => .bind (permit_looks refusals st).steady fun _ =>
    .change (h i)

theorem upsertDevice_steady (d : Device)
    (h : ∀ registered, may (.register
      ⟨d.user, d.device, d.registrationIp, registered, d.isTestDevice, none⟩)) :
    Steady (Leads may) (upsertDevice refusals d) :=
  change_dated refusals h _ _

theorem markUninstalled_steady (user device : String) (moment : Timestamp)
    (h : ∀ date, may (.uninstall user device date)) :
    Steady (Leads may) (markUninstalled refusals user device moment) :=
  .bind (storedTime_looks _).steady fun i => change_at refusals (h i) _ _

theorem deleteDevice_steady (user device : String) (h : may (.removeDevice user device)) :
    Steady (Leads may) (deleteDevice refusals user device) :=
  change_at refusals h _ _

theorem insertRuns_steady (runs : List (List EntryRow)) (h : ∀ run ∈ runs, may (.addEntries run)) :
    Steady (Leads may) (insertRuns refusals runs) := by
  induction runs with
  | nil => exact .pure 0
  | cons run rest ih =>
    have hrest := ih fun r hr => h r (List.mem_cons_of_mem run hr)
    exact .bind (limitRows_looks _).steady fun _ => .bind (permit_looks refusals _).steady fun _ =>
      .bind (.change (h run List.mem_cons_self)) fun _ => .bind hrest fun _ => .pure _

theorem createDumpRequest_steady (r : DumpRequest)
    (h : ∀ time, may (.addDump ⟨0, r.user, r.requester, time, 0⟩)) :
    Steady (Leads may) (createDumpRequest refusals r) :=
  change_dated refusals h _ _

theorem insertTombstones_steady (row : DeletionRow) (devices : List String)
    (h : ∀ device ∈ devices, may (.addTombstone { row with destination := device })) :
    Steady (Leads may) (insertTombstones refusals row devices) := by
  induction devices with
  | nil => exact .pure 0
  | cons device rest ih =>
    have hrest := ih fun d hd => h d (List.mem_cons_of_mem device hd)
    exact .bind (permit_looks refusals _).steady fun _ =>
      .bind (.change (h device List.mem_cons_self)) fun _ => .bind hrest fun _ => .pure _

theorem createDeletionRequests_steady (r : DeletionRequest) (devices : List String)
    (h : ∀ device ∈ devices, ∀ time,
      may (.addTombstone ⟨0, r.user, device, time, 0, Message.listToJson r.messages⟩)) :
    Steady (Leads may) (createDeletionRequests refusals r devices) :=
  .bind (storedTime_looks _).steady fun i =>
    insertTombstones_steady refusals _ devices fun device hd => h device hd i

theorem bumpEntries_steady (user device : String) (h : may (.bumpEntries user device)) :
    Steady (Leads may) (bumpEntries refusals user device) :=
  change_at refusals h _ _

theorem bumpDumpRequests_steady (user device : String) (h : may (.bumpDumps user device)) :
    Steady (Leads may) (bumpDumpRequests refusals user device) :=
  change_at refusals h _ _

theorem bumpDeletionRequests_steady (user device : String) (h : may (.bumpTombstones user device)) :
    Steady (Leads may) (bumpDeletionRequests refusals user device) :=
  change_at refusals h _ _

theorem deleteEntries_steady (which : EntryRow → Bool) (h : may (.dropEntries which)) :
    Steady (Leads may) (deleteEntries refusals which) :=
  change_at refusals h _ _

theorem deleteDumpRequests_steady (which : DumpRow → Bool) (h : may (.dropDumps which)) :
    Steady (Leads may) (deleteDumpRequests refusals which) :=
  change_at refusals h _ _

theorem deleteDeletionRequests_steady (which : DeletionRow → Bool)
    (h : may (.dropTombstones which)) :
    Steady (Leads may) (deleteDeletionRequests refusals which) :=
  change_at refusals h _ _

theorem deleteNamed_steady (user : String) (messages : List Message)
    (h : ∀ m ∈ messages, may (.dropEntries fun r => r.user = user && m.names r)) :
    Steady (Leads may) (deleteNamed refusals user messages) := by
  induction messages with
  | nil => exact .pure 0
  | cons m rest ih =>
    have hrest := ih fun n hn => h n (List.mem_cons_of_mem m hn)
    have hfirst := deleteEntries_steady refusals _ (h m List.mem_cons_self)
    unfold deleteNamed
    split
    · exact .bind hfirst fun _ => .bind hrest fun _ => .pure _
    · exact .bind (.pure 0) fun _ => .bind hrest fun _ => .pure _

theorem deleteMatching_steady (user : String) (messages : List Message)
    (h : ∀ m ∈ messages, may (.dropEntries fun r => r.user = user && m.names r)) :
    Steady (Leads may) (deleteMatching refusals user messages) := by
  unfold deleteMatching
  exact .ite (.fail (by simp [RelayError.kind])) (deleteNamed_steady refusals user messages h)

theorem deleteEntriesUpTo_steady (user : String) (cutoff : Timestamp)
    (h : ∀ date : Instant, may (.dropEntries fun r => r.user = user && r.date ≤ date)) :
    Steady (Leads may) (deleteEntriesUpTo refusals user cutoff) :=
  .bind (storedTime_looks _).steady fun i => deleteEntries_steady refusals _ (h i)

theorem recordUsage_steady (e : UsageEvent) (h : ∀ time, may (.recordUsage e time)) :
    Steady (Leads may) (recordUsage refusals e) :=
  change_dated refusals h _ _

theorem insertFeedback_steady (f : Feedback)
    (h : ∀ date, may (.addFeedback ⟨f.user, date, f.feedback⟩)) :
    Steady (Leads may) (insertFeedback refusals f) :=
  change_dated refusals h _ _

end Writing

end Store

end HistoryRelay
