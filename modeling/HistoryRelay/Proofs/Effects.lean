import HistoryRelay.Relay.History
import HistoryRelay.Proofs.Answers

/-! What each call may change, whatever comes of it. Main statement: a turn leads from store to
store by the changes that its call may make, so that an invariant of the store needs a look at
single changes only. -/
namespace HistoryRelay

/-- The user a call is made for. Housekeeping and totals are for nobody, and so is an empty
batch. -/
def Call.user? : Call → Option String
  | .register r _ => some r.user
  | .submit batch _ _ => batch.head?.map (·.user)
  | .query user _ _ _ | .bootstrap user _ _ | .submitDump user _ _ _ _ _ | .dumpRequests user _
  | .deletionRequests user _ | .uninstall user _ => some user
  | .addDeletion r => some r.user
  | .recordFeedback f => some f.user
  | .statistics | .usageStatistics | .wipe | .ping | .sweep | .deepClean _ => none

/-- The changes that a call may make: in which tables, to whose rows, and what new rows say. -/
def Call.may (config : Config) : Call → Change → Prop
  | .register r _, .register row => row.user = r.user ∧ row.device = r.device
  | .register r _, .addDump row =>
    row.user = r.user ∧ row.requester = r.device ∧ row.readCount = 0
  | .register r _, .recordUsage e _ => e.user = r.user
  | .submit (first :: _) _ _, .addEntries rows =>
    ∀ row ∈ rows, row.user = first.user ∧ row.readCount = 0
  | .submit (first :: _) (some source) _, .bumpDumps user device =>
    user = first.user ∧ device = source
  | .submit (first :: _) (some source) _, .bumpTombstones user device =>
    user = first.user ∧ device = source
  | .submit (first :: _) _ _, .recordUsage e _ => e.user = first.user
  | .query user _ _ _, .dropEntries which => ∀ row, which row → row.user = user
  | .query user device _ _, .bumpEntries u d => u = user ∧ d = device
  | .query user _ _ _, .recordUsage e _ => e.user = user
  | .bootstrap user _ _, .recordUsage e _ => e.user = user
  | .submitDump user _ requester _ _ _, .addEntries rows =>
    ∀ row ∈ rows, row.user = user ∧ row.device = requester ∧ row.readCount = 0
  | .submitDump user _ requester _ _ _, .dropDumps which => which = (·.isBy user requester)
  | .submitDump user _ _ _ _ _, .recordUsage e _ => e.user = user
  | .dumpRequests user device, .bumpDumps u d => u = user ∧ d = device
  | .addDeletion r, .addTombstone row =>
    row.user = r.user ∧ row.readCount = 0 ∧ row.messages = Message.listToJson r.messages
  | .addDeletion r, .dropEntries which => ∀ row, which row → row.user = r.user
  | .deletionRequests user device, .bumpTombstones u d => u = user ∧ d = device
  | .uninstall user device, .dropEntries which => which = (·.isFor user device)
  | .uninstall user device, .dropTombstones which => which = (·.isFor user device)
  | .uninstall user device, .dropDumps which => which = (·.isBy user device)
  | .uninstall user device, .uninstall u d _ => u = user ∧ d = device
  | .recordFeedback f, .addFeedback row => row.user = f.user
  | .wipe, .dropEntries _ => True
  | .sweep, .dropEntries which =>
    which = fun row => decide (config.entryReadCap.val < row.readCount)
  | .sweep, .dropTombstones which =>
    which = fun row => decide (config.deletionReadCap.val < row.readCount)
  | .sweep, .dropDumps which => which = fun row => decide (config.dumpReadCap.val < row.readCount)
  | .deepClean _, .dropEntries _ => True
  | .deepClean _, .dropTombstones which => ∃ user device, which = (·.isFor user device)
  | .deepClean _, .dropDumps which => ∃ user device, which = (·.isBy user device)
  | .deepClean _, .removeDevice _ _ => True
  | _, _ => False

def Turn.may (t : Turn) : Change → Prop := t.call.may t.setting.config

namespace Call
variable {config : Config} {call : Call}

theorem register_of_may {row : DeviceRow} (h : call.may config (.register row)) :
    ∃ r client, call = .register r client := by
  cases call with
  | register r client => exact ⟨r, client, rfl⟩
  | submit batch source client => cases batch <;> exact h.elim
  | _ => exact h.elim

theorem uninstall_of_may {user device : String} {date : Instant}
    (h : call.may config (.uninstall user device date)) : call = .uninstall user device := by
  cases call with
  | uninstall u d =>
    obtain ⟨rfl, rfl⟩ := h
    rfl
  | submit batch source client => cases batch <;> exact h.elim
  | _ => exact h.elim

theorem deepClean_of_may {user device : String} (h : call.may config (.removeDevice user device)) :
    ∃ now, call = .deepClean now := by
  cases call with
  | deepClean now => exact ⟨now, rfl⟩
  | submit batch source client => cases batch <;> exact h.elim
  | _ => exact h.elim

theorem addDeletion_of_may {row : DeletionRow} (h : call.may config (.addTombstone row)) :
    ∃ req, call = .addDeletion req := by
  cases call with
  | addDeletion req => exact ⟨req, rfl⟩
  | submit batch source client => cases batch <;> exact h.elim
  | _ => exact h.elim

end Call

namespace Relay
open Step
variable {α : Type} {may : Change → Prop} (w : Setting)

/-- The relay's store comes from what it was by changes of a kind, and its lock is as it was if the
clock can be read. -/
def Along (may : Change → Prop) (r r' : Relay) : Prop :=
  Leads may r.store r'.store ∧ (0 ≤ w.clock.seconds → r'.poisoned = r.poisoned)

instance : IsPreorder Relay (Along w may) where
  refl r := ⟨refl_of (Leads may) r.store, fun _ => rfl⟩
  trans _ _ _ h h' := ⟨trans_of (Leads may) h.1 h'.1, fun hw => (h'.2 hw).trans (h.2 hw)⟩

/-- Makes changes of a kind, crashes over nothing but the clock, and in production fails over no
bookkeeping. -/
structure Tame (may : Change → Prop) (a : Step Store α) : Prop where
  moves : Moves (Leads may) a
  calm : 0 ≤ w.clock.seconds → Calm a
  critical : w.config.environment = .production → Critical a

namespace Tame
variable {w} {β : Type}

theorem of_steady {a : Step Store α} (h : Steady (Leads may) a) : Tame w may a :=
  ⟨h.moves, fun _ => h.calm, fun _ => h.critical⟩

theorem of_looks {a : Step Store α} (h : Looks a) : Tame w may a := of_steady h.steady

theorem pure (v : α) : Tame w may (Pure.pure v : Step Store α) := of_steady (.pure v)

theorem bind_of_answer {a : Step Store α} {next : α → Step Store β} (ha : Tame w may a)
    (hn : ∀ s v t, a s = (.answer v, t) → Tame w may (next v)) : Tame w may (a >>= next) where
  moves := ha.moves.bind_of_answer fun s v t h => (hn s v t h).moves
  calm hw := (ha.calm hw).bind_of_answer fun s v t h => (hn s v t h).calm hw
  critical hw := (ha.critical hw).bind_of_answer fun s v t h => (hn s v t h).critical hw

theorem bind {a : Step Store α} {next : α → Step Store β} (ha : Tame w may a)
    (hn : ∀ v, Tame w may (next v)) : Tame w may (a >>= next) :=
  ha.bind_of_answer fun _ v _ _ => hn v

theorem ite {c : Prop} [Decidable c] {a b : Step Store α} (ha : Tame w may a)
    (hb : Tame w may b) : Tame w may (if c then a else b) := by
  split
  · exact ha
  · exact hb

theorem rescue {a : Step Store α} {after : RelayError → Step Store α} (ha : Tame w may a)
    (hn : ∀ e, Tame w may (after e)) : Tame w may (Step.rescue a after) where
  moves := .rescue ha.moves fun e => (hn e).moves
  calm hw := .rescue (ha.calm hw) fun e => (hn e).calm hw
  critical hw := .rescue fun e => (hn e).critical hw

theorem transaction {a : Step Store α} (ha : Tame w may a) : Tame w may (Step.transaction a) where
  moves := .transaction ha.moves
  calm hw := .transaction (ha.calm hw)
  critical hw := .transaction (ha.critical hw)

end Tame

/-- What a call does to the relay: changes of a kind, and in production no failure over
bookkeeping. -/
structure Orderly (may : Change → Prop) (a : Step Relay α) : Prop where
  moves : Moves (Along w may) a
  critical : w.config.environment = .production → Critical a

namespace Orderly
variable {w} {β : Type}

theorem pure (v : α) : Orderly w may (Pure.pure v : Step Relay α) := ⟨.pure v, fun _ => .pure v⟩

theorem fail {e : RelayError} (he : e.kind ≠ .nonCritical) :
    Orderly w may (Step.fail e : Step Relay α) :=
  ⟨.fail e, fun _ => .fail he⟩

theorem bind {a : Step Relay α} {next : α → Step Relay β} (ha : Orderly w may a)
    (hn : ∀ v, Orderly w may (next v)) : Orderly w may (a >>= next) where
  moves := .bind ha.moves fun v => (hn v).moves
  critical hw := .bind (ha.critical hw) fun v => (hn v).critical hw

theorem map {a : Step Relay α} (f : α → β) (ha : Orderly w may a) : Orderly w may (f <$> a) where
  moves := .map f ha.moves
  critical hw := .map f (ha.critical hw)

theorem ite {c : Prop} [Decidable c] {a b : Step Relay α} (ha : Orderly w may a)
    (hb : Orderly w may b) : Orderly w may (if c then a else b) := by
  split
  · exact ha
  · exact hb

theorem rescue {a : Step Relay α} {after : RelayError → Step Relay α} (ha : Orderly w may a)
    (hn : ∀ e, Orderly w may (after e)) : Orderly w may (Step.rescue a after) where
  moves := .rescue ha.moves fun e => (hn e).moves
  critical hw := .rescue fun e => (hn e).critical hw

end Orderly

section Parts

theorem locked_apply (a : Step Store α) {r : Relay} (h : r.poisoned = false) :
    (locked a r).1 = (a r.store).1 ∧ (locked a r).2.store = (a r.store).2 := by
  unfold locked
  rw [h]
  cases a r.store with
  | mk o s => cases o <;> exact ⟨rfl, rfl⟩

theorem locked_never {p : ErrorKind → Prop} (hp : ¬p .internal) {a : Step Store α}
    (h : Never p a) : Never p (locked a) := by
  intro r e he
  unfold locked at he
  split at he
  · injection he with he
    rw [← he]
    exact hp
  · cases ha : a r.store with
    | mk o s =>
      rw [ha] at he
      cases o with
      | answer v => simp at he
      | failure e' => exact h r.store e (by rw [ha]; exact he)
      | crash => simp at he

theorem locked_critical {a : Step Store α} (h : Critical a) : Critical (locked a) :=
  locked_never (by decide) h

theorem locked_moves {w : Setting} {a : Step Store α} (h : Tame w may a) :
    Moves (Along w may) (locked a) := by
  intro r
  have hs := h.moves r.store
  have hcalm : 0 ≤ w.clock.seconds → (a r.store).1 ≠ .crash := fun hw => h.calm hw r.store
  unfold locked
  split
  · exact refl_of (Along w may) r
  · cases ha : a r.store with
    | mk o s =>
      rw [ha] at hs hcalm
      cases o with
      | answer v => exact ⟨hs, fun _ => rfl⟩
      | failure e => exact ⟨hs, fun _ => rfl⟩
      | crash => exact ⟨hs, fun hw => absurd rfl (hcalm hw)⟩

theorem locked_orderly {w : Setting} {a : Step Store α} (h : Tame w may a) :
    Orderly w may (locked a) :=
  ⟨locked_moves h, fun hw => locked_critical (h.critical hw)⟩

theorem readClock_tame : Tame w may (readClock w) := by
  unfold readClock
  split
  · exact ⟨.crash, fun hw => absurd ‹_› (Int.not_lt.2 hw), fun _ => .crash⟩
  · exact .pure _

theorem requireId_moves (name value : String) {σ : Type} {R : σ → σ → Prop} [IsPreorder σ R] :
    Moves R (requireId name value : Step σ Unit) := by
  unfold requireId
  exact .ite (.fail _) (.pure _)

theorem requireId_critical (name value : String) {σ : Type} :
    Critical (requireId name value : Step σ Unit) := by
  unfold requireId
  split
  · exact .fail (by simp [RelayError.kind])
  · exact .pure _

theorem requireId_orderly (name value : String) : Orderly w may (requireId name value) :=
  ⟨requireId_moves name value, fun _ => requireId_critical name value⟩

theorem daysBefore_moves (t : Timestamp) (days : Nat) {σ : Type} {R : σ → σ → Prop}
    [IsPreorder σ R] : Moves R (daysBefore t days : Step σ Timestamp) := by
  unfold daysBefore
  split
  · exact .pure _
  · exact .crash

theorem daysBefore_critical (t : Timestamp) (days : Nat) {σ : Type} :
    Critical (daysBefore t days : Step σ Timestamp) := by
  unfold daysBefore
  split
  · exact .pure _
  · exact .crash

/-- The calendar reaches back from every time that the clock can show. -/
theorem daysBefore_calm {t : Timestamp} {days : Nat} (ht : 0 ≤ t.seconds) (hd : days ≤ 7)
    {σ : Type} : Calm (daysBefore t days : Step σ Timestamp) := by
  have hsome : t.minusDays days ≠ none := by
    have hnanos := t.nanos_lt
    have hleap := t.leap_ends_minute
    have hlast := t.le_last
    unfold Timestamp.minusDays
    split
    · simp
    · split
      · rename_i hsecond
        have hlate : 1000000000 ≤ t.nanos := by simpa [Timestamp.isLeapSecond] using hsecond
        have hfirst : Timestamp.firstSecond ≤ t.seconds + 1 - days * 86400 := by
          unfold Timestamp.firstSecond
          omega
        rw [Timestamp.make?, dif_pos ⟨by omega, by omega, hfirst, by omega⟩]
        exact Option.some_ne_none _
      · have hfirst : Timestamp.firstSecond ≤ t.seconds - days * 86400 := by
          unfold Timestamp.firstSecond
          omega
        have hminute : 1000000000 ≤ t.nanos → (t.seconds - days * 86400) % 60 = 59 := fun hn => by
          have := hleap hn
          omega
        rw [Timestamp.make?, dif_pos ⟨hnanos, hminute, hfirst, by omega⟩]
        exact Option.some_ne_none _
  unfold daysBefore
  split
  · exact .pure _
  · exact absurd ‹_› hsome

theorem noteUsage_tame (user device : String) (client : Client) (entries : Nat) (isQuery : Bool)
    (h : ∀ e time, e.user = user → may (.recordUsage e time)) :
    Tame w may (noteUsage w user device client entries isQuery) := by
  unfold noteUsage
  refine .ite (.pure _) (.bind (readClock_tame w) fun time => .rescue ?_ fun e => ?_)
  · exact .of_steady (Store.recordUsage_steady _ _ fun i => h _ i rfl)
  · split
    · exact .pure _
    · exact ⟨.fail _, fun _ => .fail _, fun hw => absurd hw ‹_›⟩

end Parts

section Calls

theorem enforceCap_looks (user : String) : Looks (enforceCap w user) := by
  unfold enforceCap
  split
  · exact .pure _
  · refine .bind (Store.userExists_looks _ _) fun known => .ite (.pure _) ?_
    refine .bind (Store.countUsers_looks _) fun registered => ?_
    exact .ite (.fail (by simp [RelayError.kind])) (.pure _)

theorem enroll_tame (r : Registration) (client : Client) :
    Tame w (Call.may w.config (.register r client)) (enroll w r client) := by
  unfold enroll
  refine .bind (.of_looks (enforceCap_looks w _)) fun _ => .bind (readClock_tame w) fun now =>
    .bind (.of_looks (Store.otherActiveDevices_looks _ _ _)) fun existing => .bind ?_ fun _ =>
      .ite (.bind ?_ fun _ => .pure _) (.pure _)
  · exact .of_steady (Store.upsertDevice_steady _ _ fun i => ⟨rfl, rfl⟩)
  · exact .of_steady (Store.createDumpRequest_steady _ _ fun i => ⟨rfl, rfl, rfl⟩)

theorem register_orderly (r : Registration) (client : Client) :
    Orderly w (Call.may w.config (.register r client)) (register w r client) := by
  unfold register
  refine .bind (requireId_orderly _ _ _) fun _ => .bind (requireId_orderly _ _ _) fun _ =>
    locked_orderly (.bind (.transaction (enroll_tame w r client)) fun reply =>
      .bind ?_ fun _ => .pure _)
  exact noteUsage_tame w _ _ _ _ _ fun e time he => he

theorem pendingRequests_steady (user source : String) (hd : may (.bumpDumps user source))
    (ht : may (.bumpTombstones user source)) :
    Steady (Leads may) (pendingRequests w user source) :=
  .bind (Store.dumpRequestsForPeer_looks _ _ _).steady fun _ =>
    .bind (Store.bumpDumpRequests_steady _ _ _ hd) fun _ =>
      .bind (Store.deletionRequestsFor_looks _ _ _).steady fun _ =>
        .bind (Store.bumpDeletionRequests_steady _ _ _ ht) fun _ => .pure _

theorem insertForDevices_steady (refusals : Refusals) (entries : List Entry)
    (devices : List String) (origin : Option String) (chunk : Nat)
    (h : ∀ rows : List EntryRow, (∀ row ∈ rows, ∃ e ∈ entries, ∃ date device flag,
      row = EntryRow.copy e date device flag) → may (.addEntries rows)) :
    Steady (Leads may) (Store.insertForDevices refusals entries devices origin chunk) := by
  refine .bind (Store.storedTimes_looks _).steady fun dates =>
    Store.insertRuns_steady _ _ fun run hrun => h run fun row hrow => ?_
  have hmem : row ∈ Entries.fanOut (entries.zip dates) origin devices := by
    rw [← Entries.flatten_runs chunk (Entries.fanOut _ _ _)]
    exact List.mem_flatten_of_mem hrun hrow
  obtain ⟨device, -, hcopy⟩ := List.mem_flatMap.1 hmem
  obtain ⟨⟨e, date⟩, hz, rfl⟩ := List.mem_map.1 hcopy
  exact ⟨e, (List.of_mem_zip hz).1, date, device, _, rfl⟩

theorem distribute_steady (user : String) (batch : List Entry) (source : Option String)
    (client : Client)
    (hrows : ∀ rows : List EntryRow, (∀ row ∈ rows, ∃ e ∈ batch, ∃ date device flag,
      row = EntryRow.copy e date device flag) → may (.addEntries rows))
    (hd : ∀ s ∈ source, may (.bumpDumps user s))
    (ht : ∀ s ∈ source, may (.bumpTombstones user s)) :
    Steady (Leads may) (distribute w user batch source client) := by
  unfold distribute
  refine .bind (Store.activeDevices_looks _ _).steady fun active =>
    .ite (.fail (by simp [RelayError.kind])) ?_
  refine .bind (insertForDevices_steady _ _ _ _ _ hrows) fun _ => ?_
  split
  · exact .ite (pendingRequests_steady w _ _ (hd _ rfl) (ht _ rfl)) (.pure _)
  · exact .pure _

theorem submit_orderly (batch : List Entry) (source : Option String) (client : Client) :
    Orderly w (Call.may w.config (.submit batch source client))
      (submit w batch source client) := by
  cases batch with
  | nil => exact .pure _
  | cons first rest =>
    unfold submit
    refine .bind (requireId_orderly _ _ _) fun _ => ?_
    split
    · exact .fail (by simp [RelayError.kind])
    · rename_i hsame
      have huser : ∀ e ∈ first :: rest, e.user = first.user := by
        simpa using hsame
      refine locked_orderly (.bind (.transaction (.of_steady ?_)) fun reply =>
        .bind (noteUsage_tame w _ _ _ _ _ fun e time he => he) fun _ => .pure _)
      refine distribute_steady w _ _ _ _ (fun rows hrows row hrow => ?_) ?_ ?_
      · obtain ⟨e, he, date, device, flag, rfl⟩ := hrows row hrow
        exact ⟨huser e he, rfl⟩
      · intro s hs
        obtain ⟨rfl, -⟩ := Option.filter_eq_some_iff.1 hs
        exact ⟨rfl, rfl⟩
      · intro s hs
        obtain ⟨rfl, -⟩ := Option.filter_eq_some_iff.1 hs
        exact ⟨rfl, rfl⟩

theorem applyDeletions_steady (user device : String)
    (h : ∀ which : EntryRow → Bool, (∀ row, which row → row.user = user) →
      may (.dropEntries which)) :
    Steady (Leads may) (applyDeletions w user device) := by
  unfold applyDeletions
  refine .bind_of_answer (Store.deletionRequestsFor_looks _ _ _).steady fun s requests t hs => ?_
  have huser := Store.user_of_deletionRequestsFor hs
  clear hs
  induction requests with
  | nil => exact .pure ()
  | cons r rest ih =>
    have hrest := ih fun q hq => huser q (List.mem_cons_of_mem r hq)
    refine .bind (Store.deleteMatching_steady _ _ _ fun m _ => h _ fun row hrow => ?_)
      fun _ => hrest
    rw [← huser r List.mem_cons_self]
    simpa using (Bool.and_eq_true_iff.1 hrow).1

theorem fetchPending_steady (user device : String)
    (h : ∀ which : EntryRow → Bool, (∀ row, which row → row.user = user) →
      may (.dropEntries which)) :
    Steady (Leads may) (do
      transaction (applyDeletions w user device)
      Store.pendingEntries w.refusals user device w.config.queryReadLimit) :=
  .bind (.transaction (applyDeletions_steady w _ _ h)) fun _ =>
    (Store.pendingEntries_looks _ _ _ _).steady

theorem readPending_orderly (user device : String) (reason : Option String) (client : Client)
    (h : ∀ which : EntryRow → Bool, (∀ row, which row → row.user = user) → may (.dropEntries which))
    (hu : ∀ e time, e.user = user → may (.recordUsage e time)) :
    Orderly w may (readPending w user device reason client) := by
  unfold readPending
  refine .bind (requireId_orderly _ _ _) fun _ => .bind (requireId_orderly _ _ _) fun _ =>
    locked_orderly ?_
  have hfetch := Tame.of_steady (w := w) (fetchPending_steady w user device h)
  exact .ite hfetch (.bind (noteUsage_tame w _ _ _ _ _ hu) fun _ => hfetch)

theorem query_orderly (user device : String) (reason : Option String) (client : Client) :
    Orderly w (Call.may w.config (.query user device reason client))
      (query w user device reason client) := by
  have hcount : Orderly w (Call.may w.config (.query user device reason client))
      (countRead w user device) :=
    .bind (locked_orderly (.of_steady (Store.bumpEntries_steady _ _ _ ⟨rfl, rfl⟩))) fun _ => .pure _
  unfold query
  refine .bind (readPending_orderly w _ _ _ _ (fun which hw => hw) fun e time he => he) fun found =>
    .ite (.bind (.rescue hcount fun _ => .pure _) fun _ => .pure _) (.bind hcount fun _ => .pure _)

theorem bootstrap_orderly (user device : String) (client : Client) :
    Orderly w (Call.may w.config (.bootstrap user device client))
      (bootstrap w user device client) := by
  unfold bootstrap
  refine .bind (requireId_orderly _ _ _) fun _ => .bind (requireId_orderly _ _ _) fun _ =>
    locked_orderly ?_
  refine .bind (noteUsage_tame w _ _ _ _ _ fun e time he => he) fun _ => ?_
  exact .of_looks (Store.entriesOfUser_looks _ _)

theorem insertAsIs_steady (refusals : Refusals) (entries : List Entry) (chunk : Nat)
    (h : ∀ rows : List EntryRow, (∀ row ∈ rows, ∃ e ∈ entries, ∃ date,
      row = EntryRow.copy e date e.device false) → may (.addEntries rows)) :
    Steady (Leads may) (Store.insertAsIs refusals entries chunk) := by
  refine .bind (Store.storedTimes_looks _).steady fun dates =>
    Store.insertRuns_steady _ _ fun run hrun => h run fun row hrow => ?_
  have hmem := List.mem_flatten_of_mem hrun hrow
  rw [Entries.flatten_runs] at hmem
  obtain ⟨⟨e, date⟩, hz, rfl⟩ := List.mem_map.1 hmem
  exact ⟨e, (List.of_mem_zip hz).1, date, rfl⟩

theorem storeDump_steady (user requester : String) (isChunk : Bool) (dump : List Entry)
    (h : ∀ rows : List EntryRow, (∀ row ∈ rows, ∃ e ∈ dump, ∃ date,
      row = EntryRow.copy { e with device := requester } date requester false) →
        may (.addEntries rows))
    (hd : may (.dropDumps (·.isBy user requester))) :
    Steady (Leads may) (storeDump w user requester isChunk dump) := by
  unfold storeDump
  refine .bind (insertAsIs_steady _ _ _ fun rows hrows => h rows fun row hrow => ?_) fun _ =>
    .ite (.pure _) (.bind (Store.deleteDumpRequests_steady _ _ hd) fun _ => .pure _)
  obtain ⟨e, he, date, rfl⟩ := hrows row hrow
  obtain ⟨e, hin, rfl⟩ := List.mem_map.1 he
  exact ⟨e, hin, date, rfl⟩

theorem submitDump_orderly (user source requester : String) (isChunk : Bool) (dump : List Entry)
    (client : Client) :
    Orderly w (Call.may w.config (.submitDump user source requester isChunk dump client))
      (submitDump w user source requester isChunk dump client) := by
  unfold submitDump
  refine .bind (requireId_orderly _ _ _) fun _ => .bind (requireId_orderly _ _ _) fun _ =>
    .bind (requireId_orderly _ _ _) fun _ => ?_
  split
  · exact .fail (by simp [RelayError.kind])
  · rename_i hsame
    have huser : ∀ e ∈ dump, e.user = user := by
      simpa using hsame
    refine locked_orderly (.bind (.transaction (.of_steady ?_)) fun _ =>
      .bind (noteUsage_tame w _ _ _ _ _ fun e time he => he) fun _ => .pure _)
    refine storeDump_steady w _ _ _ _ (fun rows hrows row hrow => ?_) rfl
    obtain ⟨e, he, date, rfl⟩ := hrows row hrow
    exact ⟨huser e he, rfl, rfl⟩

theorem deliverDumpRequests_steady (user device : String) :
    Steady (Leads (Call.may w.config (.dumpRequests user device)))
      (deliverDumpRequests w user device) :=
  .bind (Store.dumpRequestsForPeer_looks _ _ _).steady fun _ =>
    .bind (Store.bumpDumpRequests_steady _ _ _ ⟨rfl, rfl⟩) fun _ => .pure _

theorem pendingDumpRequests_orderly (user device : String) :
    Orderly w (Call.may w.config (.dumpRequests user device))
      (pendingDumpRequests w user device) :=
  .bind (requireId_orderly _ _ _) fun _ => .bind (requireId_orderly _ _ _) fun _ =>
    locked_orderly (.transaction (.of_steady (deliverDumpRequests_steady w user device)))

theorem bury_steady (r : DeletionRequest) :
    Steady (Leads (Call.may w.config (.addDeletion r))) (bury w r) := by
  unfold bury
  refine .bind (Store.activeDevices_looks _ _).steady fun active =>
    .ite (.fail (by simp [RelayError.kind]))
      (.bind ?_ fun _ => Store.deleteMatching_steady _ _ _ ?_)
  · exact Store.createDeletionRequests_steady _ _ _ fun device _ time => ⟨rfl, rfl, rfl⟩
  · intro m _ row hrow
    simpa using (Bool.and_eq_true_iff.1 hrow).1

theorem addDeletionRequest_orderly (r : DeletionRequest) :
    Orderly w (Call.may w.config (.addDeletion r)) (addDeletionRequest w r) := by
  unfold addDeletionRequest
  refine .bind (requireId_orderly _ _ _) fun _ => ?_
  split
  · exact .fail (by simp [RelayError.kind])
  · exact locked_orderly (.transaction (.of_steady (bury_steady w r)))

theorem deliverDeletionRequests_steady (user device : String) :
    Steady (Leads (Call.may w.config (.deletionRequests user device)))
      (deliverDeletionRequests w user device) :=
  .bind (Store.bumpDeletionRequests_steady _ _ _ ⟨rfl, rfl⟩) fun _ =>
    (Store.deletionRequestsFor_looks _ _ _).steady

theorem deletionRequests_orderly (user device : String) :
    Orderly w (Call.may w.config (.deletionRequests user device))
      (deletionRequests w user device) :=
  .bind (requireId_orderly _ _ _) fun _ => .bind (requireId_orderly _ _ _) fun _ =>
    locked_orderly (.transaction (.of_steady (deliverDeletionRequests_steady w user device)))

theorem withdraw_tame (user device : String) :
    Tame w (Call.may w.config (.uninstall user device)) (withdraw w user device) := by
  refine .bind (.of_steady ?_) fun _ => .bind (.of_steady ?_) fun _ =>
    .bind (.of_steady ?_) fun _ => .bind (readClock_tame w) fun now =>
      .bind (.of_steady ?_) fun _ => .pure _
  · exact Store.deleteEntries_steady _ _ rfl
  · exact Store.deleteDeletionRequests_steady _ _ rfl
  · exact Store.deleteDumpRequests_steady _ _ rfl
  · exact Store.markUninstalled_steady _ _ _ _ fun date => ⟨rfl, rfl⟩

theorem uninstall_orderly (user device : String) :
    Orderly w (Call.may w.config (.uninstall user device)) (uninstall w user device) :=
  .bind (requireId_orderly _ _ _) fun _ => .bind (requireId_orderly _ _ _) fun _ =>
    locked_orderly (.transaction (withdraw_tame w user device))

theorem recordFeedback_orderly (f : Feedback) :
    Orderly w (Call.may w.config (.recordFeedback f)) (recordFeedback w f) := by
  unfold recordFeedback
  refine .bind (requireId_orderly _ _ _) fun _ => locked_orderly ?_
  exact .of_steady (Store.insertFeedback_steady _ _ fun date => rfl)

theorem sweep_orderly : Orderly w (Call.may w.config .sweep) (sweep w) := by
  unfold sweep
  refine locked_orderly (.bind (.of_steady ?_) fun _ => .bind (.of_steady ?_) fun _ =>
    .bind (.of_steady ?_) fun _ => .pure _)
  · exact Store.deleteEntries_steady _ _ rfl
  · exact Store.deleteDeletionRequests_steady _ _ rfl
  · exact Store.deleteDumpRequests_steady _ _ rfl

theorem trimUsers_steady (cutoff : Timestamp) (users : List String)
    (h : ∀ which, may (.dropEntries which)) :
    Steady (Leads may) (trimUsers w cutoff users) := by
  induction users with
  | nil => exact .pure 0
  | cons user rest ih =>
    exact .bind (Store.deleteEntriesUpTo_steady _ _ _ fun date => h _) fun _ =>
      .bind ih fun _ => .pure _

theorem removeDevices_steady (ds : List (String × String)) (he : ∀ which, may (.dropEntries which))
    (ht : ∀ user device, may (.dropTombstones (·.isFor user device)))
    (hd : ∀ user device, may (.dropDumps (·.isBy user device)))
    (hr : ∀ user device, may (.removeDevice user device)) :
    Steady (Leads may) (removeDevices w ds) := by
  induction ds with
  | nil => exact .pure (0, 0)
  | cons d rest ih =>
    obtain ⟨user, device⟩ := d
    exact .bind (Store.deleteEntries_steady _ _ (he _)) fun _ =>
      .bind (Store.deleteDeletionRequests_steady _ _ (ht _ _)) fun _ =>
        .bind (Store.deleteDumpRequests_steady _ _ (hd _ _)) fun _ =>
          .bind (Store.deleteDevice_steady _ _ _ (hr _ _)) fun _ => .bind ih fun _ => .pure _

theorem cleanUp_steady (now cutoff : Timestamp) :
    Steady (Leads (Call.may w.config (.deepClean now))) (cleanUp w cutoff) := by
  refine .bind (Store.inactiveUsers_looks _ _).steady fun inactive =>
    .bind (trimUsers_steady w _ _ fun _ => trivial) fun _ =>
      .bind (Store.usersOver_looks _ _).steady fun overgrown =>
        .bind (trimUsers_steady w _ _ fun _ => trivial) fun _ =>
          .bind (Store.staleTestDevices_looks _ _).steady fun stale => .bind ?_ fun _ => .pure _
  exact removeDevices_steady w stale (fun _ => trivial) (fun user device => ⟨user, device, rfl⟩)
    (fun user device => ⟨user, device, rfl⟩) fun _ _ => trivial

theorem deepClean_orderly (now : Timestamp) :
    Orderly w (Call.may w.config (.deepClean now)) (deepClean w now) :=
  .bind ⟨daysBefore_moves _ _, fun _ => daysBefore_critical _ _⟩ fun cutoff =>
    locked_orderly (.transaction (.of_steady (cleanUp_steady w now cutoff)))

theorem wipeEntries_orderly : Orderly w (Call.may w.config .wipe) (wipeEntries w) := by
  unfold wipeEntries
  refine .ite (locked_orderly (.of_steady ?_)) (.fail (by simp [RelayError.kind]))
  exact Store.deleteEntries_steady _ _ trivial

theorem statistics_orderly : Orderly w may (statistics w) := by
  refine locked_orderly (.bind_of_answer (readClock_tame w) fun s now t hnow => ?_)
  have hclock : 0 ≤ w.clock.seconds → 0 ≤ now.seconds := fun hw => by
    unfold readClock at hnow
    rw [if_neg (Int.not_lt.2 hw)] at hnow
    rwa [← (pure_eq_answer.1 hnow).1]
  have hback {days : Nat} (hd : days ≤ 7) :
      Tame w may (daysBefore now days : Step Store Timestamp) :=
    ⟨daysBefore_moves _ _, fun hw => daysBefore_calm (hclock hw) hd,
      fun _ => daysBefore_critical _ _⟩
  exact .bind (hback (by decide)) fun _ => .bind (.of_looks (Store.countUsers_looks _)) fun _ =>
    .bind (.of_looks (Store.countDevices_looks _)) fun _ =>
      .bind (.of_looks (Store.totalEntriesHandled_looks _)) fun _ =>
        .bind (.of_looks (Store.countEntries_looks _)) fun _ =>
          .bind (.of_looks (Store.countActiveSince_looks _ _)) fun _ =>
            .bind (.of_looks (Store.countQueriedSince_looks _ _)) fun _ =>
              .bind (hback (by decide)) fun _ =>
                .bind (.of_looks (Store.countFeedbackSince_looks _ _)) fun _ =>
                  .bind (.of_looks (Store.lastRegistration_looks _)) fun _ => .pure _

theorem usageStatistics_orderly : Orderly w may (usageStatistics w) :=
  locked_orderly (.of_looks (Store.usageSummaries_looks _))

theorem ping_orderly : Orderly w may ping := locked_orderly (.pure ())

end Calls

end Relay

namespace Turn
open Step

theorem orderly (t : Turn) : Relay.Orderly t.setting t.may t.take := by
  obtain ⟨w, call⟩ := t
  suffices h : Relay.Orderly w (call.may w.config) (call.perform w) from h
  cases call with
  | register r client => exact .map _ (Relay.register_orderly w r client)
  | submit batch source client => exact .map _ (Relay.submit_orderly w batch source client)
  | query user device reason client =>
    exact .map _ (Relay.query_orderly w user device reason client)
  | bootstrap user device client => exact .map _ (Relay.bootstrap_orderly w user device client)
  | submitDump user source requester isChunk dump client =>
    exact .map _ (Relay.submitDump_orderly w user source requester isChunk dump client)
  | dumpRequests user device => exact .map _ (Relay.pendingDumpRequests_orderly w user device)
  | addDeletion r => exact .map _ (Relay.addDeletionRequest_orderly w r)
  | deletionRequests user device => exact .map _ (Relay.deletionRequests_orderly w user device)
  | uninstall user device => exact .map _ (Relay.uninstall_orderly w user device)
  | recordFeedback f => exact .map _ (Relay.recordFeedback_orderly w f)
  | statistics => exact .map _ (Relay.statistics_orderly w)
  | usageStatistics => exact .map _ (Relay.usageStatistics_orderly w)
  | wipe => exact .map _ (Relay.wipeEntries_orderly w)
  | ping => exact .map _ (Relay.ping_orderly w)
  | sweep => exact .map _ (Relay.sweep_orderly w)
  | deepClean now => exact .map _ (Relay.deepClean_orderly w now)

/-- A turn leads from store to store by the changes that its call may make. -/
theorem leads (t : Turn) (r : Relay) : Leads t.may r.store (t.take r).2.store :=
  (t.orderly.moves r).1

theorem poisoned_take (t : Turn) (r : Relay) (h : 0 ≤ t.setting.clock.seconds) :
    (t.take r).2.poisoned = r.poisoned :=
  (t.orderly.moves r).2 h

end Turn

namespace Relay

/-- What every single change keeps true of the store is true after any run from an empty one. -/
theorem run_keeps {P : Store → Prop} {r : Relay} (turns : List Turn) (hr : P r.store)
    (hc : ∀ t ∈ turns, ∀ c s, t.may c → P s → P (c.apply s)) : P (r.run turns).store := by
  induction turns generalizing r with
  | nil => exact hr
  | cons t rest ih =>
    rw [run_cons]
    have ht := (t.leads r).keeps hr (hc t List.mem_cons_self)
    exact ih ht fun u hu => hc u (List.mem_cons_of_mem t hu)

theorem poisoned_run {turns : List Turn} (h : ∀ t ∈ turns, 0 ≤ t.setting.clock.seconds)
    (r : Relay) : (r.run turns).poisoned = r.poisoned := by
  induction turns generalizing r with
  | nil => rfl
  | cons t rest ih =>
    rw [run_cons, ih (fun u hu => h u (List.mem_cons_of_mem t hu))]
    exact t.poisoned_take r (h t List.mem_cons_self)

end Relay

end HistoryRelay
