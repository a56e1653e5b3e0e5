import HistoryRelay.Proofs.Ledger
import HistoryRelay.Proofs.Results

/-! Entries, tombstones and dump requests only age. Main statement: whatever a turn does and
whatever comes of it, rows go, count one read or come in unread at the end, and nothing else in them
changes; so over any run a number stands for one row whose count does not fall. -/
namespace HistoryRelay
open Step Ledger

section Tables

instance : Ledger EntryRow where
  id := EntryRow.id
  reads := EntryRow.readCount
  recount n x := { x with readCount := n }
  rows := Store.entries
  last := Store.lastEntry
  id_recount _ _ := rfl
  reads_recount _ _ := rfl
  recount_recount _ _ _ := rfl
  recount_reads _ := rfl
  rows_empty := rfl
  rows_besides _ := rfl
  last_besides _ := rfl
  ascending := Relay.ascending_entries_run
  furthers
    | .addEntries _ | .bumpEntries .. => true
    | _ => false
  drops
    | .dropEntries which => which
    | _ => fun _ => false
  rows_of_not_furthers c s h := by
    cases c with
    | addEntries | bumpEntries => cases h
    | dropEntries which => exact ⟨rfl, rfl⟩
    | _ => exact ⟨by simp [Change.apply], rfl⟩

instance : Ledger DumpRow where
  id := DumpRow.id
  reads := DumpRow.readCount
  recount n x := { x with readCount := n }
  rows := Store.dumpRequests
  last := Store.lastDump
  id_recount _ _ := rfl
  reads_recount _ _ := rfl
  recount_recount _ _ _ := rfl
  recount_reads _ := rfl
  rows_empty := rfl
  rows_besides _ := rfl
  last_besides _ := rfl
  ascending := Relay.ascending_dumps_run
  furthers
    | .addDump _ | .bumpDumps .. => true
    | _ => false
  drops
    | .dropDumps which => which
    | _ => fun _ => false
  rows_of_not_furthers c s h := by
    cases c with
    | addDump | bumpDumps => cases h
    | dropDumps which => exact ⟨rfl, rfl⟩
    | _ => exact ⟨by simp [Change.apply], rfl⟩

instance : Ledger DeletionRow where
  id := DeletionRow.id
  reads := DeletionRow.readCount
  recount n x := { x with readCount := n }
  rows := Store.deletionRequests
  last := Store.lastDeletion
  id_recount _ _ := rfl
  reads_recount _ _ := rfl
  recount_recount _ _ _ := rfl
  recount_reads _ := rfl
  rows_empty := rfl
  rows_besides _ := rfl
  last_besides _ := rfl
  ascending := Relay.ascending_tombstones_run
  furthers
    | .addTombstone _ | .bumpTombstones .. => true
    | _ => false
  drops
    | .dropTombstones which => which
    | _ => fun _ => false
  rows_of_not_furthers c s h := by
    cases c with
    | addTombstone | bumpTombstones => cases h
    | dropTombstones which => exact ⟨rfl, rfl⟩
    | _ => exact ⟨by simp [Change.apply], rfl⟩

end Tables

theorem Turn.deepClean_cases (w : Setting) (now : Timestamp) (r : Relay) :
    ((Turn.mk w (.deepClean now)).take r).2.store = r.store ∨
      ∃ date, ((Turn.mk w (.deepClean now)).take r).2.store = r.store.cleaned w.config date := by
  have htake : ((Turn.mk w (.deepClean now)).take r).2 = (Relay.deepClean w now r).2 :=
    (map_answered _ _ r).2
  rw [htake]
  exact Relay.deepClean_cases w now r

/-- What is for a device goes with it when a deep clean takes it, a test device. -/
theorem Ledger.Custom.follows_of_deepClean {α : Type} [Ledger α] {c : Custom α} {w : Setting}
    {now : Timestamp} {r : Relay} (key : α → String × String)
    (hc : (fun x => c.counts x ⟨w, .deepClean now⟩ r) = fun _ => false)
    (hrows : ∀ date, (rows (r.store.cleaned w.config date) : List α) =
      (rows r.store).filter fun x =>
        !(Devices.staleTests date r.store.usage r.store.devices).contains (key x))
    (hlast : ∀ date, last α (r.store.cleaned w.config date) = last α r.store)
    (hr : ∀ x, (∃ d ∈ r.store.devices, d.isTest = true ∧ d.key = key x) ∧
      (∀ d ∈ ((Turn.mk w (.deepClean now)).take r).2.store.devices, d.key ≠ key x) →
        c.removed x ⟨w, .deepClean now⟩ r) : c.Follows ⟨w, .deepClean now⟩ r := by
  obtain hs | ⟨date, hs⟩ := Turn.deepClean_cases w now r
  · exact follows_of_same hc hs
  · have hages := Ages.of_filter (hrows date) (hlast date)
    rw [← hs] at hages
    refine follows_of_ages hc hages (fun x hx => hr x ?_) fun _ hx => nomatch hx
    rw [hs]
    exact Store.test_of_stale (List.contains_iff_mem.1 hx)

section Told
variable (s : Store) (informed : Option (String × String))

theorem Store.entries_told : (s.told informed).entries = s.entries := by
  cases informed <;> rfl

theorem Store.lastEntry_told : (s.told informed).lastEntry = s.lastEntry := by
  cases informed <;> rfl

theorem Store.lastDump_told : (s.told informed).lastDump = s.lastDump := by
  cases informed <;> rfl

theorem Store.lastDeletion_told : (s.told informed).lastDeletion = s.lastDeletion := by
  cases informed <;> rfl

end Told

section Entries

theorem ages_addEntries {rows : List EntryRow} (h : ∀ row ∈ rows, row.readCount = 0) (s : Store) :
    Ages (fun _ => false) (fun _ => false) (Entries.numbered s.lastEntry rows) s
      ((Change.addEntries rows).apply s) := by
  refine .of_append rfl ?_ (fun x hx => ?_) fun x hx => (Entries.mem_numbered hx).1
  · exact congrArg (s.lastEntry + ·) (Entries.length_numbered _ _).symm
  · obtain ⟨-, row, hrow, he⟩ := Entries.mem_numbered hx
    rw [he]
    exact h row hrow

theorem Call.furthers_entries {config : Config} {call : Call} {c : Change}
    (h : call.may config c) (hf : furthers EntryRow c = true) :
    (∃ batch source client, call = .submit batch source client) ∨
      (∃ user source requester isChunk dump client,
        call = .submitDump user source requester isChunk dump client) ∨
      ∃ user device reason client, call = .query user device reason client := by
  cases c with
  | addEntries rows =>
    cases call with
    | submit batch source client => exact .inl ⟨_, _, _, rfl⟩
    | submitDump => exact .inr (.inl ⟨_, _, _, _, _, _, rfl⟩)
    | _ => exact h.elim
  | bumpEntries user device =>
    cases call with
    | submit batch source client => exact .inl ⟨_, _, _, rfl⟩
    | query => exact .inr (.inr ⟨_, _, _, _, rfl⟩)
    | _ => exact h.elim
  | _ => cases hf

theorem Turn.entries_submit (w : Setting) (batch : List Entry) (source : Option String)
    (client : Client) (r : Relay) : ∃ fresh : List EntryRow,
      Ages (fun _ => false) (fun _ => false) fresh r.store
        ((Turn.mk w (.submit batch source client)).take r).2.store := by
  obtain ⟨hs, -⟩ | ⟨rows, hrows, hs, -⟩ := submit_cases w batch source client r
  · rw [hs]
    exact ⟨_, .refl r.store⟩
  · exact ⟨_, .besides hs ((ages_addEntries hrows r.store).congr (Store.entries_told _ _)
      (Store.lastEntry_told _ _))⟩

theorem Turn.entries_submitDump (w : Setting) (user source requester : String) (isChunk : Bool)
    (dump : List Entry) (client : Client) (r : Relay) : ∃ fresh : List EntryRow,
      Ages (fun _ => false) (fun _ => false) fresh r.store
        ((Turn.mk w (.submitDump user source requester isChunk dump client)).take r).2.store := by
  obtain ⟨hs, -⟩ | ⟨answer, s, hbody, hs, -⟩ :=
    work_cases (t := ⟨w, .submitDump user source requester isChunk dump client⟩) rfl r
  · rw [hs]
    exact ⟨_, .refl r.store⟩
  · obtain ⟨n, hbody, -⟩ := map_eq_answer.1 hbody
    obtain ⟨-, rfl⟩ := Relay.storeDump_answer hbody
    have hunread : ∀ row ∈ Entries.received requester dump, row.readCount = 0 := fun _ =>
      Entries.readCount_received
    refine ⟨_, .besides hs ((ages_addEntries hunread r.store).congr ?_ ?_)⟩
    · cases isChunk <;> rfl
    · cases isChunk <;> rfl

/-- The half of a query that reads lets rows go, the other one counts what is left for the
device. -/
theorem Relay.entries_query (w : Setting) (user device : String) (reason : Option String)
    (client : Client) (r : Relay) : ∃ gone counted : EntryRow → Bool,
      Ages gone counted [] r.store (query w user device reason client r).2.store := by
  have hread : Leads (fun c => furthers EntryRow c = false) r.store
      (readPending w user device reason client r).2.store :=
    ((readPending_orderly w user device reason client (fun _ _ => rfl) fun _ _ _ => rfl).moves r).1
  obtain ⟨gone, -, hread⟩ := ages_of_leads hread fun _ hc => hc
  refine ⟨gone, ?_⟩
  obtain ⟨-, -, -, hs⟩ | ⟨-, hs⟩ := query_cases w user device reason client r
  · obtain ⟨-, hc⟩ | ⟨-, hc⟩ := countRead_cases w user device
      (readPending w user device reason client r).2
    · rw [hs, hc]
      exact ⟨(·.isFor user device), hread.count rfl rfl⟩
    · rw [hs, hc]
      exact ⟨_, hread⟩
  · rw [hs]
    exact ⟨_, hread⟩

theorem Turn.entries_age (t : Turn) (r : Relay) :
    ∃ (gone counted : EntryRow → Bool) (fresh : List EntryRow),
      Ages gone counted fresh r.store (t.take r).2.store ∧
      (fresh ≠ [] → (∃ batch source client, t.call = .submit batch source client) ∨
        ∃ user source requester isChunk dump client,
          t.call = .submitDump user source requester isChunk dump client) := by
  by_cases hf : ∃ c, t.may c ∧ furthers EntryRow c = true
  · obtain ⟨c, hc, hf⟩ := hf
    obtain ⟨w, call⟩ := t
    obtain ⟨batch, source, client, rfl⟩ | ⟨user, source, requester, isChunk, dump, client, rfl⟩ |
      ⟨user, device, reason, client, rfl⟩ := Call.furthers_entries hc hf
    · obtain ⟨fresh, h⟩ := entries_submit w batch source client r
      exact ⟨_, _, fresh, h, fun _ => .inl ⟨_, _, _, rfl⟩⟩
    · obtain ⟨fresh, h⟩ :=
        entries_submitDump w user source requester isChunk dump client r
      exact ⟨_, _, fresh, h, fun _ => .inr ⟨_, _, _, _, _, _, rfl⟩⟩
    · obtain ⟨gone, counted, h⟩ := Relay.entries_query w user device reason client r
      exact ⟨gone, counted, [], Turn.take_query.2 ▸ h, fun hne => absurd rfl hne⟩
  · obtain ⟨gone, -, h⟩ := ages_of_leads (α := EntryRow) (t.leads r) fun c hc => by
      simpa using fun hf' => hf ⟨c, hc, hf'⟩
    exact ⟨gone, _, [], h, fun hne => absurd rfl hne⟩

end Entries

section Deliveries

/-- Whom a call lists dump requests for, the user and the peer. -/
def Call.listsDumps? : Call → Option (String × String)
  | .dumpRequests user device => some (user, device)
  | call => call.informs?

/-- Whom a call lists tombstones for, the user and the device. A query applies them and lists
none. -/
def Call.listsTombstones? : Call → Option (String × String)
  | .deletionRequests user device => some (user, device)
  | call => call.informs?

theorem Call.listsDumps?_eq_some {call : Call} {user device : String} :
    call.listsDumps? = some (user, device) ↔
      call = .dumpRequests user device ∨ call.informs? = some (user, device) := by
  cases call <;> simp [listsDumps?, informs?]

theorem Call.listsTombstones?_eq_some {call : Call} {user device : String} :
    call.listsTombstones? = some (user, device) ↔
      call = .deletionRequests user device ∨ call.informs? = some (user, device) := by
  cases call <;> simp [listsTombstones?, informs?]

/-- The turn's work is done, and it has listed something for one whom that is meant for. -/
def Turn.delivered (whom : Option (String × String)) (isFor : String → String → Bool) (t : Turn)
    (r : Relay) : Bool :=
  (whom.any fun p => isFor p.1 p.2) && (t.take r).1.committed

def DumpRow.isListed (x : DumpRow) (t : Turn) (r : Relay) : Bool :=
  t.delivered t.call.listsDumps? x.isForPeer r

def DeletionRow.isListed (x : DeletionRow) (t : Turn) (r : Relay) : Bool :=
  t.delivered t.call.listsTombstones? x.isFor r

namespace Turn
variable {α : Type} {isFor : α → String → String → Bool} {o : Option (String × String)} {t : Turn}
  {r : Relay}

theorem delivered_iff {isFor : String → String → Bool} : t.delivered o isFor r = true ↔
    ∃ user device, o = some (user, device) ∧ isFor user device = true ∧
      (t.take r).1.committed = true := by
  rw [delivered, Bool.and_eq_true, Option.any_eq_true]
  constructor
  · rintro ⟨⟨⟨user, device⟩, ho, hfor⟩, hdone⟩
    exact ⟨user, device, ho, hfor, hdone⟩
  · rintro ⟨user, device, ho, hfor, hdone⟩
    exact ⟨⟨(user, device), ho, hfor⟩, hdone⟩

theorem delivered_of_silent (h : o = none ∨ (t.take r).1.committed = false) :
    (fun x => t.delivered o (isFor x) r) = fun _ => false := by
  funext x
  obtain h | h := h
  · simp [delivered, h]
  · simp [delivered, h]

theorem delivered_of_committed (h : (t.take r).1.committed = true) :
    (fun x => t.delivered o (isFor x) r) = fun x => o.any fun p => isFor x p.1 p.2 := by
  funext x
  simp [delivered, h]

end Turn

end Deliveries

section Dumps

/-- The request of a device that registers while the user has other active ones. -/
def DumpRow.MadeBy (x : DumpRow) (t : Turn) (r : Relay) : Prop :=
  ∃ reg client, t.call = .register reg client ∧
    ((t.take r).1.committed = true ∧ (t.setting.Noting → (t.take r).1.answered = true)) ∧
    (x.user = reg.user ∧ x.requester = reg.device) ∧
    t.setting.clock.toInstant? = some x.time ∧
    0 < Devices.otherActive reg.user reg.device r.store.devices

/-- How a dump request comes to be gone: the last chunk of an upload for its requester is stored,
the requester is uninstalled, a sweep finds the request delivered too often, or a deep clean removes
the requester, a test device. -/
def Turn.RemovesDump (t : Turn) (r : Relay) (x : DumpRow) : Prop :=
  (∃ source dump client, t.call = .submitDump x.user source x.requester false dump client ∧
      (t.take r).1.committed = true) ∨
    t.call = .uninstall x.user x.requester ∨
    (t.call = .sweep ∧ t.setting.config.dumpReadCap < x.readCount) ∨
    (∃ now, t.call = .deepClean now) ∧
      (∃ d ∈ r.store.devices, d.isTest = true ∧ d.key = (x.user, x.requester)) ∧
        ∀ d ∈ (t.take r).2.store.devices, d.key ≠ (x.user, x.requester)

theorem Turn.removesDump_of_may {t : Turn} {r : Relay} {which : DumpRow → Bool} {x : DumpRow}
    (hd : ∀ now, t.call ≠ .deepClean now)
    (hs : ∀ user source requester isChunk dump client,
      t.call ≠ .submitDump user source requester isChunk dump client)
    (h : t.may (.dropDumps which)) (hx : which x = true) : t.RemovesDump r x := by
  obtain ⟨w, call⟩ := t
  cases call with
  | uninstall user device =>
    obtain rfl : which = _ := h
    obtain ⟨rfl, rfl⟩ := DumpRow.isBy_iff.1 hx
    exact .inr (.inl rfl)
  | sweep =>
    obtain rfl : which = _ := h
    exact .inr (.inr (.inl ⟨rfl, of_decide_eq_true hx⟩))
  | submitDump user source requester isChunk dump client => exact absurd rfl (hs _ _ _ _ _ _)
  | deepClean now => exact absurd rfl (hd now)
  | submit batch source client =>
    cases batch with
    | nil => exact h.elim
    | cons first rest => cases source <;> exact h.elim
  | _ => exact h.elim

theorem Store.dumpRequests_told (s : Store) (informed : Option (String × String)) :
    (s.told informed).dumpRequests = s.dumpRequests.map fun x =>
      if informed.any fun p => x.isForPeer p.1 p.2 then { x with readCount := x.readCount + 1 }
      else x := by
  cases informed with
  | none => simp [told]
  | some p => rfl

def dumpCustom : Custom DumpRow where
  counts := DumpRow.isListed
  made := DumpRow.MadeBy
  removed x t r := t.RemovesDump r x

namespace Turn

theorem dumps_register (w : Setting) (reg : Registration) (client : Client) (r : Relay) :
    dumpCustom.Follows ⟨w, .register reg client⟩ r := by
  obtain ⟨hs, -⟩ | ⟨answer, s, hbody, hs, hdone, -, hanswer⟩ :=
    work_cases (t := ⟨w, .register reg client⟩) rfl r
  · exact Custom.follows_of_same rfl hs
  · obtain ⟨reply, hbody, -⟩ := map_eq_answer.1 hbody
    obtain ⟨-, -, time, htime, rfl⟩ := Relay.enroll_answer hbody
    by_cases hpeers : 0 < Devices.otherActive reg.user reg.device r.store.devices
    · rw [if_pos hpeers] at hs
      refine Custom.follows_of_ages rfl
        (.besides hs (.of_append rfl rfl (fun x hx => ?_) fun x hx => ?_))
        (fun _ hx => nomatch hx) fun x hx => ?_
      · exact List.mem_singleton.1 hx ▸ rfl
      · exact List.mem_singleton.1 hx ▸ Nat.lt_succ_self _
      · obtain rfl := List.mem_singleton.1 hx
        refine ⟨reg, client, rfl, ⟨hdone, fun hw => ?_⟩, ⟨rfl, rfl⟩, htime, hpeers⟩
        exact congrArg Outcome.answered (hanswer (.inl hw))
    · rw [if_neg hpeers] at hs
      exact Custom.follows_of_counted rfl
        (.besides hs (.congr (.refl _) rfl rfl))

theorem dumps_submit (w : Setting) (batch : List Entry) (source : Option String)
    (client : Client) (r : Relay) : dumpCustom.Follows ⟨w, .submit batch source client⟩ r := by
  obtain ⟨hs, hno⟩ | ⟨rows, -, hs, hdone⟩ := submit_cases w batch source client r
  · exact Custom.follows_of_same (delivered_of_silent hno) hs
  · exact Custom.follows_of_counted (delivered_of_committed hdone) (.besides hs
      ((Ages.refl _).count (Store.dumpRequests_told _ _) (Store.lastDump_told _ _)))

theorem dumps_listed (w : Setting) (user device : String) (r : Relay) :
    dumpCustom.Follows ⟨w, .dumpRequests user device⟩ r := by
  obtain ⟨hs, -, hno⟩ | ⟨answer, s, hbody, hs, hdone, -⟩ :=
    work_cases (t := ⟨w, .dumpRequests user device⟩) rfl r
  · exact Custom.follows_of_same (delivered_of_silent (.inr (hno rfl))) hs
  · obtain ⟨rs, hbody, -⟩ := map_eq_answer.1 hbody
    obtain ⟨-, rfl⟩ := Relay.deliverDumpRequests_answer hbody
    exact Custom.follows_of_counted (delivered_of_committed hdone)
      (.besides hs ((Ages.refl _).count rfl rfl))

theorem dumps_submitDump (w : Setting) (user source requester : String) (isChunk : Bool)
    (dump : List Entry) (client : Client) (r : Relay) :
    dumpCustom.Follows ⟨w, .submitDump user source requester isChunk dump client⟩ r := by
  obtain ⟨hs, -⟩ | ⟨answer, s, hbody, hs, hdone, -⟩ :=
    work_cases (t := ⟨w, .submitDump user source requester isChunk dump client⟩) rfl r
  · exact Custom.follows_of_same rfl hs
  · obtain ⟨n, hbody, -⟩ := map_eq_answer.1 hbody
    obtain ⟨-, rfl⟩ := Relay.storeDump_answer hbody
    cases isChunk with
    | true =>
      exact Custom.follows_of_counted rfl
        (.besides hs (.congr (.refl _) rfl rfl))
    | false =>
      have hages : Ages (·.isBy user requester) (fun _ => false) ([] : List DumpRow) r.store _ :=
        .besides hs (.of_filter rfl rfl)
      refine Custom.follows_of_ages rfl hages (fun x hx => .inl ?_) fun _ hx => nomatch hx
      obtain ⟨rfl, rfl⟩ := DumpRow.isBy_iff.1 hx
      exact ⟨source, dump, client, rfl, hdone⟩

/-- Dump requests come in with registrations, count their deliveries, and go in four ways. -/
theorem dumps_age (t : Turn) (r : Relay) : dumpCustom.Follows t r := by
  obtain ⟨w, call⟩ := t
  cases call with
  | register reg client => exact dumps_register w reg client r
  | submit batch source client => exact dumps_submit w batch source client r
  | dumpRequests user device => exact dumps_listed w user device r
  | submitDump user source requester isChunk dump client =>
    exact dumps_submitDump w user source requester isChunk dump client r
  | deepClean now =>
    exact Custom.follows_of_deepClean (fun x => (x.user, x.requester)) rfl (fun _ => rfl)
      (fun _ => rfl) fun x h => .inr (.inr (.inr ⟨⟨now, rfl⟩, h⟩))
  | _ =>
    refine Custom.follows_of_drops rfl (fun c hc => ?_) fun c x hc hx => ?_
    · cases c with
      | addDump | bumpDumps => exact hc.elim
      | _ => rfl
    · cases c with
      | dropDumps which => exact removesDump_of_may (by simp) (by simp) hc hx
      | _ => cases hx

end Turn

end Dumps

section Tombstones

/-- The tombstone of a deletion request that is taken, for a device that is active then. -/
def DeletionRow.MadeBy (x : DeletionRow) (t : Turn) (r : Relay) : Prop :=
  ∃ req, t.call = .addDeletion req ∧ (t.take r).1.answered = true ∧ x.user = req.user ∧
    (∃ d ∈ r.store.devices, d.user = req.user ∧ d.active = true ∧ d.device = x.destination) ∧
    req.sendTime.toInstant? = some x.sendTime ∧ x.messages = Message.listToJson req.messages

/-- How a tombstone comes to be gone: its device is uninstalled, a sweep finds it delivered too
often, or a deep clean removes its device, a test device. -/
def Turn.Removes (t : Turn) (r : Relay) (x : DeletionRow) : Prop :=
  t.call = .uninstall x.user x.destination ∨
    (t.call = .sweep ∧ t.setting.config.deletionReadCap < x.readCount) ∨
      (∃ now, t.call = .deepClean now) ∧
        (∃ d ∈ r.store.devices, d.isTest = true ∧ d.key = (x.user, x.destination)) ∧
          ∀ d ∈ (t.take r).2.store.devices, d.key ≠ (x.user, x.destination)

theorem Turn.removes_of_may {t : Turn} {r : Relay} {which : DeletionRow → Bool} {x : DeletionRow}
    (hd : ∀ now, t.call ≠ .deepClean now) (h : t.may (.dropTombstones which))
    (hx : which x = true) : t.Removes r x := by
  obtain ⟨w, call⟩ := t
  cases call with
  | uninstall user device =>
    obtain rfl : which = _ := h
    obtain ⟨rfl, rfl⟩ := DeletionRow.isFor_iff.1 hx
    exact .inl rfl
  | sweep =>
    obtain rfl : which = _ := h
    exact .inr (.inl ⟨rfl, of_decide_eq_true hx⟩)
  | deepClean now => exact absurd rfl (hd now)
  | submit batch source client =>
    cases batch with
    | nil => exact h.elim
    | cons first rest => cases source <;> exact h.elim
  | _ => exact h.elim

theorem Store.deletionRequests_told (s : Store) (informed : Option (String × String)) :
    (s.told informed).deletionRequests = s.deletionRequests.map fun x =>
      if informed.any fun p => x.isFor p.1 p.2 then { x with readCount := x.readCount + 1 }
      else x := by
  cases informed with
  | none => simp [told]
  | some p => rfl

def tombstoneCustom : Custom DeletionRow where
  counts := DeletionRow.isListed
  made := DeletionRow.MadeBy
  removed x t r := t.Removes r x

namespace Turn

theorem tombstones_submit (w : Setting) (batch : List Entry) (source : Option String)
    (client : Client) (r : Relay) :
    tombstoneCustom.Follows ⟨w, .submit batch source client⟩ r := by
  obtain ⟨hs, hno⟩ | ⟨rows, -, hs, hdone⟩ := submit_cases w batch source client r
  · exact Custom.follows_of_same (delivered_of_silent hno) hs
  · exact Custom.follows_of_counted (delivered_of_committed hdone) (.besides hs
      ((Ages.refl _).count (Store.deletionRequests_told _ _) (Store.lastDeletion_told _ _)))

theorem tombstones_listed (w : Setting) (user device : String) (r : Relay) :
    tombstoneCustom.Follows ⟨w, .deletionRequests user device⟩ r := by
  obtain ⟨hs, -, hno⟩ | ⟨answer, s, hbody, hs, hdone, -⟩ :=
    work_cases (t := ⟨w, .deletionRequests user device⟩) rfl r
  · exact Custom.follows_of_same (delivered_of_silent (.inr (hno rfl))) hs
  · obtain ⟨rs, hbody, -⟩ := map_eq_answer.1 hbody
    obtain ⟨rfl, -⟩ := Relay.deliverDeletionRequests_answer hbody
    exact Custom.follows_of_counted (delivered_of_committed hdone)
      (.besides hs ((Ages.refl _).count rfl rfl))

theorem tombstones_addDeletion (w : Setting) (req : DeletionRequest) (r : Relay) :
    tombstoneCustom.Follows ⟨w, .addDeletion req⟩ r := by
  obtain ⟨hs, -⟩ | ⟨answer, s, hbody, hs, -, -, hanswer⟩ :=
    work_cases (t := ⟨w, .addDeletion req⟩) rfl r
  · exact Custom.follows_of_same rfl hs
  · obtain ⟨n, hbody, -⟩ := map_eq_answer.1 hbody
    obtain ⟨sent, hsent, hrows, hlast⟩ := Relay.bury_answer hbody
    refine Custom.follows_of_ages rfl (.besides hs (.of_append hrows ?_ (fun x hx => ?_)
      fun x hx => (DeletionRequests.mem_copies hx).1)) (fun _ hx => nomatch hx) fun x hx => ?_
    · rw [← List.length_map (f := (·.destination)), DeletionRequests.destinations_copies]
      exact hlast
    · rw [(DeletionRequests.mem_copies hx).2.2]
      rfl
    · obtain ⟨-, hin, he⟩ := DeletionRequests.mem_copies hx
      obtain ⟨d, hd, hdevice⟩ := List.mem_map.1 hin
      obtain ⟨hd, huser, hactive⟩ := Devices.mem_activeOf.1 hd
      refine ⟨req, rfl, congrArg Outcome.answered (hanswer (.inr rfl)), by rw [he],
        ⟨d, hd, huser, hactive, hdevice⟩, ?_, by rw [he]⟩
      rw [he]
      exact hsent

/-- Tombstones come in with deletion requests, count their deliveries, and go in three ways. -/
theorem tombstones_age (t : Turn) (r : Relay) : tombstoneCustom.Follows t r := by
  obtain ⟨w, call⟩ := t
  cases call with
  | submit batch source client => exact tombstones_submit w batch source client r
  | deletionRequests user device => exact tombstones_listed w user device r
  | addDeletion req => exact tombstones_addDeletion w req r
  | deepClean now =>
    exact Custom.follows_of_deepClean (fun x => (x.user, x.destination)) rfl (fun _ => rfl)
      (fun _ => rfl) fun x h => .inr (.inr ⟨⟨now, rfl⟩, h⟩)
  | _ =>
    refine Custom.follows_of_drops rfl (fun c hc => ?_) fun c x hc hx => ?_
    · cases c with
      | addTombstone | bumpTombstones => exact hc.elim
      | _ => rfl
    · cases c with
      | dropTombstones which => exact removes_of_may (by simp) hc hx
      | _ => cases hx

end Turn

end Tombstones

namespace Relay

/-- Whatever a turn does and whatever comes of it, each of the three tables is then what is left of
its rows in their order, each as it was or with one more read, and after them new rows that have not
been read. Entries are new with submits and dumps only, tombstones with deletion requests, dump
requests with registrations. So in a run a number stands for one row, which keeps all it says and
loses no reads. -/
theorem rows_only_age :
    (∀ (t : Turn) (r : Relay),
      (∃ (gone counted : EntryRow → Bool) (fresh : List EntryRow),
        Ages gone counted fresh r.store (t.take r).2.store ∧
        (fresh ≠ [] → (∃ batch source client, t.call = .submit batch source client) ∨
          ∃ user source requester isChunk dump client,
            t.call = .submitDump user source requester isChunk dump client)) ∧
      (∃ (gone counted : DeletionRow → Bool) (fresh : List DeletionRow),
        Ages gone counted fresh r.store (t.take r).2.store ∧
        (fresh ≠ [] → ∃ req, t.call = .addDeletion req)) ∧
      ∃ (gone counted : DumpRow → Bool) (fresh : List DumpRow),
        Ages gone counted fresh r.store (t.take r).2.store ∧
        (fresh ≠ [] → ∃ reg client, t.call = .register reg client)) ∧
    ∀ before after : List Turn,
      let early := (run {} before).store
      let late := (run {} (before ++ after)).store
      (∀ x ∈ early.entries, ∀ y ∈ late.entries, y.id = x.id →
        x.readCount ≤ y.readCount ∧ y = { x with readCount := y.readCount }) ∧
      (∀ x ∈ early.deletionRequests, ∀ y ∈ late.deletionRequests, y.id = x.id →
        x.readCount ≤ y.readCount ∧ y = { x with readCount := y.readCount }) ∧
      ∀ x ∈ early.dumpRequests, ∀ y ∈ late.dumpRequests, y.id = x.id →
        x.readCount ≤ y.readCount ∧ y = { x with readCount := y.readCount } := by
  constructor
  · intro t r
    refine ⟨t.entries_age r, ?_, ?_⟩
    · obtain ⟨gone, fresh, hages, -, hmade⟩ := t.tombstones_age r
      refine ⟨gone, _, fresh, hages, fun hne => ?_⟩
      obtain ⟨x, hx⟩ := List.exists_mem_of_ne_nil fresh hne
      obtain ⟨req, hcall, -⟩ := hmade x hx
      exact ⟨req, hcall⟩
    · obtain ⟨gone, fresh, hages, -, hmade⟩ := t.dumps_age r
      refine ⟨gone, _, fresh, hages, fun hne => ?_⟩
      obtain ⟨x, hx⟩ := List.exists_mem_of_ne_nil fresh hne
      obtain ⟨reg, client, hcall, -⟩ := hmade x hx
      exact ⟨reg, client, hcall⟩
  · intro before after early late
    have hentries (t : Turn) (r : Relay) : Keeps EntryRow r.store (t.take r).2.store := by
      obtain ⟨_, _, _, hages, -⟩ := t.entries_age r
      exact hages.keeps
    refine ⟨fun x hx y hy hid => ?_, fun x hx y hy hid => ?_, fun x hx y hy hid => ?_⟩
    · exact unchanged hentries before after hx hy hid
    · exact unchanged (fun t r => (t.tombstones_age r).keeps) before after hx hy hid
    · exact unchanged (fun t r => (t.dumps_age r).keeps) before after hx hy hid

/-- A query and two listings later the three rows of a first day are as they were but for a read. -/
theorem rows_only_age_for_a_day :
    let before : List Turn := [⟨default, .register ⟨"ada", "desk", false⟩ .unknown⟩,
      ⟨default, .register ⟨"ada", "lap", false⟩ .unknown⟩,
      ⟨default, .addDeletion ⟨"ada", "", default, 0, [⟨"desk", none, "e"⟩]⟩⟩,
      ⟨default, .submit [⟨[1], [2], "", "ada", default, "f", 0, false⟩] none .unknown⟩]
    let after : List Turn := [⟨default, .query "ada" "desk" none .unknown⟩,
      ⟨default, .deletionRequests "ada" "desk"⟩, ⟨default, .dumpRequests "ada" "desk"⟩]
    let early := (run {} before).store
    let late := (run {} (before ++ after)).store
    (∃ x ∈ early.entries, { x with readCount := 1 } ∈ late.entries) ∧
      (∃ x ∈ early.deletionRequests, { x with readCount := 1 } ∈ late.deletionRequests) ∧
      ∃ x ∈ early.dumpRequests, { x with readCount := 1 } ∈ late.dumpRequests := by
  intro before after early late
  let sent : Instant := ⟨0, by decide, by decide⟩
  let entry : EntryRow := ⟨1, "ada", "desk", "f", [1], [2], sent, 0, false⟩
  let tombstone : DeletionRow :=
    ⟨1, "ada", "desk", sent, 0, Message.listToJson [⟨"desk", none, "e"⟩]⟩
  let request : DumpRow := ⟨1, "ada", "lap", sent, 0⟩
  have hentries : (run {} before).store.entries =
      [entry, { entry with id := 2, device := "lap" }] := by cbv
  have htombstones : (run {} before).store.deletionRequests =
      [tombstone, { tombstone with id := 2, destination := "lap" }] := by cbv
  have hrequests : (run {} before).store.dumpRequests = [request] := by cbv
  have hread : (run {} (before ++ after)).store.entries.map (fun x => (x.id, x.readCount)) =
      [(1, 1), (2, 0)] := by cbv
  have hdelivered : (run {} (before ++ after)).store.deletionRequests.map
      (fun x => (x.id, x.readCount)) = [(1, 1), (2, 0)] := by cbv
  have hlisted : (run {} (before ++ after)).store.dumpRequests.map
      (fun x => (x.id, x.readCount)) = [(1, 1)] := by cbv
  obtain ⟨hentry, htombstone, hrequest⟩ := rows_only_age.2 before after
  refine ⟨⟨entry, hentries ▸ List.mem_cons_self, ?_⟩,
    ⟨tombstone, htombstones ▸ List.mem_cons_self, ?_⟩,
    ⟨request, hrequests ▸ List.mem_cons_self, ?_⟩⟩
  · have hin : (1, 1) ∈ late.entries.map fun x => (x.id, x.readCount) :=
      hread ▸ List.mem_cons_self
    obtain ⟨y, hy, he⟩ := List.mem_map.1 hin
    obtain ⟨hid, hcount⟩ := Prod.mk.inj he
    have hsame := (hentry entry (hentries ▸ List.mem_cons_self) y hy hid).2
    rwa [hsame, hcount] at hy
  · have hin : (1, 1) ∈ late.deletionRequests.map fun x => (x.id, x.readCount) :=
      hdelivered ▸ List.mem_cons_self
    obtain ⟨y, hy, he⟩ := List.mem_map.1 hin
    obtain ⟨hid, hcount⟩ := Prod.mk.inj he
    have hsame := (htombstone tombstone (htombstones ▸ List.mem_cons_self) y hy hid).2
    rwa [hsame, hcount] at hy
  · have hin : (1, 1) ∈ late.dumpRequests.map fun x => (x.id, x.readCount) :=
      hlisted ▸ List.mem_cons_self
    obtain ⟨y, hy, he⟩ := List.mem_map.1 hin
    obtain ⟨hid, hcount⟩ := Prod.mk.inj he
    have hsame := (hrequest request (hrequests ▸ List.mem_cons_self) y hy hid).2
    rwa [hsame, hcount] at hy

end Relay

end HistoryRelay
