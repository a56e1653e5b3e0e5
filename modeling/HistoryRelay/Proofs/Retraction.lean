import HistoryRelay.Proofs.Aging
import HistoryRelay.Proofs.MessageJson

/-! Deleted history stays deleted. Main statement: as long as a tombstone lies in the ledger no
query of its device returns an entry that one of its messages matches, whatever is stored again;
and what a query removes is what the tombstones of its device match. -/
namespace HistoryRelay
open Step

namespace Message

/-- The message names the entry by its end time, unless that is unset, or by its entry id. -/
def Matches (m : Message) (e : Entry) : Prop :=
  (∃ t, m.endTime = some t ∧ 1 < t.year ∧ t.totalNanos = e.time.totalNanos) ∨
    (m.entryId ≠ "" ∧ m.entryId = e.encryptedId)

theorem totalNanos_toTimestamp (i : Instant) : i.toTimestamp.totalNanos = i.nanos := by
  simp only [Timestamp.totalNanos, Instant.toTimestamp]
  omega

/-- A stored end time is compared as stored, which loses no match. -/
theorem names_iff {m : Message} {r : EntryRow} : m.names r = true ↔ m.Matches r.toEntry := by
  have htime : m.storedEndTime = some r.date ↔
      ∃ t, m.endTime = some t ∧ 1 < t.year ∧ t.totalNanos = r.toEntry.time.totalNanos := by
    simp only [storedEndTime, effectiveEndTime, Option.bind_eq_some_iff, Option.filter_eq_some_iff,
      decide_eq_true_eq, Timestamp.toInstant?_eq_some, EntryRow.toEntry, totalNanos_toTimestamp,
      and_assoc]
  have hid : m.effectiveEntryId = some r.encryptedId ↔
      m.entryId ≠ "" ∧ m.entryId = r.toEntry.encryptedId := by
    unfold effectiveEntryId
    split <;> simp_all [EntryRow.toEntry]
  simp only [names, Bool.or_eq_true, decide_eq_true_eq, htime, hid, Matches]

theorem applies_and_names {m : Message} {r : EntryRow} :
    (m.applies && m.names r) = true ↔ m.device ≠ "" ∧ m.Matches r.toEntry := by
  rw [← names_iff]
  simp only [applies, names, Bool.and_eq_true, Bool.or_eq_true, decide_eq_true_eq]
  constructor
  · rintro ⟨⟨hd, -⟩, hn⟩
    exact ⟨hd, hn⟩
  · rintro ⟨hd, hn | hn⟩
    · exact ⟨⟨hd, .inl (by rw [hn]; rfl)⟩, .inl hn⟩
    · exact ⟨⟨hd, .inr (by rw [hn]; rfl)⟩, .inr hn⟩

end Message

theorem Change.drop_drop (p q : EntryRow → Bool) (s : Store) :
    (dropEntries q).apply ((dropEntries p).apply s) =
      (dropEntries fun r => p r || q r).apply s := by
  simp [apply, List.filter_filter, Bool.and_comm]

namespace Store
variable {refusals : Refusals} {s t : Store}

theorem deleteNamed_answer {user : String} {messages : List Message} {n : Nat}
    (h : deleteNamed refusals user messages s = (.answer n, t)) :
    t = (Change.dropEntries fun r => r.user = user &&
      messages.any fun m => m.applies && m.names r).apply s := by
  induction messages generalizing s t n with
  | nil =>
    obtain ⟨-, rfl⟩ := pure_eq_answer.1 h
    simp [Change.apply]
  | cons m rest ih =>
    unfold deleteNamed at h
    split at h
    · rename_i happlies
      obtain ⟨hit, s₁, hm, h⟩ := bind_eq_answer.1 h
      obtain ⟨k, s₂, hrest, h⟩ := bind_eq_answer.1 h
      obtain ⟨-, -, hs₁⟩ := deleteEntries_eq_answer.1 hm
      rw [← (pure_eq_answer.1 h).2, ih hrest, hs₁]
      simp [Change.drop_drop, happlies, Bool.and_or_distrib_left]
    · rename_i happlies
      obtain ⟨hit, s₁, hm, h⟩ := bind_eq_answer.1 h
      obtain ⟨k, s₂, hrest, h⟩ := bind_eq_answer.1 h
      rw [← (pure_eq_answer.1 h).2, ih hrest, ← (pure_eq_answer.1 hm).2]
      simp [happlies]

end Store

namespace Relay
variable {w : Setting} {s t : Store}

theorem addDeletionRequest_answer {r r' : Relay} {req : DeletionRequest} {n : Nat}
    (h : addDeletionRequest w req r = (.answer n, r')) {d : DeviceRow}
    (hd : d ∈ r.store.devices) (huser : d.user = req.user) (hactive : d.active = true) :
    ∃ x ∈ r'.store.deletionRequests, r.store.lastDeletion < x.id ∧
      (x.user = req.user ∧ x.destination = d.device) ∧
        x.messages = Message.listToJson req.messages := by
  obtain ⟨sent, -, hrows, -⟩ := bury_answer (bury_of_addDeletionRequest h)
  let devices := (Devices.activeOf req.user r.store.devices).map (·.device)
  have hmem : d.device ∈ devices :=
    List.mem_map_of_mem (Devices.mem_activeOf.2 ⟨hd, huser, hactive⟩)
  let row : DeletionRow := ⟨0, req.user, "", sent, 0, Message.listToJson req.messages⟩
  have hdestinations : (DeletionRequests.copies row r.store.lastDeletion devices).map
      (·.destination) = devices := DeletionRequests.destinations_copies
  rw [← hdestinations] at hmem
  obtain ⟨x, hx, hdevice⟩ := List.mem_map.1 hmem
  obtain ⟨hlt, -, he⟩ := DeletionRequests.mem_copies hx
  refine ⟨x, ?_, hlt, ⟨?_, hdevice⟩, ?_⟩
  · rw [hrows]
    exact List.mem_append_right _ hx
  · rw [he]
  · rw [he]

theorem applyTombstones_answer {requests : List DeletionRequest}
    (h : applyTombstones w requests s = (.answer (), t)) :
    t = (Change.dropEntries fun r => requests.any fun q => r.user = q.user &&
      q.messages.any fun m => m.applies && m.names r).apply s := by
  induction requests generalizing s with
  | nil =>
    obtain ⟨-, rfl⟩ := pure_eq_answer.1 h
    simp [Change.apply]
  | cons q rest ih =>
    obtain ⟨n, s₁, hq, hrest⟩ := bind_eq_answer.1 h
    unfold Store.deleteMatching at hq
    split at hq
    · exact absurd hq fail_ne_answer
    · rw [ih hrest, Store.deleteNamed_answer hq, Change.drop_drop]
      simp

/-- The messages that the tombstones for a device hold. -/
def Buried (user device : String) (s : Store) (m : Message) : Prop :=
  ∃ row ∈ s.deletionRequests, (row.user = user ∧ row.destination = device) ∧
    ∃ ms, Message.listOfJson row.messages = .ok ms ∧ m ∈ ms

theorem mem_applyDeletions {user device : String}
    (h : applyDeletions w user device s = (.answer (), t)) {x : EntryRow} :
    x ∈ t.entries ↔ x ∈ s.entries ∧
      ¬(x.user = user ∧ ∃ m, Buried user device s m ∧ m.device ≠ "" ∧ m.Matches x.toEntry) := by
  obtain ⟨requests, s₁, hlist, happly⟩ := bind_eq_answer.1 h
  have huser := Store.user_of_deletionRequestsFor hlist
  obtain ⟨-, hrows, hs₁⟩ := Store.deletionRequestsFor_eq_answer.1 hlist
  rw [applyTombstones_answer happly, hs₁]
  have hburied : (requests.any fun q => x.user = q.user &&
      q.messages.any fun m => m.applies && m.names x) = true ↔
      x.user = user ∧ ∃ m, Buried user device s m ∧ m.device ≠ "" ∧ m.Matches x.toEntry := by
    simp only [List.any_eq_true, Bool.and_eq_true, decide_eq_true_eq, ← Message.applies_and_names]
    constructor
    · rintro ⟨q, hq, hx, m, hm, happlies⟩
      obtain ⟨row, hrow, hto⟩ := exists_left_of_forall₂ hrows hq
      obtain ⟨hin, hfor⟩ := List.mem_filter.1 hrow
      have hms := (DeletionRow.toRequest_eq_ok.1 hto).1
      exact ⟨hx.trans (huser q hq), m, ⟨row, hin, DeletionRow.isFor_iff.1 hfor, _, hms, hm⟩,
        happlies⟩
    · rintro ⟨hx, m, ⟨row, hin, hfor, ms, hms, hm⟩, happlies⟩
      obtain ⟨q, hq, hto⟩ := exists_right_of_forall₂ hrows
        (List.mem_filter.2 ⟨hin, DeletionRow.isFor_iff.2 hfor⟩)
      have hmessages := (DeletionRow.toRequest_eq_ok.1 hto).1
      obtain rfl : ms = q.messages := Except.ok.inj (hms.symm.trans hmessages)
      exact ⟨q, hq, hx.trans (huser q hq).symm, m, hm, happlies⟩
  simp only [Change.apply, List.mem_filter, Bool.not_eq_true', ← Bool.not_eq_true, hburied]

section Query
variable {user device : String} {reason : Option String} {client : Client} {r : Relay}
  {es : List Entry}

theorem mem_readPending (h : (readPending w user device reason client r).1 = .answer es)
    {x : EntryRow} : x ∈ (readPending w user device reason client r).2.store.entries ↔
      x ∈ r.store.entries ∧ ¬(x.user = user ∧
        ∃ m, Buried user device r.store m ∧ m.device ≠ "" ∧ m.Matches x.toEntry) := by
  obtain ⟨s, hnote, happly, -⟩ := readPending_answer w user device reason client (Prod.ext h rfl)
  have hsame := hnote.frame (fun s => (s.entries, s.deletionRequests)) fun c s hc => by
    obtain ⟨e, time, rfl⟩ := hc
    rfl
  simp only [Prod.mk.injEq] at hsame
  obtain ⟨hentries, htombstones⟩ := hsame
  have hmem := mem_applyDeletions happly (x := x)
  simp only [Buried] at hmem ⊢
  rwa [hentries, htombstones] at hmem

theorem ids_countRead (w : Setting) (user device : String) (r : Relay) :
    (countRead w user device r).2.store.entries.map EntryRow.id =
      r.store.entries.map EntryRow.id := by
  obtain ⟨-, hs⟩ | ⟨-, hs⟩ := countRead_cases w user device r
  · have hid : EntryRow.id ∘ (fun r : EntryRow => if r.isFor user device then
        { r with readCount := r.readCount + 1 } else r) = EntryRow.id := by
      funext r
      simp only [Function.comp_apply]
      split <;> rfl
    rw [hs]
    simp only [Change.apply, Entries.bump, List.map_map, hid]
  · rw [hs]

theorem query_returns (h : (query w user device reason client r).1 = .answer es) {e : Entry}
    (he : e ∈ es) : ∃ x ∈ r.store.entries, e = x.toEntry ∧
      ∀ m, Buried user device r.store m → m.device ≠ "" → ¬m.Matches e := by
  obtain ⟨es', hread, hes', -⟩ | ⟨hno, -⟩ := query_cases w user device reason client r
  · obtain rfl : es' = es := by simpa [hes'] using h
    obtain ⟨-, -, -, hes⟩ := readPending_answer w user device reason client (Prod.ext hread rfl)
    rw [hes] at he
    obtain ⟨x, hx, rfl⟩ := List.mem_map.1 he
    obtain ⟨hleft, ⟨hfor, -⟩, -⟩ := Entries.mem_pending.1 hx
    obtain ⟨hin, hnone⟩ := (mem_readPending hread).1 hleft
    exact ⟨x, hin, rfl, fun m hm hd hmatch => hnone ⟨hfor, m, hm, hd, hmatch⟩⟩
  · simp [h, Outcome.answered] at hno

theorem query_removes (h : (query w user device reason client r).1 = .answer es)
    (hids : Ascending EntryRow.id r.store.lastEntry r.store.entries) {x : EntryRow}
    (hx : x ∈ r.store.entries) :
    (∀ y ∈ (query w user device reason client r).2.store.entries, y.id ≠ x.id) ↔ x.user = user ∧
      ∃ m, Buried user device r.store m ∧ m.device ≠ "" ∧ m.Matches x.toEntry := by
  obtain ⟨es', hread, -, hs⟩ | ⟨hno, -⟩ := query_cases w user device reason client r
  · have hgone : (∀ y ∈ (query w user device reason client r).2.store.entries, y.id ≠ x.id) ↔
        x.id ∉ (readPending w user device reason client r).2.store.entries.map EntryRow.id := by
      rw [hs, ← ids_countRead w user device]
      simp only [List.mem_map, not_exists, not_and]
    have hleft := mem_readPending hread (x := x)
    rw [hgone, List.mem_map]
    constructor
    · intro hno
      by_contra hnone
      exact hno ⟨x, hleft.2 ⟨hx, hnone⟩, rfl⟩
    · rintro hmatch ⟨y, hy, hid⟩
      have hy' := (mem_readPending hread).1 hy
      obtain rfl := hids.unique hy'.1 hx hid
      exact hy'.2 hmatch
  · simp [h, Outcome.answered] at hno

end Query

end Relay

theorem Turn.removes_of_gone {t : Turn} {r : Relay} {x : DeletionRow}
    (hx : x ∈ r.store.deletionRequests)
    (hgone : ∀ y ∈ (t.take r).2.store.deletionRequests, y.id ≠ x.id) : t.Removes r x :=
  (t.tombstones_age r).removed_of_missing hx hgone

section Laid
variable {x : DeletionRow}

/-- Whatever the number of a tombstone names in the ledger is that tombstone. -/
structure Laid (x : DeletionRow) (s : Store) : Prop where
  old : x.id ≤ s.lastDeletion
  same : ∀ y ∈ s.deletionRequests, y.id = x.id → y = { x with readCount := y.readCount }

theorem Change.laid (c : Change) {s : Store} (h : Laid x s) : Laid x (c.apply s) := by
  cases c with
  | addTombstone row =>
    refine ⟨Nat.le_succ_of_le h.old, fun y hy hid => ?_⟩
    obtain hy | hy := List.mem_append.1 hy
    · exact h.same y hy hid
    · have := h.old
      rw [List.mem_singleton.1 hy] at hid
      exact absurd hid (by simp only; omega)
  | bumpTombstones user device =>
    refine ⟨h.old, fun y hy hid => ?_⟩
    obtain ⟨z, hz, rfl⟩ := List.mem_map.1 hy
    have hzid : z.id = x.id := by
      split at hid <;> exact hid
    have hsame := h.same z hz hzid
    split
    · rw [hsame]
    · exact hsame
  | dropTombstones which => exact ⟨h.old, fun y hy => h.same y (List.mem_filter.1 hy).1⟩
  | _ => exact ⟨h.old, h.same⟩

theorem Relay.laid_of_mem {turns : List Turn} (h : x ∈ (run {} turns).store.deletionRequests) :
    Laid x (run {} turns).store where
  old := (ascending_tombstones_run turns).le x h
  same y hy hid := by rw [(ascending_tombstones_run turns).unique hy h hid]

theorem Relay.laid_run {r : Relay} (h : Laid x r.store) (turns : List Turn) :
    Laid x (r.run turns).store :=
  run_keeps turns h fun _ _ c _ _ hc => c.laid hc

end Laid

namespace Relay

/-- A deletion request that is taken leaves a tombstone for each active device of its user. As long
as the tombstone is there no query of the device returns what one of its messages matches, and it
goes only with the device or after too many deliveries. What a query removes is what the
tombstones of its device match, wherever it was to go. -/
theorem retraction_lasts :
    (∀ (before : List Turn) (w : Setting) (req : DeletionRequest) (n : Nat) (d : DeviceRow),
      d ∈ (run {} before).store.devices → d.user = req.user → d.active = true →
      (addDeletionRequest w req (run {} before)).1 = .answer n →
      ∃ tombstone ∈ (run {} (before ++ [⟨w, .addDeletion req⟩])).store.deletionRequests,
        (run {} before).store.lastDeletion < tombstone.id ∧
        (tombstone.user = req.user ∧ tombstone.destination = d.device) ∧
        ∀ after : List Turn,
          let now := run {} (before ++ ⟨w, .addDeletion req⟩ :: after)
          ∀ x ∈ now.store.deletionRequests, x.id = tombstone.id →
            (∀ w' reason client es, (query w' req.user d.device reason client now).1 = .answer es →
              ∀ m ∈ req.messages, m.device ≠ "" → ∀ e ∈ es, ¬m.Matches e) ∧
            ∀ t : Turn, (∀ y ∈ (t.take now).2.store.deletionRequests, y.id ≠ tombstone.id) →
              t.Removes now x) ∧
    ∀ (turns : List Turn) (w : Setting) (user device : String) (reason : Option String)
      (client : Client) (es : List Entry),
      (query w user device reason client (run {} turns)).1 = .answer es →
      ∀ x ∈ (run {} turns).store.entries,
        (∀ y ∈ (query w user device reason client (run {} turns)).2.store.entries, y.id ≠ x.id) ↔
          x.user = user ∧ ∃ m, Buried user device (run {} turns).store m ∧ m.device ≠ "" ∧
            m.Matches x.toEntry := by
  constructor
  · intro before w req n d hd huser hactive hanswer
    have hstored : run {} (before ++ [⟨w, .addDeletion req⟩]) =
        (addDeletionRequest w req (run {} before)).2 := by
      rw [run_append]
      exact (map_answered Answer.count _ _).2
    obtain ⟨x, hx, hnew, hfor, hmessages⟩ :=
      addDeletionRequest_answer (Prod.ext hanswer rfl) hd huser hactive
    have hin : x ∈ (run {} (before ++ [⟨w, .addDeletion req⟩])).store.deletionRequests := by
      rw [hstored]
      exact hx
    refine ⟨x, hin, hnew, hfor, ?_⟩
    intro after now y hy hid
    refine ⟨?_, fun t hgone => ?_⟩
    · intro w' reason client es hquery m hm hdevice e he
      have hlaid := laid_run (laid_of_mem hin) after
      rw [← run_append, List.append_assoc, List.singleton_append] at hlaid
      have hsame := hlaid.same y hy hid
      have hburied : Buried req.user d.device now.store m := by
        refine ⟨y, hy, ?_, req.messages, ?_, hm⟩
        · rw [hsame]
          exact hfor
        · rw [hsame, hmessages]
          exact Message.listOfJson_listToJson req.messages
      obtain ⟨-, -, -, hnone⟩ := query_returns hquery he
      exact hnone m hburied hdevice
    · exact Turn.removes_of_gone hy fun z hz => hid ▸ hgone z hz
  · intro turns w user device reason client es h x hx
    exact query_removes h (ascending_entries_run turns) hx

/-- Of two entries that are submitted after the deletion the query returns the other one. -/
theorem retraction_lasts_for_resubmitted :
    let before : List Turn := [⟨default, .register ⟨"ada", "desk", false⟩ .unknown⟩]
    let message : Message := ⟨"desk", none, "e"⟩
    let req : DeletionRequest := ⟨"ada", "", default, 0, [message]⟩
    let after : List Turn := [⟨default, .submit [⟨[1], [2], "", "ada", default, "e", 0, false⟩,
      ⟨[1], [2], "", "ada", default, "f", 0, false⟩] none .unknown⟩]
    ∃ e, (query default "ada" "desk" none .unknown
        (run {} (before ++ ⟨default, .addDeletion req⟩ :: after))).1 = .answer [e] ∧
      ¬message.Matches e := by
  intro before message req after
  let device : DeviceRow := ⟨"ada", "desk", "UnknownIp", ⟨0, by decide, by decide⟩, false, none⟩
  let row : DeletionRow :=
    ⟨1, "ada", "desk", ⟨0, by decide, by decide⟩, 0, Message.listToJson [message]⟩
  have hdevices : (run {} before).store.devices = [device] := by cbv
  have hstored : (run {} (before ++ [⟨default, .addDeletion req⟩])).store.deletionRequests =
      [row] := by cbv
  have hthere : (run {} (before ++ ⟨default, .addDeletion req⟩ :: after)).store.deletionRequests =
      [row] := by cbv
  have hquery : (query default "ada" "desk" none .unknown
      (run {} (before ++ ⟨default, .addDeletion req⟩ :: after))).1 =
        .answer [⟨[1], [2], "desk", "ada", default, "f", 0, false⟩] := by cbv
  obtain ⟨tombstone, hin, -, -, hlasts⟩ := retraction_lasts.1 before default req 0 device
    (by simp [hdevices]) rfl rfl (by cbv)
  obtain rfl : tombstone = row := by simpa [hstored] using hin
  obtain ⟨hnone, -⟩ := hlasts after row (by simp [hthere]) rfl
  exact ⟨_, hquery, hnone _ _ _ _ hquery message (by simp [req]) (by decide) _ (by simp)⟩

end Relay

end HistoryRelay
