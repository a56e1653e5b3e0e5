import HistoryRelay.Proofs.StoredTime

/-! Which deletion messages are taken. Main statement: a message with a device is taken if and only
if it can remove a row of some store, or all that it has is an end time that no row can have. -/
namespace HistoryRelay
open Step

namespace Message
variable {m : Message}

/-- Some store has a row that deleting by the message removes. -/
def Removes (m : Message) : Prop :=
  ∃ refusals user store n left, Store.deleteMatching refusals user [m] store = (.answer n, left) ∧
    ∃ row ∈ store.entries, row ∉ left.entries

/-- All that the message has is an end time that counts as set and that no row can have. -/
def OutOfReach (m : Message) : Prop :=
  m.entryId = "" ∧ ∃ t, m.endTime = some t ∧ 1 < t.year ∧ ¬t.Storable

theorem removes_iff_hits : m.Removes ↔ ∃ row, m.Hits row := by
  constructor
  · rintro ⟨refusals, user, store, n, left, hdelete, row, hrow, hgone⟩
    obtain ⟨-, m', hm, hhit⟩ : SomeHits user [m] row := by
      rw [Store.mem_deleteMatching hdelete] at hgone
      simpa [hrow] using hgone
    obtain rfl := List.mem_singleton.1 hm
    exact ⟨row, hhit⟩
  · rintro ⟨row, hhit⟩
    -- Whose row it is makes no difference to the message, but only a named user can delete.
    let own : EntryRow := { row with user := "ada" }
    let store : Store := { entries := [own] }
    have hhits : SomeHits "ada" [m] own := ⟨rfl, m, List.mem_singleton_self m, hhit⟩
    refine ⟨fun _ => none, "ada", store, _, _,
      Store.deleteMatching_of_free (by decide) (fun _ => rfl) [m] store, own,
      List.mem_singleton_self own, ?_⟩
    simp [Store.spared, hhits]

/-- A message with a device can remove a row by any entry id, and by an end time that can be
stored. -/
theorem removes_iff (hdevice : m.device ≠ "") :
    m.Removes ↔ m.entryId ≠ "" ∨ ∃ t, m.endTime = some t ∧ t.Storable := by
  rw [removes_iff_hits]
  constructor
  · rintro ⟨row, -, ⟨t, ht, -, hdate⟩ | ⟨hid, -⟩⟩
    · exact .inr ⟨t, ht, Timestamp.storable_of_toInstant? hdate⟩
    · exact .inl hid
  · rintro (hid | ⟨t, ht, hstorable⟩)
    · exact ⟨⟨0, "", "", m.entryId, [], [], ⟨0, by decide, by decide⟩, 0, false⟩, hdevice,
        .inr ⟨hid, rfl⟩⟩
    · obtain ⟨date, hdate⟩ := Timestamp.storable_iff_exists.1 hstorable
      exact ⟨⟨0, "", "", "", [], [], date, 0, false⟩, hdevice,
        .inl ⟨t, ht, hstorable.one_lt_year, hdate⟩⟩

theorem isMatchable_iff :
    m.isMatchable = true ↔ m.entryId ≠ "" ∨ ∃ t, m.endTime = some t ∧ 1 < t.year := by
  have htime : m.effectiveEndTime.isSome = true ↔ ∃ t, m.endTime = some t ∧ 1 < t.year := by
    simp [effectiveEndTime, Option.any_eq_true]
  have hid : m.effectiveEntryId.isSome = true ↔ m.entryId ≠ "" := by
    unfold effectiveEntryId
    split <;> simp_all
  rw [isMatchable, Bool.or_eq_true, htime, hid, or_comm]

theorem isMatchable_iff_removes (hdevice : m.device ≠ "") :
    m.isMatchable = true ↔ m.Removes ∨ m.OutOfReach := by
  rw [isMatchable_iff, removes_iff hdevice]
  constructor
  · rintro (hid | ⟨t, ht, hyear⟩)
    · exact .inl (.inl hid)
    · by_cases hid : m.entryId = ""
      · by_cases hstorable : t.Storable
        · exact .inl (.inr ⟨t, ht, hstorable⟩)
        · exact .inr ⟨hid, t, ht, hyear, hstorable⟩
      · exact .inl (.inl hid)
  · rintro ((hid | ⟨t, ht, hstorable⟩) | ⟨-, t, ht, hyear, -⟩)
    · exact .inl hid
    · exact .inr ⟨t, ht, hstorable.one_lt_year⟩
    · exact .inr ⟨t, ht, hyear⟩

theorem OutOfReach.not_removes (h : m.OutOfReach) : ¬m.Removes := by
  obtain ⟨hid, t, ht, -, hout⟩ := h
  intro hremoves
  obtain ⟨row, hdevice, -⟩ := removes_iff_hits.1 hremoves
  obtain hid' | ⟨u, hu, hstorable⟩ := (removes_iff hdevice).1 hremoves
  · exact hid' hid
  · obtain rfl : t = u := Option.some.inj (ht.symm.trans hu)
    exact hout hstorable

end Message

/-- All that the step fails of is a refusal of the store. -/
def Step.OnlyRefused {σ α : Type} (a : Step σ α) : Prop :=
  ∀ s e t, a s = (.failure e, t) → ∃ reason, e = .refused reason

namespace Step.OnlyRefused
variable {σ α β : Type}

theorem of_willing {a : Step σ α} (h : Willing a) : OnlyRefused a := by
  intro s e t he
  have hs := h s
  rw [he] at hs
  cases hs

theorem bind {a : Step σ α} {next : α → Step σ β} (ha : OnlyRefused a)
    (hn : ∀ v, OnlyRefused (next v)) : OnlyRefused (a >>= next) := by
  intro s e t h
  obtain h | ⟨v, s', -, h⟩ := bind_eq_failure.1 h
  · exact ha s e t h
  · exact hn v s' e t h

end Step.OnlyRefused

namespace Store
variable {refusals : Refusals}

theorem permit_onlyRefused {σ : Type} (st : Statement) :
    OnlyRefused (permit refusals st : Step σ Unit) := by
  intro s e t h
  unfold permit at h
  cases hst : refusals st with
  | none =>
    rw [hst] at h
    cases h
  | some reason =>
    rw [hst] at h
    cases h
    exact ⟨reason, rfl⟩

theorem activeDevices_onlyRefused (user : String) : OnlyRefused (activeDevices refusals user) :=
  .bind (permit_onlyRefused _) fun _ => .of_willing fun _ => rfl

theorem deleteNamed_onlyRefused (user : String) (messages : List Message) :
    OnlyRefused (deleteNamed refusals user messages) := by
  induction messages with
  | nil => exact .of_willing (.pure 0)
  | cons m rest ih =>
    rw [deleteNamed_cons]
    refine .bind ?_ fun _ => .bind ih fun _ => .of_willing (.pure _)
    unfold deleteHit
    split
    · exact .bind (.of_willing fun _ => rfl) fun _ =>
        .bind (permit_onlyRefused _) fun _ => .of_willing fun _ => rfl
    · exact .of_willing (.pure 0)

theorem insertTombstones_onlyRefused (row : DeletionRow) (devices : List String) :
    OnlyRefused (insertTombstones refusals row devices) := by
  induction devices with
  | nil => exact .of_willing (.pure 0)
  | cons device rest ih =>
    exact .bind (permit_onlyRefused _) fun _ => .bind (.of_willing fun _ => rfl) fun _ =>
      .bind ih fun _ => .of_willing (.pure _)

theorem insertTombstones_willing (hfree : ∀ st, refusals st = none) (row : DeletionRow)
    (devices : List String) : Willing (insertTombstones refusals row devices) := by
  induction devices with
  | nil => exact .pure 0
  | cons device rest ih =>
    exact .bind (permit_willing hfree _) fun _ => .bind (fun _ => rfl) fun _ =>
      .bind ih fun _ => .pure _

end Store

namespace Relay
variable {w : Setting} {req : DeletionRequest} {s t : Store}

theorem bury_failure {e : RelayError} (h : bury w req s = (.failure e, t)) :
    (∃ reason, e = .refused reason) ∨ e = .noDevices req.user .deletion ∨
      e = .unstorableTime req.sendTime ∨ e = .deletionWithoutUser := by
  obtain h | ⟨active, s₁, -, h⟩ := bind_eq_failure.1 h
  · exact .inl (Store.activeDevices_onlyRefused _ _ _ _ h)
  split at h
  · cases h
    exact .inr (.inl rfl)
  obtain h | ⟨k, s₂, -, h⟩ := bind_eq_failure.1 h
  · obtain h | ⟨sent, s₃, -, h⟩ := bind_eq_failure.1 h
    · unfold Store.storedTime at h
      cases hsent : req.sendTime.toInstant? with
      | some sent =>
        rw [hsent] at h
        cases h
      | none =>
        rw [hsent] at h
        cases h
        exact .inr (.inr (.inl rfl))
    · exact .inl (Store.insertTombstones_onlyRefused _ _ _ _ _ h)
  · unfold Store.deleteMatching at h
    split at h
    · cases h
      exact .inr (.inr (.inr rfl))
    · exact .inl (Store.deleteNamed_onlyRefused _ _ _ _ _ h)

theorem bury_answers (hfree : ∀ st, w.refusals st = none) (huser : req.user ≠ "")
    (hsent : req.sendTime.Storable) {d : DeviceRow} (hd : d ∈ s.devices)
    (hdevice : d.user = req.user) (hactive : d.active = true) :
    ∃ n t, bury w req s = (.answer n, t) := by
  obtain ⟨sent, hsent⟩ := Timestamp.storable_iff_exists.1 hsent
  have hlist : Store.activeDevices w.refusals req.user s =
      (.answer (Devices.activeOf req.user s.devices), s) :=
    Store.activeDevices_eq_answer.2 ⟨hfree _, rfl, rfl⟩
  have hsome : ¬(Devices.activeOf req.user s.devices).isEmpty = true := by
    rw [List.isEmpty_iff]
    exact List.ne_nil_of_mem (Devices.mem_activeOf.2 ⟨hd, hdevice, hactive⟩)
  unfold bury
  rw [bind_answer hlist, if_neg hsome, Store.deleteMatching_eq_deleteNamed huser]
  exact (Willing.bind (.bind (Store.storedTime_willing hsent) fun _ =>
    Store.insertTombstones_willing hfree _ _) fun _ =>
      Store.deleteNamed_willing hfree _ _).answer s

section Checked
variable (huser : req.user ≠ "")
include huser

theorem addDeletionRequest_refuses {m : Message}
    (h : (req.messages.find? fun m => m.device ≠ "" && !m.isMatchable) = some m) (r : Relay) :
    addDeletionRequest w req r = (.failure (.unmatchableMessage m.device), r) := by
  unfold addDeletionRequest requireId
  rw [if_neg huser, pure_bind, h]
  rfl

theorem addDeletionRequest_takes
    (h : (req.messages.find? fun m => m.device ≠ "" && !m.isMatchable) = none) :
    addDeletionRequest w req = locked (transaction (bury w req)) := by
  unfold addDeletionRequest requireId
  rw [if_neg huser, pure_bind, h]

end Checked

theorem find?_unmatchable_eq_none {messages : List Message} :
    (messages.find? fun m => m.device ≠ "" && !m.isMatchable) = none ↔
      ∀ m ∈ messages, m.device ≠ "" → m.Removes ∨ m.OutOfReach := by
  rw [List.find?_eq_none]
  refine forall₂_congr fun m _ => ?_
  simp only [Bool.and_eq_true, decide_eq_true_eq, Bool.not_eq_true', not_and,
    Bool.not_eq_false]
  exact forall_congr' fun hdevice => Message.isMatchable_iff_removes hdevice

theorem addDeletionRequest_unmatchable_iff {r : Relay} :
    (∃ device, (addDeletionRequest w req r).1 = .failure (.unmatchableMessage device)) ↔
      req.user ≠ "" ∧ ¬∀ m ∈ req.messages, m.device ≠ "" → m.Removes ∨ m.OutOfReach := by
  by_cases huser : req.user = ""
  · have hempty : (addDeletionRequest w req r).1 = .failure (.emptyId "user_id") := by
      unfold addDeletionRequest requireId
      rw [if_pos huser]
      rfl
    simp [hempty, huser]
  rw [← find?_unmatchable_eq_none]
  cases hfind : req.messages.find? fun m => m.device ≠ "" && !m.isMatchable with
  | some m => simp [addDeletionRequest_refuses huser hfind, huser]
  | none =>
    refine iff_of_false ?_ (by simp)
    rintro ⟨device, h⟩
    rw [addDeletionRequest_takes huser hfind] at h
    obtain ⟨-, hlock, -⟩ | ⟨-, s, hbury, -⟩ := locked_eq_failure.1 (Prod.ext h rfl)
    · cases hlock
    · obtain ⟨-, t, hbury⟩ := transaction_eq_failure.1 hbury
      simpa using bury_failure hbury

theorem addDeletionRequest_answer_iff {r : Relay} {d : DeviceRow}
    (hfree : ∀ st, w.refusals st = none) (hopen : r.poisoned = false) (huser : req.user ≠ "")
    (hsent : req.sendTime.Storable) (hd : d ∈ r.store.devices) (hdevice : d.user = req.user)
    (hactive : d.active = true) : (∃ n, (addDeletionRequest w req r).1 = .answer n) ↔
      ∀ m ∈ req.messages, m.device ≠ "" → m.Removes ∨ m.OutOfReach := by
  rw [← find?_unmatchable_eq_none]
  cases hfind : req.messages.find? fun m => m.device ≠ "" && !m.isMatchable with
  | some m => simp [addDeletionRequest_refuses huser hfind]
  | none =>
    obtain ⟨n, t, hbury⟩ := bury_answers hfree huser hsent hd hdevice hactive
    refine iff_of_true ⟨n, ?_⟩ rfl
    rw [addDeletionRequest_takes huser hfind, (locked_apply _ hopen).1,
      transaction_answer hbury]

/-- A message with a device is matchable if and only if it can remove a row, or it is out of reach
and can remove none. A request is kept out for its messages if and only if one of them is neither,
and where nothing else stands in its way it is taken if each of them is one or the other. -/
theorem acceptance_agrees_with_deletion (w : Setting) (req : DeletionRequest) (r : Relay) :
    (∀ m : Message, m.device ≠ "" →
      (m.isMatchable = true ↔ m.Removes ∨ m.OutOfReach) ∧ (m.OutOfReach → ¬m.Removes)) ∧
    ((∃ device, (addDeletionRequest w req r).1 = .failure (.unmatchableMessage device)) ↔
      req.user ≠ "" ∧ ∃ m ∈ req.messages, m.device ≠ "" ∧ ¬m.Removes ∧ ¬m.OutOfReach) ∧
    ∀ d ∈ r.store.devices, d.user = req.user → d.active = true →
      (∀ st, w.refusals st = none) → r.poisoned = false → req.user ≠ "" → req.sendTime.Storable →
      ((∃ n, (addDeletionRequest w req r).1 = .answer n) ↔
        ∀ m ∈ req.messages, m.device ≠ "" → m.Removes ∨ m.OutOfReach) := by
  refine ⟨fun m hdevice => ⟨Message.isMatchable_iff_removes hdevice, fun h => h.not_removes⟩, ?_,
    fun d hd hdevice hactive hfree hopen huser hsent =>
      addDeletionRequest_answer_iff hfree hopen huser hsent hd hdevice hactive⟩
  rw [addDeletionRequest_unmatchable_iff]
  simp only [not_forall, not_or, exists_prop]

/-- Of two end times next to one another the first is the last that can be stored. A request with
both is taken, one with an end time that is not set is not. -/
theorem acceptance_agrees_with_deletion_at_latest :
    let after : Timestamp := ⟨9223372036, 854775808, by decide, by decide, by decide, by decide⟩
    let zero : Timestamp := ⟨-62135596800, 0, by decide, by decide, by decide, by decide⟩
    let message (t : Timestamp) : Message := ⟨"desk", some t, ""⟩
    let r := run {} [⟨default, .register ⟨"ada", "desk", false⟩ .unknown⟩]
    let request (ts : List Timestamp) : DeletionRequest :=
      ⟨"ada", "", default, 0, ts.map message⟩
    (message .latest).Removes ∧ ((message after).isMatchable = true ∧ ¬(message after).Removes) ∧
      (∃ n, (addDeletionRequest default (request [.latest, after]) r).1 = .answer n) ∧
      ∃ device, (addDeletionRequest default (request [.latest, zero]) r).1 =
        .failure (.unmatchableMessage device) := by
  intro after zero message r request
  obtain ⟨hagree, -, htaken⟩ :=
    acceptance_agrees_with_deletion default (request [.latest, after]) r
  obtain ⟨-, hrefused, -⟩ := acceptance_agrees_with_deletion default (request [.latest, zero]) r
  have hdevices : r.store.devices =
      [⟨"ada", "desk", "UnknownIp", ⟨0, by decide, by decide⟩, false, none⟩] := by cbv
  have hreach : (message after).OutOfReach := ⟨rfl, after, rfl, by decide, by decide⟩
  have hzero : ¬(message zero).isMatchable = true := by decide
  have hlatest : (message .latest).Removes := by
    refine ((hagree (message .latest) (by decide)).1.1 (by decide)).resolve_right ?_
    rintro ⟨-, t, ht, -, hout⟩
    obtain rfl : Timestamp.latest = t := Option.some.inj ht
    exact hout (by decide)
  obtain ⟨hmatchable, hnone⟩ := hagree (message after) (by decide)
  refine ⟨hlatest, ⟨hmatchable.2 (.inr hreach), hnone hreach⟩, ?_, ?_⟩
  · refine (htaken _ (hdevices ▸ List.mem_singleton_self _) rfl rfl (fun _ => rfl) (by cbv)
      (by decide) (by decide)).2 ?_
    simp [request, hlatest, hreach]
  · refine hrefused.2 ⟨by decide, message zero, by simp [request], by decide, ?_⟩
    rw [← not_or, ← (hagree (message zero) (by decide)).1]
    exact hzero

/-- A message whose end time is centuries too early for the store is taken, and can remove nothing
from any store. -/
theorem ancient_end_time_is_taken :
    let ancient : Timestamp := ⟨-14831769600, 0, by decide, by decide, by decide, by decide⟩
    let m : Message := ⟨"desk", some ancient, ""⟩
    let r := run {} [⟨default, .register ⟨"ada", "desk", false⟩ .unknown⟩]
    ancient.text = "1500-01-01T00:00:00Z" ∧ m.device ≠ "" ∧
      ¬(m.isMatchable = true ↔ m.Removes) ∧
      (addDeletionRequest default ⟨"ada", "", default, 0, [m]⟩ r).1 = .answer 0 := by
  intro ancient m r
  have hreach : m.OutOfReach := ⟨rfl, ancient, rfl, by decide, by decide⟩
  have hmatchable : m.isMatchable = true := by decide
  exact ⟨by decide, by decide, fun h => hreach.not_removes (h.1 hmatchable), by cbv⟩

end Relay

end HistoryRelay
