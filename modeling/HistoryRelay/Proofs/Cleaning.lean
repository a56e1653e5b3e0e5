import HistoryRelay.Proofs.Queries
import HistoryRelay.Proofs.Registry

/-! Housekeeping as functions on the store. Main statement: a deep clean leaves the store as it is,
or makes `Store.cleaned` of it, and where nothing is refused and its date can be stored it does. -/
namespace HistoryRelay
open Step

/-- The step answers in every state. -/
def Step.Willing {σ α : Type} (a : Step σ α) : Prop := ∀ s, (a s).1.answered = true

namespace Step.Willing
variable {σ α β : Type}

theorem pure (v : α) : Willing (Pure.pure v : Step σ α) := fun _ => rfl

theorem answer {a : Step σ α} (h : Willing a) (s : σ) : ∃ v t, a s = (.answer v, t) := by
  have hs := h s
  cases ha : a s with
  | mk o t =>
    rw [ha] at hs
    cases o with
    | answer v => exact ⟨v, t, rfl⟩
    | failure e => simp [Outcome.answered] at hs
    | crash => simp [Outcome.answered] at hs

theorem bind {a : Step σ α} {next : α → Step σ β} (ha : Willing a) (hn : ∀ v, Willing (next v)) :
    Willing (a >>= next) := by
  intro s
  obtain ⟨v, t, hs⟩ := ha.answer s
  rw [bind_answer hs]
  exact hn v t

end Step.Willing

namespace Store
variable {refusals : Refusals}

theorem storedTime_willing {σ : Type} {t : Timestamp} {i : Instant} (h : t.toInstant? = some i) :
    Willing (storedTime t : Step σ Instant) := by
  unfold storedTime
  rw [h]
  exact .pure i

variable (hfree : ∀ st, refusals st = none)
include hfree

theorem permit_willing {σ : Type} (st : Statement) :
    Willing (permit refusals st : Step σ Unit) := by
  unfold permit
  rw [hfree]
  exact .pure ()

theorem look_willing {α : Type} (table : Table) (f : Store → α) :
    Willing (do permit refusals (.select table); return f (← get) : Step Store α) :=
  .bind (permit_willing hfree _) fun _ _ => rfl

theorem change_at_willing {β : Type} (c : Change) (st : Store → Statement) (f : Store → β) :
    Willing (do
      let s ← get
      permit refusals (st s)
      update c.apply
      return f s : Step Store β) :=
  .bind (fun _ => rfl) fun _ => .bind (permit_willing hfree _) fun _ _ => rfl

end Store

/-- A deep clean as of `now` takes for old what is dated up to here. -/
def Config.cutoff? (config : Config) (now : Timestamp) : Option Instant :=
  (now.minusDays config.retentionDays).bind Timestamp.toInstant?

def Entries.overgrown (most : Nat) (es : List EntryRow) : List String :=
  (users es).filter fun user => Word.signed most < (es.countP (·.user = user) : Int)

theorem Entries.mem_overgrown {most : Nat} {es : List EntryRow} {user : String} :
    user ∈ overgrown most es ↔ (∃ r ∈ es, r.user = user) ∧
      Word.signed most < (es.countP (·.user = user) : Int) := by
  simp [overgrown, users, List.mem_mergeSort, List.mem_eraseDups]

theorem Usage.mem_inactive {cutoff : Instant} {ds : List DeviceRow} {us : List UsageRow}
    {user : String} : user ∈ inactive cutoff ds us ↔ (∃ u ∈ us, u.user = user) ∧
      1 < ds.countP (·.user = user) ∧ ∀ u ∈ us, u.user = user → u.lastUsed ≤ cutoff := by
  simp [inactive, users, List.mem_mergeSort, List.mem_eraseDups, ← imp_iff_not_or]

theorem Devices.mem_staleTests {cutoff : Instant} {us : List UsageRow} {ds : List DeviceRow}
    {p : String × String} : p ∈ staleTests cutoff us ds ↔ ∃ d ∈ ds, d.isTest = true ∧
      d.registered ≤ cutoff ∧ (∀ u ∈ us, (u.user, u.device) = d.key → u.lastUsed ≤ cutoff) ∧
        d.key = p := by
  simp only [staleTests, List.mem_mergeSort, List.mem_map, List.mem_filter, DeviceRow.key]
  constructor
  · rintro ⟨d, ⟨hd, hstale⟩, rfl⟩
    simp at hstale
    grind
  · rintro ⟨d, hd, htest, hold, hunused, rfl⟩
    simp
    grind

namespace Store

def trimmed (date : Instant) (users : List String) (s : Store) : Store := { s with
  entries := s.entries.filter fun r => !(users.contains r.user && r.date ≤ date) }

def without (ds : List (String × String)) (s : Store) : Store := { s with
  devices := s.devices.filter fun d => !ds.contains (d.user, d.device)
  entries := s.entries.filter fun r => !ds.contains (r.user, r.device)
  dumpRequests := s.dumpRequests.filter fun r => !ds.contains (r.user, r.requester)
  deletionRequests := s.deletionRequests.filter fun r => !ds.contains (r.user, r.destination) }

/-- What a deep clean leaves. Who has too many entries shows when the inactive users have lost
theirs. -/
def cleaned (config : Config) (date : Instant) (s : Store) : Store :=
  let idle := s.trimmed date (Usage.inactive date s.devices s.usage)
  let small := idle.trimmed date (Entries.overgrown config.maxEntriesPerUser idle.entries)
  small.without (Devices.staleTests date small.usage small.devices)

theorem mem_devices_cleaned {config : Config} {date : Instant} {s : Store} {d : DeviceRow} :
    d ∈ (s.cleaned config date).devices ↔
      d ∈ s.devices ∧ d.key ∉ Devices.staleTests date s.usage s.devices := by
  rw [show (s.cleaned config date).devices = s.devices.filter fun d =>
    !(Devices.staleTests date s.usage s.devices).contains (d.user, d.device) from rfl]
  simp [DeviceRow.key]

theorem test_of_stale {config : Config} {date : Instant} {s : Store} {p : String × String}
    (h : p ∈ Devices.staleTests date s.usage s.devices) :
    (∃ d ∈ s.devices, d.isTest = true ∧ d.key = p) ∧
      ∀ d ∈ (s.cleaned config date).devices, d.key ≠ p := by
  obtain ⟨d, hd, htest, -, -, hkey⟩ := Devices.mem_staleTests.1 h
  refine ⟨⟨d, hd, htest, hkey⟩, fun e he hsame => ?_⟩
  exact (mem_devices_cleaned.1 he).2 (hsame ▸ h)

def swept (config : Config) (s : Store) : Store := { s with
  entries := s.entries.filter fun r => !(config.entryReadCap < r.readCount)
  deletionRequests := s.deletionRequests.filter fun r => !(config.deletionReadCap < r.readCount)
  dumpRequests := s.dumpRequests.filter fun r => !(config.dumpReadCap < r.readCount) }

theorem trimmed_nil (date : Instant) (s : Store) : s.trimmed date [] = s := by
  simp [trimmed]

theorem without_nil (s : Store) : s.without [] = s := by
  simp [without]

end Store

namespace Relay
variable {w : Setting} {s t : Store}

section Answers

theorem trimUsers_answer {cutoff : Timestamp} {date : Instant} {users : List String} {n : Nat}
    (hdate : cutoff.toInstant? = some date) (h : trimUsers w cutoff users s = (.answer n, t)) :
    t = s.trimmed date users := by
  induction users generalizing s t n with
  | nil =>
    obtain ⟨-, rfl⟩ := pure_eq_answer.1 h
    rw [Store.trimmed_nil]
  | cons user rest ih =>
    obtain ⟨_, s₁, hone, h⟩ := bind_eq_answer.1 h
    obtain ⟨_, s₂, hrest, h⟩ := bind_eq_answer.1 h
    rw [← (pure_eq_answer.1 h).2]
    obtain ⟨_, _, hstored, hdelete⟩ := bind_eq_answer.1 hone
    obtain ⟨hi, rfl⟩ := Store.storedTime_eq_answer.1 hstored
    obtain rfl := Option.some.inj (hdate.symm.trans hi)
    obtain ⟨-, -, rfl⟩ := Store.deleteEntries_eq_answer.1 hdelete
    rw [ih hrest]
    simp only [Store.trimmed, Change.apply, List.filter_filter]
    congr 2
    funext r
    by_cases hu : r.user = user <;> by_cases hd : r.date ≤ date <;> simp [hu, hd]

theorem removeDevices_answer {ds : List (String × String)} {v : Nat × Nat}
    (h : removeDevices w ds s = (.answer v, t)) : t = s.without ds := by
  induction ds generalizing s t v with
  | nil =>
    obtain ⟨-, rfl⟩ := pure_eq_answer.1 h
    rw [Store.without_nil]
  | cons p rest ih =>
    obtain ⟨user, device⟩ := p
    obtain ⟨_, s₁, h₁, h⟩ := bind_eq_answer.1 h
    obtain ⟨_, s₂, h₂, h⟩ := bind_eq_answer.1 h
    obtain ⟨_, s₃, h₃, h⟩ := bind_eq_answer.1 h
    obtain ⟨_, s₄, h₄, h⟩ := bind_eq_answer.1 h
    obtain ⟨_, s₅, hrest, h⟩ := bind_eq_answer.1 h
    rw [← (pure_eq_answer.1 h).2]
    obtain ⟨-, -, rfl⟩ := Store.deleteEntries_eq_answer.1 h₁
    obtain ⟨-, -, rfl⟩ := Store.deleteDeletionRequests_eq_answer.1 h₂
    obtain ⟨-, -, rfl⟩ := Store.deleteDumpRequests_eq_answer.1 h₃
    obtain ⟨-, -, rfl⟩ := Store.deleteDevice_eq_answer.1 h₄
    rw [ih hrest]
    simp [Store.without, Change.apply, Devices.remove, List.filter_filter, DeviceRow.is,
      EntryRow.isFor, DeletionRow.isFor, DumpRow.isBy, Bool.and_comm]

/-- The three rounds of a deep clean that answers, each on what the one before it left. -/
theorem cleanUp_eq_answer {cutoff : Timestamp} {v : DeepCleanReport} :
    cleanUp w cutoff s = (.answer v, t) ↔
      (w.refusals (.select .usage) = none ∧ w.refusals (.select .entries) = none ∧
        w.refusals (.select .devices) = none) ∧
      ∃ date, cutoff.toInstant? = some date ∧ ∃ m s₁ n s₂ gone,
        trimUsers w cutoff (Usage.inactive date s.devices s.usage) s = (.answer m, s₁) ∧
        trimUsers w cutoff (Entries.overgrown w.config.maxEntriesPerUser s₁.entries) s₁ =
          (.answer n, s₂) ∧
        removeDevices w (Devices.staleTests date s₂.usage s₂.devices) s₂ = (.answer gone, t) ∧
        v = ⟨(Usage.inactive date s.devices s.usage).length,
          (Entries.overgrown w.config.maxEntriesPerUser s₁.entries).length,
          m + n + gone.1, gone.2⟩ := by
  constructor
  · intro h
    obtain ⟨inactive, s₁, h₁, h⟩ := bind_eq_answer.1 h
    obtain ⟨m, s₂, h₂, h⟩ := bind_eq_answer.1 h
    obtain ⟨overgrown, s₃, h₃, h⟩ := bind_eq_answer.1 h
    obtain ⟨n, s₄, h₄, h⟩ := bind_eq_answer.1 h
    obtain ⟨stale, s₅, h₅, h⟩ := bind_eq_answer.1 h
    obtain ⟨gone, s₆, h₆, h⟩ := bind_eq_answer.1 h
    obtain ⟨rfl, rfl⟩ := pure_eq_answer.1 h
    obtain ⟨date, _, hcutoff, hinactive⟩ := bind_eq_answer.1 h₁
    obtain ⟨hdate, rfl⟩ := Store.storedTime_eq_answer.1 hcutoff
    obtain ⟨husage, rfl, rfl⟩ := Store.look_eq_answer.1 hinactive
    obtain ⟨hentries, rfl, rfl⟩ := Store.look_eq_answer.1 h₃
    obtain ⟨_, _, hcutoff', hstale⟩ := bind_eq_answer.1 h₅
    obtain ⟨hdate', rfl⟩ := Store.storedTime_eq_answer.1 hcutoff'
    obtain ⟨hdevices, rfl, rfl⟩ := Store.look_eq_answer.1 hstale
    obtain rfl := Option.some.inj (hdate.symm.trans hdate')
    exact ⟨⟨husage, hentries, hdevices⟩, date, hdate, m, _, n, _, gone, h₂, h₄, h₆, rfl⟩
  · rintro ⟨⟨husage, hentries, hdevices⟩, date, hdate, m, s₁, n, s₂, gone, h₂, h₄, h₆, rfl⟩
    have hcutoff (s : Store) : Store.storedTime cutoff s = (.answer date, s) :=
      Store.storedTime_eq_answer.2 ⟨hdate, rfl⟩
    have h₁ : Store.inactiveUsers w.refusals cutoff s = (.answer _, s) :=
      bind_eq_answer.2 ⟨_, _, hcutoff s, Store.look_eq_answer.2 ⟨husage, rfl, rfl⟩⟩
    have h₃ : Store.usersOver w.refusals w.config.maxEntriesPerUser s₁ = (.answer _, s₁) :=
      Store.look_eq_answer.2 ⟨hentries, rfl, rfl⟩
    have h₅ : Store.staleTestDevices w.refusals cutoff s₂ = (.answer _, s₂) :=
      bind_eq_answer.2 ⟨_, _, hcutoff s₂, Store.look_eq_answer.2 ⟨hdevices, rfl, rfl⟩⟩
    exact bind_eq_answer.2 ⟨_, _, h₁, bind_eq_answer.2 ⟨_, _, h₂, bind_eq_answer.2 ⟨_, _, h₃,
      bind_eq_answer.2 ⟨_, _, h₄, bind_eq_answer.2 ⟨_, _, h₅, bind_eq_answer.2 ⟨_, _, h₆, rfl⟩⟩⟩⟩⟩⟩

theorem cleanUp_answer {cutoff : Timestamp} {v : DeepCleanReport}
    (h : cleanUp w cutoff s = (.answer v, t)) :
    ∃ date, cutoff.toInstant? = some date ∧ t = s.cleaned w.config date := by
  obtain ⟨-, date, hdate, m, s₁, n, s₂, gone, h₁, h₂, h₃, -⟩ := cleanUp_eq_answer.1 h
  obtain rfl := trimUsers_answer hdate h₁
  obtain rfl := trimUsers_answer hdate h₂
  exact ⟨date, hdate, removeDevices_answer h₃⟩

end Answers

section Willing
variable (hfree : ∀ st, w.refusals st = none)
include hfree

theorem trimUsers_willing {cutoff : Timestamp} {date : Instant}
    (hdate : cutoff.toInstant? = some date) (users : List String) :
    Willing (trimUsers w cutoff users) := by
  induction users with
  | nil => exact .pure 0
  | cons user rest ih =>
    refine .bind (.bind (Store.storedTime_willing hdate) fun _ => ?_) fun _ =>
      .bind ih fun _ => .pure _
    exact Store.change_at_willing hfree (.dropEntries _) _ _

theorem removeDevices_willing (ds : List (String × String)) : Willing (removeDevices w ds) := by
  induction ds with
  | nil => exact .pure (0, 0)
  | cons d rest ih =>
    obtain ⟨user, device⟩ := d
    exact .bind (Store.change_at_willing hfree (.dropEntries _) _ _) fun _ =>
      .bind (Store.change_at_willing hfree (.dropTombstones _) _ _) fun _ =>
        .bind (Store.change_at_willing hfree (.dropDumps _) _ _) fun _ =>
          .bind (Store.change_at_willing hfree (.removeDevice _ _) _ _) fun _ =>
            .bind ih fun _ => .pure _

theorem cleanUp_willing {cutoff : Timestamp} {date : Instant}
    (hdate : cutoff.toInstant? = some date) : Willing (cleanUp w cutoff) :=
  .bind (.bind (Store.storedTime_willing hdate) fun _ => Store.look_willing hfree _ _) fun _ =>
    .bind (trimUsers_willing hfree hdate _) fun _ => .bind (Store.look_willing hfree _ _) fun _ =>
      .bind (trimUsers_willing hfree hdate _) fun _ =>
        .bind (.bind (Store.storedTime_willing hdate) fun _ => Store.look_willing hfree _ _)
          fun _ => .bind (removeDevices_willing hfree _) fun _ => .pure _

end Willing

/-- A deep clean changes nothing, or does all that it is to. -/
theorem deepClean_dated (w : Setting) (now : Timestamp) (r : Relay) :
    (deepClean w now r).2.store = r.store ∨ ∃ date, w.config.cutoff? now = some date ∧
      (deepClean w now r).2.store = r.store.cleaned w.config date := by
  unfold deepClean daysBefore
  cases hcutoff : now.minusDays w.config.retentionDays with
  | none => exact .inl rfl
  | some cutoff =>
    have hclean : (do let cutoff ← pure cutoff; locked (transaction (cleanUp w cutoff))) r =
        locked (transaction (cleanUp w cutoff)) r := rfl
    rw [hclean]
    cases hp : r.poisoned with
    | true => exact .inl (by rw [locked_poisoned _ hp])
    | false =>
      rw [(locked_apply _ hp).2]
      obtain h | ⟨v, h⟩ := transaction_state (cleanUp w cutoff) r.store
      · exact .inl h
      · obtain ⟨date, hdate, hs⟩ := cleanUp_answer (transaction_eq_answer.1 h)
        refine .inr ⟨date, ?_, by rw [h, hs]⟩
        rw [Config.cutoff?, hcutoff, Option.bind_some, hdate]

theorem deepClean_cases (w : Setting) (now : Timestamp) (r : Relay) :
    (deepClean w now r).2.store = r.store ∨
      ∃ date, (deepClean w now r).2.store = r.store.cleaned w.config date :=
  (deepClean_dated w now r).imp_right fun ⟨date, _, hs⟩ => ⟨date, hs⟩

section Free
variable (hfree : ∀ st, w.refusals st = none) {r : Relay} (hp : r.poisoned = false)
include hfree hp

theorem deepClean_store (now : Timestamp) : (deepClean w now r).2.store =
    match w.config.cutoff? now with
    | some date => r.store.cleaned w.config date
    | none => r.store := by
  unfold deepClean daysBefore Config.cutoff?
  cases now.minusDays w.config.retentionDays with
  | none => rfl
  | some cutoff =>
    have hclean : (do let cutoff ← pure cutoff; locked (transaction (cleanUp w cutoff))) r =
        locked (transaction (cleanUp w cutoff)) r := rfl
    rw [hclean, (locked_apply _ hp).2, Option.bind_some]
    cases hdate : cutoff.toInstant? with
    | none =>
      refine transaction_of_not_answer fun v h => ?_
      obtain ⟨date, hsome, -⟩ := cleanUp_answer (transaction_eq_answer.1 (Prod.ext h rfl))
      simp [hdate] at hsome
    | some date =>
      obtain ⟨v, t, h⟩ := (cleanUp_willing hfree hdate).answer r.store
      obtain ⟨date', hdate', rfl⟩ := cleanUp_answer h
      obtain rfl := Option.some.inj (hdate.symm.trans hdate')
      rw [transaction_answer h]

theorem sweep_store : (sweep w r).2.store = r.store.swept w.config := by
  have hsweep : (do
      let entries ← Store.deleteEntriesReadOver w.refusals w.config.entryReadCap
      let deletions ← Store.deleteDeletionRequestsReadOver w.refusals w.config.deletionReadCap
      let dumps ← Store.deleteDumpRequestsReadOver w.refusals w.config.dumpReadCap
      pure (⟨entries, deletions, dumps⟩ : SweepReport)) r.store =
        (.answer _, r.store.swept w.config) :=
    bind_eq_answer.2 ⟨_, _, Store.deleteEntries_eq_answer.2 ⟨hfree _, rfl, rfl⟩,
      bind_eq_answer.2 ⟨_, _, Store.deleteDeletionRequests_eq_answer.2 ⟨hfree _, rfl, rfl⟩,
        bind_eq_answer.2 ⟨_, _, Store.deleteDumpRequests_eq_answer.2 ⟨hfree _, rfl, rfl⟩, rfl⟩⟩⟩
  unfold sweep
  rw [(locked_apply _ hp).2, hsweep]

theorem wipeEntries_store : (wipeEntries w r).2.store =
    if w.config.environment = .test then { r.store with entries := [] } else r.store := by
  unfold wipeEntries
  split
  · have hwipe : Store.deleteAllEntries w.refusals r.store =
        (.answer _, (Change.dropEntries fun _ => true).apply r.store) :=
      Store.deleteEntries_eq_answer.2 ⟨hfree _, rfl, rfl⟩
    rw [(locked_apply _ hp).2, hwipe]
    simp [Change.apply]
  · rfl

end Free

end Relay

end HistoryRelay
