import HistoryRelay.Proofs.Cleaning

/-! What a deep clean means. Main statement: its rounds, each of which looks at what the one before
it left, remove what a single condition on the store before them condemns, and its report counts
every removed row once. -/
namespace HistoryRelay
open Step

namespace Store

section Condemned
variable (s : Store) (date : Instant)

/-- Users of several devices who used them, none of them after `date`. -/
def Idle (user : String) : Prop :=
  1 < s.devices.countP (·.user = user) ∧ (∃ u ∈ s.usage, u.user = user) ∧
    ∀ u ∈ s.usage, u.user = user → u.lastUsed ≤ date

/-- Users with more entries than `most`, which is compared as a signed number. -/
def Overgrown (most : Nat) (user : String) : Prop :=
  Word.signed most < (s.entries.countP (·.user = user) : Int)

/-- Test devices registered at or before `date` and not used after it. -/
def Stale (user device : String) : Prop :=
  ∃ d ∈ s.devices, d.key = (user, device) ∧ d.isTest = true ∧ d.registered ≤ date ∧
    ¬∃ u ∈ s.usage, u.user = user ∧ u.device = device ∧ date < u.lastUsed

/-- The entries that are to go. -/
def Condemns (most : Nat) (row : EntryRow) : Prop :=
  (s.Idle date row.user ∨ s.Overgrown most row.user) ∧ row.date ≤ date ∨
    s.Stale date row.user row.device

instance (user : String) : Decidable (s.Idle date user) := inferInstanceAs (Decidable (_ ∧ _))

instance (most : Nat) (user : String) : Decidable (s.Overgrown most user) :=
  inferInstanceAs (Decidable (_ < _))

instance (user device : String) : Decidable (s.Stale date user device) :=
  inferInstanceAs (Decidable (∃ d ∈ s.devices, _))

instance (most : Nat) (row : EntryRow) : Decidable (s.Condemns date most row) :=
  inferInstanceAs (Decidable (_ ∨ _))

/-- The store without the stale test devices, what is addressed to them or asked for by them, and
the entries that are to go. -/
def purged (most : Nat) : Store := { s with
  devices := s.devices.filter fun d => ¬s.Stale date d.user d.device
  entries := s.entries.filter fun row => ¬s.Condemns date most row
  dumpRequests := s.dumpRequests.filter fun row => ¬s.Stale date row.user row.requester
  deletionRequests := s.deletionRequests.filter fun row =>
    ¬s.Stale date row.user row.destination }

end Condemned

variable {s : Store} {date : Instant}

theorem mem_inactive_iff {user : String} :
    user ∈ Usage.inactive date s.devices s.usage ↔ s.Idle date user := by
  rw [Usage.mem_inactive, Idle]
  exact and_left_comm

theorem mem_staleTests_iff {user device : String} :
    (user, device) ∈ Devices.staleTests date s.usage s.devices ↔ s.Stale date user device := by
  simp only [Devices.mem_staleTests, Stale, not_exists, not_and, Instant.lt_iff, Instant.le_iff,
    Int.not_lt]
  constructor
  · rintro ⟨d, hd, htest, hold, hunused, hkey⟩
    exact ⟨d, hd, hkey, htest, hold, fun u hu huser hdevice =>
      hunused u hu (by rw [hkey, huser, hdevice])⟩
  · rintro ⟨d, hd, hkey, htest, hold, hunused⟩
    refine ⟨d, hd, htest, hold, fun u hu hsame => ?_, hkey⟩
    rw [hkey, Prod.mk.injEq] at hsame
    exact hunused u hu hsame.1 hsame.2

/-- Trimming some users leaves the entries of the others, so that it does not change whether they
have too many. -/
theorem mem_overgrown_trimmed {users : List String} {most : Nat} {row : EntryRow}
    (hrow : row ∈ s.entries) (huser : row.user ∉ users) :
    row.user ∈ Entries.overgrown most (s.trimmed date users).entries ↔
      s.Overgrown most row.user := by
  have hcount : (s.trimmed date users).entries.countP (·.user = row.user) =
      s.entries.countP (·.user = row.user) := by
    rw [trimmed, List.countP_filter]
    refine List.countP_congr fun r _ => ?_
    by_cases h : r.user = row.user <;> simp [h, huser]
  have hkept : row ∈ (s.trimmed date users).entries := by
    simp [trimmed, hrow, huser]
  rw [Entries.mem_overgrown, hcount]
  exact and_iff_right ⟨row, hkept, rfl⟩

/-- A row up to `date` goes in the first round if its user is idle. If not, the second round finds
its user with as many rows as the first. -/
theorem cleaned_eq (config : Config) : s.cleaned config date =
    s.purged date config.maxEntriesPerUser := by
  have hstale {user device : String} :
      (Devices.staleTests date s.usage s.devices).contains (user, device) =
        decide (s.Stale date user device) := by
    rw [Bool.eq_iff_iff, List.contains_iff_mem, decide_eq_true_iff, mem_staleTests_iff]
  have hentries : (s.cleaned config date).entries =
      s.entries.filter fun row => ¬s.Condemns date config.maxEntriesPerUser row := by
    let idle := Usage.inactive date s.devices s.usage
    let overgrown := Entries.overgrown config.maxEntriesPerUser (s.trimmed date idle).entries
    have hnested : (s.cleaned config date).entries =
        ((s.entries.filter fun r => !(idle.contains r.user && r.date ≤ date)).filter fun r =>
          !(overgrown.contains r.user && r.date ≤ date)).filter fun r =>
            !(Devices.staleTests date s.usage s.devices).contains (r.user, r.device) := rfl
    rw [hnested, List.filter_filter, List.filter_filter]
    refine List.filter_congr fun row hrow => ?_
    have hfirst : row.user ∈ idle ↔ s.Idle date row.user := mem_inactive_iff
    have hsecond : ¬s.Idle date row.user → (row.user ∈ overgrown ↔
        s.Overgrown config.maxEntriesPerUser row.user) := fun h =>
      mem_overgrown_trimmed hrow (hfirst.not.2 h)
    rw [hstale, Bool.eq_iff_iff]
    simp only [Bool.and_eq_true, Bool.not_eq_true', ← Bool.not_eq_true, List.contains_iff_mem,
      decide_eq_true_eq, hfirst]
    rw [Condemns]
    by_cases hidle : s.Idle date row.user
    · simp only [hidle, true_or, true_and]
      grind
    · simp only [hidle, hsecond hidle, false_or, false_and]
      grind
  rw [purged, ← hentries]
  simp only [decide_not, ← hstale]
  rfl

end Store

theorem Devices.countP_is_le_one {ds : List DeviceRow} (h : Keyed ds) (user device : String) :
    ds.countP (·.is user device) ≤ 1 := by
  have hkeys : ds.countP (·.is user device) = (ds.map DeviceRow.key).count (user, device) := by
    rw [List.count, List.countP_map]
    refine List.countP_congr fun d _ => ?_
    simp [DeviceRow.is_iff]
  rw [hkeys]
  exact List.nodup_iff_count_le_one.1 h _

/-- A device has one row, so that telling whether it was there is counting it. -/
theorem Store.deleteDevice_counts {refusals : Refusals} {s t : Store} {user device : String}
    {gone : Bool} (h : deleteDevice refusals user device s = (.answer gone, t))
    (hkeyed : Devices.Keyed s.devices) :
    (if gone then 1 else 0) + t.devices.length = s.devices.length := by
  obtain ⟨-, rfl, rfl⟩ := deleteDevice_eq_answer.1 h
  have hone := Devices.countP_is_le_one hkeyed user device
  have hsplit := List.length_eq_countP_add_countP (·.is user device) (l := s.devices)
  have hrest : s.devices.countP (fun d => ¬d.is user device) =
      ((Change.removeDevice user device).apply s).devices.length := by
    simp [Change.apply, Devices.remove, List.countP_eq_length_filter]
  simp only [decide_eq_true_eq]
  split <;> omega

namespace Relay
variable {w : Setting} {s t : Store}

theorem trimUsers_counts {cutoff : Timestamp} {users : List String} {n : Nat}
    (h : trimUsers w cutoff users s = (.answer n, t)) :
    n + t.entries.length = s.entries.length := by
  induction users generalizing s n with
  | nil =>
    obtain ⟨rfl, rfl⟩ := pure_eq_answer.1 h
    exact Nat.zero_add _
  | cons user rest ih =>
    obtain ⟨m, s₁, hone, h⟩ := bind_eq_answer.1 h
    obtain ⟨k, s₂, hrest, h⟩ := bind_eq_answer.1 h
    obtain ⟨rfl, rfl⟩ := pure_eq_answer.1 h
    obtain ⟨_, _, hstored, hdelete⟩ := bind_eq_answer.1 hone
    obtain ⟨-, rfl⟩ := Store.storedTime_eq_answer.1 hstored
    have hhere := Store.deleteEntries_counts hdelete
    have hthere := ih hrest
    omega

/-- Each device that is listed goes with its rows. A list may name a device twice, which is counted
when it is met first. -/
theorem removeDevices_counts {ds : List (String × String)} {gone : Nat × Nat}
    (h : removeDevices w ds s = (.answer gone, t)) :
    gone.1 + t.entries.length = s.entries.length ∧
      (Devices.Keyed s.devices → gone.2 + t.devices.length = s.devices.length) := by
  induction ds generalizing s gone with
  | nil =>
    obtain ⟨rfl, rfl⟩ := pure_eq_answer.1 h
    exact ⟨Nat.zero_add _, fun _ => Nat.zero_add _⟩
  | cons p rest ih =>
    obtain ⟨user, device⟩ := p
    obtain ⟨m, s₁, h₁, h⟩ := bind_eq_answer.1 h
    obtain ⟨_, s₂, h₂, h⟩ := bind_eq_answer.1 h
    obtain ⟨_, s₃, h₃, h⟩ := bind_eq_answer.1 h
    obtain ⟨known, s₄, h₄, h⟩ := bind_eq_answer.1 h
    obtain ⟨more, s₅, hrest, h⟩ := bind_eq_answer.1 h
    obtain ⟨rfl, rfl⟩ := pure_eq_answer.1 h
    have hentries := Store.deleteEntries_counts h₁
    have hdevices := Store.deleteDevice_counts h₄
    obtain ⟨-, -, rfl⟩ := Store.deleteEntries_eq_answer.1 h₁
    obtain ⟨-, -, rfl⟩ := Store.deleteDeletionRequests_eq_answer.1 h₂
    obtain ⟨-, -, rfl⟩ := Store.deleteDumpRequests_eq_answer.1 h₃
    obtain ⟨-, -, rfl⟩ := Store.deleteDevice_eq_answer.1 h₄
    obtain ⟨hmore, hothers⟩ := ih hrest
    constructor
    · simp only [Change.apply] at hentries hmore
      omega
    · intro hkeyed
      have hhere : _ = s.devices.length := hdevices hkeyed
      have hthere := hothers (Devices.keyed_filter _ hkeyed)
      omega

theorem daysBefore_eq_answer {σ : Type} {time earlier : Timestamp} {days : Nat} {s t : σ} :
    daysBefore time days s = (.answer earlier, t) ↔ time.minusDays days = some earlier ∧ t = s := by
  unfold daysBefore
  cases time.minusDays days with
  | none => simp [crash]
  | some _ => simp [pure_apply, eq_comm]

theorem cleanUp_counts {cutoff : Timestamp} {v : DeepCleanReport}
    (h : cleanUp w cutoff s = (.answer v, t)) : v.entries + t.entries.length = s.entries.length ∧
      (Devices.Keyed s.devices → v.testDevices + t.devices.length = s.devices.length) := by
  obtain ⟨-, date, hdate, m, s₁, n, s₂, gone, hidle, hovergrown, hstale, rfl⟩ :=
    cleanUp_eq_answer.1 h
  obtain ⟨hthird, hgone⟩ := removeDevices_counts hstale
  have hfirst := trimUsers_counts hidle
  have hsecond := trimUsers_counts hovergrown
  obtain rfl := trimUsers_answer hdate hidle
  obtain rfl := trimUsers_answer hdate hovergrown
  exact ⟨by dsimp only; omega, hgone⟩

theorem deepClean_eq_answer {now : Timestamp} {r r' : Relay} {report : DeepCleanReport} :
    deepClean w now r = (.answer report, r') ↔
      ∃ cutoff, now.minusDays w.config.retentionDays = some cutoff ∧ r.poisoned = false ∧
        r'.poisoned = false ∧ cleanUp w cutoff r.store = (.answer report, r'.store) := by
  unfold deepClean
  simp only [bind_eq_answer, daysBefore_eq_answer, locked_eq_answer, transaction_eq_answer]
  constructor
  · rintro ⟨cutoff, _, ⟨hminus, rfl⟩, hclean⟩
    exact ⟨cutoff, hminus, hclean⟩
  · rintro ⟨cutoff, hminus, hclean⟩
    exact ⟨cutoff, r, ⟨hminus, rfl⟩, hclean⟩

/-- A deep clean that answers takes from the store what is condemned by the store that it finds,
whatever round it falls into, and reports it. A device has one row by the key of its table. -/
theorem deepClean_removes_condemned {w : Setting} {now : Timestamp} {r : Relay}
    {report : DeepCleanReport} (h : (deepClean w now r).1 = .answer report) :
    ∃ cutoff date, now.minusDays w.config.retentionDays = some cutoff ∧
      cutoff.toInstant? = some date ∧
      (deepClean w now r).2 =
        { r with store := r.store.purged date w.config.maxEntriesPerUser } ∧
      report.entries = r.store.entries.countP
        (r.store.Condemns date w.config.maxEntriesPerUser ·) ∧
      (Devices.Keyed r.store.devices → report.testDevices =
        r.store.devices.countP fun d => r.store.Stale date d.user d.device) := by
  obtain ⟨after, hafter⟩ : ∃ after, deepClean w now r = (.answer report, after) :=
    ⟨_, Prod.ext h rfl⟩
  obtain ⟨cutoff, hminus, hfree, hfree', hclean⟩ := deepClean_eq_answer.1 hafter
  obtain ⟨date, hdate, hstore⟩ := cleanUp_answer hclean
  obtain ⟨hentries, hdevices⟩ := cleanUp_counts hclean
  rw [Store.cleaned_eq] at hstore
  rw [hstore] at hentries hdevices
  simp only [Store.purged, decide_not] at hentries hdevices
  refine ⟨cutoff, date, hminus, hdate, ?_, eq_countP_of_left hentries, fun hkeyed =>
    eq_countP_of_left (hdevices hkeyed)⟩
  rw [hafter, ← hstore, hfree, ← hfree']

/-- Ada is idle and stores too much, Bob stores too much on a stale test device, and Cy is still
using his. -/
theorem deepClean_removes_condemned_of_three :
    let w : Setting := { (default : Setting) with
      config := { retentionDays := 1, maxEntriesPerUser := 2 } }
    let now : Timestamp := ⟨172800, 0, by decide, by decide, by decide, by decide⟩
    let old : Instant := ⟨0, by decide, by decide⟩
    let new : Instant := ⟨86400000000001, by decide, by decide⟩
    let entry (id : Nat) (user device : String) (date : Instant) : EntryRow :=
      ⟨id, user, device, "", [], [], date, 0, false⟩
    let store : Store := {
      devices := [⟨"ada", "desk", "", old, false, none⟩, ⟨"ada", "lap", "", old, false, none⟩,
        ⟨"bob", "tab", "", old, true, none⟩, ⟨"cy", "desk", "", old, true, none⟩]
      entries := [entry 1 "ada" "desk" old, entry 2 "ada" "lap" old, entry 3 "ada" "lap" new,
        entry 4 "bob" "tab" old, entry 5 "bob" "tab" old, entry 6 "bob" "tab" new,
        entry 7 "cy" "desk" old]
      usage := [⟨"ada", "desk", old, "", .whole 0, none, 0, ""⟩,
        ⟨"cy", "desk", new, "", .whole 0, none, 0, ""⟩] }
    ∃ report, (deepClean w now ⟨store, false⟩).1 = .answer report ∧
      report.entries = 5 ∧ report.testDevices = 1 ∧
      (deepClean w now ⟨store, false⟩).2.store.entries.map (·.id) = [3, 7] := by
  intro w now old new entry store
  have hanswer : (deepClean w now ⟨store, false⟩).1 = .answer ⟨1, 1, 5, 1⟩ := by cbv
  obtain ⟨cutoff, date, hcutoff, hdate, hstore, hentries, hdevices⟩ :=
    deepClean_removes_condemned hanswer
  obtain rfl : cutoff = ⟨86400, 0, by decide, by decide, by decide, by decide⟩ :=
    Option.some.inj (hcutoff.symm.trans (by cbv))
  obtain rfl : date = ⟨86400000000000, by decide, by decide⟩ :=
    Option.some.inj (hdate.symm.trans (by cbv))
  refine ⟨_, hanswer, hentries.trans (by decide), (hdevices (by decide)).trans (by decide), ?_⟩
  rw [hstore]
  decide

end Relay

end HistoryRelay
