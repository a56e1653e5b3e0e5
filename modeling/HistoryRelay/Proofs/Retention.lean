import HistoryRelay.Proofs.DeepClean
import HistoryRelay.Proofs.Loading

/-! How much a deep clean takes. Main statements: users who keep to the bound lose nothing to it,
and a greater bound takes less, for every bound below 2 to the 63, as those that can be configured
are; and a second deep clean as of the same time takes nothing more. -/
namespace HistoryRelay
open Step

/-- All rows are in the other store too, and those of the usage ledger and the feedback are the
same. -/
structure Store.Within (s t : Store) : Prop where
  devices : s.devices.Sublist t.devices
  entries : s.entries.Sublist t.entries
  dumpRequests : s.dumpRequests.Sublist t.dumpRequests
  deletionRequests : s.deletionRequests.Sublist t.deletionRequests
  usage : s.usage = t.usage
  feedback : s.feedback = t.feedback

def Setting.withBound (w : Setting) (most : Word.Full) : Setting :=
  { w with config := { w.config with maxEntriesPerUser := most } }

namespace Store
variable {s : Store} {date : Instant} {most more : Nat} {row : EntryRow}

theorem mem_purged : row ∈ (s.purged date most).entries ↔
    row ∈ s.entries ∧ ¬s.Condemns date most row := by
  simp [purged]

theorem purged_within : (s.purged date most).Within s :=
  ⟨List.filter_sublist, List.filter_sublist, List.filter_sublist, List.filter_sublist, rfl, rfl⟩

section Bound

/-- A user who is not idle, keeps to the bound and has no stale device keeps every entry. -/
theorem mem_purged_of_spared (hmost : most < 9223372036854775808) (hrow : row ∈ s.entries)
    (hidle : ¬s.Idle date row.user) (hkept : s.entries.countP (·.user = row.user) ≤ most)
    (hstale : ∀ device, ¬s.Stale date row.user device) : row ∈ (s.purged date most).entries := by
  have hover : ¬s.Overgrown most row.user := by
    rw [Overgrown, Word.signed_of_lt hmost, Int.not_lt]
    exact Int.ofNat_le.2 hkept
  refine mem_purged.2 ⟨hrow, ?_⟩
  rintro (⟨huser, -⟩ | hgone)
  · exact huser.elim hidle hover
  · exact hstale row.device hgone

theorem Condemns.of_le (h : s.Condemns date more row) (hle : Word.signed most ≤ Word.signed more) :
    s.Condemns date most row :=
  h.imp_left fun ⟨huser, hdate⟩ => ⟨huser.imp_right fun hover => hle.trans_lt hover, hdate⟩

theorem purged_within_of_le (h : Word.signed most ≤ Word.signed more) :
    (s.purged date most).Within (s.purged date more) where
  devices := List.Sublist.refl _
  entries := List.monotone_filter_right _ fun row hkept => by
    rw [decide_eq_true_eq] at hkept ⊢
    exact fun hgone => hkept (hgone.of_le h)
  dumpRequests := List.Sublist.refl _
  deletionRequests := List.Sublist.refl _
  usage := rfl
  feedback := rfl

end Bound

section Again

theorem Idle.of_purged {user : String} (h : (s.purged date most).Idle date user) :
    s.Idle date user :=
  ⟨h.1.trans_le (List.filter_sublist.countP_le), h.2⟩

theorem Overgrown.of_purged {user : String} (h : (s.purged date most).Overgrown most user) :
    s.Overgrown most user :=
  h.trans_le (Int.ofNat_le.2 (List.filter_sublist.countP_le))

theorem not_stale_purged {user device : String} :
    ¬(s.purged date most).Stale date user device := by
  rintro ⟨d, hd, hkey, hstale⟩
  obtain ⟨hd, hkept⟩ := List.mem_filter.1 hd
  obtain ⟨rfl, rfl⟩ := Prod.mk.inj hkey
  exact of_decide_eq_true hkept ⟨d, hd, hkey, hstale⟩

theorem not_condemned_purged (h : row ∈ (s.purged date most).entries) :
    ¬(s.purged date most).Condemns date most row := by
  rintro (⟨huser, hdate⟩ | hstale)
  · exact (mem_purged.1 h).2 (.inl ⟨huser.imp Idle.of_purged Overgrown.of_purged, hdate⟩)
  · exact not_stale_purged hstale

end Again

end Store

namespace Relay
variable {w : Setting} {now : Timestamp} {r : Relay} {report : DeepCleanReport}

section Bound

theorem deepClean_purges (h : (deepClean w now r).1 = .answer report) :
    ∃ date, w.config.cutoff? now = some date ∧
      (deepClean w now r).2.store = r.store.purged date w.config.maxEntriesPerUser ∧
      report.entries + (deepClean w now r).2.store.entries.length = r.store.entries.length := by
  obtain ⟨cutoff, hminus, -, -, hclean⟩ := deepClean_eq_answer.1 (Prod.ext h rfl)
  obtain ⟨date, hdate, hstore⟩ := cleanUp_answer hclean
  refine ⟨date, ?_, hstore.trans (Store.cleaned_eq _), (cleanUp_counts hclean).1⟩
  rw [Config.cutoff?, hminus, Option.bind_some, hdate]

theorem deepClean_within_raised (h : (deepClean w now r).1 = .answer report) {more : Word.Full}
    (hle : w.config.maxEntriesPerUser ≤ more) (hmore : more.val < 9223372036854775808) :
    (deepClean w now r).2.store.Within (deepClean (w.withBound more) now r).2.store := by
  have hsigned : Word.signed w.config.maxEntriesPerUser ≤ Word.signed more := by
    rw [Word.signed_of_lt (Nat.lt_of_le_of_lt hle hmore), Word.signed_of_lt hmore]
    exact Int.ofNat_le.2 hle
  obtain ⟨date, hdate, hleft, -⟩ := deepClean_purges h
  rw [hleft]
  -- The run with the greater bound may fail, and then everything is left.
  obtain hsame | ⟨date', hdate', hraised⟩ := deepClean_dated (w.withBound more) now r
  · rw [hsame]
    exact Store.purged_within
  · obtain rfl : date = date' := Option.some.inj (hdate.symm.trans hdate')
    rw [hraised, Store.cleaned_eq]
    exact Store.purged_within_of_le hsigned

/-- A configuration that the relay starts with has a bound below 2 to the 63. As long as the bound
is below that, a deep clean that answers takes no entry from a user who is not idle, keeps to the
bound and has no stale device, and with a greater bound it leaves what it leaves with this one. -/
theorem deepClean_keeps_to_bound (w : Setting) (now : Timestamp) (r : Relay) :
    let bound := w.config.maxEntriesPerUser
    let left := (deepClean w now r).2.store
    (∀ file lookup flags, Config.load? file lookup flags = some w.config →
      bound.val < 9223372036854775808) ∧
    ∀ report, bound.val < 9223372036854775808 → (deepClean w now r).1 = .answer report →
      ∃ date, w.config.cutoff? now = some date ∧
        (∀ row ∈ r.store.entries, ¬r.store.Idle date row.user →
          r.store.entries.countP (·.user = row.user) ≤ bound →
          (∀ device, ¬r.store.Stale date row.user device) → row ∈ left.entries) ∧
        ∀ more : Word.Full, bound ≤ more → more.val < 9223372036854775808 →
          let raised := deepClean (w.withBound more) now r
          left.Within raised.2.store ∧
            ∀ report', raised.1 = .answer report' → report'.entries ≤ report.entries := by
  intro bound left
  refine ⟨fun _ _ _ => Config.maxEntriesPerUser_lt, fun report hbound h => ?_⟩
  obtain ⟨date, hdate, hleft, hcount⟩ := deepClean_purges h
  refine ⟨date, hdate, fun row hrow hidle hkept hstale => ?_, fun more hle hmore => ?_⟩
  · have hmem := Store.mem_purged_of_spared hbound hrow hidle hkept hstale
    rwa [← hleft] at hmem
  · have hwithin := deepClean_within_raised h hle hmore
    refine ⟨hwithin, fun report' h' => ?_⟩
    obtain ⟨-, -, -, hcount'⟩ := deepClean_purges h'
    have hlength := hwithin.entries.length_le
    omega

/-- Ada keeps to the bound of two that a file sets, and Bob does not. -/
theorem deepClean_keeps_to_bound_of_two :
    let file := "inactive_retention_days = 1\nmax_entries_per_user = 2\n"
    let w : Setting := { (default : Setting) with
      config := { retentionDays := 1, maxEntriesPerUser := 2 } }
    let now : Timestamp := ⟨172800, 0, by decide, by decide, by decide, by decide⟩
    let old : Instant := ⟨0, by decide, by decide⟩
    let entry (id : Nat) (user : String) : EntryRow :=
      ⟨id, user, "desk", "", [], [], old, 0, false⟩
    let store : Store := {
      devices := [⟨"ada", "desk", "", old, false, none⟩, ⟨"bob", "desk", "", old, false, none⟩]
      entries := [entry 1 "ada", entry 2 "ada", entry 3 "bob", entry 4 "bob", entry 5 "bob"] }
    let left := (deepClean w now ⟨store, false⟩).2.store
    Config.load? (some file) (fun _ => none) {} = some w.config ∧
      (deepClean w now ⟨store, false⟩).1 = .answer ⟨0, 1, 3, 0⟩ ∧ entry 1 "ada" ∈ left.entries ∧
      left.Within (deepClean (w.withBound 3) now ⟨store, false⟩).2.store := by
  intro file w now old entry store left
  obtain ⟨hloaded, hlaw⟩ := deepClean_keeps_to_bound w now ⟨store, false⟩
  have hload : Config.load? (some file) (fun _ => none) {} = some w.config := by decide +kernel
  have hanswer : (deepClean w now ⟨store, false⟩).1 = .answer ⟨0, 1, 3, 0⟩ := by cbv
  obtain ⟨date, hdate, hspared, hraised⟩ := hlaw _ (hloaded _ _ _ hload) hanswer
  obtain rfl : date = ⟨86400000000000, by decide, by decide⟩ :=
    Option.some.inj (hdate.symm.trans (by cbv))
  refine ⟨hload, hanswer, hspared (entry 1 "ada") (by decide) (by decide) (by decide) ?_,
    (hraised 3 (by decide) (by decide)).1⟩
  rintro device ⟨d, hd, -, htest, -⟩
  have hreal : ∀ d ∈ store.devices, d.isTest = false := by decide
  rw [hreal d hd] at htest
  cases htest

/-- Ada has one device, which is no test device, and one entry. A bound of one keeps it, and the
greatest bound of 64 bits does not. No file holds that bound: its integers have a sign. -/
theorem greatest_bound_keeps_nothing :
    let w : Setting := ⟨{ trackUsage := false, retentionDays := 1 }, default, fun _ => none⟩
    let turns : List Turn := [⟨w, .register ⟨"ada", "desk", false⟩ .unknown⟩,
      ⟨w, .submit [⟨[1], [2], "lap", "ada", default, "e1", 0, false⟩] none .unknown⟩]
    let now : Timestamp := ⟨172800, 0, by decide, by decide, by decide, by decide⟩
    let date : Instant := ⟨86400000000000, by decide, by decide⟩
    let before := (run {} turns).store
    let kept := deepClean (w.withBound 1) now (run {} turns)
    let lost := deepClean (w.withBound 18446744073709551615) now (run {} turns)
    ∃ row, before.entries = [row] ∧ w.config.cutoff? now = some date ∧
      ¬before.Idle date row.user ∧ (∀ d ∈ before.devices, d.isTest = false) ∧
      kept.1 = .answer ⟨0, 0, 0, 0⟩ ∧ kept.2.store.entries = [row] ∧
      lost.1 = .answer ⟨0, 1, 1, 0⟩ ∧ lost.2.store.entries = [] := by
  intro w turns now date before kept lost
  have hrun : run {} turns = ⟨{
      devices := [⟨"ada", "desk", "UnknownIp", ⟨0, by decide, by decide⟩, false, none⟩]
      entries := [⟨1, "ada", "desk", "e1", [1], [2], ⟨0, by decide, by decide⟩, 0, false⟩]
      lastEntry := 1 }, false⟩ := by cbv
  simp only [before, kept, lost, hrun]
  refine ⟨_, rfl, by cbv, by decide, by decide, by cbv, by cbv, by cbv, by cbv⟩

end Bound

section Again

theorem trimUsers_spares {cutoff : Timestamp} {date : Instant}
    (hdate : cutoff.toInstant? = some date) (hgranted : w.refusals (.delete .entries 0) = none)
    {s : Store} {users : List String}
    (h : ∀ row ∈ s.entries, row.user ∈ users → ¬row.date ≤ date) :
    trimUsers w cutoff users s = (.answer 0, s) := by
  induction users with
  | nil => rfl
  | cons user rest ih =>
    let old (row : EntryRow) : Bool := row.user = user && row.date ≤ date
    have hnone : ∀ row ∈ s.entries, ¬old row = true := fun row hrow hold => by
      obtain ⟨huser, hdate⟩ := Bool.and_eq_true_iff.1 hold
      exact h row hrow (by simp [of_decide_eq_true huser]) (of_decide_eq_true hdate)
    have hzero : s.entries.countP old = 0 := List.countP_eq_zero.2 hnone
    have hkept : (Change.dropEntries old).apply s = s := by
      rw [Change.apply, List.filter_eq_self.2 fun row hrow => by simp [hnone row hrow]]
    have hone : Store.deleteEntriesUpTo w.refusals user cutoff s = (.answer 0, s) :=
      bind_eq_answer.2 ⟨date, s, Store.storedTime_eq_answer.2 ⟨hdate, rfl⟩,
        Store.deleteEntries_eq_answer.2 ⟨hzero ▸ hgranted, hzero.symm, hkept.symm⟩⟩
    have hrest := ih fun row hrow huser => h row hrow (List.mem_cons_of_mem user huser)
    exact bind_eq_answer.2 ⟨0, s, hone, bind_eq_answer.2 ⟨0, s, hrest, rfl⟩⟩

/-- A deep clean that comes right after one that has answered, as of the same time and under the
same settings, answers too if only the store lets a deletion pass that hits no row. It changes
nothing and reports that no entry and no device is gone. Users whom it finds inactive or with too
many entries are counted again. -/
theorem deepClean_is_idempotent (h : (deepClean w now r).1 = .answer report)
    (hgranted : w.refusals (.delete .entries 0) = none) :
    let after := (deepClean w now r).2
    ∃ inactive overgrown, deepClean w now after = (.answer ⟨inactive, overgrown, 0, 0⟩, after) := by
  intro after
  obtain ⟨cutoff, hminus, -, hfree, hclean⟩ := deepClean_eq_answer.1 (Prod.ext h rfl)
  obtain ⟨hlooks, -⟩ := cleanUp_eq_answer.1 hclean
  obtain ⟨date, hdate, hstore⟩ := cleanUp_answer hclean
  rw [Store.cleaned_eq] at hstore
  -- A user may well be found idle or with too many rows again. What counts is that none of the rows
  -- that are left is condemned, so that the rounds of the second run have nothing to take.
  have hnone : ∀ row ∈ after.store.entries,
      ¬after.store.Condemns date w.config.maxEntriesPerUser row := by
    rw [hstore]
    exact fun _ => Store.not_condemned_purged
  have hidle : trimUsers w cutoff (Usage.inactive date after.store.devices after.store.usage)
      after.store = (.answer 0, after.store) :=
    trimUsers_spares hdate hgranted fun row hrow huser hold =>
      hnone row hrow (.inl ⟨.inl (Store.mem_inactive_iff.1 huser), hold⟩)
  have hover : trimUsers w cutoff (Entries.overgrown w.config.maxEntriesPerUser
      after.store.entries) after.store = (.answer 0, after.store) :=
    trimUsers_spares hdate hgranted fun row hrow huser hold =>
      hnone row hrow (.inl ⟨.inr (Entries.mem_overgrown.1 huser).2, hold⟩)
  have hfresh : Devices.staleTests date after.store.usage after.store.devices = [] := by
    refine List.eq_nil_iff_forall_not_mem.2 fun (user, device) hstale => ?_
    rw [hstore] at hstale
    exact Store.not_stale_purged (Store.mem_staleTests_iff.1 hstale)
  have hdevices : removeDevices w
      (Devices.staleTests date after.store.usage after.store.devices) after.store =
        (.answer (0, 0), after.store) := by
    rw [hfresh]
    rfl
  exact ⟨_, _, deepClean_eq_answer.2 ⟨cutoff, hminus, hfree, hfree,
    cleanUp_eq_answer.2 ⟨hlooks, date, hdate, 0, _, 0, _, _, hidle, hover, hdevices, rfl⟩⟩⟩

/-- What is left of three users is left again. Ada is idle and Bob stores too much. -/
theorem deepClean_is_idempotent_on_two :
    let w : Setting := { (default : Setting) with
      config := { retentionDays := 1, maxEntriesPerUser := 1 } }
    let now : Timestamp := ⟨172800, 0, by decide, by decide, by decide, by decide⟩
    let old : Instant := ⟨0, by decide, by decide⟩
    let new : Instant := ⟨86400000000001, by decide, by decide⟩
    let entry (id : Nat) (user device : String) (date : Instant) : EntryRow :=
      ⟨id, user, device, "", [], [], date, 0, false⟩
    let store : Store := {
      devices := [⟨"ada", "desk", "", old, false, none⟩, ⟨"ada", "lap", "", old, false, none⟩,
        ⟨"bob", "tab", "", old, true, none⟩, ⟨"bob", "desk", "", old, false, none⟩]
      entries := [entry 1 "ada" "desk" old, entry 2 "bob" "tab" new, entry 3 "bob" "desk" old,
        entry 4 "bob" "desk" new, entry 5 "bob" "desk" new]
      usage := [⟨"ada", "desk", old, "", .whole 0, none, 0, ""⟩] }
    let after := (deepClean w now ⟨store, false⟩).2
    (deepClean w now ⟨store, false⟩).1 = .answer ⟨1, 1, 3, 1⟩ ∧
      ∃ inactive overgrown, deepClean w now after =
        (.answer ⟨inactive, overgrown, 0, 0⟩, after) := by
  intro w now old new entry store after
  have hanswer : (deepClean w now ⟨store, false⟩).1 = .answer ⟨1, 1, 3, 1⟩ := by cbv
  exact ⟨hanswer, deepClean_is_idempotent hanswer rfl⟩

end Again

end Relay

end HistoryRelay
