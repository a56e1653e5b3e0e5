import HistoryRelay.Proofs.Retention

/-! The two jobs of housekeeping, the sweep and the deep clean, in either order. Main statement: as
long as no user has too many entries, both orders leave the same and remove as many entries. -/
namespace HistoryRelay
open Step

namespace Store
variable {s : Store} {config : Config} {date : Instant} {most : Nat}

theorem Overgrown.of_swept {user : String} (h : (s.swept config).Overgrown most user) :
    s.Overgrown most user :=
  h.trans_le (Int.ofNat_le.2 List.filter_sublist.countP_le)

/-- Who is idle and which devices are stale shows in tables that a sweep leaves alone. So a row is
condemned after a sweep if it was before, unless its user has too many. -/
theorem condemns_swept {row : EntryRow} (h : ¬s.Overgrown most row.user) :
    (s.swept config).Condemns date most row ↔ s.Condemns date most row := by
  have hswept : ¬(s.swept config).Overgrown most row.user := fun hover => h hover.of_swept
  simp only [Condemns, h, hswept, or_false]
  rfl

/-- Where nobody has too many entries, both take what they would take alone. -/
theorem purged_swept (h : ∀ row ∈ s.entries, ¬s.Overgrown most row.user) :
    (s.swept config).purged date most = (s.purged date most).swept config := by
  have hentries : ((s.swept config).purged date most).entries =
      ((s.purged date most).swept config).entries := by
    refine Eq.trans (List.filter_congr fun row hrow => ?_) (List.filter_comm _ _ _)
    exact decide_eq_decide.2 (not_congr (condemns_swept (h row (List.mem_of_mem_filter hrow))))
  have hdumps : ((s.swept config).purged date most).dumpRequests =
      ((s.purged date most).swept config).dumpRequests := List.filter_comm _ _ _
  have htombstones : ((s.swept config).purged date most).deletionRequests =
      ((s.purged date most).swept config).deletionRequests := List.filter_comm _ _ _
  calc (s.swept config).purged date most
    _ = { (s.purged date most).swept config with
          entries := ((s.swept config).purged date most).entries
          dumpRequests := ((s.swept config).purged date most).dumpRequests
          deletionRequests := ((s.swept config).purged date most).deletionRequests } := rfl
    _ = (s.purged date most).swept config := by rw [hentries, hdumps, htombstones]

end Store

namespace Relay
variable {w : Setting} {now : Timestamp} {r r' : Relay}

/-- The sweep first, then the deep clean; tells how many entries both remove. -/
def sweepThenClean (w : Setting) (now : Timestamp) : Step Relay Nat := do
  let swept ← sweep w
  let cleaned ← deepClean w now
  pure (swept.entries + cleaned.entries)

def cleanThenSweep (w : Setting) (now : Timestamp) : Step Relay Nat := do
  let cleaned ← deepClean w now
  let swept ← sweep w
  pure (swept.entries + cleaned.entries)

theorem sweep_answer {report : SweepReport} (h : sweep w r = (.answer report, r')) :
    r.poisoned = false ∧ r' = ⟨r.store.swept w.config, false⟩ ∧
      report.entries + r'.store.entries.length = r.store.entries.length := by
  obtain ⟨hfree, hfree', h⟩ := locked_eq_answer.1 h
  obtain ⟨n, s₁, hentries, h⟩ := bind_eq_answer.1 h
  obtain ⟨_, s₂, htombstones, h⟩ := bind_eq_answer.1 h
  obtain ⟨_, s₃, hdumps, h⟩ := bind_eq_answer.1 h
  obtain ⟨rfl, hs⟩ := pure_eq_answer.1 h
  have hcount := Store.deleteEntries_counts hentries
  obtain ⟨-, -, rfl⟩ := Store.deleteEntries_eq_answer.1 hentries
  obtain ⟨-, -, rfl⟩ := Store.deleteDeletionRequests_eq_answer.1 htombstones
  obtain ⟨-, -, rfl⟩ := Store.deleteDumpRequests_eq_answer.1 hdumps
  obtain ⟨t, poisoned⟩ := r'
  obtain rfl : poisoned = false := hfree'
  obtain rfl := hs
  exact ⟨hfree, rfl, hcount⟩

theorem sweep_answers (hfree : ∀ st, w.refusals st = none) (hp : r.poisoned = false) :
    ∃ report r', sweep w r = (.answer report, r') := by
  have hwilling : Willing (do
      let entries ← Store.deleteEntriesReadOver w.refusals w.config.entryReadCap
      let deletions ← Store.deleteDeletionRequestsReadOver w.refusals w.config.deletionReadCap
      let dumps ← Store.deleteDumpRequestsReadOver w.refusals w.config.dumpReadCap
      pure (⟨entries, deletions, dumps⟩ : SweepReport)) :=
    .bind (Store.change_at_willing hfree (.dropEntries _) _ _) fun _ =>
      .bind (Store.change_at_willing hfree (.dropTombstones _) _ _) fun _ =>
        .bind (Store.change_at_willing hfree (.dropDumps _) _ _) fun _ => .pure _
  obtain ⟨report, t, h⟩ := hwilling.answer r.store
  exact ⟨report, ⟨t, false⟩, locked_eq_answer.2 ⟨hp, rfl, h⟩⟩

theorem deepClean_answer {report : DeepCleanReport} (h : deepClean w now r = (.answer report, r')) :
    ∃ date, w.config.cutoff? now = some date ∧ r.poisoned = false ∧
      r' = ⟨r.store.purged date w.config.maxEntriesPerUser, false⟩ ∧
      report.entries + r'.store.entries.length = r.store.entries.length := by
  obtain ⟨cutoff, -, hfree, hfree', -⟩ := deepClean_eq_answer.1 h
  obtain ⟨date, hdate, hstore, hcount⟩ := deepClean_purges (congrArg Prod.fst h)
  rw [h] at hstore hcount
  refine ⟨date, hdate, hfree, ?_, hcount⟩
  rw [← hstore, ← hfree']

theorem deepClean_answers {date : Instant} (hfree : ∀ st, w.refusals st = none)
    (hdate : w.config.cutoff? now = some date) (hp : r.poisoned = false) :
    ∃ report r', deepClean w now r = (.answer report, r') := by
  obtain ⟨cutoff, hminus, hcutoff⟩ := Option.bind_eq_some_iff.1 hdate
  obtain ⟨report, t, h⟩ := (cleanUp_willing hfree hcutoff).answer r.store
  exact ⟨report, ⟨t, false⟩, deepClean_eq_answer.2 ⟨cutoff, hminus, hp, rfl, h⟩⟩

theorem sweepThenClean_answer {n : Nat} (h : sweepThenClean w now r = (.answer n, r')) :
    ∃ date, w.config.cutoff? now = some date ∧
      r' = ⟨(r.store.swept w.config).purged date w.config.maxEntriesPerUser, false⟩ ∧
      n + r'.store.entries.length = r.store.entries.length := by
  obtain ⟨swept, r₁, hsweep, h⟩ := bind_eq_answer.1 h
  obtain ⟨cleaned, r₂, hclean, h⟩ := bind_eq_answer.1 h
  obtain ⟨rfl, rfl⟩ := pure_eq_answer.1 h
  obtain ⟨-, rfl, hswept⟩ := sweep_answer hsweep
  obtain ⟨date, hdate, -, rfl, hcleaned⟩ := deepClean_answer hclean
  refine ⟨date, hdate, rfl, ?_⟩
  omega

theorem cleanThenSweep_answer {n : Nat} (h : cleanThenSweep w now r = (.answer n, r')) :
    ∃ date, w.config.cutoff? now = some date ∧
      r' = ⟨(r.store.purged date w.config.maxEntriesPerUser).swept w.config, false⟩ ∧
      n + r'.store.entries.length = r.store.entries.length := by
  obtain ⟨cleaned, r₁, hclean, h⟩ := bind_eq_answer.1 h
  obtain ⟨swept, r₂, hsweep, h⟩ := bind_eq_answer.1 h
  obtain ⟨rfl, rfl⟩ := pure_eq_answer.1 h
  obtain ⟨date, hdate, -, rfl, hcleaned⟩ := deepClean_answer hclean
  obtain ⟨-, rfl, hswept⟩ := sweep_answer hsweep
  refine ⟨date, hdate, rfl, ?_⟩
  omega

section Free
variable {date : Instant} (hfree : ∀ st, w.refusals st = none)
  (hdate : w.config.cutoff? now = some date) (hp : r.poisoned = false)
include hfree hdate hp

theorem sweepThenClean_answers : ∃ n r', sweepThenClean w now r = (.answer n, r') := by
  obtain ⟨swept, r₁, hsweep⟩ := sweep_answers hfree hp
  have hp₁ : r₁.poisoned = false := by rw [(sweep_answer hsweep).2.1]
  obtain ⟨cleaned, r₂, hclean⟩ := deepClean_answers hfree hdate hp₁
  exact ⟨_, r₂, bind_eq_answer.2 ⟨swept, _, hsweep, bind_eq_answer.2 ⟨cleaned, r₂, hclean, rfl⟩⟩⟩

theorem cleanThenSweep_answers : ∃ n r', cleanThenSweep w now r = (.answer n, r') := by
  obtain ⟨cleaned, r₁, hclean⟩ := deepClean_answers hfree hdate hp
  obtain ⟨_, -, -, hleft, -⟩ := deepClean_answer hclean
  have hp₁ : r₁.poisoned = false := by rw [hleft]
  obtain ⟨swept, r₂, hsweep⟩ := sweep_answers hfree hp₁
  exact ⟨_, r₂, bind_eq_answer.2 ⟨cleaned, _, hclean, bind_eq_answer.2 ⟨swept, r₂, hsweep, rfl⟩⟩⟩

end Free

/-- Where the deep clean answers and no user has too many entries, the two jobs leave the same in
either order and remove as many entries together. That both orders answer takes a store that
refuses nothing, as the second job may be refused what it would have been allowed as the first. -/
theorem housekeeping_commutes {report : DeepCleanReport}
    (h : (deepClean w now r).1 = .answer report)
    (hover : (Store.usersOver w.refusals w.config.maxEntriesPerUser r.store).1 = .answer []) :
    (∀ m n r₁ r₂, sweepThenClean w now r = (.answer m, r₁) →
      cleanThenSweep w now r = (.answer n, r₂) → r₁ = r₂ ∧ m = n) ∧
    ((∀ st, w.refusals st = none) → ∃ n r', sweepThenClean w now r = (.answer n, r') ∧
      cleanThenSweep w now r = (.answer n, r')) := by
  obtain ⟨date, hdate, hp, -, -⟩ := deepClean_answer (Prod.ext h rfl)
  have hnobody : Entries.overgrown w.config.maxEntriesPerUser r.store.entries = [] :=
    (Store.look_eq_answer.1 (Prod.ext hover rfl)).2.1.symm
  have hbelow : ∀ row ∈ r.store.entries,
      ¬r.store.Overgrown w.config.maxEntriesPerUser row.user := fun row hrow hrowOver =>
    List.not_mem_nil (hnobody ▸ Entries.mem_overgrown.2 ⟨⟨row, hrow, rfl⟩, hrowOver⟩)
  have hagree : ∀ m n r₁ r₂, sweepThenClean w now r = (.answer m, r₁) →
      cleanThenSweep w now r = (.answer n, r₂) → r₁ = r₂ ∧ m = n := by
    intro m n r₁ r₂ hfirst hsecond
    obtain ⟨date₁, hdate₁, rfl, hm⟩ := sweepThenClean_answer hfirst
    obtain ⟨date₂, hdate₂, rfl, hn⟩ := cleanThenSweep_answer hsecond
    obtain rfl : date₁ = date₂ := Option.some.inj (hdate₁.symm.trans hdate₂)
    rw [Store.purged_swept hbelow] at hm ⊢
    exact ⟨rfl, by omega⟩
  refine ⟨hagree, fun hfree => ?_⟩
  obtain ⟨m, r₁, hfirst⟩ := sweepThenClean_answers hfree hdate hp
  obtain ⟨n, r₂, hsecond⟩ := cleanThenSweep_answers hfree hdate hp
  obtain ⟨rfl, rfl⟩ := hagree m n r₁ r₂ hfirst hsecond
  exact ⟨m, r₁, hfirst, hsecond⟩

/-- Ada is idle, Bob's test device is stale, and the two jobs would both take some of their rows. -/
theorem housekeeping_commutes_of_two :
    let w : Setting := { (default : Setting) with config := { retentionDays := 1 } }
    let now : Timestamp := ⟨172800, 0, by decide, by decide, by decide, by decide⟩
    let old : Instant := ⟨0, by decide, by decide⟩
    let new : Instant := ⟨86400000000001, by decide, by decide⟩
    let entry (id : Nat) (user device : String) (date : Instant) (reads : Nat) : EntryRow :=
      ⟨id, user, device, "", [], [], date, reads, false⟩
    let store : Store := {
      devices := [⟨"ada", "desk", "", old, false, none⟩, ⟨"ada", "lap", "", old, false, none⟩,
        ⟨"bob", "tab", "", old, true, none⟩]
      entries := [entry 1 "ada" "desk" old 11, entry 2 "ada" "lap" old 0,
        entry 3 "ada" "lap" new 11, entry 4 "ada" "lap" new 10, entry 5 "bob" "tab" new 11]
      usage := [⟨"ada", "desk", old, "", .whole 0, none, 0, ""⟩] }
    (deepClean w now ⟨store, false⟩).1 = .answer ⟨1, 0, 3, 1⟩ ∧
      ∃ after, sweepThenClean w now ⟨store, false⟩ = (.answer 4, after) ∧
        cleanThenSweep w now ⟨store, false⟩ = (.answer 4, after) := by
  intro w now old new entry store
  have hanswer : (deepClean w now ⟨store, false⟩).1 = .answer ⟨1, 0, 3, 1⟩ := by cbv
  have hover : (Store.usersOver w.refusals w.config.maxEntriesPerUser store).1 = .answer [] := by
    cbv
  have hfour : (sweepThenClean w now ⟨store, false⟩).1 = .answer 4 := by cbv
  obtain ⟨n, after, hfirst, hsecond⟩ := (housekeeping_commutes hanswer hover).2 fun _ => rfl
  obtain rfl : n = 4 := by
    rw [hfirst] at hfour
    injection hfour
  exact ⟨hanswer, after, hfirst, hsecond⟩

/-- A sweep can bring a user back to the bound and so save what a clean before it would take. -/
example :
    let w : Setting :=
      { (default : Setting) with config := { maxEntriesPerUser := 1, retentionDays := 1 } }
    let now : Timestamp := ⟨172800, 0, by decide, by decide, by decide, by decide⟩
    let old : Instant := ⟨0, by decide, by decide⟩
    let r : Relay := ⟨{ entries := [⟨1, "ada", "desk", "", [], [], old, 11, false⟩,
      ⟨2, "ada", "desk", "", [], [], old, 0, false⟩] }, false⟩
    ((sweepThenClean w now r).1, (cleanThenSweep w now r).1) = (.answer 1, .answer 2) := by
  cbv

end Relay

end HistoryRelay
