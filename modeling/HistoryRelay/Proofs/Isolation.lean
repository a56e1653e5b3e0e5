import HistoryRelay.Proofs.Agreement
import HistoryRelay.Proofs.Cleaning

/-! Users apart. Main statement: taking the calls of all other users out of a run changes neither
what a user is answered nor what rows the user has. -/
namespace HistoryRelay
open Step

namespace Store
variable (user : String) (config : Config) (date : Instant) (s : Store)

section Housekeeping

theorem filter_shareOf_congr {α : Type} [Owned α] {p q : α → Bool}
    (hp : ∀ a, p (Owned.unnumbered a) = p a) (hq : ∀ a, q (Owned.unnumbered a) = q a)
    (h : ∀ a, Owned.user a = user → p a = q a) (rows : List α) :
    (shareOf user rows).filter p = (shareOf user rows).filter q := by
  refine List.filter_congr fun x hx => ?_
  obtain ⟨a, ha, rfl⟩ := List.mem_map.1 hx
  rw [hp, hq, h a (of_decide_eq_true (List.mem_filter.1 ha).2)]

theorem share_swept : (s.swept config).share user = (s.share user).swept config := by
  simp only [share, swept]
  congr 1
  · exact shareOf_filter user (fun r => by rfl) s.entries
  · exact shareOf_filter user (fun r => by rfl) s.dumpRequests
  · exact shareOf_filter user (fun r => by rfl) s.deletionRequests

theorem share_trimmed (users : List String) :
    (s.trimmed date users).share user = (s.share user).trimmed date users := by
  simp only [share, trimmed]
  congr 1
  exact shareOf_filter user (fun r => by rfl) s.entries

theorem share_without (ds : List (String × String)) :
    (s.without ds).share user = (s.share user).without ds := by
  simp only [share, without]
  congr 1
  · exact shareOf_filter user (fun d => by rfl) s.devices
  · exact shareOf_filter user (fun r => by rfl) s.entries
  · exact shareOf_filter user (fun r => by rfl) s.dumpRequests
  · exact shareOf_filter user (fun r => by rfl) s.deletionRequests

variable {user s}

theorem trimmed_share {users others : List String} (h : user ∈ users ↔ user ∈ others) :
    (s.share user).trimmed date users = (s.share user).trimmed date others := by
  have hcontains : users.contains user = others.contains user := by
    simp only [List.contains_eq_mem, h]
  simp only [share, trimmed]
  congr 1
  exact filter_shareOf_congr user (fun r => by rfl) (fun r => by rfl)
    (fun r (hr : r.user = user) => by rw [hr, hcontains]) s.entries

theorem without_share {ds es : List (String × String)}
    (h : ∀ device, (user, device) ∈ ds ↔ (user, device) ∈ es) :
    (s.share user).without ds = (s.share user).without es := by
  have hcontains (device : String) : ds.contains (user, device) = es.contains (user, device) := by
    simp only [List.contains_eq_mem, h]
  simp only [share, without]
  congr 1
  · exact filter_shareOf_congr user (fun d => by rfl) (fun d => by rfl)
      (fun d (hd : d.user = user) => by rw [hd, hcontains]) s.devices
  · exact filter_shareOf_congr user (fun r => by rfl) (fun r => by rfl)
      (fun r (hr : r.user = user) => by rw [hr, hcontains]) s.entries
  · exact filter_shareOf_congr user (fun r => by rfl) (fun r => by rfl)
      (fun r (hr : r.user = user) => by rw [hr, hcontains]) s.dumpRequests
  · exact filter_shareOf_congr user (fun r => by rfl) (fun r => by rfl)
      (fun r (hr : r.user = user) => by rw [hr, hcontains]) s.deletionRequests

theorem usage_share : (s.share user).usage = s.usage.filter (·.user = user) := Usage.shareOf_eq _

theorem devices_share : (s.share user).devices = s.devices.filter (·.user = user) :=
  Devices.shareOf_eq _

theorem mem_inactive_share :
    user ∈ Usage.inactive date (s.share user).devices (s.share user).usage ↔
      user ∈ Usage.inactive date s.devices s.usage := by
  simp [Usage.mem_inactive, devices_share, usage_share, List.countP_filter]

theorem mem_overgrown_share (most : Nat) : user ∈ Entries.overgrown most (s.share user).entries ↔
    user ∈ Entries.overgrown most s.entries := by
  have hcount : (s.share user).entries.countP (·.user = user) =
      s.entries.countP (·.user = user) :=
    countP_shareOf (fun _ hr => of_decide_eq_true hr) (fun r => by rfl) s.entries
  have hsome : (∃ r ∈ (s.share user).entries, r.user = user) ↔ ∃ r ∈ s.entries, r.user = user := by
    simp [share, shareOf, own, Owned.user, Owned.unnumbered]
  rw [Entries.mem_overgrown, Entries.mem_overgrown, hcount, hsome]

theorem mem_staleTests_share (device : String) :
    (user, device) ∈ Devices.staleTests date (s.share user).usage (s.share user).devices ↔
      (user, device) ∈ Devices.staleTests date s.usage s.devices := by
  simp only [Devices.mem_staleTests, devices_share, usage_share, DeviceRow.key, List.mem_filter,
    decide_eq_true_eq, Prod.mk.injEq]
  grind

/-- What a deep clean takes from a user it takes by that user's rows alone. -/
theorem share_cleaned :
    (s.cleaned config date).share user = (s.share user).cleaned config date := by
  let idle := s.trimmed date (Usage.inactive date s.devices s.usage)
  let small := idle.trimmed date (Entries.overgrown config.maxEntriesPerUser idle.entries)
  have hidle : idle.share user = (s.share user).trimmed date
      (Usage.inactive date (s.share user).devices (s.share user).usage) := by
    rw [share_trimmed, trimmed_share date (mem_inactive_share date).symm]
  have hsmall : small.share user = (idle.share user).trimmed date
      (Entries.overgrown config.maxEntriesPerUser (idle.share user).entries) := by
    rw [share_trimmed, trimmed_share date (mem_overgrown_share _).symm]
  have hclean : (s.cleaned config date).share user = (small.share user).without
      (Devices.staleTests date (small.share user).usage (small.share user).devices) := by
    rw [← without_share fun device => (mem_staleTests_share date device).symm, ← share_without]
    rfl
  rw [hclean, hsmall, hidle]
  rfl

end Housekeeping

end Store

/-- Whether the call removes rows of whoever has them. -/
def Call.cleans : Call → Bool
  | .wipe | .sweep | .deepClean _ => true
  | _ => false

namespace Turn
variable {t : Turn} {user : String} {r r' : Relay}

/-- Whether the turn is the user's or nobody's. -/
def staysFor (user : String) (t : Turn) : Bool := t.call.user?.all (· = user)

/-- A turn of someone else changes nothing that the user has. -/
theorem alike_of_other {other : String} (hfor : t.call.user? = some other) (hne : other ≠ user)
    (hclock : 0 ≤ t.setting.clock.seconds) (h : Relay.Alike user r r') :
    Relay.Alike user (t.take r).2 r' := by
  refine ⟨(t.poisoned_take r hclock).trans h.1, ?_⟩
  have hrows := ofUser_take hfor hne r
  exact (Store.share_congr hrows).trans h.2

/-- Housekeeping treats the user's rows by themselves. -/
theorem alike_of_nobody (hfor : t.call.user? = none) (hclock : 0 ≤ t.setting.clock.seconds)
    (hfree : t.call.cleans = true → ∀ st, t.setting.refusals st = none)
    (hp : r.poisoned = false) (h : Relay.Alike user r r') :
    Relay.Alike user (t.take r).2 (t.take r').2 := by
  have hp' : r'.poisoned = false := h.1.symm.trans hp
  have hrows : r.store.share user = r'.store.share user := h.2
  refine ⟨by rw [t.poisoned_take r hclock, t.poisoned_take r' hclock, h.1], ?_⟩
  obtain ⟨w, call⟩ := t
  -- Totals and an empty batch may change nothing at all.
  have hlooks (hmay : ∀ c, ¬call.may w.config c) :
      Store.Alike user ((Turn.mk w call).take r).2.store ((Turn.mk w call).take r').2.store := by
    have hsame (r : Relay) : ((Turn.mk w call).take r).2.store = r.store :=
      ((Turn.mk w call).leads r).frame id fun c _ hc => absurd hc (hmay c)
    rw [hsame, hsame]
    exact h.2
  cases call with
  | submit batch source client =>
    cases batch with
    | nil => exact hlooks fun c hc => hc
    | cons first rest => simp [Call.user?] at hfor
  | statistics => exact hlooks fun c hc => hc
  | usageStatistics => exact hlooks fun c hc => hc
  | ping => exact hlooks fun c hc => hc
  | wipe =>
    have htake (r : Relay) : ((Turn.mk w .wipe).take r).2 = (Relay.wipeEntries w r).2 :=
      (map_answered _ _ r).2
    rw [htake, htake, Relay.wipeEntries_store (hfree rfl) hp,
      Relay.wipeEntries_store (hfree rfl) hp']
    split
    · have hentries (s : Store) : Store.share user { s with entries := [] } =
          { s.share user with entries := [] } := rfl
      exact (hentries _).trans ((congrArg (fun s : Store => { s with entries := [] }) hrows).trans
        (hentries _).symm)
    · exact hrows
  | sweep =>
    have htake (r : Relay) : ((Turn.mk w .sweep).take r).2 = (Relay.sweep w r).2 :=
      (map_answered _ _ r).2
    rw [htake, htake, Relay.sweep_store (hfree rfl) hp, Relay.sweep_store (hfree rfl) hp',
      Store.Alike, Store.share_swept, Store.share_swept, hrows]
  | deepClean now =>
    have htake (r : Relay) :
        ((Turn.mk w (.deepClean now)).take r).2 = (Relay.deepClean w now r).2 :=
      (map_answered _ _ r).2
    rw [htake, htake, Relay.deepClean_store (hfree rfl) hp, Relay.deepClean_store (hfree rfl) hp']
    split
    · rw [Store.Alike, Store.share_cleaned, Store.share_cleaned, hrows]
    · exact hrows
  | _ => simp [Call.user?] at hfor

end Turn

namespace Relay

def outcomesFor (user : String) : Relay → List Turn → List (Outcome Answer)
  | _, [] => []
  | r, t :: rest =>
    let later := outcomesFor user (t.take r).2 rest
    if t.call.user? = some user then (t.take r).1 :: later else later

/-- From relays that are alike for a user, with the turns of all others or without them. -/
theorem alike_run {user : String} {r r' : Relay} (turns : List Turn)
    (hcap : ∀ t ∈ turns, t.setting.config.maxUsers = none)
    (hclock : ∀ t ∈ turns, 0 ≤ t.setting.clock.seconds)
    (hfree : ∀ t ∈ turns, t.call.cleans = true → ∀ st, t.setting.refusals st = none)
    (hp : r.poisoned = false) (h : Alike user r r') :
    outcomesFor user r turns = outcomesFor user r' (turns.filter (·.staysFor user)) ∧
      Alike user (r.run turns) (r'.run (turns.filter (·.staysFor user))) := by
  induction turns generalizing r r' with
  | nil => exact ⟨rfl, h⟩
  | cons t rest ih =>
    obtain ⟨hcap, hcaps⟩ := List.forall_mem_cons.1 hcap
    obtain ⟨hclock, hclocks⟩ := List.forall_mem_cons.1 hclock
    obtain ⟨hfree, hfrees⟩ := List.forall_mem_cons.1 hfree
    have hp' : (t.take r).2.poisoned = false := (t.poisoned_take r hclock).trans hp
    cases hfor : t.call.user? with
    | none =>
      have hstays : t.staysFor user = true := by simp [Turn.staysFor, hfor]
      rw [List.filter_cons_of_pos hstays, run_cons, run_cons]
      simpa [outcomesFor, hfor] using ih hcaps hclocks hfrees hp'
        (Turn.alike_of_nobody hfor hclock hfree hp h)
    | some other =>
      by_cases hne : other = user
      · subst hne
        have hstays : t.staysFor other = true := by simp [Turn.staysFor, hfor]
        have hagrees := Turn.agrees (Store.binds_alike other)
          (Relay.enforceCap_agrees_of_none t.setting hcap other) hfor
        obtain ⟨hout, halike⟩ := hagrees r r' h
        rw [List.filter_cons_of_pos hstays, run_cons, run_cons]
        simpa [outcomesFor, hfor, hout] using ih hcaps hclocks hfrees hp' halike
      -- Only the first run has this turn.
      · have hgoes : ¬t.staysFor user = true := by simp [Turn.staysFor, hfor, hne]
        rw [List.filter_cons_of_neg hgoes, run_cons]
        simpa [outcomesFor, hfor, hne] using ih hcaps hclocks hfrees hp'
          (Turn.alike_of_other hfor hne hclock h)

/-- Taking all turns of other users out of a run changes no outcome of a call for the user and none
of the user's rows, in no table and not in their order; only their numbers are others. So nobody is
told anything of another's rows. What a turn of another user leaves of the user's rows is what was
there, numbers included. Housekeeping has to meet no refusal, as what it is refused may go by how
many rows the others have. -/
theorem users_are_isolated (user : String) :
    (∀ turns : List Turn, (∀ t ∈ turns, t.setting.config.maxUsers = none) →
      (∀ t ∈ turns, 0 ≤ t.setting.clock.seconds) →
      (∀ t ∈ turns, t.call.cleans = true → ∀ st, t.setting.refusals st = none) →
      let alone := turns.filter (·.staysFor user)
      outcomesFor user {} turns = outcomesFor user {} alone ∧
        (run {} turns).store.share user = (run {} alone).store.share user) ∧
    ∀ (t : Turn) (r : Relay) (other : String), t.call.user? = some other → other ≠ user →
      (t.take r).2.store.ofUser user = r.store.ofUser user := by
  constructor
  · intro turns hcap hclock hfree alone
    have hempty : Alike user {} {} := ⟨rfl, rfl⟩
    have h := alike_run turns hcap hclock hfree rfl hempty
    exact ⟨h.1, h.2.2⟩
  · intro t r other hfor hne
    exact Turn.ofUser_take hfor hne r

/-- Two users with the same device and entry ids, one of whom deletes that entry. -/
theorem users_are_isolated_under_same_ids :
    let entry (user : String) : Entry := ⟨[1], [2], "", user, default, "e", 0, false⟩
    let turns : List Turn := [⟨default, .register ⟨"ada", "desk", false⟩ .unknown⟩,
      ⟨default, .register ⟨"bob", "desk", false⟩ .unknown⟩,
      ⟨default, .submit [entry "bob"] none .unknown⟩,
      ⟨default, .submit [entry "ada"] none .unknown⟩,
      ⟨default, .addDeletion ⟨"bob", "", default, 0, [⟨"desk", none, "e"⟩]⟩⟩,
      ⟨default, .sweep⟩,
      ⟨default, .query "ada" "desk" none .unknown⟩]
    let alone := turns.filter (·.staysFor "ada")
    alone.length = 4 ∧ outcomesFor "ada" {} turns = outcomesFor "ada" {} alone ∧
      (run {} alone).store.entries.length = 1 ∧
        (run {} turns).store.share "ada" = (run {} alone).store.share "ada" := by
  intro entry turns alone
  have hdefault : ∀ t ∈ turns, t.setting = default := by simp [turns]
  obtain ⟨hout, hrows⟩ := (users_are_isolated "ada").1 turns
    (fun t ht => by rw [hdefault t ht]; rfl) (fun t ht => by rw [hdefault t ht]; decide)
    (fun t ht _ st => by rw [hdefault t ht]; rfl)
  exact ⟨by cbv, hout, by cbv, hrows⟩

end Relay

end HistoryRelay
