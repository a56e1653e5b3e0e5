import HistoryRelay.Proofs.Activity
import HistoryRelay.Proofs.DeepClean
import HistoryRelay.Proofs.UsageLedger

/-! What keeps a test device from a deep clean. Main statement: a device that has been registered
after the date of the clean keeps its row, its tombstones and its requests, if the registration was
its first one or is noted in the usage ledger, and loses entries only as any other device does. -/
namespace HistoryRelay
open Step

def Turn.After (date : Instant) (t : Turn) : Prop := date.nanos < t.setting.clock.totalNanos

theorem Turn.After.lt {t : Turn} {date time : Instant} (h : t.After date)
    (htime : t.setting.clock.toInstant? = some time) : date < time := by
  rw [Turn.After, Timestamp.toInstant?_eq_some.1 htime] at h
  exact h

theorem Relay.run_after {P : Store → Prop} {date : Instant} {turns : List Turn}
    (hturns : ∀ t ∈ turns, t.After date)
    (hstep : ∀ (t : Turn) (r : Relay), t.After date → P r.store → P (t.take r).2.store)
    {r : Relay} (hr : P r.store) : P (r.run turns).store := by
  induction turns generalizing r with
  | nil => exact hr
  | cons t rest ih =>
    rw [run_cons]
    exact ih (fun u hu => hturns u (List.mem_cons_of_mem t hu))
      (hstep t r (hturns t List.mem_cons_self) hr)

namespace Store
variable {s : Store} {date : Instant} {user device : String}

/-- The row of the device, if it has one, is from after the date. -/
def NewSince (date : Instant) (user device : String) (s : Store) : Prop :=
  ∀ d ∈ s.devices, d.key = (user, device) → date < d.registered

/-- The usage ledger knows of a use of the device after the date. -/
def UsedSince (date : Instant) (user device : String) (s : Store) : Prop :=
  ∃ u ∈ s.usage, u.key = (user, device) ∧ date < u.lastUsed

theorem NewSince.not_stale (h : s.NewSince date user device) : ¬s.Stale date user device := by
  rintro ⟨d, hd, hkey, -, hold, -⟩
  exact Int.not_le.2 (h d hd hkey) hold

theorem UsedSince.not_stale (h : s.UsedSince date user device) : ¬s.Stale date user device := by
  obtain ⟨u, hu, hkey, hlate⟩ := h
  obtain ⟨huser, hdevice⟩ := Prod.mk.inj hkey
  rintro ⟨-, -, -, -, -, hunused⟩
  exact hunused ⟨u, hu, huser, hdevice, hlate⟩

theorem UsedSince.not_idle (h : s.UsedSince date user device) : ¬s.Idle date user := by
  obtain ⟨u, hu, hkey, hlate⟩ := h
  rintro ⟨-, -, hunused⟩
  exact Int.not_le.2 hlate (hunused u hu (Prod.mk.inj hkey).1)

end Store

section Usage

theorem Call.time_of_event? {call : Call} {time : Timestamp} {e : UsageEvent}
    (h : call.event? time = some e) : e.time = time := by
  cases call with
  | submit batch source client =>
    cases batch with
    | nil => cases h
    | cons first rest =>
      cases h
      rfl
  | query user device reason client =>
    obtain ⟨-, h⟩ := Option.ite_none_left_eq_some.1 h
    cases h
    rfl
  | register | bootstrap | submitDump =>
    cases h
    rfl
  | _ => cases h

theorem Usage.mem_record_own (e : UsageEvent) (time : Instant) (us : List UsageRow) :
    ∃ u ∈ record e time us, u.key = (e.user, e.device) ∧ u.lastUsed = time := by
  by_cases hnew : ∀ v ∈ us, v.key ≠ (e.user, e.device)
  · exact ⟨_, mem_record.2 (.inr ⟨hnew, rfl⟩), rfl, rfl⟩
  · push Not at hnew
    obtain ⟨v, hv, hkey⟩ := hnew
    refine ⟨_, mem_record.2 (.inl ⟨v, hv, rfl⟩), ?_⟩
    rw [if_pos (UsageRow.is_iff.2 hkey)]
    exact ⟨hkey, rfl⟩

namespace Turn
variable {t : Turn} {r : Relay} {date : Instant} {user device : String}

theorem usedSince_take (t : Turn) (r : Relay) (ht : t.After date)
    (h : r.store.UsedSince date user device) : (t.take r).2.store.UsedSince date user device := by
  have hfollows := t.note_follows r
  cases hnote : t.note? r with
  | none =>
    rw [hnote] at hfollows
    rw [Store.UsedSince, show (t.take r).2.store.usage = r.store.usage from hfollows]
    exact h
  | some e =>
    rw [hnote] at hfollows
    obtain ⟨time, htime, hrecord⟩ := hfollows
    rw [Call.time_of_event? (Option.ite_none_right_eq_some.1 hnote).2] at htime
    obtain ⟨v, hv, hkey, hlate⟩ := h
    rw [Store.UsedSince, hrecord]
    refine ⟨_, Usage.mem_record.2 (.inl ⟨v, hv, rfl⟩), ?_⟩
    split
    · exact ⟨hkey, ht.lt htime⟩
    · exact ⟨hkey, hlate⟩

theorem usedSince_register {reg : Registration} {client : Client} (ht : t.After date)
    (hcall : t.call = .register reg client) (hanswer : (t.take r).1.answered = true)
    (htrack : t.setting.config.trackUsage = true)
    (hgranted : t.setting.refusals (.insert .usage []) = none) :
    (t.take r).2.store.UsedSince date reg.user reg.device := by
  obtain ⟨w, call⟩ := t
  obtain rfl : call = _ := hcall
  obtain ⟨-, hno, -⟩ | ⟨answer, s, hbody, -⟩ := work_cases (t := ⟨w, .register reg client⟩) rfl r
  · rw [hno] at hanswer
    cases hanswer
  · obtain ⟨reply, hbody, -⟩ := map_eq_answer.1 hbody
    obtain ⟨-, hclock, time, htime, -⟩ := Relay.enroll_answer hbody
    have hnoting : w.Noting := ⟨hclock, by rw [htime]; rfl, hgranted⟩
    have hnotes : (Turn.mk w (.register reg client)).notes r = true := hanswer
    have hfollows := Turn.note_follows ⟨w, .register reg client⟩ r
    rw [note?_of_notes hnotes, if_pos ⟨htrack, hnoting⟩] at hfollows
    obtain ⟨noted, hnoted, hrecord⟩ := hfollows
    obtain ⟨u, hu, hkey, hlast⟩ := Usage.mem_record_own _ noted r.store.usage
    refine ⟨u, hrecord ▸ hu, hkey, ?_⟩
    rw [hlast]
    exact ht.lt hnoted

end Turn

end Usage

/-- A row that is there after a turn is of this turn or was there before, with the same date. -/
theorem Turn.registered_of_mem_take {t : Turn} {r : Relay} {d : DeviceRow}
    (hd : d ∈ (t.take r).2.store.devices) : t.setting.clock.toInstant? = some d.registered ∨
      ∃ e ∈ r.store.devices, d.key = e.key ∧ d.registered = e.registered := by
  obtain ⟨w, call⟩ := t
  cases call with
  | register reg client =>
    obtain ⟨hs, -⟩ | ⟨-, row, -, -, htime, hdevices⟩ := register_cases w reg client r
    · rw [hs] at hd
      exact .inr ⟨d, hd, rfl, rfl⟩
    · rw [hdevices] at hd
      obtain ⟨e, he, rfl⟩ | ⟨-, rfl⟩ := Devices.mem_register.1 hd
      · exact .inr ⟨e, he, by split <;> exact ⟨rfl, rfl⟩⟩
      · exact .inl htime
  | uninstall u v =>
    obtain ⟨hs, -⟩ | ⟨answer, s, hbody, hs, -⟩ := work_cases (t := ⟨w, .uninstall u v⟩) rfl r
    · rw [hs] at hd
      exact .inr ⟨d, hd, rfl, rfl⟩
    · obtain ⟨n, hbody, -⟩ := map_eq_answer.1 hbody
      obtain ⟨-, gone, -, rfl⟩ := Relay.withdraw_answer hbody
      have hdevices : ((Turn.mk w (.uninstall u v)).take r).2.store.devices =
          Devices.uninstall u v gone r.store.devices := congrArg (·.devices) hs
      rw [hdevices] at hd
      obtain ⟨e, he, rfl⟩ := List.mem_map.1 hd
      exact .inr ⟨e, he, by split <;> exact ⟨rfl, rfl⟩⟩
  | deepClean now =>
    obtain hs | ⟨cutoff, hs⟩ := deepClean_cases w now r
    · rw [hs] at hd
      exact .inr ⟨d, hd, rfl, rfl⟩
    · rw [hs] at hd
      exact .inr ⟨d, (Store.mem_devices_cleaned.1 hd).1, rfl, rfl⟩
  | _ =>
    rw [devices_take (by simp) (by simp) (by simp)] at hd
    exact .inr ⟨d, hd, rfl, rfl⟩

theorem Turn.newSince_take {date : Instant} {user device : String} (t : Turn) (r : Relay)
    (ht : t.After date) (h : r.store.NewSince date user device) :
    (t.take r).2.store.NewSince date user device := by
  intro d hd hkey
  obtain htime | ⟨e, he, hsame, hregistered⟩ := registered_of_mem_take hd
  · exact ht.lt htime
  · rw [hregistered]
    exact h e he (hsame.symm.trans hkey)

/-- The turn can be noted in the usage ledger as far as the store and the configuration go. -/
def Setting.tracks (w : Setting) : Bool :=
  w.config.trackUsage && (w.refusals (.insert .usage [])).isNone

/-- Of what is for a device that is not stale, or asked for by it, a clean takes old entries of its
user alone, if the user is idle or stores too much. -/
theorem Store.purged_of_not_stale {s : Store} {date : Instant} {most : Nat} {user device : String}
    (h : ¬s.Stale date user device) :
    (∀ d ∈ s.devices, d.is user device = true → d ∈ (s.purged date most).devices) ∧
    (∀ x ∈ s.deletionRequests, x.isFor user device = true →
      x ∈ (s.purged date most).deletionRequests) ∧
    (∀ x ∈ s.dumpRequests, x.isBy user device = true → x ∈ (s.purged date most).dumpRequests) ∧
    ∀ x ∈ s.entries, x.isFor user device = true → x ∈ (s.purged date most).entries ∨
      x.date ≤ date ∧ (s.Idle date user ∨ s.Overgrown most user) := by
  refine ⟨fun d hd hown => ?_, fun x hx hown => ?_, fun x hx hown => ?_, fun x hx hown => ?_⟩
  · obtain ⟨rfl, rfl⟩ := Prod.mk.inj (DeviceRow.is_iff.1 hown)
    exact List.mem_filter.2 ⟨hd, decide_eq_true h⟩
  · obtain ⟨rfl, rfl⟩ := DeletionRow.isFor_iff.1 hown
    exact List.mem_filter.2 ⟨hx, decide_eq_true h⟩
  · obtain ⟨rfl, rfl⟩ := DumpRow.isBy_iff.1 hown
    exact List.mem_filter.2 ⟨hx, decide_eq_true h⟩
  · obtain ⟨rfl, rfl⟩ := EntryRow.isFor_iff.1 hown
    by_cases hgone : s.Condemns date most x
    · obtain ⟨huser, hold⟩ | hstale := hgone
      · exact .inr ⟨hold, huser⟩
      · exact absurd hstale h
    · exact .inl (List.mem_filter.2 ⟨hx, decide_eq_true hgone⟩)

namespace Relay
variable {before after : List Turn} {t : Turn} {reg : Registration} {client : Client}

/-- A device that is registered at some time, by a call that answers, is safe from a deep clean with
an earlier date as long as the clock does not go back behind that time: its row stays, and so do its
tombstones and its requests. The registration has to be noted in the usage ledger or to find no row
of the device. Old entries for it still go with those of a user who stores too much, or who is idle,
and a user whose registration is noted is not. -/
theorem recent_registration_protects (hcall : t.call = .register reg client)
    (hanswer : (t.take (run {} before)).1.answered = true)
    (hclock : ∀ u ∈ after, t.setting.clock.totalNanos ≤ u.setting.clock.totalNanos)
    (hcounts : t.setting.tracks = true ∨ ¬(run {} before).store.Knows reg.user reg.device)
    {w : Setting} {now : Timestamp} (hrecent : ∀ cutoff,
      now.minusDays w.config.retentionDays = some cutoff →
        cutoff.totalNanos < t.setting.clock.totalNanos) :
    let found := (run {} (before ++ t :: after)).store
    let left := (deepClean w now (run {} (before ++ t :: after))).2.store
    (∀ d ∈ found.devices, d.is reg.user reg.device = true → d ∈ left.devices) ∧
    (∀ x ∈ found.deletionRequests, x.isFor reg.user reg.device = true →
      x ∈ left.deletionRequests) ∧
    (∀ x ∈ found.dumpRequests, x.isBy reg.user reg.device = true → x ∈ left.dumpRequests) ∧
    ∀ x ∈ found.entries, x.isFor reg.user reg.device = true → x ∈ left.entries ∨
      ∃ date, w.config.cutoff? now = some date ∧ x.date ≤ date ∧
        (found.Overgrown w.config.maxEntriesPerUser reg.user ∨
          t.setting.tracks = false ∧ found.Idle date reg.user) := by
  intro found left
  obtain hsame | ⟨date, hdate, hleft⟩ := deepClean_dated w now (run {} (before ++ t :: after))
  · have hsame : left = found := hsame
    rw [hsame]
    exact ⟨fun _ h _ => h, fun _ h _ => h, fun _ h _ => h, fun _ h _ => .inl h⟩
  have hleft : left = found.purged date w.config.maxEntriesPerUser :=
    hleft.trans (Store.cleaned_eq _)
  obtain ⟨cutoff, hcutoff, hstored⟩ := Option.bind_eq_some_iff.1 hdate
  have ht : t.After date := by
    rw [Turn.After, ← Timestamp.toInstant?_eq_some.1 hstored]
    exact hrecent cutoff hcutoff
  have hlater : ∀ u ∈ after, u.After date := fun u hu => ht.trans_le (hclock u hu)
  have hrun : found = ((t.take (run {} before)).2.run after).store := by
    rw [← run_cons, ← run_append]
  have hused : t.setting.tracks = true → found.UsedSince date reg.user reg.device := by
    intro htracks
    obtain ⟨htrack, hgranted⟩ := Bool.and_eq_true_iff.1 htracks
    rw [hrun]
    exact run_after hlater Turn.usedSince_take
      (Turn.usedSince_register ht hcall hanswer htrack (Option.isNone_iff_eq_none.1 hgranted))
  -- Where the registration leaves no note, it has to set the date of the row: one that finds a row
  -- keeps the date that it has.
  have hstale : ¬found.Stale date reg.user reg.device := by
    obtain htracks | hunknown := hcounts
    · exact (hused htracks).not_stale
    · have hnew : (run {} before).store.NewSince date reg.user reg.device :=
        fun d hd hkey => absurd ⟨d, hd, hkey⟩ hunknown
      rw [hrun]
      exact (run_after hlater Turn.newSince_take (Turn.newSince_take t _ ht hnew)).not_stale
  obtain ⟨hdevices, htombstones, hrequests, hentries⟩ := Store.purged_of_not_stale hstale
  rw [hleft]
  refine ⟨hdevices, htombstones, hrequests, fun x hx hown => ?_⟩
  obtain hkept | ⟨hold, hidle | hover⟩ := hentries x hx hown
  · exact .inl hkept
  · cases htracks : t.setting.tracks with
    | true => exact absurd hidle (hused htracks).not_idle
    | false => exact .inr ⟨date, hdate, hold, .inr ⟨rfl, hidle⟩⟩
  · exact .inr ⟨date, hdate, hold, .inl hover⟩

/-- A test device that comes back after two days is kept, as that is noted. -/
theorem recent_registration_protects_returning :
    let w (clock : Timestamp) : Setting := ⟨{ retentionDays := 1 }, clock, fun _ => none⟩
    let later : Timestamp := ⟨172800, 0, by decide, by decide, by decide, by decide⟩
    let first : Turn := ⟨w default, .register ⟨"ada", "desk", true⟩ .unknown⟩
    let again : Turn := ⟨w later, .register ⟨"ada", "desk", true⟩ .unknown⟩
    let row : DeviceRow :=
      ⟨"ada", "desk", "UnknownIp", ⟨0, by decide, by decide⟩, true, none⟩
    (run {} [first, again]).store.devices = [row] ∧
      (deepClean (w later) later (run {} [first, again])).1 = .answer ⟨0, 0, 0, 0⟩ ∧
      row ∈ (deepClean (w later) later (run {} [first, again])).2.store.devices := by
  intro w later first again row
  have hrun : run {} [first, again] = ⟨{
      devices := [row]
      usage := [⟨"ada", "desk", ⟨172800000000000, by decide, by decide⟩, "UnknownIp", .whole 0,
        none, 0, ""⟩] }, false⟩ := by cbv
  have hdevices : (run {} [first, again]).store.devices = [row] := by rw [hrun]
  have hanswer : (again.take (run {} [first])).1.answered = true := by cbv
  have hrecent : ∀ cutoff, later.minusDays (w later).config.retentionDays = some cutoff →
      cutoff.totalNanos < again.setting.clock.totalNanos := by
    intro cutoff hcutoff
    obtain rfl : cutoff = ⟨86400, 0, by decide, by decide, by decide, by decide⟩ :=
      Option.some.inj (hcutoff.symm.trans (by cbv))
    decide
  have htracks : again.setting.tracks = true := rfl
  obtain ⟨hkept, -⟩ := recent_registration_protects rfl hanswer (List.forall_mem_nil _)
    (.inl htracks) hrecent
  have hfound : row ∈ (run {} [first, again]).store.devices := by
    rw [hdevices]
    exact List.mem_singleton_self row
  have hown : row.is "ada" "desk" = true := by cbv
  rw [List.singleton_append] at hkept
  exact ⟨hdevices, by rw [hrun]; cbv, hkept row hfound hown⟩

/-- Where usage is not tracked, or the store does not take a note and production lets that pass,
three things go although their test devices have been registered since the date of the clean: the
row of a device that came back, an old entry of a user who stores more than allowed, and one of a
user none of whose notes is as late as that. -/
theorem recent_registration_is_missed :
    let later : Timestamp := ⟨172800, 0, by decide, by decide, by decide, by decide⟩
    let entry : Entry := ⟨[1], [2], "", "ada", default, "e1", 0, false⟩
    let silent (clock : Timestamp) : Setting :=
      ⟨{ trackUsage := false, retentionDays := 1, maxEntriesPerUser := 0 }, clock, fun _ => none⟩
    let untracked : List Turn := [⟨silent default, .register ⟨"ada", "desk", true⟩ .unknown⟩,
      ⟨silent later, .register ⟨"ada", "lap", true⟩ .unknown⟩,
      ⟨silent later, .register ⟨"ada", "desk", true⟩ .unknown⟩,
      ⟨silent later, .submit [entry] none .unknown⟩]
    let noting (clock : Timestamp) : Option String → Setting :=
      (⟨{ retentionDays := 1 }, clock, fun _ => none⟩ : Setting).bookkeeping true .production
    let unnoted : List Turn := [⟨noting default none, .register ⟨"ada", "desk", false⟩ .unknown⟩,
      ⟨noting later (some "boom"), .register ⟨"ada", "lap", true⟩ .unknown⟩,
      ⟨noting later (some "boom"), .submit [entry] none .unknown⟩]
    let cleaned (turns : List Turn) (w : Setting) := (deepClean w later (run {} turns)).2.store
    ((outcomes {} untracked).all Outcome.answered = true ∧
      (run {} untracked).store.devices.map (·.device) = ["desk", "lap"] ∧
      (run {} untracked).store.entries.map (·.device) = ["desk", "lap"] ∧
      (cleaned untracked (silent later)).devices.map (·.device) = ["lap"] ∧
      (cleaned untracked (silent later)).entries = []) ∧
    (outcomes {} unnoted).all Outcome.answered = true ∧
      (run {} unnoted).store.devices.map (·.device) = ["desk", "lap"] ∧
      (run {} unnoted).store.entries.map (·.device) = ["desk", "lap"] ∧
      (cleaned unnoted (noting later none)).devices.map (·.device) = ["desk", "lap"] ∧
      (cleaned unnoted (noting later none)).entries = [] := by
  intro later entry silent untracked noting unnoted cleaned
  let start : Instant := ⟨0, by decide, by decide⟩
  let back : Instant := ⟨172800000000000, by decide, by decide⟩
  have huntracked : run {} untracked = ⟨{
      devices := [⟨"ada", "desk", "UnknownIp", start, true, none⟩,
        ⟨"ada", "lap", "UnknownIp", back, true, none⟩]
      entries := [⟨1, "ada", "desk", "e1", [1], [2], start, 0, false⟩,
        ⟨2, "ada", "lap", "e1", [1], [2], start, 0, false⟩]
      dumpRequests := [⟨1, "ada", "lap", back, 0⟩, ⟨2, "ada", "desk", back, 0⟩]
      lastEntry := 2
      lastDump := 2 }, false⟩ := by cbv
  have hunnoted : run {} unnoted = ⟨{
      devices := [⟨"ada", "desk", "UnknownIp", start, false, none⟩,
        ⟨"ada", "lap", "UnknownIp", back, true, none⟩]
      entries := [⟨1, "ada", "desk", "e1", [1], [2], start, 0, false⟩,
        ⟨2, "ada", "lap", "e1", [1], [2], start, 0, false⟩]
      dumpRequests := [⟨1, "ada", "lap", back, 0⟩]
      usage := [⟨"ada", "desk", start, "UnknownIp", .whole 0, none, 0, ""⟩]
      lastEntry := 2
      lastDump := 1 }, false⟩ := by cbv
  simp only [cleaned, huntracked, hunnoted]
  refine ⟨⟨by cbv, by cbv, by cbv, by cbv, by cbv⟩, by cbv, by cbv, by cbv, by cbv, by cbv⟩

end Relay

end HistoryRelay
