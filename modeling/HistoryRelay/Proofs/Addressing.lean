import HistoryRelay.Proofs.Cleaning
import HistoryRelay.Proofs.FanOut
import HistoryRelay.Proofs.Numbering
import HistoryRelay.Proofs.Undertaking

/-! Whom the stored entries are for. Main statement: in every reachable store an entry is for a
device that the registry knows, unless a peer once uploaded a dump for it while the registry did
not. A dump is stored for whatever requester it names. -/
namespace HistoryRelay
open Step

/-- The registry has a row for the device, whether it is installed or not. -/
def Store.Knows (s : Store) (user device : String) : Prop :=
  ∃ d ∈ s.devices, d.key = (user, device)

/-- If anything is stored for the device, the registry knows it. -/
def Store.Addressed (s : Store) (user device : String) : Prop :=
  (∃ row ∈ s.entries, row.isFor user device) → s.Knows user device

/-- The turn uploads a dump for a device that the registry does not know. -/
def Turn.Strays (user device : String) (t : Turn) (r : Relay) : Prop :=
  match t.call with
  | .submitDump u _ requester _ dump _ =>
    u = user ∧ requester = device ∧ dump ≠ [] ∧ ¬r.store.Knows user device
  | _ => False

def Change.quiet : Change → Prop
  | .addEntries _ | .removeDevice _ _ => False
  | _ => True

section Changes
variable {user device : String} {s : Store}

theorem Devices.knows_map {ds : List DeviceRow} {f : DeviceRow → DeviceRow}
    (hf : ∀ d, (f d).key = d.key) {k : String × String} (h : ∃ d ∈ ds, d.key = k) :
    ∃ d ∈ ds.map f, d.key = k := by
  obtain ⟨d, hd, rfl⟩ := h
  exact ⟨f d, List.mem_map_of_mem hd, hf d⟩

theorem Change.knows {c : Change} (hc : c.quiet) (h : s.Knows user device) :
    (c.apply s).Knows user device := by
  cases c with
  | register row =>
    obtain ⟨d, hd, hkey⟩ := h
    refine ⟨_, Devices.mem_register.2 (.inl ⟨d, hd, rfl⟩), ?_⟩
    split
    · exact hkey
    · exact hkey
  | uninstall u v date => exact Devices.knows_map (fun d => by split <;> rfl) h
  | removeDevice u v => exact hc.elim
  | addEntries rows => exact hc.elim
  | _ => exact h

theorem Change.addressed {c : Change} (hc : c.quiet) (h : s.Addressed user device) :
    (c.apply s).Addressed user device := by
  rintro ⟨row, hrow, hfor⟩
  refine Change.knows hc (h ?_)
  cases c with
  | addEntries rows => exact hc.elim
  | bumpEntries u v =>
    obtain ⟨y, hy, -, rfl⟩ | ⟨hx, -⟩ := Entries.mem_bump_cases hrow
    · exact ⟨y, hy, hfor⟩
    · exact ⟨row, hx, hfor⟩
  | dropEntries which => exact ⟨row, (List.mem_filter.1 hrow).1, hfor⟩
  | _ => exact ⟨row, hrow, hfor⟩

theorem Change.addressed_addEntries {rows : List EntryRow} (h : s.Addressed user device)
    (hrows : ∀ row ∈ rows, row.isFor user device → s.Knows user device) :
    ((Change.addEntries rows).apply s).Addressed user device := by
  rintro ⟨x, hx, hfor⟩
  obtain hx | hx := List.mem_append.1 hx
  · exact h ⟨x, hx, hfor⟩
  · obtain ⟨-, row, hrow, he⟩ := Entries.mem_numbered hx
    rw [he] at hfor
    exact hrows row hrow hfor

theorem Leads.addressed {may : Change → Prop} {t : Store} (h : Leads may s t)
    (hm : ∀ c, may c → c.quiet) (hs : s.Addressed user device) : t.Addressed user device :=
  h.keeps (P := fun t => t.Addressed user device) hs fun c _ hc => Change.addressed (hm c hc)

theorem Store.addressed_of_besides {t : Store} (h : s.besidesUsage = t.besidesUsage) :
    s.Addressed user device ↔ t.Addressed user device := by
  have hentries : s.entries = t.entries := congrArg (·.entries) h
  have hdevices : s.devices = t.devices := congrArg (·.devices) h
  rw [Addressed, Addressed, Knows, Knows, hentries, hdevices]

end Changes

/-- Entries come with submits and dumps, and only deep clean takes devices out of the registry. -/
theorem Call.quiet_of_may {config : Config} {call : Call} {c : Change} (h : call.may config c)
    (hs : ∀ batch source client, call ≠ .submit batch source client)
    (hd : ∀ user source requester isChunk dump client,
      call ≠ .submitDump user source requester isChunk dump client)
    (hc : ∀ now, call ≠ .deepClean now) : c.quiet := by
  cases c with
  | addEntries rows =>
    cases call with
    | submit batch source client => exact absurd rfl (hs _ _ _)
    | submitDump user source requester isChunk dump client => exact absurd rfl (hd _ _ _ _ _ _)
    | _ => exact h.elim
  | removeDevice user device =>
    obtain ⟨now, he⟩ := deepClean_of_may h
    exact absurd he (hc now)
  | _ => trivial

theorem Store.addressed_cleaned {s : Store} {user device : String} (h : s.Addressed user device)
    (config : Config) (date : Instant) : (s.cleaned config date).Addressed user device := by
  rintro ⟨row, hrow, hfor⟩
  obtain ⟨hsmall, hstale⟩ := List.mem_filter.1 hrow
  have hin : row ∈ s.entries := (List.mem_filter.1 (List.mem_filter.1 hsmall).1).1
  obtain ⟨d, hd, hkey⟩ := h ⟨row, hin, hfor⟩
  refine ⟨d, Store.mem_devices_cleaned.2 ⟨hd, fun hgone => ?_⟩, hkey⟩
  obtain ⟨rfl, rfl⟩ := EntryRow.isFor_iff.1 hfor
  rw [hkey] at hgone
  have hgone : (row.user, row.device) ∈ Devices.staleTests date s.usage s.devices := hgone
  simp [Store.trimmed, hgone] at hstale

namespace Relay
variable {w : Setting} {user device : String} {s t : Store}

theorem addressed_of_distribute {first : Entry} {batch : List Entry} {source : Option String}
    {client : Client} {reply : SubmitReply} (hsame : ∀ e ∈ batch, e.user = first.user)
    (h : distribute w first.user batch source client s = (.answer reply, t))
    (hs : s.Addressed user device) : t.Addressed user device := by
  obtain ⟨dates, -, hleads⟩ := distribute_answer h
  refine hleads.addressed (fun c hc => ?_) (Change.addressed_addEntries hs fun row hrow hfor => ?_)
  · obtain ⟨u, v, rfl | rfl⟩ := hc <;> trivial
  · obtain ⟨target, htarget, hcopy⟩ := List.mem_flatMap.1 hrow
    obtain ⟨d, hd, rfl⟩ := List.mem_map.1 htarget
    obtain ⟨hin, huser, -⟩ := Devices.mem_activeOf.1 hd
    obtain ⟨⟨e, date⟩, hz, rfl⟩ := List.mem_map.1 hcopy
    obtain ⟨rfl, rfl⟩ := EntryRow.isFor_iff.1 hfor
    have he : e.user = first.user := hsame e (List.of_mem_zip hz).1
    exact ⟨d, hin, Prod.ext (huser.trans he.symm) rfl⟩

theorem addressed_of_storeDump (isChunk : Bool) {u requester : String} {dump : List Entry}
    (hsame : ∀ e ∈ dump, e.user = u) (hs : s.Addressed user device)
    (hstray : u = user → requester = device → dump ≠ [] → s.Knows user device) :
    (storeDump w u requester isChunk dump s).2.Addressed user device := by
  have hsteady : Steady (Leads fun c => c.quiet ∨ ∃ rows, c = .addEntries rows ∧
      ∀ row ∈ rows, ∃ e ∈ dump, ∃ date,
        row = EntryRow.copy { e with device := requester } date requester false)
      (storeDump w u requester isChunk dump) :=
    storeDump_steady w _ _ _ _ (fun rows hrows => .inr ⟨rows, rfl, hrows⟩) (.inl trivial)
  -- Along the way no device is forgotten, so what was known of the requester still is.
  refine ((hsteady.moves s).keeps (P := fun x => x.Addressed user device ∧
    (s.Knows user device → x.Knows user device)) ⟨hs, id⟩ fun c x hc hx => ?_).1
  obtain hc | ⟨rows, rfl, hrows⟩ := hc
  · exact ⟨Change.addressed hc hx.1, fun hk => Change.knows hc (hx.2 hk)⟩
  · refine ⟨Change.addressed_addEntries hx.1 fun row hrow hfor => ?_, hx.2⟩
    obtain ⟨e, he, date, rfl⟩ := hrows row hrow
    obtain ⟨hu, hd⟩ := EntryRow.isFor_iff.1 hfor
    exact hx.2 (hstray ((hsame e he).symm.trans hu) hd (List.ne_nil_of_mem he))

end Relay

namespace Turn
variable {user device : String}

/-- Unless it uploads a dump for a device that the registry does not know, a turn leaves no entry
for such a device that was not there. -/
theorem addressed {t : Turn} {r : Relay} (hr : r.store.Addressed user device)
    (ht : ¬t.Strays user device r) : (t.take r).2.store.Addressed user device := by
  obtain ⟨w, call⟩ := t
  have hquiet (hs : ∀ batch source client, call ≠ .submit batch source client)
      (hd : ∀ user source requester isChunk dump client,
        call ≠ .submitDump user source requester isChunk dump client)
      (hc : ∀ now, call ≠ .deepClean now) :
      ((Turn.mk w call).take r).2.store.Addressed user device :=
    (Turn.leads ⟨w, call⟩ r).addressed (fun c h => Call.quiet_of_may h hs hd hc) hr
  cases call with
  | submit batch source client =>
    cases batch with
    | nil => exact hr
    | cons first rest =>
      obtain h | ⟨answer, s, hcheck, hbody, h⟩ :=
        Call.perform_cases w (.submit (first :: rest) source client) rfl r
      · rw [take, h]
        exact hr
      · obtain ⟨-, hfound⟩ := Relay.requireId_bind_eq_answer.1 hcheck
        obtain ⟨reply, hdistribute, -⟩ := map_eq_answer.1 hbody
        have hsame : ∀ e ∈ first :: rest, e.user = first.user := by
          simpa using (refuse_eq_answer.1 hfound).1
        rw [take, Store.addressed_of_besides h]
        exact Relay.addressed_of_distribute hsame hdistribute hr
  | submitDump u source requester isChunk dump client =>
    obtain h | ⟨answer, s, hcheck, hbody, h⟩ :=
      Call.perform_cases w (.submitDump u source requester isChunk dump client) rfl r
    · rw [take, h]
      exact hr
    · obtain ⟨-, hcheck⟩ := Relay.requireId_bind_eq_answer.1 hcheck
      obtain ⟨-, hcheck⟩ := Relay.requireId_bind_eq_answer.1 hcheck
      obtain ⟨-, hfound⟩ := Relay.requireId_bind_eq_answer.1 hcheck
      obtain ⟨n, hdump, -⟩ := map_eq_answer.1 hbody
      have hsame : ∀ e ∈ dump, e.user = u := by
        simpa using (refuse_eq_answer.1 hfound).1
      have hstored : (Relay.storeDump w u requester isChunk dump r.store).2.Addressed user device :=
        Relay.addressed_of_storeDump isChunk hsame hr fun hu hd hne =>
          not_not.1 fun hk => ht ⟨hu, hd, hne, hk⟩
      rw [hdump] at hstored
      rwa [take, Store.addressed_of_besides h]
  | deepClean now =>
    have hclean : ((Turn.mk w (.deepClean now)).take r).2 = (Relay.deepClean w now r).2 :=
      (map_answered _ _ r).2
    rw [hclean]
    obtain h | ⟨date, h⟩ := Relay.deepClean_cases w now r
    · rwa [h]
    · rw [h]
      exact Store.addressed_cleaned hr w.config date
  | _ => exact hquiet (by simp) (by simp) (by simp)

end Turn

namespace Relay
variable {user device : String}

/-- What is not addressed after some turns either was not so before, or one of them uploaded a dump
for a device that the registry did not know. -/
theorem run_addressed (turns : List Turn) {r : Relay} (hr : r.store.Addressed user device) :
    (r.run turns).store.Addressed user device ∨
      ∃ before t after, turns = before ++ t :: after ∧ t.Strays user device (r.run before) := by
  induction turns generalizing r with
  | nil => exact .inl hr
  | cons t rest ih =>
    by_cases ht : t.Strays user device r
    · exact .inr ⟨[], t, rest, rfl, ht⟩
    · obtain h | ⟨before, u, after, rfl, hu⟩ := ih (Turn.addressed hr ht)
      · exact .inl h
      · exact .inr ⟨t :: before, u, after, rfl, hu⟩

/-- Every stored entry is for a device that the registry knows, unless there was a dump for it that
came before the device was registered, or after it had been removed. -/
theorem entries_are_addressed (turns : List Turn) (row : EntryRow)
    (hrow : row ∈ (run {} turns).store.entries) :
    (run {} turns).store.Knows row.user row.device ∨
      ∃ before t after, turns = before ++ t :: after ∧
        t.Strays row.user row.device (run {} before) := by
  have hempty : ({} : Relay).store.Addressed row.user row.device := by
    rintro ⟨x, hx, -⟩
    cases hx
  obtain h | h := run_addressed turns hempty
  · exact .inl (h ⟨row, hrow, EntryRow.isFor_iff.2 ⟨rfl, rfl⟩⟩)
  · exact .inr h

/-- A dump for a device that has been uninstalled is for a device that the registry knows. -/
theorem entries_are_addressed_after_uninstall :
    let entry : Entry := ⟨[1], [2], "desk", "ada", default, "e1", 0, false⟩
    let turns : List Turn := [⟨default, .register ⟨"ada", "desk", false⟩ .unknown⟩,
      ⟨default, .uninstall "ada" "desk"⟩,
      ⟨default, .submitDump "ada" "lap" "desk" false [entry] .unknown⟩]
    ∃ row ∈ (run {} turns).store.entries, (run {} turns).store.Knows row.user row.device ∨
      ∃ before t after, turns = before ++ t :: after ∧
        t.Strays row.user row.device (run {} before) := by
  intro entry turns
  have hrows : (run {} turns).store.entries =
      [⟨1, "ada", "desk", "e1", [1], [2], ⟨0, by decide, by decide⟩, 0, false⟩] := by cbv
  have hrow := List.mem_singleton_self
    (⟨1, "ada", "desk", "e1", [1], [2], ⟨0, by decide, by decide⟩, 0, false⟩ : EntryRow)
  rw [← hrows] at hrow
  exact ⟨_, hrow, entries_are_addressed turns _ hrow⟩

/-- A dump for a requester that nobody has registered is stored, and stays without a device. -/
theorem dump_for_nobody_is_stored :
    let entry : Entry := ⟨[1], [2], "desk", "ada", default, "e1", 0, false⟩
    let turns : List Turn := [⟨default, .submitDump "ada" "desk" "lap" false [entry] .unknown⟩]
    ∃ row ∈ (run {} turns).store.entries, ¬(run {} turns).store.Knows row.user row.device := by
  intro entry turns
  have hrows : (run {} turns).store.entries =
      [⟨1, "ada", "lap", "e1", [1], [2], ⟨0, by decide, by decide⟩, 0, false⟩] := by cbv
  have hdevices : (run {} turns).store.devices = [] := by cbv
  rw [hrows]
  refine ⟨_, List.mem_singleton_self _, ?_⟩
  rintro ⟨d, hd, -⟩
  rw [hdevices] at hd
  cases hd

end Relay

end HistoryRelay
