import HistoryRelay.Proofs.Activity
import HistoryRelay.Proofs.DumpProtocol

/-! The life of a device. Main statement: what comes for a user is shared out among the devices that
have been registered last and neither been uninstalled nor cleaned away since. An uninstall takes
all that is for the device and nothing else, then nothing comes for it, and a device that comes back
is what it was. -/
namespace HistoryRelay
open Step Ledger

section Shares

theorem Store.mem_active_iff {s : Store} {user device : String} :
    device ∈ (Devices.activeOf user s.devices).map (·.device) ↔ s.Serves user device := by
  simp only [Serves, List.mem_map, Devices.mem_activeOf, and_assoc]

theorem Devices.otherActive_eq (user device : String) (ds : List DeviceRow) :
    otherActive user device ds = ((activeOf user ds).map (·.device)).countP (· ≠ device) := by
  have hperm := List.mergeSort_perm (ds.filter fun d => d.user = user && d.active)
    DeviceRow.notAfter
  rw [List.countP_map, activeOf, hperm.countP_eq, List.countP_filter, otherActive]
  refine List.countP_congr fun d _ => ?_
  simp [and_left_comm, and_assoc]

namespace Relay
variable {r : Relay} {w : Setting}

/-- What comes for the user is shared out among the devices: each gets a copy of every entry that is
submitted, in the order of the batch, and a tombstone of every deletion request, and each counts
when another one registers. -/
structure SharesAmong (r : Relay) (user : String) (devices : List String) : Prop where
  entries : ∀ w first rest source client, first.user = user →
    (submit w (first :: rest) source client r).1.committed = true →
      (∀ e ∈ first :: rest, e.user = user) ∧ ∃ dates,
        (first :: rest).map (·.time.toInstant?) = dates.map some ∧
        (submit w (first :: rest) source client r).2.store.entries =
          r.store.entries ++ Entries.numbered r.store.lastEntry (devices.flatMap fun device =>
            ((first :: rest).zip dates).map fun (e, date) =>
              EntryRow.copy e date device (source.filter (· ≠ "") = some device))
  tombstones : ∀ w (req : DeletionRequest) n, req.user = user →
    (addDeletionRequest w req r).1 = .answer n → ∃ fresh : List DeletionRow,
      (addDeletionRequest w req r).2.store.deletionRequests = r.store.deletionRequests ++ fresh ∧
      fresh.map (·.destination) = devices ∧ ∀ x ∈ fresh, x.user = user
  peers : ∀ w (reg : Registration) client reply, reg.user = user →
    (register w reg client r).1 = .answer reply →
      reply.existingDevices = devices.countP (· ≠ reg.device)

theorem sharesAmong_active (r : Relay) (user : String) :
    r.SharesAmong user ((Devices.activeOf user r.store.devices).map (·.device)) where
  entries w first rest source client hfirst h := by
    obtain ⟨husers, dates, hdates, hleads⟩ := submit_committed h
    have hsame := hleads.frame (·.entries) fun c s hc => by
      obtain ⟨_, _, rfl⟩ | ⟨_, _, rfl⟩ | ⟨_, _, rfl⟩ := hc <;> rfl
    rw [hfirst] at hsame
    exact ⟨fun e he => (husers e he).trans hfirst, dates, hdates, hsame⟩
  tombstones w req n huser h := by
    obtain ⟨sent, -, hrows, -⟩ := bury_answer (bury_of_addDeletionRequest (Prod.ext h rfl))
    rw [huser] at hrows
    refine ⟨_, hrows, DeletionRequests.destinations_copies, fun x hx => ?_⟩
    rw [(DeletionRequests.mem_copies hx).2.2]
  peers w reg client reply huser h := by
    obtain ⟨hreply, -⟩ := register_answer h
    rw [hreply, huser, Devices.otherActive_eq]

end Relay

end Shares

section Departure

def Store.departed (s : Store) (user device : String) (date : Instant) : Store := { s with
  entries := s.entries.filter (!·.isFor user device)
  deletionRequests := s.deletionRequests.filter (!·.isFor user device)
  dumpRequests := s.dumpRequests.filter (!·.isBy user device)
  devices := s.devices.map fun d =>
    if d.is user device then { d with uninstalled := some date } else d }

theorem Relay.uninstall_answer {w : Setting} {user device : String} {n : Nat} {r : Relay}
    (h : (uninstall w user device r).1 = .answer n) :
    n = r.store.entries.countP (·.isFor user device) +
        r.store.deletionRequests.countP (·.isFor user device) +
        r.store.dumpRequests.countP (·.isBy user device) ∧
      ∃ date, w.clock.toInstant? = some date ∧
        (uninstall w user device r).2.store = r.store.departed user device date := by
  have hall : uninstall w user device r = (.answer n, _) := Prod.ext h rfl
  obtain ⟨-, hall⟩ := requireId_bind_eq_answer.1 hall
  obtain ⟨-, hall⟩ := requireId_bind_eq_answer.1 hall
  obtain ⟨-, -, hall⟩ := locked_eq_answer.1 hall
  exact withdraw_answer (transaction_eq_answer.1 hall)

/-- The entries for the device in the later store were there before, by their numbers. -/
def Store.Unfed (user device : String) (s t : Store) : Prop :=
  ∀ x ∈ t.entries, x.isFor user device = true →
    ∃ y ∈ s.entries, y.id = x.id ∧ y.isFor user device = true

instance {user device : String} : IsPreorder Store (Store.Unfed user device) where
  refl _ x hx hfor := ⟨x, hx, rfl, hfor⟩
  trans _ _ _ hst htu x hx hfor := by
    obtain ⟨y, hy, hid, hyfor⟩ := htu x hx hfor
    obtain ⟨z, hz, hid', hzfor⟩ := hst y hy hyfor
    exact ⟨z, hz, hid'.trans hid, hzfor⟩

theorem Change.unfed {user device : String} {c : Change} (s : Store)
    (h : ∀ rows, c = .addEntries rows → ∀ row ∈ rows, row.isFor user device = false) :
    s.Unfed user device (c.apply s) := by
  intro x hx hfor
  cases c with
  | addEntries rows =>
    obtain hx | hx := List.mem_append.1 hx
    · exact ⟨x, hx, rfl, hfor⟩
    · obtain ⟨-, row, hrow, he⟩ := Entries.mem_numbered hx
      rw [he] at hfor
      exact absurd hfor (ne_true_of_eq_false (h rows rfl row hrow))
  | bumpEntries u v =>
    obtain ⟨y, hy, -, rfl⟩ | ⟨hx, -⟩ := Entries.mem_bump_cases hx
    · exact ⟨y, hy, rfl, hfor⟩
    · exact ⟨x, hx, rfl, hfor⟩
  | dropEntries which => exact ⟨x, (List.mem_filter.1 hx).1, rfl, hfor⟩
  | _ => exact ⟨x, hx, rfl, hfor⟩

namespace Turn
variable {user device : String} {t : Turn} {r : Relay}

/-- The turn leaves no row for the device that was not there: no entry, no tombstone and no request
of the device itself. -/
structure Spares (user device : String) (t : Turn) (r : Relay) : Prop where
  entries : r.store.Unfed user device (t.take r).2.store
  tombstones : ∀ x ∈ (t.take r).2.store.deletionRequests, x.isFor user device = true →
    ∃ y ∈ r.store.deletionRequests, y.id = x.id ∧ y.isFor user device = true
  dumps : ∀ x ∈ (t.take r).2.store.dumpRequests, x.isBy user device = true →
    ∃ y ∈ r.store.dumpRequests, y.id = x.id ∧ y.isBy user device = true

theorem unfed_submit {w : Setting} {batch : List Entry} {source : Option String} {client : Client}
    (h : ¬r.store.Serves user device) :
    r.store.Unfed user device ((Turn.mk w (.submit batch source client)).take r).2.store := by
  obtain ⟨hs, -⟩ | ⟨-, -, -, hdone⟩ := submit_cases w batch source client r
  · rw [hs]
    exact refl_of (Store.Unfed user device) r.store
  · cases batch with
    | nil => exact refl_of (Store.Unfed user device) r.store
    | cons first rest =>
      have htake : (Turn.mk w (.submit (first :: rest) source client)).take r =
        (Answer.submitted <$> Relay.submit w (first :: rest) source client) r := rfl
      rw [htake, map_committed] at hdone
      rw [htake, (map_answered _ _ r).2]
      obtain ⟨husers, dates, -, hleads⟩ := Relay.submit_committed hdone
      refine trans_of (Store.Unfed user device)
        (Change.unfed r.store fun rows hrows row hrow => ?_)
        (hleads.along fun c s hc => Change.unfed s fun rows hrows => ?_)
      · cases hrows
        obtain ⟨target, htarget, hcopy⟩ := List.mem_flatMap.1 hrow
        obtain ⟨⟨e, date⟩, hz, rfl⟩ := List.mem_map.1 hcopy
        refine Bool.eq_false_of_not_eq_true fun hfor => h ?_
        obtain ⟨rfl, rfl⟩ := EntryRow.isFor_iff.1 hfor
        have huser : e.user = first.user := husers e (List.of_mem_zip hz).1
        have hserves : r.store.Serves e.user target := huser ▸ Store.mem_active_iff.1 htarget
        exact hserves
      · subst hrows
        simp at hc

theorem unfed (h : ¬r.store.Serves user device)
    (hd : ∀ source isChunk dump client,
      t.call ≠ .submitDump user source device isChunk dump client) :
    r.store.Unfed user device (t.take r).2.store := by
  obtain ⟨w, call⟩ := t
  by_cases hsubmit : ∃ batch source client, call = .submit batch source client
  · obtain ⟨batch, source, client, rfl⟩ := hsubmit
    exact unfed_submit h
  · refine (Turn.leads ⟨w, call⟩ r).along fun c s hc => Change.unfed s fun rows hrows row hrow => ?_
    subst hrows
    refine Bool.eq_false_of_not_eq_true fun hfor => ?_
    obtain ⟨rfl, rfl⟩ := EntryRow.isFor_iff.1 hfor
    cases call with
    | submit batch source client => exact hsubmit ⟨batch, source, client, rfl⟩
    | submitDump u source requester isChunk dump client =>
      obtain ⟨huser, hdevice, -⟩ := hc row hrow
      rw [huser, hdevice] at hd
      exact hd source isChunk dump client rfl
    | _ => exact hc.elim

/-- What comes to a device that is not active: nothing, unless it is registered or a peer uploads a
dump for it. -/
theorem spares (h : ¬r.store.Serves user device) (hr : ¬t.Registers user device r)
    (hd : ∀ source isChunk dump client,
      t.call ≠ .submitDump user source device isChunk dump client) : t.Spares user device r where
  entries := unfed h hd
  tombstones x hx hfor := by
    obtain ⟨gone, fresh, hages, -, hmade⟩ := t.tombstones_age r
    obtain hx | ⟨y, hy, -, he⟩ := hages.mem_cases hx
    · obtain ⟨req, -, -, huser, hactive, -⟩ := hmade x hx
      obtain ⟨rfl, rfl⟩ := DeletionRow.isFor_iff.1 hfor
      exact absurd (huser ▸ hactive) h
    · rw [he] at hfor ⊢
      exact ⟨y, hy, rfl, hfor⟩
  dumps x hx hby := by
    obtain ⟨gone, fresh, hages, -, hmade⟩ := t.dumps_age r
    obtain hfresh | ⟨y, hy, -, he⟩ := hages.mem_cases hx
    · obtain ⟨reg, client, hcall, -, ⟨huser, hrequester⟩, -⟩ := hmade x hfresh
      obtain ⟨w, call⟩ := t
      obtain rfl : call = _ := hcall
      obtain ⟨hs, -⟩ | ⟨hdone, -⟩ := register_cases w reg client r
      · rw [hs] at hx
        exact ⟨x, hx, rfl, hby⟩
      · obtain ⟨rfl, rfl⟩ := DumpRow.isBy_iff.1 hby
        exact absurd ⟨reg, client, rfl, ⟨huser.symm, hrequester.symm⟩, hdone⟩ hr
    · rw [he] at hby ⊢
      exact ⟨y, hy, rfl, hby⟩

end Turn

end Departure

theorem Turn.devices_register_known {w : Setting} {reg : Registration} {client : Client} {r : Relay}
    (h : r.store.Knows reg.user reg.device) :
    let t : Turn := ⟨w, .register reg client⟩
    (t.take r).2.store.devices = r.store.devices ∨
      (t.take r).2.store.devices = r.store.devices.map fun d =>
        if d.is reg.user reg.device then { d with uninstalled := none } else d := by
  intro t
  obtain ⟨hs, -⟩ | ⟨-, row, -, hkey, -, hdevices⟩ := register_cases w reg client r
  · exact .inl (congrArg (·.devices) hs)
  · obtain ⟨huser, hdevice⟩ := Prod.mk.inj hkey
    have hknown : r.store.devices.any (·.is row.user row.device) = true := by
      obtain ⟨d, hd, hdkey⟩ := h
      rw [huser, hdevice]
      exact List.any_eq_true.2 ⟨d, hd, DeviceRow.is_iff.2 hdkey⟩
    rw [Devices.register, if_pos hknown, huser, hdevice] at hdevices
    exact .inr hdevices

namespace Relay

/-- Where no uninstall is dated before 1971, what comes for a user is shared out among the devices
of the user that have been registered last and not been retired since. An uninstall that is answered
takes exactly what is for its device or asked for by it, counts that, and leaves everything of all
other devices; until the device is registered again, only a peer's dump leaves anything for it. A
device has one row, and comes back to it with nothing changed but that it is active. -/
theorem device_lifecycle (turns : List Turn)
    (hclock : ∀ t ∈ turns, ∀ user device, t.call = .uninstall user device →
      31536000 ≤ t.setting.clock.seconds) :
    let now := run {} turns
    (∀ user, ∃ devices : List String, devices.Nodup ∧
      (∀ device, device ∈ devices ↔ LastRegistered turns user device) ∧
      now.SharesAmong user devices) ∧
    (∀ (t : Turn) (r : Relay) user device, t.setting.config.environment = .production ∨
        t.setting.config.trackUsage = false ∨ t.setting.Noting →
      (t.Registers user device r ↔ ∃ reg client, t.call = .register reg client ∧
        (reg.user = user ∧ reg.device = device) ∧ (t.take r).1.answered = true)) ∧
    (∀ w user device n, (uninstall w user device now).1 = .answer n →
      n = now.store.entries.countP (·.isFor user device) +
        now.store.deletionRequests.countP (·.isFor user device) +
        now.store.dumpRequests.countP (·.isBy user device) ∧
      ∃ date, w.clock.toInstant? = some date ∧
        (uninstall w user device now).2.store = now.store.departed user device date) ∧
    (∀ before t after user device, turns = before ++ t :: after →
      t.Retires user device (run {} before) →
      (∀ early u late, after = early ++ u :: late →
        ¬u.Registers user device (run {} (before ++ t :: early))) →
      ∀ u : Turn, ¬u.Registers user device now →
        (∀ source isChunk dump client,
          u.call ≠ .submitDump user source device isChunk dump client) →
        u.Spares user device now) ∧
    (now.store.devices.map DeviceRow.key).Nodup ∧
    ∀ w (reg : Registration) client, now.store.Knows reg.user reg.device →
      let t : Turn := ⟨w, .register reg client⟩
      (t.take now).2.store.devices = now.store.devices ∨
        (t.take now).2.store.devices = now.store.devices.map fun d =>
          if d.is reg.user reg.device then { d with uninstalled := none } else d := by
  intro now
  refine ⟨fun user => ?_, fun t r user device => Turn.registers_iff_answered,
    fun w user device n => uninstall_answer,
    fun before t after user device hturns hretires hafter u hregisters hdump => ?_,
    keyed_run turns, fun w reg client => Turn.devices_register_known⟩
  · refine ⟨_, Devices.nodup_activeOf (keyed_run turns), fun device => ?_,
      sharesAmong_active now user⟩
    exact Store.mem_active_iff.trans (serves_run_iff hclock)
  · refine Turn.spares (fun hserves => ?_) hregisters hdump
    have hlast := (serves_run_iff hclock).1 hserves
    rw [hturns] at hlast
    exact not_lastRegistered_of_retired hretires hafter hlast

/-- Of two devices one is uninstalled, at the first moment that counts: a submit that follows leaves
nothing for it and goes to the other one. -/
theorem device_lifecycle_of_leaver :
    let start : Timestamp := ⟨31536000, 0, by decide, by decide, by decide, by decide⟩
    let turns : List Turn := [⟨default, .register ⟨"ada", "desk", false⟩ .unknown⟩,
      ⟨default, .register ⟨"ada", "lap", false⟩ .unknown⟩,
      ⟨⟨{}, start, fun _ => none⟩, .uninstall "ada" "desk"⟩]
    let entry : Entry := ⟨[1], [2], "", "ada", default, "e", 0, false⟩
    (∀ t ∈ turns, ∀ user device, t.call = .uninstall user device →
      31536000 ≤ t.setting.clock.seconds) ∧
    (∃ devices, (run {} turns).SharesAmong "ada" devices ∧ "lap" ∈ devices ∧ "desk" ∉ devices) ∧
    (Turn.mk default (.submit [entry] none .unknown)).Spares "ada" "desk" (run {} turns) := by
  intro start turns entry
  have hclock : ∀ t ∈ turns, ∀ user device, t.call = .uninstall user device →
      31536000 ≤ t.setting.clock.seconds := by
    intro t ht user device hcall
    simp only [turns, List.mem_cons, List.not_mem_nil, or_false] at ht
    obtain rfl | rfl | rfl := ht
    · cases hcall
    · cases hcall
    · exact Int.le_refl _
  have hdevices : (run {} turns).store.devices =
      [⟨"ada", "desk", "UnknownIp", ⟨0, by decide, by decide⟩, false,
        some ⟨31536000000000000, by decide, by decide⟩⟩,
       ⟨"ada", "lap", "UnknownIp", ⟨0, by decide, by decide⟩, false, none⟩] := by cbv
  have hanswered : (turns[2].take (run {} (turns.take 2))).1.answered = true := by cbv
  obtain ⟨hshares, -, -, hspares, -, -⟩ := device_lifecycle turns hclock
  obtain ⟨devices, -, hmem, hshared⟩ := hshares "ada"
  refine ⟨hclock, ⟨devices, hshared, ?_, fun hdesk => ?_⟩, ?_⟩
  · refine (hmem "lap").2 ((serves_run_iff hclock).1 ?_)
    rw [Store.Serves, hdevices]
    exact ⟨_, List.mem_cons_of_mem _ List.mem_cons_self, rfl, rfl, rfl⟩
  · have hserves := (serves_run_iff hclock).2 ((hmem "desk").1 hdesk)
    rw [Store.Serves, hdevices] at hserves
    simp [DeviceRow.active, DeviceRow.uninstallFloor] at hserves
  · refine hspares (turns.take 2) turns[2] [] "ada" "desk" rfl (.inl ⟨rfl, hanswered⟩)
      (fun early u late h => ?_) _ ?_ fun source isChunk dump client h => ?_
    · simp at h
    · rintro ⟨reg, client, h, -⟩
      cases h
    · cases h

end Relay

end HistoryRelay
