import HistoryRelay.Proofs.Addressing
import HistoryRelay.Proofs.Tombstones

/-! Which devices are active. Main statement: a device is active exactly if what last happened to it
is that it was registered, whatever comes between. -/
namespace HistoryRelay
open Step Ledger

section Happenings

/-- The work of a call is done: the call is answered, or fails over the note of it alone. -/
def Outcome.effective {α : Type} : Outcome α → Bool
  | .answer _ => true
  | .failure e => e.kind = .nonCritical
  | .crash => false

namespace Turn

def Registers (user device : String) (t : Turn) (r : Relay) : Prop :=
  ∃ reg client, t.call = .register reg client ∧ (reg.user = user ∧ reg.device = device) ∧
    (t.take r).1.effective = true

/-- The device is uninstalled, whether it was known or not, or a deep clean takes it out of the
registry. -/
def Retires (user device : String) (t : Turn) (r : Relay) : Prop :=
  (t.call = .uninstall user device ∧ (t.take r).1.answered = true) ∨
    (∃ now, t.call = .deepClean now) ∧ r.store.Knows user device ∧
      ¬(t.take r).2.store.Knows user device

end Turn

/-- What last happened to the device in a run from an empty store is that it was registered. -/
def Relay.LastRegistered (turns : List Turn) (user device : String) : Prop :=
  ∃ before t after, turns = before ++ t :: after ∧ t.Registers user device (run {} before) ∧
    ∀ early u late, after = early ++ u :: late →
      ¬u.Retires user device (run {} (before ++ t :: early))

theorem Turn.not_retires_of_registers {t : Turn} {r : Relay} {user device : String}
    (h : t.Registers user device r) : ¬t.Retires user device r := by
  obtain ⟨reg, client, hcall, -⟩ := h
  rintro (⟨hother, -⟩ | ⟨⟨now, hother⟩, -⟩)
  · simp [hcall] at hother
  · simp [hcall] at hother

theorem Relay.lastRegistered_concat {turns : List Turn} {t : Turn} {user device : String} :
    LastRegistered (turns ++ [t]) user device ↔ t.Registers user device (run {} turns) ∨
      (LastRegistered turns user device ∧ ¬t.Retires user device (run {} turns)) := by
  constructor
  · rintro ⟨before, u, after, hturns, hu, hlast⟩
    obtain rfl | ⟨after, v, rfl⟩ := after.eq_nil_or_concat'
    · obtain ⟨rfl, rfl⟩ := List.append_singleton_inj.1 hturns
      exact .inl hu
    · rw [← List.cons_append, ← List.append_assoc] at hturns
      obtain ⟨rfl, rfl⟩ := List.append_singleton_inj.1 hturns
      refine .inr ⟨⟨before, u, after, rfl, hu, fun early x late hsplit => ?_⟩, hlast after t [] rfl⟩
      exact hlast early x (late ++ [t]) (by rw [hsplit, List.append_assoc, List.cons_append])
  · rintro (ht | ⟨⟨before, u, after, rfl, hu, hlast⟩, ht⟩)
    · exact ⟨turns, t, [], rfl, ht, fun early u late h => by simp at h⟩
    · refine ⟨before, u, after ++ [t], by simp, hu, fun early x late hsplit => ?_⟩
      obtain rfl | ⟨late, y, rfl⟩ := late.eq_nil_or_concat'
      · obtain ⟨rfl, rfl⟩ := List.append_singleton_inj.1 hsplit
        exact ht
      · rw [← List.cons_append, ← List.append_assoc] at hsplit
        obtain ⟨rfl, rfl⟩ := List.append_singleton_inj.1 hsplit
        exact hlast early x late rfl

theorem Relay.not_lastRegistered_of_retired {before after : List Turn} {t : Turn}
    {user device : String} (ht : t.Retires user device (run {} before))
    (hafter : ∀ early u late, after = early ++ u :: late →
      ¬u.Registers user device (run {} (before ++ t :: early))) :
    ¬LastRegistered (before ++ t :: after) user device := by
  induction after using List.reverseRecOn with
  | nil =>
    rw [lastRegistered_concat]
    rintro (hregisters | ⟨-, hstays⟩)
    · exact Turn.not_retires_of_registers hregisters ht
    · exact hstays ht
  | append_singleton after u ih =>
    rw [← List.cons_append, ← List.append_assoc, lastRegistered_concat]
    rintro (hregisters | ⟨hlast, -⟩)
    · exact hafter after u [] rfl hregisters
    · refine ih (fun early v late hsplit => ?_) hlast
      exact hafter early v (late ++ [u]) (by rw [hsplit, List.append_assoc, List.cons_append])

end Happenings

section Activity

theorem Store.serves_register_iff {s : Store} {row : DeviceRow} (hrow : row.uninstalled = none)
    {user device : String} : ((Change.register row).apply s).Serves user device ↔
      row.key = (user, device) ∨ s.Serves user device := by
  constructor
  · rintro ⟨d, hd, huser, hactive, hdevice⟩
    obtain ⟨e, he, rfl⟩ | ⟨-, rfl⟩ := Devices.mem_register.1 hd
    · by_cases hsame : e.is row.user row.device
      · rw [if_pos hsame] at huser hdevice
        have hkey := DeviceRow.is_iff.1 hsame
        exact .inl (hkey.symm.trans (Prod.ext huser hdevice))
      · rw [if_neg hsame] at huser hactive hdevice
        exact .inr ⟨e, he, huser, hactive, hdevice⟩
    · exact .inl (Prod.ext huser hdevice)
  · rintro (hkey | h)
    · obtain ⟨rfl, rfl⟩ := Prod.mk.inj hkey
      by_cases hnew : ∀ e ∈ s.devices, e.key ≠ row.key
      · exact ⟨row, Devices.mem_register.2 (.inr ⟨hnew, rfl⟩), rfl,
          by simp [DeviceRow.active, hrow], rfl⟩
      · push Not at hnew
        obtain ⟨e, he, hkey⟩ := hnew
        obtain ⟨huser, hdevice⟩ := Prod.mk.inj hkey
        refine ⟨_, Devices.mem_register.2 (.inl ⟨e, he, rfl⟩), ?_⟩
        rw [if_pos (DeviceRow.is_iff.2 hkey)]
        exact ⟨huser, rfl, hdevice⟩
    · exact serves_register row h

theorem Store.serves_uninstall_iff {s : Store} {user device u v : String} {date : Instant}
    (hdate : DeviceRow.uninstallFloor ≤ date.nanos) :
    ((Change.uninstall user device date).apply s).Serves u v ↔
      s.Serves u v ∧ ¬(u = user ∧ v = device) := by
  refine ⟨?_, fun h => serves_uninstall date h.1 h.2⟩
  rintro ⟨d, hd, huser, hactive, hdevice⟩
  obtain ⟨e, he, rfl⟩ := List.mem_map.1 hd
  by_cases hsame : e.is user device
  · rw [if_pos hsame] at hactive
    simp [DeviceRow.active, Int.not_lt.2 hdate] at hactive
  · rw [if_neg hsame] at huser hactive hdevice
    refine ⟨⟨e, he, huser, hactive, hdevice⟩, fun hown => hsame (DeviceRow.is_iff.2 ?_)⟩
    exact Prod.ext (huser.trans hown.1) (hdevice.trans hown.2)

theorem Store.serves_cleaned_iff {s : Store} {config : Config} {date : Instant}
    {user device : String} : (s.cleaned config date).Serves user device ↔
      s.Serves user device ∧ (s.cleaned config date).Knows user device := by
  constructor
  · rintro ⟨d, hd, huser, hactive, hdevice⟩
    exact ⟨⟨d, (mem_devices_cleaned.1 hd).1, huser, hactive, hdevice⟩,
      d, hd, Prod.ext huser hdevice⟩
  · rintro ⟨⟨d, hd, huser, hactive, hdevice⟩, e, he, hkey⟩
    have hstays := (mem_devices_cleaned.1 he).2
    rw [hkey, ← huser, ← hdevice] at hstays
    exact ⟨d, mem_devices_cleaned.2 ⟨hd, hstays⟩, huser, hactive, hdevice⟩

theorem Store.serves_congr {s t : Store} (h : s.devices = t.devices) {user device : String} :
    s.Serves user device ↔ t.Serves user device := by
  rw [Serves, Serves, h]

theorem Store.knows_of_serves {s : Store} {user device : String} (h : s.Serves user device) :
    s.Knows user device := by
  obtain ⟨d, hd, huser, -, hdevice⟩ := h
  exact ⟨d, hd, Prod.ext huser hdevice⟩

theorem Timestamp.floor_le_of_toInstant? {t : Timestamp} {date : Instant}
    (h : t.toInstant? = some date) (ht : 31536000 ≤ t.seconds) :
    DeviceRow.uninstallFloor ≤ date.nanos := by
  have hnanos : t.totalNanos = date.nanos := Timestamp.toInstant?_eq_some.1 h
  unfold Timestamp.totalNanos at hnanos
  unfold DeviceRow.uninstallFloor
  omega

theorem Undertaking.bookkeep_effective {w : Setting} (hw : 0 ≤ w.clock.seconds) (u : Undertaking)
    (answer : Answer) (s : Store) :
    (((fun _ => answer) <$> u.bookkeep w) s).1.effective = true := by
  have hcalm : Calm (u.bookkeep w) := by
    unfold bookkeep
    cases u.note with
    | none => exact .pure ()
    | some n =>
      have htame : Relay.Tame w (fun _ => True) (Relay.noteUsage w n.user n.device n.client
          n.entries false) := Relay.noteUsage_tame w _ _ _ _ _ fun _ _ _ => trivial
      exact htame.calm hw
  cases hnote : u.bookkeep w s with
  | mk o t =>
    cases o with
    | answer v =>
      rw [map_eq_answer.2 ⟨v, hnote, rfl⟩]
      rfl
    | failure e =>
      rw [map_eq_failure.2 hnote]
      exact decide_eq_true (bookkeep_failure hnote).2.1
    | crash => exact absurd (congrArg Prod.fst hnote) (hcalm s)

namespace Turn
variable {r : Relay} {user device : String}

/-- A call that writes leaves the store as it was and has no effect, or its work is done. -/
theorem effect_cases {t : Turn} {u : Undertaking}
    (h : t.call.undertaking? t.setting = some u) (r : Relay) :
    ((t.take r).2.store = r.store ∧ (t.take r).1.effective = false) ∨
      ∃ answer s, u.body r.store = (.answer answer, s) ∧
        (t.take r).2.store.besidesUsage = s.besidesUsage ∧
        (0 ≤ t.setting.clock.seconds → (t.take r).1.effective = true) := by
  obtain ⟨w, call⟩ := t
  have htake : (Turn.mk w call).take r = u.perform w (fun _ => none) r :=
    (congrFun (Relay.perform_of_undertaking h) r).symm
  rw [htake]
  obtain ⟨hs, hout⟩ | ⟨answer, s, -, hbody, hout, hs⟩ :=
    Undertaking.work_cases (Relay.undertaking_sound h) w (fun _ => none) r
  · refine .inl ⟨hs, ?_⟩
    obtain ⟨e, he, hkind⟩ | ⟨hcrash, -⟩ := hout
    · rw [he]
      exact decide_eq_false hkind
    · rw [hcrash]
      rfl
  · have hnote := (Undertaking.bookkeep_answer w u answer s).2
    rw [← map_eq, ← hs] at hnote
    rw [hout]
    exact .inr ⟨answer, s, hbody, hnote, fun hw => u.bookkeep_effective hw answer s⟩

theorem answered_of_effective {t : Turn} {u : Undertaking}
    (hu : t.call.undertaking? t.setting = some u)
    (hw : t.setting.config.environment = .production ∨ t.setting.config.trackUsage = false ∨
      t.setting.Noting) (h : (t.take r).1.effective = true) : (t.take r).1.answered = true := by
  obtain ⟨w, call⟩ := t
  cases htake : (Turn.mk w call).take r with
  | mk o r' =>
    rw [htake] at h
    cases o with
    | answer v => rfl
    | crash => cases h
    | failure e =>
      have hkind : e.kind = .nonCritical := of_decide_eq_true h
      have hperform : u.perform w (fun _ => none) r = (.failure e, r') :=
        (congrFun (Relay.perform_of_undertaking hu) r).trans htake
      obtain ⟨hother, -⟩ | ⟨_, s, -, -, -, hnote, -⟩ :=
        Undertaking.failure_cases (Relay.undertaking_sound hu) hperform
      · exact absurd hkind hother
      · obtain hproduction | huntracked | hnoting := hw
        · exact absurd hproduction (Undertaking.bookkeep_failure hnote).2.2
        · have hsilent : u.bookkeep w = pure () := by
            unfold Undertaking.bookkeep Relay.noteUsage
            cases u.note with
            | none => rfl
            | some n => exact if_pos (congrArg not huntracked)
          rw [hsilent] at hnote
          cases hnote
        · have hanswered := Undertaking.bookkeep_willing hnoting u s
          rw [hnote] at hanswered
          cases hanswered

theorem registers_iff_answered {t : Turn}
    (hw : t.setting.config.environment = .production ∨ t.setting.config.trackUsage = false ∨
      t.setting.Noting) : t.Registers user device r ↔ ∃ reg client,
        t.call = .register reg client ∧ (reg.user = user ∧ reg.device = device) ∧
          (t.take r).1.answered = true := by
  obtain ⟨w, call⟩ := t
  constructor
  · rintro ⟨reg, client, rfl, hids, h⟩
    exact ⟨reg, client, rfl, hids, answered_of_effective rfl hw h⟩
  · rintro ⟨reg, client, rfl, hids, h⟩
    obtain ⟨v, hv⟩ := Outcome.answered_iff.1 h
    exact ⟨reg, client, rfl, hids, by rw [hv]; rfl⟩

theorem register_cases (w : Setting) (reg : Registration) (client : Client) (r : Relay) :
    let t : Turn := ⟨w, .register reg client⟩
    ((t.take r).2.store = r.store ∧ (t.take r).1.effective = false) ∨
      (t.take r).1.effective = true ∧ ∃ row : DeviceRow, row.uninstalled = none ∧
        row.key = (reg.user, reg.device) ∧ w.clock.toInstant? = some row.registered ∧
          (t.take r).2.store.devices = Devices.register row r.store.devices := by
  intro t
  obtain hnone | ⟨answer, s, hbody, hs, heffective⟩ := effect_cases (t := t) rfl r
  · exact .inl hnone
  · obtain ⟨reply, hbody, -⟩ := map_eq_answer.1 hbody
    obtain ⟨-, hclock, time, htime, rfl⟩ := Relay.enroll_answer hbody
    refine .inr ⟨heffective hclock,
      ⟨reg.user, reg.device, client.ip, time, reg.isTestDevice, none⟩, rfl, rfl, htime, ?_⟩
    refine (congrArg (·.devices) hs).trans ?_
    split <;> rfl

theorem serves_register (w : Setting) (reg : Registration) (client : Client) :
    let t : Turn := ⟨w, .register reg client⟩
    (t.take r).2.store.Serves user device ↔
      t.Registers user device r ∨ r.store.Serves user device := by
  intro t
  have hregisters : t.Registers user device r ↔
      (reg.user = user ∧ reg.device = device) ∧ (t.take r).1.effective = true := by
    constructor
    · rintro ⟨_, _, hcall, h⟩
      cases hcall
      exact h
    · exact fun h => ⟨reg, client, rfl, h⟩
  rw [hregisters]
  obtain ⟨hs, hno⟩ | ⟨hdone, row, hrow, hkey, -, hdevices⟩ := register_cases w reg client r
  · rw [hs, hno]
    simp
  · rw [Store.serves_congr (t := (Change.register row).apply r.store) hdevices,
      Store.serves_register_iff hrow, hkey, hdone]
    simp

theorem serves_uninstall {w : Setting} {u v : String} (hclock : 31536000 ≤ w.clock.seconds) :
    let t : Turn := ⟨w, .uninstall u v⟩
    (t.take r).2.store.Serves user device ↔
      r.store.Serves user device ∧ ¬t.Retires user device r := by
  intro t
  have hretires : t.Retires user device r ↔
      (user = u ∧ device = v) ∧ (t.take r).1.answered = true := by
    constructor
    · rintro (⟨hcall, hanswered⟩ | ⟨⟨now, hcall⟩, -⟩)
      · obtain ⟨rfl, rfl⟩ := Call.uninstall.inj hcall
        exact ⟨⟨rfl, rfl⟩, hanswered⟩
      · cases hcall
    · rintro ⟨⟨rfl, rfl⟩, hanswered⟩
      exact .inl ⟨rfl, hanswered⟩
  rw [hretires]
  obtain ⟨hs, hno, -⟩ | ⟨answer, s, hbody, hs, -, -, hanswer⟩ := work_cases (t := t) rfl r
  · rw [hs, hno]
    simp
  · obtain ⟨n, hbody, -⟩ := map_eq_answer.1 hbody
    obtain ⟨-, date, hdate, rfl⟩ := Relay.withdraw_answer hbody
    have hfloor := Timestamp.floor_le_of_toInstant? hdate hclock
    have hdevices : (t.take r).2.store.devices =
        ((Change.uninstall u v date).apply r.store).devices := congrArg (·.devices) hs
    rw [Store.serves_congr hdevices, Store.serves_uninstall_iff hfloor, hanswer (.inr rfl)]
    simp [Outcome.answered]

theorem serves_deepClean (w : Setting) (now : Timestamp) :
    let t : Turn := ⟨w, .deepClean now⟩
    (t.take r).2.store.Serves user device ↔
      r.store.Serves user device ∧ ¬t.Retires user device r := by
  intro t
  have hretires : t.Retires user device r ↔
      r.store.Knows user device ∧ ¬(t.take r).2.store.Knows user device := by
    constructor
    · rintro (⟨hcall, -⟩ | ⟨-, h⟩)
      · cases hcall
      · exact h
    · exact fun h => .inr ⟨⟨now, rfl⟩, h⟩
  rw [hretires]
  obtain hs | ⟨date, hs⟩ := deepClean_cases w now r
  · rw [hs]
    exact ⟨fun h => ⟨h, fun hgone => hgone.2 hgone.1⟩, fun h => h.1⟩
  · rw [hs, Store.serves_cleaned_iff]
    refine and_congr_right fun h => ?_
    rw [not_and_not_right]
    exact ⟨fun hstays _ => hstays, fun hstays => hstays (Store.knows_of_serves h)⟩

/-- After a turn a device is active if it has been registered, or was active and is not retired. -/
theorem serves_iff (t : Turn) (r : Relay)
    (hclock : ∀ u v, t.call = .uninstall u v → 31536000 ≤ t.setting.clock.seconds) :
    (t.take r).2.store.Serves user device ↔
      t.Registers user device r ∨ (r.store.Serves user device ∧ ¬t.Retires user device r) := by
  obtain ⟨w, call⟩ := t
  have hregisters (h : ∀ reg client, call ≠ .register reg client) :
      ¬(Turn.mk w call).Registers user device r := by
    rintro ⟨reg, client, hcall, -⟩
    exact h reg client hcall
  have hretires (hu : ∀ u v, call ≠ .uninstall u v) (hd : ∀ now, call ≠ .deepClean now) :
      ¬(Turn.mk w call).Retires user device r := by
    rintro (⟨hcall, -⟩ | ⟨⟨now, hcall⟩, -⟩)
    · exact hu _ _ hcall
    · exact hd now hcall
  cases call with
  | register reg client =>
    rw [iff_true_intro (hretires (by simp) (by simp)), and_true]
    exact serves_register w reg client
  | uninstall u v =>
    rw [iff_false_intro (hregisters (by simp)), false_or]
    exact serves_uninstall (hclock u v rfl)
  | deepClean now =>
    rw [iff_false_intro (hregisters (by simp)), false_or]
    exact serves_deepClean w now
  | _ =>
    rw [Store.serves_congr (devices_take (by simp) (by simp) (by simp)),
      iff_false_intro (hregisters (by simp)), iff_true_intro (hretires (by simp) (by simp)),
      false_or, and_true]

end Turn

theorem Relay.serves_run_iff {turns : List Turn}
    (hclock : ∀ t ∈ turns, ∀ user device, t.call = .uninstall user device →
      31536000 ≤ t.setting.clock.seconds) {user device : String} :
    (run {} turns).store.Serves user device ↔ LastRegistered turns user device := by
  induction turns using List.reverseRecOn with
  | nil =>
    constructor
    · rintro ⟨d, hd, -⟩
      cases hd
    · rintro ⟨before, t, after, hturns, -⟩
      simp at hturns
  | append_singleton turns t ih =>
    have hbefore := ih fun u hu => hclock u (List.mem_append_left _ hu)
    have ht := hclock t (List.mem_append_right _ (List.mem_singleton_self t))
    rw [run_append, lastRegistered_concat, ← hbefore]
    exact t.serves_iff (run {} turns) ht

end Activity

end HistoryRelay
