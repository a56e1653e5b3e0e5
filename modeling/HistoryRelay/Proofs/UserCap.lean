import HistoryRelay.Proofs.Rejection
import HistoryRelay.Proofs.Results

/-! The cap on users. Main statement: in a run under one cap there are never more users with a
device than it says, and it turns a registration away exactly if the user has no device row and the
cap is reached. -/
namespace HistoryRelay
open Step

/-- The users with a device row, of an active device or an uninstalled one. -/
def Store.users (s : Store) : Finset String := (s.devices.map (·.user)).toFinset

theorem Store.mem_users {s : Store} {user : String} :
    user ∈ s.users ↔ ∃ d ∈ s.devices, d.user = user := by
  simp [users]

namespace Devices

theorem length_users (ds : List DeviceRow) :
    (users ds).length = (ds.map (·.user)).toFinset.card := by
  have hmem : (users ds).toFinset = (ds.map (·.user)).toFinset := by
    ext user
    simp [users]
  rw [← hmem, List.toFinset_card_of_nodup]
  exact nodup_eraseDups _

theorem hasUser_iff {user : String} {ds : List DeviceRow} :
    hasUser user ds = true ↔ ∃ d ∈ ds, d.user = user := by
  simp [hasUser]

end Devices

theorem Change.users_subset (c : Change) {s : Store} {us : Finset String} (hs : s.users ⊆ us)
    (hc : ∀ row, c = .register row → row.user ∈ us) : (c.apply s).users ⊆ us := by
  intro user huser
  obtain ⟨d, hd, rfl⟩ := Store.mem_users.1 huser
  cases c with
  | register row =>
    obtain ⟨e, he, rfl⟩ | ⟨-, rfl⟩ := Devices.mem_register.1 hd
    · exact hs (Store.mem_users.2 ⟨e, he, by split <;> rfl⟩)
    · exact hc d rfl
  | uninstall user device date =>
    obtain ⟨e, he, rfl⟩ := List.mem_map.1 hd
    exact hs (Store.mem_users.2 ⟨e, he, by split <;> rfl⟩)
  | removeDevice user device => exact hs (Store.mem_users.2 ⟨d, (List.mem_filter.1 hd).1, rfl⟩)
  | _ => exact hs (Store.mem_users.2 ⟨d, hd, rfl⟩)

namespace Relay
variable {w : Setting} {limit : Word.Full}

/-- The cap in one piece. It asks for the registry twice, and both times gets the same reply. -/
theorem enforceCap_apply (hcap : w.config.maxUsers = some limit) (user : String) (s : Store) :
    enforceCap w user s = match w.refusals (.select .devices) with
      | some reason => (.failure (.refused reason), s)
      | none => if user ∉ s.users ∧ limit ≤ s.users.card then
          (.failure (.userCapReached s.users.card limit), s) else (.answer (), s) := by
  unfold enforceCap
  rw [hcap]
  cases hselect : w.refusals (.select .devices) with
  | some reason => simp [Store.userExists, bind_apply, Store.permit, hselect, fail]
  | none =>
    have hknown : Store.userExists w.refusals user s = (.answer (decide (user ∈ s.users)), s) :=
      Store.look_eq_answer.2 ⟨hselect, ?_, rfl⟩
    have hcount : Store.countUsers w.refusals s = (.answer s.users.card, s) :=
      Store.look_eq_answer.2 ⟨hselect, (Devices.length_users _).symm, rfl⟩
    · dsimp only
      rw [bind_answer hknown]
      by_cases huser : user ∈ s.users
      · simp [huser, pure_apply]
      · simp only [huser, decide_false, Bool.false_eq_true, if_false, not_false_eq_true, true_and]
        rw [bind_answer hcount]
        split
        · rfl
        · rfl
    · rw [Bool.eq_iff_iff, decide_eq_true_iff, Store.mem_users, Devices.hasUser_iff]

theorem room_of_enroll {reg : Registration} {client : Client} {s t : Store}
    {reply : RegistrationReply} (hcap : w.config.maxUsers = some limit)
    (h : enroll w reg client s = (.answer reply, t)) :
    reg.user ∈ s.users ∨ s.users.card < limit := by
  obtain ⟨_, _, hpassed, -⟩ := bind_eq_answer.1 h
  rw [enforceCap_apply hcap] at hpassed
  split at hpassed
  · cases hpassed
  · split at hpassed
    · cases hpassed
    · rename_i hroom
      by_contra hno
      simp only [not_or, Nat.not_lt] at hno
      exact hroom hno

end Relay

theorem Turn.users_card_le {t : Turn} {limit : Word.Full} {r : Relay}
    (hcap : t.setting.config.maxUsers = some limit) (h : r.store.users.card ≤ limit) :
    (t.take r).2.store.users.card ≤ limit := by
  have hsubset {us : Finset String} (hr : r.store.users ⊆ us)
      (hc : ∀ row, t.may (.register row) → row.user ∈ us) : (t.take r).2.store.users ⊆ us :=
    (t.leads r).keeps (P := fun s => s.users ⊆ us) hr fun c s hm hs =>
      c.users_subset hs fun row he => hc row (he ▸ hm)
  by_cases hregister : ∃ reg client, t.call = .register reg client
  · obtain ⟨w, call⟩ := t
    obtain ⟨reg, client, rfl⟩ := hregister
    obtain ⟨hsame, -⟩ | ⟨answer, s, hbody, -⟩ :=
      Turn.work_cases (t := ⟨w, .register reg client⟩) rfl r
    · rwa [hsame]
    · obtain ⟨reply, henroll, -⟩ := map_eq_answer.1 hbody
      have hmore : ((Turn.mk w (.register reg client)).take r).2.store.users ⊆
          insert reg.user r.store.users :=
        hsubset (Finset.subset_insert _ _) fun row hrow => hrow.1 ▸ Finset.mem_insert_self _ _
      obtain hknown | hroom := Relay.room_of_enroll hcap henroll
      · rw [Finset.insert_eq_of_mem hknown] at hmore
        exact (Finset.card_le_card hmore).trans h
      · exact (Finset.card_le_card hmore).trans
          ((Finset.card_insert_le _ _).trans (Nat.succ_le_of_lt hroom))
  · refine (Finset.card_le_card (hsubset (subset_refl _) fun row hrow => ?_)).trans h
    exact absurd (Call.register_of_may hrow) hregister

namespace Relay
variable {w : Setting} {limit : Word.Full}

theorem users_card_run {turns : List Turn} {r : Relay}
    (hcap : ∀ t ∈ turns, t.setting.config.maxUsers = some limit)
    (h : r.store.users.card ≤ limit) : (r.run turns).store.users.card ≤ limit := by
  induction turns generalizing r with
  | nil => exact h
  | cons t rest ih =>
    rw [run_cons]
    exact ih (fun u hu => hcap u (List.mem_cons_of_mem t hu))
      (t.users_card_le (hcap t List.mem_cons_self) h)

theorem readClock_never {σ : Type} {p : ErrorKind → Prop} : Never p (readClock w : Step σ _) := by
  unfold readClock
  exact .ite .crash (.pure _)

theorem enroll_precondition {reg : Registration} {client : Client} {s t : Store} {e : RelayError}
    (h : enroll w reg client s = (.failure e, t)) (hkind : e.kind = .precondition) :
    enforceCap w reg.user s = (.failure e, t) := by
  obtain hcap | ⟨_, s₁, -, hrest⟩ := bind_eq_failure.1 h
  · exact hcap
  · refine absurd hkind (Never.bind (p := (· = .precondition)) readClock_never (fun now => ?_) s₁ e
      (congrArg Prod.fst hrest))
    refine .bind (Store.look_never _ (by decide) _ _) fun existing => .bind ?_ fun _ =>
      .ite (.bind ?_ fun _ => .pure _) (.pure _)
    · exact Store.change_dated_never _ (by decide) (by decide)
        (fun i => .register ⟨reg.user, reg.device, client.ip, i, reg.isTestDevice, none⟩) _ _
    · exact Store.change_dated_never _ (by decide) (by decide)
        (fun i => .addDump ⟨0, reg.user, reg.device, i, 0⟩) _ _

theorem register_precondition_iff {reg : Registration} {client : Client} {r : Relay}
    (huser : reg.user ≠ "") (hdevice : reg.device ≠ "") (hfree : r.poisoned = false)
    {e : RelayError} (hkind : e.kind = .precondition) :
    (register w reg client r).1 = .failure e ↔
      enforceCap w reg.user r.store = (.failure e, r.store) := by
  have hregister : register w reg client =
      locked (transaction (enroll w reg client) >>= fun reply =>
        noteUsage w reg.user reg.device client 0 false >>= fun _ => pure reply) := by
    simp [register, requireId, huser, hdevice]
  rw [hregister, (locked_apply _ hfree).1]
  constructor
  · intro h
    obtain hwhole | ⟨reply, s, -, hrest⟩ := bind_eq_failure.1 (Prod.ext h rfl)
    · obtain ⟨-, t, henroll⟩ := transaction_eq_failure.1 hwhole
      have hcap := enroll_precondition henroll hkind
      have hlooks := (enforceCap_looks w reg.user).moves r.store
      rw [hcap] at hlooks
      obtain rfl : t = r.store := hlooks.symm
      exact hcap
    · obtain hnote | ⟨_, _, -, hdone⟩ := bind_eq_failure.1 hrest
      · have hnote := (noteUsage_failure hnote).2.1
        rw [hkind] at hnote
        cases hnote
      · cases hdone
  · intro h
    have henroll : enroll w reg client r.store = (.failure e, r.store) := bind_failure h
    rw [bind_failure (transaction_eq_failure.2 ⟨rfl, r.store, henroll⟩)]

theorem register_capped_iff {reg : Registration} {client : Client} {r : Relay}
    (hcap : w.config.maxUsers = some limit) (huser : reg.user ≠ "") (hdevice : reg.device ≠ "")
    (hfree : r.poisoned = false) {e : RelayError} (hkind : e.kind = .precondition) :
    (register w reg client r).1 = .failure e ↔
      w.refusals (.select .devices) = none ∧ reg.user ∉ r.store.users ∧
        limit ≤ r.store.users.card ∧ e = .userCapReached r.store.users.card limit := by
  rw [register_precondition_iff huser hdevice hfree hkind, enforceCap_apply hcap]
  cases w.refusals (.select .devices) with
  | some reason =>
    have hne : e ≠ .refused reason := by
      rintro rfl
      cases hkind
    simp [hne.symm]
  | none =>
    by_cases hroom : reg.user ∉ r.store.users ∧ limit ≤ r.store.users.card
    · simp [hroom.1, hroom.2, eq_comm (a := e)]
    · simp only [if_neg hroom, Prod.mk.injEq, reduceCtorEq, false_and, true_and, false_iff]
      exact fun h => hroom ⟨h.1, h.2.1⟩

/-- Under one cap the users with a device are never more than it says. A registration fails over
the state of the relay exactly if its user has no device row, active or not, and the cap is
reached, as far as the registry can be asked; and then nothing changes. -/
theorem registration_is_capped {limit : Word.Full} (turns : List Turn)
    (hcap : ∀ t ∈ turns, t.setting.config.maxUsers = some limit)
    (hclock : ∀ t ∈ turns, 0 ≤ t.setting.clock.seconds) :
    let r := run {} turns
    r.store.users.card ≤ limit ∧
      ∀ (w : Setting) (reg : Registration) (client : Client), w.config.maxUsers = some limit →
        reg.user ≠ "" → reg.device ≠ "" →
        let out := (Call.register reg client).perform w r
        ((∃ e, out.1 = .failure e ∧ e.kind = .precondition) ↔
            w.refusals (.select .devices) = none ∧ reg.user ∉ r.store.users ∧
              limit ≤ r.store.users.card) ∧
          (∀ e, out.1 = .failure e → e.kind = .precondition →
            e = .userCapReached r.store.users.card limit ∧ out.2 = r) ∧
          (reg.user ∈ r.store.users → ∀ e, out.1 = .failure e → e.kind ≠ .precondition) := by
  intro r
  refine ⟨users_card_run hcap (Nat.zero_le _), ?_⟩
  intro w reg client hw huser hdevice out
  have hfree : r.poisoned = false := poisoned_run hclock {}
  have hfailure {e : RelayError} (hkind : e.kind = .precondition) : out.1 = .failure e ↔
      w.refusals (.select .devices) = none ∧ reg.user ∉ r.store.users ∧
        limit ≤ r.store.users.card ∧ e = .userCapReached r.store.users.card limit :=
    map_fst_eq_failure.trans (register_capped_iff hw huser hdevice hfree hkind)
  refine ⟨⟨?_, ?_⟩, ?_, ?_⟩
  · rintro ⟨e, he, hkind⟩
    obtain ⟨hselect, hnew, hfull, -⟩ := (hfailure hkind).1 he
    exact ⟨hselect, hnew, hfull⟩
  · rintro ⟨hselect, hnew, hfull⟩
    exact ⟨_, (hfailure rfl).2 ⟨hselect, hnew, hfull, rfl⟩, rfl⟩
  · intro e he hkind
    exact ⟨((hfailure hkind).1 he).2.2.2,
      Call.perform_harmless w (.register reg client) r e out.2 (Prod.ext he rfl)
        (by rw [hkind]; rfl)⟩
  · intro hknown e he hkind
    exact ((hfailure hkind).1 he).2.1 hknown

/-- With room for one user, another one is turned away while the first has nothing but an
uninstalled device, and the first comes back with a new device. -/
theorem registration_is_capped_at_one :
    let later : Timestamp := ⟨1000000000, 0, by decide, by decide, by decide, by decide⟩
    let w : Setting := ⟨{ maxUsers := some 1 }, later, fun _ => none⟩
    let turns : List Turn :=
      [⟨w, .register ⟨"ada", "desk", false⟩ .unknown⟩, ⟨w, .uninstall "ada" "desk"⟩]
    let r := run {} turns
    r.store.users = {"ada"} ∧ Devices.activeOf "ada" r.store.devices = [] ∧
      (∃ e, ((Call.register ⟨"bob", "desk", false⟩ .unknown).perform w r).1 = .failure e ∧
        e.kind = .precondition) ∧
      ((Call.register ⟨"ada", "lap", false⟩ .unknown).perform w r).1 =
        .answer (.registered ⟨0, false⟩) := by
  intro later w turns r
  have husers : r.store.users = {"ada"} := by decide
  have hcap : ∀ t ∈ turns, t.setting.config.maxUsers = some 1 := by decide
  obtain ⟨-, hall⟩ := registration_is_capped turns hcap (by decide)
  obtain ⟨hbob, -⟩ := hall w ⟨"bob", "desk", false⟩ .unknown rfl (by decide) (by decide)
  exact ⟨husers, by cbv, hbob.2 ⟨rfl, by rw [husers]; decide, by rw [husers]; decide⟩, by cbv⟩

end Relay

end HistoryRelay
