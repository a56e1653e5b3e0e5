import HistoryRelay.Proofs.Effects

/-! The device registry. In every reachable store a user and a device id name one row at most, so
the active devices of a user stand in strict order of registration date and device id. -/
namespace HistoryRelay

namespace DeviceRow

def key (d : DeviceRow) : String × String := (d.user, d.device)

theorem is_iff {d : DeviceRow} {user device : String} :
    d.is user device = true ↔ d.key = (user, device) := by
  simp [is, key]

/-- Registered earlier, or at the same time with the smaller id. -/
def Before (a b : DeviceRow) : Prop :=
  a.registered < b.registered ∨ (a.registered = b.registered ∧ a.device < b.device)

theorem notAfter_iff {a b : DeviceRow} : a.notAfter b = true ↔
    a.registered.nanos < b.registered.nanos ∨
      (a.registered.nanos = b.registered.nanos ∧ a.device ≤ b.device) := by
  have he : a.registered = b.registered ↔ a.registered.nanos = b.registered.nanos :=
    ⟨congrArg _, fun h => by cases ha : a.registered; cases hb : b.registered; simp_all⟩
  simp [notAfter, Instant.lt_iff, he]

theorem notAfter_trans (a b c : DeviceRow) (hab : a.notAfter b = true) (hbc : b.notAfter c = true) :
    a.notAfter c = true := by
  rw [notAfter_iff] at *
  rcases hab with hab | ⟨hab, hd⟩ <;> rcases hbc with hbc | ⟨hbc, hd'⟩
  · exact .inl (by omega)
  · exact .inl (by omega)
  · exact .inl (by omega)
  · exact .inr ⟨by omega, String.le_trans hd hd'⟩

theorem notAfter_total (a b : DeviceRow) : (a.notAfter b || b.notAfter a) = true := by
  rw [Bool.or_eq_true, notAfter_iff, notAfter_iff]
  rcases String.le_total a.device b.device with hd | hd <;> simp only [hd, and_true] <;> omega

theorem before_of_notAfter {a b : DeviceRow} (h : a.notAfter b = true) (hu : a.user = b.user)
    (hk : a.key ≠ b.key) : a.Before b := by
  obtain h | ⟨h, hd⟩ := notAfter_iff.1 h
  · exact .inl h
  · have he : a.registered = b.registered := by
      cases ha : a.registered; cases hb : b.registered; simp_all
    have hne : a.device ≠ b.device := fun e => hk (by simp [key, hu, e])
    refine .inr ⟨he, String.not_le.1 fun hd' => hne (String.le_antisymm hd hd')⟩

end DeviceRow

namespace Devices

/-- Every device has one row. -/
def Keyed (ds : List DeviceRow) : Prop := (ds.map DeviceRow.key).Nodup

instance (ds : List DeviceRow) : Decidable (Keyed ds) :=
  inferInstanceAs (Decidable (ds.map DeviceRow.key).Nodup)

theorem keyed_of_map {ds : List DeviceRow} {f : DeviceRow → DeviceRow} (h : Keyed ds)
    (hf : ∀ d, (f d).key = d.key) : Keyed (ds.map f) := by
  have he : DeviceRow.key ∘ f = DeviceRow.key := funext hf
  rw [Keyed, List.map_map, he]
  exact h

theorem keyed_register {ds : List DeviceRow} (row : DeviceRow) (h : Keyed ds) :
    Keyed (register row ds) := by
  unfold register
  split
  · refine keyed_of_map h fun d => ?_
    split <;> rfl
  · rename_i hn
    have hfresh : ∀ d ∈ ds, d.key ≠ row.key := fun d hd he =>
      hn (List.any_eq_true.2 ⟨d, hd, DeviceRow.is_iff.2 he⟩)
    rw [Keyed, List.map_append, List.nodup_append]
    refine ⟨h, by simp, fun k hk k' hk' => ?_⟩
    obtain ⟨d, hd, rfl⟩ := List.mem_map.1 hk
    rw [List.mem_singleton.1 hk']
    exact hfresh d hd

theorem mem_register {row d : DeviceRow} {ds : List DeviceRow} : d ∈ register row ds ↔
    (∃ e ∈ ds, d = if e.is row.user row.device then { e with uninstalled := none } else e) ∨
      (∀ e ∈ ds, e.key ≠ row.key) ∧ d = row := by
  rw [register, mem_upsert]
  simp only [← Bool.not_eq_true, DeviceRow.is_iff]
  rfl

theorem keyed_uninstall {ds : List DeviceRow} (user device : String) (date : Instant)
    (h : Keyed ds) : Keyed (uninstall user device date ds) := by
  refine keyed_of_map h fun d => ?_
  split <;> rfl

theorem keyed_filter {ds : List DeviceRow} (p : DeviceRow → Bool) (h : Keyed ds) :
    Keyed (ds.filter p) :=
  h.sublist (List.filter_sublist.map _)

theorem mem_activeOf {user : String} {ds : List DeviceRow} {d : DeviceRow} :
    d ∈ activeOf user ds ↔ d ∈ ds ∧ d.user = user ∧ d.active = true := by
  simp [activeOf, List.mem_mergeSort]

theorem length_activeOf (user : String) (ds : List DeviceRow) :
    (activeOf user ds).length = ds.countP fun d => d.user = user && d.active := by
  rw [activeOf, List.length_mergeSort, List.countP_eq_length_filter]

theorem activeOf_pairwise {user : String} {ds : List DeviceRow} (h : Keyed ds) :
    (activeOf user ds).Pairwise DeviceRow.Before := by
  have hsorted := List.pairwise_mergeSort DeviceRow.notAfter_trans DeviceRow.notAfter_total
    (ds.filter fun d => d.user = user && d.active)
  have hperm := List.mergeSort_perm (ds.filter fun d => d.user = user && d.active)
    DeviceRow.notAfter
  have hkeys : (activeOf user ds).Pairwise fun a b => a.key ≠ b.key :=
    List.pairwise_map.1 ((hperm.map _).nodup_iff.2 (keyed_filter _ h))
  refine (hsorted.and hkeys).imp_of_mem fun {a b} ha hb hab => ?_
  have hua := (mem_activeOf.1 ha).2.1
  have hub := (mem_activeOf.1 hb).2.1
  exact DeviceRow.before_of_notAfter hab.1 (hua.trans hub.symm) hab.2

end Devices

theorem Change.keyed (c : Change) {s : Store} (h : Devices.Keyed s.devices) :
    Devices.Keyed (c.apply s).devices := by
  cases c with
  | register row => exact Devices.keyed_register row h
  | uninstall user device date => exact Devices.keyed_uninstall user device date h
  | removeDevice user device => exact Devices.keyed_filter _ h
  | _ => exact h

theorem Relay.keyed_run (turns : List Turn) : Devices.Keyed (Relay.run {} turns).store.devices :=
  run_keeps (P := fun s => Devices.Keyed s.devices) turns List.nodup_nil
    fun _ _ c _ _ h => c.keyed h

end HistoryRelay
