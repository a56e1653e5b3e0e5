import HistoryRelay.Proofs.Effects

/-! The numbers of rows. They ascend in every table that has them and no number is given twice, so
a number names a row for good, and a row that is new has a number that none had before. -/
namespace HistoryRelay

/-- The numbers of the rows ascend up to the one that was given last. -/
structure Ascending {α : Type} (id : α → Nat) (last : Nat) (rows : List α) : Prop where
  lt : rows.Pairwise fun a b => id a < id b
  le : ∀ r ∈ rows, id r ≤ last

namespace Ascending
variable {α : Type} {id : α → Nat} {last : Nat} {rows : List α}

theorem nil : Ascending id last [] := ⟨List.Pairwise.nil, by simp⟩

theorem unique (h : Ascending id last rows) {a b : α} (ha : a ∈ rows) (hb : b ∈ rows)
    (hid : id a = id b) : a = b := by
  have hne : (rows.map id).Nodup :=
    List.pairwise_map.2 (h.lt.imp fun hlt => Nat.ne_of_lt hlt)
  exact List.inj_on_of_nodup_map hne ha hb hid

theorem filter (h : Ascending id last rows) (p : α → Bool) : Ascending id last (rows.filter p) :=
  ⟨h.lt.filter p, fun r hr => h.le r (List.mem_filter.1 hr).1⟩

theorem map (h : Ascending id last rows) {f : α → α} (hf : ∀ r, id (f r) = id r) :
    Ascending id last (rows.map f) where
  lt := List.pairwise_map.2 (h.lt.imp fun hlt => by rwa [hf, hf])
  le r hr := by
    obtain ⟨a, ha, rfl⟩ := List.mem_map.1 hr
    rw [hf]
    exact h.le a ha

theorem snoc (h : Ascending id last rows) {r : α} (hr : id r = last + 1) :
    Ascending id (last + 1) (rows ++ [r]) where
  lt := List.pairwise_append.2 ⟨h.lt, List.pairwise_singleton _ _, fun a ha b hb => by
    rw [List.mem_singleton.1 hb, hr]
    exact Nat.lt_succ_of_le (h.le a ha)⟩
  le a ha := by
    obtain ha | ha := List.mem_append.1 ha
    · exact Nat.le_succ_of_le (h.le a ha)
    · rw [List.mem_singleton.1 ha, hr]

theorem append (h : Ascending id last rows) {more : List α} {next : Nat}
    (hm : Ascending id next more) (hfresh : ∀ r ∈ more, last < id r) (hle : last ≤ next) :
    Ascending id next (rows ++ more) where
  lt := List.pairwise_append.2 ⟨h.lt, hm.lt, fun a ha b hb =>
    Nat.lt_of_le_of_lt (h.le a ha) (hfresh b hb)⟩
  le r hr := by
    obtain hr | hr := List.mem_append.1 hr
    · exact Nat.le_trans (h.le r hr) hle
    · exact hm.le r hr

end Ascending

namespace Entries

theorem mem_numbered {last : Nat} {rows : List EntryRow} {x : EntryRow}
    (h : x ∈ numbered last rows) : last < x.id ∧ ∃ r ∈ rows, x = { r with id := x.id } := by
  induction rows generalizing last with
  | nil => simp [numbered] at h
  | cons r rest ih =>
    obtain rfl | h := List.mem_cons.1 h
    · exact ⟨Nat.lt_succ_self last, r, List.mem_cons_self, rfl⟩
    · obtain ⟨hlt, y, hy, he⟩ := ih h
      exact ⟨by omega, y, List.mem_cons_of_mem r hy, he⟩

theorem mem_bump {user device : String} {es : List EntryRow} {x : EntryRow}
    (h : x ∈ bump user device es) : ∃ y ∈ es, y.id = x.id ∧
      (if y.isFor user device then { y with readCount := y.readCount + 1 } else y) = x := by
  obtain ⟨y, hy, rfl⟩ := List.mem_map.1 h
  refine ⟨y, hy, ?_, rfl⟩
  split <;> rfl

theorem mem_bump_cases {user device : String} {es : List EntryRow} {x : EntryRow}
    (h : x ∈ bump user device es) :
    (∃ y ∈ es, y.isFor user device ∧ x = { y with readCount := y.readCount + 1 }) ∨
      (x ∈ es ∧ ¬x.isFor user device) := by
  obtain ⟨y, hy, -, rfl⟩ := mem_bump h
  by_cases hfor : y.isFor user device
  · rw [if_pos hfor]
    exact .inl ⟨y, hy, hfor, rfl⟩
  · rw [if_neg hfor]
    exact .inr ⟨hy, hfor⟩

theorem ascending_numbered (last : Nat) (rows : List EntryRow) :
    Ascending EntryRow.id (last + rows.length) (numbered last rows) := by
  induction rows generalizing last with
  | nil => exact .nil
  | cons r rest ih =>
    have hrest := ih (last + 1)
    refine ⟨List.pairwise_cons.2 ⟨fun x hx => (mem_numbered hx).1, hrest.lt⟩, fun x hx => ?_⟩
    obtain rfl | hx := List.mem_cons.1 hx
    · simp
    · have := hrest.le x hx
      rw [List.length_cons]
      omega

end Entries

theorem EntryRow.isFor_iff {r : EntryRow} {user device : String} :
    r.isFor user device = true ↔ r.user = user ∧ r.device = device := by
  simp [isFor]

theorem EntryRow.isFor_unique {r : EntryRow} {user device u d : String}
    (h : r.isFor user device) (h' : r.isFor u d) : user = u ∧ device = d := by
  obtain ⟨rfl, rfl⟩ := isFor_iff.1 h
  exact isFor_iff.1 h'

theorem DeletionRow.isFor_iff {r : DeletionRow} {user device : String} :
    r.isFor user device = true ↔ r.user = user ∧ r.destination = device := by
  simp [isFor]

theorem DumpRow.isBy_iff {r : DumpRow} {user device : String} :
    r.isBy user device = true ↔ r.user = user ∧ r.requester = device := by
  simp [isBy]

namespace Change

theorem ascending_entries (c : Change) {s : Store}
    (h : Ascending EntryRow.id s.lastEntry s.entries) :
    Ascending EntryRow.id (c.apply s).lastEntry (c.apply s).entries := by
  cases c with
  | addEntries rows =>
    exact h.append (Entries.ascending_numbered _ rows) (fun r hr => (Entries.mem_numbered hr).1)
      (Nat.le_add_right _ _)
  | bumpEntries user device => exact h.map fun r => by split <;> rfl
  | dropEntries which => exact h.filter _
  | _ => exact h

theorem ascending_dumps (c : Change) {s : Store}
    (h : Ascending DumpRow.id s.lastDump s.dumpRequests) :
    Ascending DumpRow.id (c.apply s).lastDump (c.apply s).dumpRequests := by
  cases c with
  | addDump row => exact h.snoc rfl
  | bumpDumps user device => exact h.map fun r => by split <;> rfl
  | dropDumps which => exact h.filter _
  | _ => exact h

theorem ascending_tombstones (c : Change) {s : Store}
    (h : Ascending DeletionRow.id s.lastDeletion s.deletionRequests) :
    Ascending DeletionRow.id (c.apply s).lastDeletion (c.apply s).deletionRequests := by
  cases c with
  | addTombstone row => exact h.snoc rfl
  | bumpTombstones user device => exact h.map fun r => by split <;> rfl
  | dropTombstones which => exact h.filter _
  | _ => exact h

end Change

namespace Relay

theorem ascending_entries_run (turns : List Turn) :
    Ascending EntryRow.id (run {} turns).store.lastEntry (run {} turns).store.entries :=
  run_keeps (P := fun s => Ascending EntryRow.id s.lastEntry s.entries) turns .nil
    fun _ _ c _ _ h => c.ascending_entries h

theorem ascending_dumps_run (turns : List Turn) :
    Ascending DumpRow.id (run {} turns).store.lastDump (run {} turns).store.dumpRequests :=
  run_keeps (P := fun s => Ascending DumpRow.id s.lastDump s.dumpRequests) turns .nil
    fun _ _ c _ _ h => c.ascending_dumps h

theorem ascending_tombstones_run (turns : List Turn) :
    Ascending DeletionRow.id (run {} turns).store.lastDeletion
      (run {} turns).store.deletionRequests :=
  run_keeps (P := fun s => Ascending DeletionRow.id s.lastDeletion s.deletionRequests) turns .nil
    fun _ _ c _ _ h => c.ascending_tombstones h

end Relay

end HistoryRelay
