import HistoryRelay.Proofs.Redelivery
import HistoryRelay.Proofs.Undertaking

/-! Tables whose rows are numbered and count reads. Main statement: where every turn only ages such
a table, each row in it is one that some turn has stored under its number, with the reads that have
been counted since and nothing else changed. -/
namespace HistoryRelay

class Ledger (α : Type) where
  id : α → Nat
  reads : α → Nat
  recount : Nat → α → α
  rows : Store → List α
  /-- The number that was given last. -/
  last : Store → Nat
  id_recount : ∀ n x, id (recount n x) = id x
  reads_recount : ∀ n x, reads (recount n x) = n
  recount_recount : ∀ m n x, recount m (recount n x) = recount m x
  recount_reads : ∀ x, recount (reads x) x = x
  rows_empty : rows {} = []
  rows_besides : ∀ s, rows s.besidesUsage = rows s
  last_besides : ∀ s, last s.besidesUsage = last s
  ascending : ∀ turns,
    Ascending id (last (Relay.run {} turns).store) (rows (Relay.run {} turns).store)
  /-- Whether a change adds rows to the table or counts reads in it. -/
  furthers : Change → Bool
  /-- The rows that another change takes out of the table. -/
  drops : Change → α → Bool
  rows_of_not_furthers : ∀ c s, furthers c = false →
    rows (c.apply s) = (rows s).filter (!drops c ·) ∧ last (c.apply s) = last s

namespace Ledger
variable {α : Type} [Ledger α] {gone counted : α → Bool} {fresh xs : List α} {s t : Store}

/-- The rows that do not go, each with one read more if it counts one. -/
def aged (gone counted : α → Bool) (xs : List α) : List α :=
  (xs.filter (!gone ·)).map fun x => if counted x then recount (reads x + 1) x else x

theorem mem_aged {y : α} : y ∈ aged gone counted xs ↔
    ∃ x ∈ xs, gone x = false ∧ (if counted x then recount (reads x + 1) x else x) = y := by
  simp [aged, and_assoc]

theorem aged_uncounted : aged gone (fun _ => false) xs = xs.filter (!gone ·) := by
  simp [aged]

/-- Rows that go, reads that are counted, and rows that come in unread under new numbers lead from
one store to the next. -/
structure Ages (gone counted : α → Bool) (fresh : List α) (s t : Store) : Prop where
  rows_eq : rows t = aged gone counted (rows s) ++ fresh
  last_eq : last α t = last α s + fresh.length
  unread : ∀ x ∈ fresh, reads x = 0
  new : ∀ x ∈ fresh, last α s < id x

namespace Ages

theorem of_filter (h : rows t = (rows s).filter (!gone ·)) (hl : last α t = last α s) :
    Ages gone (fun _ => false) [] s t :=
  ⟨by rw [h, aged_uncounted, List.append_nil], hl, by simp, by simp⟩

theorem of_append (h : rows t = rows s ++ fresh) (hl : last α t = last α s + fresh.length)
    (hu : ∀ x ∈ fresh, reads x = 0) (hn : ∀ x ∈ fresh, last α s < id x) :
    Ages (fun _ => false) (fun _ => false) fresh s t :=
  ⟨by simp [h, aged], hl, hu, hn⟩

theorem refl (s : Store) : Ages (α := α) (fun _ => false) (fun _ => false) [] s s :=
  of_filter (by simp) rfl

theorem congr {u : Store} (h : Ages gone counted fresh s t) (hu : (rows u : List α) = rows t)
    (hl : last α u = last α t) : Ages gone counted fresh s u :=
  ⟨hu.trans h.rows_eq, hl.trans h.last_eq, h.unread, h.new⟩

theorem besides {u : Store} (hu : u.besidesUsage = t.besidesUsage)
    (h : Ages gone counted fresh s t) : Ages gone counted fresh s u := by
  refine h.congr ?_ ?_
  · rw [← rows_besides u, hu, rows_besides]
  · rw [← last_besides u, hu, last_besides]

theorem count {u : Store} (h : Ages gone (fun _ => false) [] s t)
    (hu : rows u = (rows t).map fun x => if counted x then recount (reads x + 1) x else x)
    (hl : last α u = last α t) : Ages gone counted [] s u :=
  ⟨by rw [hu, h.rows_eq, aged_uncounted, List.append_nil, List.append_nil, aged],
    hl.trans h.last_eq, by simp, by simp⟩

theorem gone_of_missing (h : Ages gone counted fresh s t) {x : α} (hx : x ∈ rows s)
    (hno : ∀ y ∈ (rows t : List α), id y ≠ id x) : gone x = true := by
  by_contra hstays
  have hin : (if counted x then recount (reads x + 1) x else x) ∈ rows t := by
    rw [h.rows_eq]
    exact List.mem_append_left _ (mem_aged.2 ⟨x, hx, by simpa using hstays, rfl⟩)
  refine hno _ hin ?_
  split
  · exact id_recount _ _
  · rfl

end Ages

theorem ages_of_leads {may : Change → Prop} (h : Leads may s t)
    (hm : ∀ c, may c → furthers α c = false) :
    ∃ gone : α → Bool, (∀ x, gone x = true → ∃ c, may c ∧ drops c x = true) ∧
      Ages gone (fun _ => false) [] s t := by
  induction h with
  | refl => exact ⟨fun _ => false, by simp, .refl _⟩
  | tail _ hstep ih =>
    obtain ⟨c, hc, rfl⟩ := hstep
    obtain ⟨gone, hgone, hages⟩ := ih
    obtain ⟨hrows, hlast⟩ := rows_of_not_furthers c _ (hm c hc)
    refine ⟨fun x => gone x || drops c x, fun x hx => ?_, .of_filter ?_ ?_⟩
    · obtain hx | hx := Bool.or_eq_true_iff.1 hx
      · exact hgone x hx
      · exact ⟨c, hc, hx⟩
    · rw [hrows, hages.rows_eq, aged_uncounted, List.append_nil, List.filter_filter]
      simp [Bool.and_comm]
    · exact hlast.trans hages.last_eq

/-- How turns treat the rows of a table: which of them count a read, how new ones are made, and how
rows come to go. -/
structure Custom (α : Type) where
  counts : α → Turn → Relay → Bool
  made : α → Turn → Relay → Prop
  removed : α → Turn → Relay → Prop

namespace Custom
variable {c : Custom α} {t : Turn} {r : Relay}

def Follows (c : Custom α) (t : Turn) (r : Relay) : Prop :=
  ∃ gone fresh, Ages gone (fun x => c.counts x t r) fresh r.store (t.take r).2.store ∧
    (∀ x, gone x = true → c.removed x t r) ∧ ∀ x ∈ fresh, c.made x t r

theorem follows_of_ages (hc : (fun x => c.counts x t r) = counted)
    (h : Ages gone counted fresh r.store (t.take r).2.store)
    (hg : ∀ x, gone x = true → c.removed x t r) (hf : ∀ x ∈ fresh, c.made x t r) :
    c.Follows t r :=
  ⟨gone, fresh, hc ▸ h, hg, hf⟩

theorem follows_of_counted (hc : (fun x => c.counts x t r) = counted)
    (h : Ages (fun _ => false) counted [] r.store (t.take r).2.store) : c.Follows t r :=
  follows_of_ages hc h (fun _ hx => nomatch hx) fun _ hx => nomatch hx

theorem follows_of_same (hc : (fun x => c.counts x t r) = fun _ => false)
    (h : (t.take r).2.store = r.store) : c.Follows t r :=
  follows_of_counted hc (h ▸ .refl _)

theorem follows_of_drops (hc : (fun x => c.counts x t r) = fun _ => false)
    (hm : ∀ c, t.may c → furthers α c = false)
    (hd : ∀ ch x, t.may ch → drops ch x = true → c.removed x t r) : c.Follows t r := by
  obtain ⟨gone, hgone, hages⟩ := ages_of_leads (t.leads r) hm
  refine follows_of_ages hc hages (fun x hx => ?_) fun _ hx => nomatch hx
  obtain ⟨ch, hch, hdrop⟩ := hgone x hx
  exact hd ch x hch hdrop

theorem Follows.removed_of_missing (h : c.Follows t r) {x : α} (hx : x ∈ rows r.store)
    (hno : ∀ y ∈ (rows (t.take r).2.store : List α), id y ≠ id x) : c.removed x t r := by
  obtain ⟨gone, fresh, hages, hgone, -⟩ := h
  exact hgone x (hages.gone_of_missing hx hno)

theorem Follows.rows_eq (h : c.Follows t r) (hm : ∀ x, ¬c.made x t r)
    (hr : ∀ x, ¬c.removed x t r) : (rows (t.take r).2.store : List α) =
      (rows r.store).map fun x => if c.counts x t r then recount (reads x + 1) x else x := by
  obtain ⟨gone, fresh, hages, hgone, hmade⟩ := h
  have hstay (x : α) : gone x = false := by simpa using fun hx => hr x (hgone x hx)
  have hnone : fresh = [] := List.eq_nil_iff_forall_not_mem.2 fun x hx => hm x (hmade x hx)
  rw [hages.rows_eq, hnone, List.append_nil, aged]
  simp [hstay]

end Custom

section Runs
open Relay

/-- A row of a run's table was made by one of its turns, under a number that was new then, has been
there since and has counted its reads. -/
theorem history {c : Custom α} (h : ∀ t r, c.Follows t r)
    (hcounts : ∀ n x, c.counts (recount n x) = c.counts x) (turns : List Turn) {y : α}
    (hy : y ∈ rows (run {} turns).store) :
    ∃ before t after, ∃ x : α, turns = before ++ t :: after ∧ c.made x t (run {} before) ∧
      reads x = 0 ∧
      (∀ z ∈ (rows (run {} before).store : List α), id z ≠ id x) ∧
      (∀ early, early <+: after → recount (tally (c.counts x) (run {} (before ++ [t])) early) x ∈
        rows (run {} (before ++ t :: early)).store) ∧
      y = recount (tally (c.counts x) (run {} (before ++ [t])) after) x := by
  induction turns using List.reverseRecOn generalizing y with
  | nil =>
    rw [show (run {} []).store = ({} : Store) from rfl, rows_empty] at hy
    cases hy
  | append_singleton turns t ih =>
    obtain ⟨gone, fresh, hages, -, hmade⟩ := h t (run {} turns)
    have hlast : (run {} (turns ++ [t])).store = (t.take (run {} turns)).2.store := by
      rw [run_append]
      rfl
    have hin := hy
    rw [hlast, hages.rows_eq] at hin
    obtain hin | hin := List.mem_append.1 hin
    · obtain ⟨z, hz, -, he⟩ := mem_aged.1 hin
      obtain ⟨before, u, after, x, rfl, hx, hread, hnew, hthere, rfl⟩ := ih hz
      have hcount : y = recount (tally (c.counts x) (run {} (before ++ [u])) (after ++ [t])) x := by
        rw [← he, tally_append, ← run_append, List.append_assoc, List.singleton_append]
        simp only [tally, hcounts, reads_recount, recount_recount, Nat.add_zero]
        split
        · rfl
        · rfl
      have hturns : before ++ u :: after ++ [t] = before ++ u :: (after ++ [t]) := by simp
      refine ⟨before, u, after ++ [t], x, hturns, hx, hread, hnew, fun early hearly => ?_, hcount⟩
      obtain rfl | hearly := List.prefix_concat_iff.1 hearly
      · rwa [← hcount, ← hturns]
      · exact hthere early hearly
    · have hcount : y = recount (tally (c.counts y) (run {} (turns ++ [t])) []) y := by
        rw [tally, ← hages.unread y hin, recount_reads]
      refine ⟨turns, t, [], y, rfl, hmade y hin, hages.unread y hin, fun z hz he => ?_,
        fun early hearly => ?_, hcount⟩
      · have hle := (ascending turns).le z hz
        have hlt := hages.new y hin
        omega
      · obtain rfl := List.prefix_nil.1 hearly
        rwa [← hcount]

/-- Rows of the later store are rows of the earlier one with as many reads or more, or new. -/
def Keeps (α : Type) [Ledger α] (s t : Store) : Prop :=
  last α s ≤ last α t ∧ ∀ y ∈ rows (α := α) t, last α s < id y ∨
    ∃ x ∈ rows s, reads x ≤ reads y ∧ y = recount (reads y) x

instance : IsPreorder Store (Keeps α) where
  refl s := ⟨Nat.le_refl _, fun y hy => .inr ⟨y, hy, Nat.le_refl _, (recount_reads y).symm⟩⟩
  trans s t u hst htu := by
    refine ⟨Nat.le_trans hst.1 htu.1, fun z hz => ?_⟩
    obtain hnew | ⟨y, hy, hle, hzy⟩ := htu.2 z hz
    · exact .inl (Nat.lt_of_le_of_lt hst.1 hnew)
    · obtain hnew | ⟨x, hx, hle', hyx⟩ := hst.2 y hy
      · rw [hzy, id_recount]
        exact .inl hnew
      · refine .inr ⟨x, hx, Nat.le_trans hle' hle, ?_⟩
        rw [hyx, recount_recount] at hzy
        exact hzy

theorem Ages.mem_cases (h : Ages gone counted fresh s t) {y : α} (hy : y ∈ rows t) :
    y ∈ fresh ∨ ∃ x ∈ rows s, reads x ≤ reads y ∧ y = recount (reads y) x := by
  rw [h.rows_eq] at hy
  obtain hy | hy := List.mem_append.1 hy
  · obtain ⟨x, hx, -, rfl⟩ := mem_aged.1 hy
    refine .inr ⟨x, hx, ?_⟩
    split
    · exact ⟨by rw [reads_recount]; exact Nat.le_succ _, by rw [reads_recount]⟩
    · exact ⟨Nat.le_refl _, (recount_reads x).symm⟩
  · exact .inl hy

theorem Ages.keeps (h : Ages gone counted fresh s t) : Keeps α s t := by
  refine ⟨by rw [h.last_eq]; exact Nat.le_add_right _ _, fun y hy => ?_⟩
  obtain hy | hy := h.mem_cases hy
  · exact .inl (h.new y hy)
  · exact .inr hy

theorem Custom.Follows.keeps {c : Custom α} {t : Turn} {r : Relay} (h : c.Follows t r) :
    Keeps α r.store (t.take r).2.store := by
  obtain ⟨gone, fresh, hages, -⟩ := h
  exact hages.keeps

theorem keeps_run (h : ∀ (t : Turn) (r : Relay), Keeps α r.store (t.take r).2.store)
    (r : Relay) (turns : List Turn) : Keeps α r.store (r.run turns).store := by
  induction turns generalizing r with
  | nil => exact refl_of (Keeps α) _
  | cons t rest ih => exact trans_of (Keeps α) (h t r) (ih (t.take r).2)

/-- Whatever a number names later in a run is the row that it names now, and has not lost reads. -/
theorem unchanged (h : ∀ (t : Turn) (r : Relay), Keeps α r.store (t.take r).2.store)
    (before after : List Turn) {x y : α} (hx : x ∈ rows (run {} before).store)
    (hy : y ∈ rows (run {} (before ++ after)).store) (hid : id y = id x) :
    reads x ≤ reads y ∧ y = recount (reads y) x := by
  rw [run_append] at hy
  obtain hnew | ⟨z, hz, hle, he⟩ := (keeps_run h (run {} before) after).2 y hy
  · have := (ascending before).le x hx
    omega
  · have hzx : id z = id x := by rw [← hid, he, id_recount]
    obtain rfl := (ascending before).unique hz hx hzx
    exact ⟨hle, he⟩

end Runs

end Ledger

end HistoryRelay
