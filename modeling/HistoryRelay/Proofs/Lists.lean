import Mathlib.Data.List.Forall2
import Mathlib.Data.List.Sort

/-! General facts about lists: read item by item, related to one another, updated, without doubles,
sorted, joined and cut. -/
namespace HistoryRelay

section Reading
variable {ε α β : Type} {f : α → Except ε β} {as : List α}

theorem bind_eq_error {x : Except ε α} {e : ε} :
    x >>= f = .error e ↔ x = .error e ∨ ∃ a, x = .ok a ∧ f a = .error e := by
  cases x <;> simp [bind, Except.bind]

theorem error_of_mapM {e : ε} (h : as.mapM f = .error e) : ∃ a ∈ as, f a = .error e := by
  induction as with
  | nil => simp [pure, Except.pure] at h
  | cons a rest ih =>
    rw [List.mapM_cons, bind_eq_error] at h
    obtain h | ⟨b, -, h⟩ := h
    · exact ⟨a, List.mem_cons_self, h⟩
    · obtain h | ⟨bs, -, h⟩ := bind_eq_error.1 h
      · obtain ⟨a', ha', he⟩ := ih h
        exact ⟨a', List.mem_cons_of_mem a ha', he⟩
      · simp [pure, Except.pure] at h

theorem mapM_eq_ok {bs : List β} :
    as.mapM f = .ok bs ↔ List.Forall₂ (fun a b => f a = .ok b) as bs := by
  induction as generalizing bs with
  | nil => cases bs <;> simp [pure, Except.pure]
  | cons a rest ih =>
    rw [List.mapM_cons]
    cases hf : f a with
    | error e => cases bs <;> simp [hf, bind, Except.bind]
    | ok b =>
      cases hr : rest.mapM f with
      | error e => cases bs <;> simp [hf, hr, bind, Except.bind, ← ih]
      | ok cs => cases bs <;> simp [hf, hr, bind, Except.bind, pure, Except.pure, ← ih]

end Reading

section Related
variable {α β : Type} {R : α → β → Prop} {as : List α} {bs : List β}

theorem exists_left_of_forall₂ (h : List.Forall₂ R as bs) {b : β} (hb : b ∈ bs) :
    ∃ a ∈ as, R a b := by
  induction h with
  | nil => simp at hb
  | cons hr _ ih =>
    obtain rfl | hb := List.mem_cons.1 hb
    · exact ⟨_, List.mem_cons_self, hr⟩
    · obtain ⟨a, ha, hab⟩ := ih hb
      exact ⟨a, List.mem_cons_of_mem _ ha, hab⟩

theorem exists_right_of_forall₂ (h : List.Forall₂ R as bs) {a : α} (ha : a ∈ as) :
    ∃ b ∈ bs, R a b :=
  exists_left_of_forall₂ h.flip ha

end Related

/-- Whoever removes what a condition holds of, and counts so that nothing is missing, counts each
of them once. -/
theorem eq_countP_of_left {α : Type} {p : α → Bool} {as : List α} {n : Nat}
    (h : n + (as.filter fun a => !p a).length = as.length) : n = as.countP p := by
  have hsplit := List.length_eq_countP_add_countP p (l := as)
  simp only [List.countP_eq_length_filter, Bool.not_eq_true, Bool.decide_eq_false] at hsplit ⊢
  omega

theorem mem_upsert {α : Type} {p : α → Bool} {f : α → α} {as : List α} {a b : α} :
    a ∈ (if as.any p then as.map fun x => if p x then f x else x else as ++ [b]) ↔
      (∃ x ∈ as, a = if p x then f x else x) ∨ (∀ x ∈ as, p x = false) ∧ a = b := by
  split
  · rename_i hknown
    have hold : ¬∀ x ∈ as, p x = false := by simpa using hknown
    simp only [List.mem_map, hold, false_and, or_false, eq_comm (a := a)]
  · rename_i hnew
    have hfresh : ∀ x ∈ as, p x = false := by simpa using hnew
    have hsame : ∀ x ∈ as, (if p x then f x else x) = x := fun x hx =>
      if_neg (by simp [hfresh x hx])
    rw [List.mem_append, List.mem_singleton, and_iff_right hfresh]
    refine or_congr_left ⟨fun ha => ⟨a, ha, (hsame a ha).symm⟩, ?_⟩
    rintro ⟨x, hx, rfl⟩
    rwa [hsame x hx]

theorem nodup_eraseDups {α : Type} [BEq α] [LawfulBEq α] : (as : List α) → as.eraseDups.Nodup
  | [] => List.nodup_nil
  | a :: rest => by
    rw [List.eraseDups_cons, List.nodup_cons]
    exact ⟨by simp, nodup_eraseDups _⟩
termination_by as => as.length
decreasing_by exact Nat.lt_succ_of_le (List.length_filter_le _ _)

theorem mergeSort_eq_of_perm {α : Type} {r : α → α → Prop} [DecidableRel r] [Std.Total r]
    [IsTrans α r] [Std.Antisymm r] {as bs : List α} (h : as.Perm bs) :
    as.mergeSort (r · ·) = bs.mergeSort (r · ·) :=
  have hperm := (List.mergeSort_perm as _).trans (h.trans (List.mergeSort_perm bs _).symm)
  hperm.eq_of_pairwise' (List.pairwise_mergeSort' r as) (List.pairwise_mergeSort' r bs)

section Split
variable {α : Type} [BEq α] [LawfulBEq α] {x : α}

theorem splitOn_intercalate_eq_flatMap {ls : List (List α)} (h : ls ≠ []) :
    ([x].intercalate ls).splitOn x = ls.flatMap (List.splitOn x) := by
  induction ls with
  | nil => exact absurd rfl h
  | cons l rest ih =>
    cases rest with
    | nil => simp
    | cons l' rest =>
      have hrest := ih (List.cons_ne_nil l' rest)
      rw [List.intercalate_cons_cons, List.append_assoc, List.singleton_append,
        List.splitOn_append_cons_self, hrest]
      rfl

theorem not_mem_of_mem_splitOn {xs piece : List α} (h : piece ∈ xs.splitOn x) : x ∉ piece := by
  induction xs generalizing piece with
  | nil =>
    obtain rfl : piece = [] := by simpa using h
    exact List.not_mem_nil
  | cons y ys ih =>
    obtain ⟨first, rest, hcut⟩ : ∃ first rest, ys.splitOn x = first :: rest :=
      List.exists_cons_of_ne_nil (List.splitOnP_ne_nil (· == x) ys)
    rw [hcut] at ih
    by_cases hy : y = x
    · have hhere : (y :: ys).splitOn x = [] :: first :: rest := by
        rw [hy, ← hcut]
        exact List.splitOn_append_cons_self [] ys
      rw [hhere] at h
      obtain rfl | hrest := List.mem_cons.1 h
      · exact List.not_mem_nil
      · exact ih hrest
    · -- the first piece goes on with the new element, the others are as they were
      have hlater : (y :: ys).splitOn x = (y :: first) :: rest := by
        rw [List.splitOn, List.splitOnP_cons_eq_if_modifyHead, if_neg (by simpa using hy),
          ← List.splitOn, hcut, List.modifyHead_cons]
      rw [hlater] at h
      obtain rfl | hrest := List.mem_cons.1 h
      · have hfirst : x ∉ first := ih List.mem_cons_self
        exact fun hx => (List.mem_cons.1 hx).elim (hy ·.symm) hfirst
      · exact ih (List.mem_cons_of_mem first hrest)

end Split

end HistoryRelay
