import HistoryRelay.Step
import Mathlib

/-! Steps taken apart. A sequence answers exactly if its parts do, one after the other. Whatever
preorder every part of a step moves along, the whole step moves along, whatever comes of it. -/
namespace HistoryRelay.Step
variable {σ τ α β : Type}

section Answers

theorem bind_eq_answer {a : Step σ α} {next : α → Step σ β} {s s' : σ} {v : β} :
    (a >>= next) s = (.answer v, s') ↔
      ∃ u t, a s = (.answer u, t) ∧ next u t = (.answer v, s') := by
  constructor
  · intro h
    rw [bind_apply] at h
    cases ha : a s with
    | mk o t =>
      rw [ha] at h
      cases o with
      | answer u => exact ⟨u, t, rfl, h⟩
      | failure e => simp at h
      | crash => simp at h
  · rintro ⟨u, t, ha, hn⟩
    rw [bind_answer ha, hn]

theorem map_eq (f : α → β) (a : Step σ α) : f <$> a = a >>= fun v => pure (f v) :=
  map_eq_pure_bind f a

theorem pure_eq_answer {u v : α} {s s' : σ} :
    (pure u : Step σ α) s = (.answer v, s') ↔ u = v ∧ s = s' := by
  simp [pure_apply]

theorem fail_ne_answer {e : RelayError} {v : α} {s s' : σ} :
    (fail e : Step σ α) s ≠ (.answer v, s') := by
  simp [fail]

theorem get_eq_answer {v s s' : σ} : get s = (.answer v, s') ↔ v = s ∧ s' = s := by
  constructor
  · intro h
    injection h with h₁ h₂
    injection h₁ with h₁
    exact ⟨h₁.symm, h₂.symm⟩
  · rintro ⟨rfl, rfl⟩
    rfl

theorem update_eq_answer {f : σ → σ} {v : Unit} {s s' : σ} :
    update f s = (.answer v, s') ↔ s' = f s := by
  simp [update, eq_comm]

theorem ofOption_eq_answer {e : RelayError} {o : Option α} {v : α} {s s' : σ} :
    ofOption e o s = (.answer v, s') ↔ o = some v ∧ s' = s := by
  cases o with
  | none => simp [ofOption, fail]
  | some u => simp [ofOption, pure_apply, eq_comm]

theorem ofExcept_eq_answer {x : Except RelayError α} {v : α} {s s' : σ} :
    ofExcept x s = (.answer v, s') ↔ x = .ok v ∧ s' = s := by
  cases x with
  | error e => simp [ofExcept, fail]
  | ok u => simp [ofExcept, pure_apply, eq_comm]

theorem bind_eq_failure {a : Step σ α} {next : α → Step σ β} {s s' : σ} {e : RelayError} :
    (a >>= next) s = (.failure e, s') ↔ a s = (.failure e, s') ∨
      ∃ u t, a s = (.answer u, t) ∧ next u t = (.failure e, s') := by
  rw [bind_apply]
  cases a s with
  | mk o t => cases o <;> simp

theorem bind_eq_crash {a : Step σ α} {next : α → Step σ β} {s s' : σ} :
    (a >>= next) s = (.crash, s') ↔ a s = (.crash, s') ∨
      ∃ u t, a s = (.answer u, t) ∧ next u t = (.crash, s') := by
  rw [bind_apply]
  cases a s with
  | mk o t => cases o <;> simp

theorem map_eq_failure {f : α → β} {a : Step σ α} {s s' : σ} {e : RelayError} :
    (f <$> a) s = (.failure e, s') ↔ a s = (.failure e, s') := by
  rw [map_eq, bind_eq_failure]
  simp [pure_apply]

theorem map_eq_answer {f : α → β} {a : Step σ α} {s s' : σ} {v : β} :
    (f <$> a) s = (.answer v, s') ↔ ∃ u, a s = (.answer u, s') ∧ f u = v := by
  rw [map_eq, bind_eq_answer]
  simp [pure_apply]

theorem map_fst_eq_answer {f : α → β} (hf : Function.Injective f) {a : Step σ α} {s : σ} {v : α} :
    ((f <$> a) s).1 = .answer (f v) ↔ (a s).1 = .answer v := by
  rw [map_eq, bind_apply]
  cases a s with
  | mk o t => cases o <;> simp [pure_apply, hf.eq_iff]

theorem map_fst_eq_failure {f : α → β} {a : Step σ α} {s : σ} {e : RelayError} :
    ((f <$> a) s).1 = .failure e ↔ (a s).1 = .failure e := by
  rw [map_eq, bind_apply]
  cases a s with
  | mk o t => cases o <;> simp [pure_apply]

theorem transaction_eq_answer {a : Step σ α} {s s' : σ} {v : α} :
    transaction a s = (.answer v, s') ↔ a s = (.answer v, s') := by
  unfold transaction
  cases a s with
  | mk o t => cases o <;> simp

theorem transaction_of_not_answer {a : Step σ α} {s : σ}
    (h : ∀ v, (transaction a s).1 ≠ .answer v) : (transaction a s).2 = s := by
  obtain he | ⟨v, he⟩ := transaction_state a s
  · exact he
  · exact absurd (congrArg Prod.fst he) (h v)

end Answers

/-- The step takes every state to one that `R` relates it to, whatever the outcome. -/
def Moves (R : σ → σ → Prop) (a : Step σ α) : Prop := ∀ s, R s (a s).2

namespace Moves
variable {R : σ → σ → Prop} [IsPreorder σ R]

theorem pure (v : α) : Moves R (Pure.pure v : Step σ α) := fun s => refl_of R s

theorem fail (e : RelayError) : Moves R (Step.fail e : Step σ α) := fun s => refl_of R s

theorem crash : Moves R (Step.crash : Step σ α) := fun s => refl_of R s

theorem get : Moves R (Step.get : Step σ σ) := fun s => refl_of R s

/-- What follows a step has to move along `R` for what the step can answer only. -/
theorem bind_of_answer {a : Step σ α} {next : α → Step σ β} (ha : Moves R a)
    (hn : ∀ s v t, a s = (.answer v, t) → Moves R (next v)) : Moves R (a >>= next) := by
  intro s
  have h := ha s
  cases hs : a s with
  | mk o t =>
    rw [hs] at h
    cases o with
    | answer v =>
      rw [bind_answer hs]
      exact trans_of R h (hn s v t hs t)
    | failure e => rwa [bind_failure hs]
    | crash => rwa [bind_crash hs]

theorem bind {a : Step σ α} {next : α → Step σ β} (ha : Moves R a)
    (hn : ∀ v, Moves R (next v)) : Moves R (a >>= next) :=
  ha.bind_of_answer fun _ v _ _ => hn v

theorem map {a : Step σ α} (f : α → β) (ha : Moves R a) : Moves R (f <$> a) := by
  rw [map_eq]
  exact bind ha fun v => pure (f v)

theorem ofExcept (x : Except RelayError α) : Moves R (Step.ofExcept x : Step σ α) := by
  cases x with
  | error e => exact fail e
  | ok v => exact pure v

theorem ofOption (e : RelayError) (o : Option α) : Moves R (Step.ofOption e o : Step σ α) := by
  cases o with
  | none => exact fail e
  | some v => exact pure v

omit [IsPreorder σ R] in
theorem ite {c : Prop} [Decidable c] {a b : Step σ α} (ha : Moves R a) (hb : Moves R b) :
    Moves R (if c then a else b) := by
  split
  · exact ha
  · exact hb

theorem rescue {a : Step σ α} {after : RelayError → Step σ α} (ha : Moves R a)
    (hn : ∀ e, Moves R (after e)) : Moves R (rescue a after) := by
  intro s
  have h := ha s
  unfold Step.rescue
  cases hs : a s with
  | mk o t =>
    rw [hs] at h
    cases o with
    | answer v => exact h
    | failure e => exact trans_of R h (hn e t)
    | crash => exact h

theorem transaction {a : Step σ α} (ha : Moves R a) : Moves R (transaction a) := by
  intro s
  obtain h | ⟨v, h⟩ := transaction_state a s
  · rw [h]
    exact refl_of R s
  · rw [h]
    exact ha s

theorem rest {a : Step σ α} {next : α → Step σ β} (hn : ∀ v, Moves R (next v)) (s : σ) :
    R (a s).2 ((a >>= next) s).2 := by
  rw [bind_apply]
  cases a s with
  | mk o t =>
    cases o with
    | answer v => exact hn v t
    | failure e => exact refl_of R t
    | crash => exact refl_of R t

end Moves

/-- The step crashes in no state. -/
def Calm (a : Step σ α) : Prop := ∀ s, (a s).1 ≠ .crash

namespace Calm

theorem pure (v : α) : Calm (Pure.pure v : Step σ α) := fun s => by simp [pure_apply]

theorem fail (e : RelayError) : Calm (Step.fail e : Step σ α) := fun s => by simp [Step.fail]

theorem get : Calm (Step.get : Step σ σ) := fun s => by simp [Step.get]

theorem update (f : σ → σ) : Calm (Step.update f) := fun s => by simp [Step.update]

theorem bind_of_answer {a : Step σ α} {next : α → Step σ β} (ha : Calm a)
    (hn : ∀ s v t, a s = (.answer v, t) → Calm (next v)) : Calm (a >>= next) := by
  intro s
  have h := ha s
  cases hs : a s with
  | mk o t =>
    rw [hs] at h
    cases o with
    | answer v =>
      rw [bind_answer hs]
      exact hn s v t hs t
    | failure e => simp [bind_failure hs]
    | crash => exact absurd rfl h

theorem map {a : Step σ α} (f : α → β) (ha : Calm a) : Calm (f <$> a) := by
  rw [map_eq]
  exact ha.bind_of_answer fun _ v _ _ => pure (f v)

theorem ofExcept (x : Except RelayError α) : Calm (Step.ofExcept x : Step σ α) := by
  cases x with
  | error e => exact fail e
  | ok v => exact pure v

theorem ofOption (e : RelayError) (o : Option α) : Calm (Step.ofOption e o : Step σ α) := by
  cases o with
  | none => exact fail e
  | some v => exact pure v

theorem rescue {a : Step σ α} {after : RelayError → Step σ α} (ha : Calm a)
    (hn : ∀ e, Calm (after e)) : Calm (rescue a after) := by
  intro s
  have h := ha s
  unfold Step.rescue
  cases hs : a s with
  | mk o t =>
    rw [hs] at h
    cases o with
    | answer v => simp
    | failure e => exact hn e t
    | crash => exact absurd rfl h

theorem transaction {a : Step σ α} (ha : Calm a) : Calm (transaction a) := by
  intro s
  have h := ha s
  unfold Step.transaction
  cases hs : a s with
  | mk o t =>
    rw [hs] at h
    cases o with
    | answer v => simp
    | failure e => simp
    | crash => exact absurd rfl h

end Calm

/-- No failure of the step is of such a kind. -/
def Never (p : ErrorKind → Prop) (a : Step σ α) : Prop :=
  ∀ s e, (a s).1 = .failure e → ¬p e.kind

namespace Never
variable {p : ErrorKind → Prop}

theorem pure (v : α) : Never p (Pure.pure v : Step σ α) := fun s e h => by
  simp [pure_apply] at h

theorem fail {e : RelayError} (he : ¬p e.kind) : Never p (Step.fail e : Step σ α) :=
  fun s e' h => by
    injection h with h
    rwa [← h]

theorem get : Never p (Step.get : Step σ σ) := fun s e h => by simp [Step.get] at h

theorem update (f : σ → σ) : Never p (Step.update f) := fun s e h => by simp [Step.update] at h

theorem bind_of_answer {a : Step σ α} {next : α → Step σ β} (ha : Never p a)
    (hn : ∀ s v t, a s = (.answer v, t) → Never p (next v)) : Never p (a >>= next) := by
  intro s e he
  cases hs : a s with
  | mk o t =>
    cases o with
    | answer v =>
      rw [bind_answer hs] at he
      exact hn s v t hs t e he
    | failure e' =>
      rw [bind_failure hs] at he
      injection he with he
      exact he ▸ ha s e' (by rw [hs])
    | crash => simp [bind_crash hs] at he

theorem bind {a : Step σ α} {next : α → Step σ β} (ha : Never p a)
    (hn : ∀ v, Never p (next v)) : Never p (a >>= next) :=
  ha.bind_of_answer fun _ v _ _ => hn v

theorem map {a : Step σ α} (f : α → β) (ha : Never p a) : Never p (f <$> a) := by
  rw [map_eq]
  exact bind ha fun v => pure (f v)

theorem crash : Never p (Step.crash : Step σ α) := fun s e h => by simp [Step.crash] at h

theorem ite {c : Prop} [Decidable c] {a b : Step σ α} (ha : Never p a) (hb : Never p b) :
    Never p (if c then a else b) := by
  split
  · exact ha
  · exact hb

theorem rescue {a : Step σ α} {after : RelayError → Step σ α} (hn : ∀ e, Never p (after e)) :
    Never p (rescue a after) := by
  intro s e he
  unfold Step.rescue at he
  split at he
  · exact hn _ _ e he
  · rename_i hother
    rcases ha : a s with ⟨o, t⟩
    cases o with
    | failure e' => exact absurd ha (hother e' t)
    | answer v => simp [ha] at he
    | crash => simp [ha] at he

theorem transaction {a : Step σ α} (ha : Never p a) : Never p (transaction a) := by
  intro s e he
  unfold Step.transaction at he
  cases hs : a s with
  | mk o t =>
    rw [hs] at he
    cases o with
    | answer v => simp at he
    | failure e' => exact ha s e (by rw [hs]; exact he)
    | crash => simp at he

theorem ofExcept {x : Except RelayError α} (hx : ∀ e, x = .error e → ¬p e.kind) :
    Never p (Step.ofExcept x : Step σ α) := by
  cases x with
  | error e => exact fail (hx e rfl)
  | ok v => exact pure v

theorem ofOption {e : RelayError} (he : ¬p e.kind) (o : Option α) :
    Never p (Step.ofOption e o : Step σ α) := by
  cases o with
  | none => exact fail he
  | some v => exact pure v

end Never

abbrev Critical (a : Step σ α) : Prop := Never (· = .nonCritical) a

/-- Moves along `R`, crashes in no state and fails for a reason of its own, as everything on the
store alone does. -/
structure Steady (R : σ → σ → Prop) (a : Step σ α) : Prop where
  moves : Moves R a
  calm : Calm a
  critical : Critical a

namespace Steady
variable {R : σ → σ → Prop} [IsPreorder σ R]

theorem pure (v : α) : Steady R (Pure.pure v : Step σ α) := ⟨.pure v, .pure v, .pure v⟩

theorem fail {e : RelayError} (he : e.kind ≠ .nonCritical) : Steady R (Step.fail e : Step σ α) :=
  ⟨.fail e, .fail e, .fail he⟩

theorem get : Steady R (Step.get : Step σ σ) := ⟨.get, .get, .get⟩

theorem bind_of_answer {a : Step σ α} {next : α → Step σ β} (ha : Steady R a)
    (hn : ∀ s v t, a s = (.answer v, t) → Steady R (next v)) : Steady R (a >>= next) where
  moves := ha.moves.bind_of_answer fun s v t h => (hn s v t h).moves
  calm := ha.calm.bind_of_answer fun s v t h => (hn s v t h).calm
  critical := ha.critical.bind_of_answer fun s v t h => (hn s v t h).critical

theorem bind {a : Step σ α} {next : α → Step σ β} (ha : Steady R a)
    (hn : ∀ v, Steady R (next v)) : Steady R (a >>= next) :=
  ha.bind_of_answer fun _ v _ _ => hn v

theorem ofExcept {x : Except RelayError α} (hx : ∀ e, x = .error e → e.kind ≠ .nonCritical) :
    Steady R (Step.ofExcept x : Step σ α) :=
  ⟨.ofExcept x, .ofExcept x, .ofExcept hx⟩

theorem ofOption {e : RelayError} (he : e.kind ≠ .nonCritical) (o : Option α) :
    Steady R (Step.ofOption e o : Step σ α) :=
  ⟨.ofOption e o, .ofOption e o, .ofOption he o⟩

theorem transaction {a : Step σ α} (ha : Steady R a) : Steady R (transaction a) :=
  ⟨.transaction ha.moves, .transaction ha.calm, .transaction ha.critical⟩

omit [IsPreorder σ R] in
theorem ite {c : Prop} [Decidable c] {a b : Step σ α} (ha : Steady R a) (hb : Steady R b) :
    Steady R (if c then a else b) := by
  split
  · exact ha
  · exact hb

end Steady

/-- A step that only looks leaves the state as it is. -/
abbrev Looks (a : Step σ α) : Prop := Steady (· = ·) a

theorem Looks.steady {R : σ → σ → Prop} [IsPreorder σ R] {a : Step σ α} (h : Looks a) :
    Steady R a where
  moves s := by
    rw [← h.moves s]
    exact refl_of R s
  calm := h.calm
  critical := h.critical

end HistoryRelay.Step
