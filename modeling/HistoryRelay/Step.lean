import HistoryRelay.RelayError

/-! Steps on a state. A step answers, fails with an error, or crashes, and in each case
leaves a state behind; what follows a step runs only after an answer. -/
namespace HistoryRelay

inductive Outcome (α : Type) where
  | answer (value : α)
  | failure (error : RelayError)
  | crash

def Step (σ α : Type) : Type := σ → Outcome α × σ

namespace Step
variable {σ α β : Type}

protected def pure (a : α) : Step σ α := fun s => (.answer a, s)

protected def bind (a : Step σ α) (next : α → Step σ β) : Step σ β := fun s =>
  match a s with
  | (.answer v, s) => next v s
  | (.failure e, s) => (.failure e, s)
  | (.crash, s) => (.crash, s)

instance : Monad (Step σ) where
  pure := Step.pure
  bind := Step.bind

theorem pure_apply (a : α) (s : σ) : (Pure.pure a : Step σ α) s = (.answer a, s) := rfl

theorem bind_apply (a : Step σ α) (next : α → Step σ β) (s : σ) :
    (a >>= next) s = match a s with
      | (.answer v, s) => next v s
      | (.failure e, s) => (.failure e, s)
      | (.crash, s) => (.crash, s) := rfl

theorem bind_answer {a : Step σ α} {next : α → Step σ β} {s s' : σ} {v : α}
    (h : a s = (.answer v, s')) : (a >>= next) s = next v s' := by
  rw [bind_apply, h]

theorem bind_failure {a : Step σ α} {next : α → Step σ β} {s s' : σ} {e : RelayError}
    (h : a s = (.failure e, s')) : (a >>= next) s = (.failure e, s') := by
  rw [bind_apply, h]

theorem bind_crash {a : Step σ α} {next : α → Step σ β} {s s' : σ}
    (h : a s = (.crash, s')) : (a >>= next) s = (.crash, s') := by
  rw [bind_apply, h]

instance : LawfulMonad (Step σ) := LawfulMonad.mk' _
  (fun x => by
    funext s
    show Step.bind x (fun a => Step.pure a) s = x s
    unfold Step.bind
    rcases x s with ⟨_ | _ | _, _⟩ <;> rfl)
  (fun _ _ => rfl)
  (fun x f g => by
    funext s
    show Step.bind (Step.bind x f) g s = Step.bind x (fun a => Step.bind (f a) g) s
    unfold Step.bind
    rcases x s with ⟨_ | _ | _, _⟩ <;> rfl)

def fail (e : RelayError) : Step σ α := fun s => (.failure e, s)

def crash : Step σ α := fun s => (.crash, s)

def get : Step σ σ := fun s => (.answer s, s)

def update (f : σ → σ) : Step σ Unit := fun s => (.answer (), f s)

def ofExcept : Except RelayError α → Step σ α
  | .ok a => pure a
  | .error e => fail e

def ofOption (e : RelayError) : Option α → Step σ α
  | some a => pure a
  | none => fail e

/-- Lets a failure through another step; a crash stays a crash. -/
def rescue (a : Step σ α) (after : RelayError → Step σ α) : Step σ α := fun s =>
  match a s with
  | (.failure e, s) => after e s
  | r => r

/-- All or nothing: without an answer the state is as before. -/
def transaction (a : Step σ α) : Step σ α := fun s =>
  match a s with
  | (.answer v, s') => (.answer v, s')
  | (.failure e, _) => (.failure e, s)
  | (.crash, _) => (.crash, s)

theorem transaction_answer {a : Step σ α} {s s' : σ} {v : α} (h : a s = (.answer v, s')) :
    transaction a s = (.answer v, s') := by
  simp [transaction, h]

theorem transaction_state (a : Step σ α) (s : σ) :
    (transaction a s).2 = s ∨ ∃ v, transaction a s = (.answer v, (a s).2) := by
  unfold transaction
  rcases a s with ⟨_ | _ | _, _⟩ <;> simp

end Step

end HistoryRelay
