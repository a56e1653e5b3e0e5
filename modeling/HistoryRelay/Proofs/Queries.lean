import HistoryRelay.Proofs.Effects

/-! Both halves of a query. A query answers what its first half reads, and that is what waits for
the device once the tombstones that lie ready for it are applied. -/
namespace HistoryRelay
open Step

def Outcome.answered {α : Type} : Outcome α → Bool
  | .answer _ => true
  | _ => false

theorem Entries.mem_pending {user device : String} {limit : Nat} {es : List EntryRow}
    {x : EntryRow} : x ∈ pending user device limit es ↔ x ∈ es ∧
      (x.user = user ∧ x.device = device) ∧ x.readCount < limit ∧ x.fromSameDevice = false := by
  simp [pending, EntryRow.isFor, and_assoc]

theorem Step.map_answered {σ α β : Type} (f : α → β) (a : Step σ α) (s : σ) :
    ((f <$> a) s).1.answered = (a s).1.answered ∧ ((f <$> a) s).2 = (a s).2 := by
  rw [map_eq, bind_apply]
  cases a s with
  | mk o t => cases o <;> exact ⟨rfl, rfl⟩

namespace Relay
variable (w : Setting)

section Parts
variable {α : Type} {r r' : Relay}

theorem locked_eq_answer {a : Step Store α} {v : α} : locked a r = (.answer v, r') ↔
    r.poisoned = false ∧ r'.poisoned = false ∧ a r.store = (.answer v, r'.store) := by
  unfold locked
  cases hp : r.poisoned with
  | true => simp
  | false =>
    simp only [Bool.false_eq_true, if_false]
    cases a r.store with
    | mk o s =>
      cases o with
      | answer u =>
        constructor
        · intro h
          injection h with hv hr
          rw [hv, ← hr]
          exact ⟨trivial, rfl, rfl⟩
        · rintro ⟨-, hfree, h⟩
          injection h with hv hs
          rw [hv, hs, ← hfree]
      | failure e => simp
      | crash => simp

theorem requireId_bind_eq_answer {σ : Type} {name value : String} {next : Unit → Step σ α}
    {s t : σ} {v : α} : (requireId name value >>= next) s = (.answer v, t) ↔
      value ≠ "" ∧ next () s = (.answer v, t) := by
  unfold requireId
  split
  · rename_i h
    simp [h, bind_apply, fail]
  · rename_i h
    simp [h]

end Parts

variable (user device : String) (reason : Option String) (client : Client)

theorem readPending_answer {r r' : Relay} {es : List Entry}
    (h : readPending w user device reason client r = (.answer es, r')) :
    ∃ s, Leads (fun c => ∃ e time, c = .recordUsage e time) r.store s ∧
      applyDeletions w user device s = (.answer (), r'.store) ∧
      es = (Entries.pending user device w.config.queryReadLimit r'.store.entries).map
        EntryRow.toEntry := by
  unfold readPending at h
  have hlocked := (requireId_bind_eq_answer.1 (requireId_bind_eq_answer.1 h).2).2
  obtain ⟨-, -, h⟩ := locked_eq_answer.1 hlocked
  have happly {s : Store} (h : (do
      transaction (applyDeletions w user device)
      Store.pendingEntries w.refusals user device w.config.queryReadLimit) s =
        (.answer es, r'.store)) : applyDeletions w user device s = (.answer (), r'.store) ∧
        es = (Entries.pending user device w.config.queryReadLimit r'.store.entries).map
          EntryRow.toEntry := by
    obtain ⟨_, t, ht, h⟩ := bind_eq_answer.1 h
    obtain ⟨-, rfl, he⟩ := Store.pendingEntries_eq_answer.1 h
    exact ⟨he ▸ transaction_eq_answer.1 ht, he ▸ rfl⟩
  split at h
  · exact ⟨r.store, refl_of _ _, happly h⟩
  · obtain ⟨_, s, hs, h⟩ := bind_eq_answer.1 h
    have htame : Tame w (fun c => ∃ e time, c = .recordUsage e time)
        (noteUsage w user device client 0 true) :=
      noteUsage_tame w user device client 0 true fun e time _ => ⟨e, time, rfl⟩
    have hnote := htame.moves r.store
    rw [hs] at hnote
    exact ⟨s, hnote, happly h⟩

theorem countRead_cases (r : Relay) :
    (countRead w user device r).1.answered = true ∧
        (countRead w user device r).2.store = (Change.bumpEntries user device).apply r.store ∨
      (countRead w user device r).1.answered = false ∧
        (countRead w user device r).2.store = r.store := by
  unfold countRead
  cases hp : r.poisoned with
  | true =>
    rw [bind_failure (locked_poisoned _ hp)]
    exact .inr ⟨rfl, rfl⟩
  | false =>
    have hb := locked_apply (Store.bumpEntries w.refusals user device) hp
    cases hr : w.refusals (.update .entries (r.store.entries.countP (·.isFor user device))) with
    | none =>
      rw [Store.bumpEntries_eq_answer.2 ⟨hr, rfl, rfl⟩] at hb
      rw [bind_answer (Prod.ext hb.1 rfl)]
      exact .inl ⟨rfl, hb.2⟩
    | some reason =>
      have hf : Store.bumpEntries w.refusals user device r.store =
          (.failure (.refused reason), r.store) := by
        simp [Store.bumpEntries, bind_apply, Step.get, Store.permit, hr, Step.fail]
      rw [hf] at hb
      rw [bind_failure (Prod.ext hb.1 rfl)]
      exact .inr ⟨rfl, hb.2⟩

/-- A query answers what its first half does, and then the read is counted, unless the query
itself fails over it or the count runs on its own. -/
theorem query_cases (r : Relay) :
    let r₁ := (readPending w user device reason client r).2
    (∃ es, (readPending w user device reason client r).1 = .answer es ∧
        (query w user device reason client r).1 = .answer es ∧
        (query w user device reason client r).2.store = (countRead w user device r₁).2.store) ∨
      (query w user device reason client r).1.answered = false ∧
        (query w user device reason client r).2.store = r₁.store := by
  cases hr : readPending w user device reason client r with
  | mk o r₁ =>
    cases o with
    | failure e => exact .inr (by simp [query, bind_failure hr, Outcome.answered])
    | crash => exact .inr (by simp [query, bind_crash hr, Outcome.answered])
    | answer es =>
      have hquery : query w user device reason client r =
          (if w.config.environment = .production then
            rescue (countRead w user device) (fun _ => pure ()) >>= fun _ => pure es
          else countRead w user device >>= fun _ => pure es) r₁ := by
        unfold query
        rw [bind_answer hr]
      have hcount := countRead_cases w user device r₁
      cases hc : countRead w user device r₁ with
      | mk o r₂ =>
        rw [hc] at hcount
        cases o with
        | answer u =>
          have hrescued : rescue (countRead w user device) (fun _ => pure ()) r₁ =
              (.answer u, r₂) := by simp [rescue, hc]
          have hdone : query w user device reason client r = (.answer es, r₂) := by
            rw [hquery]
            split
            · rw [bind_answer hrescued, pure_apply]
            · rw [bind_answer hc, pure_apply]
          exact .inl ⟨es, rfl, by rw [hdone], by rw [hdone, hc]⟩
        | failure e =>
          have hsame : r₂.store = r₁.store := by simpa [Outcome.answered] using hcount
          have hrescued : rescue (countRead w user device) (fun _ => pure ()) r₁ =
              (.answer (), r₂) := by simp [rescue, hc, pure_apply]
          by_cases hprod : w.config.environment = .production
          · rw [if_pos hprod, bind_answer hrescued, pure_apply] at hquery
            exact .inl ⟨es, rfl, by rw [hquery], by rw [hquery, hc]⟩
          · rw [if_neg hprod, bind_failure hc] at hquery
            exact .inr ⟨by rw [hquery]; rfl, by rw [hquery, hsame]⟩
        | crash =>
          have hsame : r₂.store = r₁.store := by simpa [Outcome.answered] using hcount
          have hrescued : rescue (countRead w user device) (fun _ => pure ()) r₁ =
              (.crash, r₂) := by simp [rescue, hc]
          have hdone : query w user device reason client r = (.crash, r₂) := by
            rw [hquery]
            split
            · rw [bind_crash hrescued]
            · rw [bind_crash hc]
          exact .inr ⟨by rw [hdone]; rfl, by rw [hdone, hsame]⟩

end Relay

end HistoryRelay
