import HistoryRelay.Proofs.Undertaking

/-! What a failed call leaves behind. Main statement: wherever it fails, either nothing has changed
or all of the work is there and only the note is missing, and the error tells which. -/
namespace HistoryRelay
open Step

namespace Step

theorem transaction_eq_failure {σ α : Type} {a : Step σ α} {s s' : σ} {e : RelayError} :
    transaction a s = (.failure e, s') ↔ s' = s ∧ ∃ t, a s = (.failure e, t) := by
  unfold transaction
  cases a s with
  | mk o t => cases o <;> simp [eq_comm, and_comm]

theorem bind_failure_of_looks {σ α β : Type} {a : Step σ α} {next : α → Step σ β} {s t : σ}
    {e : RelayError} (ha : Moves (· = ·) a) (h : (a >>= next) s = (.failure e, t)) :
    (a s = (.failure e, t) ∧ t = s) ∨ ∃ v, a s = (.answer v, s) ∧ next v s = (.failure e, t) := by
  have hs := ha s
  obtain h | ⟨v, s₁, hv, h⟩ := bind_eq_failure.1 h
  · rw [h] at hs
    exact .inl ⟨h, hs.symm⟩
  · rw [hv] at hs
    obtain rfl : s = s₁ := hs
    exact .inr ⟨v, hv, h⟩

def Intact {σ α : Type} (a : Step σ α) : Prop := ∀ s e t, a s = (.failure e, t) → t = s

namespace Intact
variable {σ α β : Type}

theorem update (f : σ → σ) : Intact (Step.update f) := fun s e t h => by cases h

theorem after {a : Step σ α} {next : α → Step σ β} (ha : Moves (· = ·) a)
    (hn : ∀ v, Intact (next v)) : Intact (a >>= next) := by
  intro s e t h
  obtain ⟨-, hs⟩ | ⟨v, -, h⟩ := bind_failure_of_looks ha h
  · exact hs
  · exact hn v s e t h

end Intact

/-- When the step fails with an error of such a kind it leaves the state as it was. -/
def IntactOn {σ α : Type} (p : ErrorKind → Prop) (a : Step σ α) : Prop :=
  ∀ s e t, a s = (.failure e, t) → p e.kind → t = s

namespace IntactOn
variable {σ α β : Type} {p : ErrorKind → Prop}

theorem of_never {a : Step σ α} (h : Never p a) : IntactOn p a := fun s e _ ha hkind =>
  absurd hkind (h s e (congrArg Prod.fst ha))

theorem of_intact {a : Step σ α} (h : Intact a) : IntactOn p a := fun s e t ha _ => h s e t ha

theorem bind_never {a : Step σ α} {next : α → Step σ β} (ha : IntactOn p a)
    (hn : ∀ v, Never p (next v)) : IntactOn p (a >>= next) := by
  intro s e t h hkind
  obtain h | ⟨v, s₁, -, h⟩ := bind_eq_failure.1 h
  · exact ha s e t h hkind
  · exact absurd hkind (hn v s₁ e (congrArg Prod.fst h))

theorem after_answer {a : Step σ α} {next : α → Step σ β} (ha : Moves (· = ·) a)
    (hn : ∀ s v, a s = (.answer v, s) → IntactOn p (next v)) : IntactOn p (a >>= next) := by
  intro s e t h hkind
  obtain ⟨-, hs⟩ | ⟨v, hv, h⟩ := bind_failure_of_looks ha h
  · exact hs
  · exact hn s v hv s e t h hkind

theorem after {a : Step σ α} {next : α → Step σ β} (ha : Moves (· = ·) a)
    (hn : ∀ v, IntactOn p (next v)) : IntactOn p (a >>= next) :=
  after_answer ha fun _ v _ => hn v

theorem map (f : α → β) {a : Step σ α} (h : IntactOn p a) : IntactOn p (f <$> a) :=
  fun s e t ha hkind => h s e t (map_eq_failure.1 ha) hkind

end IntactOn

abbrev Untouched {σ α : Type} (a : Step σ α) : Prop := IntactOn (· = .nonCritical) a

end Step

namespace Relay
variable {w : Setting}

theorem locked_eq_failure {α : Type} {a : Step Store α} {r r' : Relay} {e : RelayError} :
    locked a r = (.failure e, r') ↔
      r.poisoned = true ∧ e = .poisonedLock ∧ r' = r ∨
        r.poisoned = false ∧ ∃ s, a r.store = (.failure e, s) ∧ r' = { r with store := s } := by
  unfold locked
  cases r.poisoned with
  | true => simp [eq_comm]
  | false =>
    cases a r.store with
    | mk o s => cases o <;> simp [eq_comm, and_comm]

theorem change_dated_intact (refusals : Refusals) (c : Instant → Change) (time : Timestamp)
    (st : Statement) : Intact (do
      let i ← Store.storedTime time
      Store.permit refusals st
      update (c i).apply : Step Store Unit) :=
  .after (Store.storedTime_looks _).moves fun _ =>
    .after (Store.permit_looks _ _).moves fun _ => .update _

theorem noteUsage_failure {user device : String} {client : Client} {n : Nat} {isQuery : Bool}
    {s t : Store} {e : RelayError}
    (h : noteUsage w user device client n isQuery s = (.failure e, t)) :
    t = s ∧ e.kind = .nonCritical ∧ w.config.environment ≠ .production := by
  unfold noteUsage readClock at h
  split at h
  · cases h
  · split at h
    · cases h
    · rw [pure_bind] at h
      unfold rescue at h
      split at h
      · rename_i e' s₁ hrecord
        have hs := change_dated_intact _ (Change.recordUsage _) _ _ s e' s₁ hrecord
        split at h
        · cases h
        · rename_i henv
          cases h
          exact ⟨hs, rfl, henv⟩
      · rename_i hother
        exact absurd h (hother e t)

theorem locked_intactOn {α : Type} {p : ErrorKind → Prop} {a : Step Store α}
    (h : IntactOn p a) : IntactOn p (locked a) := by
  intro r e r' hr hkind
  obtain ⟨-, rfl, rfl⟩ | ⟨-, s, hs, rfl⟩ := locked_eq_failure.1 hr
  · rfl
  · rw [h r.store e s hs hkind]

theorem noteUsage_untouched (user device : String) (client : Client) (n : Nat) (isQuery : Bool) :
    Untouched (noteUsage w user device client n isQuery) :=
  fun _ _ _ h _ => (noteUsage_failure h).1

theorem query_untouched (user device : String) (reason : Option String) (client : Client) :
    Untouched (query w user device reason client) := by
  have hbump : Steady (Leads fun _ => True) (Store.bumpEntries w.refusals user device) :=
    Store.bumpEntries_steady _ _ _ trivial
  have hfetch : Steady (Leads fun _ => True) _ :=
    fetchPending_steady w user device fun _ _ => trivial
  have hcount : Critical (countRead w user device) :=
    .bind (locked_critical hbump.critical) fun _ => .pure ()
  have hread : Untouched (readPending w user device reason client) := by
    refine .after (requireId_moves _ _) fun _ => .after (requireId_moves _ _) fun _ =>
      locked_intactOn ?_
    split
    · exact .of_never hfetch.critical
    · exact .bind_never (noteUsage_untouched _ _ _ _ _) fun _ => hfetch.critical
  unfold query
  refine hread.bind_never fun found => ?_
  split
  · exact .bind (.rescue fun _ => .pure ()) fun _ => .pure found
  · exact .bind hcount fun _ => .pure found

theorem bootstrap_untouched (user device : String) (client : Client) :
    Untouched (bootstrap w user device client) :=
  .after (requireId_moves _ _) fun _ => .after (requireId_moves _ _) fun _ =>
    locked_intactOn (.bind_never (noteUsage_untouched _ _ _ _ _) fun _ =>
      (Store.entriesOfUser_looks _ _).critical)

end Relay

namespace Undertaking
variable {w : Setting} {u : Undertaking}

theorem bookkeep_failure {s t : Store} {e : RelayError} (h : u.bookkeep w s = (.failure e, t)) :
    t = s ∧ e.kind = .nonCritical ∧ w.config.environment ≠ .production := by
  unfold bookkeep at h
  cases hn : u.note with
  | none =>
    rw [hn] at h
    cases h
  | some n =>
    rw [hn] at h
    exact Relay.noteUsage_failure h

/-- Either the undertaking fails and nothing has changed, or its work is done and only the note of
it is missing. -/
theorem failure_cases (hu : u.Sound) {breaks : Store → Option (String × Store)} {r r' : Relay}
    {e : RelayError} (h : u.perform w breaks r = (.failure e, r')) :
    (e.kind ≠ .nonCritical ∧ r' = r) ∨
      ∃ answer s, u.check r = (.answer (), r) ∧ r.poisoned = false ∧
        broken breaks u.body r.store = (.answer answer, s) ∧ u.bookkeep w s = (.failure e, s) ∧
        r' = { r with store := s } := by
  obtain ⟨hcheck, hsame⟩ | ⟨_, hcheck, hlocked⟩ := bind_failure_of_looks hu.guards.looks h
  · exact .inl ⟨hu.guards.critical r e (congrArg Prod.fst hcheck), hsame⟩
  obtain ⟨-, rfl, rfl⟩ | ⟨hfree, s, hstore, rfl⟩ := Relay.locked_eq_failure.1 hlocked
  · exact .inl ⟨by simp [RelayError.kind], rfl⟩
  obtain hwhole | ⟨answer, s₁, hwhole, hrest⟩ := bind_eq_failure.1 hstore
  · obtain ⟨rfl, t, hbody⟩ := transaction_eq_failure.1 hwhole
    exact .inl ⟨broken_critical hu.critical breaks r.store e (congrArg Prod.fst hbody), rfl⟩
  · obtain hnote | ⟨_, s₂, -, hdone⟩ := bind_eq_failure.1 hrest
    · obtain ⟨rfl, -⟩ := bookkeep_failure hnote
      exact .inr ⟨answer, s, hcheck, hfree, transaction_eq_answer.1 hwhole, hnote, rfl⟩
    · cases hdone

/-- Once its work is done, what an undertaking leaves does not hang on the note, except for what is
noted. -/
theorem perform_of_body {breaks : Store → Option (String × Store)} {r : Relay} {answer : Answer}
    {s : Store} (hcheck : u.check r = (.answer (), r)) (hfree : r.poisoned = false)
    (hbody : broken breaks u.body r.store = (.answer answer, s)) (w : Setting) :
    (u.perform w breaks r).1.answered = (u.bookkeep w s).1.answered ∧
      (u.perform w breaks r).2.store.besidesUsage = s.besidesUsage := by
  rw [perform, bind_answer hcheck, (Relay.locked_apply _ hfree).1, (Relay.locked_apply _ hfree).2,
    bind_answer (transaction_answer hbody)]
  exact bookkeep_answer w u answer s

end Undertaking

namespace Call

/-- Calls that write, all they write in one transaction. -/
def isWhole : Call → Bool
  | .register .. | .submit .. | .submitDump .. | .dumpRequests .. | .addDeletion _
  | .deletionRequests .. | .uninstall .. | .deepClean _ => true
  | _ => false

/-- Calls that note themselves once their work is done. -/
def notesLast : Call → Bool
  | .register .. | .submit .. | .submitDump .. => true
  | _ => false

/-- Calls that note themselves before anything else. -/
def notesFirst : Call → Bool
  | .query .. | .bootstrap .. => true
  | _ => false

theorem undertaking?_eq_none {w : Setting} {call : Call} (h : call.isWhole)
    (hn : call.undertaking? w = none) : ∃ source client, call = .submit [] source client := by
  cases call with
  | submit batch source client =>
    cases batch with
    | nil => exact ⟨source, client, rfl⟩
    | cons first rest => cases hn
  | query | bootstrap | recordFeedback | statistics | usageStatistics | wipe | ping | sweep =>
    cases h
  | _ => cases hn

/-- A failed call leaves nothing half done, wherever it fails: whichever statement of its
transaction is refused, and whatever that has written by then.

A call that writes and fails over more than bookkeeping leaves the relay as it was. One that notes
itself last and fails over that has done what it does if nothing is noted, and it then answers. One
that notes itself first has done nothing. In production no call fails over bookkeeping. -/
theorem failure_is_whole (w : Setting) (call : Call) :
    call.performBroken w (fun _ => none) = call.perform w ∧
      ∀ breaks r e r', call.performBroken w breaks r = (.failure e, r') →
        (call.isWhole → e.kind ≠ .nonCritical → r' = r) ∧
        (call.notesLast → e.kind = .nonCritical → ∀ track environment refusal,
          let other := call.performBroken (w.bookkeeping track environment refusal) breaks r
          (track = false → other.1.answered) ∧
            other.2.store.besidesUsage = r'.store.besidesUsage) ∧
        (call.notesFirst → e.kind = .nonCritical → r' = r) ∧
        (w.config.environment = .production → e.kind ≠ .nonCritical) := by
  cases hu : call.undertaking? w with
  | none =>
    simp only [performBroken, hu]
    refine ⟨trivial, fun _ r e r' h => ⟨fun hwhole => ?_, fun hlast => ?_, fun hfirst hkind => ?_,
      fun henv => (Turn.orderly ⟨w, call⟩).critical henv r e (congrArg Prod.fst h)⟩⟩
    · obtain ⟨source, client, rfl⟩ := undertaking?_eq_none hwhole hu
      cases h
    · have hwhole : call.isWhole := by cases call <;> first | rfl | cases hlast
      obtain ⟨source, client, rfl⟩ := undertaking?_eq_none hwhole hu
      cases h
    · cases call with
      | query user device reason client =>
        exact (Relay.query_untouched user device reason client).map _ r e r' h hkind
      | bootstrap user device client =>
        exact (Relay.bootstrap_untouched user device client).map _ r e r' h hkind
      | _ => cases hfirst
  | some u =>
    have hsound := Relay.undertaking_sound hu
    simp only [performBroken, hu]
    refine ⟨Relay.perform_of_undertaking hu, fun breaks r e r' h => ?_⟩
    obtain ⟨hkind, rfl⟩ | ⟨answer, s, hcheck, hfree, hbody, hnote, rfl⟩ :=
      Undertaking.failure_cases hsound h
    · exact ⟨fun _ _ => rfl, fun _ he => absurd he hkind, fun _ he => absurd he hkind,
        fun _ => hkind⟩
    · obtain ⟨-, hkind, henv⟩ := Undertaking.bookkeep_failure hnote
      refine ⟨fun _ hne => absurd hkind hne, fun _ _ track environment refusal => ?_,
        fun hfirst => ?_, fun hp => absurd hp henv⟩
      · rw [undertaking?_bookkeeping w track environment refusal, hu]
        have hother := Undertaking.perform_of_body hcheck hfree hbody
          (w.bookkeeping track environment refusal)
        refine ⟨fun htrack => ?_, hother.2⟩
        rw [hother.1]
        subst htrack
        unfold Undertaking.bookkeep
        cases u.note <;> rfl
      · cases call with
        | query | bootstrap => cases hu
        | _ => cases hfirst

/-- A refused second chunk takes the first one back, a refused note takes nothing back. -/
theorem failure_is_whole_of_submit :
    let r := Relay.run {} [⟨default, .register ⟨"ada", "desk", false⟩ .unknown⟩]
    let entry (id : String) : Entry := ⟨[1], [2], "desk", "ada", default, id, 0, false⟩
    let call : Call := .submit [entry "e1", entry "e2"] none .unknown
    let full (which : Statement) : Setting :=
      ⟨{ insertChunk := 1 }, default, fun st => if st = which then some "full" else none⟩
    let cut := call.perform (full (.insert .entries ["e2"])) r
    let unnoted := call.perform (full (.insert .usage [])) r
    let untracked := call.perform ((full (.insert .usage [])).bookkeeping false .development none) r
    cut.1 = .failure (.refused "full") ∧ cut.2 = r ∧
      unnoted.1 = .failure (.bookkeeping (.refused "full")) ∧
      unnoted.2.store.entries.map (·.encryptedId) = ["e1", "e2"] ∧
      untracked.1.answered ∧
      untracked.2.store.besidesUsage = unnoted.2.store.besidesUsage := by
  intro r entry call full cut unnoted untracked
  have hcut : (call.perform (full (.insert .entries ["e2"])) r).1 =
      .failure (.refused "full") := by
    unfold call
    cbv
  have hunnoted : (call.perform (full (.insert .usage [])) r).1 =
      .failure (.bookkeeping (.refused "full")) := by
    unfold call
    cbv
  have hrows : (call.perform (full (.insert .usage [])) r).2.store.entries.map (·.encryptedId) =
      ["e1", "e2"] := by
    unfold call
    cbv
  obtain ⟨hsame, hfail⟩ := failure_is_whole (full (.insert .entries ["e2"])) call
  have hwhole := (hfail (fun _ => none) r _ cut.2
    ((congrFun hsame r).trans (Prod.ext hcut rfl))).1 rfl (by decide)
  obtain ⟨hsame', hfail'⟩ := failure_is_whole (full (.insert .usage [])) call
  have hlast := (hfail' (fun _ => none) r _ unnoted.2
    ((congrFun hsame' r).trans (Prod.ext hunnoted rfl))).2.1 rfl rfl false .development none
  rw [(failure_is_whole _ call).1] at hlast
  exact ⟨hcut, hwhole, hunnoted, hrows, hlast.1 rfl, hlast.2⟩

end Call

end HistoryRelay
