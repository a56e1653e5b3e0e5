import HistoryRelay.Proofs.Results

/-! What a crash leaves. Main statement: a call that crashes over its clock leaves the store as it
was, or as its work makes it with only the note missing; and whatever is asked of the relay from
then on changes nothing, and fails if it gets as far as the store. -/
namespace HistoryRelay
open Step

namespace Step
variable {σ α β : Type} {R : σ → σ → Prop}

/-- Whenever the step crashes, the states before and after it are so related. -/
def Crashes (R : σ → σ → Prop) (a : Step σ α) : Prop := ∀ s t, a s = (.crash, t) → R s t

namespace Crashes

theorem of_calm {a : Step σ α} (h : Calm a) : Crashes R a := fun s _ hs =>
  absurd (congrArg Prod.fst hs) (h s)

theorem of_moves {a : Step σ α} (h : Moves R a) : Crashes R a := fun s t hs => by
  have hmoves := h s
  rwa [hs] at hmoves

theorem transaction (a : Step σ α) : Crashes (· = ·) (transaction a) := by
  intro s t h
  unfold Step.transaction at h
  cases ha : a s with
  | mk o u =>
    rw [ha] at h
    cases o <;> cases h
    rfl

theorem bind_calm {a : Step σ α} {next : α → Step σ β} (ha : Crashes R a)
    (hn : ∀ s v t, a s = (.answer v, t) → Calm (next v)) : Crashes R (a >>= next) := by
  intro s t h
  obtain h | ⟨v, u, hv, h⟩ := bind_eq_crash.1 h
  · exact ha s t h
  · exact absurd (congrArg Prod.fst h) (hn s v u hv u)

theorem map {a : Step σ α} (f : α → β) (h : Crashes R a) : Crashes R (f <$> a) := by
  rw [map_eq]
  exact h.bind_calm fun _ v _ _ => .pure (f v)

end Crashes

end Step

namespace Relay
variable {w : Setting} {α : Type}

/-- The lock was free and is poisoned, and the store is the same. -/
def Poisoned (r r' : Relay) : Prop := r.poisoned = false ∧ r' = { r with poisoned := true }

theorem locked_eq_crash {a : Step Store α} {r r' : Relay} : locked a r = (.crash, r') ↔
    r.poisoned = false ∧ r'.poisoned = true ∧ a r.store = (.crash, r'.store) := by
  unfold locked
  cases r.poisoned with
  | true => simp
  | false =>
    obtain ⟨store, poisoned⟩ := r'
    cases a r.store with
    | mk o s => cases o <;> simp [eq_comm, and_comm]

theorem locked_crashes {a : Step Store α} (h : Crashes (· = ·) a) :
    Crashes Poisoned (locked a) := by
  intro r r' hr
  obtain ⟨hfree, hpoisoned, hstore⟩ := locked_eq_crash.1 hr
  refine ⟨hfree, ?_⟩
  rw [h r.store r'.store hstore, ← hpoisoned]

theorem locked_calm {a : Step Store α} (h : Calm a) : Calm (locked a) := by
  intro r hr
  obtain ⟨-, -, hstore⟩ := locked_eq_crash.1 (Prod.ext hr rfl)
  exact h r.store (congrArg Prod.fst hstore)

theorem requireId_bind_crashes {σ : Type} {R : σ → σ → Prop} {name value : String}
    {next : Unit → Step σ α} (h : Crashes R (next ())) :
    Crashes R (requireId name value >>= next) := by
  unfold requireId
  split
  · exact .of_calm fun s => by simp [bind_apply, fail]
  · exact h

theorem requireIds_bind_crashes {σ : Type} {R : σ → σ → Prop} {user device : String}
    {a : Step σ α} (h : Crashes R a) : Crashes R (do
      requireId "user_id" user
      requireId "device_id" device
      a) :=
  requireId_bind_crashes (requireId_bind_crashes h)

section Note
variable (user device : String) (client : Client) (n : Nat) (isQuery : Bool)

theorem noteUsage_calm (h : 0 ≤ w.clock.seconds) :
    Calm (noteUsage w user device client n isQuery) := by
  have htame : Tame w (fun _ => True) (noteUsage w user device client n isQuery) :=
    noteUsage_tame w user device client n isQuery fun _ _ _ => trivial
  exact htame.calm h

theorem noteUsage_crashes : Crashes (· = ·) (noteUsage w user device client n isQuery) := by
  unfold noteUsage
  split
  · exact .of_calm (.pure ())
  · have hclock : Crashes (· = ·) (readClock w : Step Store Timestamp) := by
      unfold readClock
      exact .of_moves (.ite .crash (.pure _))
    refine hclock.bind_calm fun _ time _ _ => .rescue ?_ fun e => ?_
    · have hsteady : Steady (Leads fun _ => True) (Store.recordUsage w.refusals
          ⟨user, device, time, client.ip, client.version, n, isQuery⟩) :=
        Store.recordUsage_steady _ _ fun _ => trivial
      exact hsteady.calm
    · split
      · exact .pure ()
      · exact .fail _

end Note

theorem register_crashes (reg : Registration) (client : Client) :
    Crashes Poisoned (register w reg client) := by
  refine requireIds_bind_crashes (locked_crashes ?_)
  refine (Crashes.transaction _).bind_calm fun s reply t h => ?_
  obtain ⟨-, hclock, -⟩ := enroll_answer (transaction_eq_answer.1 h)
  exact (noteUsage_calm _ _ _ _ _ hclock).bind_of_answer fun _ _ _ _ => .pure reply

theorem query_crashes (user device : String) (reason : Option String) (client : Client) :
    Crashes Poisoned (query w user device reason client) := by
  have hbump : Steady (Leads fun _ => True) (Store.bumpEntries w.refusals user device) :=
    Store.bumpEntries_steady _ _ _ trivial
  have hcount : Calm (countRead w user device) :=
    (locked_calm hbump.calm).bind_of_answer fun _ _ _ _ => .pure ()
  have hfetch : Steady (Leads fun _ => True) _ :=
    fetchPending_steady w user device fun _ _ => trivial
  have hread : Crashes Poisoned (readPending w user device reason client) := by
    refine requireIds_bind_crashes (locked_crashes ?_)
    split
    · exact .of_calm hfetch.calm
    · exact (noteUsage_crashes _ _ _ _ _).bind_calm fun _ _ _ _ => hfetch.calm
  unfold query
  refine hread.bind_calm fun _ found _ _ => ?_
  split
  · exact (hcount.rescue fun _ => .pure ()).bind_of_answer fun _ _ _ _ => .pure found
  · exact hcount.bind_of_answer fun _ _ _ _ => .pure found

theorem bootstrap_crashes (user device : String) (client : Client) :
    Crashes Poisoned (bootstrap w user device client) := by
  refine requireIds_bind_crashes (locked_crashes ?_)
  exact (noteUsage_crashes _ _ _ _ _).bind_calm fun _ _ _ _ =>
    (Store.entriesOfUser_looks _ _).calm

theorem statistics_crashes : Crashes Poisoned (statistics w) := by
  have hlooks : Moves (Along w fun _ => False) (statistics w) := (statistics_orderly w).moves
  intro r r' h
  obtain ⟨hfree, hpoisoned, -⟩ := locked_eq_crash.1 h
  have hstore : r'.store = r.store := by
    have hleads := (hlooks r).1
    rw [h] at hleads
    exact hleads.frame id fun _ _ hc => hc.elim
  exact ⟨hfree, by rw [← hstore, ← hpoisoned]⟩

theorem sweep_calm : Calm (sweep w) := by
  have hdrop (which : EntryRow → Bool) :
      Steady (Leads fun _ => True) (Store.deleteEntries w.refusals which) :=
    Store.deleteEntries_steady _ _ trivial
  have hbury (which : DeletionRow → Bool) :
      Steady (Leads fun _ => True) (Store.deleteDeletionRequests w.refusals which) :=
    Store.deleteDeletionRequests_steady _ _ trivial
  have hdump (which : DumpRow → Bool) :
      Steady (Leads fun _ => True) (Store.deleteDumpRequests w.refusals which) :=
    Store.deleteDumpRequests_steady _ _ trivial
  refine locked_calm ((hdrop _).calm.bind_of_answer fun _ _ _ _ =>
    (hbury _).calm.bind_of_answer fun _ _ _ _ => (hdump _).calm.bind_of_answer fun _ _ _ _ => ?_)
  exact .pure _

end Relay

/-- Calls that bring entries, and note themselves when these are stored. -/
def Call.bringsEntries : Call → Bool
  | .submit .. | .submitDump .. => true
  | _ => false

namespace Relay
variable {w : Setting}

/-- A call that brings no entries changes nothing when it crashes in the relay. -/
theorem perform_crashes {call : Call} (hbrings : call.bringsEntries = false)
    (hclean : ∀ now, call ≠ .deepClean now) : Crashes Poisoned (call.perform w) := by
  cases call with
  | register reg client => exact (register_crashes reg client).map _
  | query user device reason client => exact (query_crashes user device reason client).map _
  | bootstrap user device client => exact (bootstrap_crashes user device client).map _
  | dumpRequests user device | deletionRequests user device | uninstall user device =>
    exact (requireIds_bind_crashes (locked_crashes (.transaction _))).map _
  | addDeletion req =>
    refine (requireId_bind_crashes ?_).map _
    split
    · exact .of_calm (.fail _)
    · exact locked_crashes (.transaction _)
  | recordFeedback f =>
    have hinsert : Steady (Leads fun _ => True) (Store.insertFeedback w.refusals f) :=
      Store.insertFeedback_steady _ _ fun _ => trivial
    exact (requireId_bind_crashes (.of_calm (locked_calm hinsert.calm))).map _
  | statistics => exact statistics_crashes.map _
  | usageStatistics =>
    exact .map _ (.of_calm (locked_calm (Store.usageSummaries_looks _).calm))
  | wipe =>
    have hdelete : Steady (Leads fun _ => True) (Store.deleteAllEntries w.refusals) :=
      Store.deleteEntries_steady _ _ trivial
    refine .map _ (.of_calm ?_)
    unfold wipeEntries
    split
    · exact locked_calm hdelete.calm
    · exact .fail _
  | ping => exact .map _ (.of_calm (locked_calm (.pure ())))
  | sweep => exact .map _ (.of_calm sweep_calm)
  | deepClean now => exact absurd rfl (hclean now)
  | submit | submitDump => cases hbrings

end Relay

namespace Undertaking
variable {w : Setting} {u : Undertaking}

theorem bookkeep_crashes : Crashes (· = ·) (u.bookkeep w) := by
  unfold bookkeep
  cases u.note with
  | none => exact .of_calm (.pure ())
  | some n => exact Relay.noteUsage_crashes _ _ _ _ _

/-- If neither the checks nor the work can crash, the work is done. -/
theorem crash_cases (hu : u.Sound) (hcheck : Calm u.check) (hbody : Calm u.body) {r r' : Relay}
    (h : u.perform w (fun _ => none) r = (.crash, r')) :
    r.poisoned = false ∧ r'.poisoned = true ∧ u.check r = (.answer (), r) ∧
      ∃ answer, u.body r.store = (.answer answer, r'.store) := by
  obtain h | ⟨_, r₁, hpass, h⟩ := bind_eq_crash.1 h
  · exact absurd (congrArg Prod.fst h) (hcheck r)
  have hlooks := hu.guards.looks r
  rw [hpass] at hlooks
  obtain rfl : r = r₁ := hlooks
  obtain ⟨hfree, hpoisoned, h⟩ := Relay.locked_eq_crash.1 h
  obtain h | ⟨answer, s, hwork, h⟩ := bind_eq_crash.1 h
  · exact absurd (congrArg Prod.fst h) (Calm.transaction hbody r.store)
  obtain h | ⟨_, _, -, h⟩ := bind_eq_crash.1 h
  · obtain rfl := bookkeep_crashes _ _ h
    exact ⟨hfree, hpoisoned, hpass, answer, transaction_eq_answer.1 hwork⟩
  · cases h

end Undertaking

namespace Call
variable {w : Setting} {call : Call} {u : Undertaking}

theorem isTimeless_of_bringsEntries (h : call.bringsEntries) : call.isTimeless := by
  cases call <;> first | rfl | cases h

/-- What brings entries looks at the clock for its note alone. -/
theorem undertaking?_at_clock (h : call.bringsEntries) (clock : Timestamp) :
    call.undertaking? { w with clock } = call.undertaking? w := by
  cases call with
  | submit batch source client => cases batch <;> rfl
  | submitDump => rfl
  | _ => cases h

theorem usage_of_bringsEntries (h : call.bringsEntries) (hu : call.undertaking? w = some u)
    (s : Store) : (u.body s).2.usage = s.usage := by
  suffices hbody : Moves (Leads fun c => ∀ s, (c.apply s).usage = s.usage) u.body from
    (hbody s).frame Store.usage fun c s hc => hc s
  cases call with
  | submit batch source client =>
    cases batch with
    | nil => cases hu
    | cons first rest =>
      cases hu
      exact (Relay.distribute_steady w _ _ _ _ (fun _ _ _ => rfl) (fun _ _ _ => rfl)
        fun _ _ _ => rfl).moves.map _
  | submitDump user source requester isChunk dump client =>
    cases hu
    exact (Relay.storeDump_steady w _ _ _ _ (fun _ _ _ => rfl) fun _ => rfl).moves.map _
  | _ => cases h

/-- What such a call leaves when it crashes is what it leaves under any other clock, whether it is
noted there or not, the ledger apart. -/
theorem crash_of_bringsEntries (h : call.bringsEntries) {r r' : Relay}
    (hcrash : call.perform w r = (.crash, r')) :
    r.poisoned = false ∧ r'.poisoned = true ∧ r'.store.usage = r.store.usage ∧
      ∀ clock track environment refusal,
        let w' : Setting := { w.bookkeeping track environment refusal with clock }
        (call.perform w' r).2.store.besidesUsage = r'.store.besidesUsage ∧
          (track = false ∨ w'.Noting → (call.perform w' r).1.answered) := by
  cases hu : call.undertaking? w with
  | none =>
    cases call with
    | submit batch source client =>
      cases batch with
      | nil => cases hcrash
      | cons first rest => cases hu
    | submitDump => cases hu
    | _ => cases h
  | some u =>
    have hsound := Relay.undertaking_sound hu
    obtain ⟨hcheck, hbody⟩ := undertaking_calm hu (isTimeless_of_bringsEntries h)
    rw [← Relay.perform_of_undertaking hu] at hcrash
    obtain ⟨hfree, hpoisoned, hpass, answer, hwork⟩ :=
      Undertaking.crash_cases hsound hcheck hbody hcrash
    refine ⟨hfree, hpoisoned, ?_, fun clock track environment refusal => ?_⟩
    · have husage := usage_of_bringsEntries h hu r.store
      rwa [hwork] at husage
    · intro w'
      have hu' : call.undertaking? w' = some u := by
        rw [undertaking?_at_clock h, undertaking?_bookkeeping, hu]
      rw [← Relay.perform_of_undertaking hu']
      have hwhole : broken (fun _ => none) u.body r.store = (.answer answer, r'.store) := hwork
      obtain ⟨hanswered, hstore⟩ := Undertaking.perform_of_body hpass hfree hwhole w'
      refine ⟨hstore, fun hnote => hanswered.trans ?_⟩
      obtain rfl | hnoting := hnote
      · unfold Undertaking.bookkeep
        cases u.note <;> rfl
      · exact Undertaking.bookkeep_willing hnoting u _

end Call

/-- The call passes whatever is checked before the store is taken. -/
def Call.Reaches (w : Setting) : Call → Prop
  | .register r _ => r.user ≠ "" ∧ r.device ≠ ""
  | .submit [] _ _ => False
  | .submit (first :: rest) _ _ => first.user ≠ "" ∧ ∀ e ∈ rest, e.user = first.user
  | .query user device _ _ | .bootstrap user device _ | .dumpRequests user device
  | .deletionRequests user device | .uninstall user device => user ≠ "" ∧ device ≠ ""
  | .submitDump user source requester _ dump _ =>
    user ≠ "" ∧ source ≠ "" ∧ requester ≠ "" ∧ ∀ e ∈ dump, e.user = user
  | .addDeletion r => r.user ≠ "" ∧ ∀ m ∈ r.messages, m.device ≠ "" → m.isMatchable
  | .recordFeedback f => f.user ≠ ""
  | .wipe => w.config.environment = .test
  | .deepClean now => (now.minusDays w.config.retentionDays).isSome
  | .statistics | .usageStatistics | .ping | .sweep => True

namespace Relay
variable {w : Setting} {α β : Type} {p q : Prop}

/-- The step gets to the lock on a condition, and fails if that is poisoned. Without the condition
it comes to the same on every relay and leaves it alone. -/
structure Gated (p : Prop) (a : Step Relay α) : Prop where
  fails : p → ∀ r, r.poisoned = true → a r = (.failure .poisonedLock, r)
  passes : ¬p → ∃ o, ∀ r, a r = (o, r)

namespace Gated

theorem locked_bind (a : Step Store α) (next : α → Step Relay β) :
    Gated True (locked a >>= next) where
  fails _ _ h := bind_failure (locked_poisoned a h)
  passes h := absurd trivial h

theorem locked (a : Step Store α) : Gated True (locked a) := by
  simpa using locked_bind a pure

theorem fail (e : RelayError) : Gated False (Step.fail e : Step Relay α) where
  fails h := h.elim
  passes _ := ⟨_, fun _ => rfl⟩

theorem map (f : α → β) {a : Step Relay α} (h : Gated p a) : Gated p (f <$> a) where
  fails hp r hr := map_eq_failure.2 (h.fails hp r hr)
  passes hp := by
    obtain ⟨o, ho⟩ := h.passes hp
    cases o with
    | answer v => exact ⟨_, fun r => map_eq_answer.2 ⟨v, ho r, rfl⟩⟩
    | failure e => exact ⟨_, fun r => map_eq_failure.2 (ho r)⟩
    | crash => exact ⟨_, fun r => by rw [map_eq, bind_crash (ho r)]⟩

theorem requireId {name value : String} {next : Unit → Step Relay α} (h : Gated p (next ())) :
    Gated (value ≠ "" ∧ p) (Relay.requireId name value >>= next) := by
  unfold Relay.requireId
  split
  · rename_i hempty
    exact ⟨fun hp => absurd hempty hp.1, fun _ => ⟨_, fun r => bind_failure rfl⟩⟩
  · rename_i hnamed
    exact ⟨fun hp => h.fails hp.2, fun hp => h.passes fun h => hp ⟨hnamed, h⟩⟩

theorem refuse {γ : Type} {bad : γ → Bool} {e : γ → RelayError} {xs : List γ}
    {next : Unit → Step Relay α} (h : Gated p (next ())) :
    Gated ((∀ x ∈ xs, bad x = false) ∧ p) (Step.refuse e (xs.find? bad) >>= next) := by
  cases hfind : xs.find? bad with
  | some x =>
    have hbad := List.find?_some hfind
    have hx := List.mem_of_find?_eq_some hfind
    exact ⟨fun hp => absurd (hp.1 x hx) (by simp [hbad]), fun _ => ⟨_, fun _ => bind_failure rfl⟩⟩
  | none =>
    have hnone : ∀ x ∈ xs, bad x = false := by simpa using hfind
    exact ⟨fun hp => h.fails hp.2, fun hp => h.passes fun h => hp ⟨hnone, h⟩⟩

theorem congr {a : Step Relay α} (h : Gated p a) (hpq : p ↔ q) : Gated q a := propext hpq ▸ h

end Gated

theorem ids_gated {user device : String} {a : Step Relay α} (h : Gated True a) :
    Gated (user ≠ "" ∧ device ≠ "") (do
      requireId "user_id" user
      requireId "device_id" device
      a) :=
  .congr (.requireId (.requireId h)) (by rw [and_true])

theorem perform_gated (w : Setting) (call : Call) : Gated (call.Reaches w) (call.perform w) := by
  cases call with
  | register reg client => exact .map _ (ids_gated (.locked _))
  | submit batch source client =>
    cases batch with
    | nil => exact ⟨fun h => h.elim, fun _ => ⟨_, fun _ => rfl⟩⟩
    | cons first rest =>
      rw [← perform_of_undertaking rfl]
      simp only [Undertaking.perform, bind_assoc]
      refine .congr (.requireId (.refuse (.locked _))) ?_
      simp [Call.Reaches]
  | query user device reason client =>
    refine .map _ ?_
    simp only [query, readPending, bind_assoc]
    exact ids_gated (.locked_bind _ _)
  | bootstrap user device client => exact .map _ (ids_gated (.locked _))
  | submitDump user source requester isChunk dump client =>
    rw [← perform_of_undertaking rfl]
    simp only [Undertaking.perform, bind_assoc]
    refine .congr (.requireId (.requireId (.requireId (.refuse (.locked _))))) ?_
    simp [Call.Reaches]
  | dumpRequests user device | deletionRequests user device | uninstall user device =>
    exact .map _ (ids_gated (.locked _))
  | addDeletion req =>
    rw [← perform_of_undertaking rfl]
    simp only [Undertaking.perform, bind_assoc]
    refine .congr (.requireId (.refuse (.locked _))) ?_
    simp [Call.Reaches]
  | recordFeedback f => exact .map _ (.congr (.requireId (.locked _)) (and_iff_left trivial))
  | statistics | usageStatistics | ping | sweep => exact .map _ (.locked _)
  | wipe =>
    refine .map _ ?_
    unfold wipeEntries
    split
    · exact .congr (.locked _) (iff_of_true trivial ‹_›)
    · exact .congr (.fail _) (iff_of_false id ‹_›)
  | deepClean now =>
    refine .map _ ?_
    simp only [deepClean, daysBefore, Call.Reaches]
    cases now.minusDays w.config.retentionDays with
    | some cutoff => exact .congr (.locked _) (iff_of_true trivial rfl)
    | none => exact ⟨fun h => absurd h Bool.false_ne_true, fun _ => ⟨.crash, fun _ => rfl⟩⟩

theorem poisoned_stays {r : Relay} (h : r.poisoned = true) (turns : List Turn) :
    r.run turns = r := by
  induction turns with
  | nil => rfl
  | cons t rest ih =>
    have hgated := perform_gated t.setting t.call
    have ht : (t.take r).2 = r := by
      by_cases hreaches : t.call.Reaches t.setting
      · exact congrArg Prod.snd (hgated.fails hreaches r h)
      · obtain ⟨o, ho⟩ := hgated.passes hreaches
        exact congrArg Prod.snd (ho r)
    rw [run_cons, ht, ih]

/-- A call that crashes in the relay does so because the clock cannot be read. If it brings entries
the store is as the call leaves it under any clock, but for the ledger, which is as before; any
other call leaves the whole store as it was. From then on, whatever the settings, nothing changes
any more: a call that gets as far as the store fails for the lock, and a call that does not comes to
the same on every relay. A deep clean is told its time and does not ask the clock. -/
theorem crash_tears_nothing {w : Setting} {call : Call} {r : Relay}
    (hclean : ∀ now, call ≠ .deepClean now) (h : (call.perform w r).1 = .crash) :
    let after := (call.perform w r).2
    w.clock.seconds < 0 ∧
    (call.bringsEntries = false → after.store = r.store) ∧
    (call.bringsEntries → after.store.usage = r.store.usage ∧
      ∀ clock track environment refusal,
        let w' : Setting := { w.bookkeeping track environment refusal with clock }
        (call.perform w' r).2.store.besidesUsage = after.store.besidesUsage ∧
          (track = false ∨ w'.Noting → (call.perform w' r).1.answered)) ∧
    RelayError.poisonedLock.kind = .internal ∧
    ∀ turns : List Turn, after.run turns = after ∧ ∀ t : Turn,
      (t.call.Reaches t.setting → t.take (after.run turns) = (.failure .poisonedLock, after)) ∧
      (¬t.call.Reaches t.setting → ∃ o, ∀ anywhere, t.take anywhere = (o, anywhere)) := by
  intro after
  have hcrash : call.perform w r = (.crash, after) := Prod.ext h rfl
  have hlock : r.poisoned = false ∧ after.poisoned = true := by
    cases hbrings : call.bringsEntries with
    | true =>
      obtain ⟨hfree, hpoisoned, -⟩ := Call.crash_of_bringsEntries hbrings hcrash
      exact ⟨hfree, hpoisoned⟩
    | false =>
      obtain ⟨hfree, hafter⟩ := perform_crashes hbrings hclean r after hcrash
      exact ⟨hfree, congrArg Relay.poisoned hafter⟩
  refine ⟨?_, fun hbrings => ?_, fun hbrings => ?_, rfl, fun turns => ?_⟩
  · by_contra hreadable
    have hsame := Turn.poisoned_take ⟨w, call⟩ r (Int.not_lt.1 hreadable)
    exact Bool.false_ne_true (hlock.1.symm.trans (hsame.symm.trans hlock.2))
  · obtain ⟨-, hafter⟩ := perform_crashes hbrings hclean r after hcrash
    exact (congrArg Relay.store hafter).trans rfl
  · obtain ⟨-, -, hstore⟩ := Call.crash_of_bringsEntries hbrings hcrash
    exact hstore
  · rw [poisoned_stays hlock.2]
    refine ⟨rfl, fun t => ?_⟩
    have hgated := perform_gated t.setting t.call
    exact ⟨fun hreaches => hgated.fails hreaches after hlock.2, hgated.passes⟩

/-- A submit stores its entry and crashes over its note. Under a clock that shows 1970 it answers. A
sweep finds the lock poisoned. -/
theorem crash_tears_nothing_of_submit :
    let w : Setting := { (default : Setting) with
      clock := ⟨-1, 0, by decide, by decide, by decide, by decide⟩ }
    let w' : Setting := { w.bookkeeping true .development none with clock := default }
    let r := run {} [⟨default, .register ⟨"ada", "desk", false⟩ .unknown⟩]
    let call : Call := .submit [⟨[1], [2], "desk", "ada", default, "e", 0, false⟩] none .unknown
    let after := (call.perform w r).2
    (call.perform w r).1 = .crash ∧ after.store.usage = r.store.usage ∧
      (call.perform w' r).1.answered ∧ (call.perform w' r).2.store.entries.length = 1 ∧
      (call.perform w' r).2.store.besidesUsage = after.store.besidesUsage ∧
      (Turn.mk default .sweep).take (after.run [⟨default, .ping⟩, ⟨default, .wipe⟩]) =
        (.failure .poisonedLock, after) := by
  intro w w' r call after
  have hcrash : (call.perform w r).1 = .crash := by
    unfold call
    cbv
  have hstored : (call.perform w' r).2.store.entries.length = 1 := by
    unfold call
    cbv
  obtain ⟨-, -, hbrings, -, hlater⟩ := crash_tears_nothing (by simp [call]) hcrash
  obtain ⟨husage, hother⟩ := hbrings rfl
  obtain ⟨hsame, hanswers⟩ := hother default true .development none
  obtain ⟨-, hturns⟩ := hlater [⟨default, .ping⟩, ⟨default, .wipe⟩]
  have hnoting : w'.Noting := ⟨by decide, by decide, rfl⟩
  exact ⟨hcrash, husage, hanswers (.inr hnoting), hstored, hsame, (hturns _).1 trivial⟩

end Relay

end HistoryRelay
