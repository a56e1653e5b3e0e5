import HistoryRelay.Proofs.Registry

/-! Submits store one copy of each entry for each active device. Main statement: once a submit is
committed, the entry table has grown by exactly these copies, device by device and in the order
of the batch, and nothing else in it has changed. -/
namespace HistoryRelay
open Step

/-- Whether a call is past its transaction: what goes wrong after that is bookkeeping, or a clock
that cannot be read. -/
def Outcome.committed {α : Type} : Outcome α → Bool
  | .answer _ => true
  | .failure e => e.kind = .nonCritical
  | .crash => true

theorem Step.map_committed {σ α β : Type} (f : α → β) (a : Step σ α) (s : σ) :
    ((f <$> a) s).1.committed = (a s).1.committed := by
  rw [map_eq, bind_apply]
  cases a s with
  | mk o t => cases o <;> rfl

namespace Entries

theorem length_numbered (last : Nat) (rows : List EntryRow) :
    (numbered last rows).length = rows.length := by
  induction rows generalizing last with
  | nil => rfl
  | cons r rest ih => rw [numbered, List.length_cons, ih, List.length_cons]

theorem numbered_append (last : Nat) (rows more : List EntryRow) :
    numbered last (rows ++ more) = numbered last rows ++ numbered (last + rows.length) more := by
  induction rows generalizing last with
  | nil => rfl
  | cons r rest ih =>
    have hl : last + 1 + rest.length = last + (r :: rest).length := by simp; omega
    rw [List.cons_append, numbered, ih, numbered, hl, List.cons_append]

theorem length_fanOut (entries : List (Entry × Instant)) (origin : Option String)
    (devices : List String) :
    (fanOut entries origin devices).length = entries.length * devices.length := by
  induction devices with
  | nil => simp [fanOut]
  | cons device rest ih =>
    simp only [fanOut, List.flatMap_cons, List.length_append, List.length_map,
      List.length_cons] at ih ⊢
    rw [ih, Nat.mul_succ, Nat.add_comm]

end Entries

theorem Change.addEntries_append (rows more : List EntryRow) (s : Store) :
    (addEntries (rows ++ more)).apply s = (addEntries more).apply ((addEntries rows).apply s) := by
  simp only [apply, Entries.numbered_append, List.append_assoc, List.length_append, Nat.add_assoc]

namespace Store
variable {refusals : Refusals} {s t : Store}

/-- However rows are cut into statements, they are added as a whole. -/
theorem insertRuns_answer {runs : List (List EntryRow)} {n : Nat}
    (h : insertRuns refusals runs s = (.answer n, t)) :
    t = (Change.addEntries runs.flatten).apply s := by
  induction runs generalizing s n with
  | nil =>
    obtain ⟨-, rfl⟩ := pure_eq_answer.1 h
    simp [Change.apply, Entries.numbered]
  | cons run rest ih =>
    simp only [insertRuns, bind_eq_answer, permit_eq_answer, update_eq_answer] at h
    obtain ⟨_, s₁, hl, _, s₂, ⟨-, h₂⟩, _, s₃, h₃, m, s₄, hr, hp⟩ := h
    obtain ⟨-, h₄⟩ := pure_eq_answer.1 hp
    have h₁ : s₁ = s := by
      have hlooks := (limitRows_looks run.length).moves s
      rw [hl] at hlooks
      exact hlooks.symm
    subst h₁ h₂ h₃ h₄
    rw [ih hr, List.flatten_cons, Change.addEntries_append]
    rfl

theorem insertForDevices_answer {entries : List Entry} {devices : List String}
    {origin : Option String} {chunk n : Nat}
    (h : insertForDevices refusals entries devices origin chunk s = (.answer n, t)) :
    ∃ dates, entries.map (·.time.toInstant?) = dates.map some ∧
      t = (Change.addEntries (Entries.fanOut (entries.zip dates) origin devices)).apply s := by
  simp only [insertForDevices, bind_eq_answer, storedTimes_eq_answer] at h
  obtain ⟨dates, _, ⟨hd, rfl⟩, hr⟩ := h
  refine ⟨dates, by simpa [Function.comp_def] using hd, ?_⟩
  rw [insertRuns_answer hr, Entries.flatten_runs]

end Store

namespace Relay
variable {α : Type} {w : Setting} {r : Relay}

/-- Behind a committed transaction only the note of the call is left to be made. -/
theorem locked_committed {R : Store → Store → Prop} {a : Step Store α} (ha : Steady R a)
    {user device : String} {client : Client} {n : Nat} {isQuery : Bool}
    (h : (locked (do
      let v ← transaction a
      noteUsage w user device client n isQuery
      pure v) r).1.committed = true) :
    ∃ v s, a r.store = (.answer v, s) ∧
      Leads (fun c => ∃ e time, c = .recordUsage e time) s (locked (do
        let v ← transaction a
        noteUsage w user device client n isQuery
        pure v) r).2.store := by
  cases hp : r.poisoned with
  | true => simp [locked_poisoned _ hp, Outcome.committed, RelayError.kind] at h
  | false =>
    rw [(locked_apply _ hp).1] at h
    rw [(locked_apply _ hp).2]
    cases hs : a r.store with
    | mk o s =>
      cases o with
      | answer v =>
        rw [bind_answer (transaction_answer hs)] at h ⊢
        refine ⟨v, s, rfl, Moves.bind ?_ (fun _ => .pure v) s⟩
        exact (noteUsage_tame w user device client n isQuery fun e time _ => ⟨e, time, rfl⟩).moves
      | failure e =>
        have he := ha.critical r.store e (by rw [hs])
        have ht : transaction a r.store = (.failure e, r.store) := by simp [transaction, hs]
        rw [bind_failure ht] at h
        simp [Outcome.committed, he] at h
      | crash => exact absurd (congrArg Prod.fst hs) (ha.calm r.store)

theorem distribute_answer {user : String} {batch : List Entry} {source : Option String}
    {client : Client} {reply : SubmitReply} {s t : Store}
    (h : distribute w user batch source client s = (.answer reply, t)) :
    ∃ dates, batch.map (·.time.toInstant?) = dates.map some ∧
      Leads (fun c => ∃ u d, c = .bumpDumps u d ∨ c = .bumpTombstones u d)
        ((Change.addEntries (Entries.fanOut (batch.zip dates) source
          ((Devices.activeOf user s.devices).map (·.device)))).apply s) t := by
  unfold distribute at h
  obtain ⟨active, s₁, hactive, h⟩ := bind_eq_answer.1 h
  obtain ⟨-, rfl, rfl⟩ := Store.activeDevices_eq_answer.1 hactive
  split at h
  · exact absurd h fail_ne_answer
  · obtain ⟨n, s₂, hinsert, h⟩ := bind_eq_answer.1 h
    obtain ⟨dates, hdates, rfl⟩ := Store.insertForDevices_answer hinsert
    refine ⟨dates, hdates, ?_⟩
    cases source with
    | none =>
      obtain ⟨-, rfl⟩ := pure_eq_answer.1 h
      exact refl_of _ _
    | some source =>
      have hlist : Moves (Leads fun c => ∃ u d, c = .bumpDumps u d ∨ c = .bumpTombstones u d)
          (if client.wantsRequests then pendingRequests w user source else pure .bare) :=
        .ite (pendingRequests_steady w user source ⟨_, _, .inl rfl⟩ ⟨_, _, .inr rfl⟩).moves
          (.pure _)
      generalize (Change.addEntries _).apply s₁ = s₂ at h ⊢
      dsimp only at h
      have ht := hlist s₂
      rwa [h] at ht

/-- A submit is of one user's entries, and what it does besides adding rows of the fan-out is in
other tables. -/
theorem submit_committed {first : Entry} {rest : List Entry} {source : Option String}
    {client : Client} (h : (submit w (first :: rest) source client r).1.committed = true) :
    (∀ e ∈ first :: rest, e.user = first.user) ∧
    ∃ dates, (first :: rest).map (·.time.toInstant?) = dates.map some ∧
      Leads (fun c => (∃ u d, c = .bumpDumps u d) ∨ (∃ u d, c = .bumpTombstones u d) ∨
          ∃ e time, c = .recordUsage e time)
        ((Change.addEntries (Entries.fanOut ((first :: rest).zip dates) (source.filter (· ≠ ""))
          ((Devices.activeOf first.user r.store.devices).map (·.device)))).apply r.store)
        (submit w (first :: rest) source client r).2.store := by
  unfold submit at h ⊢
  by_cases hid : first.user = ""
  · have hbad : requireId "user_id" first.user r = (.failure (.emptyId "user_id"), r) := by
      simp [requireId, hid, fail]
    simp only [bind_failure hbad] at h
    exact absurd h (by decide)
  have hok : requireId "user_id" first.user r = (.answer (), r) := by
    simp [requireId, hid, pure_apply]
  simp only [bind_answer hok] at h ⊢
  cases hmixed : rest.find? (·.user ≠ first.user) with
  | some other =>
    rw [hmixed] at h
    simp [fail, Outcome.committed, RelayError.kind] at h
  | none =>
    rw [hmixed] at h
    have hsteady : Steady (Leads fun _ => True)
        (distribute w first.user (first :: rest) (source.filter (· ≠ "")) client) :=
      distribute_steady w _ _ _ _ (fun _ _ => trivial) (fun _ _ => trivial) fun _ _ => trivial
    obtain ⟨reply, s, hs, hnote⟩ := locked_committed hsteady h
    obtain ⟨dates, hdates, hbumps⟩ := distribute_answer hs
    refine ⟨by simpa using hmixed, dates, hdates,
      trans_of (Leads _) (hbumps.mono ?_) (hnote.mono ?_)⟩
    · rintro c ⟨u, d, rfl | rfl⟩
      · exact .inl ⟨u, d, rfl⟩
      · exact .inr (.inl ⟨u, d, rfl⟩)
    · exact fun c hc => .inr (.inr hc)

/-- A committed submit adds one row for each entry and each active device of the user, device
after device in order of registration, and each device's rows in the order of the batch. The row
says what the entry says, except for what concerns its own way. -/
theorem submit_fans_out (turns : List Turn) (w : Setting) (first : Entry) (rest : List Entry)
    (source : Option String) (client : Client)
    (h : (submit w (first :: rest) source client (run {} turns)).1.committed = true) :
    let before := (run {} turns).store
    let after := (submit w (first :: rest) source client (run {} turns)).2.store
    ∃ (targets : List DeviceRow) (dates : List Instant),
      (∀ d, d ∈ targets ↔ d ∈ before.devices ∧ d.user = first.user ∧ d.active = true) ∧
      targets.Pairwise DeviceRow.Before ∧
      (first :: rest).map (·.time.toInstant?) = dates.map some ∧
      after.entries = before.entries ++ Entries.numbered before.lastEntry
        (targets.flatMap fun d => ((first :: rest).zip dates).map fun (e, date) => {
          id := 0
          user := e.user
          device := d.device
          encryptedId := e.encryptedId
          data := e.data
          nonce := e.nonce
          date := date
          readCount := 0
          fromSameDevice := source = some d.device && d.device ≠ "" }) ∧
      after.entries.length = before.entries.length + (first :: rest).length *
        before.devices.countP (fun d => d.user = first.user && d.active) ∧
      after.devices = before.devices ∧ after.feedback = before.feedback := by
  intro before after
  obtain ⟨-, dates, hdates, hleads⟩ := submit_committed h
  have hsame := hleads.frame (fun s => (s.entries, s.devices, s.feedback)) fun c s hc => by
    obtain ⟨_, _, rfl⟩ | ⟨_, _, rfl⟩ | ⟨_, _, rfl⟩ := hc <;> rfl
  simp only [Prod.mk.injEq] at hsame
  obtain ⟨hentries, hdevices, hfeedback⟩ := hsame
  refine ⟨Devices.activeOf first.user before.devices, dates, fun d => Devices.mem_activeOf,
    Devices.activeOf_pairwise (keyed_run turns), hdates, ?_, ?_, hdevices, hfeedback⟩
  · have hself (d : DeviceRow) : decide (source.filter (· ≠ "") = some d.device) =
        (source = some d.device && d.device ≠ "") := by
      rw [← Bool.decide_and]
      exact decide_eq_decide.2 (by simp [Option.filter_eq_some_iff])
    simpa [Change.apply, Entries.fanOut, List.flatMap_map, EntryRow.copy, hself] using hentries
  · have hlength := congrArg List.length hentries
    have hzip : dates.length = (first :: rest).length := by
      simpa using (congrArg List.length hdates).symm
    simpa [Change.apply, Entries.length_numbered, Entries.length_fanOut,
      Devices.length_activeOf, hzip] using hlength

/-- Two devices get a row each, whatever else the entry says of its way. -/
theorem submit_fans_out_to_two :
    let turns := [⟨default, .register ⟨"ada", "desk", false⟩ .unknown⟩,
      ⟨default, .register ⟨"ada", "lap", false⟩ .unknown⟩]
    let entry : Entry := ⟨[1], [2], "elsewhere", "ada", default, "e", 7, true⟩
    (submit default [entry] (some "lap") .unknown (run {} turns)).1.committed = true ∧
      (submit default [entry] (some "lap") .unknown (run {} turns)).2.store.entries.length = 2 := by
  intro turns entry
  have h : (submit default [entry] (some "lap") .unknown (run {} turns)).1.committed = true := by
    cbv
  obtain ⟨_, _, _, _, _, _, hlength, _⟩ :=
    submit_fans_out turns default entry [] (some "lap") .unknown h
  refine ⟨h, hlength.trans ?_⟩
  cbv

end Relay

end HistoryRelay
