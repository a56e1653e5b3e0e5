import HistoryRelay.Http.Service
import HistoryRelay.Proofs.Failure

/-! Calls that are turned down. Main statement: whatever a call asks, if it is turned down it leaves
everything as it was, and so does every request that is answered with a client error. -/
namespace HistoryRelay
open Step

/-- The call is turned down, for what it asks or for what the relay holds. -/
def ErrorKind.isRejection : ErrorKind → Bool
  | .badRequest | .precondition => true
  | _ => false

/-- The step turns nothing down. -/
abbrev Step.Accepting {σ α : Type} (a : Step σ α) : Prop := Never (·.isRejection = true) a

/-- Turned down, the step leaves the state as it was. -/
abbrev Step.Harmless {σ α : Type} (a : Step σ α) : Prop := IntactOn (·.isRejection = true) a

namespace Store
variable {α : Type} (refusals : Refusals)

theorem permit_accepting (st : Statement) : Accepting (permit refusals st : Step Store Unit) :=
  permit_never refusals (by decide) st

theorem look_accepting (table : Table) (f : Store → α) :
    Accepting (do permit refusals (.select table); return f (← get) : Step Store α) :=
  look_never refusals (by decide) table f

theorem change_at_accepting (c : Change) (st : Store → Statement) (f : Store → α) :
    Accepting (do
      let s ← get
      permit refusals (st s)
      update c.apply
      return f s : Step Store α) :=
  change_at_never refusals (by decide) c st f

theorem deleteEntries_accepting (which : EntryRow → Bool) :
    Accepting (deleteEntries refusals which) :=
  change_at_accepting refusals (.dropEntries which) _ _

/-- A tombstone that cannot be read is a fault of the store. -/
theorem deletionRequestsFor_accepting (user device : String) :
    Accepting (deletionRequestsFor refusals user device) := by
  refine .bind (permit_accepting refusals _) fun _ => .bind .get fun s => .ofExcept fun e he => ?_
  obtain ⟨row, -, hrow⟩ := error_of_mapM he
  unfold DeletionRow.toRequest at hrow
  cases hm : Message.listOfJson row.messages with
  | ok messages =>
    rw [hm] at hrow
    cases hrow
  | error fault =>
    rw [hm] at hrow
    cases hrow
    decide

theorem deleteNamed_accepting (user : String) (messages : List Message) :
    Accepting (deleteNamed refusals user messages) := by
  induction messages with
  | nil => exact .pure 0
  | cons m rest ih =>
    unfold deleteNamed
    split
    · exact .bind (deleteEntries_accepting refusals _) fun _ => .bind ih fun _ => .pure _
    · exact .bind (.pure 0) fun _ => .bind ih fun _ => .pure _

end Store

namespace Relay
variable {w : Setting}

theorem noteUsage_accepting (user device : String) (client : Client) (n : Nat) (isQuery : Bool) :
    Accepting (noteUsage w user device client n isQuery) := by
  intro s e h
  obtain ⟨-, hkind, -⟩ := noteUsage_failure (Prod.ext h rfl)
  rw [hkind]
  decide

theorem requireId_of_answer {σ : Type} {name value : String} {s : σ} {v : Unit}
    (h : requireId name value s = (.answer v, s)) : value ≠ "" := by
  rintro rfl
  cases h

theorem applyDeletions_accepting {user : String} (huser : user ≠ "") (device : String) :
    Accepting (applyDeletions w user device) := by
  refine .bind_of_answer (Store.deletionRequestsFor_accepting _ _ _) fun s requests t hs => ?_
  have hall := Store.user_of_deletionRequestsFor hs
  clear hs
  induction requests with
  | nil => exact .pure ()
  | cons q rest ih =>
    refine .bind ?_ fun _ => ih fun q' hq => hall q' (List.mem_cons_of_mem q hq)
    have hq : q.user ≠ "" := (hall q List.mem_cons_self).symm ▸ huser
    unfold Store.deleteMatching
    rw [if_neg hq]
    exact Store.deleteNamed_accepting _ _ _

/-- Past its checks a query turns nothing down, though it has noted itself by then. -/
theorem query_harmless (user device : String) (reason : Option String) (client : Client) :
    Harmless (query w user device reason client) := by
  have hcount : Accepting (countRead w user device) :=
    .bind (locked_never (by decide) (Store.change_at_accepting _ (.bumpEntries user device) _ _))
      fun _ => .pure ()
  have hread : Harmless (readPending w user device reason client) := by
    refine .after_answer (requireId_moves _ _) fun r _ hid => .after (requireId_moves _ _) fun _ =>
      locked_intactOn (.of_never ?_)
    have happly : Accepting (do
        transaction (applyDeletions w user device)
        Store.pendingEntries w.refusals user device w.config.queryReadLimit) :=
      .bind (.transaction (applyDeletions_accepting (requireId_of_answer hid) device)) fun _ =>
        Store.look_accepting _ _ _
    exact .ite happly (.bind (noteUsage_accepting _ _ _ _ _) fun _ => happly)
  unfold query
  refine hread.bind_never fun found => .ite ?_ (.bind hcount fun _ => .pure found)
  exact .bind (.rescue fun _ => .pure ()) fun _ => .pure found

theorem bootstrap_harmless (user device : String) (client : Client) :
    Harmless (bootstrap w user device client) :=
  .after (requireId_moves _ _) fun _ => .after (requireId_moves _ _) fun _ =>
    locked_intactOn (.of_never (.bind (noteUsage_accepting _ _ _ _ _) fun _ =>
      Store.look_accepting _ _ _))

theorem recordFeedback_harmless (f : Feedback) : Harmless (recordFeedback w f) :=
  .after (requireId_moves _ _) fun _ => locked_intactOn
    (.of_intact (change_dated_intact _ (fun i => .addFeedback ⟨f.user, i, f.feedback⟩) _ _))

theorem sweep_accepting : Accepting (sweep w) :=
  locked_never (by decide)
    (.bind (Store.deleteEntries_accepting _ _) fun _ =>
      .bind (Store.change_at_accepting _ (.dropTombstones _) _ _) fun _ =>
        .bind (Store.change_at_accepting _ (.dropDumps _) _ _) fun _ => .pure _)

theorem wipeEntries_harmless : Harmless (wipeEntries w) := by
  unfold wipeEntries
  split
  · exact .of_never (locked_never (by decide) (Store.deleteEntries_accepting _ _))
  · exact fun r e r' h _ => (congrArg Prod.snd h).symm

theorem locked_harmless_of_idle {α : Type} {a : Step Store α}
    (h : Orderly w (fun _ => False) (locked a)) : Harmless (locked a) := by
  intro r e r' hr _
  have hleads := (h.moves r).1
  rw [hr] at hleads
  have hsame : r'.store = r.store := hleads.frame (·) fun _ _ hc => hc.elim
  obtain ⟨-, -, rfl⟩ | ⟨-, s, -, rfl⟩ := locked_eq_failure.1 hr
  · rfl
  · rw [show s = r.store from hsame]

end Relay

theorem Undertaking.perform_harmless {w : Setting} {u : Undertaking} (hu : u.Sound) :
    Harmless (u.perform w fun _ => none) := by
  intro r e r' h hkind
  obtain ⟨-, hsame⟩ | ⟨answer, s, -, -, -, hnote, -⟩ := failure_cases hu h
  · exact hsame
  · obtain ⟨-, hnote, -⟩ := bookkeep_failure hnote
    rw [hnote] at hkind
    cases hkind

theorem Call.perform_harmless (w : Setting) (call : Call) : Harmless (call.perform w) := by
  cases hu : call.undertaking? w with
  | some u =>
    rw [← Relay.perform_of_undertaking hu]
    exact Undertaking.perform_harmless (Relay.undertaking_sound hu)
  | none =>
    cases call with
    | submit batch source client =>
      cases batch with
      | nil => exact .of_never (.map _ (.pure _))
      | cons first rest => cases hu
    | query user device reason client => exact .map _ (Relay.query_harmless _ _ _ _)
    | bootstrap user device client => exact .map _ (Relay.bootstrap_harmless _ _ _)
    | recordFeedback f => exact .map _ (Relay.recordFeedback_harmless f)
    | statistics => exact .map _ (Relay.locked_harmless_of_idle (Relay.statistics_orderly w))
    | usageStatistics =>
      exact .map _ (Relay.locked_harmless_of_idle (Relay.usageStatistics_orderly w))
    | wipe => exact .map _ Relay.wipeEntries_harmless
    | ping => exact .map _ (Relay.locked_harmless_of_idle (Relay.ping_orderly w))
    | sweep => exact .of_never (.map _ Relay.sweep_accepting)
    | _ => cases hu

namespace Http
variable {w : Setting} {r : Relay}

theorem kind_of_status {e : RelayError} (h : e.status < 500) : e.kind = .badRequest := by
  by_contra hkind
  rw [RelayError.status, if_neg hkind] at h
  exact absurd h (by decide)

/-- With a client error the relay is as it was. -/
def Unchanged (r : Relay) (out : Response × Relay) : Prop :=
  400 ≤ out.1.status → out.1.status < 500 → out.2 = r

theorem respond_unchanged (e : Endpoint) (q : Request) : Unchanged r (respond w e q r) := by
  unfold respond
  cases callOf w.config e q with
  | error fault => exact fun _ _ => rfl
  | ok call =>
    dsimp only
    cases hout : call.perform w r with
    | mk o r' =>
      cases o with
      | answer a => exact fun hclient _ => absurd hclient (show ¬400 ≤ 200 by decide)
      | failure fault =>
        intro _ hserver
        have hkind := kind_of_status hserver
        exact call.perform_harmless w r fault r' hout (by rw [hkind]; rfl)
      | crash => exact fun _ hserver => absurd hserver (show ¬503 < 500 by decide)

theorem dispatch_unchanged (q : Request) : Unchanged r (dispatch w q r) := by
  unfold dispatch
  split
  · exact fun _ _ => rfl
  · split
    · exact fun _ _ => rfl
    · cases Endpoint.ofPath? q.path with
      | none => exact fun _ _ => rfl
      | some e =>
        dsimp only
        split
        · exact respond_unchanged e q
        · exact fun _ _ => rfl

/-- Holding the body back changes neither the status nor the relay. -/
theorem handle_unchanged (q : Request) : Unchanged r (handle w q r) := by
  have h := dispatch_unchanged (w := w) (r := r) q
  unfold handle
  cases hout : dispatch w q r with
  | mk response r' =>
    rw [hout] at h
    dsimp only
    split
    · exact h
    · exact h

/-- A call that fails for what it asks or for what the relay holds leaves the relay as it was,
wherever it fails, and so does every request that is answered with a client error. -/
theorem rejection_changes_nothing (w : Setting) (r : Relay) :
    (∀ (call : Call) (e : RelayError) (r' : Relay), call.perform w r = (.failure e, r') →
      e.kind = .badRequest ∨ e.kind = .precondition → r' = r) ∧
    ∀ q : Request, 400 ≤ (handle w q r).1.status → (handle w q r).1.status < 500 →
      (handle w q r).2 = r := by
  refine ⟨fun call e r' h hkind => call.perform_harmless w r e r' h ?_, handle_unchanged⟩
  obtain hkind | hkind := hkind
  · rw [hkind]
    rfl
  · rw [hkind]
    rfl

/-- A device cannot be uninstalled when the clock is past what can be stored. Its entry, gone by the
time that shows, is back. -/
theorem rejection_changes_nothing_of_uninstall :
    let turns : List Turn := [⟨default, .register ⟨"ada", "desk", false⟩ .unknown⟩,
      ⟨default, .submit [⟨[1], [2], "desk", "ada", default, "e", 0, false⟩] none .unknown⟩]
    let far : Timestamp := ⟨100000000000, 0, by decide, by decide, by decide, by decide⟩
    let w : Setting := ⟨{}, far, fun _ => none⟩
    let call : Call := .uninstall "ada" "desk"
    let q : Request := ⟨"POST", "/api/v1/uninstall?user_id=ada&device_id=desk", [], []⟩
    (Relay.run {} turns).store.entries.map (·.encryptedId) = ["e"] ∧
      (call.perform w (Relay.run {} turns)).1 = .failure (.unstorableTime far) ∧
      (call.perform w (Relay.run {} turns)).2 = Relay.run {} turns ∧
      (handle w q (Relay.run {} turns)).1.status = 400 ∧
        (handle w q (Relay.run {} turns)).2 = Relay.run {} turns := by
  intro turns far w call q
  have hentries : (Relay.run {} turns).store.entries.map (·.encryptedId) = ["e"] := by cbv
  have hout : (Call.perform w (.uninstall "ada" "desk") (Relay.run {} turns)).1 =
      .failure (.unstorableTime far) := by cbv
  have hpath : Endpoint.ofPath? q.path = some .uninstall := by cbv
  have hcall : callOf w.config .uninstall q = .ok call := by cbv
  have hlength : (announcedLength? q.headers).any (w.config.maxPayload.val < ·) = false := by cbv
  have hallows : Endpoint.uninstall.allows q.method = true := by cbv
  have hmethod : q.method ≠ "OPTIONS" := by decide
  have hhead : q.method ≠ "HEAD" := by decide
  have hstatus : (handle w q (Relay.run {} turns)).1.status = 400 := by
    obtain ⟨r, hperform⟩ : ∃ r, call.perform w (Relay.run {} turns) =
        (.failure (.unstorableTime far), r) := ⟨_, Prod.ext hout rfl⟩
    simp only [handle, dispatch, hlength, hmethod, hhead, hpath, hallows, respond, hcall, hperform]
    rfl
  obtain ⟨hcalls, hrequests⟩ := rejection_changes_nothing w (Relay.run {} turns)
  exact ⟨hentries, hout, hcalls call _ _ (Prod.ext hout rfl) (.inl rfl), hstatus,
    hrequests q (by rw [hstatus]) (by rw [hstatus]; decide)⟩

end Http

end HistoryRelay
