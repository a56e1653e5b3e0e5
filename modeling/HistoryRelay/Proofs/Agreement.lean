import HistoryRelay.Proofs.Share
import HistoryRelay.Proofs.Undertaking

/-! Calls that see one user's share of the store only. Main statement: from stores that a relation
binds in the share of a user a call for that user comes to the same outcome and to related stores,
under settings that differ in bookkeeping at most, as far as its note does. -/
namespace HistoryRelay
open Step

/-- From related states both steps come to the same outcome and to related states. -/
def Step.Matches {σ α : Type} (R : σ → σ → Prop) (a b : Step σ α) : Prop :=
  ∀ s t, R s t → (a s).1 = (b t).1 ∧ R (a s).2 (b t).2

/-- The step does not tell related states apart. -/
abbrev Step.Agrees {σ α : Type} (R : σ → σ → Prop) (a : Step σ α) : Prop := Matches R a a

namespace Step.Matches
variable {σ α β : Type} {R : σ → σ → Prop}

theorem pure (v : α) : Agrees R (Pure.pure v : Step σ α) := fun _ _ h => ⟨rfl, h⟩

theorem fail (e : RelayError) : Agrees R (Step.fail e : Step σ α) := fun _ _ h => ⟨rfl, h⟩

theorem crash : Agrees R (Step.crash : Step σ α) := fun _ _ h => ⟨rfl, h⟩

theorem outcome {a b : Step σ α} (h : Matches R a b) {s t : σ} (hst : R s t) :
    ∃ o s' t', a s = (o, s') ∧ b t = (o, t') ∧ R s' t' := by
  obtain ⟨hout, hstate⟩ := h s t hst
  exact ⟨(a s).1, (a s).2, (b t).2, rfl, Prod.ext hout.symm rfl, hstate⟩

/-- What follows has to match for what the first of both can answer only. -/
theorem bind_of_answer {a b : Step σ α} {next next' : α → Step σ β} (h : Matches R a b)
    (hn : ∀ s v s', a s = (.answer v, s') → Matches R (next v) (next' v)) :
    Matches R (a >>= next) (b >>= next') := by
  intro s t hst
  obtain ⟨o, s', t', hs, ht, hnext⟩ := h.outcome hst
  cases o with
  | answer v =>
    rw [bind_answer hs, bind_answer ht]
    exact hn s v s' hs s' t' hnext
  | failure e =>
    rw [bind_failure hs, bind_failure ht]
    exact ⟨rfl, hnext⟩
  | crash =>
    rw [bind_crash hs, bind_crash ht]
    exact ⟨rfl, hnext⟩

theorem bind {a b : Step σ α} {next next' : α → Step σ β} (h : Matches R a b)
    (hn : ∀ v, Matches R (next v) (next' v)) : Matches R (a >>= next) (b >>= next') :=
  h.bind_of_answer fun _ v _ _ => hn v

theorem map {a b : Step σ α} (f : α → β) (h : Matches R a b) :
    Matches R (f <$> a) (f <$> b) := by
  rw [map_eq, map_eq]
  exact bind h fun v => pure (f v)

theorem ofExcept (x : Except RelayError α) : Agrees R (Step.ofExcept x : Step σ α) := by
  cases x with
  | error e => exact fail e
  | ok v => exact pure v

theorem ofOption (e : RelayError) (o : Option α) : Agrees R (Step.ofOption e o : Step σ α) := by
  cases o with
  | none => exact fail e
  | some v => exact pure v

theorem ite {c : Prop} [Decidable c] {a b a' b' : Step σ α} (ha : Matches R a a')
    (hb : Matches R b b') : Matches R (if c then a else b) (if c then a' else b') := by
  split
  · exact ha
  · exact hb

theorem reads {f : σ → α} {k : α → Step σ β} (hf : ∀ s t, R s t → f s = f t)
    (hn : ∀ v, Agrees R (k v)) : Agrees R (get >>= fun s => k (f s)) := by
  intro s t hst
  have hread (s : σ) : (get >>= fun s => k (f s)) s = k (f s) s := rfl
  rw [hread, hread, hf s t hst]
  exact hn (f t) s t hst

theorem rescue {a b : Step σ α} {after : RelayError → Step σ α} (h : Matches R a b)
    (hn : ∀ e, Agrees R (after e)) : Matches R (Step.rescue a after) (Step.rescue b after) := by
  intro s t hst
  obtain ⟨o, s', t', hs, ht, hnext⟩ := h.outcome hst
  unfold Step.rescue
  rw [hs, ht]
  cases o with
  | answer v => exact ⟨rfl, hnext⟩
  | failure e => exact hn e s' t' hnext
  | crash => exact ⟨rfl, hnext⟩

theorem transaction {a b : Step σ α} (h : Matches R a b) :
    Matches R (Step.transaction a) (Step.transaction b) := by
  intro s t hst
  obtain ⟨o, s', t', hs, ht, hnext⟩ := h.outcome hst
  unfold Step.transaction
  rw [hs, ht]
  cases o with
  | answer v => exact ⟨rfl, hnext⟩
  | failure e => exact ⟨rfl, hst⟩
  | crash => exact ⟨rfl, hst⟩

end Step.Matches

namespace Store
variable (user : String)

/-- Both stores have the same rows of the user, their numbers aside. -/
def Alike (s t : Store) : Prop := s.share user = t.share user

/-- The function reads the user's share only, and nothing of the usage ledger. -/
def Private {α : Type} (f : Store → α) : Prop := ∀ s, f (s.share user).besidesUsage = f s

/-- Related stores have the same rows of the user in all tables but the usage ledger, their numbers
aside, and stay related under any change that does not go by numbers. -/
structure Binds (R : Store → Store → Prop) : Prop where
  share : ∀ {s t}, R s t → (s.share user).besidesUsage = (t.share user).besidesUsage
  keeps : ∀ {c : Change} {s t}, c.Blind → R s t → R (c.apply s) (c.apply t)

theorem binds_alike : Binds user (Alike user) :=
  ⟨fun h => congrArg besidesUsage h, fun hc h => Change.alike user hc h⟩

variable {user} {α : Type}

theorem Binds.reads {R : Store → Store → Prop} (hR : Binds user R) {f : Store → α}
    (hf : Private user f) (s t : Store) (h : R s t) : f s = f t := by
  rw [← hf s, ← hf t, hR.share h]

section Rows
variable {β : Type} [Owned β] {q : β → Bool} (hq : ∀ b, q b = true → Owned.user b = user)
include hq

theorem filter_own (rows : List β) : (own user rows).filter q = rows.filter q := by
  rw [own, List.filter_filter]
  refine List.filter_congr fun b _ => ?_
  cases hqb : q b with
  | true => rw [decide_eq_true (hq b hqb), Bool.and_self]
  | false => rw [Bool.false_and]

theorem countP_own (rows : List β) : (own user rows).countP q = rows.countP q := by
  rw [List.countP_eq_length_filter, filter_own hq, ← List.countP_eq_length_filter]

variable (hblind : ∀ b, q (Owned.unnumbered b) = q b)
include hblind

theorem filter_shareOf (rows : List β) :
    (shareOf user rows).filter q = (rows.filter q).map Owned.unnumbered := by
  have hsame : q ∘ Owned.unnumbered = q := funext hblind
  rw [shareOf, List.filter_map, hsame, filter_own hq]

theorem countP_shareOf (rows : List β) : (shareOf user rows).countP q = rows.countP q := by
  rw [List.countP_eq_length_filter, filter_shareOf hq hblind, List.length_map,
    ← List.countP_eq_length_filter]

end Rows

section Reading
variable (user)

theorem private_activeOf : Private user fun s => Devices.activeOf user s.devices := fun s => by
  have hown : (own user s.devices).filter (fun d => d.user = user && d.active) =
      s.devices.filter fun d => d.user = user && d.active :=
    filter_own (fun _ hd => of_decide_eq_true (Bool.and_eq_true_iff.1 hd).1) s.devices
  simp only [Devices.activeOf, besidesUsage, share, Devices.shareOf_eq, hown]

theorem private_otherActive (device : String) :
    Private user fun s => Devices.otherActive user device s.devices := fun s => by
  have hown : Devices.otherActive user device (own user s.devices) =
      Devices.otherActive user device s.devices :=
    countP_own (fun _ hd => of_decide_eq_true
      (Bool.and_eq_true_iff.1 (Bool.and_eq_true_iff.1 hd).1).1) s.devices
  simp only [besidesUsage, share, Devices.shareOf_eq, hown]

theorem private_pending (device : String) (limit : Nat) : Private user fun s =>
    (Entries.pending user device limit s.entries).map EntryRow.toEntry := fun s => by
  have hown : Entries.pending user device limit (shareOf user s.entries) =
      (Entries.pending user device limit s.entries).map Owned.unnumbered :=
    filter_shareOf (fun _ hr => (EntryRow.isFor_iff.1
      (Bool.and_eq_true_iff.1 (Bool.and_eq_true_iff.1 hr).1).1).1) (fun r => by rfl) s.entries
  simp only [besidesUsage, share, hown, List.map_map]
  rfl

theorem private_entriesOfUser : Private user fun s =>
    (s.entries.filter (·.user = user)).map EntryRow.toEntry := fun s => by
  have hown : (shareOf user s.entries).filter (·.user = user) =
      (s.entries.filter (·.user = user)).map Owned.unnumbered :=
    filter_shareOf (fun _ hr => of_decide_eq_true hr) (fun r => by rfl) s.entries
  simp only [besidesUsage, share, hown, List.map_map]
  rfl

theorem private_dumpRequestsForPeer (device : String) : Private user fun s =>
    (s.dumpRequests.filter (·.isForPeer user device)).map DumpRow.toRequest := fun s => by
  have hown : (shareOf user s.dumpRequests).filter (·.isForPeer user device) =
      (s.dumpRequests.filter (·.isForPeer user device)).map Owned.unnumbered :=
    filter_shareOf (fun _ hr => of_decide_eq_true (Bool.and_eq_true_iff.1 hr).1) (fun r => by rfl)
      s.dumpRequests
  simp only [besidesUsage, share, hown, List.map_map]
  rfl

theorem private_deletionRequestsFor (device : String) : Private user fun s =>
    (s.deletionRequests.filter (·.isFor user device)).mapM DeletionRow.toRequest := fun s => by
  have hown : (shareOf user s.deletionRequests).filter (·.isFor user device) =
      (s.deletionRequests.filter (·.isFor user device)).map Owned.unnumbered :=
    filter_shareOf (fun _ hr => (DeletionRow.isFor_iff.1 hr).1) (fun r => by rfl)
      s.deletionRequests
  simp only [besidesUsage, share, hown, List.mapM_map]
  rfl

end Reading

section Asking
variable {R : Store → Store → Prop} (refusals : Refusals)

theorem permit_agrees {σ : Type} {R : σ → σ → Prop} (st : Statement) :
    Agrees R (permit refusals st : Step σ Unit) := by
  unfold permit
  split
  · exact .fail _
  · exact .pure _

theorem storedTimes_agrees {σ : Type} {R : σ → σ → Prop} (ts : List Timestamp) :
    Agrees R (storedTimes ts : Step σ _) := by
  induction ts with
  | nil => exact .pure []
  | cons t rest ih => exact .bind (.ofOption _ _) fun i => .bind ih fun is => .pure _

theorem look_agrees (table : Table) {f : Store → α} (hf : ∀ s t, R s t → f s = f t) :
    Agrees R (do permit refusals (.select table); return f (← get) : Step Store α) :=
  .bind (permit_agrees _ _) fun _ => .reads hf .pure

theorem look_or_fail_agrees (table : Table) {f : Store → Except RelayError α}
    (hf : ∀ s t, R s t → f s = f t) : Agrees R
      (do permit refusals (.select table); ofExcept (f (← get)) : Step Store α) :=
  .bind (permit_agrees _ _) fun _ => .reads hf .ofExcept

section Bound
variable (hR : Binds user R)
include hR

theorem update_agrees {c : Change} (hc : c.Blind) : Agrees R (update c.apply) :=
  fun _ _ h => ⟨rfl, hR.keeps hc h⟩

theorem change_counted_agrees {c : Change} (hc : c.Blind) {count : Store → Nat}
    (hcount : ∀ s t, R s t → count s = count t) (st : Nat → Statement) (f : Nat → α) :
    Agrees R (do
      let s ← get
      permit refusals (st (count s))
      update c.apply
      return f (count s) : Step Store α) :=
  .reads (k := fun n => do permit refusals (st n); update c.apply; return f n) hcount
    fun _ => .bind (permit_agrees _ _) fun _ => .bind (update_agrees hR hc) fun _ => .pure _

theorem change_dated_agrees {c : Instant → Change} (hc : ∀ i, (c i).Blind) (t : Timestamp)
    (st : Statement) : Agrees R (do
      let i ← storedTime t
      permit refusals st
      update (c i).apply : Step Store Unit) :=
  .bind (.ofOption _ _) fun i => .bind (permit_agrees _ _) fun _ => update_agrees hR (hc i)

theorem upsertDevice_agrees (d : Device) : Agrees R (upsertDevice refusals d) :=
  change_dated_agrees refusals hR (fun _ => trivial)
    (c := fun i => .register ⟨d.user, d.device, d.registrationIp, i, d.isTestDevice, none⟩) _ _

theorem createDumpRequest_agrees (r : DumpRequest) : Agrees R (createDumpRequest refusals r) :=
  change_dated_agrees refusals hR (c := fun i => .addDump ⟨0, r.user, r.requester, i, 0⟩)
    (fun _ => trivial) _ _

theorem recordUsage_agrees (e : UsageEvent) : Agrees R (recordUsage refusals e) :=
  change_dated_agrees refusals hR (c := .recordUsage e) (fun _ => trivial) _ _

theorem insertFeedback_agrees (f : HistoryRelay.Feedback) : Agrees R (insertFeedback refusals f) :=
  change_dated_agrees refusals hR (c := fun i => .addFeedback ⟨f.user, i, f.feedback⟩)
    (fun _ => trivial) _ _

theorem deleteEntries_agrees {which : EntryRow → Bool} (hown : ∀ r, which r = true → r.user = user)
    (hblind : (Change.dropEntries which).Blind) : Agrees R (deleteEntries refusals which) :=
  change_counted_agrees refusals hR hblind
    (hR.reads fun s => countP_shareOf hown hblind s.entries) (.delete .entries) id

theorem deleteDumpRequests_agrees {which : DumpRow → Bool}
    (hown : ∀ r, which r = true → r.user = user) (hblind : (Change.dropDumps which).Blind) :
    Agrees R (deleteDumpRequests refusals which) :=
  change_counted_agrees refusals hR hblind
    (hR.reads fun s => countP_shareOf hown hblind s.dumpRequests) (.delete .dumpRequests) id

theorem deleteDeletionRequests_agrees {which : DeletionRow → Bool}
    (hown : ∀ r, which r = true → r.user = user) (hblind : (Change.dropTombstones which).Blind) :
    Agrees R (deleteDeletionRequests refusals which) :=
  change_counted_agrees refusals hR hblind
    (hR.reads fun s => countP_shareOf hown hblind s.deletionRequests)
    (.delete .deletionRequests) id

theorem bumpEntries_agrees (device : String) : Agrees R (bumpEntries refusals user device) :=
  change_counted_agrees refusals hR (c := .bumpEntries user device) trivial
    (hR.reads fun s => countP_shareOf (fun _ hr => (EntryRow.isFor_iff.1 hr).1) (fun r => by rfl)
      s.entries) (.update .entries) id

theorem bumpDumpRequests_agrees (device : String) :
    Agrees R (bumpDumpRequests refusals user device) :=
  change_counted_agrees refusals hR (c := .bumpDumps user device) trivial
    (hR.reads fun s => countP_shareOf
      (fun _ hr => of_decide_eq_true (Bool.and_eq_true_iff.1 hr).1) (fun r => by rfl)
      s.dumpRequests) (.update .dumpRequests) id

theorem bumpDeletionRequests_agrees (device : String) :
    Agrees R (bumpDeletionRequests refusals user device) :=
  change_counted_agrees refusals hR (c := .bumpTombstones user device) trivial
    (hR.reads fun s => countP_shareOf (fun _ hr => (DeletionRow.isFor_iff.1 hr).1)
      (fun r => by rfl) s.deletionRequests) (.update .deletionRequests) id

theorem markUninstalled_agrees (device : String) (moment : Timestamp) :
    Agrees R (markUninstalled refusals user device moment) :=
  .bind (.ofOption _ _) fun date =>
    change_counted_agrees refusals hR (c := .uninstall user device date) trivial
      (hR.reads fun s => countP_shareOf (fun _ hd => DeviceRow.user_of_is hd) (fun d => by rfl)
        s.devices) (.update .devices) fun n => decide (0 < n)

theorem deletionRequestsFor_agrees (device : String) :
    Agrees R (deletionRequestsFor refusals user device) :=
  look_or_fail_agrees _ _ (hR.reads (private_deletionRequestsFor user device))

theorem dumpRequestsForPeer_agrees (device : String) :
    Agrees R (dumpRequestsForPeer refusals user device) :=
  look_agrees _ _ (hR.reads (private_dumpRequestsForPeer user device))

theorem insertRuns_agrees (runs : List (List EntryRow)) : Agrees R (insertRuns refusals runs) := by
  induction runs with
  | nil => exact .pure 0
  | cons run rest ih =>
    exact .bind (.ite (.pure ()) (.fail _)) fun _ => .bind (permit_agrees _ _) fun _ =>
      .bind (update_agrees hR (c := .addEntries run) trivial) fun _ => .bind ih fun _ => .pure _

theorem insertTombstones_agrees (row : DeletionRow) (devices : List String) :
    Agrees R (insertTombstones refusals row devices) := by
  induction devices with
  | nil => exact .pure 0
  | cons device rest ih =>
    exact .bind (permit_agrees _ _) fun _ =>
      .bind (update_agrees hR (c := .addTombstone { row with destination := device }) trivial)
        fun _ => .bind ih fun _ => .pure _

theorem deleteMatching_agrees (messages : List Message) :
    Agrees R (deleteMatching refusals user messages) := by
  have hnamed : Agrees R (deleteNamed refusals user messages) := by
    induction messages with
    | nil => exact .pure 0
    | cons m rest ih =>
      have hfirst : Agrees R (deleteEntries refusals fun r => r.user = user && m.names r) :=
        deleteEntries_agrees refusals hR
          (fun r hr => of_decide_eq_true (Bool.and_eq_true_iff.1 hr).1) fun _ => rfl
      unfold deleteNamed
      split
      · exact .bind hfirst fun _ => .bind ih fun _ => .pure _
      · exact .bind (.pure 0) fun _ => .bind ih fun _ => .pure _
  exact .ite (.fail _) hnamed

end Bound

end Asking

end Store

namespace Relay
variable {α : Type} {user : String} (w : Setting)

/-- Both relays are locked out or both are not, and their stores are related. -/
def Linked (R : Store → Store → Prop) (r r' : Relay) : Prop :=
  r.poisoned = r'.poisoned ∧ R r.store r'.store

/-- Both relays are locked out or both are not, and the user's rows are the same. -/
abbrev Alike (user : String) : Relay → Relay → Prop := Linked (Store.Alike user)

section Parts
variable {R : Store → Store → Prop}

theorem locked_matches {a b : Step Store α} (h : Matches R a b) :
    Matches (Linked R) (locked a) (locked b) := by
  intro r r' hrr
  obtain ⟨hpoisoned, hstore⟩ := hrr
  obtain ⟨o, s, t, hs, ht, hnext⟩ := h.outcome hstore
  unfold locked
  rw [← hpoisoned]
  cases hp : r.poisoned with
  | true => exact ⟨rfl, hpoisoned, hstore⟩
  | false =>
    rw [hs, ht]
    cases o with
    | answer v => exact ⟨rfl, rfl, hnext⟩
    | failure e => exact ⟨rfl, rfl, hnext⟩
    | crash => exact ⟨rfl, rfl, hnext⟩

theorem requireId_agrees {σ : Type} {R : σ → σ → Prop} (name value : String) :
    Agrees R (requireId name value : Step σ Unit) :=
  .ite (.fail _) (.pure _)

theorem refuse_agrees {σ β : Type} {R : σ → σ → Prop} (e : β → RelayError) (o : Option β) :
    Agrees R (refuse e o : Step σ Unit) := by
  cases o with
  | some b => exact .fail _
  | none => exact .pure ()

theorem readClock_agrees {σ : Type} {R : σ → σ → Prop} : Agrees R (readClock w : Step σ _) :=
  .ite .crash (.pure _)

theorem noteUsage_agrees (hR : Store.Binds user R) (u device : String) (client : Client)
    (entries : Nat) (isQuery : Bool) : Agrees R (noteUsage w u device client entries isQuery) := by
  unfold noteUsage
  refine .ite (.pure _) (.bind (readClock_agrees w) fun time => .rescue ?_ fun e => ?_)
  · exact Store.recordUsage_agrees _ hR _
  · exact .ite (.pure _) (.fail _)

/-- Without a cap on users nobody else's rows count when one registers. -/
theorem enforceCap_agrees_of_none (h : w.config.maxUsers = none) (user : String) :
    Agrees R (enforceCap w user) := by
  unfold enforceCap
  rw [h]
  exact .pure ()

end Parts

section Work
variable {R : Store → Store → Prop} (hR : Store.Binds user R)
include hR

theorem enroll_agrees (hcap : Agrees R (enforceCap w user)) (device : String) (isTest : Bool)
    (client : Client) : Agrees R (enroll w ⟨user, device, isTest⟩ client) := by
  unfold enroll
  refine .bind hcap fun _ => .bind (readClock_agrees w) fun now =>
    .bind (Store.look_agrees _ _ (hR.reads (Store.private_otherActive _ _))) fun existing =>
      .bind ?_ fun _ => .ite (.bind ?_ fun _ => .pure _) (.pure _)
  · exact Store.upsertDevice_agrees _ hR _
  · exact Store.createDumpRequest_agrees _ hR _

theorem distribute_agrees (batch : List Entry) (source : Option String) (client : Client) :
    Agrees R (distribute w user batch source client) := by
  have hlist (device : String) : Agrees R (pendingRequests w user device) :=
    .bind (Store.dumpRequestsForPeer_agrees _ hR _) fun _ =>
      .bind (Store.bumpDumpRequests_agrees _ hR _) fun _ =>
        .bind (Store.deletionRequestsFor_agrees _ hR _) fun _ =>
          .bind (Store.bumpDeletionRequests_agrees _ hR _) fun _ => .pure _
  have hinsert (devices : List String) (origin : Option String) :
      Agrees R (Store.insertForDevices w.refusals batch devices origin w.config.insertChunk) :=
    .bind (Store.storedTimes_agrees _) fun _ => Store.insertRuns_agrees _ hR _
  refine .bind (Store.look_agrees _ _ (hR.reads (Store.private_activeOf _))) fun active =>
    .ite (.fail _) (.bind (hinsert _ _) fun _ => ?_)
  split
  · exact .ite (hlist _) (.pure _)
  · exact .pure _

theorem storeDump_agrees (requester : String) (isChunk : Bool) (dump : List Entry) :
    Agrees R (storeDump w user requester isChunk dump) := by
  refine .bind (.bind (Store.storedTimes_agrees _) fun _ => Store.insertRuns_agrees _ hR _)
    fun _ => .ite (.pure _) (.bind ?_ fun _ => .pure _)
  exact Store.deleteDumpRequests_agrees _ hR (fun r hr => (DumpRow.isBy_iff.1 hr).1) fun _ => rfl

theorem deliverDumpRequests_agrees (device : String) :
    Agrees R (deliverDumpRequests w user device) :=
  .bind (Store.dumpRequestsForPeer_agrees _ hR _) fun _ =>
    .bind (Store.bumpDumpRequests_agrees _ hR _) fun _ => .pure _

theorem bury_agrees {r : DeletionRequest} (hr : r.user = user) : Agrees R (bury w r) := by
  subst hr
  refine .bind (Store.look_agrees _ _ (hR.reads (Store.private_activeOf _))) fun active =>
    .ite (.fail _) ?_
  exact .bind (.bind (.ofOption _ _) fun _ => Store.insertTombstones_agrees _ hR _ _) fun _ =>
    Store.deleteMatching_agrees _ hR _

theorem deliverDeletionRequests_agrees (device : String) :
    Agrees R (deliverDeletionRequests w user device) :=
  .bind (Store.bumpDeletionRequests_agrees _ hR _) fun _ => Store.deletionRequestsFor_agrees _ hR _

theorem withdraw_agrees (device : String) : Agrees R (withdraw w user device) := by
  refine .bind ?_ fun _ => .bind ?_ fun _ => .bind ?_ fun _ => .bind (readClock_agrees w) fun now =>
    .bind (Store.markUninstalled_agrees _ hR _ _) fun _ => .pure _
  · exact Store.deleteEntries_agrees _ hR (fun r hr => (EntryRow.isFor_iff.1 hr).1) fun _ => rfl
  · exact Store.deleteDeletionRequests_agrees _ hR (fun r hr => (DeletionRow.isFor_iff.1 hr).1)
      fun _ => rfl
  · exact Store.deleteDumpRequests_agrees _ hR (fun r hr => (DumpRow.isBy_iff.1 hr).1) fun _ => rfl

theorem applyDeletions_agrees (device : String) : Agrees R (applyDeletions w user device) := by
  refine .bind_of_answer (Store.deletionRequestsFor_agrees _ hR _) fun s requests t hs => ?_
  -- A deletion names its user itself, so it matters that all that are listed name this one.
  have huser := Store.user_of_deletionRequestsFor hs
  clear hs
  induction requests with
  | nil => exact .pure ()
  | cons q rest ih =>
    have hrest := ih fun r hr => huser r (List.mem_cons_of_mem q hr)
    obtain rfl := huser q List.mem_cons_self
    exact .bind (Store.deleteMatching_agrees _ hR _) fun _ => hrest

theorem undertaking_agrees (hcap : Agrees R (enforceCap w user)) {call : Call}
    (hfor : call.user? = some user) {u : Undertaking} (hu : call.undertaking? w = some u) :
    Agrees (Linked R) u.check ∧ Agrees R u.body := by
  have hids (name value name' value' : String) :
      Agrees (Linked R) (do requireId name value; requireId name' value') :=
    .bind (requireId_agrees _ _) fun _ => requireId_agrees _ _
  cases call with
  | register r client =>
    cases hu
    obtain rfl : r.user = user := Option.some.inj hfor
    exact ⟨hids _ _ _ _, .map _ (enroll_agrees w hR hcap r.device r.isTestDevice client)⟩
  | submit batch source client =>
    cases batch with
    | nil => cases hu
    | cons first rest =>
      cases hu
      obtain rfl : first.user = user := Option.some.inj hfor
      exact ⟨.bind (requireId_agrees _ _) fun _ => refuse_agrees _ _,
        .map _ (distribute_agrees w hR _ _ _)⟩
  | submitDump u source requester isChunk dump client =>
    cases hu
    obtain rfl : u = user := Option.some.inj hfor
    exact ⟨.bind (requireId_agrees _ _) fun _ => .bind (requireId_agrees _ _) fun _ =>
      .bind (requireId_agrees _ _) fun _ => refuse_agrees _ _,
      .map _ (storeDump_agrees w hR _ _ _)⟩
  | dumpRequests u device =>
    cases hu
    obtain rfl : u = user := Option.some.inj hfor
    exact ⟨hids _ _ _ _, .map _ (deliverDumpRequests_agrees w hR _)⟩
  | addDeletion r =>
    cases hu
    exact ⟨.bind (requireId_agrees _ _) fun _ => refuse_agrees _ _,
      .map _ (bury_agrees w hR (Option.some.inj hfor))⟩
  | deletionRequests u device =>
    cases hu
    obtain rfl : u = user := Option.some.inj hfor
    exact ⟨hids _ _ _ _, .map _ (deliverDeletionRequests_agrees w hR _)⟩
  | uninstall u device =>
    cases hu
    obtain rfl : u = user := Option.some.inj hfor
    exact ⟨hids _ _ _ _, .map _ (withdraw_agrees w hR _)⟩
  | deepClean now => simp [Call.user?] at hfor
  | _ => cases hu

end Work

section Calls
variable {R : Store → Store → Prop} (hR : Store.Binds user R) {w} {w' : Setting}
  (hw : w.SameButUsage w')
  (hnote : ∀ u device client n isQuery, Matches R (noteUsage w u device client n isQuery)
    (noteUsage w' u device client n isQuery))

theorem perform_matches {u : Undertaking} (hcheck : Agrees (Linked R) u.check)
    (hbody : Agrees R u.body) (hnote : Matches R (u.bookkeep w) (u.bookkeep w')) :
    Matches (Linked R) (u.perform w fun _ => none) (u.perform w' fun _ => none) := by
  have hwhole : broken (fun _ => none) u.body = u.body := rfl
  unfold Undertaking.perform
  rw [hwhole]
  exact .bind hcheck fun _ => locked_matches (.bind (.transaction hbody) fun _ =>
    .bind hnote fun _ => .pure _)

include hR hw hnote

theorem query_matches (device : String) (reason : Option String) (client : Client) :
    Matches (Linked R) (query w user device reason client)
      (query w' user device reason client) := by
  let waiting (w : Setting) : Step Store (List Entry) := do
    transaction (applyDeletions w user device)
    Store.pendingEntries w.refusals user device w.config.queryReadLimit
  have hwaiting : waiting w = waiting w' := hw.congr waiting fun w track environment refusal => by
    simp only [waiting, applyDeletions, applyTombstones_bookkeeping]
    rfl
  have hcounted : countRead w user device = countRead w' user device :=
    hw.congr (countRead · user device) fun _ _ _ _ => rfl
  have hread : Matches R (waiting w) (waiting w') := by
    rw [← hwaiting]
    exact .bind (.transaction (applyDeletions_agrees w hR _)) fun _ =>
      Store.look_agrees _ _ (hR.reads (Store.private_pending _ _ _))
  have hcount : Agrees (Linked R) (countRead w user device) :=
    .bind (locked_matches (Store.bumpEntries_agrees _ hR _)) fun _ => .pure _
  unfold query
  rw [← hcounted, ← hw.environment]
  refine .bind ?_ fun found =>
    .ite (.bind (.rescue hcount fun _ => .pure _) fun _ => .pure _) (.bind hcount fun _ => .pure _)
  unfold readPending
  refine .bind (requireId_agrees _ _) fun _ => .bind (requireId_agrees _ _) fun _ =>
    locked_matches ?_
  exact .ite hread (.bind (hnote _ _ _ _ _) fun _ => hread)

theorem bootstrap_matches (device : String) (client : Client) :
    Matches (Linked R) (bootstrap w user device client) (bootstrap w' user device client) := by
  have hentries : Store.entriesOfUser w.refusals user = Store.entriesOfUser w'.refusals user :=
    hw.congr (fun w => Store.entriesOfUser w.refusals user) fun _ _ _ _ => rfl
  unfold bootstrap
  rw [← hentries]
  refine .bind (requireId_agrees _ _) fun _ => .bind (requireId_agrees _ _) fun _ =>
    locked_matches ?_
  exact .bind (hnote _ _ _ _ _) fun _ =>
    Store.look_agrees _ _ (hR.reads (Store.private_entriesOfUser _))

end Calls

end Relay

/-- A call for a user sees that user's share only, and under settings that differ in bookkeeping at
most does the same, as far as its note does. -/
theorem Call.perform_matches {R : Store → Store → Prop} {user : String}
    (hR : Store.Binds user R) {w w' : Setting} (hw : w.SameButUsage w')
    (hnote : ∀ u device client n isQuery, Matches R (Relay.noteUsage w u device client n isQuery)
      (Relay.noteUsage w' u device client n isQuery))
    (hcap : Agrees R (Relay.enforceCap w user)) {call : Call} (hfor : call.user? = some user) :
    Matches (Relay.Linked R) (call.perform w) (call.perform w') := by
  cases hu : call.undertaking? w with
  | some u =>
    have hu' : call.undertaking? w' = some u := by
      rw [← hw.congr call.undertaking? fun w track environment refusal =>
        undertaking?_bookkeeping w track environment refusal call, hu]
    obtain ⟨hcheck, hbody⟩ := Relay.undertaking_agrees w hR hcap hfor hu
    rw [← Relay.perform_of_undertaking hu, ← Relay.perform_of_undertaking hu']
    refine Relay.perform_matches hcheck hbody ?_
    unfold Undertaking.bookkeep
    cases u.note with
    | none => exact .pure ()
    | some n => exact hnote _ _ _ _ _
  | none =>
    cases call with
    | query u device reason client =>
      obtain rfl : u = user := Option.some.inj hfor
      exact .map _ (Relay.query_matches hR hw hnote device reason client)
    | bootstrap u device client =>
      obtain rfl : u = user := Option.some.inj hfor
      exact .map _ (Relay.bootstrap_matches hR hw hnote device client)
    | recordFeedback f =>
      have hsame : Relay.recordFeedback w f = Relay.recordFeedback w' f :=
        hw.congr (Relay.recordFeedback · f) fun _ _ _ _ => rfl
      refine .map _ (hsame ▸ .bind (Relay.requireId_agrees _ _) fun _ => ?_)
      exact Relay.locked_matches (Store.insertFeedback_agrees _ hR _)
    | submit batch source client =>
      cases batch with
      | nil => simp [user?] at hfor
      | cons first rest => cases hu
    | register | submitDump | dumpRequests | addDeletion | deletionRequests | uninstall => cases hu
    | _ => simp [user?] at hfor

theorem Turn.agrees {R : Store → Store → Prop} {t : Turn} {user : String}
    (hR : Store.Binds user R) (hcap : Agrees R (Relay.enforceCap t.setting user))
    (hfor : t.call.user? = some user) : Agrees (Relay.Linked R) t.take :=
  Call.perform_matches hR (.refl t.setting) (Relay.noteUsage_agrees t.setting hR) hcap hfor

end HistoryRelay
