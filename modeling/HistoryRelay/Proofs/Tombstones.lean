import HistoryRelay.Proofs.Aging
import HistoryRelay.Proofs.MessageJson
import HistoryRelay.Proofs.Registry

/-! The ledger of deletion requests. Main statement: a request that is taken leaves a tombstone for
each device that is active then and for no other one. A tombstone says what its request said, is for
a device that has not been away since, counts its deliveries and goes in three ways. -/
namespace HistoryRelay
open Step Ledger

theorem Devices.nodup_activeOf {user : String} {ds : List DeviceRow} (h : Keyed ds) :
    ((activeOf user ds).map (·.device)).Nodup := by
  refine List.pairwise_map.2 ((activeOf_pairwise h).imp_of_mem fun {a b} ha hb hab he => ?_)
  obtain ⟨ha, hua, -⟩ := mem_activeOf.1 ha
  obtain ⟨hb, hub, -⟩ := mem_activeOf.1 hb
  have hkey : a.key = b.key := by rw [DeviceRow.key, DeviceRow.key, hua, hub, he]
  obtain rfl := List.inj_on_of_nodup_map h ha hb hkey
  obtain hlt | ⟨-, hlt⟩ := hab
  · exact absurd hlt (by simp [Instant.lt_iff])
  · exact absurd hlt (String.lt_irrefl _)

theorem DeletionRequests.filter_bump (user device : String) (xs : List DeletionRow) :
    (bump user device xs).filter (·.isFor user device) =
      (xs.filter (·.isFor user device)).map fun x => { x with readCount := x.readCount + 1 } := by
  have hfor : (·.isFor user device) ∘ (fun x : DeletionRow =>
      if x.isFor user device then { x with readCount := x.readCount + 1 } else x) =
      (·.isFor user device) := by
    funext x
    rw [Function.comp_apply]
    split <;> rfl
  rw [bump, List.filter_map, hfor]
  exact List.map_congr_left fun x hx => if_pos (List.mem_filter.1 hx).2

section Attendance

def Store.Serves (s : Store) (user device : String) : Prop :=
  ∃ d ∈ s.devices, d.user = user ∧ d.active = true ∧ d.device = device

/-- Every tombstone is for an active device. -/
def Store.Attended (s : Store) : Prop := ∀ x ∈ s.deletionRequests, s.Serves x.user x.destination

/-- Changes that add no tombstone and put no device out of use. -/
def Change.mild : Change → Prop
  | .addTombstone _ | .uninstall .. | .removeDevice .. => False
  | _ => True

theorem Store.serves_register {s : Store} {user device : String} (row : DeviceRow)
    (h : s.Serves user device) : ((Change.register row).apply s).Serves user device := by
  obtain ⟨d, hd, huser, hactive, hdevice⟩ := h
  refine ⟨_, Devices.mem_register.2 (.inl ⟨d, hd, rfl⟩), ?_⟩
  split
  · exact ⟨huser, rfl, hdevice⟩
  · exact ⟨huser, hactive, hdevice⟩

theorem Change.attended {c : Change} {s : Store} (hc : c.mild) (h : s.Attended) :
    (c.apply s).Attended := by
  cases c with
  | addTombstone | uninstall | removeDevice => exact hc.elim
  | register row => exact fun x hx => Store.serves_register row (h x hx)
  | bumpTombstones user device =>
    intro x hx
    obtain ⟨y, hy, rfl⟩ := List.mem_map.1 hx
    have hserved := h y hy
    split
    · exact hserved
    · exact hserved
  | dropTombstones which => exact fun x hx => h x (List.mem_filter.1 hx).1
  | _ => exact h

theorem Store.serves_uninstall {s : Store} {user device u v : String} (date : Instant)
    (h : s.Serves u v) (hother : ¬(u = user ∧ v = device)) :
    ((Change.uninstall user device date).apply s).Serves u v := by
  obtain ⟨d, hd, rfl, hactive, rfl⟩ := h
  have hstays : d.is user device = false := by simpa [DeviceRow.is] using hother
  exact ⟨d, List.mem_map.2 ⟨d, hd, by simp [hstays]⟩, rfl, hactive, rfl⟩

theorem Store.attended_cleaned {s : Store} (h : s.Attended) (config : Config) (date : Instant) :
    (s.cleaned config date).Attended := by
  intro x hx
  obtain ⟨hx, hstale⟩ := List.mem_filter.1 hx
  obtain ⟨d, hd, huser, hactive, hdevice⟩ := h x hx
  refine ⟨d, Store.mem_devices_cleaned.2 ⟨hd, fun hgone => ?_⟩, huser, hactive, hdevice⟩
  rw [DeviceRow.key, huser, hdevice] at hgone
  simp [Store.trimmed, hgone] at hstale

/-- Only deletion requests add tombstones, and devices go with uninstalls and deep cleans. -/
theorem Call.mild_of_may {config : Config} {call : Call} {c : Change} (h : call.may config c)
    (ha : ∀ req, call ≠ .addDeletion req) (hu : ∀ user device, call ≠ .uninstall user device)
    (hd : ∀ now, call ≠ .deepClean now) : c.mild := by
  cases c with
  | addTombstone row =>
    obtain ⟨req, he⟩ := addDeletion_of_may h
    exact ha req he
  | uninstall user device date => exact hu user device (uninstall_of_may h)
  | removeDevice user device =>
    obtain ⟨now, he⟩ := deepClean_of_may h
    exact hd now he
  | _ => trivial

namespace Turn
variable {r : Relay}

theorem devices_take {t : Turn} (hr : ∀ reg client, t.call ≠ .register reg client)
    (hu : ∀ user device, t.call ≠ .uninstall user device) (hd : ∀ now, t.call ≠ .deepClean now) :
    (t.take r).2.store.devices = r.store.devices := by
  refine (t.leads r).frame (·.devices) fun c s hc => ?_
  cases c with
  | register row =>
    obtain ⟨reg, client, he⟩ := Call.register_of_may hc
    exact absurd he (hr reg client)
  | uninstall user device date => exact absurd (Call.uninstall_of_may hc) (hu user device)
  | removeDevice user device =>
    obtain ⟨now, he⟩ := Call.deepClean_of_may hc
    exact absurd he (hd now)
  | _ => rfl

theorem attended_uninstall (w : Setting) (user device : String) (h : r.store.Attended) :
    let t : Turn := ⟨w, .uninstall user device⟩
    (t.take r).2.store.Attended ∧ ((t.take r).1.answered = true →
      ∀ x ∈ (t.take r).2.store.deletionRequests, x.isFor user device = false) := by
  intro t
  obtain ⟨hs, hno, -⟩ | ⟨answer, s, hbody, hs, -⟩ := work_cases (t := t) rfl r
  · rw [hs, hno]
    exact ⟨h, nofun⟩
  · obtain ⟨n, hbody, -⟩ := map_eq_answer.1 hbody
    obtain ⟨-, date, -, rfl⟩ := Relay.withdraw_answer hbody
    have hrows : (t.take r).2.store.deletionRequests =
        r.store.deletionRequests.filter (!·.isFor user device) := congrArg (·.deletionRequests) hs
    have hdevices : (t.take r).2.store.devices =
        Devices.uninstall user device date r.store.devices := congrArg (·.devices) hs
    rw [Store.Attended, hrows]
    refine ⟨fun x hx => ?_, fun _ x hx => by simpa using (List.mem_filter.1 hx).2⟩
    obtain ⟨hx, hother⟩ := List.mem_filter.1 hx
    have hne : ¬(x.user = user ∧ x.destination = device) := fun he => by
      simp [DeletionRow.isFor_iff.2 he] at hother
    rw [Store.Serves, hdevices]
    exact Store.serves_uninstall date (h x hx) hne

theorem uninstall_fails_of_mem {t : Turn} {x : DeletionRow} (hr : r.store.Attended)
    (hx : x ∈ (t.take r).2.store.deletionRequests)
    (hcall : t.call = .uninstall x.user x.destination) : (t.take r).1.answered = false := by
  obtain ⟨w, call⟩ := t
  obtain rfl : call = _ := hcall
  refine Bool.eq_false_of_not_eq_true fun hanswered => ?_
  have hfor := (attended_uninstall w x.user x.destination hr).2 hanswered x hx
  exact absurd (DeletionRow.isFor_iff.2 ⟨rfl, rfl⟩) (ne_true_of_eq_false hfor)

theorem attended_addDeletion (w : Setting) (req : DeletionRequest) (h : r.store.Attended) :
    ((Turn.mk w (.addDeletion req)).take r).2.store.Attended := by
  have hdevices : ((Turn.mk w (.addDeletion req)).take r).2.store.devices = r.store.devices :=
    devices_take (t := ⟨w, .addDeletion req⟩) (by simp) (by simp) (by simp)
  obtain ⟨gone, fresh, hages, -, hmade⟩ := tombstones_age ⟨w, .addDeletion req⟩ r
  intro x hx
  have hrows : ((Turn.mk w (.addDeletion req)).take r).2.store.deletionRequests =
      aged gone _ r.store.deletionRequests ++ fresh := hages.rows_eq
  rw [hrows] at hx
  rw [Store.Serves, hdevices]
  obtain hx | hx := List.mem_append.1 hx
  · obtain ⟨y, hy, -, rfl⟩ := mem_aged.1 hx
    have hserved := h y hy
    split
    · exact hserved
    · exact hserved
  · obtain ⟨req', -, -, huser, hactive, -⟩ := hmade x hx
    exact huser ▸ hactive

/-- After any turn every tombstone is for an active device if it was so before. -/
theorem attended (t : Turn) (h : r.store.Attended) : (t.take r).2.store.Attended := by
  obtain ⟨w, call⟩ := t
  cases call with
  | addDeletion req => exact attended_addDeletion w req h
  | uninstall user device => exact (attended_uninstall w user device h).1
  | deepClean now =>
    obtain hs | ⟨date, hs⟩ := deepClean_cases w now r
    · rwa [hs]
    · rw [hs]
      exact Store.attended_cleaned h w.config date
  | _ =>
    exact (leads _ r).keeps h fun c s hc hs =>
      Change.attended (Call.mild_of_may hc (by simp) (by simp) (by simp)) hs

end Turn

theorem Relay.attended_run (turns : List Turn) : (run {} turns).store.Attended := by
  induction turns using List.reverseRecOn with
  | nil => exact fun x hx => nomatch hx
  | append_singleton turns t ih =>
    rw [run_append]
    exact t.attended ih

end Attendance

namespace DeletionRow

/-- The tombstone has been in the ledger since one of the turns has taken this request. Its number
was new then. Its device was active then, has been since and has not been uninstalled. It has
counted its deliveries. -/
structure StemsFrom (x : DeletionRow) (turns : List Turn) (req : DeletionRequest) : Prop where
  taken : ∃ before t after, turns = before ++ t :: after ∧ t.call = .addDeletion req ∧
    (t.take (Relay.run {} before)).1.answered = true ∧
    (∀ y ∈ (Relay.run {} before).store.deletionRequests, y.id ≠ x.id) ∧
    (∀ early, early <+: t :: after →
      (Relay.run {} (before ++ early)).store.Serves x.user x.destination) ∧
    (∀ early u, early ++ [u] <+: after → u.call = .uninstall x.user x.destination →
      (u.take (Relay.run {} (before ++ t :: early))).1.answered = false) ∧
    x.readCount = Relay.tally x.isListed (Relay.run {} (before ++ [t])) after
  user : x.user = req.user
  sendTime : req.sendTime.toInstant? = some x.sendTime
  messages : Message.listOfJson x.messages = .ok req.messages

/-- How a tombstone is listed after some turns: as the request that it stems from, for its own
device, with a number of deliveries. -/
structure ListedAs (x : DeletionRow) (turns : List Turn) (count : Nat) (q : DeletionRequest) :
    Prop where
  request : ∃ req, x.StemsFrom turns req ∧ q.user = req.user ∧ q.messages = req.messages
  destination : q.destination = x.destination
  sendTime : q.sendTime = x.sendTime.toTimestamp
  readCount : q.readCount = count

variable {turns : List Turn} {x : DeletionRow}

theorem exists_stemsFrom (hx : x ∈ (Relay.run {} turns).store.deletionRequests) :
    ∃ req, x.StemsFrom turns req := by
  obtain ⟨before, t, after, z, hturns, hmade, -, hnew, hthere, rfl⟩ :=
    history (c := tombstoneCustom) Turn.tombstones_age (fun _ _ => rfl) turns hx
  obtain ⟨req, hcall, hanswered, huser, hactive, hsent, hmessages⟩ := hmade
  refine ⟨req, ⟨before, t, after, hturns, hcall, hanswered, hnew, fun early hearly => ?_,
    fun early u hearly hcall' => ?_, rfl⟩, huser, hsent, ?_⟩
  · cases early with
    | nil =>
      rw [List.append_nil]
      exact huser ▸ hactive
    | cons u early =>
      obtain ⟨rfl, hrest⟩ := List.cons_prefix_cons.1 hearly
      have hserved := Relay.attended_run _ _ (hthere early hrest)
      exact hserved
  · have hrow := hthere _ hearly
    rw [← List.cons_append, ← List.append_assoc, Relay.run_append] at hrow
    have hfails := Turn.uninstall_fails_of_mem (t := u) (Relay.attended_run _) hrow
    exact hfails hcall'
  · exact (congrArg Message.listOfJson hmessages).trans (Message.listOfJson_listToJson _)

theorem listedAs_of_toRequest (hx : x ∈ (Relay.run {} turns).store.deletionRequests) {n : Nat}
    {q : DeletionRequest} (h : ({ x with readCount := n } : DeletionRow).toRequest = .ok q) :
    x.ListedAs turns n q := by
  obtain ⟨hmessages, huser, hdestination, htime, hcount⟩ := toRequest_eq_ok.1 h
  obtain ⟨req, hreq⟩ := exists_stemsFrom hx
  have hsame := hreq.messages.symm.trans hmessages
  exact ⟨⟨req, hreq, huser.trans hreq.user, (Except.ok.inj hsame).symm⟩, hdestination, htime,
    hcount⟩

/-- Where usage can be noted, a delivery is a listing for the device or a submit from it, that has
answered with more than the bare acknowledgement. A query is none. -/
theorem isListed_iff {t : Turn} {r : Relay} (hw : t.setting.Noting) : x.isListed t r = true ↔
    (∃ rs, t.call = .deletionRequests x.user x.destination ∧
        (Relay.deletionRequests t.setting x.user x.destination r).1 = .answer rs) ∨
      ∃ first rest client reply, t.call = .submit (first :: rest) (some x.destination) client ∧
        first.user = x.user ∧
        (Relay.submit t.setting (first :: rest) (some x.destination) client r).1 = .answer reply ∧
          reply ≠ .bare := by
  rw [isListed, Turn.delivered_iff, ← Turn.informed_iff hw]
  obtain ⟨w, call⟩ := t
  constructor
  · rintro ⟨user, device, hlists, hfor, hdone⟩
    obtain ⟨rfl, rfl⟩ := isFor_iff.1 hfor
    obtain rfl | hinforms := Call.listsTombstones?_eq_some.1 hlists
    · obtain ⟨rs, hrs⟩ := (Turn.committed_iff rfl hw rfl).1 hdone
      exact .inl ⟨rs, rfl, hrs⟩
    · exact .inr ⟨hinforms, hdone⟩
  · rintro (⟨rs, rfl, hrs⟩ | ⟨hinforms, hdone⟩)
    · exact ⟨_, _, rfl, isFor_iff.2 ⟨rfl, rfl⟩, (Turn.committed_iff rfl hw rfl).2 ⟨rs, hrs⟩⟩
    · exact ⟨_, _, Call.listsTombstones?_eq_some.2 (.inr hinforms), isFor_iff.2 ⟨rfl, rfl⟩, hdone⟩

end DeletionRow

namespace Relay
variable {w : Setting}

theorem taken_tombstones {r : Relay} (hkeyed : Devices.Keyed r.store.devices)
    {req : DeletionRequest} {n : Nat} (h : (addDeletionRequest w req r).1 = .answer n) :
    ∃ fresh : List DeletionRow,
      (addDeletionRequest w req r).2.store.deletionRequests = r.store.deletionRequests ++ fresh ∧
      (fresh.map (·.destination)).Nodup ∧
      (∀ device, device ∈ fresh.map (·.destination) ↔ r.store.Serves req.user device) ∧
      ∀ x ∈ fresh, x.user = req.user ∧ x.readCount = 0 ∧
        req.sendTime.toInstant? = some x.sendTime ∧
          Message.listOfJson x.messages = .ok req.messages := by
  obtain ⟨sent, hsent, hrows, -⟩ := bury_answer (bury_of_addDeletionRequest (Prod.ext h rfl))
  refine ⟨_, hrows, ?_, fun device => ?_, fun x hx => ?_⟩
  · rw [DeletionRequests.destinations_copies]
    exact Devices.nodup_activeOf hkeyed
  · rw [DeletionRequests.destinations_copies]
    simp only [Store.Serves, List.mem_map, Devices.mem_activeOf, and_assoc]
  · rw [(DeletionRequests.mem_copies hx).2.2]
    exact ⟨rfl, rfl, hsent, Message.listOfJson_listToJson _⟩

section Listing
variable {turns : List Turn} {user device : String} {rs : List DeletionRequest}

theorem listed_of_toRequest (count : DeletionRow → Nat)
    (h : List.Forall₂ (fun x q => ({ x with readCount := count x } : DeletionRow).toRequest = .ok q)
      ((run {} turns).store.deletionRequests.filter (·.isFor user device)) rs) :
    List.Forall₂ (fun x q => x.ListedAs turns (count x) q)
      ((run {} turns).store.deletionRequests.filter (·.isFor user device)) rs := by
  have hmem := (List.forall₂_and_left _ _).2 ⟨fun x hx => (List.mem_filter.1 hx).1, h⟩
  exact hmem.imp fun x q hq => DeletionRow.listedAs_of_toRequest hq.1 hq.2

theorem deletionRequests_lists
    (h : (deletionRequests w user device (run {} turns)).1 = .answer rs) :
    List.Forall₂ (fun x q => x.ListedAs turns (x.readCount + 1) q)
      ((run {} turns).store.deletionRequests.filter (·.isFor user device)) rs := by
  have hall : deletionRequests w user device (run {} turns) = (.answer rs, _) := Prod.ext h rfl
  obtain ⟨-, hall⟩ := requireId_bind_eq_answer.1 hall
  obtain ⟨-, hall⟩ := requireId_bind_eq_answer.1 hall
  obtain ⟨-, -, hall⟩ := locked_eq_answer.1 hall
  obtain ⟨hstore, hrows⟩ := deliverDeletionRequests_answer (transaction_eq_answer.1 hall)
  have hbumped := DeletionRequests.filter_bump user device (run {} turns).store.deletionRequests
  rw [hstore, Change.apply, hbumped, List.forall₂_map_left_iff] at hrows
  exact listed_of_toRequest (·.readCount + 1) hrows

theorem submit_lists_tombstones {batch : List Entry} {source : Option String} {client : Client}
    {reply : SubmitReply} (h : (submit w batch source client (run {} turns)).1 = .answer reply)
    (hne : reply ≠ .bare) :
    ∃ first rest device rs, batch = first :: rest ∧ source = some device ∧
      reply.deletionRequests = some rs ∧
      List.Forall₂ (fun x q => x.ListedAs turns x.readCount q)
        ((run {} turns).store.deletionRequests.filter (·.isFor first.user device)) rs := by
  obtain ⟨first, rest, device, hbatch, hsource, -, -, rs, hreply, hrows⟩ := submit_informs h hne
  exact ⟨first, rest, device, rs, hbatch, hsource, hreply, listed_of_toRequest _ hrows⟩

end Listing

/-- A deletion request that is taken leaves one unread tombstone for each device of its user that
is active then and none for any other. Each tombstone stems from such a request, which is what it
is listed as, and no device lists it that was not active then or has been away since; it has
counted its deliveries, which are listings for its device and submits from it. The first of these
count themselves, the second do not. A tombstone goes with its device or after too many
deliveries. -/
theorem tombstone_ledger :
    (∀ (before : List Turn) (w : Setting) (req : DeletionRequest) (n : Nat),
      (addDeletionRequest w req (run {} before)).1 = .answer n →
      ∃ fresh : List DeletionRow,
        (run {} (before ++ [⟨w, .addDeletion req⟩])).store.deletionRequests =
          (run {} before).store.deletionRequests ++ fresh ∧
        (fresh.map (·.destination)).Nodup ∧
        (∀ device, device ∈ fresh.map (·.destination) ↔
          (run {} before).store.Serves req.user device) ∧
        ∀ x ∈ fresh, x.user = req.user ∧ x.readCount = 0 ∧
          req.sendTime.toInstant? = some x.sendTime ∧
            Message.listOfJson x.messages = .ok req.messages) ∧
    ∀ turns : List Turn,
      let now := run {} turns
      (∀ x ∈ now.store.deletionRequests, ∃ req, x.StemsFrom turns req) ∧
      (∀ w user device rs, (deletionRequests w user device now).1 = .answer rs →
        List.Forall₂ (fun x q => x.ListedAs turns (x.readCount + 1) q)
          (now.store.deletionRequests.filter (·.isFor user device)) rs) ∧
      (∀ w batch source client reply, (submit w batch source client now).1 = .answer reply →
        reply ≠ .bare → ∃ first rest device rs, batch = first :: rest ∧ source = some device ∧
          reply.deletionRequests = some rs ∧
          List.Forall₂ (fun x q => x.ListedAs turns x.readCount q)
            (now.store.deletionRequests.filter (·.isFor first.user device)) rs) ∧
      ∀ t : Turn,
        (t.setting.Noting → ∀ x : DeletionRow, x.isListed t now = true ↔
          (∃ rs, t.call = .deletionRequests x.user x.destination ∧
              (deletionRequests t.setting x.user x.destination now).1 = .answer rs) ∨
            ∃ first rest client reply,
              t.call = .submit (first :: rest) (some x.destination) client ∧
              first.user = x.user ∧
              (submit t.setting (first :: rest) (some x.destination) client now).1 =
                .answer reply ∧ reply ≠ .bare) ∧
        ∀ x ∈ now.store.deletionRequests,
          (∀ y ∈ (t.take now).2.store.deletionRequests, y.id ≠ x.id) → t.Removes now x := by
  constructor
  · intro before w req n hanswer
    have hstored : run {} (before ++ [⟨w, .addDeletion req⟩]) =
        (addDeletionRequest w req (run {} before)).2 := by
      rw [run_append]
      exact (map_answered Answer.count _ _).2
    rw [hstored]
    exact taken_tombstones (keyed_run before) hanswer
  · intro turns now
    refine ⟨fun x hx => DeletionRow.exists_stemsFrom hx,
      fun w user device rs h => deletionRequests_lists h,
      fun w batch source client reply h hne => submit_lists_tombstones h hne, fun t => ?_⟩
    refine ⟨fun hw x => DeletionRow.isListed_iff hw, fun x hx hgone => ?_⟩
    exact (t.tombstones_age now).removed_of_missing hx hgone

/-- Messages with a time that entries cannot have and without an entry id come back as they were,
to a device that was there and not to one that came later. -/
theorem tombstone_ledger_of_far_time :
    let far : Timestamp := ⟨100000000000, 0, by decide, by decide, by decide, by decide⟩
    let req : DeletionRequest :=
      ⟨"ada", "", default, 0, [⟨"desk", some far, ""⟩, ⟨"", none, "e"⟩]⟩
    let turns : List Turn := [⟨default, .register ⟨"ada", "desk", false⟩ .unknown⟩,
      ⟨default, .addDeletion req⟩, ⟨default, .register ⟨"ada", "lap", false⟩ .unknown⟩,
      ⟨default, .deletionRequests "ada" "desk"⟩]
    (∃ q, (deletionRequests default "ada" "desk" (run {} turns)).1 = .answer [q] ∧
      q.messages = req.messages ∧ q.readCount = 2) ∧
      (deletionRequests default "ada" "lap" (run {} turns)).1 = .answer [] := by
  intro far req turns
  obtain ⟨-, hlists, -⟩ := tombstone_ledger.2 turns
  have hdesk : (deletionRequests default "ada" "desk" (run {} turns)).1.answered = true := by cbv
  have hlap : (deletionRequests default "ada" "lap" (run {} turns)).1.answered = true := by cbv
  have hcounts : ((run {} turns).store.deletionRequests.filter (·.isFor "ada" "desk")).map
      (·.readCount) = [1] := by cbv
  have hnone : (run {} turns).store.deletionRequests.filter (·.isFor "ada" "lap") = [] := by cbv
  obtain ⟨rs, hrs⟩ := Outcome.answered_iff.1 hdesk
  obtain ⟨rs', hrs'⟩ := Outcome.answered_iff.1 hlap
  have hlisted := hlists _ _ _ _ hrs
  have hlisted' := hlists _ _ _ _ hrs'
  obtain ⟨x, hx, hcount⟩ := List.map_eq_singleton_iff.1 hcounts
  rw [hx] at hlisted
  rw [hnone] at hlisted'
  cases hlisted' with
  | nil =>
    cases hlisted with
    | cons hq hrest =>
      cases hrest with
      | nil =>
        obtain ⟨req', hstem, -, hmessages⟩ := hq.request
        obtain ⟨before, t, after, hturns, hcall, -⟩ := hstem.taken
        have hin : t ∈ turns := hturns ▸ List.mem_append_right before List.mem_cons_self
        have hreq : ∀ u ∈ turns, u.call = .addDeletion req' → req = req' := by simp [turns]
        refine ⟨⟨_, hrs, ?_, by rw [hq.readCount, hcount]⟩, hrs'⟩
        rw [hmessages, hreq t hin hcall]

end Relay

end HistoryRelay
