import HistoryRelay.Proofs.Aging

/-! Requests for dumps. Main statement: a device that registers beside other active ones asks them
for a dump, and its request is listed for them, each delivery counted, until the last chunk of a
dump is stored for it, it goes itself, or the request has been delivered too often. -/
namespace HistoryRelay
open Step Ledger

namespace DumpRow

theorem isForPeer_iff {x : DumpRow} {user device : String} :
    x.isForPeer user device = true ↔ x.user = user ∧ x.requester ≠ device := by
  simp [isForPeer]

/-- The request is pending since one of the turns has registered its device beside other active
ones. Its number was new then, and it has counted its deliveries since. -/
structure StemsFrom (x : DumpRow) (turns : List Turn) (reg : Registration) : Prop where
  made : ∃ before t after client, turns = before ++ t :: after ∧ t.call = .register reg client ∧
    ((t.take (Relay.run {} before)).1.committed = true ∧
      (t.setting.Noting → (t.take (Relay.run {} before)).1.answered = true)) ∧
    t.setting.clock.toInstant? = some x.time ∧
    0 < Devices.otherActive reg.user reg.device (Relay.run {} before).store.devices ∧
    (∀ y ∈ (Relay.run {} before).store.dumpRequests, y.id ≠ x.id) ∧
    x.readCount = Relay.tally x.isListed (Relay.run {} (before ++ [t])) after
  user : x.user = reg.user
  requester : x.requester = reg.device

theorem exists_stemsFrom {turns : List Turn} {x : DumpRow}
    (hx : x ∈ (Relay.run {} turns).store.dumpRequests) : ∃ reg, x.StemsFrom turns reg := by
  obtain ⟨before, t, after, z, hturns, hmade, -, hnew, -, rfl⟩ :=
    history (c := dumpCustom) Turn.dumps_age (fun _ _ => rfl) turns hx
  obtain ⟨reg, client, hcall, hdone, ⟨huser, hrequester⟩, htime, hpeers⟩ := hmade
  exact ⟨reg, ⟨before, t, after, client, hturns, hcall, hdone, htime, hpeers, hnew, rfl⟩, huser,
    hrequester⟩

/-- Where usage can be noted, a delivery is a listing for another device of the user or a submit
from one, that has answered with more than the bare acknowledgement. -/
theorem isListed_iff {x : DumpRow} {t : Turn} {r : Relay} (hw : t.setting.Noting) :
    x.isListed t r = true ↔ ∃ device ≠ x.requester,
      (∃ rs, t.call = .dumpRequests x.user device ∧
        (Relay.pendingDumpRequests t.setting x.user device r).1 = .answer rs) ∨
      ∃ first rest client reply, t.call = .submit (first :: rest) (some device) client ∧
        first.user = x.user ∧
        (Relay.submit t.setting (first :: rest) (some device) client r).1 = .answer reply ∧
          reply ≠ .bare := by
  rw [isListed, Turn.delivered_iff]
  simp only [← Turn.informed_iff hw]
  obtain ⟨w, call⟩ := t
  constructor
  · rintro ⟨user, device, hlists, hfor, hdone⟩
    obtain ⟨rfl, hother⟩ := isForPeer_iff.1 hfor
    refine ⟨device, hother.symm, ?_⟩
    obtain rfl | hinforms := Call.listsDumps?_eq_some.1 hlists
    · obtain ⟨rs, hrs⟩ := (Turn.committed_iff rfl hw rfl).1 hdone
      exact .inl ⟨rs, rfl, hrs⟩
    · exact .inr ⟨hinforms, hdone⟩
  · rintro ⟨device, hother, ⟨rs, rfl, hrs⟩ | ⟨hinforms, hdone⟩⟩
    · exact ⟨_, _, rfl, isForPeer_iff.2 ⟨rfl, hother.symm⟩,
        (Turn.committed_iff rfl hw rfl).2 ⟨rs, hrs⟩⟩
    · exact ⟨_, _, Call.listsDumps?_eq_some.2 (.inr hinforms),
        isForPeer_iff.2 ⟨rfl, hother.symm⟩, hdone⟩

end DumpRow

namespace Turn
variable {w : Setting} {call : Call} {r : Relay}

theorem dumps_counted (h : call.isTimeless)
    (hlast : ∀ user source requester dump client,
      call ≠ .submitDump user source requester false dump client) :
    ((Turn.mk w call).take r).2.store.dumpRequests = r.store.dumpRequests.map fun x =>
      if x.isListed ⟨w, call⟩ r then { x with readCount := x.readCount + 1 } else x := by
  refine (dumps_age ⟨w, call⟩ r).rows_eq (fun x => ?_) fun x => ?_
  · rintro ⟨reg, client, rfl, -⟩
    cases h
  · rintro (⟨source, dump, client, rfl, -⟩ | rfl | ⟨rfl, -⟩ | ⟨⟨now, rfl⟩, -⟩)
    · exact hlast _ _ _ _ _ rfl
    · cases h
    · cases h
    · cases h

theorem dumps_delivered {user device : String} (hlists : call.listsDumps? = some (user, device))
    (hdone : ((Turn.mk w call).take r).1.committed = true) :
    ((Turn.mk w call).take r).2.store.dumpRequests =
      DumpRequests.bump user device r.store.dumpRequests := by
  have hlisted : (fun x : DumpRow => x.isListed ⟨w, call⟩ r) = (·.isForPeer user device) := by
    refine (delivered_of_committed hdone).trans ?_
    rw [hlists]
    rfl
  have hcall : call.isTimeless ∧ ∀ user source requester dump client,
      call ≠ .submitDump user source requester false dump client := by
    obtain rfl | hinforms := Call.listsDumps?_eq_some.1 hlists
    · exact ⟨rfl, by simp⟩
    · obtain ⟨first, rest, client, rfl, -⟩ := Call.informs?_eq_some.1 hinforms
      exact ⟨rfl, by simp⟩
  rw [dumps_counted hcall.1 hcall.2]
  exact List.map_congr_left fun x _ => by rw [congrFun hlisted x]

theorem dumps_chunk {user source requester : String} {dump : List Entry} {client : Client} :
    ((Turn.mk w (.submitDump user source requester true dump client)).take r).2.store.dumpRequests =
      r.store.dumpRequests := by
  rw [dumps_counted rfl (by simp)]
  exact List.map_id _

end Turn

namespace Relay
variable {w : Setting} {r : Relay}

theorem dumps_chunks (r : Relay) {chunks : List Turn}
    (h : ∀ t ∈ chunks, ∃ user source requester dump client,
      t.call = .submitDump user source requester true dump client) :
    (r.run chunks).store.dumpRequests = r.store.dumpRequests := by
  induction chunks generalizing r with
  | nil => rfl
  | cons t rest ih =>
    obtain ⟨user, source, requester, dump, client, hcall⟩ := h t List.mem_cons_self
    obtain ⟨w, call⟩ := t
    obtain rfl : call = _ := hcall
    rw [run_cons, ih _ fun t ht => h t (List.mem_cons_of_mem _ ht)]
    exact Turn.dumps_chunk

theorem register_answer {reg : Registration} {client : Client} {reply : RegistrationReply}
    (h : (register w reg client r).1 = .answer reply) :
    let peers := Devices.otherActive reg.user reg.device r.store.devices
    reply = ⟨peers, 0 < peers⟩ ∧ ∃ time, w.clock.toInstant? = some time ∧
      (register w reg client r).2.store.dumpRequests = r.store.dumpRequests ++
        if 0 < peers then [⟨r.store.lastDump + 1, reg.user, reg.device, time, 0⟩] else [] := by
  intro peers
  have htake : (Turn.mk w (.register reg client)).take r =
      (Answer.registered <$> register w reg client) r := rfl
  have hout := (map_fst_eq_answer fun _ _ => Answer.registered.inj).2 h
  rw [← (map_answered Answer.registered (register w reg client) r).2]
  rw [← htake] at hout ⊢
  obtain ⟨-, hno, -⟩ | ⟨answer, s, hbody, hs, -, hanswer, -⟩ :=
    Turn.work_cases (t := ⟨w, .register reg client⟩) rfl r
  · rw [hout] at hno
    cases hno
  · obtain ⟨reply', hbody, he⟩ := map_eq_answer.1 hbody
    obtain rfl := Answer.registered.inj (he.trans (hanswer _ hout).symm)
    obtain ⟨hreply, -, time, htime, rfl⟩ := enroll_answer hbody
    refine ⟨hreply, time, htime, (congrArg (·.dumpRequests) hs).trans ?_⟩
    by_cases hpeers : 0 < peers
    · rw [if_pos hpeers, if_pos hpeers]
      rfl
    · rw [if_neg hpeers, if_neg hpeers, List.append_nil]
      rfl

theorem pendingDumpRequests_answer {user device : String} {rs : List DumpRequest}
    (h : (pendingDumpRequests w user device r).1 = .answer rs) :
    rs = (r.store.dumpRequests.filter (·.isForPeer user device)).map DumpRow.toRequest ∧
      (pendingDumpRequests w user device r).2.store.dumpRequests =
        DumpRequests.bump user device r.store.dumpRequests := by
  have hall : pendingDumpRequests w user device r = (.answer rs, _) := Prod.ext h rfl
  obtain ⟨-, hall⟩ := requireId_bind_eq_answer.1 hall
  obtain ⟨-, hall⟩ := requireId_bind_eq_answer.1 hall
  obtain ⟨-, -, hall⟩ := locked_eq_answer.1 hall
  obtain ⟨hrs, hstore⟩ := deliverDumpRequests_answer (transaction_eq_answer.1 hall)
  exact ⟨hrs, congrArg (·.dumpRequests) hstore⟩

theorem submit_delivers {batch : List Entry} {source : Option String} {client : Client}
    {reply : SubmitReply} (h : (submit w batch source client r).1 = .answer reply)
    (hne : reply ≠ .bare) :
    ∃ first rest device, batch = first :: rest ∧ source = some device ∧
      reply.dumpRequests = some
        ((r.store.dumpRequests.filter (·.isForPeer first.user device)).map DumpRow.toRequest) ∧
      (submit w batch source client r).2.store.dumpRequests =
        DumpRequests.bump first.user device r.store.dumpRequests := by
  obtain ⟨first, rest, device, hbatch, hsource, hinforms, hreply, -⟩ := submit_informs h hne
  refine ⟨first, rest, device, hbatch, hsource, hreply, ?_⟩
  have hout := (map_fst_eq_answer fun _ _ => Answer.submitted.inj).2 h
  rw [← (map_answered Answer.submitted _ r).2]
  exact Turn.dumps_delivered (Call.listsDumps?_eq_some.2 (.inr hinforms))
    (congrArg Outcome.committed hout)

end Relay

end HistoryRelay
