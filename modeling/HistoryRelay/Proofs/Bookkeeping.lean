import HistoryRelay.Proofs.Agreement
import HistoryRelay.Proofs.Failure

/-! Usage is noted for operators only. Main statement: in production no call but a report or a deep
clean can tell what stands in the usage ledger, whether it is kept at all, or whether the store
takes its rows. -/
namespace HistoryRelay
open Step

def Store.SameButUsage (s t : Store) : Prop := s.besidesUsage = t.besidesUsage

theorem Store.SameButUsage.reads {α : Type} {f : Store → α} (hf : ∀ s, f s.besidesUsage = f s)
    (s t : Store) (h : s.SameButUsage t) : f s = f t :=
  (hf s).symm.trans ((congrArg f h).trans (hf t))

theorem Change.besidesUsage_apply (c : Change) (s : Store) :
    (c.apply s).besidesUsage = (c.apply s.besidesUsage).besidesUsage := by
  cases c <;> rfl

theorem Change.besidesUsage_congr (c : Change) {s t : Store}
    (h : s.besidesUsage = t.besidesUsage) :
    (c.apply s).besidesUsage = (c.apply t).besidesUsage := by
  rw [c.besidesUsage_apply s, c.besidesUsage_apply t, h]

theorem Store.binds_sameButUsage (user : String) : Binds user SameButUsage where
  share {s t} h := by
    have hshare (s : Store) : (s.share user).besidesUsage = s.besidesUsage.share user := rfl
    rw [hshare, hshare, h]
  keeps {c s t} _ h := c.besidesUsage_congr h

namespace Relay
variable {w w' : Setting}

theorem enforceCap_agrees (w : Setting) (user : String) :
    Agrees Store.SameButUsage (enforceCap w user) := by
  unfold enforceCap
  split
  · exact .pure ()
  · refine .bind (Store.look_agrees _ _ ?_) fun _ => .ite (.pure _)
      (.bind (Store.look_agrees _ _ ?_) fun _ => .ite (.fail _) (.pure _))
    · exact Store.SameButUsage.reads fun _ => rfl
    · exact Store.SameButUsage.reads fun _ => rfl

theorem noteUsage_of_production (hw : w.config.environment = .production)
    (hclock : 0 ≤ w.clock.seconds) (user device : String) (client : Client) (n : Nat)
    (isQuery : Bool) (s : Store) :
    (noteUsage w user device client n isQuery s).1 = .answer () := by
  have htame : Tame w (fun _ => True) (noteUsage w user device client n isQuery) :=
    noteUsage_tame w _ _ _ _ _ fun _ _ _ => trivial
  cases hnote : noteUsage w user device client n isQuery s with
  | mk o t =>
    cases o with
    | answer v => rfl
    | failure e => exact absurd hw (noteUsage_failure hnote).2.2
    | crash => exact absurd (congrArg Prod.fst hnote) (htame.calm hclock s)

theorem noteUsage_matches (hw : w.SameButUsage w')
    (hproduction : w.config.environment = .production) (hclock : 0 ≤ w.clock.seconds)
    (user device : String) (client : Client) (n : Nat) (isQuery : Bool) :
    Matches Store.SameButUsage (noteUsage w user device client n isQuery)
      (noteUsage w' user device client n isQuery) := by
  intro s t hst
  have hanswer := noteUsage_of_production hproduction hclock user device client n isQuery s
  have hanswer' := noteUsage_of_production (hw.environment ▸ hproduction) (hw.clock ▸ hclock)
    user device client n isQuery t
  refine ⟨hanswer.trans hanswer'.symm, ?_⟩
  rw [Store.SameButUsage, noteUsage_besides, noteUsage_besides]
  exact hst

theorem sweep_matches (hw : w.SameButUsage w') :
    Matches (Linked Store.SameButUsage) (sweep w) (sweep w') := by
  rw [← hw.congr sweep fun _ _ _ _ => rfl]
  have hbinds := Store.binds_sameButUsage ""
  refine locked_matches (.bind ?_ fun _ => .bind ?_ fun _ => .bind ?_ fun _ => .pure _)
  · exact Store.change_counted_agrees _ hbinds (c := .dropEntries _) (fun _ => rfl)
      (Store.SameButUsage.reads fun _ => rfl) (.delete .entries) id
  · exact Store.change_counted_agrees _ hbinds (c := .dropTombstones _) (fun _ => rfl)
      (Store.SameButUsage.reads fun _ => rfl) (.delete .deletionRequests) id
  · exact Store.change_counted_agrees _ hbinds (c := .dropDumps _) (fun _ => rfl)
      (Store.SameButUsage.reads fun _ => rfl) (.delete .dumpRequests) id

end Relay

namespace Call

/-- Calls that go by the usage ledger: reports, and deep cleans, which ask who has been active. -/
def readsUsage : Call → Bool
  | .statistics | .usageStatistics | .deepClean _ => true
  | _ => false

/-- In production all other calls come to the same with the ledger and without it. -/
theorem matches_of_production {w w' : Setting} (hw : w.SameButUsage w')
    (hproduction : w.config.environment = .production) (hclock : 0 ≤ w.clock.seconds)
    {call : Call} (h : call.readsUsage = false) :
    Matches (Relay.Linked Store.SameButUsage) (call.perform w) (call.perform w') := by
  cases hfor : call.user? with
  | some user =>
    exact perform_matches (Store.binds_sameButUsage user) hw
      (Relay.noteUsage_matches hw hproduction hclock) (Relay.enforceCap_agrees w user) hfor
  | none =>
    cases call with
    | submit batch source client =>
      cases batch with
      | nil => exact .map _ (.pure _)
      | cons first rest => cases hfor
    | sweep => exact .map _ (Relay.sweep_matches hw)
    | ping => exact .map _ (Relay.locked_matches (.pure ()))
    | wipe =>
      have hrefused {w : Setting} (hw : w.config.environment = .production) :
          Relay.wipeEntries w = fail .wipeOutsideTest := if_neg (by simp [hw])
      rw [perform, perform, hrefused hproduction, hrefused (hw.environment ▸ hproduction)]
      exact .map _ (.fail _)
    | statistics | usageStatistics | deepClean => cases h
    | _ => cases hfor

end Call

structure Turn.SameButUsage (t t' : Turn) : Prop where
  call : t.call = t'.call
  setting : t.setting.SameButUsage t'.setting

/-- The turn is taken in production, at a clock that can be read, and does not go by the usage
ledger. -/
structure Turn.Plain (t : Turn) : Prop where
  production : t.setting.config.environment = .production
  readable : 0 ≤ t.setting.clock.seconds
  blind : t.call.readsUsage = false

namespace Relay
variable {r r' : Relay} {turns turns' : List Turn}

theorem run_matches (hlinked : Linked Store.SameButUsage r r')
    (hturns : List.Forall₂ Turn.SameButUsage turns turns') (hplain : ∀ t ∈ turns, t.Plain) :
    r.outcomes turns = r'.outcomes turns' ∧
      Linked Store.SameButUsage (r.run turns) (r'.run turns') := by
  induction hturns generalizing r r' with
  | nil => exact ⟨rfl, hlinked⟩
  | @cons t t' rest rest' ht _ ih =>
    obtain ⟨w, call⟩ := t
    obtain ⟨w', call'⟩ := t'
    obtain rfl : call = call' := ht.call
    obtain ⟨hfirst, hrest⟩ := List.forall_mem_cons.1 hplain
    obtain ⟨hout, hnext⟩ := Call.matches_of_production ht.setting hfirst.production hfirst.readable
      hfirst.blind r r' hlinked
    obtain ⟨houts, hlast⟩ := ih hnext hrest
    exact ⟨congrArg₂ List.cons hout houts, hlast⟩

/-- In production, at clocks that can be read, two runs of the same calls on stores that differ in
the usage ledger at most come to the same outcomes and leave the same rows in all other tables after
every turn, whatever the ledgers hold, whether either run keeps its own, and whatever the store says
to its rows. -/
theorem usage_is_unobserved (hlock : r.poisoned = r'.poisoned)
    (hstore : r.store.besidesUsage = r'.store.besidesUsage)
    (hturns : List.Forall₂ Turn.SameButUsage turns turns') (hplain : ∀ t ∈ turns, t.Plain) :
    r.outcomes turns = r'.outcomes turns' ∧ ∀ n,
      (r.run (turns.take n)).store.besidesUsage = (r'.run (turns'.take n)).store.besidesUsage := by
  refine ⟨(run_matches ⟨hlock, hstore⟩ hturns hplain).1, fun n => ?_⟩
  have hearly := run_matches ⟨hlock, hstore⟩ (List.forall₂_take n hturns)
    fun t ht => hplain t (List.mem_of_mem_take ht)
  exact hearly.2.2

/-- A ledger with a row that takes no other one, and none at all. -/
theorem usage_is_unobserved_when_refused :
    let config (track : Bool) : Config := { environment := .production, trackUsage := track }
    let full : Setting :=
      ⟨config true, default, fun st => if st = .insert .usage [] then some "full" else none⟩
    let silent : Setting := ⟨config false, default, fun _ => none⟩
    let entry : Entry := ⟨[1], [2], "", "ada", default, "e", 0, false⟩
    let calls : List Call := [.register ⟨"ada", "desk", false⟩ .unknown,
      .submit [entry] none .unknown, .query "ada" "desk" none .unknown]
    let noted := run {} [⟨⟨config true, default, fun _ => none⟩, .query "ada" "lap" none .unknown⟩]
    noted.store.usage.length = 1 ∧
      noted.outcomes (calls.map (⟨full, ·⟩)) = ({} : Relay).outcomes (calls.map (⟨silent, ·⟩)) ∧
      (noted.outcomes (calls.map (⟨full, ·⟩))).all Outcome.answered ∧
      (noted.run (calls.map (⟨full, ·⟩))).store.besidesUsage =
        (({} : Relay).run (calls.map (⟨silent, ·⟩))).store.besidesUsage := by
  intro config full silent entry calls noted
  have hsetting : full.SameButUsage silent :=
    ⟨rfl, rfl, fun st h => if_neg fun he => h [] he⟩
  have hturns : List.Forall₂ Turn.SameButUsage (calls.map (Turn.mk full))
      (calls.map (Turn.mk silent)) :=
    .cons ⟨rfl, hsetting⟩ (.cons ⟨rfl, hsetting⟩ (.cons ⟨rfl, hsetting⟩ .nil))
  have hplain : ∀ t ∈ calls.map (Turn.mk full), t.Plain := by
    intro t ht
    simp only [calls, List.map_cons, List.map_nil, List.mem_cons, List.not_mem_nil, or_false] at ht
    obtain rfl | rfl | rfl := ht
    · exact ⟨rfl, by decide, rfl⟩
    · exact ⟨rfl, by decide, rfl⟩
    · exact ⟨rfl, by decide, rfl⟩
  have hlock : noted.poisoned = ({} : Relay).poisoned := by cbv
  have hstore : noted.store.besidesUsage = ({} : Relay).store.besidesUsage := by cbv
  obtain ⟨hout, hrows⟩ := usage_is_unobserved hlock hstore hturns hplain
  exact ⟨by cbv, hout, by cbv, hrows 3⟩

end Relay

end HistoryRelay
