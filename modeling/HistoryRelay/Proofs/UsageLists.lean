import HistoryRelay.Proofs.ClientHeaders
import HistoryRelay.Proofs.UsageLedger
import HistoryRelay.Proofs.UsageRollup

/-! The addresses and versions of the usage rollup. The store joins the values of a user with commas
and the relay cuts the text at the commas again. Main statement: a list tells the pieces between the
commas of the values, in order, and it is the list of the values themselves exactly if none of them
has a comma in it, which is so after every run in which no client has said one. -/
namespace HistoryRelay

namespace Usage
variable {values : List String} {v : String}

def Uncut (values : List String) : Prop := ∀ v ∈ values, ',' ∉ v.toList

/-- These are the values that are not empty, each once, in order. -/
structure Lists (listed values : List String) : Prop where
  ascending : listed.Pairwise (· < ·)
  mem : ∀ v, v ∈ listed ↔ v ∈ values ∧ v ≠ ""

/-- The pieces of a text between its commas, without the empty ones. -/
def pieces (s : String) : List String :=
  ((s.toList.splitOn ',').map String.ofList).filter (· ≠ "")

/-- These are the pieces of the values, in order. -/
structure ListsPieces (listed values : List String) : Prop where
  ascending : listed.Pairwise (· ≤ ·)
  mem : ∀ v, v ∈ listed ↔ ∃ value ∈ values, v ∈ pieces value

theorem mem_pieces {s : String} : v ∈ pieces s ↔ v.toList ∈ s.toList.splitOn ',' ∧ v ≠ "" := by
  have hread : v ∈ (s.toList.splitOn ',').map String.ofList ↔ v.toList ∈ s.toList.splitOn ',' :=
    ⟨fun h => by
      obtain ⟨piece, hpiece, rfl⟩ := List.mem_map.1 h
      rwa [String.toList_ofList], fun h => List.mem_map.2 ⟨v.toList, h, String.ofList_toList⟩⟩
  rw [pieces, List.mem_filter, hread, decide_eq_true_eq]

theorem comma_not_mem_of_mem_pieces {s : String} (h : v ∈ pieces s) : ',' ∉ v.toList :=
  not_mem_of_mem_splitOn (mem_pieces.1 h).1

theorem pieces_of_uncut {s : String} (h : ',' ∉ s.toList) : pieces s = [s].filter (· ≠ "") := by
  rw [pieces, List.splitOn_eq_singleton h, List.map_singleton, String.ofList_toList]

theorem pieces_intercalate (vs : List String) :
    pieces (",".intercalate vs) = vs.flatMap pieces := by
  cases vs with
  | nil => rfl
  | cons v vs =>
    have hcut : ([','].intercalate ((v :: vs).map String.toList)).splitOn ',' = _ :=
      splitOn_intercalate_eq_flatMap (by simp)
    rw [pieces, String.toList_intercalate, show ",".toList = [','] from rfl, hcut,
      List.flatMap_map, List.map_flatMap, List.filter_flatMap]
    rfl

theorem parts_eq (values : List String) :
    parts values = (values.eraseDups.flatMap pieces).mergeSort fun a b => a ≤ b := by
  rw [parts, List.filter_flatMap]
  rfl

/-- The parts of the values are the pieces of the text that joins them, in whatever order the store
joins them. -/
theorem parts_eq_pieces_joined {joined : List String} (h : joined.Perm values.eraseDups) :
    parts values = (pieces (",".intercalate joined)).mergeSort fun a b => a ≤ b := by
  rw [parts_eq, pieces_intercalate]
  exact mergeSort_eq_of_perm (h.symm.flatMap_right pieces)

theorem parts_eq_of_perm {values' : List String} (h : values.Perm values') :
    parts values = parts values' := by
  have hdistinct : values.eraseDups.Perm values'.eraseDups :=
    (List.perm_ext_iff_of_nodup (nodup_eraseDups _) (nodup_eraseDups _)).2
      fun v => by simp only [List.mem_eraseDups, h.mem_iff]
  rw [parts_eq, parts_eq]
  exact mergeSort_eq_of_perm (hdistinct.flatMap_right pieces)

theorem listsPieces_parts (values : List String) : ListsPieces (parts values) values where
  ascending := by
    rw [parts_eq]
    exact List.pairwise_mergeSort' _ _
  mem v := by
    rw [parts_eq, List.mem_mergeSort, List.mem_flatMap]
    simp only [List.mem_eraseDups]

theorem parts_of_uncut (h : Uncut values) :
    parts values = (values.eraseDups.filter (· ≠ "")).mergeSort fun a b => a ≤ b := by
  have hwhole : values.eraseDups.flatMap pieces =
      values.eraseDups.flatMap fun v => [v].filter (· ≠ "") :=
    List.flatMap_congr fun v hv => pieces_of_uncut (h v (List.mem_eraseDups.1 hv))
  rw [parts_eq, hwhole, ← List.filter_flatMap]
  simp

/-- A value with a comma is lost, since no piece has one. -/
theorem lists_parts : Lists (parts values) values ↔ Uncut values := by
  constructor
  · intro h v hv hcomma
    have hne : v ≠ "" := by
      rintro rfl
      simp at hcomma
    obtain ⟨value, -, hpiece⟩ := ((listsPieces_parts values).mem v).1 ((h.mem v).2 ⟨hv, hne⟩)
    exact comma_not_mem_of_mem_pieces hpiece hcomma
  · intro h
    have hnodup : (parts values).Nodup := by
      rw [parts_of_uncut h, (List.mergeSort_perm _ _).nodup_iff]
      exact (nodup_eraseDups values).filter _
    refine ⟨?_, fun v => ?_⟩
    · exact (hnodup.and (listsPieces_parts values).ascending).imp fun ⟨hne, hle⟩ =>
        lt_of_le_of_ne hle hne
    · rw [parts_of_uncut h, List.mem_mergeSort, List.mem_filter, List.mem_eraseDups,
        decide_eq_true_eq]

def addresses (user : String) (us : List UsageRow) : List String :=
  (us.filter (·.user = user)).map (·.lastIp)

def versions (user : String) (us : List UsageRow) : List String :=
  (us.filter (·.user = user)).map (·.version)

theorem lists_of_summaries {us : List UsageRow} {s : UsageSummary} {ss : List UsageSummary}
    (h : summaries us = .ok ss) (hs : s ∈ ss) :
    s.ipAddresses = parts (addresses s.user us) ∧ s.versions = parts (versions s.user us) := by
  obtain ⟨total, last, -, -, hsum⟩ := summary?_eq_some.1 (summary?_of_mem h hs)
  have hperm := ofUser_perm s.user us
  rw [hsum]
  exact ⟨parts_eq_of_perm (hperm.map _), parts_eq_of_perm (hperm.map _)⟩

end Usage

theorem UsageRow.Tells.lastIp_version {u : UsageRow} {es : List UsageEvent} (h : u.Tells es) :
    (∃ e ∈ es, e.ip = u.lastIp) ∧ (u.version = "" ∨ ∃ e ∈ es, e.version = u.version) := by
  constructor
  · obtain ⟨e, he, hip⟩ := Option.map_eq_some_iff.1 h.lastIp
    exact ⟨e, List.mem_of_getLast? he, hip⟩
  · cases hlast : ((es.map (·.version)).filter (· ≠ "")).getLast? with
    | none =>
      refine .inl ?_
      rw [h.version, hlast, Option.getD_none]
    | some v =>
      obtain ⟨hv, -⟩ := List.mem_filter.1 (List.mem_of_getLast? hlast)
      obtain ⟨e, he, rfl⟩ := List.mem_map.1 hv
      refine .inr ⟨e, he, ?_⟩
      rw [h.version, hlast, Option.getD_some]

theorem Turn.event?_of_note? {t : Turn} {r : Relay} {e : UsageEvent} (h : t.note? r = some e) :
    t.call.event? t.setting.clock = some e := by
  rw [note?] at h
  split at h
  · exact h
  · cases h

namespace Relay

theorem exists_of_mem_gather {α : Type} {f : Turn → Relay → Option α} {x : α} {r : Relay}
    {turns : List Turn} (h : x ∈ gather f r turns) : ∃ t ∈ turns, ∃ r', f t r' = some x := by
  induction turns generalizing r with
  | nil => cases h
  | cons t rest ih =>
    obtain hx | hx := List.mem_append.1 h
    · exact ⟨t, List.mem_cons_self, r, Option.mem_toList.1 hx⟩
    · obtain ⟨t', ht', hf⟩ := ih hx
      exact ⟨t', List.mem_cons_of_mem t ht', hf⟩

theorem uncut_of_run {turns : List Turn}
    (h : ∀ t ∈ turns, ∀ e, t.call.event? t.setting.clock = some e →
      ',' ∉ e.ip.toList ∧ ',' ∉ e.version.toList) (user : String) :
    Usage.Uncut (Usage.addresses user (run {} turns).store.usage) ∧
      Usage.Uncut (Usage.versions user (run {} turns).store.usage) := by
  have hsaid : ∀ u ∈ (run {} turns).store.usage,
      ',' ∉ u.lastIp.toList ∧ ',' ∉ u.version.toList := by
    intro u hu
    have htells := (accounts_notes turns u.user u.device).tells u hu rfl
    have hevent : ∀ e ∈ (gather Turn.note? {} turns).filter (·.isOf u.user u.device),
        ',' ∉ e.ip.toList ∧ ',' ∉ e.version.toList := by
      intro e he
      obtain ⟨t, ht, r, hnote⟩ := exists_of_mem_gather (List.mem_of_mem_filter he)
      exact h t ht e (Turn.event?_of_note? hnote)
    obtain ⟨⟨e, he, hip⟩, hversion⟩ := htells.lastIp_version
    refine ⟨hip ▸ (hevent e he).1, ?_⟩
    obtain hnone | ⟨e, he, hversion⟩ := hversion
    · simp [hnone]
    · exact hversion ▸ (hevent e he).2
  constructor
  · exact List.forall_mem_map.2 fun u hu => (hsaid u (List.mem_of_mem_filter hu)).1
  · exact List.forall_mem_map.2 fun u hu => (hsaid u (List.mem_of_mem_filter hu)).2

/-- The rollup lists the pieces between the commas of the addresses and versions that the rows of a
user tell, and these lists are exact, the addresses and versions themselves each once and in order,
if and only if none of them has a comma. That is so after any run in which no client has said one.
The rollup is answered where the counters of the ledger fit. -/
theorem usage_lists_are_exact_without_commas (w : Setting) :
    (∀ r r' ss, usageStatistics w r = (.answer ss, r') →
      (∀ u ∈ r.store.usage, ∃ s ∈ ss, s.user = u.user) ∧
      ∀ s ∈ ss,
        let ips := Usage.addresses s.user r.store.usage
        let versions := Usage.versions s.user r.store.usage
        Usage.ListsPieces s.ipAddresses ips ∧ Usage.ListsPieces s.versions versions ∧
          (Usage.Lists s.ipAddresses ips ↔ Usage.Uncut ips) ∧
          (Usage.Lists s.versions versions ↔ Usage.Uncut versions)) ∧
    (∀ turns r' ss,
      (∀ t ∈ turns, ∀ e, t.call.event? t.setting.clock = some e →
        ',' ∉ e.ip.toList ∧ ',' ∉ e.version.toList) →
      usageStatistics w (run {} turns) = (.answer ss, r') →
      ∀ s ∈ ss,
        Usage.Lists s.ipAddresses (Usage.addresses s.user (run {} turns).store.usage) ∧
          Usage.Lists s.versions (Usage.versions s.user (run {} turns).store.usage)) ∧
    ∀ r, r.poisoned = false → w.refusals (.select .usage) = none → Usage.Fits r.store.usage →
      ∃ ss, usageStatistics w r = (.answer ss, r) := by
  refine ⟨fun r r' ss h => ?_, fun turns r' ss hsaid h s hs => ?_, fun r hp hgranted hfits => ?_⟩
  · obtain ⟨-, -, hss, -⟩ := usageStatistics_answer.1 h
    refine ⟨fun u hu => ?_, fun s hs => ?_⟩
    · exact List.mem_map.1 (((Usage.rollup_of_summaries hss).known u.user).2 ⟨u, hu, rfl⟩)
    · obtain ⟨hips, hversions⟩ := Usage.lists_of_summaries hss hs
      rw [hips, hversions]
      exact ⟨Usage.listsPieces_parts _, Usage.listsPieces_parts _, Usage.lists_parts,
        Usage.lists_parts⟩
  · obtain ⟨-, -, hss, -⟩ := usageStatistics_answer.1 h
    obtain ⟨hips, hversions⟩ := Usage.lists_of_summaries hss hs
    obtain ⟨huncut, huncut'⟩ := uncut_of_run hsaid s.user
    rw [hips, hversions]
    exact ⟨Usage.lists_parts.2 huncut, Usage.lists_parts.2 huncut'⟩
  · obtain ⟨ss, hss⟩ := hfits.summaries
    exact ⟨ss, usageStatistics_answer.2 ⟨hp, hgranted, hss, rfl⟩⟩

/-- Two devices of a user behind one proxy, the second of which does not tell its version. -/
theorem usage_lists_are_exact_without_commas_for_two :
    let desk : Client := ⟨"v0.300", "10.0.0.1"⟩
    let lap : Client := ⟨"", "10.0.0.1"⟩
    let turns : List Turn := [⟨default, .register ⟨"ada", "desk", false⟩ desk⟩,
      ⟨default, .register ⟨"ada", "lap", false⟩ lap⟩]
    Client.ofHeaders desk.headers = desk ∧ Client.ofHeaders lap.headers = lap ∧
      ∃ ss, usageStatistics default (run {} turns) = (.answer ss, run {} turns) ∧
        ∃ s ∈ ss, s.user = "ada" ∧ Usage.Lists s.ipAddresses ["10.0.0.1", "10.0.0.1"] ∧
          Usage.Lists s.versions ["v0.300", ""] := by
  intro desk lap turns
  have hdesk : Client.Told ⟨"v0.300", "10.0.0.1"⟩ := by decide
  have hlap : Client.Told ⟨"", "10.0.0.1"⟩ := by decide
  obtain ⟨hall, hruns, hanswers⟩ := usage_lists_are_exact_without_commas default
  have hledger : (run {} turns).store.usage =
      [⟨"ada", "desk", ⟨0, by decide, by decide⟩, "10.0.0.1", .whole 0, none, 0, "v0.300"⟩,
        ⟨"ada", "lap", ⟨0, by decide, by decide⟩, "10.0.0.1", .whole 0, none, 0, ""⟩] := by cbv
  have hfits : Usage.Fits (run {} turns).store.usage := by
    rw [hledger]
    exact Usage.fits_of_nonneg (List.forall_mem_cons.2 ⟨⟨0, rfl⟩, List.forall_mem_cons.2
      ⟨⟨0, rfl⟩, by simp⟩⟩) (by decide)
  obtain ⟨ss, hss⟩ := hanswers (run {} turns) (by cbv) rfl hfits
  have hsaid : ∀ t ∈ turns, ∀ e, t.call.event? t.setting.clock = some e →
      ',' ∉ e.ip.toList ∧ ',' ∉ e.version.toList := by
    simp [turns, desk, lap, Call.event?]
  obtain ⟨s, hs, huser⟩ := (hall _ _ _ hss).1 _ (hledger ▸ List.mem_cons_self)
  have hlists := hruns turns _ ss hsaid hss s hs
  rw [huser, hledger] at hlists
  exact ⟨Client.ofHeaders_headers hdesk, Client.ofHeaders_headers hlap, ss, hss, s, hs, huser,
    hlists⟩

/-- A proxy has added its own address to the header of a client. -/
theorem forwarded_address_is_cut :
    let client : Client := ⟨"", "10.0.0.1,10.0.0.2"⟩
    let r := run {} [⟨default, .register ⟨"ada", "desk", false⟩ client⟩]
    Client.ofHeaders client.headers = client ∧
      ∃ s, usageStatistics default r = (.answer [s], r) ∧ s.user = "ada" ∧
        s.ipAddresses = ["10.0.0.1", "10.0.0.2"] ∧
        Usage.addresses "ada" r.store.usage = ["10.0.0.1,10.0.0.2"] ∧
        ¬Usage.Lists s.ipAddresses (Usage.addresses "ada" r.store.usage) := by
  intro client r
  have htold : Client.Told ⟨"", "10.0.0.1,10.0.0.2"⟩ := by decide
  have hanswer : (usageStatistics default r).1 = .answer
      [⟨"ada", 1, 0, 0, ⟨0, by decide, by decide⟩, none, ["10.0.0.1", "10.0.0.2"], []⟩] := by cbv
  have hips : Usage.addresses "ada" r.store.usage = ["10.0.0.1,10.0.0.2"] := by cbv
  have hlost : ¬Usage.Lists ["10.0.0.1", "10.0.0.2"] ["10.0.0.1,10.0.0.2"] := fun h =>
    absurd ((h.mem "10.0.0.1,10.0.0.2").2 (by decide)) (by decide)
  cases hout : usageStatistics default r with
  | mk o r' =>
    rw [hout] at hanswer
    obtain rfl : o = _ := hanswer
    obtain ⟨-, -, -, rfl⟩ := usageStatistics_answer.1 hout
    exact ⟨Client.ofHeaders_headers htold, _, rfl, rfl, rfl, hips, hips ▸ hlost⟩

end Relay

end HistoryRelay
