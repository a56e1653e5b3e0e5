import HistoryRelay.Proofs.Traffic

/-! Deliveries when the halves of queries lie apart. Main statements: a row is delivered at most as
often as the limit says and once more for each further query of its device that is in flight at one
time; and it waits until the queries that were in flight when it was stored and those that have
delivered it are as many as the limit. -/
namespace HistoryRelay
open Step

namespace Traffic

theorem ascending_run (events : List Event) :
    Ascending EntryRow.id (run {} events).relay.store.lastEntry
      (run {} events).relay.store.entries := by
  suffices h : ∀ s : Traffic, Ascending EntryRow.id s.relay.store.lastEntry s.relay.store.entries →
      Ascending EntryRow.id (s.run events).relay.store.lastEntry (s.run events).relay.store.entries
    from h {} .nil
  induction events with
  | nil => exact fun s hs => hs
  | cons e rest ih =>
    refine fun s hs => ih (s.step e) ?_
    exact (s.step_leads e).keeps (P := fun t => Ascending EntryRow.id t.lastEntry t.entries) hs
      fun c _ _ h => c.ascending_entries h

section Bound
variable {limit most id got flying : Nat} {user device : String} {s t : Store}

/-- Deliveries of a row are reads of its device: those that are counted show in the row, the others
are in flight. -/
structure Covered (limit most : Nat) (user device : String) (id got flying : Nat) (s : Store) :
    Prop where
  ascending : Ascending EntryRow.id s.lastEntry s.entries
  unborn : s.lastEntry < id → got = 0
  covered : ∀ x ∈ s.entries, x.id = id → x.isFor user device → got ≤ x.readCount + flying
  bounded : got ≤ limit + most - 1

namespace Covered

theorem grow (h : Covered limit most user device id got flying s) (hg : s.Grows t)
    (ht : Ascending EntryRow.id t.lastEntry t.entries) :
    Covered limit most user device id got flying t := by
  refine ⟨ht, fun hlt => h.unborn (Nat.lt_of_le_of_lt hg.1 hlt), fun x hx hid hfor => ?_, h.bounded⟩
  obtain hx | ⟨hlt, -⟩ := hg.2 x hx
  · exact h.covered x hx hid hfor
  · have := h.unborn (hid ▸ hlt)
    omega

theorem ask (h : Covered limit most user device id got flying s) (hmost : flying + 1 ≤ most) :
    Covered limit most user device id
      (got + if (Entries.pending user device limit s.entries).any (·.id = id) then 1 else 0)
      (flying + 1) s := by
  split
  · rename_i hwaits
    obtain ⟨x, hx, hid⟩ : ∃ x ∈ Entries.pending user device limit s.entries, x.id = id := by
      simpa using hwaits
    obtain ⟨hin, hfor, hread, -⟩ := Entries.mem_pending.1 hx
    have hcovered := h.covered x hin hid (EntryRow.isFor_iff.2 hfor)
    refine ⟨h.ascending, fun hlt => ?_, fun y hy hyid hyfor => ?_, by omega⟩
    · have := h.ascending.le x hin
      omega
    · have := h.covered y hy hyid hyfor
      omega
  · refine ⟨h.ascending, h.unborn, fun y hy hyid hyfor => ?_, h.bounded⟩
    have := h.covered y hy hyid hyfor
    omega

theorem count (h : Covered limit most user device id got (flying + 1) s) :
    Covered limit most user device id got flying ((Change.bumpEntries user device).apply s) := by
  refine ⟨(Change.bumpEntries user device).ascending_entries h.ascending, h.unborn,
    fun x hx hid hfor => ?_, h.bounded⟩
  obtain ⟨y, hy, hyfor, rfl⟩ | ⟨-, hnot⟩ := Entries.mem_bump_cases hx
  · have := h.covered y hy hid hyfor
    show got ≤ y.readCount + 1 + flying
    omega
  · exact absurd hfor hnot

theorem countOther (h : Covered limit most user device id got flying s) {u d : String}
    (hne : ¬(u = user ∧ d = device)) :
    Covered limit most user device id got flying ((Change.bumpEntries u d).apply s) := by
  refine ⟨(Change.bumpEntries u d).ascending_entries h.ascending, h.unborn,
    fun x hx hid hfor => ?_, h.bounded⟩
  obtain ⟨y, -, hyfor, rfl⟩ | ⟨hx, -⟩ := Entries.mem_bump_cases hx
  · exact absurd (EntryRow.isFor_unique hyfor hfor) hne
  · exact h.covered x hx hid hfor

theorem step {s : Traffic} {e : Event}
    (h : Covered limit most user device id got (s.flying user device) s.relay.store)
    (hl : e.setting.config.queryReadLimit = limit) (hmost : (s.step e).flying user device ≤ most) :
    Covered limit most user device id (got + if e.delivers user device id s then 1 else 0)
      ((s.step e).flying user device) (s.step e).relay.store := by
  have hascending := (s.step_leads e).keeps
    (P := fun t => Ascending EntryRow.id t.lastEntry t.entries)
    h.ascending fun c _ _ h => c.ascending_entries h
  cases e.effect user device s with
  | grown rows flying delivers =>
    rw [flying, delivers, if_neg Bool.false_ne_true]
    exact h.grow rows hascending
  | asked rows flying delivers =>
    rw [flying] at hmost
    rw [flying, delivers, hl]
    exact (h.grow rows hascending).ask hmost
  | counted rows flying delivers =>
    rw [rows, delivers, if_neg Bool.false_ne_true]
    rw [← flying] at h
    exact h.count
  | otherCounted u d other rows flying delivers =>
    rw [rows, flying, delivers, if_neg Bool.false_ne_true]
    exact h.countOther other

theorem run {events : List Event} {s : Traffic}
    (h : Covered limit most user device id got (s.flying user device) s.relay.store)
    (hl : ∀ e ∈ events, e.setting.config.queryReadLimit = limit)
    (hmost : ∀ before, before <+: events → (s.run before).flying user device ≤ most) :
    Covered limit most user device id (got + deliveries user device id s events)
      ((s.run events).flying user device) (s.run events).relay.store := by
  induction events generalizing s got with
  | nil => exact h
  | cons e rest ih =>
    have hfirst := h.step (hl e List.mem_cons_self) (hmost [e] ⟨rest, rfl⟩)
    have hrest := ih hfirst (fun f hf => hl f (List.mem_cons_of_mem e hf))
      fun before hbefore => hmost (e :: before) (List.cons_prefix_cons.2 ⟨rfl, hbefore⟩)
    rw [deliveries, ← Nat.add_assoc, run_cons]
    exact hrest

end Covered

/-- However the halves of queries lie between other events, a row is delivered to its device at most
as often as the limit says, and once more for each query of the device beyond the first that is in
flight at one time. -/
theorem deliveries_are_bounded (limit most : Nat) (user device : String) (events : List Event)
    (hl : ∀ e ∈ events, e.setting.config.queryReadLimit = limit)
    (hmost : ∀ before, before <+: events → (run {} before).flying user device ≤ most) (id : Nat) :
    deliveries user device id {} events ≤ limit + most - 1 := by
  have hempty : Covered limit most user device id 0
      (({} : Traffic).flying user device) ({} : Traffic).relay.store := by
    refine ⟨.nil, fun _ => rfl, fun x hx => ?_, Nat.zero_le _⟩
    cases hx
  have hrun := (hempty.run hl hmost).bounded
  rwa [Nat.zero_add] at hrun

/-- Two queries read before either counts, and where one delivery is the limit there are two. -/
theorem deliveries_are_bounded_for_two :
    let w : Setting := ⟨{ queryReadLimit := 1 }, default, fun _ => none⟩
    let events : List Event := [.turn ⟨w, .register ⟨"ada", "desk", false⟩ .unknown⟩ (by simp),
      .turn
        ⟨w, .submit [⟨[1], [2], "lap", "ada", default, "e1", 0, false⟩] none .unknown⟩ (by simp),
      .read w "ada" "desk" none .unknown, .read w "ada" "desk" none .unknown]
    deliveries "ada" "desk" 1 {} events = 2 ∧ deliveries "ada" "desk" 1 {} events ≤ 1 + 2 - 1 := by
  intro w events
  have htwice : deliveries "ada" "desk" 1 {} events = 2 := by cbv
  refine ⟨htwice, deliveries_are_bounded 1 2 "ada" "desk" events (fun e he => ?_)
    (fun before hbefore => ?_) 1⟩
  · simp only [events, List.mem_cons, List.not_mem_nil, or_false] at he
    obtain rfl | rfl | rfl | rfl := he <;> rfl
  · have hinits : before ∈ events.inits := (List.mem_inits _ _).2 hbefore
    have hflying : (events.inits.all fun b => (run {} b).flying "ada" "desk" ≤ 2) = true := by cbv
    simpa using List.all_eq_true.1 hflying before hinits

end Bound

section Overtaking
variable {limit m got flying : Nat} {row : EntryRow} {s t : Store}

/-- A row that was stored unread while a number of queries of its device were in flight. Besides
those, only queries that have delivered it have counted a read of it, as long as all of them
together are fewer than the limit. -/
structure Awaited (limit m : Nat) (row : EntryRow) (got flying : Nat) (s : Store) : Prop where
  old : row.id ≤ s.lastEntry
  kept : ∀ x ∈ s.entries, x.id = row.id → x = { row with readCount := x.readCount }
  slack : m + got < limit → ∀ x ∈ s.entries, x.id = row.id → x.readCount + flying ≤ m + got

namespace Awaited

theorem grow (h : Awaited limit m row got flying s) (hg : s.Grows t) :
    Awaited limit m row got flying t := by
  have hold : ∀ x ∈ t.entries, x.id = row.id → x ∈ s.entries := fun x hx hid =>
    hg.mem_of_le hx (hid.trans_le h.old)
  exact ⟨Nat.le_trans h.old hg.1, fun x hx hid => h.kept x (hold x hx hid) hid,
    fun hfew x hx hid => h.slack hfew x (hold x hx hid) hid⟩

theorem isFor (h : Awaited limit m row got flying s) {x : EntryRow} (hx : x ∈ s.entries)
    (hid : x.id = row.id) : x.isFor row.user row.device = true := by
  rw [h.kept x hx hid]
  exact EntryRow.isFor_iff.2 ⟨rfl, rfl⟩

theorem waits (h : Awaited limit m row got flying s) (hself : row.fromSameDevice = false)
    (hfew : m + got < limit) {x : EntryRow} (hx : x ∈ s.entries) (hid : x.id = row.id) :
    (Entries.pending row.user row.device limit s.entries).any (·.id = row.id) = true := by
  have hkept := h.kept x hx hid
  have hslack := h.slack hfew x hx hid
  have hpending : x ∈ Entries.pending row.user row.device limit s.entries := by
    refine Entries.mem_pending.2 ⟨hx, ?_, by omega, ?_⟩
    · rw [hkept]
      exact ⟨rfl, rfl⟩
    · rw [hkept]
      exact hself
  exact List.any_eq_true.2 ⟨x, hpending, by simpa using hid⟩

theorem ask (h : Awaited limit m row got flying s) (hself : row.fromSameDevice = false) :
    Awaited limit m row (got + if (Entries.pending row.user row.device limit s.entries).any
      (·.id = row.id) then 1 else 0) (flying + 1) s := by
  refine ⟨h.old, h.kept, fun hfew x hx hid => ?_⟩
  have hbefore : m + got < limit := by omega
  have hslack := h.slack hbefore x hx hid
  rw [if_pos (h.waits hself hbefore hx hid)]
  omega

theorem count (h : Awaited limit m row got (flying + 1) s) :
    Awaited limit m row got flying ((Change.bumpEntries row.user row.device).apply s) := by
  have hread : ∀ x ∈ Entries.bump row.user row.device s.entries, x.id = row.id →
      ∃ y ∈ s.entries, y.id = row.id ∧ x = { y with readCount := y.readCount + 1 } := by
    intro x hx hid
    obtain ⟨y, hy, -, rfl⟩ | ⟨hx, hnot⟩ := Entries.mem_bump_cases hx
    · exact ⟨y, hy, hid, rfl⟩
    · exact absurd (h.isFor hx hid) hnot
  refine ⟨h.old, fun x hx hid => ?_, fun hfew x hx hid => ?_⟩
  · obtain ⟨y, hy, hyid, rfl⟩ := hread x hx hid
    exact congrArg (fun z : EntryRow => { z with readCount := y.readCount + 1 }) (h.kept y hy hyid)
  · obtain ⟨y, hy, hyid, rfl⟩ := hread x hx hid
    have := h.slack hfew y hy hyid
    show y.readCount + 1 + flying ≤ m + got
    omega

theorem countOther (h : Awaited limit m row got flying s) {u d : String}
    (hne : ¬(u = row.user ∧ d = row.device)) :
    Awaited limit m row got flying ((Change.bumpEntries u d).apply s) := by
  have hsame : ∀ x ∈ Entries.bump u d s.entries, x.id = row.id → x ∈ s.entries := by
    intro x hx hid
    obtain ⟨y, hy, hfor, rfl⟩ | ⟨hx, -⟩ := Entries.mem_bump_cases hx
    · exact absurd (EntryRow.isFor_unique hfor (h.isFor hy hid)) hne
    · exact hx
  exact ⟨h.old, fun x hx hid => h.kept x (hsame x hx hid) hid,
    fun hfew x hx hid => h.slack hfew x (hsame x hx hid) hid⟩

theorem step {s : Traffic} {e : Event}
    (h : Awaited limit m row got (s.flying row.user row.device) s.relay.store)
    (hself : row.fromSameDevice = false) (hl : e.setting.config.queryReadLimit = limit) :
    Awaited limit m row (got + if e.delivers row.user row.device row.id s then 1 else 0)
      ((s.step e).flying row.user row.device) (s.step e).relay.store := by
  cases e.effect row.user row.device s with
  | grown rows flying delivers =>
    rw [flying, delivers, if_neg Bool.false_ne_true]
    exact h.grow rows
  | asked rows flying delivers =>
    rw [flying, delivers, hl]
    exact (h.grow rows).ask hself
  | counted rows flying delivers =>
    rw [rows, delivers, if_neg Bool.false_ne_true]
    rw [← flying] at h
    exact h.count
  | otherCounted u d other rows flying delivers =>
    rw [rows, flying, delivers, if_neg Bool.false_ne_true]
    exact h.countOther other

theorem run {events : List Event} {s : Traffic}
    (h : Awaited limit m row got (s.flying row.user row.device) s.relay.store)
    (hself : row.fromSameDevice = false)
    (hl : ∀ e ∈ events, e.setting.config.queryReadLimit = limit) :
    Awaited limit m row (got + deliveries row.user row.device row.id s events)
      ((s.run events).flying row.user row.device) (s.run events).relay.store := by
  induction events generalizing s got with
  | nil => exact h
  | cons e rest ih =>
    have hfirst := h.step hself (hl e List.mem_cons_self)
    have hrest := ih hfirst fun f hf => hl f (List.mem_cons_of_mem e hf)
    rw [deliveries, ← Nat.add_assoc, run_cons]
    exact hrest

end Awaited

theorem awaited_of_new {before : List Event} {storing : Event}
    (hold : ∀ x ∈ (run {} before).relay.store.entries, x.id ≠ row.id)
    (hnew : row ∈ (run {} (before ++ [storing])).relay.store.entries) (limit : Nat) :
    let stored := run {} (before ++ [storing])
    Awaited limit (stored.flying row.user row.device) row 0 (stored.flying row.user row.device)
      stored.relay.store := by
  intro stored
  have hascending := ascending_run (before ++ [storing])
  have hstored : stored = (run {} before).step storing := by
    simp only [stored, run_append]
    rfl
  have hcount : row.readCount = 0 := by
    have hbump {u d : String} (hrow : row ∈ Entries.bump u d (run {} before).relay.store.entries) :
        row.readCount = 0 := by
      obtain ⟨y, hy, hid, -⟩ := Entries.mem_bump hrow
      exact absurd hid (hold y hy)
    have hgrow (hrows : (run {} before).relay.store.Grows stored.relay.store) :
        row.readCount = 0 := by
      obtain hin | ⟨-, hread⟩ := hrows.2 row hnew
      · exact absurd rfl (hold row hin)
      · exact hread
    have hrow : row ∈ stored.relay.store.entries := hnew
    rw [hstored] at hrow hgrow
    cases storing.effect row.user row.device (run {} before) with
    | grown rows flying delivers => exact hgrow rows
    | asked rows flying delivers => exact hgrow rows
    | counted rows flying delivers =>
      rw [rows] at hrow
      exact hbump hrow
    | otherCounted u d other rows flying delivers =>
      rw [rows] at hrow
      exact hbump hrow
  refine ⟨hascending.le row hnew, fun x hx hid => ?_, fun _ x hx hid => ?_⟩
  · rw [hascending.unique hx hnew hid]
  · rw [hascending.unique hx hnew hid, hcount, Nat.zero_add]
    exact Nat.le_add_right _ _

/-- The queries of its device that are in flight when a row is stored, and those that deliver it,
are the only ones that it has been counted for. As long as they are fewer than the limit, the next
query that leaves the row in place delivers it. So a row that no query has delivered waits for the
next one if fewer than the limit were in flight when it was stored. -/
theorem rows_wait_until_delivered {limit : Nat} {before after : List Event} {storing : Event}
    {row : EntryRow} (hl : ∀ e ∈ after, e.setting.config.queryReadLimit = limit)
    (hold : ∀ x ∈ (run {} before).relay.store.entries, x.id ≠ row.id)
    (hnew : row ∈ (run {} (before ++ [storing])).relay.store.entries)
    (hself : row.fromSameDevice = false)
    (hfew : (run {} (before ++ [storing])).flying row.user row.device +
      deliveries row.user row.device row.id (run {} (before ++ [storing])) after < limit) :
    let stored := run {} (before ++ [storing])
    let now := run {} (before ++ storing :: after)
    ∀ x ∈ now.relay.store.entries, x.id = row.id →
      x.readCount ≤ stored.flying row.user row.device +
        deliveries row.user row.device row.id stored after ∧ x.readCount < limit ∧
      ∀ w reason client, w.config.queryReadLimit = limit →
        let next := Event.read w row.user row.device reason client
        (Relay.readPending w row.user row.device reason client now.relay).1.answered →
          x ∈ (now.step next).relay.store.entries →
            next.delivers row.user row.device row.id now = true := by
  intro stored now x hx hid
  have hnow : now = stored.run after := by
    rw [← run_append]
    simp [now]
  have hawaited := (awaited_of_new hold hnew limit).run hself hl
  rw [Nat.zero_add, ← hnow] at hawaited
  have hslack := hawaited.slack hfew x hx hid
  have hread := Nat.le_trans (Nat.le_add_right _ _) hslack
  refine ⟨hread, Nat.lt_of_le_of_lt hread hfew, ?_⟩
  intro w reason client hw next hanswer hleft
  have hgrows := Relay.readPending_grows w row.user row.device reason client now.relay
  have hwaits := (hawaited.grow hgrows).waits hself hfew hleft hid
  simpa [next, Event.delivers, Relay.reported, hw, hanswer] using hwaits

/-- With a limit of two the row is still to be had when one query has counted a read of it. -/
theorem rows_wait_until_delivered_to_second :
    let w : Setting := ⟨{ queryReadLimit := 2 }, default, fun _ => none⟩
    let before : List Event := [.turn ⟨w, .register ⟨"ada", "desk", false⟩ .unknown⟩ (by simp),
      .read w "ada" "desk" none .unknown]
    let storing : Event := .turn
      ⟨w, .submit [⟨[1], [2], "lap", "ada", default, "e1", 0, false⟩] none .unknown⟩ (by simp)
    let after : List Event := [.count w "ada" "desk"]
    let now := run {} (before ++ storing :: after)
    ∃ x ∈ now.relay.store.entries, x.readCount = 1 ∧ x.readCount < 2 ∧
      (Event.read w "ada" "desk" none .unknown).delivers "ada" "desk" 1 now = true := by
  intro w before storing after now
  let row : EntryRow := ⟨1, "ada", "desk", "e1", [1], [2], ⟨0, by decide, by decide⟩, 0, false⟩
  have hbefore : (run {} before).relay.store.entries = [] := by cbv
  have hstored : (run {} (before ++ [storing])).relay.store.entries = [row] := by cbv
  have hnow : (run {} (before ++ storing :: after)).relay.store.entries =
      [{ row with readCount := 1 }] := by cbv
  have hleft : ((run {} (before ++ storing :: after)).step
      (.read w row.user row.device none .unknown)).relay.store.entries =
        [{ row with readCount := 1 }] := by
    unfold row
    cbv
  have hin : { row with readCount := 1 } ∈
      (run {} (before ++ storing :: after)).relay.store.entries := by
    rw [hnow]
    exact List.mem_singleton_self _
  have hthere : { row with readCount := 1 } ∈ ((run {} (before ++ storing :: after)).step
      (.read w row.user row.device none .unknown)).relay.store.entries := by
    rw [hleft]
    exact List.mem_singleton_self _
  obtain ⟨-, hlt, hnext⟩ := @rows_wait_until_delivered 2 before after storing row (fun e he => by
      rw [List.mem_singleton.1 he]
      rfl)
    (by simp [hbefore]) (by simp [hstored]) rfl (by cbv) { row with readCount := 1 } hin rfl
  exact ⟨_, hin, rfl, hlt, hnext w none .unknown rfl (by cbv) hthere⟩

theorem countRead_free {w : Setting} (hw : ∀ st, w.refusals st = none) (user device : String)
    {r : Relay} (hr : r.poisoned = false) :
    (Relay.countRead w user device r).1.answered = true ∧
      (Relay.countRead w user device r).2.poisoned = false := by
  have hlocked : Relay.locked (Store.bumpEntries w.refusals user device) r =
      (.answer _, ⟨(Change.bumpEntries user device).apply r.store, false⟩) :=
    Relay.locked_eq_answer.2 ⟨hr, rfl, Store.bumpEntries_eq_answer.2 ⟨hw _, rfl, rfl⟩⟩
  rw [Relay.countRead, bind_answer hlocked]
  exact ⟨rfl, rfl⟩

/-- The queries in flight count whatever lies there when they count, so a row that came later has
as many reads as there are of them and has never been delivered. -/
theorem counts_overtake {w : Setting} (hw : ∀ st, w.refusals st = none) (n : Nat) {s : Traffic}
    (hs : s.relay.poisoned = false) {x : EntryRow} (hx : x ∈ s.relay.store.entries)
    (hn : n ≤ s.flying x.user x.device) :
    let counts := List.replicate n (Event.count w x.user x.device)
    { x with readCount := x.readCount + n } ∈ (s.run counts).relay.store.entries ∧
      deliveries x.user x.device x.id s counts = 0 := by
  induction n generalizing s x with
  | zero => exact ⟨hx, rfl⟩
  | succ n ih =>
    have hin : (x.user, x.device) ∈ s.inFlight :=
      List.count_pos_iff.1 (Nat.lt_of_lt_of_le (Nat.succ_pos n) hn)
    obtain ⟨hanswer, hfree⟩ := countRead_free hw x.user x.device hs
    have hstep : s.step (.count w x.user x.device) =
        ⟨(Relay.countRead w x.user x.device s.relay).2, s.inFlight.erase (x.user, x.device)⟩ := by
      simp [step, hin, hanswer]
    have hrow : { x with readCount := x.readCount + 1 } ∈
        (Relay.countRead w x.user x.device s.relay).2.store.entries := by
      obtain ⟨-, h⟩ | ⟨h, -⟩ := Relay.countRead_cases w x.user x.device s.relay
      · rw [h]
        refine List.mem_map.2 ⟨x, hx, if_pos (EntryRow.isFor_iff.2 ⟨rfl, rfl⟩)⟩
      · exact absurd (h.symm.trans hanswer) Bool.false_ne_true
    have hflying : n ≤ (s.step (.count w x.user x.device)).flying x.user x.device := by
      rw [hstep, flying, List.count_erase_self]
      exact Nat.le_sub_one_of_lt hn
    have hrest := ih (s := s.step (.count w x.user x.device))
      (x := { x with readCount := x.readCount + 1 }) (by rwa [hstep]) (by rwa [hstep]) hflying
    rw [List.replicate_succ]
    refine ⟨?_, ?_⟩
    · have hsum : x.readCount + 1 + n = x.readCount + (n + 1) := by omega
      rw [run_cons, ← hsum]
      exact hrest.1
    · rw [deliveries, hrest.2]
      rfl

/-- With a limit of one, a query in flight when a row is stored takes the row's only delivery: the
row is counted as read, no query has delivered it and no query will. -/
theorem undelivered_row_is_passed_over :
    let w : Setting := ⟨{ queryReadLimit := 1 }, default, fun _ => none⟩
    let events : List Event := [.turn ⟨w, .register ⟨"ada", "desk", false⟩ .unknown⟩ (by simp),
      .read w "ada" "desk" none .unknown,
      .turn
        ⟨w, .submit [⟨[1], [2], "lap", "ada", default, "e1", 0, false⟩] none .unknown⟩ (by simp),
      .count w "ada" "desk"]
    ∃ row ∈ (run {} events).relay.store.entries, row.fromSameDevice = false ∧
      deliveries row.user row.device row.id {} events = 0 ∧
      ¬row.readCount < w.config.queryReadLimit ∧
      Relay.reported w row.user row.device none .unknown (run {} events).relay = [] := by
  intro w events
  have hrows : (run {} events).relay.store.entries =
      [⟨1, "ada", "desk", "e1", [1], [2], ⟨0, by decide, by decide⟩, 1, false⟩] := by cbv
  rw [hrows]
  exact ⟨_, List.mem_singleton_self _, rfl, by cbv, by decide, by cbv⟩

end Overtaking

end Traffic

end HistoryRelay
