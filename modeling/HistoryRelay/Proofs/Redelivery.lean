import HistoryRelay.Proofs.Numbering
import HistoryRelay.Proofs.Queries

/-! Deliveries of a row. Main statement: the queries of a device return a row that waits for it
until they have returned it as often as they may, and the row counts them. -/
namespace HistoryRelay
open Step

namespace Relay

/-- Something holds of each turn of a run and the relay that it finds. -/
def Each (p : Turn → Relay → Prop) : Relay → List Turn → Prop
  | _, [] => True
  | r, t :: rest => p t r ∧ Each p (t.take r).2 rest

/-- The turns of a run that something is true of. -/
def tally (p : Turn → Relay → Bool) : Relay → List Turn → Nat
  | _, [] => 0
  | r, t :: rest => (if p t r then 1 else 0) + tally p (t.take r).2 rest

theorem each_append {p : Turn → Relay → Prop} {r : Relay} {ts us : List Turn} :
    Each p r (ts ++ us) ↔ Each p r ts ∧ Each p (r.run ts) us := by
  induction ts generalizing r with
  | nil => simp [Each, run]
  | cons t rest ih => rw [List.cons_append, Each, Each, ih, run_cons, and_assoc]

theorem tally_append {p : Turn → Relay → Bool} {r : Relay} {ts us : List Turn} :
    tally p r (ts ++ us) = tally p r ts + tally p (r.run ts) us := by
  induction ts generalizing r with
  | nil => simp [tally, run]
  | cons t rest ih => rw [List.cons_append, tally, tally, ih, run_cons, Nat.add_assoc]

/-- The rows that a query returns if it answers: those that wait for the device once its
deletions are applied. -/
def reported (w : Setting) (user device : String) (reason : Option String) (client : Client)
    (r : Relay) : List EntryRow :=
  Entries.pending user device w.config.queryReadLimit
    (readPending w user device reason client r).2.store.entries

end Relay

namespace Turn

def asks (user device : String) (t : Turn) (r : Relay) : Bool :=
  match t.call with
  | .query u d _ _ => u = user && d = device && (t.take r).1.answered
  | _ => false

/-- A query that answers and returns the row of a number. -/
def delivers (id : Nat) (t : Turn) (r : Relay) : Bool :=
  match t.call with
  | .query user device reason client =>
    (t.take r).1.answered && (Relay.reported t.setting user device reason client r).any (·.id = id)
  | _ => false

/-- What a query answers it counts. This can fail to be so only where the count runs on its own. -/
def Counts (t : Turn) (r : Relay) : Prop :=
  match t.call with
  | .query user device reason client =>
    (t.take r).1.answered = true → (Relay.countRead t.setting user device
      (Relay.readPending t.setting user device reason client r).2).1.answered = true
  | _ => True

section Query
variable {w : Setting} {user device : String} {reason : Option String} {client : Client} {r : Relay}

theorem take_query : ((Turn.mk w (.query user device reason client)).take r).1.answered =
      (Relay.query w user device reason client r).1.answered ∧
    ((Turn.mk w (.query user device reason client)).take r).2 =
      (Relay.query w user device reason client r).2 :=
  map_answered _ _ r

theorem asks_query {u d : String} : (Turn.mk w (.query user device reason client)).asks u d r =
    (user = u && device = d && (Relay.query w user device reason client r).1.answered) := by
  rw [← take_query.1, asks]

theorem delivers_query {id : Nat} : (Turn.mk w (.query user device reason client)).delivers id r =
    ((Relay.query w user device reason client r).1.answered &&
      (Relay.reported w user device reason client r).any (·.id = id)) := by
  rw [← take_query.1, delivers]

end Query

end Turn

section Growth

/-- Rows of the later store are rows of the earlier one, or new and not read yet. -/
def Store.Grows (s t : Store) : Prop :=
  s.lastEntry ≤ t.lastEntry ∧
    ∀ x ∈ t.entries, x ∈ s.entries ∨ (s.lastEntry < x.id ∧ x.readCount = 0)

instance : IsPreorder Store Store.Grows where
  refl _ := ⟨Nat.le_refl _, fun _ hx => .inl hx⟩
  trans _ _ _ h h' := by
    refine ⟨Nat.le_trans h.1 h'.1, fun x hx => ?_⟩
    obtain hx | ⟨hlt, hread⟩ := h'.2 x hx
    · exact h.2 x hx
    · exact .inr ⟨Nat.lt_of_le_of_lt h.1 hlt, hread⟩

/-- Changes that count no reads and add unread rows only. -/
def Change.growing : Change → Prop
  | .addEntries rows => ∀ row ∈ rows, row.readCount = 0
  | .bumpEntries _ _ => False
  | _ => True

theorem Change.grows {c : Change} (h : c.growing) (s : Store) : s.Grows (c.apply s) := by
  cases c with
  | addEntries rows =>
    refine ⟨Nat.le_add_right _ _, fun x hx => ?_⟩
    obtain hx | hx := List.mem_append.1 hx
    · exact .inl hx
    · obtain ⟨hlt, row, hrow, he⟩ := Entries.mem_numbered hx
      rw [he]
      exact .inr ⟨hlt, h row hrow⟩
  | bumpEntries user device => exact h.elim
  | dropEntries which => exact ⟨Nat.le_refl _, fun x hx => .inl (List.mem_filter.1 hx).1⟩
  | _ => exact refl_of Store.Grows s

theorem Store.Grows.mem_of_le {s t : Store} (h : s.Grows t) {x : EntryRow} (hx : x ∈ t.entries)
    (hle : x.id ≤ s.lastEntry) : x ∈ s.entries :=
  (h.2 x hx).resolve_right fun hnew => Nat.not_lt.2 hle hnew.1

theorem Leads.grows {s t : Store} (h : Leads Change.growing s t) : s.Grows t :=
  h.along fun _ s hc => Change.grows hc s

/-- Only queries count reads of entries, and only calls that store unread entries add any. -/
theorem Call.growing_of_may {config : Config} {call : Call} {c : Change} (h : call.may config c)
    (hq : ∀ user device reason client, call ≠ .query user device reason client) : c.growing := by
  cases c with
  | addEntries rows =>
    cases call with
    | submit batch source client =>
      cases batch with
      | nil => exact h.elim
      | cons first rest => exact fun row hrow => (h row hrow).2
    | submitDump user source requester isChunk dump client =>
      exact fun row hrow => (h row hrow).2.2
    | _ => exact h.elim
  | bumpEntries user device =>
    cases call with
    | query u d reason client => exact hq u d reason client rfl
    | submit batch source client =>
      cases batch with
      | nil => exact h.elim
      | cons first rest => cases source <;> exact h.elim
    | _ => exact h.elim
  | _ => trivial

theorem Relay.readPending_grows (w : Setting) (user device : String) (reason : Option String)
    (client : Client) (r : Relay) :
    r.store.Grows (readPending w user device reason client r).2.store :=
  Leads.grows ((readPending_orderly w user device reason client (fun _ _ => trivial)
    fun _ _ _ => trivial).moves r).1

theorem Turn.grows {t : Turn} (r : Relay)
    (hq : ∀ user device reason client, t.call ≠ .query user device reason client) :
    r.store.Grows (t.take r).2.store :=
  Leads.grows ((t.leads r).mono fun _ hc => Call.growing_of_may hc hq)

end Growth

section Tracking
variable {limit : Nat} {row : EntryRow} {asked got : Nat}

/-- A row that was stored with no reads, after some queries of its device have answered and some
of them have returned it: it is gone for good, or it has counted the queries. -/
structure Tracked (limit : Nat) (row : EntryRow) (asked got : Nat) (s : Store) : Prop where
  old : row.id ≤ s.lastEntry
  counted : ∀ x ∈ s.entries, x.id = row.id → x = { row with readCount := asked }
  returned : ∀ x ∈ s.entries, x.id = row.id → row.fromSameDevice = false → got = min asked limit
  bounded : got ≤ limit

namespace Tracked

theorem grow {s t : Store} (h : Tracked limit row asked got s) (hg : s.Grows t) :
    Tracked limit row asked got t := by
  have hold : ∀ x ∈ t.entries, x.id = row.id → x ∈ s.entries := fun x hx hid =>
    hg.mem_of_le hx (hid.trans_le h.old)
  exact ⟨Nat.le_trans h.old hg.1, fun x hx hid => h.counted x (hold x hx hid) hid,
    fun x hx hid => h.returned x (hold x hx hid) hid, h.bounded⟩

theorem waits_iff {s : Store} (h : Tracked limit row asked got s) (user device : String) :
    (∃ x ∈ Entries.pending user device limit s.entries, x.id = row.id) ↔
      (user = row.user ∧ device = row.device) ∧ row.fromSameDevice = false ∧
        (∃ x ∈ s.entries, x.id = row.id) ∧ asked < limit := by
  constructor
  · rintro ⟨x, hx, hid⟩
    obtain ⟨hin, ⟨hu, hd⟩, hlt, hself⟩ := Entries.mem_pending.1 hx
    have he := h.counted x hin hid
    rw [he] at hu hd hlt hself
    exact ⟨⟨hu.symm, hd.symm⟩, hself, ⟨x, hin, hid⟩, hlt⟩
  · rintro ⟨⟨rfl, rfl⟩, hself, ⟨x, hin, hid⟩, hlt⟩
    refine ⟨x, Entries.mem_pending.2 ⟨hin, ?_⟩, hid⟩
    rw [h.counted x hin hid]
    exact ⟨⟨rfl, rfl⟩, hlt, hself⟩

theorem bump_other {s : Store} (h : Tracked limit row asked got s) {user device : String}
    (hne : ¬(user = row.user ∧ device = row.device)) :
    Tracked limit row asked got ((Change.bumpEntries user device).apply s) := by
  have hkept : ∀ x ∈ Entries.bump user device s.entries, x.id = row.id → x ∈ s.entries := by
    intro x hx hid
    obtain ⟨y, hy, hfor, rfl⟩ | ⟨hx, -⟩ := Entries.mem_bump_cases hx
    · rw [h.counted y hy hid] at hfor
      exact absurd (EntryRow.isFor_unique hfor (EntryRow.isFor_iff.2 ⟨rfl, rfl⟩)) hne
    · exact hx
  exact ⟨h.old, fun x hx hid => h.counted x (hkept x hx hid) hid,
    fun x hx hid => h.returned x (hkept x hx hid) hid, h.bounded⟩

theorem bump_own {s : Store} (h : Tracked limit row asked got s) :
    Tracked limit row (asked + 1) (got +
        if (Entries.pending row.user row.device limit s.entries).any (·.id = row.id) then 1 else 0)
      ((Change.bumpEntries row.user row.device).apply s) := by
  have hany : (Entries.pending row.user row.device limit s.entries).any (·.id = row.id) = true ↔
      row.fromSameDevice = false ∧ (∃ x ∈ s.entries, x.id = row.id) ∧ asked < limit := by
    have := h.waits_iff row.user row.device
    simpa using this
  refine ⟨h.old, fun x hx hid => ?_, fun x hx hid hself => ?_, ?_⟩
  · obtain ⟨y, hy, hsame, rfl⟩ := Entries.mem_bump hx
    have hyid := hsame.trans hid
    have he := h.counted y hy hyid
    have hfor : y.isFor row.user row.device = true := by
      rw [he]
      exact EntryRow.isFor_iff.2 ⟨rfl, rfl⟩
    rw [if_pos hfor, he]
  · obtain ⟨y, hy, hsame, rfl⟩ := Entries.mem_bump hx
    have hyid := hsame.trans hid
    have hgot := h.returned y hy hyid hself
    by_cases hlt : asked < limit
    · rw [if_pos (hany.2 ⟨hself, ⟨y, hy, hyid⟩, hlt⟩)]
      omega
    · rw [if_neg fun hw => hlt (hany.1 hw).2.2]
      omega
  · split
    · rename_i hw
      obtain ⟨hself, ⟨y, hy, hyid⟩, hlt⟩ := hany.1 hw
      have hgot := h.returned y hy hyid hself
      omega
    · exact h.bounded

theorem take {t : Turn} {r : Relay} (h : Tracked limit row asked got r.store)
    (hl : t.setting.config.queryReadLimit = limit) (hc : t.Counts r) :
    Tracked limit row (asked + if t.asks row.user row.device r then 1 else 0)
      (got + if t.delivers row.id r then 1 else 0) (t.take r).2.store := by
  obtain ⟨w, call⟩ := t
  cases call with
  | query user device reason client =>
    -- The half that reads counts nothing, so what waits is told from the counts as they were.
    have hread := h.grow (Relay.readPending_grows w user device reason client r)
    rw [Turn.asks_query, Turn.delivers_query, Relay.reported, hl, Turn.take_query.2]
    obtain ⟨es, -, ha, hs⟩ | ⟨ha, hs⟩ := Relay.query_cases w user device reason client r
    · have hcount := hc (Turn.take_query.1.trans (congrArg Outcome.answered ha))
      have hbump := (Relay.countRead_cases w user device _).resolve_right fun hn =>
        absurd (hn.1.symm.trans hcount) Bool.false_ne_true
      rw [hs, hbump.2, ha]
      by_cases hown : user = row.user ∧ device = row.device
      · obtain ⟨rfl, rfl⟩ := hown
        simpa [Outcome.answered] using hread.bump_own
      · have hwaits : ¬(Entries.pending user device limit (Relay.readPending w user device reason
            client r).2.store.entries).any (·.id = row.id) = true := fun hw =>
          hown ((hread.waits_iff user device).1 (by simpa using hw)).1
        have hask : ¬(user = row.user && device = row.device && Outcome.answered (.answer es)) =
            true := by
          simpa [Outcome.answered] using hown
        rw [if_neg hask, if_neg (by simpa [Outcome.answered] using hwaits)]
        exact hread.bump_other hown
    · simpa [hs, ha] using hread
  | _ => simpa [Turn.asks, Turn.delivers] using h.grow (Turn.grows (t := ⟨w, _⟩) r (by simp))

theorem run {turns : List Turn} {r : Relay} (h : Tracked limit row asked got r.store)
    (hl : ∀ t ∈ turns, t.setting.config.queryReadLimit = limit)
    (hc : Relay.Each Turn.Counts r turns) :
    Tracked limit row (asked + Relay.tally (Turn.asks row.user row.device) r turns)
      (got + Relay.tally (Turn.delivers row.id) r turns) (r.run turns).store := by
  induction turns generalizing r asked got with
  | nil => exact h
  | cons t rest ih =>
    have hnext := h.take (hl t List.mem_cons_self) hc.1
    have hrest := ih hnext (fun u hu => hl u (List.mem_cons_of_mem t hu)) hc.2
    rw [Relay.tally, Relay.tally, ← Nat.add_assoc, ← Nat.add_assoc, Relay.run_cons]
    exact hrest

end Tracked

theorem Turn.stored_by_query {w : Setting} {user device : String} {reason : Option String}
    {client : Client} {r : Relay} {x : EntryRow}
    (h : x ∈ ((Turn.mk w (.query user device reason client)).take r).2.store.entries) :
    ∃ y ∈ r.store.entries, y.id = x.id := by
  refine (Turn.leads ⟨w, .query user device reason client⟩ r).keeps
    (P := fun s => ∀ x ∈ s.entries, ∃ y ∈ r.store.entries, y.id = x.id)
    (fun x hx => ⟨x, hx, rfl⟩) (fun c s hc hs x hx => ?_) x h
  cases c with
  | addEntries rows => exact hc.elim
  | bumpEntries u d =>
    obtain ⟨y, hy, hsame, -⟩ := Entries.mem_bump hx
    obtain ⟨z, hz, hid⟩ := hs y hy
    exact ⟨z, hz, hid.trans hsame⟩
  | dropEntries which => exact hs x (List.mem_filter.1 hx).1
  | _ => exact hs x hx

theorem tracked_of_new {before : List Turn} {t : Turn}
    (hold : ∀ x ∈ (Relay.run {} before).store.entries, x.id ≠ row.id)
    (hnew : row ∈ (Relay.run {} (before ++ [t])).store.entries) (limit : Nat) :
    Tracked limit row 0 0 (Relay.run {} (before ++ [t])).store := by
  have hascending := Relay.ascending_entries_run (before ++ [t])
  have hcount : row.readCount = 0 := by
    rw [Relay.run_append] at hnew
    by_cases hq : ∃ user device reason client, t.call = .query user device reason client
    · obtain ⟨user, device, reason, client, he⟩ := hq
      obtain ⟨w, call⟩ := t
      obtain rfl : call = _ := he
      obtain ⟨y, hy, hid⟩ := Turn.stored_by_query hnew
      exact absurd hid (hold y hy)
    · have hgrows := Turn.grows (t := t) (Relay.run {} before) fun user device reason client he =>
        hq ⟨user, device, reason, client, he⟩
      obtain hin | ⟨-, hread⟩ := hgrows.2 row hnew
      · exact absurd rfl (hold row hin)
      · exact hread
  refine ⟨hascending.le row hnew, fun x hx hid => ?_, fun _ _ _ _ => (Nat.zero_min _).symm,
    Nat.zero_le _⟩
  rw [hascending.unique hx hnew hid, ← hcount]

theorem Relay.mem_sweep {w : Setting} {r : Relay} {x : EntryRow} (hx : x ∈ r.store.entries)
    (hread : x.readCount ≤ w.config.entryReadCap) : x ∈ (sweep w r).2.store.entries := by
  have hleads := ((sweep_orderly w).moves r).1
  refine Leads.keeps (P := fun s => x ∈ s.entries) hleads hx fun c s hc hs => ?_
  cases c with
  | dropEntries which =>
    obtain rfl : which = _ := hc
    exact List.mem_filter.2 ⟨hs, by simpa using hread⟩
  | addEntries rows => exact hc.elim
  | bumpEntries user device => exact hc.elim
  | _ => exact hs

end Tracking

namespace Relay

/-- The queries that have answered since a row was stored number the next one's turn. It returns
the row exactly if the row is for its device, is not the device's own, survives the tombstones
and that number is within the limit; the row then shows how often it has been asked for. So a row
is returned no more often than the limit says, and where sweeps wait for that no less often. -/
theorem redelivery_is_bounded {c : Config} {before after : List Turn} {storing : Turn}
    {row : EntryRow} (hconfig : ∀ t ∈ before ++ storing :: after, t.setting.config = c)
    (hcounts : Each Turn.Counts {} (before ++ storing :: after))
    (hold : ∀ x ∈ (run {} before).store.entries, x.id ≠ row.id)
    (hnew : row ∈ (run {} (before ++ [storing])).store.entries) :
    let stored := run {} (before ++ [storing])
    let now := run {} (before ++ storing :: after)
    let asked := tally (Turn.asks row.user row.device) stored after
    let returned := tally (Turn.delivers row.id) stored after
    (∀ w user device reason client es, w.config = c →
      (query w user device reason client now).1 = .answer es →
        es = (reported w user device reason client now).map EntryRow.toEntry ∧
        ((∃ x ∈ reported w user device reason client now, x.id = row.id) ↔
          (user = row.user ∧ device = row.device) ∧ row.fromSameDevice = false ∧
          (∃ x ∈ (readPending w user device reason client now).2.store.entries, x.id = row.id) ∧
          asked + 1 ≤ c.queryReadLimit) ∧
        ∀ x ∈ reported w user device reason client now,
          x.id = row.id → x = { row with readCount := asked }) ∧
    returned ≤ c.queryReadLimit ∧
    (c.queryReadLimit.val ≤ c.entryReadCap + 1 → row.fromSameDevice = false →
      (∃ x ∈ now.store.entries, x.id = row.id) → ∀ w, w.config = c →
        (∀ x ∈ (sweep w now).2.store.entries, x.id ≠ row.id) → returned = c.queryReadLimit) := by
  intro stored now asked returned
  have hcons : before ++ storing :: after = (before ++ [storing]) ++ after := by simp
  have hnow : now = stored.run after := by
    rw [← run_append, ← hcons]
  have htracked : Tracked c.queryReadLimit row asked returned now.store := by
    have hlimit : ∀ t ∈ after, (t.setting.config.queryReadLimit : Nat) = c.queryReadLimit :=
      fun t ht => by rw [hconfig t (by simp [ht])]
    have hafter := (each_append.1 (hcons ▸ hcounts)).2
    have := (tracked_of_new hold hnew c.queryReadLimit).run hlimit hafter
    rwa [Nat.zero_add, Nat.zero_add, ← hnow] at this
  refine ⟨fun w user device reason client es hw hanswer => ?_, htracked.bounded,
    fun hcap hself hthere w hw hgone => ?_⟩
  · have hread := htracked.grow (readPending_grows w user device reason client now)
    refine ⟨?_, ?_, fun x hx hid => hread.counted x (Entries.mem_pending.1 hx).1 hid⟩
    · obtain ⟨es', hpending, hes', -⟩ | ⟨hno, -⟩ := query_cases w user device reason client now
      · obtain rfl : es' = es := by simpa [hes'] using hanswer
        obtain ⟨-, -, -, hes⟩ := readPending_answer w user device reason client
          (Prod.ext hpending rfl)
        exact hes
      · simp [hanswer, Outcome.answered] at hno
    · rw [reported, hw]
      exact hread.waits_iff user device
  · obtain ⟨x, hx, hid⟩ := hthere
    have hcount : x.readCount = asked := by rw [htracked.counted x hx hid]
    have hover : c.entryReadCap < asked := by
      by_contra hle
      exact hgone x (mem_sweep hx (by rw [hw]; omega)) hid
    have hreturned := htracked.returned x hx hid hself
    omega

/-- A copy that a peer is to get: its second query returns it as read once, and so far it has
been returned once. -/
theorem redelivery_of_second_query :
    let before := [⟨default, .register ⟨"ada", "desk", false⟩ .unknown⟩]
    let storing := ⟨default, .submit [⟨[1], [2], "", "ada", default, "e", 0, false⟩] none .unknown⟩
    let after := [⟨default, .query "ada" "desk" none .unknown⟩]
    (∃ x ∈ reported default "ada" "desk" none .unknown (run {} (before ++ storing :: after)),
        x.id = 1) ∧
      tally (Turn.delivers 1) (run {} (before ++ [storing])) after ≤ 5 := by
  intro before storing after
  let row : EntryRow := ⟨1, "ada", "desk", "e", [1], [2], ⟨0, by decide, by decide⟩, 0, false⟩
  have hstored : (run {} (before ++ [storing])).store.entries = [row] := by cbv
  have hbefore : (run {} before).store.entries = [] := by cbv
  obtain ⟨hquery, hbound, -⟩ := @redelivery_is_bounded {} before after storing row
    (fun t ht => by
      obtain rfl | ht := List.mem_cons.1 ht
      · rfl
      · obtain rfl | ht := List.mem_cons.1 ht
        · rfl
        · rw [List.mem_singleton.1 ht]
          rfl)
    ⟨trivial, trivial, fun _ => by cbv, trivial⟩ (by simp [hbefore]) (by simp [hstored])
  have hanswer : (query default "ada" "desk" none .unknown
      (run {} (before ++ storing :: after))).1 =
        .answer [({ row with readCount := 1 } : EntryRow).toEntry] := by cbv
  have hthere : (readPending default "ada" "desk" none .unknown
      (run {} (before ++ storing :: after))).2.store.entries = [{ row with readCount := 1 }] := by
    cbv
  have hwaits := (hquery _ _ _ _ _ _ rfl hanswer).2.1.2
    ⟨⟨rfl, rfl⟩, rfl, ⟨{ row with readCount := 1 }, by simp [hthere], rfl⟩, by cbv⟩
  exact ⟨hwaits, hbound⟩

end Relay

end HistoryRelay
