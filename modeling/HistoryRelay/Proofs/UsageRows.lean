import HistoryRelay.Proofs.Registry

/-! What the rows of the usage ledger tell of their events. Main statement: recording one more event
keeps the row of its device telling all events of the device, and every other row as it was. -/
namespace HistoryRelay

namespace UsageEvent

def isOf (e : UsageEvent) (user device : String) : Bool := e.user = user && e.device = device

def handled (es : List UsageEvent) : Nat := (es.map (·.entries)).sum

theorem handled_concat (es : List UsageEvent) (e : UsageEvent) :
    handled (es ++ [e]) = handled es + e.entries := by
  simp [handled]

end UsageEvent

namespace UsageRow

def key (u : UsageRow) : String × String := (u.user, u.device)

theorem is_iff {u : UsageRow} {user device : String} :
    u.is user device = true ↔ u.key = (user, device) := by
  simp [is, key]

/-- What a row says if these are its events, the last one last: the time and address of the last,
whatever time that is, the sum of the entries while it is a signed number of 64 bits, how many are
queries and the time of the last of them, and the last version that is not empty. -/
structure Tells (u : UsageRow) (es : List UsageEvent) : Prop where
  lastUsed : es.getLast?.bind (·.time.toInstant?) = some u.lastUsed
  lastIp : es.getLast?.map (·.ip) = some u.lastIp
  entriesHandled : UsageEvent.handled es < 9223372036854775808 →
    u.entriesHandled = .whole (UsageEvent.handled es)
  queries : u.queries = es.countP (·.isQuery)
  lastQueried : u.lastQueried = (es.filter (·.isQuery)).getLast?.bind (·.time.toInstant?)
  version : u.version = ((es.map (·.version)).filter (· ≠ "")).getLast?.getD ""

variable {u : UsageRow} {e : UsageEvent} {es : List UsageEvent} {time : Instant}

theorem tells_ofEvent (ht : e.time.toInstant? = some time) : (ofEvent e time).Tells [e] where
  lastUsed := ht
  lastIp := rfl
  entriesHandled h := by
    have hone : UsageEvent.handled [e] = e.entries := Nat.add_zero _
    rw [hone] at h ⊢
    simp only [ofEvent, Word.signed_of_lt h]
  queries := by simp [ofEvent, List.countP_cons]
  lastQueried := by cases hq : e.isQuery <;> simp [ofEvent, hq, ht]
  version := by by_cases hv : e.version = "" <;> simp [ofEvent, hv]

/-- One more event: each column goes by a rule of its own. -/
theorem Tells.add (h : u.Tells es) (ht : e.time.toInstant? = some time) :
    (u.add e time).Tells (es ++ [e]) where
  lastUsed := by
    rw [List.getLast?_concat]
    exact ht
  lastIp := by simp [UsageRow.add]
  entriesHandled hsum := by
    rw [UsageEvent.handled_concat] at hsum ⊢
    have hbefore := h.entriesHandled (by omega)
    have hfits : Word.isSigned (UsageEvent.handled es + e.entries : Int) :=
      Word.isSigned_iff.2 (by omega)
    simp only [UsageRow.add, hbefore, Word.signed_of_lt (show e.entries < _ by omega),
      Counter.add_whole hfits, Nat.cast_add]
  queries := by
    have hbefore := h.queries
    cases hq : e.isQuery <;> simp [UsageRow.add, hq, List.countP_append, hbefore]
  lastQueried := by
    have hbefore := h.lastQueried
    cases hq : e.isQuery <;> simp [UsageRow.add, hq, List.filter_append, hbefore, ht]
  version := by
    have hbefore := h.version
    by_cases hv : e.version = "" <;> simp [UsageRow.add, hv, List.filter_append, hbefore]

end UsageRow

namespace Usage
variable {us : List UsageRow} {e : UsageEvent} {time : Instant} {user device : String}
  {es : List UsageEvent}

theorem mem_record {u : UsageRow} : u ∈ record e time us ↔
    (∃ v ∈ us, u = if v.is e.user e.device then v.add e time else v) ∨
      (∀ v ∈ us, v.key ≠ (e.user, e.device)) ∧ u = UsageRow.ofEvent e time := by
  rw [record, mem_upsert]
  simp only [← Bool.not_eq_true, UsageRow.is_iff]

/-- A device has a row if it had events, and what the row says are its events. -/
structure Accounts (us : List UsageRow) (user device : String) (es : List UsageEvent) : Prop where
  known : (∃ u ∈ us, u.key = (user, device)) ↔ es ≠ []
  tells : ∀ u ∈ us, u.key = (user, device) → u.Tells es

theorem accounts_nil (user device : String) : Accounts [] user device [] :=
  ⟨by simp, fun _ hu => nomatch hu⟩

theorem Accounts.record_own (h : Accounts us e.user e.device es)
    (ht : e.time.toInstant? = some time) :
    Accounts (record e time us) e.user e.device (es ++ [e]) := by
  refine ⟨iff_of_true ?_ (by simp), fun u hu hkey => ?_⟩
  · by_cases hnew : ∀ v ∈ us, v.key ≠ (e.user, e.device)
    · exact ⟨_, mem_record.2 (.inr ⟨hnew, rfl⟩), rfl⟩
    · push Not at hnew
      obtain ⟨v, hv, hkey⟩ := hnew
      refine ⟨_, mem_record.2 (.inl ⟨v, hv, rfl⟩), ?_⟩
      rw [if_pos (UsageRow.is_iff.2 hkey)]
      exact hkey
  · obtain ⟨v, hv, rfl⟩ | ⟨hnew, rfl⟩ := mem_record.1 hu
    · by_cases hown : v.is e.user e.device
      · rw [if_pos hown]
        exact (h.tells v hv (UsageRow.is_iff.1 hown)).add ht
      · rw [if_neg hown] at hkey
        exact absurd (UsageRow.is_iff.2 hkey) hown
    · have hnone : es = [] := by
        by_contra hne
        obtain ⟨v, hv, hkey⟩ := h.known.2 hne
        exact hnew v hv hkey
      rw [hnone]
      exact UsageRow.tells_ofEvent ht

theorem Accounts.record_other (h : Accounts us user device es)
    (hother : (e.user, e.device) ≠ (user, device)) :
    Accounts (record e time us) user device es := by
  -- a row of the device is as it was: the event changes rows of its own device alone
  have hsame {u : UsageRow} : (u ∈ record e time us ∧ u.key = (user, device)) ↔
      (u ∈ us ∧ u.key = (user, device)) := by
    rw [mem_record]
    constructor
    · rintro ⟨⟨v, hv, rfl⟩ | ⟨-, rfl⟩, hkey⟩
      · by_cases hown : v.is e.user e.device
        · rw [if_pos hown] at hkey
          exact absurd ((UsageRow.is_iff.1 hown).symm.trans hkey) hother
        · rw [if_neg hown] at hkey ⊢
          exact ⟨hv, hkey⟩
      · exact absurd hkey hother
    · rintro ⟨hu, hkey⟩
      have hown : ¬u.is e.user e.device := fun h =>
        hother ((UsageRow.is_iff.1 h).symm.trans hkey)
      exact ⟨.inl ⟨u, hu, (if_neg hown).symm⟩, hkey⟩
  refine ⟨?_, fun u hu hkey => ?_⟩
  · rw [← h.known]
    exact exists_congr fun u => hsame
  · obtain ⟨hin, -⟩ := hsame.1 ⟨hu, hkey⟩
    exact h.tells u hin hkey

/-- Recording an event goes on with the account of every device. -/
theorem Accounts.record (h : Accounts us user device (es.filter (·.isOf user device)))
    (ht : e.time.toInstant? = some time) :
    Accounts (record e time us) user device ((es ++ [e]).filter (·.isOf user device)) := by
  rw [List.filter_append]
  by_cases hown : e.isOf user device
  · obtain ⟨rfl, rfl⟩ : e.user = user ∧ e.device = device := by simpa [UsageEvent.isOf] using hown
    simpa [hown] using h.record_own ht
  · have hother : (e.user, e.device) ≠ (user, device) := by simpa [UsageEvent.isOf] using hown
    have hkept : Accounts (Usage.record e time us) user device _ := h.record_other hother
    simpa [hown] using hkept

end Usage

end HistoryRelay
