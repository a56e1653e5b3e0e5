import HistoryRelay.Proofs.Matching

/-! Stored time is exact. Main statement: the instants of the store and the timestamps that it can
hold are the same times in the same order, leap seconds left out, so that an end time names the
entries of just that time. -/
namespace HistoryRelay
open Step

namespace Timestamp
variable {t u : Timestamp} {i j : Instant}

/-- The order of time, in which a leap second is still before the second after it. -/
def Before (t u : Timestamp) : Prop :=
  t.seconds < u.seconds ∨ t.seconds = u.seconds ∧ t.nanos < u.nanos

instance (t u : Timestamp) : Decidable (t.Before u) := inferInstanceAs (Decidable (_ ∨ _))

/-- The time of the least count of nanoseconds, 1677-09-21T00:12:43.145224192Z. -/
def earliest : Timestamp :=
  ⟨-9223372037, 145224192, by decide, by decide, by decide, by decide⟩

/-- The time of the greatest count of nanoseconds, 2262-04-11T23:47:16.854775807Z. -/
def latest : Timestamp :=
  ⟨9223372036, 854775807, by decide, by decide, by decide, by decide⟩

/-- Neither before nor after all that the store can hold. -/
def Storable (t : Timestamp) : Prop := ¬t.Before earliest ∧ ¬latest.Before t

instance (t : Timestamp) : Decidable t.Storable := inferInstanceAs (Decidable (_ ∧ _))

/-- Both ends are far from the end of a minute, so leap seconds need no exception here. -/
theorem storable_iff : t.Storable ↔ Word.isSigned t.totalNanos = true := by
  have hnanos := t.nanos_lt
  have hleap := t.leap_ends_minute
  rw [Word.isSigned_iff]
  simp only [Storable, Before, earliest, latest, totalNanos]
  omega

theorem storable_iff_exists : t.Storable ↔ ∃ i, t.toInstant? = some i := by
  rw [storable_iff, Word.isSigned_iff, ← Option.isSome_iff_exists, toInstant?, Instant.make?]
  split <;> simp_all

theorem storable_of_toInstant? (h : t.toInstant? = some i) : t.Storable :=
  storable_iff_exists.2 ⟨i, h⟩

theorem toInstant?_eq_none : t.toInstant? = none ↔ ¬t.Storable := by
  rw [storable_iff_exists, Option.eq_none_iff_forall_ne_some, not_exists]

theorem isLeapSecond_eq_false : t.isLeapSecond = false ↔ t.nanos < 1000000000 := by
  simp only [isLeapSecond, decide_eq_false_iff_not, Nat.not_le]

section Exact
variable (ht : t.isLeapSecond = false) (hu : u.isLeapSecond = false)
include ht hu

theorem totalNanos_lt_iff : t.totalNanos < u.totalNanos ↔ t.Before u := by
  rw [isLeapSecond_eq_false] at ht hu
  unfold totalNanos Before
  omega

theorem eq_of_totalNanos (h : t.totalNanos = u.totalNanos) : t = u := by
  rw [isLeapSecond_eq_false] at ht hu
  obtain ⟨seconds, nanos, _, _, _, _⟩ := t
  obtain ⟨seconds', nanos', _, _, _, _⟩ := u
  simp only [totalNanos] at h ht hu
  simp only [mk.injEq]
  omega

theorem eq_of_toInstant? (h : t.toInstant? = some i) (h' : u.toInstant? = some i) : t = u :=
  eq_of_totalNanos ht hu ((toInstant?_eq_some.1 h).trans (toInstant?_eq_some.1 h').symm)

theorem lt_iff_before (h : t.toInstant? = some i) (h' : u.toInstant? = some j) :
    i < j ↔ t.Before u := by
  rw [Instant.lt_iff, ← toInstant?_eq_some.1 h, ← toInstant?_eq_some.1 h',
    totalNanos_lt_iff ht hu]

end Exact

theorem totalNanos_eq_calendar (t : Timestamp) :
    t.totalNanos = (t.date.toDays * 86400 + t.secondOfDay) * 1000000000 + t.nanos := by
  rw [date, Date.toDays_ofDays, secondOfDay, totalNanos]
  omega

theorem one_lt_year_iff : 1 < t.year ↔ -62104060800 ≤ t.seconds := by
  have hstart : Date.toDays ⟨1 + 1, 1, 1⟩ = -718797 := by decide
  rw [year, date, ← Int.add_one_le_iff, Date.le_year_ofDays_iff, hstart]
  omega

theorem Storable.one_lt_year (h : t.Storable) : 1 < t.year := by
  rw [one_lt_year_iff]
  simp only [Storable, Before, earliest] at h
  omega

end Timestamp

namespace Instant

theorem toInstant?_toTimestamp (i : Instant) : i.toTimestamp.toInstant? = some i :=
  Timestamp.toInstant?_eq_some.2 (Message.totalNanos_toTimestamp i)

theorem isLeapSecond_toTimestamp (i : Instant) : i.toTimestamp.isLeapSecond = false := by
  rw [Timestamp.isLeapSecond_eq_false]
  simp only [toTimestamp]
  omega

theorem storable_toTimestamp (i : Instant) : i.toTimestamp.Storable :=
  Timestamp.storable_of_toInstant? i.toInstant?_toTimestamp

theorem exists_nanos_iff {n : Int} : (∃ i : Instant, i.nanos = n) ↔ Word.isSigned n = true := by
  rw [Word.isSigned_iff]
  constructor
  · rintro ⟨i, rfl⟩
    exact ⟨i.low, i.high⟩
  · rintro ⟨hlow, hhigh⟩
    exact ⟨⟨n, hlow, hhigh⟩, rfl⟩

end Instant

namespace Message
variable {t u : Timestamp} {device : String} {row : EntryRow}

theorem hits_endTime_iff (hdevice : device ≠ "") (ht : t.isLeapSecond = false)
    (hu : u.isLeapSecond = false) (hstored : t.toInstant? = some row.date) :
    Hits ⟨device, some u, ""⟩ row ↔ u = t := by
  constructor
  · rintro ⟨-, ⟨v, hv, -, hrow⟩ | ⟨hid, -⟩⟩
    · obtain rfl : u = v := Option.some.inj hv
      exact Timestamp.eq_of_toInstant? hu ht hrow hstored
    · exact absurd rfl hid
  · rintro rfl
    have hstorable : u.Storable := Timestamp.storable_of_toInstant? hstored
    exact ⟨hdevice, .inl ⟨u, rfl, hstorable.one_lt_year, hstored⟩⟩

end Message

namespace Store
open Timestamp
variable {σ : Type}

theorem storedTime_of_storable {t : Timestamp} (h : t.Storable) :
    ∃ i, t.toInstant? = some i ∧ ∀ s : σ, storedTime t s = (.answer i, s) := by
  obtain ⟨i, hi⟩ := storable_iff_exists.1 h
  exact ⟨i, hi, fun s => storedTime_eq_answer.2 ⟨hi, rfl⟩⟩

theorem storedTime_of_not_storable {t : Timestamp} (h : ¬t.Storable) (s : σ) :
    storedTime t s = (.failure (.unstorableTime t), s) := by
  rw [storedTime, toInstant?_eq_none.2 h]
  rfl

/-- The counts of nanoseconds that 64 bits hold and the timestamps from the earliest to the latest
of them, leap seconds left out, are inverse to each other and in the same order. Any other time is
refused. So a deletion by end time removes a row of the user if and only if the row was stored with
that time. -/
theorem stored_time_is_exact :
    (earliest.text = "1677-09-21T00:12:43.145224192Z" ∧
      latest.text = "2262-04-11T23:47:16.854775807Z") ∧
    (∀ n, Word.isSigned n = true ↔ ∃ i : Instant, i.nanos = n) ∧
    (∀ i : Instant, let t := i.toTimestamp
      t.toInstant? = some i ∧ t.isLeapSecond = false ∧ t.Storable ∧ t.date.Valid ∧
        i.nanos = (t.date.toDays * 86400 + t.secondOfDay) * 1000000000 + t.nanos) ∧
    (∀ t : Timestamp, t.isLeapSecond = false → t.Storable → ∃ i, t.toInstant? = some i ∧
      i.toTimestamp = t ∧ ∀ s : σ, storedTime t s = (.answer i, s)) ∧
    (∀ (t u : Timestamp) i j, t.isLeapSecond = false → u.isLeapSecond = false →
      t.toInstant? = some i → u.toInstant? = some j → (i < j ↔ t.Before u)) ∧
    (∀ t : Timestamp, ¬t.Storable → ∀ s : σ, ∃ e, storedTime t s = (.failure e, s) ∧
      e.kind = .badRequest ∧ e.message = "Timestamp out of range: " ++ t.display) ∧
    ∀ (t u : Timestamp) device (row : EntryRow) refusals s, t.isLeapSecond = false →
      u.isLeapSecond = false → device ≠ "" → row.user ≠ "" → t.toInstant? = some row.date →
      row ∈ s.entries →
      let deletion := deleteMatching refusals row.user [⟨device, some u, ""⟩] s
      (∀ n left, deletion = (.answer n, left) → (row ∉ left.entries ↔ u = t)) ∧
        ((∀ st, refusals st = none) → ∃ n left, deletion = (.answer n, left)) := by
  refine ⟨⟨by decide, by decide⟩, fun n => Instant.exists_nanos_iff.symm, fun i => ?_,
    fun t ht hstorable => ?_, fun t u i j => lt_iff_before, fun t hout s => ?_, ?_⟩
  · refine ⟨i.toInstant?_toTimestamp, i.isLeapSecond_toTimestamp, i.storable_toTimestamp,
      Date.valid_ofDays _, ?_⟩
    rw [← totalNanos_eq_calendar, Message.totalNanos_toTimestamp]
  · obtain ⟨i, hi, hanswer⟩ := storedTime_of_storable hstorable
    exact ⟨i, hi, eq_of_toInstant? i.isLeapSecond_toTimestamp ht i.toInstant?_toTimestamp hi,
      hanswer⟩
  · exact ⟨_, storedTime_of_not_storable hout s, rfl, rfl⟩
  · intro t u device row refusals s ht hu hdevice huser hstored hrow deletion
    refine ⟨fun n left h => ?_, fun hfree => ⟨_, _, deleteMatching_of_free huser hfree _ s⟩⟩
    rw [mem_deleteMatching h]
    simp [hrow, Message.SomeHits, Message.hits_endTime_iff hdevice ht hu hstored]

/-- Both ends and the nanoseconds next to them. The last of these names no row that is stored. -/
theorem stored_time_is_exact_at_both_ends :
    let before : Timestamp :=
      ⟨-9223372037, 145224191, by decide, by decide, by decide, by decide⟩
    let after : Timestamp := ⟨9223372036, 854775808, by decide, by decide, by decide, by decide⟩
    let least : Instant := ⟨-9223372036854775808, by decide, by decide⟩
    let greatest : Instant := ⟨9223372036854775807, by decide, by decide⟩
    let row : EntryRow := ⟨1, "ada", "desk", "e", [], [], greatest, 0, false⟩
    let store : Store := { entries := [row] }
    let deletion (t : Timestamp) :=
      deleteMatching (fun _ => none) "ada" [⟨"lap", some t, ""⟩] store
    (earliest.isLeapSecond = false ∧ earliest.Storable ∧ least.toTimestamp = earliest ∧
      storedTime earliest () = (.answer least, ())) ∧
    (latest.isLeapSecond = false ∧ latest.toInstant? = some greatest ∧
      (least < greatest ↔ earliest.Before latest)) ∧
    (¬before.Storable ∧ ∃ e, storedTime before () = (.failure e, ()) ∧ e.kind = .badRequest ∧
      e.message = "Timestamp out of range: 1677-09-21 00:12:43.145224191 UTC") ∧
    (∃ n left, deletion latest = (.answer n, left) ∧ row ∉ left.entries) ∧
    ¬after.Storable ∧ ∃ n left, deletion after = (.answer n, left) ∧ row ∈ left.entries := by
  intro before after least greatest row store deletion
  obtain ⟨-, -, -, hstored, horder, hrefused, hdeletion⟩ := stored_time_is_exact (σ := Unit)
  have hleast : earliest.toInstant? = some least := by decide
  have hgreatest : latest.toInstant? = some greatest := by decide
  have hout : ¬before.Storable := by decide
  have hmessage : "Timestamp out of range: " ++ before.display =
      "Timestamp out of range: 1677-09-21 00:12:43.145224191 UTC" := by decide
  obtain ⟨i, hi, hback, hanswer⟩ := hstored earliest rfl (by decide)
  obtain rfl : i = least := Option.some.inj (hi.symm.trans hleast)
  have hrow : row ∈ store.entries := List.mem_singleton_self row
  have hremoves (t : Timestamp) (ht : t.isLeapSecond = false) :
      ∃ n left, deletion t = (.answer n, left) ∧ (row ∉ left.entries ↔ t = latest) := by
    obtain ⟨hgone, hanswers⟩ := hdeletion latest t "lap" row (fun _ => none) store rfl ht
      (by decide) (by decide) hgreatest hrow
    obtain ⟨n, left, h⟩ := hanswers fun _ => rfl
    exact ⟨n, left, h, hgone n left h⟩
  obtain ⟨n, left, hlatest, hgone⟩ := hremoves latest rfl
  obtain ⟨k, kept, hafter, hstays⟩ := hremoves after rfl
  refine ⟨⟨rfl, by decide, hback, hanswer ()⟩, ⟨rfl, hgreatest, horder _ _ _ _ rfl rfl hleast
    hgreatest⟩, ⟨hout, hmessage ▸ hrefused before hout ()⟩, ⟨n, left, hlatest, hgone.2 rfl⟩,
    by decide, k, kept, hafter, ?_⟩
  exact not_not.1 fun hno => absurd (hstays.1 hno) (by decide)

end Store

end HistoryRelay
