import HistoryRelay.Timestamp.Printer
import HistoryRelay.Timestamp.Reader
import HistoryRelay.Proofs.CalendarDays

/-! Timestamps as text are read back. Main statement: the text of a timestamp denotes it, in every
year, with every fraction and in a leap second too. -/
namespace HistoryRelay

namespace Text

theorem valueOf_eq (ds : List Char) : valueOf ds = Nat.ofDigitChars 10 ds 0 := by
  simp [valueOf, Nat.ofDigitChars, digitValue, Nat.mul_comm]

theorem toList_padded (width n : Nat) : (padded width n).toList =
    List.replicate (width - (Nat.toDigits 10 n).length) '0' ++ Nat.toDigits 10 n := by
  simp [padded, Nat.repr_eq_ofList_toDigits]

theorem valueOf_padded (width n : Nat) : valueOf (padded width n).toList = n := by
  simp [valueOf_eq, toList_padded, Nat.ofDigitChars_append]

theorem isDigit_of_mem_padded {width n : Nat} {c : Char} (h : c ∈ (padded width n).toList) :
    c.isDigit = true := by
  rw [toList_padded] at h
  obtain h | h := List.mem_append.1 h
  · rw [(List.mem_replicate.1 h).2]
    decide
  · exact Nat.isDigit_of_mem_toDigits (by decide) (by decide) h

theorem length_padded_pos (width n : Nat) : 1 ≤ (padded width n).toList.length := by
  have : 0 < (Nat.toDigits 10 n).length := Nat.length_toDigits_pos
  rw [toList_padded, List.length_append]
  omega

theorem length_padded {width n : Nat} (hw : 0 < width) (h : n < 10 ^ width) :
    (padded width n).toList.length = width := by
  have := (Nat.length_toDigits_le_iff (by decide) hw).2 h
  rw [toList_padded, List.length_append, List.length_replicate]
  omega

theorem digits?_append {least most : Nat} {ds rest : List Char}
    (hdigits : ∀ c ∈ ds, c.isDigit = true) (hleast : least ≤ ds.length) (hmost : ds.length ≤ most)
    (hstop : ds.length = most ∨ ∀ c ∈ rest.head?, c.isDigit = false) :
    digits? least most (ds ++ rest) = some (valueOf ds, rest) := by
  have hrun : ((ds ++ rest).take most).takeWhile Char.isDigit = ds := by
    rw [List.take_append, List.take_of_length_le hmost, List.takeWhile_append_of_pos hdigits]
    obtain hstop | hstop := hstop
    · simp [hstop]
    · cases rest with
      | nil => simp
      | cons c rest =>
        have hc := hstop c rfl
        cases hn : most - ds.length with
        | zero => simp
        | succ n => simp [hc]
  simp [digits?, hrun, Nat.not_lt.2 hleast]

theorem digits?_padded {least most width n : Nat} (rest : List Char) (hw : 0 < width)
    (hleast : least ≤ width) (hmost : width ≤ most) (hn : n < 10 ^ width)
    (hstop : width = most ∨ ∀ c ∈ rest.head?, c.isDigit = false) :
    digits? least most ((padded width n).toList ++ rest) = some (n, rest) := by
  have hlength := length_padded hw hn
  have hrun : digits? least most ((padded width n).toList ++ rest) =
      some (valueOf (padded width n).toList, rest) :=
    digits?_append (fun _ => isDigit_of_mem_padded) (by omega) (by omega) (by rwa [hlength])
  rw [hrun, valueOf_padded]

theorem not_isBlank_of_isDigit {c : Char} (h : c.isDigit = true) : isBlank c = false := by
  simp only [Char.isDigit, Bool.and_eq_true, decide_eq_true_eq] at h
  have h0 : 48 ≤ c.toNat := h.1
  have h9 : c.toNat ≤ 57 := h.2
  simp only [isBlank, Bool.or_eq_false_iff, Bool.and_eq_false_iff, decide_eq_false_iff_not,
    beq_eq_false_iff_ne]
  omega

theorem skipBlanks_cons {c : Char} {cs : List Char} (h : isBlank c = false) :
    skipBlanks (c :: cs) = c :: cs := by
  simp [skipBlanks, h]

theorem skipBlanks_padded (width n : Nat) (rest : List Char) :
    skipBlanks ((padded width n).toList ++ rest) = (padded width n).toList ++ rest := by
  cases h : (padded width n).toList with
  | nil =>
    have := length_padded_pos width n
    simp [h] at this
  | cons c cs =>
    exact skipBlanks_cons (not_isBlank_of_isDigit (isDigit_of_mem_padded (h ▸ List.mem_cons_self)))

end Text

namespace Timestamp
open Text

theorem field?_padded {n low high : Nat} (rest : List Char) (hlow : low ≤ n) (hhigh : n ≤ high)
    (h : n < 100) : field? 2 low high ((padded 2 n).toList ++ rest) = some (n, rest) := by
  have hrun : digits? 1 2 ((padded 2 n).toList ++ rest) = some (n, rest) :=
    digits?_padded rest (by decide) (by decide) (by decide) h (.inl rfl)
  simp [field?, skipBlanks_padded, hrun, hlow, hhigh]

theorem mark?_cons {c : Char} (rest : List Char) (h : isBlank c = false) :
    mark? c (c :: rest) = some rest := by
  simp [mark?, skipBlanks_cons h]

theorem digits?_signed (n : Nat) (rest : List Char) :
    digits? 1 ((padded 4 n).toList ++ '-' :: rest).length ((padded 4 n).toList ++ '-' :: rest) =
      some (n, '-' :: rest) := by
  have hmost : (padded 4 n).toList.length ≤ ((padded 4 n).toList ++ '-' :: rest).length := by simp
  rw [digits?_append (fun _ => isDigit_of_mem_padded) (length_padded_pos 4 n) hmost
    (.inr (by simp)), valueOf_padded]

theorem year?_yearText (year : Int) (rest : List Char) :
    year? ((yearText year).toList ++ '-' :: rest) = some (year, '-' :: rest) := by
  unfold yearText
  split
  · rename_i h
    have hrun : digits? 1 4 ((padded 4 year.toNat).toList ++ '-' :: rest) =
        some (year.toNat, '-' :: rest) :=
      digits?_padded ('-' :: rest) (by decide) (by decide) (by decide) (by omega) (.inl rfl)
    unfold year?
    rw [skipBlanks_padded]
    cases hds : (padded 4 year.toNat).toList with
    | nil =>
      have := length_padded_pos 4 year.toNat
      simp [hds] at this
    | cons c cs =>
      have hc : c.isDigit = true := isDigit_of_mem_padded (hds ▸ List.mem_cons_self)
      rw [hds] at hrun
      split
      · rename_i heq
        obtain ⟨rfl, -⟩ := List.cons.inj heq
        exact absurd hc (by decide)
      · rename_i heq
        obtain ⟨rfl, -⟩ := List.cons.inj heq
        exact absurd hc (by decide)
      · rw [hrun, Option.map_some]
        exact congrArg some (Prod.ext (Int.toNat_of_nonneg h.1) rfl)
  · rename_i h
    by_cases hneg : year < 0
    · have htext : ((if year < 0 then "-" else "+") ++ padded 4 year.natAbs).toList ++ '-' :: rest =
          '-' :: ((padded 4 year.natAbs).toList ++ '-' :: rest) := by
        simp [hneg]
      have hvalue : -(year.natAbs : Int) = year := by omega
      rw [htext, year?, skipBlanks_cons (by decide)]
      simp only [digits?_signed, Option.map_some, hvalue]
    · have htext : ((if year < 0 then "-" else "+") ++ padded 4 year.natAbs).toList ++ '-' :: rest =
          '+' :: ((padded 4 year.natAbs).toList ++ '-' :: rest) := by
        simp [hneg]
      have hvalue : (year.natAbs : Int) = year := by omega
      rw [htext, year?, skipBlanks_cons (by decide)]
      simp only [digits?_signed, Option.map_some, hvalue]

theorem date?_dateText {d : Date} (hd : d.Valid) (hy : firstYear ≤ d.year ∧ d.year ≤ lastYear)
    (rest : List Char) : date? ((dateText d).toList ++ rest) = some (d, rest) := by
  have hdays : Date.daysInMonth d.year d.month ≤ 31 := by
    unfold Date.daysInMonth
    split
    · split <;> omega
    · split <;> omega
  obtain ⟨hm, hm', hday, hday'⟩ := id hd
  have htext : (dateText d).toList ++ rest = (yearText d.year).toList ++ '-' ::
      ((padded 2 d.month).toList ++ '-' :: ((padded 2 d.day).toList ++ rest)) := by
    simp [dateText]
  have hdash (cs : List Char) : mark? '-' ('-' :: cs) = some cs := mark?_cons cs (by decide)
  have hmonth (cs : List Char) : field? 2 1 12 ((padded 2 d.month).toList ++ cs) =
      some (d.month, cs) := field?_padded cs hm hm' (by omega)
  have hdayOf : field? 2 1 31 ((padded 2 d.day).toList ++ rest) = some (d.day, rest) :=
    field?_padded rest hday (by omega) (by omega)
  rw [htext, date?]
  simp [year?_yearText, hdash, hmonth, hdayOf, hd, hy]

theorem fraction?_fractionText {nanos : Nat} (h : nanos < 1000000000) (rest : List Char) :
    fraction? ((fractionText nanos).toList ++ 'Z' :: rest) = some (nanos, 'Z' :: rest) := by
  have hdigits (width n : Nat) (hw : 0 < width) (hle : width ≤ 9) (hn : n < 10 ^ width) :
      fraction? ('.' :: ((padded width n).toList ++ 'Z' :: rest)) =
        some (n * 10 ^ (9 - width), 'Z' :: rest) := by
    have hrun : digits? 1 9 ((padded width n).toList ++ 'Z' :: rest) = some (n, 'Z' :: rest) :=
      digits?_padded ('Z' :: rest) hw hw hle hn (.inr (by simp))
    have hlength := length_padded hw hn
    have hused :
        ((padded width n).toList ++ 'Z' :: rest).length - ('Z' :: rest).length = width := by
      rw [List.length_append, hlength, Nat.add_sub_cancel]
    simp only [fraction?, hrun, Option.bind_eq_bind, Option.bind_some, hused]
    simp
  unfold fractionText
  split
  · rename_i hz
    simp [fraction?, hz]
  · split
    · rename_i hm
      have := hdigits 3 (nanos / 1000000) (by decide) (by decide) (by omega)
      simp [this]
      omega
    · split
      · have := hdigits 6 (nanos / 1000) (by decide) (by decide) (by omega)
        simp [this]
        omega
      · have := hdigits 9 nanos (by decide) (by decide) (by omega)
        simp [this]

theorem secondOfDay_lt (t : Timestamp) : t.secondOfDay < 86400 := by
  unfold secondOfDay
  omega

theorem secondOfDay_of_leap {t : Timestamp} (h : t.isLeapSecond = true) :
    t.secondOfDay % 60 = 59 := by
  have := t.leap_ends_minute (by simpa [isLeapSecond] using h)
  unfold secondOfDay
  omega

theorem clock?_clockText (t : Timestamp) (rest : List Char) :
    clock? ((clockText t).toList ++ 'Z' :: rest) =
      some (t.secondOfDay, t.nanos, 'Z' :: rest) := by
  have hs := t.secondOfDay_lt
  have hnanos := t.nanos_lt
  have hcolon (cs : List Char) : mark? ':' (':' :: cs) = some cs := mark?_cons cs (by decide)
  have hhour (cs : List Char) : field? 2 0 23 ((padded 2 (t.secondOfDay / 3600)).toList ++ cs) =
      some (t.secondOfDay / 3600, cs) := field?_padded cs (by omega) (by omega) (by omega)
  have hminute (cs : List Char) :
      field? 2 0 59 ((padded 2 (t.secondOfDay / 60 % 60)).toList ++ cs) =
        some (t.secondOfDay / 60 % 60, cs) := field?_padded cs (by omega) (by omega) (by omega)
  have hfraction : fraction? ((fractionText (t.nanos % 1000000000)).toList ++ 'Z' :: rest) =
      some (t.nanos % 1000000000, 'Z' :: rest) := fraction?_fractionText (by omega) rest
  cases hleap : t.isLeapSecond with
  | true =>
    have hend := secondOfDay_of_leap hleap
    have hlate : 1000000000 ≤ t.nanos := by simpa [isLeapSecond] using hleap
    have hsecond (cs : List Char) : field? 2 0 60 ((padded 2 60).toList ++ cs) = some (60, cs) :=
      field?_padded cs (by decide) (by decide) (by decide)
    have htext : (clockText t).toList ++ 'Z' :: rest =
        (padded 2 (t.secondOfDay / 3600)).toList ++ ':' ::
          ((padded 2 (t.secondOfDay / 60 % 60)).toList ++ ':' :: ((padded 2 60).toList ++
            ((fractionText (t.nanos % 1000000000)).toList ++ 'Z' :: rest))) := by
      simp [clockText, hleap]
    rw [htext, clock?]
    simp [hcolon, hhour, hminute, hsecond, hfraction]
    omega
  | false =>
    have hearly : t.nanos < 1000000000 := by simpa [isLeapSecond] using hleap
    have hsecond (cs : List Char) :
        field? 2 0 60 ((padded 2 (t.secondOfDay % 60)).toList ++ cs) =
          some (t.secondOfDay % 60, cs) := field?_padded cs (by omega) (by omega) (by omega)
    have htext : (clockText t).toList ++ 'Z' :: rest =
        (padded 2 (t.secondOfDay / 3600)).toList ++ ':' ::
          ((padded 2 (t.secondOfDay / 60 % 60)).toList ++ ':' ::
            ((padded 2 (t.secondOfDay % 60)).toList ++
              ((fractionText (t.nanos % 1000000000)).toList ++ 'Z' :: rest))) := by
      simp [clockText, hleap]
    have hsixty : t.secondOfDay % 60 ≠ 60 := by omega
    rw [htext, clock?]
    simp [hcolon, hhour, hminute, hsecond, hfraction, hsixty]
    omega

theorem ofText?_text (t : Timestamp) : ofText? t.text = some t := by
  have hdate (cs : List Char) : date? ((dateText t.date).toList ++ cs) = some (t.date, cs) :=
    date?_dateText (Date.valid_ofDays (t.seconds / 86400)) t.year_mem cs
  have hclock := clock?_clockText t []
  have htext : t.text.toList = (dateText t.date).toList ++ 'T' ::
      ((clockText t).toList ++ ['Z']) := by
    simp [text]
  have hzone : skipBlanks ['Z'] = ['Z'] := skipBlanks_cons (by decide)
  have hend : (skipBlanks []).isEmpty = true := rfl
  have hseconds : t.date.toDays * 86400 + t.secondOfDay - 0 = t.seconds := by
    rw [date, Date.toDays_ofDays, secondOfDay]
    omega
  have hmake : make? t.seconds t.nanos = some t :=
    dif_pos ⟨t.nanos_lt, t.leap_ends_minute, t.first_le, t.le_last⟩
  simp only [ofText?, htext, hdate, separator?, hclock, hzone, offset?, hend, hseconds, hmake,
    Option.bind_eq_bind, Option.bind_some, if_true]

end Timestamp

end HistoryRelay
