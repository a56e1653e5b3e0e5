import HistoryRelay.Client
import HistoryRelay.Proofs.TimestampText

/-! Version headers. Main statement: a text denotes a version exactly if one place of it has a
token, whose digit runs, as long as they go, are ASCII and fit 32 bits. -/
namespace HistoryRelay

namespace Text

theorem natural?_eq_some {ds : List Char} {n : Nat} : natural? ds = some n ↔
    ds ≠ [] ∧ (∀ c ∈ ds, c.isDigit = true) ∧ Nat.ofDigitChars 10 ds 0 = n := by
  simp [natural?, valueOf_eq, and_assoc]

theorem natural?_toDigits (n : Nat) : natural? (Nat.toDigits 10 n) = some n :=
  natural?_eq_some.2 ⟨Nat.toDigits_ne_nil, fun _ h =>
    Nat.isDigit_of_mem_toDigits (by decide) (by decide) h, by simp⟩

end Text

namespace ClientVersion
open Text

/-- These characters are a `v`, decimal digits, a dot, decimal digits again, and some rest. -/
structure Spells (cs major minor rest : List Char) : Prop where
  eq : cs = 'v' :: (major ++ '.' :: (minor ++ rest))
  major_ne : major ≠ []
  minor_ne : minor ≠ []
  major_digits : ∀ c ∈ major, isDecimalDigit c = true
  minor_digits : ∀ c ∈ minor, isDecimalDigit c = true

def HasToken (cs : List Char) (place : Nat) : Prop :=
  ∃ major minor rest, Spells (cs.drop place) major minor rest

section Runs
variable {ds rest : List Char} (hds : ∀ c ∈ ds, isDecimalDigit c = true)
include hds

theorem takeWhile_run (hrest : ∀ c ∈ rest.head?, isDecimalDigit c = false) :
    (ds ++ rest).takeWhile isDecimalDigit = ds := by
  rw [List.takeWhile_append_of_pos hds]
  cases rest with
  | nil => simp
  | cons c rest => simp [hrest c rfl]

theorem dropWhile_run (hrest : ∀ c ∈ rest.head?, isDecimalDigit c = false) :
    (ds ++ rest).dropWhile isDecimalDigit = rest := by
  rw [List.dropWhile_append_of_pos hds]
  cases rest with
  | nil => rfl
  | cons c rest => simp [hrest c rfl]

end Runs

theorem head?_dropWhile_run {cs : List Char} {c : Char}
    (h : c ∈ (cs.dropWhile isDecimalDigit).head?) : isDecimalDigit c = false := by
  have hstop := List.head?_dropWhile_not isDecimalDigit cs
  rwa [h] at hstop

section Tokens
variable {cs major minor rest : List Char}

theorem tokenAt_eq_some : tokenAt cs = some (major, minor) ↔
    ∃ rest, Spells cs major minor rest ∧ ∀ c ∈ rest.head?, isDecimalDigit c = false := by
  constructor
  · intro h
    unfold tokenAt at h
    split at h
    · rename_i tail
      split at h
      · rename_i after hdot
        extract_lets first second at h
        split at h
        · cases h
        · rename_i hfull
          obtain ⟨rfl, rfl⟩ := Prod.mk.inj (Option.some.inj h)
          simp only [Bool.or_eq_true, List.isEmpty_iff, not_or] at hfull
          refine ⟨after.dropWhile isDecimalDigit, ⟨?_, hfull.1, hfull.2, fun c hc =>
            List.mem_takeWhile_imp hc, fun c hc => List.mem_takeWhile_imp hc⟩, fun c =>
              head?_dropWhile_run⟩
          rw [List.takeWhile_append_dropWhile, ← hdot, List.takeWhile_append_dropWhile]
      · cases h
    · cases h
  · rintro ⟨rest, ⟨rfl, hmajor, hminor, hfirst, hsecond⟩, hstop⟩
    have hdot : ∀ c ∈ ('.' :: (minor ++ rest)).head?, isDecimalDigit c = false := by
      rintro c ⟨⟩
      decide
    simp only [tokenAt, takeWhile_run hfirst hdot, dropWhile_run hfirst hdot,
      takeWhile_run hsecond hstop, List.isEmpty_iff, hmajor, hminor, Bool.or_eq_true, or_self,
      if_false]

theorem tokenAt_isSome : (tokenAt cs).isSome = true ↔
    ∃ major minor rest, Spells cs major minor rest := by
  constructor
  · intro h
    obtain ⟨⟨major, minor⟩, htoken⟩ := Option.isSome_iff_exists.1 h
    obtain ⟨rest, hspells, -⟩ := tokenAt_eq_some.1 htoken
    exact ⟨major, minor, rest, hspells⟩
  · rintro ⟨major, minor, rest, ⟨rfl, hmajor, hminor, hfirst, hsecond⟩⟩
    let run := rest.takeWhile isDecimalDigit
    have hrun : ∀ c ∈ minor ++ run, isDecimalDigit c = true := fun c hc =>
      (List.mem_append.1 hc).elim (hsecond c) fun hc => List.mem_takeWhile_imp hc
    refine Option.isSome_iff_exists.2 ⟨(major, minor ++ run), tokenAt_eq_some.2
      ⟨rest.dropWhile isDecimalDigit, ⟨?_, hmajor, ?_, hfirst, hrun⟩, fun c => head?_dropWhile_run⟩⟩
    · rw [List.append_assoc, List.takeWhile_append_dropWhile]
    · simp [hminor]

theorem hasToken_iff {place : Nat} :
    HasToken cs place ↔ (tokenAt (cs.drop place)).isSome = true :=
  tokenAt_isSome.symm

theorem hasToken_succ {c : Char} {place : Nat} :
    HasToken (c :: cs) (place + 1) ↔ HasToken cs place := Iff.rfl

theorem not_hasToken_nil (place : Nat) : ¬HasToken [] place := by
  simp [hasToken_iff, tokenAt]

theorem tokens_cons (c : Char) (cs : List Char) :
    tokens (c :: cs) = (tokenAt (c :: cs)).toList ++ tokens cs := by
  rw [tokens]
  cases tokenAt (c :: cs) <;> rfl

theorem hasToken_zero {c : Char} :
    HasToken (c :: cs) 0 ↔ (tokenAt (c :: cs)).isSome = true := hasToken_iff

theorem tokens_eq_nil : tokens cs = [] ↔ ∀ place, ¬HasToken cs place := by
  induction cs with
  | nil => exact iff_of_true rfl not_hasToken_nil
  | cons c cs ih =>
    rw [tokens_cons, List.append_eq_nil_iff, Option.toList_eq_nil_iff, ih]
    refine Iff.trans (and_congr ?_ ?_) Nat.and_forall_add_one
    · rw [hasToken_zero, Bool.not_eq_true, Option.isSome_eq_false_iff, Option.isNone_iff_eq_none]
    · exact forall_congr' fun place => not_congr hasToken_succ.symm

theorem tokens_eq_singleton {token : List Char × List Char} : tokens cs = [token] ↔
    ∃ place, tokenAt (cs.drop place) = some token ∧ ∀ other, HasToken cs other → other = place := by
  induction cs with
  | nil => simp [tokens, tokenAt]
  | cons c cs ih =>
    rw [tokens_cons]
    cases hhere : tokenAt (c :: cs) with
    | none =>
      rw [Option.toList_none, List.nil_append, ih]
      constructor
      · rintro ⟨place, htoken, honly⟩
        refine ⟨place + 1, htoken, fun other hother => ?_⟩
        cases other with
        | zero => simp [hasToken_zero, hhere] at hother
        | succ other => rw [honly other hother]
      · rintro ⟨place, htoken, honly⟩
        cases place with
        | zero => simp [hhere] at htoken
        | succ place =>
          exact ⟨place, htoken, fun other hother => Nat.succ.inj (honly (other + 1) hother)⟩
    | some here =>
      rw [Option.toList_some, List.singleton_append, List.cons.injEq, tokens_eq_nil]
      constructor
      · rintro ⟨rfl, hnone⟩
        refine ⟨0, hhere, fun other hother => ?_⟩
        cases other with
        | zero => rfl
        | succ other => exact absurd hother (hnone other)
      · rintro ⟨place, htoken, honly⟩
        obtain rfl := honly 0 (by simp [hasToken_zero, hhere])
        rw [List.drop_zero, hhere] at htoken
        exact ⟨Option.some.inj htoken, fun other hother =>
          Nat.succ_ne_zero other (honly (other + 1) hother)⟩

end Tokens

section Scan

/-- What a search finds that goes from left to right and after each token goes on where the token
ends. -/
def scan (cs : List Char) : List (List Char × List Char) :=
  match cs with
  | [] => []
  | c :: rest =>
    match tokenAt (c :: rest) with
    | some (major, minor) => (major, minor) :: scan (rest.drop (major.length + 1 + minor.length))
    | none => scan rest
  termination_by cs.length
  decreasing_by all_goals grind

theorem tokens_append {front rest : List Char} (h : 'v' ∉ front) :
    tokens (front ++ rest) = tokens rest := by
  induction front with
  | nil => rfl
  | cons c front ih =>
    obtain ⟨hc, hfront⟩ := not_or.1 (List.mem_cons.not.1 h)
    have hnone : tokenAt (c :: (front ++ rest)) = none := by
      unfold tokenAt
      split
      · rename_i heq
        injection heq with heq
        exact absurd heq.symm hc
      · rfl
    rw [List.cons_append, tokens_cons, hnone, Option.toList_none, List.nil_append, ih hfront]

theorem not_mem_body {major minor : List Char} (hmajor : ∀ c ∈ major, isDecimalDigit c = true)
    (hminor : ∀ c ∈ minor, isDecimalDigit c = true) : 'v' ∉ major ++ '.' :: minor := by
  have hletter : isDecimalDigit 'v' ≠ true := by decide
  simp only [List.mem_append, List.mem_cons, not_or]
  exact ⟨fun h => hletter (hmajor _ h), by decide, fun h => hletter (hminor _ h)⟩

/-- No token starts within another one, so that none is passed over. -/
theorem tokens_eq_scan (cs : List Char) : tokens cs = scan cs := by
  fun_induction scan cs with
  | case1 => rfl
  | case2 c rest major minor htoken ih =>
    obtain ⟨after, ⟨heq, -, -, hfirst, hsecond⟩, -⟩ := tokenAt_eq_some.1 htoken
    obtain ⟨-, rfl⟩ := List.cons.inj heq
    have hrest : major ++ '.' :: (minor ++ after) = (major ++ '.' :: minor) ++ after := by simp
    have hdrop : ((major ++ '.' :: minor) ++ after).drop (major.length + 1 + minor.length) =
        after := List.drop_left' (by simp; omega)
    rw [hrest, hdrop] at ih
    rw [tokens_cons, htoken, hrest, tokens_append (not_mem_body hfirst hsecond), hdrop, ih]
    rfl
  | case3 c rest hnone ih => rw [tokens_cons, hnone, ih, Option.toList_none, List.nil_append]

end Scan

/-- The one place of a text that has a token is this one, and these are the digit runs there, as
long as they go. -/
structure HoldsOne (cs : List Char) (place : Nat) (major minor : List Char) : Prop where
  only : ∀ other, HasToken cs other ↔ other = place
  runs : ∃ rest, Spells (cs.drop place) major minor rest ∧
    ∀ c ∈ rest.head?, isDecimalDigit c = false

theorem tokens_eq_one {cs major minor : List Char} :
    tokens cs = [(major, minor)] ↔ ∃ place, HoldsOne cs place major minor := by
  rw [tokens_eq_singleton]
  refine exists_congr fun place => ?_
  rw [tokenAt_eq_some]
  constructor
  · rintro ⟨⟨rest, hspells, hstop⟩, honly⟩
    refine ⟨fun other => ⟨honly other, ?_⟩, rest, hspells, hstop⟩
    rintro rfl
    exact ⟨major, minor, rest, hspells⟩
  · rintro ⟨honly, hruns⟩
    exact ⟨hruns, fun other => (honly other).1⟩

theorem ofText?_eq_some {s : String} {v : ClientVersion} : ofText? s = some v ↔
    ∃ place major minor, HoldsOne s.toList place major minor ∧
      (natural? major = some v.major ∧ v.major < Word.halfBound) ∧
        natural? minor = some v.minor ∧ v.minor < Word.halfBound := by
  obtain ⟨m, n⟩ := v
  have hread (first second : List Char) : (do
      let major ← (natural? first).filter (· < Word.halfBound)
      let minor ← (natural? second).filter (· < Word.halfBound)
      some (⟨major, minor⟩ : ClientVersion)) = some ⟨m, n⟩ ↔
        (natural? first = some m ∧ m < Word.halfBound) ∧
          natural? second = some n ∧ n < Word.halfBound := by
    simp [Option.bind_eq_some_iff, Option.filter_eq_some_iff, and_assoc]
  unfold ofText?
  split
  · rename_i first second htokens
    rw [hread]
    constructor
    · intro h
      obtain ⟨place, hone⟩ := tokens_eq_one.1 htokens
      exact ⟨place, first, second, hone, h⟩
    · rintro ⟨place, major, minor, hone, h⟩
      have hsame := htokens.symm.trans (tokens_eq_one.2 ⟨place, hone⟩)
      simp only [List.cons.injEq, Prod.mk.injEq, and_true] at hsame
      rwa [hsame.1, hsame.2]
  · rename_i hmany
    simp only [reduceCtorEq, false_iff]
    rintro ⟨place, major, minor, hone, -⟩
    exact hmany major minor (tokens_eq_one.2 ⟨place, hone⟩)

theorem tokens_text (v : ClientVersion) :
    tokens v.text.toList = [(Nat.toDigits 10 v.major, Nat.toDigits 10 v.minor)] := by
  have hdigits (n : Nat) : ∀ c ∈ Nat.toDigits 10 n, isDecimalDigit c = true := fun c hc =>
    isDecimalDigit_of_isDigit (Nat.isDigit_of_mem_toDigits (by decide) (by decide) hc)
  have htext : v.text.toList =
      'v' :: (Nat.toDigits 10 v.major ++ '.' :: Nat.toDigits 10 v.minor) := by
    simp [text, Nat.repr_eq_ofList_toDigits]
  have htoken : tokenAt v.text.toList =
      some (Nat.toDigits 10 v.major, Nat.toDigits 10 v.minor) :=
    tokenAt_eq_some.2 ⟨[], ⟨by rw [htext, List.append_nil], Nat.toDigits_ne_nil,
      Nat.toDigits_ne_nil, hdigits _, hdigits _⟩, by simp⟩
  rw [htext] at htoken ⊢
  rw [tokens_cons, htoken, ← List.append_nil (_ ++ _ :: _),
    tokens_append (not_mem_body (hdigits _) (hdigits _))]
  rfl

theorem ofText?_text {v : ClientVersion} (hmajor : v.major < Word.halfBound)
    (hminor : v.minor < Word.halfBound) : ofText? v.text = some v := by
  obtain ⟨place, hone⟩ := tokens_eq_one.1 (tokens_text v)
  exact ofText?_eq_some.2 ⟨place, _, _, hone, ⟨natural?_toDigits _, hmajor⟩,
    natural?_toDigits _, hminor⟩

theorem compare_eq_gt {a b : ClientVersion} :
    a.compare b = .gt ↔ toLex (b.major, b.minor) < toLex (a.major, a.minor) := by
  rw [compare, Ordering.then_eq_gt, Nat.compare_eq_gt, Nat.compare_eq_gt, Nat.compare_eq_eq,
    Prod.Lex.toLex_lt_toLex, eq_comm]

theorem wantsRequests_eq_false {header : String} : wantsRequests header = false ↔
    ∃ v, ofText? header = some v ∧ toLex (v.major, v.minor) ≤ toLex (0, 221) := by
  unfold wantsRequests
  cases ofText? header with
  | none => simp
  | some v => simp [compare_eq_gt, lastBareSubmit]

/-- A text denotes a version exactly if one place of it has a token whose runs are ASCII digits that
spell two numbers of 32 bits. What a version is written as denotes it, and only texts that denote
one up to 0.221 are refused the requests. -/
theorem ofText?_accepts_tokens :
    (∀ s v, ofText? s = some v ↔ ∃ place major minor, HoldsOne s.toList place major minor ∧
      (∀ c ∈ major ++ minor, c.isDigit = true) ∧
        Nat.ofDigitChars 10 major 0 = v.major ∧ v.major ≤ 4294967295 ∧
          Nat.ofDigitChars 10 minor 0 = v.minor ∧ v.minor ≤ 4294967295) ∧
      (∀ v : ClientVersion, v.major ≤ 4294967295 → v.minor ≤ 4294967295 →
        ofText? v.text = some v) ∧
      ∀ header, wantsRequests header = false ↔
        ∃ v, ofText? header = some v ∧ toLex (v.major, v.minor) ≤ toLex (0, 221) := by
  refine ⟨fun s v => ?_, fun v hmajor hminor =>
    ofText?_text (Nat.lt_succ_of_le hmajor) (Nat.lt_succ_of_le hminor), fun _ =>
      wantsRequests_eq_false⟩
  rw [ofText?_eq_some]
  refine exists_congr fun place => exists_congr fun major => exists_congr fun minor =>
    and_congr_right fun ⟨_, _, hspells, _⟩ => ?_
  simp only [natural?_eq_some, List.mem_append, or_imp, forall_and]
  have hmajor := hspells.major_ne
  have hminor := hspells.minor_ne
  have hbound : Word.halfBound = 4294967295 + 1 := rfl
  grind

/-- A development build names its version between other words, with zeros in front. -/
theorem ofText?_accepts_tokens_of_build :
    ofText? "histsync-dev v00.0222 (v0.x)" = some ⟨0, 222⟩ ∧
      ofText? (text ⟨0, 221⟩) = some ⟨0, 221⟩ ∧ wantsRequests (text ⟨0, 221⟩) = false := by
  obtain ⟨haccepts, hwritten, hrefused⟩ := ofText?_accepts_tokens
  obtain ⟨place, hone⟩ : ∃ place, HoldsOne "histsync-dev v00.0222 (v0.x)".toList place
      ['0', '0'] ['0', '2', '2', '2'] := tokens_eq_one.1 (by cbv)
  have hdigits : ∀ c ∈ ['0', '0'] ++ ['0', '2', '2', '2'], c.isDigit = true := by simp
  have hbuild : ofText? "histsync-dev v00.0222 (v0.x)" = some ⟨0, 222⟩ :=
    (haccepts _ _).2 ⟨place, _, _, hone, hdigits, rfl, Nat.zero_le _, rfl, by decide⟩
  have hlast : ofText? (text ⟨0, 221⟩) = some ⟨0, 221⟩ :=
    hwritten _ (Nat.zero_le _) (by decide)
  exact ⟨hbuild, hlast, (hrefused _).2 ⟨_, hlast, le_rfl⟩⟩

end ClientVersion

end HistoryRelay
