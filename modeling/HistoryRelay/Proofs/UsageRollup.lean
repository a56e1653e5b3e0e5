import HistoryRelay.Proofs.DeepClean
import HistoryRelay.Proofs.UserCap

/-! The rollup of the usage ledger. Main statement: it has one summary for each user of the ledger,
the latest used first, which tells what the rows of the user come to, and the summaries come to the
same total as the whole ledger. -/
namespace HistoryRelay
open Step

namespace Counter

/-- The counters are whole, and adding them up one after the other stays within 64 bits. -/
structure AddUp (cs : List Counter) : Prop where
  whole : ∀ c ∈ cs, ∃ n, c = .whole n
  fits : ∀ front, front <+: cs.map value → Word.isSigned front.sum = true

theorem sumFrom_of_fits {ns : List Int} {total : Int}
    (h : ∀ front, front <+: ns → Word.isSigned (total + front.sum) = true) :
    sumFrom total ns = some (total + ns.sum) := by
  induction ns generalizing total with
  | nil => simp [sumFrom]
  | cons n rest ih =>
    have hone : Word.isSigned (total + n) = true := by simpa using h [n] (by simp)
    have hrest : ∀ front, front <+: rest → Word.isSigned (total + n + front.sum) = true := by
      intro front hfront
      have hcons := h (n :: front) (List.cons_prefix_cons.2 ⟨rfl, hfront⟩)
      rwa [List.sum_cons, ← add_assoc] at hcons
    rw [sumFrom, if_pos hone, ih hrest, List.sum_cons, add_assoc]

theorem mapM_whole? {cs : List Counter} {ns : List Int} :
    cs.mapM whole? = some ns ↔ cs = ns.map .whole := by
  induction cs generalizing ns with
  | nil => simp [eq_comm]
  | cons c rest ih =>
    cases c with
    | rounded n => cases ns <;> simp [whole?]
    | whole n =>
      rw [List.mapM_cons]
      cases ns with
      | nil => simp [whole?, Option.bind_eq_some_iff]
      | cons m ns =>
        simp only [whole?, Option.bind_eq_bind, Option.bind_some, Option.bind_eq_some_iff, ih,
          Option.pure_def, Option.some.injEq, List.cons.injEq, List.map_cons, whole.injEq]
        constructor
        · rintro ⟨ns, rfl, rfl, rfl⟩
          exact ⟨rfl, rfl⟩
        · rintro ⟨rfl, rfl⟩
          exact ⟨ns, rfl, rfl, rfl⟩

theorem AddUp.sum_eq {cs : List Counter} (h : AddUp cs) : sum cs = .whole (cs.map value).sum := by
  have hself : ∀ c ∈ cs, (Counter.whole ∘ value) c = id c := fun c hc => by
    obtain ⟨n, rfl⟩ := h.whole c hc
    rfl
  have hread : cs.mapM whole? = some (cs.map value) := by
    rw [mapM_whole?, List.map_map, List.map_congr_left hself, List.map_id]
  have hsum : sumFrom 0 (cs.map value) = some (0 + (cs.map value).sum) :=
    sumFrom_of_fits fun front hfront => by simpa using h.fits front hfront
  simp [sum, hread, hsum]

theorem eq_of_sum_eq {cs : List Counter} {n : Int} (h : sum cs = .whole n) :
    n = (cs.map value).sum := by
  unfold sum at h
  split at h
  · cases h
  · rename_i ns hread
    split at h
    · rename_i m hsum
      obtain rfl : m = n := by injection h
      obtain rfl := mapM_whole?.1 hread
      rw [sumFrom_eq hsum, List.map_map, List.sum_eq_foldl]
      simp [Function.comp_def, value]
    · cases h

theorem addUp_of_nonneg {cs : List Counter} (hwhole : ∀ c ∈ cs, ∃ n : Nat, c = .whole n)
    (hsum : (cs.map value).sum ≤ 9223372036854775807) : AddUp cs where
  whole c hc := (hwhole c hc).imp' _ fun _ => id
  fits front hfront := by
    have hnonneg : ∀ n ∈ cs.map value, 0 ≤ n := by
      simp only [List.mem_map]
      rintro _ ⟨c, hc, rfl⟩
      obtain ⟨n, rfl⟩ := hwhole c hc
      exact Int.natCast_nonneg n
    have hpos : 0 ≤ front.sum := List.sum_nonneg fun n hn => hnonneg n (hfront.subset hn)
    have hle : front.sum ≤ (cs.map value).sum := hfront.sublist.sum_le_sum hnonneg
    rw [Word.isSigned_iff]
    omega

end Counter

namespace Usage

section Latest

/-- The latest of some times, if there are any. -/
def IsLatest (is : List Instant) : Option Instant → Prop
  | none => is = []
  | some m => m ∈ is ∧ ∀ i ∈ is, i ≤ m

theorem isLatest_latest (is : List Instant) : IsLatest is (latest is) := by
  induction is using List.reverseRecOn with
  | nil => rfl
  | append_singleton is i ih =>
    rw [latest, List.foldl_concat, ← latest]
    cases hm : latest is with
    | none =>
      rw [hm] at ih
      obtain rfl : is = [] := ih
      simp [IsLatest, Instant.le_iff]
    | some m =>
      rw [hm] at ih
      obtain ⟨hin, hall⟩ := ih
      simp only [Instant.le_iff, Instant.lt_iff] at hall ⊢
      split
      · rename_i hlater
        refine ⟨by simp, fun j hj => ?_⟩
        obtain hj | hj := List.mem_append.1 hj
        · exact (hall j hj).trans hlater.le
        · rw [List.mem_singleton.1 hj]
          exact Int.le_refl _
      · rename_i hearlier
        refine ⟨by simp [hin], fun j hj => ?_⟩
        obtain hj | hj := List.mem_append.1 hj
        · exact hall j hj
        · rw [List.mem_singleton.1 hj]
          exact Int.not_lt.1 hearlier

theorem latest_eq_none {is : List Instant} : latest is = none ↔ is = [] := by
  have h := isLatest_latest is
  cases hm : latest is with
  | none =>
    rw [hm] at h
    exact iff_of_true rfl h
  | some m =>
    rw [hm] at h
    simpa using List.ne_nil_of_mem h.1

end Latest

section Summaries
variable {us : List UsageRow} {user : String} {s : UsageSummary} {ss : List UsageSummary}

/-- No counter of the ledger leaves the 64 bits, nor does a sum of them on its way: of the whole
ledger, or of the rows of a user. -/
structure Fits (us : List UsageRow) : Prop where
  total : Counter.AddUp (us.map (·.entriesHandled))
  perUser : ∀ user, Counter.AddUp ((ofUser user us).map (·.entriesHandled))

theorem ofUser_perm (user : String) (us : List UsageRow) :
    (ofUser user us).Perm (us.filter (·.user = user)) := List.mergeSort_perm _ _

theorem mem_ofUser {u : UsageRow} : u ∈ ofUser user us ↔ u ∈ us ∧ u.user = user := by
  rw [(ofUser_perm user us).mem_iff, List.mem_filter, decide_eq_true_eq]

theorem fits_of_nonneg (hwhole : ∀ u ∈ us, ∃ n : Nat, u.entriesHandled = .whole n)
    (hsum : (us.map (·.entriesHandled.value)).sum ≤ 9223372036854775807) : Fits us where
  total := by
    refine Counter.addUp_of_nonneg (List.forall_mem_map.2 hwhole) ?_
    rwa [List.map_map]
  perUser user := by
    have hnonneg : ∀ n ∈ us.map (·.entriesHandled.value), 0 ≤ n := by
      refine List.forall_mem_map.2 fun u hu => ?_
      obtain ⟨n, hn⟩ := hwhole u hu
      rw [hn]
      exact Int.natCast_nonneg n
    have hpart : ((ofUser user us).map (·.entriesHandled.value)).sum ≤
        (us.map (·.entriesHandled.value)).sum := by
      rw [((ofUser_perm user us).map _).sum_eq]
      exact (List.filter_sublist.map _).sum_le_sum hnonneg
    refine Counter.addUp_of_nonneg (List.forall_mem_map.2 fun u hu =>
      hwhole u (mem_ofUser.1 hu).1) ?_
    rw [List.map_map]
    exact hpart.trans hsum

theorem mem_users : user ∈ users us ↔ ∃ u ∈ us, u.user = user := by
  simp [users, List.mem_eraseDups]

theorem read_eq_ok {of : LedgerSum} {sum : Counter.Sum} {n : Int} :
    read of sum = .ok n ↔ sum = .whole n := by
  cases sum <;> simp [read]

def summaryOf (user : String) (rows : List UsageRow) (total : Int) (last : Instant) :
    UsageSummary :=
  ⟨user, rows.length, total, rows.foldl (fun n u => n + u.queries) 0, last,
    latest (rows.filterMap (·.lastQueried)), parts (rows.map (·.lastIp)),
    parts (rows.map (·.version))⟩

theorem summary?_eq (user : String) (us : List UsageRow) : summary? user us =
    match latest ((ofUser user us).map (·.lastUsed)) with
    | none => .ok none
    | some last => (read .perUser (handled (ofUser user us))).map fun total =>
      some (summaryOf user (ofUser user us) total last) := by
  unfold summary?
  extract_lets rows
  cases latest (rows.map (·.lastUsed)) with
  | none => rfl
  | some last => cases handled rows <;> rfl

theorem summary?_eq_some : summary? user us = .ok (some s) ↔
    ∃ total last, handled (ofUser user us) = .whole total ∧
      latest ((ofUser user us).map (·.lastUsed)) = some last ∧
        s = summaryOf user (ofUser user us) total last := by
  rw [summary?_eq]
  cases latest ((ofUser user us).map (·.lastUsed)) with
  | none => simp
  | some last => cases handled (ofUser user us) <;> simp [read, Except.map, eq_comm]

theorem summary?_ne_none (h : user ∈ users us) : summary? user us ≠ .ok none := by
  obtain ⟨u, hu, huser⟩ := mem_users.1 h
  have hrow : u.lastUsed ∈ (ofUser user us).map (·.lastUsed) :=
    List.mem_map_of_mem (mem_ofUser.2 ⟨hu, huser⟩)
  rw [summary?_eq]
  cases hlast : latest ((ofUser user us).map (·.lastUsed)) with
  | none => exact absurd (latest_eq_none.1 hlast ▸ hrow) List.not_mem_nil
  | some last => cases handled (ofUser user us) <;> simp [read, Except.map]

def notAfter (a b : UsageSummary) : Bool :=
  b.lastUsed < a.lastUsed || (a.lastUsed = b.lastUsed && a.user ≤ b.user)

theorem notAfter_iff {a b : UsageSummary} : notAfter a b = true ↔
    toLex (-a.lastUsed.nanos, a.user) ≤ toLex (-b.lastUsed.nanos, b.user) := by
  have he : a.lastUsed = b.lastUsed ↔ -a.lastUsed.nanos = -b.lastUsed.nanos := by
    rw [neg_inj, Instant.mk.injEq]
  simp [notAfter, Instant.lt_iff, he, Prod.Lex.toLex_le_toLex]

theorem somes_of_forall₂ {names : List String} {found : List (Option UsageSummary)}
    (h : List.Forall₂ (fun user o => summary? user us = .ok o) names found)
    (hnames : ∀ user ∈ names, user ∈ users us) :
    List.Forall₂ (fun user s => summary? user us = .ok (some s)) names (found.filterMap id) := by
  induction h with
  | nil => exact .nil
  | @cons user o names found hone _ ih =>
    have hrest := ih fun user h => hnames user (List.mem_cons_of_mem _ h)
    cases o with
    | none => exact absurd hone (summary?_ne_none (hnames user List.mem_cons_self))
    | some s => exact .cons hone hrest

theorem summaries_eq_ok (h : summaries us = .ok ss) :
    ∃ found, List.Forall₂ (fun user s => summary? user us = .ok (some s)) (users us) found ∧
      ss = found.mergeSort notAfter := by
  unfold summaries at h
  split at h
  · simp [bind, Except.bind] at h
  · cases hfound : (users us).mapM fun user => summary? user us with
    | error e => simp [hfound, bind, Except.bind] at h
    | ok found =>
      refine ⟨found.filterMap id, somes_of_forall₂ (mapM_eq_ok.1 hfound) fun _ => id, ?_⟩
      rw [hfound] at h
      exact (Except.ok.inj h).symm

theorem Fits.summaries (h : Fits us) : ∃ ss, summaries us = .ok ss := by
  have hwhole (user : String) := (h.perUser user).sum_eq
  have hread (user : String) (e : RelayError) : summary? user us ≠ .error e := by
    rw [summary?_eq, handled, hwhole]
    split <;> simp [read, Except.map]
  cases hss : Usage.summaries us with
  | ok ss => exact ⟨ss, rfl⟩
  | error e =>
    unfold Usage.summaries at hss
    split at hss
    · rename_i hover
      simp [handled, hwhole] at hover
    · cases hfound : (users us).mapM fun user => summary? user us with
      | error e =>
        obtain ⟨user, -, he⟩ := error_of_mapM hfound
        exact absurd he (hread user e)
      | ok found =>
        rw [hfound] at hss
        cases hss

theorem notAfter_trans (a b c : UsageSummary) (hab : notAfter a b = true)
    (hbc : notAfter b c = true) : notAfter a c = true :=
  notAfter_iff.2 ((notAfter_iff.1 hab).trans (notAfter_iff.1 hbc))

theorem notAfter_total (a b : UsageSummary) : (notAfter a b || notAfter b a) = true := by
  rw [Bool.or_eq_true, notAfter_iff, notAfter_iff]
  exact le_total _ _

theorem before_of_notAfter {a b : UsageSummary} (h : notAfter a b = true) (hne : a.user ≠ b.user) :
    b.lastUsed < a.lastUsed ∨ a.lastUsed = b.lastUsed ∧ a.user < b.user := by
  simp only [notAfter, Bool.or_eq_true, Bool.and_eq_true, decide_eq_true_eq] at h
  exact h.imp_right fun ⟨hlast, huser⟩ => ⟨hlast, lt_of_le_of_ne huser hne⟩

end Summaries

section Rollup
variable {us : List UsageRow} {user : String} {s : UsageSummary} {ss : List UsageSummary}

theorem IsLatest.perm {is js : List Instant} {o : Option Instant} (h : IsLatest is o)
    (hperm : is.Perm js) : IsLatest js o := by
  cases o with
  | none =>
    obtain rfl : is = [] := h
    exact List.nil_perm.1 hperm
  | some m => exact ⟨hperm.mem_iff.1 h.1, fun i hi => h.2 i (hperm.mem_iff.2 hi)⟩

/-- The summary tells what these rows come to. -/
structure SumsUp (s : UsageSummary) (rows : List UsageRow) : Prop where
  devices : s.devices = rows.length
  entriesHandled : s.entriesHandled = (rows.map (·.entriesHandled.value)).sum
  queries : s.queries = (rows.map (·.queries)).sum
  lastUsed : IsLatest (rows.map (·.lastUsed)) (some s.lastUsed)
  lastQueried : IsLatest (rows.filterMap (·.lastQueried)) s.lastQueried

theorem sumsUp_of_summary? (h : summary? user us = .ok (some s)) :
    s.user = user ∧ SumsUp s (us.filter (·.user = user)) := by
  obtain ⟨total, last, htotal, hlast, rfl⟩ := summary?_eq_some.1 h
  have hperm := ofUser_perm user us
  refine ⟨rfl, hperm.length_eq, ?_, ?_, ?_, ?_⟩
  · have hsum : total = (((ofUser user us).map (·.entriesHandled)).map Counter.value).sum :=
      Counter.eq_of_sum_eq htotal
    rw [List.map_map] at hsum
    exact hsum.trans (hperm.map _).sum_eq
  · have hsum : (ofUser user us).foldl (fun n u => n + u.queries) 0 =
        ((ofUser user us).map (·.queries)).sum := by
      rw [List.sum_eq_foldl, List.foldl_map]
    exact hsum.trans (hperm.map _).sum_eq
  · exact IsLatest.perm (hlast ▸ isLatest_latest _) (hperm.map _)
  · exact (isLatest_latest _).perm (hperm.filterMap _)

/-- The summaries are of the users of the ledger, each once, the latest used first, and each tells
what the rows of its user come to. -/
structure Rollup (us : List UsageRow) (ss : List UsageSummary) : Prop where
  known : ∀ user, user ∈ ss.map (·.user) ↔ ∃ u ∈ us, u.user = user
  once : (ss.map (·.user)).Nodup
  ordered : ss.Pairwise fun a b =>
    b.lastUsed < a.lastUsed ∨ a.lastUsed = b.lastUsed ∧ a.user < b.user
  sums : ∀ s ∈ ss, SumsUp s (us.filter (·.user = s.user))

theorem summary?_of_mem (h : summaries us = .ok ss) (hs : s ∈ ss) :
    summary? s.user us = .ok (some s) := by
  obtain ⟨found, hfound, rfl⟩ := summaries_eq_ok h
  obtain ⟨user, -, hone⟩ := exists_left_of_forall₂ hfound (List.mem_mergeSort.1 hs)
  rwa [(sumsUp_of_summary? hone).1]

theorem rollup_of_summaries (h : summaries us = .ok ss) : Rollup us ss := by
  have hsums : ∀ s ∈ ss, SumsUp s (us.filter (·.user = s.user)) := fun s hs =>
    (sumsUp_of_summary? (summary?_of_mem h hs)).2
  obtain ⟨found, hfound, rfl⟩ := summaries_eq_ok h
  have hperm := List.mergeSort_perm found notAfter
  have hnames : found.map (·.user) = users us := by
    have hsame : List.Forall₂ Eq (users us) (found.map (·.user)) :=
      List.forall₂_map_right_iff.2 (hfound.imp fun _ _ h => (sumsUp_of_summary? h).1.symm)
    rw [List.forall₂_eq_eq_eq] at hsame
    exact hsame.symm
  have hnodup : ((found.mergeSort notAfter).map (·.user)).Nodup := by
    rw [(hperm.map _).nodup_iff, hnames]
    exact nodup_eraseDups _
  have hsorted := List.pairwise_mergeSort notAfter_trans notAfter_total found
  refine ⟨fun user => ?_, hnodup, ?_, hsums⟩
  · rw [(hperm.map _).mem_iff, hnames, mem_users]
  · exact (hsorted.and (List.pairwise_map.1 hnodup)).imp fun ⟨hab, hne⟩ =>
      before_of_notAfter hab hne

/-- The rows of the users are parts of the ledger, and all of it together. -/
theorem sum_groups {β : Type} [AddCommMonoid β] {names : List String} (hnames : names.Nodup)
    (hall : ∀ u ∈ us, u.user ∈ names) (f : UsageRow → β) :
    (names.map fun name => ((us.filter (·.user = name)).map f).sum).sum = (us.map f).sum := by
  induction us with
  | nil => simp
  | cons u us ih =>
    have hsplit (name : String) : (((u :: us).filter (·.user = name)).map f).sum =
        (if u.user = name then f u else 0) + ((us.filter (·.user = name)).map f).sum := by
      by_cases h : u.user = name <;> simp [h]
    have hone : (names.map fun name => if u.user = name then f u else 0).sum = f u := by
      rw [← List.sum_toFinset _ hnames]
      simp [hall u List.mem_cons_self]
    have hrest := ih fun v hv => hall v (List.mem_cons_of_mem u hv)
    simp only [hsplit, List.sum_map_add, hone, hrest, List.map_cons, List.sum_cons]

theorem Rollup.sum {β : Type} [AddCommMonoid β] (h : Rollup us ss) (f : UsageRow → β) :
    (ss.map fun s => ((us.filter (·.user = s.user)).map f).sum).sum = (us.map f).sum := by
  have hgroups := sum_groups h.once (fun u hu => (h.known u.user).2 ⟨u, hu, rfl⟩) f
  rwa [List.map_map] at hgroups

theorem Rollup.sum_devices (h : Rollup us ss) : (ss.map (·.devices)).sum = us.length := by
  have hcounts : ss.map (·.devices) =
      ss.map fun s => ((us.filter (·.user = s.user)).map fun _ => 1).sum :=
    List.map_congr_left fun s hs => by simp [(h.sums s hs).devices]
  rw [hcounts, h.sum]
  simp

theorem Rollup.sum_entriesHandled (h : Rollup us ss) :
    (ss.map (·.entriesHandled)).sum = (us.map (·.entriesHandled.value)).sum := by
  rw [List.map_congr_left fun s hs => (h.sums s hs).entriesHandled, h.sum]

end Rollup

end Usage

theorem Timestamp.totalNanos_minusDays {t earlier : Timestamp} {days : Nat}
    (h : t.minusDays days = some earlier) :
    earlier.totalNanos = t.totalNanos - days * 86400000000000 := by
  unfold minusDays at h
  split at h
  · rename_i hzero
    obtain rfl := Option.some.inj h
    simp [hzero]
  · split at h <;>
    · rename_i hleap
      simp only [isLeapSecond, decide_eq_true_eq] at hleap
      unfold make? at h
      split at h
      · obtain rfl := Option.some.inj h
        simp only [totalNanos]
        omega
      · cases h

theorem Timestamp.storable_minusDays {t : Timestamp} {days : Nat} (hclock : 0 ≤ t.seconds)
    (hstored : t.toInstant?.isSome = true) (hdays : days ≤ 7) :
    ∃ earlier date, t.minusDays days = some earlier ∧ earlier.toInstant? = some date := by
  obtain ⟨stored, hstored⟩ := Option.isSome_iff_exists.1 hstored
  have hnanos : t.totalNanos = stored.nanos := toInstant?_eq_some.1 hstored
  cases hearlier : t.minusDays days with
  | none =>
    have hcrash : (Relay.daysBefore t days : Step Unit Timestamp) () = (.crash, ()) := by
      simp [Relay.daysBefore, hearlier, crash]
    exact absurd (congrArg Prod.fst hcrash) (Relay.daysBefore_calm hclock hdays ())
  | some earlier =>
    have hshift := totalNanos_minusDays hearlier
    have hlow := stored.low
    have hhigh := stored.high
    have hpos : 0 ≤ t.totalNanos := by
      unfold totalNanos
      omega
    refine ⟨earlier, ⟨earlier.totalNanos, ?_, ?_⟩, rfl, toInstant?_eq_some.2 rfl⟩
    · omega
    · omega

namespace Relay
variable {w : Setting} {r r' : Relay}

theorem usageStatistics_answer {ss : List UsageSummary} :
    usageStatistics w r = (.answer ss, r') ↔ r.poisoned = false ∧
      w.refusals (.select .usage) = none ∧ Usage.summaries r.store.usage = .ok ss ∧ r' = r := by
  have hsummaries : Store.usageSummaries w.refusals r.store = (.answer ss, r'.store) ↔
      w.refusals (.select .usage) = none ∧ Usage.summaries r.store.usage = .ok ss ∧
        r'.store = r.store := Store.look_or_fail_eq_answer
  rw [usageStatistics, locked_eq_answer, hsummaries]
  constructor
  · rintro ⟨hp, hp', hgranted, hss, hsame⟩
    obtain ⟨s, _⟩ := r
    obtain ⟨t, _⟩ := r'
    obtain rfl : t = s := hsame
    exact ⟨hp, hgranted, hss, congrArg (Relay.mk t) (hp'.trans hp.symm)⟩
  · rintro ⟨hp, hgranted, hss, rfl⟩
    exact ⟨hp, hp, hgranted, hss, rfl⟩

theorem statistics_processed {v : Statistics} (h : statistics w r = (.answer v, r')) :
    Usage.handled r.store.usage = .whole v.entriesProcessed := by
  obtain ⟨-, -, h⟩ := locked_eq_answer.1 h
  obtain ⟨now, _, hnow, h⟩ := bind_eq_answer.1 h
  obtain ⟨-, rfl, rfl⟩ := readClock_eq_answer.1 hnow
  obtain ⟨weekAgo, _, hweek, h⟩ := bind_eq_answer.1 h
  obtain ⟨-, rfl⟩ := daysBefore_eq_answer.1 hweek
  obtain ⟨users, _, husers, h⟩ := bind_eq_answer.1 h
  obtain ⟨-, -, rfl⟩ := Store.look_eq_answer.1 husers
  obtain ⟨devices, _, hdevices, h⟩ := bind_eq_answer.1 h
  obtain ⟨-, -, rfl⟩ := Store.look_eq_answer.1 hdevices
  obtain ⟨processed, _, hprocessed, h⟩ := bind_eq_answer.1 h
  obtain ⟨-, hread, rfl⟩ := Store.look_or_fail_eq_answer.1 hprocessed
  obtain ⟨_, _, -, h⟩ := bind_eq_answer.1 h
  obtain ⟨_, _, -, h⟩ := bind_eq_answer.1 h
  obtain ⟨_, _, -, h⟩ := bind_eq_answer.1 h
  obtain ⟨_, _, -, h⟩ := bind_eq_answer.1 h
  obtain ⟨_, _, -, h⟩ := bind_eq_answer.1 h
  obtain ⟨_, _, -, h⟩ := bind_eq_answer.1 h
  obtain ⟨rfl, -⟩ := pure_eq_answer.1 h
  exact Usage.read_eq_ok.1 hread

theorem statistics_answers {total : Int} (hfree : ∀ st, w.refusals st = none)
    (hp : r.poisoned = false) (hclock : 0 ≤ w.clock.seconds)
    (hstored : w.clock.toInstant?.isSome = true)
    (htotal : Usage.handled r.store.usage = .whole total) :
    ∃ v, statistics w r = (.answer v, r) := by
  obtain ⟨weekAgo, week, hweekAgo, hweek⟩ :=
    Timestamp.storable_minusDays hclock hstored (show 7 ≤ 7 by decide)
  obtain ⟨dayAgo, day, hdayAgo, hday⟩ :=
    Timestamp.storable_minusDays hclock hstored (show 1 ≤ 7 by decide)
  have hnow : (readClock w : Step Store Timestamp) r.store = (.answer w.clock, r.store) :=
    readClock_eq_answer.2 ⟨hclock, rfl, rfl⟩
  have hweekBefore : (daysBefore w.clock 7 : Step Store Timestamp) r.store =
      (.answer weekAgo, r.store) := daysBefore_eq_answer.2 ⟨hweekAgo, rfl⟩
  have hdayBefore : (daysBefore w.clock 1 : Step Store Timestamp) r.store =
      (.answer dayAgo, r.store) := daysBefore_eq_answer.2 ⟨hdayAgo, rfl⟩
  have hlook {α : Type} {table : Table} {f : Store → α} :
      (do Store.permit w.refusals (.select table); return f (← Step.get) : Step Store α) r.store =
        (.answer (f r.store), r.store) := Store.look_eq_answer.2 ⟨hfree _, rfl, rfl⟩
  have hprocessed : Store.totalEntriesHandled w.refusals r.store = (.answer total, r.store) :=
    Store.look_or_fail_eq_answer.2 ⟨hfree _, Usage.read_eq_ok.2 htotal, rfl⟩
  have hinstalls : Store.countActiveSince w.refusals weekAgo r.store = (.answer _, r.store) :=
    bind_eq_answer.2 ⟨week, _, Store.storedTime_eq_answer.2 ⟨hweek, rfl⟩, hlook⟩
  have hqueriers : Store.countQueriedSince w.refusals weekAgo r.store = (.answer _, r.store) :=
    bind_eq_answer.2 ⟨week, _, Store.storedTime_eq_answer.2 ⟨hweek, rfl⟩, hlook⟩
  have huninstalls : Store.countFeedbackSince w.refusals dayAgo r.store = (.answer _, r.store) :=
    bind_eq_answer.2 ⟨day, _, Store.storedTime_eq_answer.2 ⟨hday, rfl⟩, hlook⟩
  have husers : Store.countUsers w.refusals r.store = (.answer _, r.store) := hlook
  have hdevices : Store.countDevices w.refusals r.store = (.answer _, r.store) := hlook
  have hentries : Store.countEntries w.refusals r.store = (.answer _, r.store) := hlook
  have hlast : Store.lastRegistration w.refusals r.store = (.answer _, r.store) := hlook
  exact ⟨_, locked_eq_answer.2 ⟨hp, hp, (bind_answer hnow).trans <|
    (bind_answer hweekBefore).trans <| (bind_answer husers).trans <|
    (bind_answer hdevices).trans <| (bind_answer hprocessed).trans <|
    (bind_answer hentries).trans <| (bind_answer hinstalls).trans <|
    (bind_answer hqueriers).trans <| (bind_answer hdayBefore).trans <|
    (bind_answer huninstalls).trans <| bind_answer hlast⟩⟩

/-- Where the counters of the ledger and their sums fit, the rollup is answered and is lossless: its
summaries part the rows of the ledger among the users, and together they have handled what the
statistics say, which are answered too at any time that can be stored. -/
theorem usage_is_rolled_up (hp : r.poisoned = false)
    (hgranted : w.refusals (.select .usage) = none) (hfits : Usage.Fits r.store.usage) :
    ∃ ss, usageStatistics w r = (.answer ss, r) ∧ Usage.Rollup r.store.usage ss ∧
      (ss.map (·.devices)).sum = r.store.usage.length ∧
      (∀ v r', statistics w r = (.answer v, r') →
        (ss.map (·.entriesHandled)).sum = v.entriesProcessed) ∧
      ((∀ st, w.refusals st = none) → 0 ≤ w.clock.seconds → w.clock.toInstant?.isSome = true →
        ∃ v, statistics w r = (.answer v, r)) := by
  obtain ⟨ss, hss⟩ := hfits.summaries
  have hrollup := Usage.rollup_of_summaries hss
  have htotal : Usage.handled r.store.usage =
      .whole (r.store.usage.map (·.entriesHandled.value)).sum := by
    rw [Usage.handled, hfits.total.sum_eq, List.map_map]
    rfl
  refine ⟨ss, usageStatistics_answer.2 ⟨hp, hgranted, hss, rfl⟩, hrollup, hrollup.sum_devices,
    fun v r' hv => ?_,
    fun hfree hclock hstored => statistics_answers hfree hp hclock hstored htotal⟩
  rw [hrollup.sum_entriesHandled]
  have hprocessed := htotal.symm.trans (statistics_processed hv)
  injection hprocessed

/-- Ada uses two devices and Bob one, who never queried. -/
theorem usage_is_rolled_up_of_two :
    let old : Instant := ⟨0, by decide, by decide⟩
    let new : Instant := ⟨1, by decide, by decide⟩
    let ledger : List UsageRow := [⟨"ada", "desk", old, "::1", .whole 5, some old, 1, "v0.300"⟩,
      ⟨"bob", "desk", old, "::2", .whole 3, none, 0, ""⟩,
      ⟨"ada", "lap", new, "::1", .whole 2, none, 0, "v0.301"⟩]
    let r : Relay := ⟨{ usage := ledger }, false⟩
    ∃ ss v, usageStatistics default r = (.answer ss, r) ∧
      ss = [⟨"ada", 2, 7, 1, new, some old, ["::1"], ["v0.300", "v0.301"]⟩,
        ⟨"bob", 1, 3, 0, old, none, ["::2"], []⟩] ∧
      statistics default r = (.answer v, r) ∧ v.entriesProcessed = 10 := by
  intro old new ledger r
  have hfits : Usage.Fits r.store.usage := by
    refine Usage.fits_of_nonneg (List.forall_mem_cons.2 ⟨⟨5, rfl⟩, List.forall_mem_cons.2
      ⟨⟨3, rfl⟩, List.forall_mem_cons.2 ⟨⟨2, rfl⟩, by simp⟩⟩⟩) (by decide)
  have hrollup := usage_is_rolled_up (w := default) (r := r) rfl rfl hfits
  obtain ⟨ss, hss, -, -, hsum, hanswers⟩ := hrollup
  obtain ⟨v, hv⟩ := hanswers (fun _ => rfl) (by decide) (by decide)
  have hlist : (usageStatistics default r).1 = .answer
      [⟨"ada", 2, 7, 1, new, some old, ["::1"], ["v0.300", "v0.301"]⟩,
        ⟨"bob", 1, 3, 0, old, none, ["::2"], []⟩] := by cbv
  rw [hss] at hlist
  obtain rfl := Outcome.answer.inj hlist
  exact ⟨_, v, hss, rfl, hv, (hsum v r hv).symm⟩

end Relay

end HistoryRelay
