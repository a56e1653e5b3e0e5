import HistoryRelay.Proofs.Bookkeeping
import HistoryRelay.Proofs.Poisoning

/-! Dumps that come in chunks. Main statement: however a dump is cut, the store takes its chunks for
the same rows as the whole, in the order of the dump, and the requests of its device go with the
last one. -/
namespace HistoryRelay
open Step

theorem Entries.length_of_mem_runs {α : Type} {size most : Nat} {rows run : List α}
    (hmost : 0 < most) (h : size ≤ most ∨ rows.length ≤ most) (hrun : run ∈ runs size rows) :
    run.length ≤ most := by
  fun_induction runs size rows with
  | case1 => cases hrun
  | case2 row rest ih =>
    rw [List.length_cons] at h
    obtain rfl | hrun := List.mem_cons.1 hrun
    · rw [List.length_cons, List.length_take]
      omega
    · refine ih ?_ hrun
      rw [List.length_drop]
      omega

namespace Store
variable {refusals : Refusals}

theorem storedTimes_willing {σ : Type} {times : List Timestamp}
    (h : ∀ t ∈ times, t.toInstant?.isSome) :
    Willing (storedTimes times : Step σ (List Instant)) := by
  induction times with
  | nil => exact .pure []
  | cons t rest ih =>
    obtain ⟨i, hi⟩ := Option.isSome_iff_exists.1 (h t List.mem_cons_self)
    exact .bind (storedTime_willing hi) fun _ =>
      .bind (ih fun u hu => h u (List.mem_cons_of_mem t hu)) fun _ => .pure _

variable (hfree : ∀ st, refusals st = none)
include hfree

theorem insertRuns_willing {runs : List (List EntryRow)}
    (h : ∀ run ∈ runs, run.length ≤ Entries.mostRows) : Willing (insertRuns refusals runs) := by
  induction runs with
  | nil => exact .pure 0
  | cons run rest ih =>
    have hlimit : Willing (limitRows run.length) := by
      unfold limitRows
      rw [if_pos (h run List.mem_cons_self)]
      exact .pure ()
    exact .bind hlimit fun _ => .bind (permit_willing hfree _) fun _ =>
      .bind (fun _ => rfl) fun _ =>
        .bind (ih fun more hmore => h more (List.mem_cons_of_mem run hmore)) fun _ => .pure _

theorem insertAsIs_willing {entries : List Entry} {chunk : Nat}
    (htimes : ∀ e ∈ entries, e.time.toInstant?.isSome)
    (hfits : chunk ≤ Entries.mostRows ∨ entries.length ≤ Entries.mostRows) :
    Willing (insertAsIs refusals entries chunk) := by
  refine .bind (storedTimes_willing ?_) fun dates => insertRuns_willing hfree fun run hrun => ?_
  · simpa using htimes
  · refine Entries.length_of_mem_runs (by decide) (hfits.imp_right fun hle => ?_) hrun
    rw [List.length_map, List.length_zip]
    exact (Nat.min_le_left ..).trans hle

end Store

theorem Relay.storeDump_willing {w : Setting} (hfree : ∀ st, w.refusals st = none)
    (user requester : String) (isChunk : Bool) {dump : List Entry}
    (htimes : ∀ e ∈ dump, e.time.toInstant?.isSome)
    (hfits : w.config.insertChunk ≤ Entries.mostRows ∨ dump.length ≤ Entries.mostRows) :
    Willing (storeDump w user requester isChunk dump) := by
  refine .bind (Store.insertAsIs_willing hfree ?_ ?_) fun _ => ?_
  · simpa using htimes
  · rwa [List.length_map]
  · cases isChunk with
    | true => exact .pure _
    | false => exact .bind (Store.change_at_willing hfree (.dropDumps _) _ _) fun _ => .pure _

/-- A dump or a part of one, and what is found by the call that uploads it. -/
structure Upload where
  setting : Setting
  client : Client
  dump : List Entry

namespace Upload

/-- Nothing is refused: no statement, no time, and no number of rows. -/
structure Clear (u : Upload) : Prop where
  free : ∀ st, u.setting.refusals st = none
  readable : 0 ≤ u.setting.clock.seconds
  storable : u.setting.clock.toInstant?.isSome
  fits : u.setting.config.insertChunk ≤ Entries.mostRows ∨ u.dump.length ≤ Entries.mostRows

theorem Clear.noting {u : Upload} (h : u.Clear) : u.setting.Noting :=
  ⟨h.readable, h.storable, h.free _⟩

/-- The entries are all of one user, and their times can be stored. -/
def Storable (user : String) (u : Upload) : Prop :=
  ∀ e ∈ u.dump, e.user = user ∧ e.time.toInstant?.isSome

instance (user : String) (u : Upload) : Decidable (u.Storable user) :=
  inferInstanceAs (Decidable (∀ e ∈ u.dump, _))

def told (u : Upload) : Outcome Answer := .answer (.count u.dump.length)

/-- The turn of the upload, as a chunk that more will follow or as the last one. -/
def turn (user source requester : String) (isChunk : Bool) (u : Upload) : Turn :=
  ⟨u.setting, .submitDump user source requester isChunk u.dump u.client⟩

end Upload

namespace Relay

/-- A dump that comes in chunks, and then with the last one. -/
def uploads (user source requester : String) (chunks : List Upload) (last : Upload) : List Turn :=
  chunks.map (·.turn user source requester true) ++ [last.turn user source requester false]

def rowsTold (outs : List (Outcome Answer)) : Nat :=
  (outs.map fun
    | .answer (.count n) => n
    | _ => 0).sum

theorem rowsTold_told (us : List Upload) :
    rowsTold (us.map Upload.told) = (us.flatMap (·.dump)).length := by
  rw [rowsTold, List.map_map, List.length_flatMap]
  rfl

theorem rowsTold_of_poisoned {r : Relay} (h : r.poisoned = true) {turns : List Turn}
    (hturns : ∀ t ∈ turns, t.call.Reaches t.setting) : rowsTold (r.outcomes turns) = 0 := by
  induction turns with
  | nil => rfl
  | cons t rest ih =>
    have ht : t.take r = (.failure .poisonedLock, r) :=
      (perform_gated t.setting t.call).fails (hturns t List.mem_cons_self) r h
    rw [outcomes, ht]
    exact (Nat.zero_add _).trans (ih fun u hu => hturns u (List.mem_cons_of_mem t hu))

section Uploads
variable {user source requester : String} {r : Relay}
  (huser : user ≠ "") (hsource : source ≠ "") (hrequester : requester ≠ "")
include huser hsource hrequester

theorem take_upload (isChunk : Bool) {u : Upload} (hclear : u.Clear) (hdump : u.Storable user)
    (hfree : r.poisoned = false) :
    let t := u.turn user source requester isChunk
    let received := (Change.addEntries (Entries.received requester u.dump)).apply r.store
    (t.take r).1 = u.told ∧ (t.take r).2.poisoned = false ∧
      (t.take r).2.store.besidesUsage = (if isChunk then received
        else (Change.dropDumps (·.isBy user requester)).apply received).besidesUsage := by
  intro t received
  obtain ⟨n, s, hwork⟩ := (storeDump_willing hclear.free user requester isChunk
    (fun e he => (hdump e he).2) hclear.fits).answer r.store
  obtain ⟨rfl, rfl⟩ := storeDump_answer hwork
  have hnone : u.dump.find? (·.user ≠ user) = none := by
    simpa using fun e he => (hdump e he).1
  obtain ⟨hout, hstore⟩ : (t.take r).1 = u.told ∧ _ := Turn.take_of_body rfl hclear.noting hfree
    (requireId_bind_eq_answer.2 ⟨huser, requireId_bind_eq_answer.2 ⟨hsource,
      requireId_bind_eq_answer.2 ⟨hrequester, refuse_eq_answer.2 ⟨hnone, rfl⟩⟩⟩⟩)
    (map_eq_answer.2 ⟨_, hwork, rfl⟩)
  exact ⟨hout, (t.poisoned_take r hclear.readable).trans hfree, hstore⟩

/-- Chunks bring what they would bring together, whatever has come before them. -/
theorem run_chunks {chunks : List Upload} (hclear : ∀ u ∈ chunks, u.Clear)
    (hdump : ∀ u ∈ chunks, u.Storable user) (hfree : r.poisoned = false) :
    let turns := chunks.map (·.turn user source requester true)
    r.outcomes turns = chunks.map Upload.told ∧ (r.run turns).poisoned = false ∧
      (r.run turns).store.besidesUsage = ((Change.addEntries (Entries.received requester
        (chunks.flatMap (·.dump)))).apply r.store).besidesUsage := by
  intro turns
  -- The relay is general: the rows of the later chunks are numbered from what the first one leaves.
  induction chunks generalizing r with
  | nil =>
    exact ⟨rfl, hfree, by simp [turns, run, Entries.received, Change.apply, Entries.numbered]⟩
  | cons u rest ih =>
    obtain ⟨hout, hfirst, hstore⟩ := take_upload huser hsource hrequester true
      (hclear u List.mem_cons_self) (hdump u List.mem_cons_self) hfree
    obtain ⟨houts, hlast, hrest⟩ := ih (fun v hv => hclear v (List.mem_cons_of_mem u hv))
      (fun v hv => hdump v (List.mem_cons_of_mem u hv)) hfirst
    refine ⟨congrArg₂ List.cons hout houts, hlast, hrest.trans ?_⟩
    rw [List.flatMap_cons, Entries.received_append, Change.addEntries_append]
    exact Change.besidesUsage_congr _ hstore

/-- A dump in parts brings what they bring together, and then the requests go. -/
theorem run_uploads {chunks : List Upload} {last : Upload} (hclear : ∀ u ∈ last :: chunks, u.Clear)
    (hdump : ∀ u ∈ last :: chunks, u.Storable user) (hfree : r.poisoned = false) :
    r.outcomes (uploads user source requester chunks last) = (chunks ++ [last]).map Upload.told ∧
      (r.run (uploads user source requester chunks last)).store.besidesUsage =
        ((Change.dropDumps (·.isBy user requester)).apply ((Change.addEntries
          (Entries.received requester (chunks.flatMap (·.dump) ++ last.dump))).apply
            r.store)).besidesUsage := by
  rw [List.forall_mem_cons] at hclear hdump
  obtain ⟨houts, hthen, hstore⟩ := run_chunks huser hsource hrequester hclear.2 hdump.2 hfree
  obtain ⟨hout, -, hlast⟩ := take_upload huser hsource hrequester false hclear.1 hdump.1 hthen
  constructor
  · rw [uploads, outcomes_append, houts, List.map_append]
    exact congrArg (_ ++ [·]) hout
  · rw [uploads, run_append, Entries.received_append, Change.addEntries_append]
    exact hlast.trans
      (Change.besidesUsage_congr (.dropDumps _) (Change.besidesUsage_congr (.addEntries _) hstore))

theorem run_uploads_of_poisoned {chunks : List Upload} {last : Upload}
    (hdump : ∀ u ∈ last :: chunks, u.Storable user) (hlock : r.poisoned = true) :
    rowsTold (r.outcomes (uploads user source requester chunks last)) = 0 ∧
      r.run (uploads user source requester chunks last) = r := by
  refine ⟨rowsTold_of_poisoned hlock fun t ht => ?_, poisoned_stays hlock _⟩
  have hreaches (isChunk : Bool) {u : Upload} (hu : u.Storable user) :
      (u.turn user source requester isChunk).call.Reaches u.setting :=
    ⟨huser, hsource, hrequester, fun e he => (hu e he).1⟩
  rw [List.forall_mem_cons] at hdump
  obtain ht | ht := List.mem_append.1 ht
  · obtain ⟨u, hu, rfl⟩ := List.mem_map.1 ht
    exact hreaches true (hdump.2 u hu)
  · exact List.mem_singleton.1 ht ▸ hreaches false hdump.1

/-- The chunks of a dump, uploaded one after the other, come to what the whole dump does: the same
entries and requests, and as many rows told of. What has no way to the store, as its lock is
poisoned, has none either way. Otherwise every upload is answered by the length of its own part,
each entry is stored for the device that asked, in the order of the dump and as it says itself
except for what concerns its own way, and the requests of that device are gone. -/
theorem chunks_come_to_whole {chunks : List Upload} {last whole : Upload}
    (hclear : ∀ u ∈ whole :: last :: chunks, u.Clear) (hdump : whole.Storable user)
    (hcut : whole.dump = chunks.flatMap (·.dump) ++ last.dump) (r : Relay) :
    let inParts := uploads user source requester chunks last
    let atOnce := whole.turn user source requester false
    (r.run inParts).store.entries = (atOnce.take r).2.store.entries ∧
    (r.run inParts).store.dumpRequests = (atOnce.take r).2.store.dumpRequests ∧
    rowsTold (r.outcomes inParts) = rowsTold [(atOnce.take r).1] ∧
    (r.poisoned = false →
      r.outcomes inParts = (chunks ++ [last]).map Upload.told ∧
      (atOnce.take r).1 = .answer (.count whole.dump.length) ∧
      (atOnce.take r).2.store.dumpRequests =
        r.store.dumpRequests.filter (fun x => ¬(x.user = user ∧ x.requester = requester)) ∧
      ∃ dates : List Instant, whole.dump.map (·.time.toInstant?) = dates.map some ∧
        (atOnce.take r).2.store.entries = r.store.entries ++ Entries.numbered r.store.lastEntry
          ((whole.dump.zip dates).map fun (e, date) => {
            id := 0
            user := e.user
            device := requester
            encryptedId := e.encryptedId
            data := e.data
            nonce := e.nonce
            date := date
            readCount := 0
            fromSameDevice := false })) := by
  intro inParts atOnce
  have hparts : ∀ u ∈ last :: chunks, u.Storable user := by
    intro u hu e he
    refine hdump e ?_
    rw [hcut]
    obtain rfl | hu := List.mem_cons.1 hu
    · exact List.mem_append_right _ he
    · exact List.mem_append_left _ (List.mem_flatMap.2 ⟨u, hu, he⟩)
  have hone : ∀ u ∈ [whole], u.Storable user := List.forall_mem_singleton.2 hdump
  rw [List.forall_mem_cons] at hclear
  cases hlock : r.poisoned with
  | true =>
    obtain ⟨hnone, hstay⟩ := run_uploads_of_poisoned huser hsource hrequester hparts hlock
    obtain ⟨hnone', hstay'⟩ := run_uploads_of_poisoned huser hsource hrequester hone hlock
    have hsame : (atOnce.take r).2 = r := hstay'
    rw [hstay, hsame]
    exact ⟨rfl, rfl, hnone.trans hnone'.symm, fun h => nomatch h⟩
  | false =>
    obtain ⟨houts, hstore⟩ := run_uploads huser hsource hrequester hclear.2 hparts hlock
    -- The whole dump is one in parts too: with no chunk before the last.
    obtain ⟨hout, hwhole⟩ := run_uploads huser hsource hrequester
      (List.forall_mem_singleton.2 hclear.1) hone hlock
    have hboth := hstore.trans (hcut ▸ hwhole.symm)
    have hanswer : (atOnce.take r).1 = whole.told := (List.cons.inj hout).1
    have hstored : (atOnce.take r).2.store.besidesUsage = ((Change.dropDumps
        (·.isBy user requester)).apply ((Change.addEntries
          (Entries.received requester whole.dump)).apply r.store)).besidesUsage := hwhole
    refine ⟨congrArg (·.entries) hboth, congrArg (·.dumpRequests) hboth, ?_, fun _ =>
      ⟨houts, hanswer, ?_, ?_⟩⟩
    · rw [houts, rowsTold_told, List.flatMap_append, List.flatMap_singleton, ← hcut, hanswer]
      exact (Nat.add_zero _).symm
    · refine (congrArg (·.dumpRequests) hstored).trans (List.filter_congr fun x _ => ?_)
      simp [DumpRow.isBy]
    · have hwilling : Willing (Store.storedTimes (whole.dump.map (·.time)) : Step Store _) :=
        Store.storedTimes_willing (by simpa using fun e he => (hdump e he).2)
      obtain ⟨dates, _, htimes⟩ := hwilling.answer r.store
      have hdates : whole.dump.map (·.time.toInstant?) = dates.map some := by
        simpa [Function.comp_def] using (Store.storedTimes_eq_answer.1 htimes).1
      refine ⟨dates, hdates, (congrArg (·.entries) hstored).trans ?_⟩
      rw [Entries.received_eq_zip hdates]
      rfl

end Uploads

/-- Two entries in three chunks, the second one empty. They carried the device and the counts of
the one that sends them. -/
theorem chunks_come_to_whole_of_three :
    let entry (id device : String) : Entry := ⟨[1], [2], device, "ada", default, id, 7, true⟩
    let upload (chunk : Word.Full) (dump : List Entry) : Upload :=
      ⟨{ (default : Setting) with config := { insertChunk := chunk } }, .unknown, dump⟩
    let chunks := [upload 0 [entry "e1" "desk"], upload 1 []]
    let last := upload 2 [entry "e2" "desk"]
    let whole := upload 2 [entry "e1" "desk", entry "e2" "desk"]
    let inParts := uploads "ada" "desk" "lap" chunks last
    let atOnce := whole.turn "ada" "desk" "lap" false
    let registered := run {} [⟨default, .register ⟨"ada", "desk", false⟩ .unknown⟩,
      ⟨default, .register ⟨"ada", "lap", false⟩ .unknown⟩]
    registered.store.dumpRequests.length = 1 ∧
      (registered.run inParts).store.dumpRequests = [] ∧
      (registered.run inParts).store.entries = (atOnce.take registered).2.store.entries ∧
      (atOnce.take registered).2.store.entries.map (fun x => (x.encryptedId, x.device)) =
        [("e1", "lap"), ("e2", "lap")] ∧
      rowsTold (registered.outcomes inParts) = 2 := by
  intro entry upload chunks last whole inParts atOnce registered
  have hstorable : (default : Timestamp).toInstant?.isSome := by decide
  have hclear (chunk : Word.Full) (dump : List Entry) (h : chunk ≤ Entries.mostRows) :
      (upload chunk dump).Clear := ⟨fun _ => rfl, Int.le_refl 0, hstorable, .inl h⟩
  have hall : ∀ u ∈ whole :: last :: chunks, u.Clear := by
    simp only [whole, last, chunks, List.forall_mem_cons]
    exact ⟨hclear _ _ (by decide), hclear _ _ (by decide), hclear _ _ (by decide),
      hclear _ _ (by decide), by simp⟩
  have hdump : whole.Storable "ada" := by decide
  have hids : "ada" ≠ "" ∧ "desk" ≠ "" ∧ "lap" ≠ "" := by decide
  obtain ⟨hentries, hrequests, htold, -⟩ :=
    chunks_come_to_whole hids.1 hids.2.1 hids.2.2 hall hdump rfl registered
  exact ⟨by cbv, hrequests.trans (by cbv), hentries, by cbv, htold.trans (by cbv)⟩

end Relay

end HistoryRelay
