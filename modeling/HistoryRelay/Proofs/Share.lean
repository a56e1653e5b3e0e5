import HistoryRelay.Proofs.Numbering

/-! One user's share of the store: the rows of the user in every table, in order. Main statements:
a change makes of a share what the share alone determines, and a call for another user leaves the
share as it was. -/
namespace HistoryRelay

/-- Rows that are some user's. A number, where they have one, is theirs but says nothing. -/
class Owned (α : Type) where
  user : α → String
  unnumbered : α → α

instance : Owned DeviceRow := ⟨DeviceRow.user, id⟩

instance : Owned EntryRow := ⟨EntryRow.user, ({ · with id := 0 })⟩

instance : Owned DumpRow := ⟨DumpRow.user, ({ · with id := 0 })⟩

instance : Owned DeletionRow := ⟨DeletionRow.user, ({ · with id := 0 })⟩

instance : Owned UsageRow := ⟨UsageRow.user, id⟩

instance : Owned FeedbackRow := ⟨FeedbackRow.user, id⟩

section Own
variable {α : Type} [Owned α] (user : String)

def own (rows : List α) : List α := rows.filter fun a => Owned.user a = user

/-- The rows of the user without their numbers, which run through the rows of all users. -/
def shareOf (rows : List α) : List α := (own user rows).map Owned.unnumbered

theorem own_map {f : α → α} (hf : ∀ a, Owned.user (f a) = Owned.user a) (rows : List α) :
    own user (rows.map f) = (own user rows).map f := by
  have hpick : (fun a => decide (Owned.user a = user)) ∘ f =
      fun a => decide (Owned.user a = user) :=
    funext fun a => congrArg (fun u => decide (u = user)) (hf a)
  rw [own, List.filter_map, hpick, own]

theorem own_filter (q : α → Bool) (rows : List α) :
    own user (rows.filter q) = (own user rows).filter q := by
  simp only [own, List.filter_filter, Bool.and_comm]

theorem shareOf_map {f : α → α} (hf : ∀ a, Owned.user (f a) = Owned.user a)
    (hbare : ∀ a, Owned.unnumbered (f a) = f (Owned.unnumbered a)) (rows : List α) :
    shareOf user (rows.map f) = (shareOf user rows).map f := by
  have hswap : Owned.unnumbered ∘ f = f ∘ Owned.unnumbered := funext hbare
  rw [shareOf, own_map user hf, List.map_map, hswap, ← List.map_map, shareOf]

theorem shareOf_filter {q : α → Bool} (hq : ∀ a, q (Owned.unnumbered a) = q a) (rows : List α) :
    shareOf user (rows.filter q) = (shareOf user rows).filter q := by
  have hblind : q ∘ Owned.unnumbered = q := funext hq
  rw [shareOf, own_filter, shareOf, List.filter_map, hblind]

theorem shareOf_append (rows more : List α) :
    shareOf user (rows ++ more) = shareOf user rows ++ shareOf user more := by
  rw [shareOf, own, List.filter_append, List.map_append, shareOf, shareOf, own, own]

variable {user}

theorem own_map_other {f : α → α} (hf : ∀ a, Owned.user (f a) = Owned.user a)
    (hother : ∀ a, Owned.user a = user → f a = a) (rows : List α) :
    own user (rows.map f) = own user rows := by
  rw [own_map user hf]
  refine (List.map_congr_left fun a ha => ?_).trans (List.map_id _)
  exact hother a (of_decide_eq_true (List.mem_filter.1 ha).2)

theorem own_filter_other {q : α → Bool} (hq : ∀ a, q a = true → Owned.user a ≠ user)
    (rows : List α) : own user (rows.filter fun a => !q a) = own user rows := by
  rw [own_filter]
  refine List.filter_eq_self.2 fun a ha => ?_
  have huser := of_decide_eq_true (List.mem_filter.1 ha).2
  rw [Bool.not_eq_true', ← Bool.not_eq_true]
  exact fun hqa => hq a hqa huser

theorem own_other {rows : List α} (h : ∀ a ∈ rows, Owned.user a ≠ user) : own user rows = [] :=
  List.filter_eq_nil_iff.2 fun a ha hu => h a ha (of_decide_eq_true hu)

section Upsert
variable {is : α → Bool} {f : α → α} {b : α} (hf : ∀ a, Owned.user (f a) = Owned.user a)
  (his : ∀ a, is a = true → Owned.user a = Owned.user b) (rows : List α)
include hf his

theorem own_upsert (hb : Owned.user b = user) :
    own user (if rows.any is then rows.map fun a => if is a then f a else a else rows ++ [b]) =
      if (own user rows).any is then (own user rows).map fun a => if is a then f a else a
      else own user rows ++ [b] := by
  have hkeep : ∀ a, Owned.user (if is a then f a else a) = Owned.user a := fun a => by
    split
    · exact hf a
    · rfl
  have hsame : (own user rows).any is = rows.any is := by
    rw [own, List.any_filter]
    refine List.any_congr rfl fun a => ?_
    cases hia : is a with
    | true => rw [decide_eq_true ((his a hia).trans hb), Bool.and_self]
    | false => rw [Bool.and_false]
  rw [hsame]
  split
  · exact own_map user hkeep rows
  · simp [own, hb]

theorem own_upsert_other (hb : Owned.user b ≠ user) :
    own user (if rows.any is then rows.map fun a => if is a then f a else a else rows ++ [b]) =
      own user rows := by
  have hkeep : ∀ a, Owned.user (if is a then f a else a) = Owned.user a := fun a => by
    split
    · exact hf a
    · rfl
  split
  · refine own_map_other hkeep (fun a hu => if_neg fun hia => ?_) rows
    exact hb ((his a hia).symm.trans hu)
  · simp [own, hb]

end Upsert

end Own

namespace Store

/-- What a user has in every table. -/
def ofUser (user : String) (s : Store) : Store where
  devices := own user s.devices
  entries := own user s.entries
  dumpRequests := own user s.dumpRequests
  deletionRequests := own user s.deletionRequests
  usage := own user s.usage
  feedback := own user s.feedback

/-- The same, the numbers of rows aside. -/
def share (user : String) (s : Store) : Store where
  devices := shareOf user s.devices
  entries := shareOf user s.entries
  dumpRequests := shareOf user s.dumpRequests
  deletionRequests := shareOf user s.deletionRequests
  usage := shareOf user s.usage
  feedback := shareOf user s.feedback

theorem share_congr {user : String} {s t : Store} (h : s.ofUser user = t.ofUser user) :
    s.share user = t.share user := by
  simp only [ofUser, Store.mk.injEq] at h
  simp only [share, shareOf, h]

end Store

section Tables
variable {user : String}

theorem Devices.shareOf_eq (ds : List DeviceRow) : shareOf user ds = own user ds := List.map_id _

theorem Usage.shareOf_eq (us : List UsageRow) : shareOf user us = own user us := List.map_id _

theorem DeviceRow.user_of_is {d : DeviceRow} {u device : String} (h : d.is u device = true) :
    d.user = u :=
  of_decide_eq_true (Bool.and_eq_true_iff.1 h).1

theorem UsageRow.user_of_is {r : UsageRow} {u device : String} (h : r.is u device = true) :
    r.user = u :=
  of_decide_eq_true (Bool.and_eq_true_iff.1 h).1

theorem Devices.own_register {row : DeviceRow} (h : row.user = user) (ds : List DeviceRow) :
    own user (register row ds) = register row (own user ds) :=
  own_upsert (f := fun d : DeviceRow => { d with uninstalled := none }) (fun _ => rfl)
    (fun _ => DeviceRow.user_of_is) ds h

theorem Devices.own_register_other {row : DeviceRow} (h : row.user ≠ user) (ds : List DeviceRow) :
    own user (register row ds) = own user ds :=
  own_upsert_other (f := fun d : DeviceRow => { d with uninstalled := none }) (fun _ => rfl)
    (fun _ => DeviceRow.user_of_is) ds h

theorem Usage.own_record {e : UsageEvent} (h : e.user = user) (time : Instant)
    (us : List UsageRow) : own user (record e time us) = record e time (own user us) :=
  own_upsert (f := fun u : UsageRow => u.add e time) (b := UsageRow.ofEvent e time) (fun _ => rfl)
    (fun _ => UsageRow.user_of_is) us h

theorem Usage.own_record_other {e : UsageEvent} (h : e.user ≠ user) (time : Instant)
    (us : List UsageRow) : own user (record e time us) = own user us :=
  own_upsert_other (f := fun u : UsageRow => u.add e time) (b := UsageRow.ofEvent e time)
    (fun _ => rfl) (fun _ => UsageRow.user_of_is) us h

theorem Entries.shareOf_renumbered (row : EntryRow) (id : Nat) :
    shareOf user [{ row with id := id }] = shareOf user [row] := by
  by_cases hu : row.user = user <;> simp [shareOf, own, Owned.user, Owned.unnumbered, hu]

theorem Entries.shareOf_numbered (last : Nat) (rows : List EntryRow) :
    shareOf user (numbered last rows) = shareOf user rows := by
  induction rows generalizing last with
  | nil => rfl
  | cons r rest ih =>
    have happend (x : EntryRow) (xs : List EntryRow) :
        shareOf user (x :: xs) = shareOf user [x] ++ shareOf user xs :=
      shareOf_append user [x] xs
    rw [numbered, happend, ih, shareOf_renumbered, ← happend]

theorem DumpRequests.shareOf_renumbered (row : DumpRow) (id : Nat) :
    shareOf user [{ row with id := id }] = shareOf user [row] := by
  by_cases hu : row.user = user <;> simp [shareOf, own, Owned.user, Owned.unnumbered, hu]

theorem DeletionRequests.shareOf_renumbered (row : DeletionRow) (id : Nat) :
    shareOf user [{ row with id := id }] = shareOf user [row] := by
  by_cases hu : row.user = user <;> simp [shareOf, own, Owned.user, Owned.unnumbered, hu]

end Tables

namespace Change
variable (user : String)

/-- The change does not go by the numbers of rows. -/
def Blind : Change → Prop
  | dropEntries which => ∀ r, which (Owned.unnumbered r) = which r
  | dropDumps which => ∀ r, which (Owned.unnumbered r) = which r
  | dropTombstones which => ∀ r, which (Owned.unnumbered r) = which r
  | _ => True

def onShare : Change → Store → Store
  | register row, s => if row.user = user then (register row).apply s else s
  | addEntries rows, s => { s with entries := s.entries ++ shareOf user rows }
  | addDump row, s => { s with dumpRequests := s.dumpRequests ++ shareOf user [row] }
  | addTombstone row, s => { s with deletionRequests := s.deletionRequests ++ shareOf user [row] }
  | recordUsage e time, s => if e.user = user then (recordUsage e time).apply s else s
  | addFeedback row, s => { s with feedback := s.feedback ++ shareOf user [row] }
  | c, s => c.apply s

theorem share_apply {c : Change} (h : c.Blind) (s : Store) :
    (c.apply s).share user = c.onShare user (s.share user) := by
  cases c with
  | register row =>
    simp only [Store.share, apply, onShare, Devices.shareOf_eq]
    split
    · rw [Devices.own_register ‹_›]
    · rw [Devices.own_register_other ‹_›]
  | uninstall u d date =>
    have hmap : shareOf user (Devices.uninstall u d date s.devices) =
        Devices.uninstall u d date (shareOf user s.devices) :=
      shareOf_map user (fun r => by split <;> rfl) (fun r => by rfl) s.devices
    simp only [Store.share, apply, onShare, hmap]
  | removeDevice u d =>
    have hfilter : shareOf user (Devices.remove u d s.devices) =
        Devices.remove u d (shareOf user s.devices) :=
      shareOf_filter user (fun _ => rfl) s.devices
    simp only [Store.share, apply, onShare, hfilter]
  | addEntries rows =>
    simp only [Store.share, apply, onShare, shareOf_append, Entries.shareOf_numbered]
  | bumpEntries u d =>
    have hmap : shareOf user (Entries.bump u d s.entries) =
        Entries.bump u d (shareOf user s.entries) :=
      shareOf_map user (fun r => by split <;> rfl)
        (fun r => by cases hr : r.isFor u d <;> simp_all [EntryRow.isFor, Owned.unnumbered])
        s.entries
    simp only [Store.share, apply, onShare, hmap]
  | dropEntries which =>
    have hfilter : shareOf user (s.entries.filter fun r => !which r) =
        (shareOf user s.entries).filter fun r => !which r :=
      shareOf_filter user (fun r => by rw [h r]) s.entries
    simp only [Store.share, apply, onShare, hfilter]
  | addDump row =>
    simp only [Store.share, apply, onShare, shareOf_append, DumpRequests.shareOf_renumbered]
  | bumpDumps u d =>
    have hmap : shareOf user (DumpRequests.bump u d s.dumpRequests) =
        DumpRequests.bump u d (shareOf user s.dumpRequests) :=
      shareOf_map user (fun r => by split <;> rfl)
        (fun r => by cases hr : r.isForPeer u d <;> simp_all [DumpRow.isForPeer, Owned.unnumbered])
        s.dumpRequests
    simp only [Store.share, apply, onShare, hmap]
  | dropDumps which =>
    have hfilter : shareOf user (s.dumpRequests.filter fun r => !which r) =
        (shareOf user s.dumpRequests).filter fun r => !which r :=
      shareOf_filter user (fun r => by rw [h r]) s.dumpRequests
    simp only [Store.share, apply, onShare, hfilter]
  | addTombstone row =>
    simp only [Store.share, apply, onShare, shareOf_append, DeletionRequests.shareOf_renumbered]
  | bumpTombstones u d =>
    have hmap : shareOf user (DeletionRequests.bump u d s.deletionRequests) =
        DeletionRequests.bump u d (shareOf user s.deletionRequests) :=
      shareOf_map user (fun r => by split <;> rfl)
        (fun r => by cases hr : r.isFor u d <;> simp_all [DeletionRow.isFor, Owned.unnumbered])
        s.deletionRequests
    simp only [Store.share, apply, onShare, hmap]
  | dropTombstones which =>
    have hfilter : shareOf user (s.deletionRequests.filter fun r => !which r) =
        (shareOf user s.deletionRequests).filter fun r => !which r :=
      shareOf_filter user (fun r => by rw [h r]) s.deletionRequests
    simp only [Store.share, apply, onShare, hfilter]
  | recordUsage e time =>
    simp only [Store.share, apply, onShare, Usage.shareOf_eq]
    split
    · rw [Usage.own_record ‹_›]
    · rw [Usage.own_record_other ‹_›]
  | addFeedback row => simp only [Store.share, apply, onShare, shareOf_append]

theorem alike {c : Change} (h : c.Blind) {s t : Store} (hs : s.share user = t.share user) :
    (c.apply s).share user = (c.apply t).share user := by
  rw [share_apply user h, share_apply user h, hs]

/-- Every row that the change is about is of someone else. -/
def Spares : Change → Prop
  | register row => row.user ≠ user
  | uninstall u _ _ | removeDevice u _ | bumpEntries u _ | bumpDumps u _ | bumpTombstones u _ =>
    u ≠ user
  | addEntries rows => ∀ row ∈ rows, row.user ≠ user
  | dropEntries which => ∀ row, which row → row.user ≠ user
  | addDump row => row.user ≠ user
  | dropDumps which => ∀ row, which row → row.user ≠ user
  | addTombstone row => row.user ≠ user
  | dropTombstones which => ∀ row, which row → row.user ≠ user
  | recordUsage e _ => e.user ≠ user
  | addFeedback row => row.user ≠ user

variable {user}

theorem own_append_other {α : Type} [Owned α] {rows more : List α}
    (h : ∀ a ∈ more, Owned.user a ≠ user) : own user (rows ++ more) = own user rows := by
  rw [own, List.filter_append, ← own, ← own, own_other h, List.append_nil]

theorem ofUser_apply {c : Change} (h : c.Spares user) (s : Store) :
    (c.apply s).ofUser user = s.ofUser user := by
  cases c with
  | register row => simp only [Store.ofUser, apply, Devices.own_register_other h]
  | uninstall u d date =>
    have hmap : own user (Devices.uninstall u d date s.devices) = own user s.devices :=
      own_map_other (fun r => by split <;> rfl) (fun r hr => if_neg fun hd =>
        h ((DeviceRow.user_of_is hd).symm.trans hr)) s.devices
    simp only [Store.ofUser, apply, hmap]
  | removeDevice u d =>
    have hfilter : own user (Devices.remove u d s.devices) = own user s.devices :=
      own_filter_other (fun r hd => ne_of_eq_of_ne (DeviceRow.user_of_is hd) h) s.devices
    simp only [Store.ofUser, apply, hfilter]
  | addEntries rows =>
    have hother : ∀ r ∈ Entries.numbered s.lastEntry rows, Owned.user r ≠ user := fun r hr => by
      obtain ⟨-, x, hx, he⟩ := Entries.mem_numbered hr
      rw [he]
      exact h x hx
    simp only [Store.ofUser, apply, own_append_other hother]
  | bumpEntries u d =>
    have hmap : own user (Entries.bump u d s.entries) = own user s.entries :=
      own_map_other (fun r => by split <;> rfl) (fun r hr => if_neg fun hd =>
        h ((EntryRow.isFor_iff.1 hd).1.symm.trans hr)) s.entries
    simp only [Store.ofUser, apply, hmap]
  | dropEntries which => simp only [Store.ofUser, apply, own_filter_other h s.entries]
  | addDump row =>
    have hother : ∀ r ∈ [{ row with id := s.lastDump + 1 }], Owned.user r ≠ user :=
      List.forall_mem_singleton.2 h
    simp only [Store.ofUser, apply, own_append_other hother]
  | bumpDumps u d =>
    have hmap : own user (DumpRequests.bump u d s.dumpRequests) = own user s.dumpRequests :=
      own_map_other (fun r => by split <;> rfl) (fun r hr => if_neg fun hd =>
        h ((of_decide_eq_true (Bool.and_eq_true_iff.1 hd).1).symm.trans hr)) s.dumpRequests
    simp only [Store.ofUser, apply, hmap]
  | dropDumps which => simp only [Store.ofUser, apply, own_filter_other h s.dumpRequests]
  | addTombstone row =>
    have hother : ∀ r ∈ [{ row with id := s.lastDeletion + 1 }], Owned.user r ≠ user :=
      List.forall_mem_singleton.2 h
    simp only [Store.ofUser, apply, own_append_other hother]
  | bumpTombstones u d =>
    have hmap : own user (DeletionRequests.bump u d s.deletionRequests) =
        own user s.deletionRequests :=
      own_map_other (fun r => by split <;> rfl) (fun r hr => if_neg fun hd =>
        h ((DeletionRow.isFor_iff.1 hd).1.symm.trans hr)) s.deletionRequests
    simp only [Store.ofUser, apply, hmap]
  | dropTombstones which => simp only [Store.ofUser, apply, own_filter_other h s.deletionRequests]
  | recordUsage e time => simp only [Store.ofUser, apply, Usage.own_record_other h]
  | addFeedback row =>
    have hother : ∀ r ∈ [row], Owned.user r ≠ user := List.forall_mem_singleton.2 h
    simp only [Store.ofUser, apply, own_append_other hother]

end Change

/-- What a call for a user may change is about that user alone. -/
theorem Call.spares_of_may {config : Config} {call : Call} {c : Change} {user other : String}
    (hfor : call.user? = some other) (hne : other ≠ user) (h : call.may config c) :
    c.Spares user := by
  cases call with
  | register r client =>
    obtain rfl : r.user = other := Option.some.inj hfor
    cases c with
    | register row => exact ne_of_eq_of_ne h.1 hne
    | addDump row => exact ne_of_eq_of_ne h.1 hne
    | recordUsage e time => exact ne_of_eq_of_ne h hne
    | _ => exact h.elim
  | submit batch source client =>
    cases batch with
    | nil => simp [Call.user?] at hfor
    | cons first rest =>
      obtain rfl : first.user = other := Option.some.inj hfor
      cases c with
      | addEntries rows => exact fun row hrow => ne_of_eq_of_ne (h row hrow).1 hne
      | bumpDumps u d =>
        cases source with
        | none => exact h.elim
        | some source => exact ne_of_eq_of_ne h.1 hne
      | bumpTombstones u d =>
        cases source with
        | none => exact h.elim
        | some source => exact ne_of_eq_of_ne h.1 hne
      | recordUsage e time => exact ne_of_eq_of_ne h hne
      | _ => cases source <;> exact h.elim
  | query u device reason client =>
    obtain rfl : u = other := Option.some.inj hfor
    cases c with
    | dropEntries which => exact fun row hrow => ne_of_eq_of_ne (h row hrow) hne
    | bumpEntries v d => exact ne_of_eq_of_ne h.1 hne
    | recordUsage e time => exact ne_of_eq_of_ne h hne
    | _ => exact h.elim
  | bootstrap u device client =>
    obtain rfl : u = other := Option.some.inj hfor
    cases c with
    | recordUsage e time => exact ne_of_eq_of_ne h hne
    | _ => exact h.elim
  | submitDump u source requester isChunk dump client =>
    obtain rfl : u = other := Option.some.inj hfor
    cases c with
    | addEntries rows => exact fun row hrow => ne_of_eq_of_ne (h row hrow).1 hne
    | dropDumps which =>
      obtain rfl : which = _ := h
      exact fun row hrow => ne_of_eq_of_ne (DumpRow.isBy_iff.1 hrow).1 hne
    | recordUsage e time => exact ne_of_eq_of_ne h hne
    | _ => exact h.elim
  | dumpRequests u device =>
    obtain rfl : u = other := Option.some.inj hfor
    cases c with
    | bumpDumps v d => exact ne_of_eq_of_ne h.1 hne
    | _ => exact h.elim
  | addDeletion r =>
    obtain rfl : r.user = other := Option.some.inj hfor
    cases c with
    | addTombstone row => exact ne_of_eq_of_ne h.1 hne
    | dropEntries which => exact fun row hrow => ne_of_eq_of_ne (h row hrow) hne
    | _ => exact h.elim
  | deletionRequests u device =>
    obtain rfl : u = other := Option.some.inj hfor
    cases c with
    | bumpTombstones v d => exact ne_of_eq_of_ne h.1 hne
    | _ => exact h.elim
  | uninstall u device =>
    obtain rfl : u = other := Option.some.inj hfor
    cases c with
    | dropEntries which =>
      obtain rfl : which = _ := h
      exact fun row hrow => ne_of_eq_of_ne (EntryRow.isFor_iff.1 hrow).1 hne
    | dropTombstones which =>
      obtain rfl : which = _ := h
      exact fun row hrow => ne_of_eq_of_ne (DeletionRow.isFor_iff.1 hrow).1 hne
    | dropDumps which =>
      obtain rfl : which = _ := h
      exact fun row hrow => ne_of_eq_of_ne (DumpRow.isBy_iff.1 hrow).1 hne
    | uninstall v d date => exact ne_of_eq_of_ne h.1 hne
    | _ => exact h.elim
  | recordFeedback f =>
    obtain rfl : f.user = other := Option.some.inj hfor
    cases c with
    | addFeedback row => exact ne_of_eq_of_ne h hne
    | _ => exact h.elim
  | _ => simp [Call.user?] at hfor

theorem Turn.ofUser_take {t : Turn} {user other : String} (hfor : t.call.user? = some other)
    (hne : other ≠ user) (r : Relay) :
    (t.take r).2.store.ofUser user = r.store.ofUser user :=
  (t.leads r).frame (Store.ofUser user) fun _ s hc =>
    Change.ofUser_apply (Call.spares_of_may hfor hne hc) s

end HistoryRelay
