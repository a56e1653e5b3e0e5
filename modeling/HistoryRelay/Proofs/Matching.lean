import HistoryRelay.Proofs.Retraction

/-! Deleting by messages is a filter. Main statement: whatever the order of the messages, the rows
that one of them hits go and are counted once, so that deleting obeys the laws of a union. -/
namespace HistoryRelay
open Step

namespace Message

/-- The message hits the row, by its end time as it would be stored or by its entry id. A message
without a device hits nothing, and one with a device hits rows of every device. -/
def Hits (m : Message) (row : EntryRow) : Prop :=
  m.device ≠ "" ∧
    ((∃ t, m.endTime = some t ∧ 1 < t.year ∧ t.toInstant? = some row.date) ∨
      (m.entryId ≠ "" ∧ m.entryId = row.encryptedId))

theorem hits_iff {m : Message} {row : EntryRow} :
    (m.applies && m.names row) = true ↔ m.Hits row := by
  rw [applies_and_names]
  simp only [Hits, Matches, EntryRow.toEntry, totalNanos_toTimestamp, Timestamp.toInstant?_eq_some]

instance (m : Message) (row : EntryRow) : Decidable (m.Hits row) := decidable_of_iff _ hits_iff

def SomeHits (user : String) (messages : List Message) (row : EntryRow) : Prop :=
  row.user = user ∧ ∃ m ∈ messages, m.Hits row

instance (user : String) (messages : List Message) (row : EntryRow) :
    Decidable (SomeHits user messages row) :=
  inferInstanceAs (Decidable (_ ∧ ∃ m ∈ messages, m.Hits row))

theorem someHits_iff {user : String} {messages : List Message} {row : EntryRow} :
    (row.user = user && messages.any fun m => m.applies && m.names row) =
      decide (SomeHits user messages row) := by
  rw [Bool.eq_iff_iff, decide_eq_true_iff, SomeHits]
  simp only [Bool.and_eq_true, decide_eq_true_eq, List.any_eq_true, ← hits_iff]

theorem someHits_congr {user : String} {messages messages' : List Message}
    (h : ∀ m, m ∈ messages ↔ m ∈ messages') {row : EntryRow} :
    SomeHits user messages row ↔ SomeHits user messages' row := by
  simp only [SomeHits, h]

end Message

namespace Store
open Message
variable {refusals : Refusals} {user : String} {messages : List Message} {s t : Store} {n : Nat}

def spared (user : String) (messages : List Message) (s : Store) : Store :=
  { s with entries := s.entries.filter fun row => ¬SomeHits user messages row }

theorem spared_spared (user : String) (messages : List Message) (s : Store) :
    (s.spared user messages).spared user messages = s.spared user messages := by
  simp [spared, List.filter_filter]

theorem countP_spared (user : String) (messages : List Message) (s : Store) :
    (s.spared user messages).entries.countP (SomeHits user messages ·) = 0 := by
  simp [spared, List.countP_eq_zero]

def deleteHit (refusals : Refusals) (user : String) (m : Message) : Step Store Nat :=
  if m.applies then deleteEntries refusals fun r => r.user = user && m.names r else pure 0

theorem deleteNamed_cons (refusals : Refusals) (user : String) (m : Message)
    (rest : List Message) : deleteNamed refusals user (m :: rest) = (do
      let hit ← deleteHit refusals user m
      let n ← deleteNamed refusals user rest
      pure (hit + n)) := by
  rw [deleteNamed, deleteHit]
  split <;> rfl

theorem deleteHit_counts {m : Message} (h : deleteHit refusals user m s = (.answer n, t)) :
    n + t.entries.length = s.entries.length := by
  unfold deleteHit at h
  split at h
  · exact deleteEntries_counts h
  · obtain ⟨rfl, rfl⟩ := pure_eq_answer.1 h
    exact Nat.zero_add _

theorem deleteNamed_counts (h : deleteNamed refusals user messages s = (.answer n, t)) :
    n + t.entries.length = s.entries.length := by
  induction messages generalizing s n with
  | nil =>
    obtain ⟨rfl, rfl⟩ := pure_eq_answer.1 h
    exact Nat.zero_add _
  | cons m rest ih =>
    rw [deleteNamed_cons] at h
    obtain ⟨hit, s₁, hone, h⟩ := bind_eq_answer.1 h
    obtain ⟨k, s₂, hrest, h⟩ := bind_eq_answer.1 h
    obtain ⟨rfl, rfl⟩ := pure_eq_answer.1 h
    have hhere := deleteHit_counts hone
    have hthere := ih hrest
    omega

theorem deleteNamed_eq (h : deleteNamed refusals user messages s = (.answer n, t)) :
    n = s.entries.countP (SomeHits user messages ·) ∧ t = s.spared user messages := by
  have hcounts := deleteNamed_counts h
  have hleft : t = s.spared user messages := by
    rw [deleteNamed_answer h]
    simp only [Change.apply, someHits_iff, spared, decide_not]
  refine ⟨eq_countP_of_left ?_, hleft⟩
  rw [hleft] at hcounts
  simpa only [spared, decide_not] using hcounts

theorem mem_deleteMatching (h : deleteMatching refusals user messages s = (.answer n, t))
    {row : EntryRow} : row ∈ t.entries ↔ row ∈ s.entries ∧ ¬SomeHits user messages row := by
  unfold deleteMatching at h
  split at h
  · exact absurd h fail_ne_answer
  · obtain ⟨-, rfl⟩ := deleteNamed_eq h
    simp [spared]

theorem deleteNamed_willing (hfree : ∀ st, refusals st = none) (user : String)
    (messages : List Message) : Willing (deleteNamed refusals user messages) := by
  induction messages with
  | nil => exact .pure 0
  | cons m rest ih =>
    rw [deleteNamed_cons]
    refine .bind ?_ fun _ => .bind ih fun _ => .pure _
    unfold deleteHit
    split
    · exact change_at_willing hfree (.dropEntries _) _ _
    · exact .pure 0

theorem deleteNamed_append (refusals : Refusals) (user : String) (first second : List Message) :
    deleteNamed refusals user (first ++ second) = (do
      let n ← deleteNamed refusals user first
      let k ← deleteNamed refusals user second
      pure (n + k)) := by
  induction first with
  | nil => simp only [List.nil_append, deleteNamed, pure_bind, Nat.zero_add, bind_pure]
  | cons m rest ih =>
    simp only [List.cons_append, deleteNamed_cons, ih, bind_assoc, pure_bind, Nat.add_assoc]

section Matching
variable (huser : user ≠ "")
include huser

theorem deleteMatching_eq_deleteNamed (messages : List Message) :
    deleteMatching refusals user messages = deleteNamed refusals user messages :=
  if_neg huser

theorem deleteMatching_of_free (hfree : ∀ st, refusals st = none) (messages : List Message)
    (s : Store) : deleteMatching refusals user messages s =
      (.answer (s.entries.countP (SomeHits user messages ·)), s.spared user messages) := by
  rw [deleteMatching_eq_deleteNamed huser]
  obtain ⟨n, t, h⟩ := (deleteNamed_willing hfree user messages).answer s
  obtain ⟨rfl, rfl⟩ := deleteNamed_eq h
  exact h

/-- What the messages leave and what they count are the user's rows that none of them hits and that
one of them hits. Where nothing is refused it is so for every list of messages: neither order nor
repetition matters, a second time nothing is left to remove, and two lists one after the other, in
either order, are one list. -/
theorem deleteMatching_is_exact :
    (∀ refusals messages s n t, deleteMatching refusals user messages s = (.answer n, t) →
      n = s.entries.countP (SomeHits user messages ·) ∧ t = s.spared user messages) ∧
    ∀ refusals : Refusals, (∀ st, refusals st = none) →
      (∀ messages s, deleteMatching refusals user messages s =
        (.answer (s.entries.countP (SomeHits user messages ·)), s.spared user messages)) ∧
      (∀ messages messages' : List Message, (∀ m, m ∈ messages ↔ m ∈ messages') →
        deleteMatching refusals user messages = deleteMatching refusals user messages') ∧
      (∀ messages (s : Store), let once := s.spared user messages
        deleteMatching refusals user messages once = (.answer 0, once)) ∧
      ∀ first second : List Message,
        (do
          let n ← deleteMatching refusals user first
          let k ← deleteMatching refusals user second
          pure (n + k)) = deleteMatching refusals user (first ++ second) ∧
        (do
          let k ← deleteMatching refusals user second
          let n ← deleteMatching refusals user first
          pure (k + n)) = deleteMatching refusals user (first ++ second) := by
  have hsame {refusals : Refusals} (hfree : ∀ st, refusals st = none)
      {messages messages' : List Message} (h : ∀ m, m ∈ messages ↔ m ∈ messages') :
      deleteMatching refusals user messages = deleteMatching refusals user messages' := by
    funext s
    simp only [deleteMatching_of_free huser hfree, spared, someHits_congr h]
  have happend (refusals : Refusals) (first second : List Message) : (do
      let n ← deleteMatching refusals user first
      let k ← deleteMatching refusals user second
      pure (n + k)) = deleteMatching refusals user (first ++ second) := by
    simp only [deleteMatching_eq_deleteNamed huser, deleteNamed_append]
  refine ⟨fun refusals messages s n t h => ?_, fun refusals hfree => ⟨?_, ?_, ?_, ?_⟩⟩
  · rw [deleteMatching_eq_deleteNamed huser] at h
    exact deleteNamed_eq h
  · exact deleteMatching_of_free huser hfree
  · exact fun _ _ h => hsame hfree h
  · intro messages s once
    rw [deleteMatching_of_free huser hfree, countP_spared, spared_spared]
  · intro first second
    refine ⟨happend refusals first second, (happend refusals second first).trans ?_⟩
    exact hsame hfree fun m => by simp [or_comm]

end Matching

/-- Two messages hit the first row and one the third. One message has no device, one a zero time and
no id, and the last row is another user's. -/
theorem deleteMatching_is_exact_for_overlapping :
    let zero : Timestamp := ⟨-62135596800, 0, by decide, by decide, by decide, by decide⟩
    let date : Instant := ⟨0, by decide, by decide⟩
    let row (id : Nat) (user encryptedId : String) (date : Instant) : EntryRow :=
      ⟨id, user, "desk", encryptedId, [], [], date, 0, false⟩
    let store : Store := { entries := [row 1 "ada" "e" date,
      row 2 "ada" "" ⟨1, by decide, by decide⟩, row 3 "ada" "f" date,
      row 4 "ada" "g" ⟨-1, by decide, by decide⟩, row 5 "bob" "e" date] }
    let messages : List Message := [⟨"lap", none, "e"⟩, ⟨"desk", some default, ""⟩,
      ⟨"", none, "g"⟩, ⟨"desk", some zero, ""⟩]
    "ada" ≠ "" ∧ (∃ left, deleteMatching (fun _ => none) "ada" messages store = (.answer 2, left) ∧
      left.entries.map (·.id) = [2, 4, 5]) ∧
    deleteMatching (fun _ => none) "ada" (messages.reverse ++ messages) =
      deleteMatching (fun _ => none) "ada" messages := by
  intro zero date row store messages
  have hada : "ada" ≠ "" := by decide
  obtain ⟨-, hlaws⟩ := deleteMatching_is_exact hada
  obtain ⟨hexact, hsame, -, -⟩ := hlaws (fun _ => none) fun _ => rfl
  have hcount : store.entries.countP (SomeHits "ada" messages ·) = 2 := by decide
  refine ⟨hada, ⟨_, (hexact messages store).trans (by rw [hcount]), by decide⟩, ?_⟩
  exact hsame _ _ fun m => by simp

end Store

end HistoryRelay
