import HistoryRelay.Store
import HistoryRelay.Entry
import HistoryRelay.Message

/-! The entry store: one row for each entry and destination device. -/
namespace HistoryRelay

namespace EntryRow

def isFor (r : EntryRow) (user device : String) : Bool := r.user = user && r.device = device

/-- What a row is read as. Its count is taken as it is, see `Refusals`. -/
def toEntry (r : EntryRow) : Entry :=
  ⟨r.data, r.nonce, r.device, r.user, r.date.toTimestamp, r.encryptedId, r.readCount,
    r.fromSameDevice⟩

/-- The copy of an entry for a device, not read yet; it has no number before it is stored. -/
def copy (e : Entry) (date : Instant) (device : String) (fromSameDevice : Bool) : EntryRow :=
  ⟨0, e.user, device, e.encryptedId, e.data, e.nonce, date, 0, fromSameDevice⟩

end EntryRow

namespace Message

def storedEndTime (m : Message) : Option Instant := m.effectiveEndTime.bind Timestamp.toInstant?

/-- Whether the message is applied at all: it needs a device id, and a storable end time or
an entry id. -/
def applies (m : Message) : Bool :=
  m.device ≠ "" && (m.storedEndTime.isSome || m.effectiveEntryId.isSome)

def names (m : Message) (r : EntryRow) : Bool :=
  m.storedEndTime = some r.date || m.effectiveEntryId = some r.encryptedId

end Message

namespace Entries

/-- Rows of every device for every entry, device by device. A row that goes back to the
device `origin` is flagged. -/
def fanOut (entries : List (Entry × Instant)) (origin : Option String) (devices : List String) :
    List EntryRow :=
  devices.flatMap fun device => entries.map fun (e, date) =>
    EntryRow.copy e date device (origin = some device)

/-- The rows in runs of `size`, a size of zero counting as one. -/
def runs {α : Type} (size : Nat) : List α → List (List α)
  | [] => []
  | r :: rest => (r :: rest.take (size - 1)) :: runs size (rest.drop (size - 1))
  termination_by rows => rows.length
  decreasing_by grind

theorem flatten_runs {α : Type} (size : Nat) (rows : List α) : (runs size rows).flatten = rows := by
  fun_induction runs size rows with
  | case1 => rfl
  | case2 r rest ih => simp [ih]

def numbered (last : Nat) : List EntryRow → List EntryRow
  | [] => []
  | r :: rest => { r with id := last + 1 } :: numbered (last + 1) rest

/-- What a device is still to get: rows read fewer than `limit` times, its own writes left out. -/
def pending (user device : String) (limit : Nat) (es : List EntryRow) : List EntryRow :=
  es.filter fun r => r.isFor user device && r.readCount < limit && !r.fromSameDevice

/-- Counts a read of every row for the device, its own writes too, so that they age out. -/
def bump (user device : String) (es : List EntryRow) : List EntryRow :=
  es.map fun r => if r.isFor user device then { r with readCount := r.readCount + 1 } else r

def users (es : List EntryRow) : List String :=
  ((es.map (·.user)).eraseDups).mergeSort fun a b => a ≤ b

/-- The statement that inserts that many rows. A row has seven parameters, a question mark
each; its read count is not one of them. -/
def insertion (rows : Nat) : String :=
  "INSERT INTO enc_history_entries
            (user_id, device_id, encrypted_id, encrypted_data, nonce, date,
             read_count, is_from_same_device)
         VALUES " ++ ", ".intercalate (List.replicate rows "(?, ?, ?, ?, ?, ?, 0, ?)")

/-- As many rows as one statement takes: a statement has 32766 parameters at most. -/
def mostRows : Nat := 4680

/-- What the store says to a longer statement. It shows the place of the first parameter that
is too many, the last one of the row after `mostRows`. -/
def tooManyRows (rows : Nat) : String :=
  let place := (insertion (mostRows + 1)).length - 2
  "too many SQL variables in " ++ insertion rows ++ s!" at offset {place}"

end Entries

namespace Store
open Step

def limitRows (rows : Nat) : Step Store Unit :=
  if rows ≤ Entries.mostRows then pure () else fail (.refused (Entries.tooManyRows rows))

def insertRuns (refusals : Refusals) : List (List EntryRow) → Step Store Nat
  | [] => pure 0
  | run :: rest => do
    limitRows run.length
    permit refusals (.insert .entries (run.map (·.encryptedId)))
    update fun s => { s with
      entries := s.entries ++ Entries.numbered s.lastEntry run
      lastEntry := s.lastEntry + run.length }
    let n ← insertRuns refusals rest
    pure (run.length + n)

def insertForDevices (refusals : Refusals) (entries : List Entry) (devices : List String)
    (origin : Option String) (chunk : Nat) : Step Store Nat := do
  let dates ← storedTimes (entries.map (·.time))
  insertRuns refusals (Entries.runs chunk (Entries.fanOut (entries.zip dates) origin devices))

/-- Stores each entry for the device that it names itself. -/
def insertAsIs (refusals : Refusals) (entries : List Entry) (chunk : Nat) : Step Store Nat := do
  let dates ← storedTimes (entries.map (·.time))
  insertRuns refusals (Entries.runs chunk ((entries.zip dates).map fun (e, date) =>
    EntryRow.copy e date e.device false))

def pendingEntries (refusals : Refusals) (user device : String) (limit : Nat) :
    Step Store (List Entry) := do
  permit refusals (.select .entries)
  return (Entries.pending user device limit (← get).entries).map EntryRow.toEntry

def entriesOfUser (refusals : Refusals) (user : String) : Step Store (List Entry) := do
  permit refusals (.select .entries)
  return ((← get).entries.filter (·.user = user)).map EntryRow.toEntry

def bumpEntries (refusals : Refusals) (user device : String) : Step Store Nat := do
  let hit := (← get).entries.countP (·.isFor user device)
  permit refusals (.update .entries hit)
  update fun s => { s with entries := Entries.bump user device s.entries }
  return hit

def deleteEntries (refusals : Refusals) (which : EntryRow → Bool) : Step Store Nat := do
  let hit := (← get).entries.countP which
  permit refusals (.delete .entries hit)
  update fun s => { s with entries := s.entries.filter fun r => !which r }
  return hit

/-- Removes what each message names among a user's rows, message after message. -/
def deleteNamed (refusals : Refusals) (user : String) : List Message → Step Store Nat
  | [] => pure 0
  | m :: rest => do
    let hit ←
      if m.applies then deleteEntries refusals fun r => r.user = user && m.names r
      else pure 0
    let n ← deleteNamed refusals user rest
    pure (hit + n)

def deleteMatching (refusals : Refusals) (user : String) (messages : List Message) :
    Step Store Nat :=
  if user = "" then fail .deletionWithoutUser else deleteNamed refusals user messages

def deleteEntriesFor (refusals : Refusals) (user device : String) : Step Store Nat :=
  deleteEntries refusals (·.isFor user device)

def deleteEntriesReadOver (refusals : Refusals) (count : Nat) : Step Store Nat :=
  deleteEntries refusals (count < ·.readCount)

def deleteEntriesUpTo (refusals : Refusals) (user : String) (cutoff : Timestamp) :
    Step Store Nat := do
  let cutoff ← storedTime cutoff
  deleteEntries refusals fun r => r.user = user && r.date ≤ cutoff

/-- The users with more rows than `most`, in order. The bound is a 64-bit word that the store
compares as a signed one, so its upper half is negative. -/
def usersOver (refusals : Refusals) (most : Nat) : Step Store (List String) := do
  permit refusals (.select .entries)
  let es := (← get).entries
  return (Entries.users es).filter fun user =>
    Word.signed most < (es.countP (·.user = user) : Int)

def deleteAllEntries (refusals : Refusals) : Step Store Nat := deleteEntries refusals fun _ => true

def countEntries (refusals : Refusals) : Step Store Nat := do
  permit refusals (.select .entries)
  return (← get).entries.length

end Store

end HistoryRelay
