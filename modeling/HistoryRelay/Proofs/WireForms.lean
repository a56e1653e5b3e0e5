import HistoryRelay.Device
import HistoryRelay.Entry
import HistoryRelay.Feedback
import HistoryRelay.SubmitReply
import HistoryRelay.Proofs.MessageJson

/-! What goes over the wire and back. Main statement: each value that has a wire form is read from
it unchanged, although what is not given is left out of it, with one exception. -/
namespace HistoryRelay
open Json

theorem Entry.ofJson_toJson {e : Entry} (h : e.readCount < Word.halfBound) :
    ofJson e.toJson = .ok e := by
  refine Shape.Reads.decode (s := shape) ?_ (by simp [shape, Shape.and, required, defaulted])
  exact Shape.Reads.pure (by simp) Entry.mk
    |>.required (by simp) (asBytes_encode e.data)
    |>.required (by simp) (asBytes_encode e.nonce)
    |>.required (by simp) (asText_text e.device)
    |>.required (by simp) (asText_text e.user)
    |>.required (by simp) (asTimestamp_text e.time)
    |>.defaulted (by simp) (asText_text e.encryptedId)
    |>.defaulted (by simp) (asHalfWord_nat h)
    |>.defaulted (by simp) (asBool_bool e.fromSameDevice)

theorem DumpRequest.ofJson_toJson {r : DumpRequest} (h : r.readCount < Word.halfBound) :
    ofJson r.toJson = .ok r := by
  refine Shape.Reads.decode (s := shape) ?_ (by simp [shape, Shape.and, required, defaulted])
  exact Shape.Reads.pure (by simp) DumpRequest.mk
    |>.required (by simp) (asText_text r.user)
    |>.required (by simp) (asText_text r.requester)
    |>.required (by simp) (asTimestamp_text r.time)
    |>.defaulted (by simp) (asHalfWord_nat h)

theorem DeletionRequest.ofJson_toJson {r : DeletionRequest} (h : r.readCount < Word.halfBound) :
    ofJson r.toJson = .ok r := by
  refine Shape.Reads.decode (s := shape) ?_ (by simp [shape, Shape.and, required, defaulted])
  exact Shape.Reads.pure (by simp) DeletionRequest.mk
    |>.required (by simp) (asText_text r.user)
    |>.defaulted (by simp) (asText_text r.destination)
    |>.required (by simp) (asTimestamp_text r.sendTime)
    |>.defaulted (by simp) (asHalfWord_nat h)
    |>.defaulted (by simp) (Message.listOfJson_listToJson r.messages)

theorem Feedback.ofJson_toJson (f : Feedback) : ofJson f.toJson = .ok f := by
  refine Shape.Reads.decode (s := shape) ?_ (by simp [shape, Shape.and, required, defaulted])
  exact Shape.Reads.pure (by simp) Feedback.mk
    |>.required (by simp) (asText_text f.user)
    |>.required (by simp) (asTimestamp_text f.date)
    |>.defaulted (by simp) (asText_text f.feedback)

/-- The date of an uninstalling is the one option that is written as null. -/
theorem Device.ofJson_toJson (d : Device) : ofJson d.toJson = .ok d := by
  refine Shape.Reads.decode (s := shape) ?_ (by simp [shape, Shape.and, required, nullable])
  refine Shape.Reads.pure (by simp) Device.mk
    |>.required (by simp) (asText_text d.user)
    |>.required (by simp) (asText_text d.device)
    |>.required (by simp) (asText_text d.registrationIp)
    |>.required (by simp) (asTimestamp_text d.registrationDate)
    |>.required (by simp) (asBool_bool d.isTestDevice)
    |>.nullable (List.mem_of_getElem? (i := 5) rfl) ?_
  cases d.uninstallDate with
  | none => rfl
  | some t => exact asOption_of_ne_null (text_ne_null _) (asTimestamp_text t)

/-- Every read count in it is one of 32 bits. -/
structure SubmitReply.Countable (r : SubmitReply) : Prop where
  dumps : ∀ rs, r.dumpRequests = some rs → ∀ d ∈ rs, d.readCount < Word.halfBound
  deletions : ∀ rs, r.deletionRequests = some rs → ∀ d ∈ rs, d.readCount < Word.halfBound

theorem SubmitReply.ofJson_toJson {r : SubmitReply} (h : r.Countable) :
    ofJson r.toJson = .ok r := by
  obtain ⟨dumps, deletions⟩ := r
  have hdumps {rs : List DumpRequest} (hrs : dumps = some rs) :
      asOption (asList DumpRequest.ofJson) (list (rs.map DumpRequest.toJson)) = .ok dumps :=
    hrs ▸ asOption_of_ne_null (list_ne_null _)
      (asList_list fun d hd => DumpRequest.ofJson_toJson (h.dumps rs hrs d hd))
  have hdeletions {rs : List DeletionRequest} (hrs : deletions = some rs) :
      asOption (asList DeletionRequest.ofJson) (list (rs.map DeletionRequest.toJson)) =
        .ok deletions :=
    hrs ▸ asOption_of_ne_null (list_ne_null _)
      (asList_list fun d hd => DeletionRequest.ofJson_toJson (h.deletions rs hrs d hd))
  refine Shape.Reads.decode (s := shape) (.optional (.optional (.pure ?_ SubmitReply.mk) ?_) ?_) ?_
  · cases dumps <;> cases deletions <;> simp
  · cases dumps with
    | none => exact .inr ⟨by cases deletions <;> simp, rfl⟩
    | some rs => exact .inl ⟨_, by simp, hdumps rfl⟩
  · cases deletions with
    | none => exact .inr ⟨by cases dumps <;> simp, rfl⟩
    | some rs => exact .inl ⟨_, by simp, hdeletions rfl⟩
  · cases dumps <;> cases deletions <;> simp [shape, Shape.and, Shape.pure, defaulted]

def Json.member? (name : String) : Json → Option Json
  | .object members _ => Shape.lookup members name
  | _ => none

theorem Message.member?_toJson (m : Message) :
    m.toJson.member? "end_time" = m.endTime.map (text ·.text) ∧
      m.toJson.member? "entry_id" = if m.entryId = "" then none else some (text m.entryId) := by
  obtain ⟨device, endTime, entryId⟩ := m
  cases endTime <;> by_cases hid : entryId = "" <;>
    simp [toJson, record, member?, Shape.lookup, hid]

theorem SubmitReply.member?_toJson (r : SubmitReply) :
    r.toJson.member? "dump_requests" =
        r.dumpRequests.map (fun rs => list (rs.map DumpRequest.toJson)) ∧
      r.toJson.member? "deletion_requests" =
        r.deletionRequests.map (fun rs => list (rs.map DeletionRequest.toJson)) := by
  obtain ⟨dumps, deletions⟩ := r
  cases dumps <;> cases deletions <;> simp [toJson, record, member?, Shape.lookup]

theorem Device.member?_toJson (d : Device) : d.toJson.member? "uninstall_date" =
    some ((d.uninstallDate.map (text ·.text)).getD .null) := by
  cases h : d.uninstallDate <;> simp [toJson, record, member?, Shape.lookup, h]

/-- Every value that has a wire form is read from it unchanged, the read counts in it being of 32
bits as they always are. A message without an end time or without an entry id and a reply without
a list leave them out; a device that is not uninstalled has null for the date. -/
theorem wire_forms_are_faithful :
    (∀ e : Entry, e.readCount < Word.halfBound → Entry.ofJson e.toJson = .ok e) ∧
      (∀ r : DumpRequest, r.readCount < Word.halfBound → DumpRequest.ofJson r.toJson = .ok r) ∧
      (∀ m : Message, Message.ofJson m.toJson = .ok m ∧
        m.toJson.member? "end_time" = m.endTime.map (text ·.text) ∧
        m.toJson.member? "entry_id" = if m.entryId = "" then none else some (text m.entryId)) ∧
      (∀ r : DeletionRequest, r.readCount < Word.halfBound →
        DeletionRequest.ofJson r.toJson = .ok r) ∧
      (∀ f : Feedback, Feedback.ofJson f.toJson = .ok f) ∧
      (∀ r : SubmitReply, r.Countable → SubmitReply.ofJson r.toJson = .ok r ∧
        r.toJson.member? "dump_requests" =
          r.dumpRequests.map (fun rs => list (rs.map DumpRequest.toJson)) ∧
        r.toJson.member? "deletion_requests" =
          r.deletionRequests.map (fun rs => list (rs.map DeletionRequest.toJson))) ∧
      ∀ d : Device, Device.ofJson d.toJson = .ok d ∧
        d.toJson.member? "uninstall_date" =
          some ((d.uninstallDate.map (text ·.text)).getD .null) := by
  refine ⟨fun e => e.ofJson_toJson, fun r => r.ofJson_toJson, fun m => ?_,
    fun r => r.ofJson_toJson, fun f => f.ofJson_toJson, fun r hr => ?_, fun d => ?_⟩
  · exact ⟨m.ofJson_toJson, m.member?_toJson⟩
  · exact ⟨r.ofJson_toJson hr, r.member?_toJson⟩
  · exact ⟨d.ofJson_toJson, d.member?_toJson⟩

/-- An entry of one byte, read as often as can be counted and made in a leap second, comes back as
it was, and so does a reply that holds an empty list and lacks the other. -/
theorem wire_forms_are_faithful_at_bounds :
    let leap : Timestamp := ⟨1483228799, 1999999999, by decide, by decide, by decide, by decide⟩
    let e : Entry := ⟨[255], [], "desk", "ada", leap, "", 4294967295, true⟩
    let r : SubmitReply := ⟨some [], none⟩
    Entry.ofJson e.toJson = .ok e ∧ SubmitReply.ofJson r.toJson = .ok r ∧
      r.toJson.member? "deletion_requests" = none := by
  intro leap e r
  obtain ⟨hentry, -, -, -, -, hreply, -⟩ := wire_forms_are_faithful
  have hr : r.Countable := ⟨by simp [r], by simp [r]⟩
  exact ⟨hentry e (by decide), (hreply r hr).1, (hreply r hr).2.2⟩

/-- Not every option that is absent is left out. -/
theorem absent_uninstall_date_is_written :
    let d : Device := ⟨"ada", "desk", "::1", default, false, none⟩
    d.uninstallDate = none ∧ d.toJson.member? "uninstall_date" = some .null :=
  ⟨rfl, rfl⟩

end HistoryRelay
