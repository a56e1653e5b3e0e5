import HistoryRelay.Message
import HistoryRelay.Proofs.Records

/-! Messages through JSON and back. Main statement: what is stored of a list of messages is read
as that list, so no tombstone loses a message. -/
namespace HistoryRelay.Message
open Json

theorem ofJson_toJson (m : Message) : ofJson m.toJson = .ok m := by
  obtain ⟨device, endTime, entryId⟩ := m
  refine Shape.Reads.decode (s := shape) (.optional (.optional
    (.defaulted (.pure ?_ Message.mk) ?_ (asText_text device)) ?_) ?_) ?_
  · cases endTime <;> by_cases hid : entryId = "" <;> simp [hid]
  · simp
  · cases endTime with
    | none => exact .inr ⟨by by_cases hid : entryId = "" <;> simp [hid], rfl⟩
    | some t =>
      exact .inl ⟨_, by simp, asOption_of_ne_null (text_ne_null t.text) (asTimestamp_text t)⟩
  · by_cases hid : entryId = ""
    · exact .inr ⟨by cases endTime <;> simp [hid], hid.symm⟩
    · exact .inl ⟨_, by simp [hid], asText_text entryId⟩
  · cases endTime <;> by_cases hid : entryId = "" <;>
      simp [hid, shape, Shape.and, Shape.pure, defaulted]

theorem listOfJson_listToJson (ms : List Message) : listOfJson (listToJson ms) = .ok ms := by
  have hreads : listShape.Reads [("message_ids", list (ms.map toJson))] ms :=
    .defaulted (.pure (by simp) id) (by simp) (asList_list fun m _ => ofJson_toJson m)
  exact hreads.decode (by simp [listShape, Shape.and, Shape.pure, defaulted])

end HistoryRelay.Message
