import HistoryRelay.Client

/-! What the headers of a request can tell of a client. Main statement: they can tell of every
client whose version and address are printable and trimmed, if there is an address. -/
namespace HistoryRelay

theorem Text.toList_toLower (s : String) : s.toLower.toList = s.toList.map Char.toLower :=
  String.toList_map

namespace Headers
variable {headers : Headers} {name n s : String}

/-- Texts that a header can say: printable ASCII and tabs without blanks at the ends. -/
structure Says (s : String) : Prop where
  visible : ∀ c ∈ s.toList, (0x20 ≤ c.toNat ∧ c.toNat ≤ 0x7E) ∨ c = '\t'
  trimmed : Text.trim s = s

theorem says_iff : Says s ↔
    s.toList.all (fun c => (0x20 ≤ c.toNat && c.toNat ≤ 0x7E) || c = '\t') = true ∧
      Text.trim s = s := by
  rw [List.all_eq_true]
  simp only [Bool.or_eq_true, Bool.and_eq_true, decide_eq_true_eq]
  exact ⟨fun h => ⟨h.visible, h.trimmed⟩, fun h => ⟨h.1, h.2⟩⟩

instance (s : String) : Decidable (Says s) := decidable_of_iff _ says_iff.symm

theorem get?_cons_of_eq (h : n.toLower = name.toLower) (hs : Says s) :
    get? ((n, s) :: headers) name = some s := by
  rw [get?, List.find?_cons_of_pos]
  · exact if_pos (says_iff.1 hs).1
  · exact decide_eq_true h

theorem get?_cons_of_ne (h : n.toLower ≠ name.toLower) :
    get? ((n, s) :: headers) name = get? headers name := by
  rw [get?, List.find?_cons_of_neg, get?]
  simpa using h

def said (headers : Headers) (name : String) : Option String :=
  ((headers.get? name).map Text.trim).filter (· ≠ "")

theorem said_of_get? (h : headers.get? name = some s) (hs : Says s) :
    headers.said name = if s = "" then none else some s := by
  rw [said, h, Option.map_some, hs.trimmed]
  split
  · rename_i hnone
    simp [hnone]
  · rename_i hsome
    simp [hsome]

end Headers

namespace Client

structure Told (c : Client) : Prop where
  version : Headers.Says c.version
  ip : Headers.Says c.ip
  named : c.ip ≠ ""

instance (c : Client) : Decidable c.Told :=
  decidable_of_iff (Headers.Says c.version ∧ Headers.Says c.ip ∧ c.ip ≠ "")
    ⟨fun h => ⟨h.1, h.2.1, h.2.2⟩, fun h => ⟨h.1, h.2, h.3⟩⟩

theorem ofHeaders_eq (headers : Headers) : ofHeaders headers =
    ⟨(headers.said "x-histsync-version").getD "", (headers.said "x-real-ip").getD unknownIp⟩ := rfl

def headers (c : Client) : Headers := [("X-Histsync-Version", c.version), ("X-Real-Ip", c.ip)]

theorem ofHeaders_headers {c : Client} (h : c.Told) : ofHeaders c.headers = c := by
  have hversion : "X-Histsync-Version".toLower = "x-histsync-version".toLower := by
    simp [← String.toList_inj, Text.toList_toLower]
  have hother : "X-Histsync-Version".toLower ≠ "x-real-ip".toLower := by
    simp [← String.toList_inj, Text.toList_toLower]
  have hip : "X-Real-Ip".toLower = "x-real-ip".toLower := by
    simp [← String.toList_inj, Text.toList_toLower]
  have hfirst : c.headers.said "x-histsync-version" = _ :=
    Headers.said_of_get? (Headers.get?_cons_of_eq hversion h.version) h.version
  have hsecond : c.headers.said "x-real-ip" = _ :=
    Headers.said_of_get?
      ((Headers.get?_cons_of_ne hother).trans (Headers.get?_cons_of_eq hip h.ip)) h.ip
  rw [ofHeaders_eq, hfirst, hsecond, if_neg h.named]
  by_cases hnone : c.version = ""
  · rw [if_pos hnone, Option.getD_none, ← hnone]
    rfl
  · rw [if_neg hnone]
    rfl

end Client

end HistoryRelay
