import HistoryRelay.Config.File

/-! What a configuration that the relay starts with can hold. The integers of a file are signed
words, so a setting that only files change stays below 2 to the 63. -/
namespace HistoryRelay

namespace Json.Shape
variable {α β : Type} {get : String → Option Json} {s : Shape (β → α)} {f : Field β} {a : α}

theorem ofFields_and (h : (s.and f).ofFields get = .ok a) :
    ∃ make b, s.ofFields get = .ok make ∧ make b = a ∧
      ((∃ j, get f.name = some j ∧ f.decode j = .ok b) ∨ f.absent = some b) := by
  simp only [Shape.and, bind, Except.bind] at h
  split at h
  · cases h
  · rename_i make hmake
    split at h
    · rename_i j hj
      split at h
      · cases h
      · rename_i b hb
        exact ⟨make, b, hmake, Except.ok.inj h, .inl ⟨j, hj, hb⟩⟩
    · rename_i b _ habsent
      exact ⟨make, b, hmake, Except.ok.inj h, .inr habsent⟩
    · cases h

def Yields (s : Shape α) (P : α → Prop) : Prop := ∀ get a, s.ofFields get = .ok a → P a

theorem Yields.pure {P : α → Prop} (h : P a) : (Shape.pure a).Yields P :=
  fun _ _ hb => Except.ok.inj hb ▸ h

theorem Yields.and {P : α → Prop} (h : s.Yields fun make => ∀ b, P (make b)) :
    (s.and f).Yields P := by
  intro get a ha
  obtain ⟨make, b, hmake, rfl, -⟩ := ofFields_and ha
  exact h get make hmake b

theorem ofFields_of_decode {s : Shape α} {members : List (Option String × Json)}
    (h : s.decode (.object members true) = .ok a) : s.ofFields (lookup members) = .ok a := by
  rw [decode] at h
  split at h
  · cases h
  · exact h

end Json.Shape

namespace Toml.Value
open Json

theorem asWord_toJson_lt {v : Value} {n : Word.Full} (h : asWord v.toJson = .ok n) :
    n.val < 9223372036854775808 := by
  cases v with
  | integer m =>
    have hm := Word.isSigned_iff.1 m.2
    simp only [toJson, int, asWord, asBelow] at h
    split at h
    · obtain rfl := Except.ok.inj h
      simp only
      omega
    · cases h
  | text | real | bool | time | array | table => cases h

theorem exists_of_lookup {entries : List (String × Value)} {name : String} {j : Json}
    (h : Shape.lookup (entriesToJson entries) name = some j) : ∃ v : Value, v.toJson = j := by
  induction entries with
  | nil => cases h
  | cons entry rest ih =>
    obtain ⟨key, v⟩ := entry
    rw [entriesToJson, Shape.lookup, List.find?_cons] at h
    split at h
    · exact ⟨v, Option.some.inj h⟩
    · exact ih h

end Toml.Value

namespace Config
open Json

theorem maxEntriesPerUser_of_ofFields {isNothing : Json → Bool} {get : String → Option Json}
    {c : Config} (h : (shape isNothing).ofFields get = .ok c) :
    (∃ j, get "max_entries_per_user" = some j ∧ asWord j = .ok c.maxEntriesPerUser) ∨
      c.maxEntriesPerUser = 50000000 := by
  obtain ⟨make, b, hmake, rfl, hb⟩ := Shape.ofFields_and h
  have hlast : ∀ b, (make b).maxEntriesPerUser = b := by
    refine (?_ : Shape.Yields _ fun make => ∀ b, (make b).maxEntriesPerUser = b) get make hmake
    -- the other settings come before it
    iterate 14 apply Shape.Yields.and
    exact .pure (by intros; rfl)
  rw [hlast]
  exact hb.imp_right fun h => (Option.some.inj h).symm

theorem maxEntriesPerUser_lt_of_toml {s : String} {c : Config} (h : ofToml? s = some c) :
    c.maxEntriesPerUser.val < 9223372036854775808 := by
  obtain ⟨doc, hdoc, h⟩ := Option.bind_eq_some_iff.1 h
  obtain ⟨t, -, rfl⟩ := Option.map_eq_some_iff.1 hdoc
  have hread : (shape isEmptyToml).ofFields
      (Shape.lookup (Toml.Value.entriesToJson t.values)) = .ok c := by
    split at h
    · rename_i hdecode
      obtain rfl := Option.some.inj h
      exact Shape.ofFields_of_decode hdecode
    · cases h
  obtain ⟨j, hj, hword⟩ | hdefault := maxEntriesPerUser_of_ofFields hread
  · obtain ⟨v, rfl⟩ := Toml.Value.exists_of_lookup hj
    exact Toml.Value.asWord_toJson_lt hword
  · rw [hdefault]
    decide

theorem withVariables_maxEntriesPerUser (c : Config) (lookup : String → Option String) :
    (c.withVariables lookup).maxEntriesPerUser = c.maxEntriesPerUser := by
  unfold withVariables
  dsimp only
  split <;> rfl

theorem withFlags?_maxEntriesPerUser {b c : Config} {flags : Flags}
    (h : b.withFlags? flags = some c) : c.maxEntriesPerUser = b.maxEntriesPerUser := by
  obtain ⟨environment, -, rfl⟩ := Option.map_eq_some_iff.1 h
  rfl

theorem maxEntriesPerUser_lt {file : Option String} {lookup : String → Option String}
    {flags : Flags} {c : Config} (h : load? file lookup flags = some c) :
    c.maxEntriesPerUser.val < 9223372036854775808 := by
  cases file with
  | some toml =>
    obtain ⟨b, hb, hc⟩ := Option.bind_eq_some_iff.1 h
    rw [withFlags?_maxEntriesPerUser hc, withVariables_maxEntriesPerUser]
    exact maxEntriesPerUser_lt_of_toml hb
  | none =>
    rw [withFlags?_maxEntriesPerUser h, withVariables_maxEntriesPerUser]
    decide

end Config

end HistoryRelay
