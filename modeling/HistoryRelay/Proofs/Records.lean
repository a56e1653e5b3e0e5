import HistoryRelay.Json.Record
import HistoryRelay.Proofs.TimestampText

/-! Values and records through JSON and back. A record that is written with its fields under names
of their own is read from them one by one, whatever is left out being read as its default. -/
namespace HistoryRelay

namespace Text.Base64

theorem digit_ne_padding : ∀ n < 64, digit n ≠ '=' := by decide

theorem decodeChars_group {a b c d : Nat} (ha : a < 64) (hb : b < 64) (hc : c < 64) (hd : d < 64)
    (rest : List Char) :
    decodeChars (digit a :: digit b :: digit c :: digit d :: rest) =
      (decodeChars rest).map fun tail => UInt8.ofNat (a * 4 + b / 16) ::
        UInt8.ofNat (b % 16 * 16 + c / 4) :: UInt8.ofNat (c % 4 * 64 + d) :: tail := by
  have hpad := digit_ne_padding d hd
  rw [decodeChars]
  · simp only [value_digit a ha, value_digit b hb, value_digit c hc, value_digit d hd,
      Option.bind_eq_bind, Option.bind_some]
    cases decodeChars rest <;> rfl
  · exact fun _ h _ => hpad h
  · exact fun h _ => hpad h

theorem ofNat_eq {n : Nat} {a : UInt8} (h : n = a.toNat) : UInt8.ofNat n = a := by
  rw [h, UInt8.ofNat_toNat]

theorem decodeChars_encodeChars (bytes : List UInt8) :
    decodeChars (encodeChars bytes) = some bytes := by
  induction bytes using encodeChars.induct with
  | case1 => rfl
  | case2 a =>
    have ha := a.toNat_lt
    have hfirst := value_digit (a.toNat / 4) (by omega)
    have hsecond := value_digit (a.toNat % 4 * 16) (by omega)
    rw [encodeChars, decodeChars]
    simp only [hfirst, hsecond, Option.bind_eq_bind, Option.bind_some]
    rw [if_pos (by omega), ofNat_eq (a := a) (by omega)]
  | case3 a b =>
    have ha := a.toNat_lt
    have hb := b.toNat_lt
    have hfirst := value_digit (a.toNat / 4) (by omega)
    have hsecond := value_digit (a.toNat % 4 * 16 + b.toNat / 16) (by omega)
    have hthird := value_digit (b.toNat % 16 * 4) (by omega)
    have hpad := digit_ne_padding (b.toNat % 16 * 4) (by omega)
    rw [encodeChars, decodeChars]
    · simp only [hfirst, hsecond, hthird, Option.bind_eq_bind, Option.bind_some]
      rw [if_pos (by omega), ofNat_eq (a := a) (by omega), ofNat_eq (a := b) (by omega)]
    · exact hpad
  | case4 a b c rest ih =>
    have ha := a.toNat_lt
    have hb := b.toNat_lt
    have hc := c.toNat_lt
    rw [encodeChars, decodeChars_group (by omega) (by omega) (by omega) (by omega), ih,
      Option.map_some]
    rw [ofNat_eq (a := a) (by omega), ofNat_eq (a := b) (by omega), ofNat_eq (a := c) (by omega)]

theorem decode?_encode (bytes : List UInt8) : decode? (encode bytes) = some bytes := by
  rw [decode?, encode, String.toList_ofList, decodeChars_encodeChars]

end Text.Base64

namespace Json

section Values
variable {α : Type} {decode : Decoder α}

theorem asText_text (s : String) : asText (text s) = .ok s := rfl

theorem asBool_bool (b : Bool) : asBool (bool b) = .ok b := rfl

theorem asHalfWord_nat {n : Nat} (h : n < Word.halfBound) : asHalfWord (nat n) = .ok n := by
  have hbounds : 0 ≤ (n : Int) ∧ (n : Int) < (Word.halfBound : Int) :=
    ⟨Int.natCast_nonneg n, Int.ofNat_lt.2 h⟩
  have hhalf : asHalf (nat n) = .ok ⟨n, h⟩ := by
    simp only [asHalf, nat, int, asBelow, dif_pos hbounds, Int.toNat_natCast]
  rw [asHalfWord, hhalf]
  rfl

theorem asTextOf_text {read : String → Option α} {s : String} {a : α} (h : read s = some a) :
    asTextOf read (text s) = .ok a := by
  simp [asTextOf, asText_text, h, bind, Except.bind]

theorem asBytes_encode (bytes : List UInt8) :
    asBytes (text (Text.Base64.encode bytes)) = .ok bytes :=
  asTextOf_text (Text.Base64.decode?_encode bytes)

theorem asTimestamp_text (t : Timestamp) : asTimestamp (text t.text) = .ok t :=
  asTextOf_text t.ofText?_text

theorem text_ne_null (s : String) : text s ≠ .null := by simp [text]

theorem list_ne_null (js : List Json) : list js ≠ .null := by simp [list]

theorem asOption_of_ne_null {j : Json} {a : α} (hj : j ≠ .null) (h : decode j = .ok a) :
    asOption decode j = .ok (some a) := by
  have he : asOption decode j = some <$> decode j := by
    unfold asOption
    split
    · exact absurd rfl hj
    · rfl
  rw [he, h]
  rfl

theorem asList_list {encode : α → Json} {as : List α}
    (h : ∀ a ∈ as, decode (encode a) = .ok a) : asList decode (list (as.map encode)) = .ok as := by
  have hitems : (as.map encode).mapM decode = .ok as := by
    induction as with
    | nil => rfl
    | cons a rest ih =>
      have hrest := ih fun b hb => h b (List.mem_cons_of_mem a hb)
      simp [List.mapM_cons, h a List.mem_cons_self, hrest, bind, Except.bind, pure, Except.pure]
  simp [asList, list, hitems, bind, Except.bind]

end Values

namespace Shape
variable {α β : Type} {fields : List (String × Json)}

abbrev get (fields : List (String × Json)) : String → Option Json :=
  lookup (fields.map fun field => (some field.1, field.2))

theorem get_of_mem (hdistinct : (fields.map (·.1)).Nodup) {name : String} {j : Json}
    (h : (name, j) ∈ fields) : get fields name = some j := by
  induction fields with
  | nil => cases h
  | cons field rest ih =>
    obtain ⟨hfresh, hrest⟩ := List.nodup_cons.1 hdistinct
    obtain rfl | h := List.mem_cons.1 h
    · simp [get, lookup]
    · have hne : field.1 ≠ name := by
        rintro rfl
        exact hfresh (List.mem_map.2 ⟨_, h, rfl⟩)
      simpa [get, lookup, hne] using ih hrest h

theorem get_of_not_mem {name : String} (h : name ∉ fields.map (·.1)) : get fields name = none := by
  simp only [get, lookup, Option.map_eq_none_iff, List.find?_eq_none]
  intro member hm
  obtain ⟨field, hf, rfl⟩ := List.mem_map.1 hm
  simp only [decide_eq_true_eq, Option.some.injEq]
  rintro rfl
  exact h (List.mem_map_of_mem hf)

/-- A record whose names are distinct is read as `a`: each field of the shape that it has is read
from there, each field that it does not have is given its default. -/
structure Reads (s : Shape α) (fields : List (String × Json)) (a : α) : Prop where
  distinct : (fields.map (·.1)).Nodup
  value : s.ofFields (get fields) = .ok a
  checked : ∀ check ∈ s.checks, ∀ j, (check.1, j) ∈ fields → check.2 j = none

namespace Reads
variable {a : α} {make : β → α} {b : β} {f : Field β}

theorem pure (h : (fields.map (·.1)).Nodup) (a : α) : (Shape.pure a).Reads fields a :=
  ⟨h, rfl, fun _ hc => nomatch hc⟩

theorem field {s : Shape (β → α)} {j : Json} (h : s.Reads fields make) (hj : (f.name, j) ∈ fields)
    (hread : f.decode j = .ok b) : (s.and f).Reads fields (make b) := by
  have hget := get_of_mem h.distinct hj
  refine ⟨h.distinct, ?_, fun check hc j' hj' => ?_⟩
  · simp [Shape.and, h.value, hget, hread, bind, Except.bind, Pure.pure, Except.pure]
  · obtain hc | hc := List.mem_append.1 hc
    · exact h.checked check hc j' hj'
    · obtain rfl := List.mem_singleton.1 hc
      obtain rfl := Option.some.inj (hget.symm.trans (get_of_mem h.distinct hj'))
      simp [hread]

theorem skip {s : Shape (β → α)} (h : s.Reads fields make) (hf : f.name ∉ fields.map (·.1))
    (habsent : f.absent = some b) : (s.and f).Reads fields (make b) := by
  refine ⟨h.distinct, ?_, fun check hc j hj => ?_⟩
  · simp [Shape.and, h.value, get_of_not_mem hf, habsent, bind, Except.bind, Pure.pure, Except.pure]
  · obtain hc | hc := List.mem_append.1 hc
    · exact h.checked check hc j hj
    · obtain rfl := List.mem_singleton.1 hc
      exact absurd (List.mem_map_of_mem hj) hf

section Kinds
variable {s : Shape (β → α)} {name : String} {decode : Decoder β} {default : β}

theorem required {j : Json} (h : s.Reads fields make) (hj : (name, j) ∈ fields)
    (hread : decode j = .ok b) : (s.and (Json.required name decode)).Reads fields (make b) :=
  h.field hj hread

theorem defaulted {j : Json} (h : s.Reads fields make) (hj : (name, j) ∈ fields)
    (hread : decode j = .ok b) :
    (s.and (Json.defaulted name decode default)).Reads fields (make b) :=
  h.field hj hread

/-- A field that is left out where it would say no more than its default. -/
theorem optional (h : s.Reads fields make)
    (hb : (∃ j, (name, j) ∈ fields ∧ decode j = .ok b) ∨ name ∉ fields.map (·.1) ∧ default = b) :
    (s.and (Json.defaulted name decode default)).Reads fields (make b) := by
  obtain ⟨j, hj, hread⟩ | ⟨hname, rfl⟩ := hb
  · exact h.defaulted hj hread
  · exact h.skip hname rfl

theorem nullable {s : Shape (Option β → α)} {make : Option β → α} {b : Option β} {j : Json}
    (h : s.Reads fields make) (hj : (name, j) ∈ fields) (hread : asOption decode j = .ok b) :
    (s.and (Json.nullable name decode)).Reads fields (make b) :=
  h.field hj hread

end Kinds

end Reads

theorem faultOf_eq_none {s : Shape α} {seen : List String}
    (hdistinct : (fields.map (·.1)).Nodup) (hseen : ∀ field ∈ fields, field.1 ∉ seen)
    (hknown : ∀ field ∈ fields, field.1 ∈ s.checks.map (·.1))
    (hchecked : ∀ check ∈ s.checks, ∀ j, (check.1, j) ∈ fields → check.2 j = none) :
    s.faultOf seen (fields.map fun field => (some field.1, field.2)) = none := by
  induction fields generalizing seen with
  | nil => rfl
  | cons field rest ih =>
    obtain ⟨name, j⟩ := field
    obtain ⟨hfresh, hrest⟩ := List.nodup_cons.1 hdistinct
    obtain ⟨hnew, hnews⟩ := List.forall_mem_cons.1 hseen
    obtain ⟨hhere, hothers⟩ := List.forall_mem_cons.1 hknown
    obtain ⟨check, hfind⟩ : ∃ check, s.checks.find? (·.1 = name) = some check := by
      obtain ⟨check, hc, hname⟩ := List.mem_map.1 hhere
      exact Option.isSome_iff_exists.1 (List.find?_isSome.2 ⟨check, hc, by simpa using hname⟩)
    obtain rfl : check.1 = name := by simpa using List.find?_some hfind
    have hpassed : check.2 j = none :=
      hchecked check (List.mem_of_find?_eq_some hfind) j List.mem_cons_self
    simp only [List.map_cons, faultOf, hfind, hnew, if_false, hpassed]
    refine ih hrest (fun field hf => ?_) hothers fun c hc j' hj =>
      hchecked c hc j' (List.mem_cons_of_mem _ hj)
    rw [List.mem_cons, not_or]
    exact ⟨fun he => hfresh (List.mem_map.2 ⟨field, hf, he⟩), hnews field hf⟩

theorem Reads.decode {s : Shape α} {a : α} (h : s.Reads fields a)
    (hknown : ∀ field ∈ fields, field.1 ∈ s.checks.map (·.1)) :
    s.decode (record fields) = .ok a := by
  have hfault : s.faultOf [] (fields.map fun field => (some field.1, field.2)) = none :=
    faultOf_eq_none h.distinct (fun _ _ => List.not_mem_nil) hknown h.checked
  simp only [Shape.decode, record, hfault, if_true]
  exact h.value

end Shape

end Json

end HistoryRelay
