import Zaion.Lib.Text

/-! UTF-8 as lists of bytes: decoding, and where the text of a tail lies in the text it is a
tail of. -/
namespace Zaion.Lib

/-- `String::from_utf8`. -/
def decodeUtf8 (bytes : List UInt8) : Option String := String.fromUTF8? ⟨⟨bytes⟩⟩

theorem toByteArray_toList (s : String) : s.toByteArray.toList = s.toByteArray.data.toList := by
  simp only [ByteArray.toList,byteArray_loop,List.reverse_nil,List.nil_append,List.drop_zero]

theorem decodeUtf8_eq_some {bytes : List UInt8} {s : String} :
    decodeUtf8 bytes = some s ↔ bytes = s.toByteArray.toList := by
  rw [toByteArray_toList]
  unfold decodeUtf8 String.fromUTF8?
  constructor
  · intro decoded
    split at decoded
    · cases decoded
      rfl
    · cases decoded
  · rintro rfl
    have valid : ByteArray.IsValidUTF8 ⟨⟨s.toByteArray.data.toList⟩⟩ := s.isValidUTF8
    rw [dif_pos valid]
    rfl

/-- The bytes of a text are those of its characters. -/
theorem toByteArray_toList_flatMap (s : String) : s.toByteArray.toList = s.toList.flatMap String.utf8EncodeChar := by
  rw [toByteArray_toList,← String.utf8Encode_toList]
  simp [List.utf8Encode]

theorem utf8EncodeChar_ascii {c : Char} (small : c.toNat < 128) : String.utf8EncodeChar c = [UInt8.ofNat c.toNat] := by
  have below : c.val.toNat ≤ 127 := Nat.le_of_lt_succ small
  rw [String.utf8EncodeChar]
  simp only [below,if_true]
  rfl

/-- An ASCII text has one byte for each character. -/
theorem flatMap_ascii {text : List Char} (ascii : ∀ c ∈ text, c.toNat < 128) :
    text.flatMap String.utf8EncodeChar = text.map (fun c => UInt8.ofNat c.toNat) := by
  induction text with
  | nil => rfl
  | cons c rest ih =>
    rw [List.flatMap_cons,utf8EncodeChar_ascii (ascii c (by simp)),ih (fun d later => ascii d (by simp [later]))]
    rfl

theorem flatMap_injective {a b : List Char} (same : a.flatMap String.utf8EncodeChar = b.flatMap String.utf8EncodeChar) :
    a = b := by
  rw [← String.toList_ofList (l := a),← String.toList_ofList (l := b),← toByteArray_toList_flatMap,
    ← toByteArray_toList_flatMap] at same
  exact String.ofList_injective (toByteArray_toList_injective same)

/-- A text starts with the first byte of a character. -/
theorem first_of_flatMap {text : List Char} {b : UInt8} {bytes : List UInt8}
    (start : text.flatMap String.utf8EncodeChar = b :: bytes) : b.IsUTF8FirstByte := by
  cases text with
  | nil => cases start
  | cons c text =>
    rw [List.flatMap_cons] at start
    have first := UInt8.isUTF8FirstByte_getElem_zero_utf8EncodeChar (c := c)
    cases encoded : String.utf8EncodeChar c with
    | nil => exact absurd encoded String.utf8EncodeChar_ne_nil
    | cons d rest =>
      rw [encoded] at start
      obtain rfl := (List.cons.inj start).1
      simpa [encoded] using first

/-- .. and no other byte of one. -/
theorem not_first_inside {c : Char} {lost bytes : List UInt8} {b : UInt8} (split : String.utf8EncodeChar c = lost ++ b :: bytes)
    (inside : lost ≠ []) : ¬b.IsUTF8FirstByte := by
  have bound : lost.length < (String.utf8EncodeChar c).length := by simp [split]
  have here : (String.utf8EncodeChar c)[lost.length] = b := by simp [split]
  rw [← here,UInt8.isUTF8FirstByte_getElem_utf8EncodeChar]
  exact fun empty => inside (List.length_eq_zero_iff.mp empty)

/-- What decodes at the end of a text is an end of the text. -/
theorem flatMap_suffix {text rest : List Char} {lost : List UInt8}
    (same : text.flatMap String.utf8EncodeChar = lost ++ rest.flatMap String.utf8EncodeChar) : rest <:+ text := by
  induction text generalizing lost with
  | nil =>
    have empty := (List.append_eq_nil_iff.mp same.symm).2
    rw [flatMap_injective (a := rest) (b := []) empty]
  | cons c text ih =>
    rw [List.flatMap_cons] at same
    rcases List.append_eq_append_iff.mp same with ⟨more, -, tail⟩ | ⟨inner, split, tail⟩
    · exact (ih tail).trans (List.suffix_cons c text)
    · cases inner with
      | nil => exact (ih (show _ = [] ++ _ from tail.symm)).trans (List.suffix_cons c text)
      | cons b bytes =>
        by_cases empty : lost = []
        · subst empty
          rw [flatMap_injective (a := rest) (b := c :: text) (by rw [List.flatMap_cons,split,tail,List.nil_append])]
        · exact absurd (first_of_flatMap tail) (not_first_inside split empty)

end Zaion.Lib
