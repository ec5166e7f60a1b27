import Mathlib.Data.List.Sort

/-!
The order of code points is the order of bytes: two texts compare as their UTF-8 encodings do.
-/

namespace AmbientStubs.Text

def bytes (text : String) : List UInt8 :=
  text.toUTF8.data.toList

theorem bytes_eq (text : String) : bytes text = text.toList.flatMap String.utf8EncodeChar := by
  have encoded : text.toByteArray = text.toList.utf8Encode := by
    rw [← String.toByteArray_ofList, String.ofList_toList]
  rw [bytes, String.toUTF8_eq_toByteArray, encoded, List.utf8Encode, List.data_toByteArray]

section Characters

variable {low high : Nat} {rest more : List UInt8}

theorem ofNat_cons_lt (less : low < high) (byte : high < 256) :
    UInt8.ofNat low :: rest < UInt8.ofNat high :: more := by
  refine List.cons_lt_cons_iff.mpr (.inl (UInt8.lt_iff_toNat_lt.mpr ?_))
  rwa [UInt8.toNat_ofNat_of_lt' (less.trans byte), UInt8.toNat_ofNat_of_lt' byte]

theorem ofNat_cons_lt_of_eq (same : low = high) (less : rest < more) :
    UInt8.ofNat low :: rest < UInt8.ofNat high :: more :=
  List.cons_lt_cons_iff.mpr (.inr ⟨by rw [same], less⟩)

theorem digits_lt (less : low < high) :
    low / 64 < high / 64 ∨ low / 64 = high / 64 ∧ low % 64 < high % 64 := by
  omega

/-- A smaller code point has the smaller encoding, whatever follows. -/
theorem utf8EncodeChar_lt {first second : Char} (less : first < second) :
    String.utf8EncodeChar first ++ rest < String.utf8EncodeChar second ++ more := by
  have codes : first.val.toNat < second.val.toNat := less
  have bound : second.val.toNat < 0x110000 := by
    rcases second.valid with below | ⟨-, below⟩
    · exact Nat.lt_trans below (by decide)
    · exact below
  simp only [String.utf8EncodeChar]
  generalize first.val.toNat = low at codes
  generalize second.val.toNat = high at codes bound
  -- A longer encoding starts with a larger byte; encodings of one length compare digit by digit.
  by_cases highOne : high ≤ 0x7f
  · rw [if_pos highOne, if_pos (by omega)]
    exact ofNat_cons_lt codes (by omega)
  rw [if_neg highOne]
  by_cases lowOne : low ≤ 0x7f
  · rw [if_pos lowOne]
    split
    · exact ofNat_cons_lt (by omega) (by omega)
    · split <;> exact ofNat_cons_lt (by omega) (by omega)
  rw [if_neg lowOne]
  by_cases highTwo : high ≤ 0x7ff
  · rw [if_pos highTwo, if_pos (by omega)]
    rcases digits_lt codes with above | ⟨same, below⟩
    · exact ofNat_cons_lt (by omega) (by omega)
    · exact ofNat_cons_lt_of_eq (by rw [same]) (ofNat_cons_lt (by omega) (by omega))
  rw [if_neg highTwo]
  by_cases lowTwo : low ≤ 0x7ff
  · rw [if_pos lowTwo]
    split <;> exact ofNat_cons_lt (by omega) (by omega)
  rw [if_neg lowTwo]
  by_cases highThree : high ≤ 0xffff
  · rw [if_pos highThree, if_pos (by omega)]
    rcases digits_lt codes with above | ⟨same, below⟩
    · rcases digits_lt above with above | ⟨same, below⟩
      · exact ofNat_cons_lt (by omega) (by omega)
      · exact ofNat_cons_lt_of_eq (by omega) (ofNat_cons_lt (by omega) (by omega))
    · refine ofNat_cons_lt_of_eq (by omega) (ofNat_cons_lt_of_eq (by rw [same]) ?_)
      exact ofNat_cons_lt (by omega) (by omega)
  rw [if_neg highThree]
  by_cases lowThree : low ≤ 0xffff
  · rw [if_pos lowThree]
    exact ofNat_cons_lt (by omega) (by omega)
  rw [if_neg lowThree]
  rcases digits_lt codes with above | ⟨same, below⟩
  · rcases digits_lt above with above | ⟨same, below⟩
    · rcases digits_lt above with above | ⟨same, below⟩
      · exact ofNat_cons_lt (by omega) (by omega)
      · exact ofNat_cons_lt_of_eq (by omega) (ofNat_cons_lt (by omega) (by omega))
    · refine ofNat_cons_lt_of_eq (by omega) (ofNat_cons_lt_of_eq (by omega) ?_)
      exact ofNat_cons_lt (by omega) (by omega)
  · refine ofNat_cons_lt_of_eq (by omega) (ofNat_cons_lt_of_eq (by omega) ?_)
    exact ofNat_cons_lt_of_eq (by rw [same]) (ofNat_cons_lt (by omega) (by omega))

end Characters

theorem flatMap_utf8EncodeChar_lt {first second : List Char} (less : first < second) :
    first.flatMap String.utf8EncodeChar < second.flatMap String.utf8EncodeChar := by
  induction first generalizing second with
  | nil =>
      cases second with
      | nil => exact absurd less (List.lt_irrefl [])
      | cons next more =>
          have nonempty : String.utf8EncodeChar next ≠ [] := String.utf8EncodeChar_ne_nil
          obtain ⟨byte, others, shape⟩ := List.exists_cons_of_ne_nil nonempty
          rw [List.flatMap_cons, shape]
          exact List.nil_lt_cons _ _
  | cons character rest inductionHypothesis =>
      cases second with
      | nil => exact absurd less (List.not_lt_nil _)
      | cons next more =>
          rw [List.flatMap_cons, List.flatMap_cons]
          rcases List.cons_lt_cons_iff.mp less with smaller | ⟨rfl, later⟩
          · exact utf8EncodeChar_lt smaller
          · exact List.append_left_lt (inductionHypothesis later)

/-- Texts compare as their bytes do. -/
theorem lt_iff_bytes_lt {first second : String} : first < second ↔ bytes first < bytes second := by
  have monotone {first second : String} (less : first < second) : bytes first < bytes second := by
    rw [bytes_eq, bytes_eq]
    exact flatMap_utf8EncodeChar_lt (String.lt_iff.mp less)
  refine ⟨monotone, fun less => Classical.byContradiction fun notLess => ?_⟩
  by_cases same : first = second
  · exact List.lt_irrefl _ (same ▸ less)
  · have greater : second < first := Std.lt_of_le_of_ne notLess (Ne.symm same)
    exact List.lt_asymm less (monotone greater)

end AmbientStubs.Text
