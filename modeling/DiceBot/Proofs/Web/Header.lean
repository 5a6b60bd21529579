import DiceBot.Proofs.Bytes.Utf8
import DiceBot.Web.Http

/-!
Values of headers: whether a text is one is decided by its characters.
-/

namespace DiceBot.Web

/-- A character that the value of a header may contain: a tab or one that is no control character of
ASCII. -/
def Printed (c : Char) : Prop := (32 ≤ c.toNat ∧ c.toNat ≠ 127) ∨ c.toNat = 9

theorem inHeader_iff (b : UInt8) :
    inHeader b = true ↔ (32 ≤ b.toNat ∧ b.toNat ≠ 127) ∨ b.toNat = 9 := by
  have h32 : 32 ≤ b ↔ 32 ≤ b.toNat := UInt8.le_iff_toNat_le
  have h127 : b = 127 ↔ b.toNat = 127 := by rw [← UInt8.toNat_inj]; rfl
  have h9 : b = 9 ↔ b.toNat = 9 := by rw [← UInt8.toNat_inj]; rfl
  simp only [inHeader, Bool.or_eq_true, Bool.and_eq_true, decide_eq_true_eq, ne_eq, h32, h127, h9]

theorem inHeader_char (c : Char) :
    (String.utf8EncodeChar c).all inHeader = true ↔ Printed c := by
  by_cases hc : c.toNat < 128
  · have hb : (UInt8.ofNat c.toNat).toNat = c.toNat := by
      rw [UInt8.toNat_ofNat']
      omega
    rw [Bytes.utf8EncodeChar_ascii hc, List.all_cons, List.all_nil, Bool.and_true, inHeader_iff, hb]
    rfl
  · constructor
    · intro _
      left
      omega
    · intro _
      rw [List.all_eq_true]
      intro b hb
      have := Bytes.le_of_mem_utf8EncodeChar (Nat.le_of_not_lt hc) hb
      rw [inHeader_iff]
      left
      omega

theorem isHeaderValue_iff (s : String) : isHeaderValue s = true ↔ ∀ c ∈ s.toList, Printed c := by
  unfold isHeaderValue
  rw [Bytes.utf8_eq_flatMap, List.all_flatMap, List.all_eq_true]
  simp only [inHeader_char]

theorem isHeaderValue_append {a b : String} (ha : isHeaderValue a = true)
    (hb : isHeaderValue b = true) : isHeaderValue (a ++ b) = true := by
  unfold isHeaderValue at *
  rw [Bytes.utf8_append, List.all_append, ha, hb]
  rfl

end DiceBot.Web
