import DiceBot.Proofs.Crypto.Lengths

/-!
What is encrypted is decrypted under the same key and nonce, and nothing else is.
-/

namespace DiceBot.Crypto

theorem xorBytes_xorBytes {a b : List UInt8} (h : a.length = b.length) :
    xorBytes (xorBytes a b) b = a := by
  induction a generalizing b with
  | nil => rfl
  | cons x a ih =>
    cases b with
    | nil => cases h
    | cons y b =>
      change (x ^^^ y ^^^ y) :: xorBytes (xorBytes a b) b = x :: a
      rw [ih (Nat.succ.inj h), UInt8.xor_assoc, UInt8.xor_self, UInt8.xor_zero]

namespace Gcm

theorem hide_hide {key : List UInt8} (h : key.length = 32) (nonce text : List UInt8) :
    hide (Aes.roundKeys key) nonce (hide (Aes.roundKeys key) nonce text) = text := by
  rw [hide, length_hide h, hide]
  exact xorBytes_xorBytes (length_stream h nonce text.length).symm

theorem length_encrypt {key : List UInt8} (h : key.length = 32) (nonce text : List UInt8) :
    (encrypt key nonce text).length = text.length + 16 := by
  rw [encrypt, List.length_append, length_hide h, length_tag h]

theorem decrypt?_encrypt {key : List UInt8} (h : key.length = 32) (nonce text : List UInt8) :
    decrypt? key nonce (encrypt key nonce text) = some text := by
  have hl : (encrypt key nonce text).length - 16 =
      (hide (Aes.roundKeys key) nonce text).length := by
    rw [length_encrypt h, length_hide h, Nat.add_sub_cancel]
  have htake : (encrypt key nonce text).take ((encrypt key nonce text).length - 16) =
      hide (Aes.roundKeys key) nonce text := by
    rw [hl]
    exact List.take_left
  have hdrop : (encrypt key nonce text).drop ((encrypt key nonce text).length - 16) =
      tag (Aes.roundKeys key) nonce (hide (Aes.roundKeys key) nonce text) := by
    rw [hl]
    exact List.drop_left
  have h16 : 16 ≤ (encrypt key nonce text).length := by
    rw [length_encrypt h]
    exact Nat.le_add_left _ _
  simp only [decrypt?, htake, hdrop, h16, and_self, if_true, hide_hide h]

/-- Nothing is decrypted but what was encrypted. -/
theorem eq_encrypt_of_decrypt? {key nonce sealed text : List UInt8} (h : key.length = 32)
    (hd : decrypt? key nonce sealed = some text) : sealed = encrypt key nonce text := by
  unfold decrypt? at hd
  dsimp only at hd
  split at hd
  · next ht =>
    cases hd
    rw [encrypt, hide_hide h, ← ht.2, List.take_append_drop]
  · cases hd

end Gcm
end DiceBot.Crypto
