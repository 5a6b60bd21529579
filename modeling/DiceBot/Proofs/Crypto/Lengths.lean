import DiceBot.Crypto.Gcm
import DiceBot.Crypto.Hmac

/-!
How long the outputs of the ciphers and hashes are.
-/

namespace DiceBot.Crypto

@[simp] theorem length_xorBytes (a b : List UInt8) :
    (xorBytes a b).length = min a.length b.length := List.length_zipWith

@[simp] theorem length_bytesOfWord (w : Word) : (bytesOfWord w).length = 4 := rfl

theorem length_sha256 (message : List UInt8) : (sha256 message).length = 32 := by
  simp [sha256]

theorem length_hmac (key message : List UInt8) : (hmac key message).length = 32 :=
  length_sha256 _

namespace Aes

@[simp] theorem length_shiftRows (s : List UInt8) : (shiftRows s).length = 16 := by
  simp [shiftRows]

/-- The schedule goes on in steps of 32 bytes. -/
theorem length_nextKeys {keys : List UInt8} (h : keys.length = 32) (constant : UInt8) :
    (nextKeys constant keys).length = 32 := by
  have hxor {a b : List UInt8} (ha : a.length = 4) (hb : b.length = 4) :
      (xorBytes a b).length = 4 := by
    rw [length_xorBytes, ha, hb]
    rfl
  unfold nextKeys
  extract_lets word turned w0 w1 w2 w3 w4 w5 w6 w7
  have hword (i : Nat) (hi : i < 8) : (word i).length = 4 := by
    rw [List.length_take, List.length_drop]
    omega
  have hturned : turned.length = 4 := by
    dsimp only [turned]
    split
    · rfl
    · exact hword 7 (by decide)
  have h0 : w0.length = 4 := hxor (hword 0 (by decide)) hturned
  have h1 : w1.length = 4 := hxor (hword 1 (by decide)) h0
  have h2 : w2.length = 4 := hxor (hword 2 (by decide)) h1
  have h3 : w3.length = 4 := hxor (hword 3 (by decide)) h2
  have h4 : w4.length = 4 := hxor (hword 4 (by decide)) ((List.length_map _).trans h3)
  have h5 : w5.length = 4 := hxor (hword 5 (by decide)) h4
  have h6 : w6.length = 4 := hxor (hword 6 (by decide)) h5
  have h7 : w7.length = 4 := hxor (hword 7 (by decide)) h6
  simp only [List.length_append, h0, h1, h2, h3, h4, h5, h6, h7]

theorem length_schedule {all last : List UInt8} (hl : last.length = 32) (constants : List UInt8) :
    (constants.foldl (fun (all, last) constant =>
      let next := nextKeys constant last
      (all ++ next, next)) (all, last)).1.length = all.length + 32 * constants.length := by
  induction constants generalizing all last with
  | nil => rfl
  | cons constant constants ih =>
    have hn : (nextKeys constant last).length = 32 := length_nextKeys hl constant
    rw [List.foldl_cons, ih hn, List.length_append, hn, List.length_cons]
    omega

/-- The key of the last round has the length of a block. -/
theorem length_lastKey {key : List UInt8} (h : key.length = 32) :
    ((roundKeys key).getD 14 []).length = 16 := by
  have hs : ([1, 2, 4, 8, 16, 32, 64].foldl (fun (all, last) constant =>
      let next := nextKeys constant last
      (all ++ next, next)) (key, key)).1.length = key.length + 32 * 7 := length_schedule h _
  unfold roundKeys
  rw [List.getD_eq_getElem?_getD, List.getElem?_map, List.getElem?_range (by decide)]
  simp only [Option.map_some, Option.getD_some, List.length_take, List.length_drop, hs, h]
  rfl

theorem length_encrypt {key : List UInt8} (h : key.length = 32) (block : List UInt8) :
    (encrypt (roundKeys key) block).length = 16 := by
  simp only [encrypt, lastRound, length_xorBytes, length_shiftRows, length_lastKey h, Nat.min_self]

end Aes

namespace Gcm

theorem length_stream {key : List UInt8} (h : key.length = 32) (nonce : List UInt8) (n : Nat) :
    (stream (Aes.roundKeys key) nonce n).length = n := by
  have hblocks (m : Nat) : ((List.range m).flatMap fun i =>
      Aes.encrypt (Aes.roundKeys key) (counterBlock nonce (i + 2))).length = 16 * m := by
    induction m with
    | zero => rfl
    | succ m ih =>
      rw [List.range_succ, List.flatMap_append, List.length_append, ih, List.flatMap_singleton,
        Aes.length_encrypt h]
      omega
  rw [stream, List.length_take, hblocks]
  omega

theorem length_hide {key : List UInt8} (h : key.length = 32) (nonce text : List UInt8) :
    (hide (Aes.roundKeys key) nonce text).length = text.length := by
  rw [hide, length_xorBytes, length_stream h, Nat.min_self]

theorem length_tag {key : List UInt8} (h : key.length = 32) (nonce hidden : List UInt8) :
    (tag (Aes.roundKeys key) nonce hidden).length = 16 := by
  simp [tag, natToBlock, Aes.length_encrypt h]

end Gcm
end DiceBot.Crypto
