import DiceBot.Proofs.Bytes.Base64
import DiceBot.Proofs.Bytes.Utf8
import DiceBot.Proofs.Crypto.Gcm
import DiceBot.Proofs.Text.Split
import DiceBot.Team.Seal

/-!
A sealed token is revealed under the key that sealed it, and nothing but what the key seals is
revealed under it.
-/

namespace DiceBot.Team.SealKey

/-- A key of the length that the cipher takes. -/
def Fits (key : SealKey) : Prop := key.bytes.length = 32

theorem ofPassphrase_fits (passphrase : String) : (ofPassphrase passphrase).Fits :=
  Crypto.length_sha256 _

theorem toList_sealWith (key : SealKey) (nonce : List UInt8) (token : String) :
    (key.sealWith nonce token).toList = versionMark ++
      Bytes.Base64.encode (nonce ++ Crypto.Gcm.encrypt key.bytes nonce (Bytes.utf8 token)) :=
  String.toList_ofList

theorem reveal_sealWith {key : SealKey} (hk : key.Fits) {nonce : List UInt8}
    (hn : nonce.length = nonceLength) (token : String) :
    key.reveal (key.sealWith nonce token) = .ok token := by
  have hraw : (Text.dropStart? versionMark (key.sealWith nonce token).toList).bind
      Bytes.Base64.decode? =
      some (nonce ++ Crypto.Gcm.encrypt key.bytes nonce (Bytes.utf8 token)) := by
    rw [toList_sealWith, Text.dropStart?_append]
    exact Bytes.Base64.decode?_encode _
  have hlong : ¬ (nonce ++ Crypto.Gcm.encrypt key.bytes nonce (Bytes.utf8 token)).length ≤
      nonceLength := by
    rw [List.length_append, hn, Crypto.Gcm.length_encrypt hk]
    omega
  simp only [reveal, hraw, if_neg hlong]
  rw [List.take_left' hn, List.drop_left' hn, Crypto.Gcm.decrypt?_encrypt hk]
  simp only [Bytes.ofUtf8?_utf8]

/-- The nonce that a sealed token was sealed under. -/
def nonce? (stored : String) : Option (List UInt8) :=
  ((Text.dropStart? versionMark stored.toList).bind Bytes.Base64.decode?).map
    (List.take nonceLength)

theorem nonce?_sealWith (key : SealKey) {nonce : List UInt8} (hn : nonce.length = nonceLength)
    (token : String) : nonce? (key.sealWith nonce token) = some nonce := by
  rw [nonce?, toList_sealWith, Text.dropStart?_append, Option.bind_some,
    Bytes.Base64.decode?_encode, Option.map_some, List.take_left' hn]

/-- What is revealed was sealed: each step of the reading is undone by the writing. -/
theorem eq_sealWith_of_reveal {key : SealKey} (hk : key.Fits) {stored token : String}
    (h : key.reveal stored = .ok token) :
    ∃ nonce : List UInt8, nonce.length = nonceLength ∧ stored = key.sealWith nonce token := by
  unfold reveal at h
  split at h
  · cases h
  · next raw hraw =>
    obtain ⟨encoded, hmark, hencoded⟩ := Option.bind_eq_some_iff.mp hraw
    split at h
    · cases h
    · next hlong =>
      split at h
      · cases h
      · next bytes hbytes =>
        split at h
        · cases h
        · next text htext =>
          cases h
          have hencrypt := Crypto.Gcm.eq_encrypt_of_decrypt? hk hbytes
          refine ⟨raw.take nonceLength, List.length_take_of_le (by omega), ?_⟩
          rw [← String.toList_inj, toList_sealWith, Bytes.utf8_of_ofUtf8? htext, ← hencrypt,
            List.take_append_drop, ← Bytes.Base64.eq_encode_of_decode? hencoded]
          exact Text.eq_append_of_dropStart? hmark

theorem reveal_eq_ok_iff {key : SealKey} (hk : key.Fits) {stored token : String} :
    key.reveal stored = .ok token ↔
      ∃ nonce : List UInt8, nonce.length = nonceLength ∧ stored = key.sealWith nonce token := by
  constructor
  · exact eq_sealWith_of_reveal hk
  · rintro ⟨nonce, hn, rfl⟩
    exact reveal_sealWith hk hn token

/-- Different nonces or tokens are sealed as different texts. -/
theorem sealWith_injective {key : SealKey} (hk : key.Fits) {nonce nonce' : List UInt8}
    (hn : nonce.length = nonceLength) (hn' : nonce'.length = nonceLength) {token token' : String}
    (h : key.sealWith nonce token = key.sealWith nonce' token') :
    nonce = nonce' ∧ token = token' := by
  have hnonce := nonce?_sealWith key hn token
  have htoken := reveal_sealWith hk hn token
  rw [h] at hnonce htoken
  exact ⟨Option.some.inj (hnonce.symm.trans (nonce?_sealWith key hn' token')),
    Except.ok.inj (htoken.symm.trans (reveal_sealWith hk hn' token'))⟩

/-- Under the key of a passphrase the pairs of a nonce and a token and the texts that are revealed
stand for each other one by one, and every other text is refused. -/
theorem sealing_bijective (passphrase : String) :
    let key : SealKey := ofPassphrase passphrase
    (∀ nonce token, (key.sealWith nonce token).toList = "v1:".toList ++
      Bytes.Base64.encode (nonce ++
        Crypto.Gcm.encrypt (Crypto.sha256 (Bytes.utf8 passphrase)) nonce (Bytes.utf8 token))) ∧
    (∀ stored token, key.reveal stored = .ok token ↔
      ∃ nonce : List UInt8, nonce.length = 12 ∧ stored = key.sealWith nonce token) ∧
    (∀ nonce nonce' : List UInt8, nonce.length = 12 → nonce'.length = 12 → ∀ token token',
      key.sealWith nonce token = key.sealWith nonce' token' → nonce = nonce' ∧ token = token') ∧
    (∀ stored stored' token, key.reveal stored = .ok token → key.reveal stored' = .ok token →
      nonce? stored = nonce? stored' → stored = stored') ∧
    ∀ stored, (∀ nonce token, nonce.length = 12 → stored ≠ key.sealWith nonce token) →
      ∃ error, key.reveal stored = .error error := by
  intro key
  have hk : key.Fits := ofPassphrase_fits passphrase
  refine ⟨toList_sealWith key, fun _ _ => reveal_eq_ok_iff hk, ?_, ?_, ?_⟩
  · intro nonce nonce' hn hn' token token' h
    exact sealWith_injective hk hn hn' h
  · intro stored stored' token h h' hnonce
    obtain ⟨nonce, hn, rfl⟩ := eq_sealWith_of_reveal hk h
    obtain ⟨nonce', hn', rfl⟩ := eq_sealWith_of_reveal hk h'
    rw [nonce?_sealWith key hn, nonce?_sealWith key hn'] at hnonce
    rw [Option.some.inj hnonce]
  · intro stored hn
    cases h : key.reveal stored with
    | error error => exact ⟨error, rfl⟩
    | ok token =>
      obtain ⟨nonce, hl, he⟩ := eq_sealWith_of_reveal hk h
      exact absurd he (hn nonce token hl)

end DiceBot.Team.SealKey
