import DiceBot.Bytes.Base64
import DiceBot.Bytes.Utf8
import DiceBot.Crypto.Gcm
import DiceBot.Text.Split

/-!
Sealed tokens: what a store keeps in place of a token. A sealed token is a mark of its version and
the base64 text of a nonce, the encrypted token and its tag.
-/

namespace DiceBot.Team

structure SealKey where
  bytes : List UInt8

inductive SealError where
  /-- The text has not the form of a sealed token, or what it holds is no text. -/
  | malformed
  /-- The tag does not fit: the text was changed, or sealed with another key. -/
  | tampered
  deriving DecidableEq, Repr

def SealError.message : SealError → String
  | .malformed => "sealed token is malformed"
  | .tampered => "sealed token failed authentication"

namespace SealKey

/-- The key of a passphrase is its hash. -/
def ofPassphrase (passphrase : String) : SealKey := ⟨Crypto.sha256 (Bytes.utf8 passphrase)⟩

/-- A key shows none of its bytes. -/
def shown (_ : SealKey) : String := "TokenCipher \x7b .. \x7d"

def versionMark : List Char := ['v', '1', ':']

def nonceLength : Nat := 12

/-- Seals a token under a nonce, which has to be fresh for every token. -/
def sealWith (key : SealKey) (nonce : List UInt8) (token : String) : String :=
  String.ofList (versionMark ++
    Bytes.Base64.encode (nonce ++ Crypto.Gcm.encrypt key.bytes nonce (Bytes.utf8 token)))

def reveal (key : SealKey) (stored : String) : Except SealError String :=
  match (Text.dropStart? versionMark stored.toList).bind Bytes.Base64.decode? with
  | none => .error .malformed
  | some raw =>
    if raw.length ≤ nonceLength then .error .malformed
    else match Crypto.Gcm.decrypt? key.bytes (raw.take nonceLength) (raw.drop nonceLength) with
      | none => .error .tampered
      | some bytes =>
        match Bytes.ofUtf8? bytes with
        | none => .error .malformed
        | some token => .ok token

end SealKey
end DiceBot.Team
