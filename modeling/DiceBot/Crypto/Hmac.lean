import DiceBot.Crypto.Sha256

/-!
Message authentication with a secret key, on top of SHA-256.
-/

namespace DiceBot.Crypto

/-- A key of one block: a longer one is hashed, a shorter one is filled with zeros. -/
def blockKey (key : List UInt8) : List UInt8 :=
  let key := if key.length > 64 then sha256 key else key
  key ++ List.replicate (64 - key.length) 0

/-- The 32 bytes that authenticate a message under a key. -/
def hmac (key message : List UInt8) : List UInt8 :=
  let key := blockKey key
  sha256 (key.map (· ^^^ 0x5c) ++ sha256 (key.map (· ^^^ 0x36) ++ message))

end DiceBot.Crypto
