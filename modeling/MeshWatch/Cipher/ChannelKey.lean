import MeshWatch.Cipher.Base64
import MeshWatch.Cipher.Keystream

/-!
# Channel keys

A channel is encrypted with a key stretched from its shared secret, and packets on
it carry a one-byte hash of the channel's name and secret, by which a receiver
finds the key to try. There is no integrity check: a wrong key yields noise, not a
failure.

- `decrypt_encrypt`: what was encrypted under a key decrypts under it.
- `ofSecret_nil`: an empty secret makes no key.
-/

namespace MeshWatch

/-- What can be wrong with key material or a ciphertext. -/
inductive CryptoFault where
  | keyLength
  | keyEncoding (detail : String)
  | dataLength
  | notAvailable
deriving DecidableEq, Repr

/-- The wording of a fault. -/
def CryptoFault.message : CryptoFault → String
  | .keyLength => "Invalid key length (expected 1, 16 or 32 bytes)"
  | .keyEncoding detail => "Invalid base64 key: " ++ detail
  | .dataLength => "Invalid data length"
  | .notAvailable => "Crypto feature not enabled, compile with --features crypto"

/-- A channel's name and its stretched key. -/
structure ChannelKey where
  name : String
  key : Bytes
  /-- What the secret contributes to the channel hash. -/
  secretHash : UInt8
deriving DecidableEq, Repr

namespace ChannelKey

/-- The secret of the public channels. -/
def defaultSecret : Bytes := [1]

/-- The key that one-byte secrets select by offset of its last byte. -/
def firmwareKey : Bytes :=
  [0xd4, 0xf1, 0xbb, 0x3a, 0x20, 0x29, 0x07, 0x59, 0xf0, 0xbc, 0xff, 0xab, 0xcf, 0x4e, 0x69]

/-- The last byte of the firmware key for the secret 1. -/
def firmwareKeyLast : UInt8 := 0x01

/-- The hash contribution of a secret: a one-byte secret counts as the firmware
key that it selects. -/
def hashOfSecret : Bytes → UInt8
  | [index] => Bytes.xorAll (firmwareKey ++ [firmwareKeyLast + (index - 1)])
  | secret => Bytes.xorAll secret

/-- The 32-byte key of a secret: itself when it has that length, else a hash of
it, marked when the secret is a single byte. -/
def stretch (secret : Bytes) : Except CryptoFault Bytes :=
  if secret.length = 0 then .error .keyLength
  else if secret.length = 32 then .ok secret
  else if secret.length = 1 then .ok (Sha256.digest (Bytes.ofText "Meshtastic" ++ secret))
  else .ok (Sha256.digest secret)

/-- The key of a channel with a shared secret. -/
def ofSecret (name : String) (secret : Bytes) : Except CryptoFault ChannelKey :=
  (stretch secret).map fun key => ⟨name, key, hashOfSecret secret⟩

/-- The key of a channel that was given as such. -/
def ofKey (name : String) (key : Bytes) : ChannelKey := ⟨name, key, Bytes.xorAll key⟩

theorem ofSecret_nil (name : String) : ofSecret name [] = .error .keyLength := rfl

/-- The hash that packets on the channel carry. -/
def hash (k : ChannelKey) : UInt8 := Bytes.xorAll (Bytes.ofText k.name) ^^^ k.secretHash

/-- The printed form, which keeps the key to itself. -/
def redacted (k : ChannelKey) : String :=
  "ChannelKey \x7b channel_name: " ++ Text.quoted k.name ++ ", key: \"[REDACTED]\" \x7d"

/-! ## Encryption -/

/-- A message under the key. -/
def encrypt (k : ChannelKey) (packetId : UInt32) (sender : NodeId) (message : Bytes) : Bytes :=
  Keystream.crypt k.key packetId sender message

/-- The message behind a ciphertext, which must not be empty. -/
def decrypt (k : ChannelKey) (packetId : UInt32) (sender : NodeId) (ciphertext : Bytes) :
    Except CryptoFault Bytes :=
  if ciphertext.isEmpty then .error .dataLength
  else .ok (Keystream.crypt k.key packetId sender ciphertext)

theorem decrypt_encrypt (k : ChannelKey) (packetId : UInt32) (sender : NodeId) (message : Bytes)
    (h : message ≠ []) :
    k.decrypt packetId sender (k.encrypt packetId sender message) = .ok message := by
  have hl : (k.encrypt packetId sender message).length = message.length :=
    Keystream.length_crypt ..
  have hne : (k.encrypt packetId sender message).isEmpty = false := by
    cases hc : k.encrypt packetId sender message with
    | nil => rw [hc] at hl; exact absurd (List.length_eq_zero_iff.1 hl.symm) h
    | cons => rfl
  rw [decrypt, hne]
  simp [encrypt, Keystream.crypt_crypt]

/-! ## Configured secrets and public channels -/

/-- The secret that a setting names: `none` and a single zero byte mean an
unencrypted channel, nothing and `default` the public secret. -/
def readSecret (setting : String) : Except CryptoFault (Option Bytes) :=
  let text := Text.trim setting
  if Text.sameIgnoringCase text "none" then .ok none
  else if text.isEmpty || Text.sameIgnoringCase text "default" then .ok (some defaultSecret)
  else
    match Base64.decode? text with
    | none => .error (.keyEncoding "<base64>")
    | some [0] => .ok none
    | some bs =>
      if bs.length = 1 ∨ bs.length = 16 ∨ bs.length = 32 then .ok (some bs)
      else .error .keyLength

/-- The channels that use the public secret. -/
def presetNames : List String :=
  ["LongFast", "LongSlow", "LongModerate", "MediumFast", "MediumSlow", "ShortFast", "ShortSlow",
   "ShortTurbo", "VeryLongSlow"]

/-- The keys of the public channels. -/
def presets : List ChannelKey :=
  presetNames.filterMap fun name => (ofSecret name defaultSecret).toOption

end ChannelKey

end MeshWatch
