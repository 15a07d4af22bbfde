import Syrotp.Misc.Base64
import Syrotp.Misc.Digest
import Syrotp.Misc.IpLiteral
import Syrotp.Misc.Utf8

/-!
# Encryption at rest

`lib/aead.ts`: what is kept in the database of a signing key or a webhook secret. AES-256-GCM is a
parameter, an ideal cipher with an authentication tag.
-/

namespace Syrotp

/-! ## The cipher -/

/-- AES-256-GCM as `node:crypto` has it: each key and IV give a permutation of the byte strings, and
a tag of 16 bytes goes over the associated data and the ciphertext. -/
structure Gcm where
  encrypt : (key iv plaintext : List UInt8) → List UInt8
  decrypt : (key iv ciphertext : List UInt8) → List UInt8
  tag : (key iv aad ciphertext : List UInt8) → List UInt8
  /-- The lengths of an IV that `createDecipheriv` does not throw for. -/
  permitsIv : Nat → Bool
  decrypt_encrypt : ∀ key iv plaintext, decrypt key iv (encrypt key iv plaintext) = plaintext
  encrypt_decrypt : ∀ key iv ciphertext, encrypt key iv (decrypt key iv ciphertext) = ciphertext
  tag_length : ∀ key iv aad ciphertext, (tag key iv aad ciphertext).length = 16
  permitsIv_12 : permitsIv 12 = true

/-- What `wrap` and `unwrap` throw. -/
inductive AeadError where
  | badWrapFormat
  | masterKeyLength
  | invalidIv
  | invalidAuthTag
  | unauthenticated
  deriving DecidableEq, Repr

/-- What `randomBytes(12)` gives. -/
abbrev Iv := { iv : List UInt8 // iv.length = 12 }

/-- The lengths of a tag that `setAuthTag` does not throw for when no `authTagLength` was given. -/
def permitsTag (n : Nat) : Bool := n = 4 || n = 8 || (12 ≤ n && n ≤ 16)

/-- `createDecipheriv`, `setAAD`, `setAuthTag`, `update` and `final`: only the bytes of the tag that
were supplied are compared. -/
def Gcm.decipher (G : Gcm) (key iv aad tag ct : List UInt8) : Except AeadError (List UInt8) :=
  if !G.permitsIv iv.length then .error .invalidIv
  else if !permitsTag tag.length then .error .invalidAuthTag
  else if (G.tag key iv aad ct).take tag.length = tag then .ok (G.decrypt key iv ct)
  else .error .unauthenticated

/-! ## Encodings -/

/-- The value of a digit in hexadecimal. -/
def hexValue (c : UInt16) : Option Nat :=
  if 48 ≤ c ∧ c ≤ 57 then some (c.toNat - 48)
  else if 97 ≤ c ∧ c ≤ 102 then some (c.toNat - 87)
  else if 65 ≤ c ∧ c ≤ 70 then some (c.toNat - 55)
  else none

/-- `Buffer.from(s, "hex")`: it stops at the first pair that is not one of digits. -/
def fromHex : Text → List UInt8
  | a :: b :: rest =>
    match hexValue a, hexValue b with
    | some high, some low => (high * 16 + low).toUInt8 :: fromHex rest
    | _, _ => []
  | _ => []

/-- `s.replace` of every `c` by `d`. -/
def Text.replaceAll (c d : UInt16) (s : Text) : Text := s.map fun x => if x = c then d else x

/-- `b64u`. -/
def b64u (buf : List UInt8) : Text :=
  let urlSafe := Text.replaceAll 47 95 (Text.replaceAll 43 45 (base64 buf))
  (urlSafe.reverse.dropWhile (· = 61)).reverse

/-- `b64uDecode`. -/
def b64uDecode (s : Text) : List UInt8 :=
  let pad := if s.length % 4 = 0 then [] else List.replicate (4 - s.length % 4) 61
  fromBase64 (Text.replaceAll 95 47 (Text.replaceAll 45 43 s) ++ pad)

example : b64u [0xfb, 0xff] = text "-_8" := by decide +kernel

/-! ## Wrapping -/

/-- `VERSION`. -/
def aeadVersion : Text := text "v1"

/-- The three parts of a wrapped value. -/
structure WrapParts where
  iv : List UInt8
  tag : List UInt8
  ct : List UInt8
  deriving DecidableEq, Repr

/-- The template literal of `wrap`. -/
def WrapParts.format (w : WrapParts) : Text :=
  [dot].intercalate [aeadVersion, b64u w.iv, b64u w.tag, b64u w.ct]

/-- What `unwrap` takes a string apart into. -/
def parseWrapped (wrapped : Text) : Option WrapParts :=
  match wrapped.splitOn dot with
  | [version, iv, tag, ct] =>
    if version = aeadVersion then some ⟨b64uDecode iv, b64uDecode tag, b64uDecode ct⟩ else none
  | _ => none

/-- The associated data that is set. None and the empty string are not. -/
def aadBytes (aad : Option Text) : List UInt8 := toUtf8 (aad.getD [])

/-- What `wrap` makes of a plaintext before it writes it out. -/
def Gcm.seal (G : Gcm) (key : List UInt8) (plaintext : Text) (aad : Option Text) (iv : Iv) :
    WrapParts :=
  let ct := G.encrypt key iv (toUtf8 plaintext)
  ⟨iv, G.tag key iv (aadBytes aad) ct, ct⟩

/-- `wrap`, with the IV it drew. -/
def wrap (G : Gcm) (masterKeyHex plaintext : Text) (aad : Option Text) (iv : Iv) :
    Except AeadError Text :=
  let key := fromHex masterKeyHex
  if key.length ≠ 32 then .error .masterKeyLength
  else .ok (G.seal key plaintext aad iv).format

/-- `unwrap`. -/
def unwrap (G : Gcm) (masterKeyHex wrapped : Text) (aad : Option Text) : Except AeadError Text :=
  match parseWrapped wrapped with
  | none => .error .badWrapFormat
  | some w =>
    let key := fromHex masterKeyHex
    if key.length ≠ 32 then .error .masterKeyLength
    else (G.decipher key w.iv (aadBytes aad) w.tag w.ct).map fromUtf8

end Syrotp
