import Syrotp.Server.GatewayRequest

/-!
# The client of the Android gateway

`Crypto.kt`, `KeystoreSigner.kt` and `SyrotpClient.postSigned`.
-/

namespace Syrotp.Android

/-- `Crypto.HEX`. -/
def HEX : Text := text "0123456789abcdef"

/-- `Crypto.hexEncode`. -/
def hexEncode (bytes : List UInt8) : Text :=
  bytes.flatMap fun b => [HEX.getD (b.toNat >>> 4) 0, HEX.getD (b.toNat &&& 0x0f) 0]

/-- `Crypto.sha256Hex`. -/
def sha256Hex (P : Primitives) (input : List UInt8) : Text := hexEncode (P.sha256 input)

/-- `KeystoreSigner.importKey`: the bytes that the keystore keeps. -/
def importKey (P : Primitives) (rawKey : Text) : List UInt8 := P.utf8 rawKey

/-- `KeystoreSigner.sign`. -/
def sign (P : Primitives) (key payload : List UInt8) : List UInt8 := P.hmacSha256 key payload

/-- The request of `postSigned`: `millis` is the clock and `random` the 16 bytes of the nonce. -/
def postSigned (P : Primitives) (receiverId : Text) (key : List UInt8) (jsonBody : Text)
    (millis : Int) (random : List UInt8) : HttpRequest :=
  let body := P.utf8 jsonBody
  let ts := Text.ofInt (millis.tdiv 1000)
  let nonce := hexEncode random
  let bodyHash := sha256Hex P body
  let sigBytes := sign P key (P.utf8 (ts ++ text "." ++ nonce ++ text "." ++ bodyHash))
  let sig := hexEncode sigBytes
  { contentType := text "application/json", receiver := receiverId, timestamp := ts, nonce,
    signature := sig, body }

/-- It is the hexadecimal that the server prints. -/
theorem hexEncode_eq_hex (bytes : List UInt8) : hexEncode bytes = hex bytes := by
  have byte : ∀ n : Fin 256, [HEX.getD (n.val >>> 4) 0, HEX.getD (n.val &&& 0x0f) 0] =
      [hexDigit (n.val / 16), hexDigit (n.val % 16)] := by decide +kernel
  unfold hexEncode hex
  apply congrFun
  exact congrArg List.flatMap (funext fun b => byte ⟨b.toNat, b.toNat_lt⟩)

end Syrotp.Android
