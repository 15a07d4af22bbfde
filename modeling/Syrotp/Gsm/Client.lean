import Syrotp.Server.GatewayRequest

/-!
# The client of the GSM gateway

`crypto.py` and the part of `client.py` that posts a signed request.
-/

namespace Syrotp.Gsm

/-- `sha256_hex`. -/
def sha256Hex (P : Primitives) (data : List UInt8) : Text := hex (P.sha256 data)

/-- `hmac_sha256_hex`. -/
def hmacSha256Hex (P : Primitives) (key payload : Text) : Text :=
  hex (P.hmacSha256 (P.utf8 key) (P.utf8 payload))

/-- `build_signature`: the timestamp, the nonce and the signature. `time` is the clock in seconds
and `random` the 16 bytes that `random_nonce_hex` draws. -/
def buildSignature (P : Primitives) (signingKey : Text) (rawBody : List UInt8)
    (timestamp : Option Int) (nonce : Option Text) (time : Int) (random : List UInt8) :
    Text × Text × Text :=
  let ts := Text.ofInt (timestamp.getD time)
  let n := nonce.getD (hex random)
  let bodyHash := sha256Hex P rawBody
  let payload := ts ++ text "." ++ n ++ text "." ++ bodyHash
  (ts, n, hmacSha256Hex P signingKey payload)

/-- The request of `post_signed` for these body bytes. -/
def signedRequest (P : Primitives) (receiver signingKey : Text) (body : List UInt8)
    (timestamp : Option Int) (nonce : Option Text) (time : Int) (random : List UInt8) :
    HttpRequest :=
  let signed := buildSignature P signingKey body timestamp nonce time random
  { contentType := text "application/json", receiver, timestamp := signed.1,
    nonce := signed.2.1, signature := signed.2.2, body }

end Syrotp.Gsm
