import Syrotp.Server.Hmac
import Syrotp.Misc.Digest

/-!
# Signed requests on the wire

What a gateway posts and what the server reads of it: the headers by `readGatewayHeaders` of
`routes/inbound.ts`, the body by `plugins/rawBody.ts`, which keeps the bytes as they came.
-/

namespace Syrotp

/-- A `POST` with the headers that the gateway routes read. -/
structure HttpRequest where
  contentType : Text
  receiver : Option Text
  timestamp : Option Text
  nonce : Option Text
  signature : Option Text
  body : List UInt8

/-- `request.rawBody` of the plugin, which parses only this content type. -/
def rawBody (req : HttpRequest) : Option (List UInt8) :=
  if req.contentType = text "application/json" then some req.body else none

/-- A header that is there and is not empty. -/
def header : Option Text → Option Text
  | some [] => none
  | h => h

/-- What `/v1/inbound/sms` hands to `verifyGatewayHmac`, if it gets so far. -/
def gatewayInput (req : HttpRequest) : Option VerifyHmacInput :=
  match header req.receiver, header req.timestamp, header req.nonce, header req.signature with
  | some receiverId, some timestamp, some nonce, some signature =>
    if !isReceiverId receiverId then none
    else (rawBody req).map fun body => ⟨receiverId, timestamp, nonce, signature, body⟩
  | _, _, _, _ => none

/-- `lib/crypto.ts`: digests as lower-case hexadecimal, of the UTF-8 bytes of strings. -/
def Primitives.crypto (P : Primitives) (unwrap : Text → Text → Option Text) : Crypto where
  sha256Hex data := hex (P.sha256 data)
  hmacSha256Hex key message := hex (P.hmacSha256 (P.utf8 key) (P.utf8 message))
  unwrap := unwrap

end Syrotp
