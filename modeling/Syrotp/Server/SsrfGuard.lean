import Syrotp.Misc.IpLiteral

/-!
# The SSRF guard

`lib/ssrfGuard.ts`: which addresses and host names a webhook may not reach, the check of a URL
when its endpoint is created, and the lookup hook of the agent that delivers to it.
-/

namespace Syrotp

/-! ## IPv4 -/

/-- `Number(s)` of digits. It is asked of nothing else. -/
def Text.toNumber (s : Text) : Option Nat :=
  if s ≠ [] ∧ s.all Text.isDigit then some (Text.decimal s) else none

/-- One turn of the loop in `ipv4ToUint32`. -/
def addOctet (out : Nat) (p : Text) : Option Nat :=
  if p.length = 0 ∨ 3 < p.length then none
  else
    match Text.toNumber p with
    | none => none
    | some n => if 255 < n then none else some (out * 256 + n)

/-- `ipv4ToUint32`. -/
def ipv4ToUint32 (ip : Text) : Option Nat :=
  let parts := ip.splitOn dot
  if parts.length ≠ 4 then none
  else (parts.foldlM addOctet 0).map (· % 2 ^ 32)

structure V4Range where
  network : Nat
  prefixLength : Nat
  deriving DecidableEq, Repr

/-- `v4`, `none` where it throws. -/
def v4 (cidr : Text) : Option V4Range :=
  match cidr.splitOn 47 with
  | addr :: prefixStr :: _ =>
    match ipv4ToUint32 addr, Text.toNumber prefixStr with
    | some network, some prefixLength =>
      if 32 < prefixLength then none else some ⟨network, prefixLength⟩
    | _, _ => none
  | _ => none

/-- `BLOCKED_V4_RANGES`. -/
def blockedV4Ranges : List V4Range :=
  (["0.0.0.0/8", "10.0.0.0/8", "100.64.0.0/10", "127.0.0.0/8", "169.254.0.0/16", "172.16.0.0/12",
    "192.168.0.0/16"].map text).filterMap v4

/-- `v4InRange`. -/
def v4InRange (addr : Nat) (r : V4Range) : Bool :=
  if r.prefixLength = 0 then true
  else
    let mask := if r.prefixLength = 32 then 0xffffffff
      else 0xffffffff <<< (32 - r.prefixLength) % 2 ^ 32
    addr &&& mask = r.network &&& mask

/-- `isBlockedV4`. -/
def isBlockedV4 (ip : Text) : Bool :=
  match ipv4ToUint32 ip with
  | none => false
  | some n => blockedV4Ranges.any (v4InRange n)

/-! ## IPv6 -/

/-- `/^\d{1,3}\.\d{1,3}\.\d{1,3}\.\d{1,3}$/`. -/
def isDottedQuad (s : Text) : Bool :=
  (s.splitOn dot).length = 4 &&
    (s.splitOn dot).all fun p => p.all Text.isDigit && (1 ≤ p.length && p.length ≤ 3)

/-- What `.` does not match. -/
def isLineTerminator (c : UInt16) : Bool := c == 10 || c == 13 || c == 0x2028 || c == 0x2029

/-- `ip.match(/(.*:)(\d{1,3}\.\d{1,3}\.\d{1,3}\.\d{1,3})$/)`: what the two groups capture. -/
def v4Tail (ip : Text) : Option (Text × Text) :=
  let quad := (ip.reverse.takeWhile (· ≠ colon)).reverse
  let before := ip.reverse.dropWhile (· ≠ colon)
  if before ≠ [] ∧ isDottedQuad quad then
    some ((before.takeWhile fun c => !isLineTerminator c).reverse, quad)
  else none

/-- The numbers of groups, if all are `/^[0-9a-fA-F]{1,4}$/`. -/
def parseGroups (raw : List Text) : Option (List Nat) :=
  if raw.all isHextet then some (raw.map Text.hexadecimal) else none

/-- `ipv6Groups` once it has split the groups: those before `::`, if that is there, those after it
and those of the dotted tail. -/
def joinGroups (leftRaw rightRaw : List Text) (compressed : Bool) (trailingGroups : List Nat) :
    Option (List Nat) :=
  let explicit := leftRaw.length + rightRaw.length + trailingGroups.length
  if 8 < explicit then none
  else
    let zeros := if compressed then 8 - explicit else 0
    match parseGroups leftRaw, parseGroups rightRaw with
    | some left, some right =>
      let out := left ++ List.replicate zeros 0 ++ right ++ trailingGroups
      if out.length ≠ 8 then none else some out
    | _, _ => none

/-- `ipv6Groups` once it has taken off the dotted tail. -/
def expandGroups (head : Text) (trailingGroups : List Nat) : Option (List Nat) :=
  match Text.cut gap head with
  | none => joinGroups (Text.fields colon head) [] false trailingGroups
  | some (left, right) =>
    joinGroups (Text.fields colon left) (Text.fields colon right) true trailingGroups

/-- `ipv6Groups`. -/
def ipv6Groups (ip : Text) : Option (List Nat) :=
  match v4Tail ip with
  | none => expandGroups ip []
  | some (before, quad) =>
    let stripped := if before.getLast? = some colon then before.dropLast else before
    let head := if stripped = [] then gap else stripped
    match ipv4ToUint32 quad with
    | none => none
    | some v4n => expandGroups head [v4n >>> 16 &&& 0xffff, v4n &&& 0xffff]

/-- `stripped.match(/^::ffff:(\d{1,3}\.\d{1,3}\.\d{1,3}\.\d{1,3})$/i)`: what the group captures. -/
def mappedQuad (stripped : Text) : Option Text :=
  if Text.asciiUpper (stripped.take 7) = text "::FFFF:" ∧ isDottedQuad (stripped.drop 7) then
    some (stripped.drop 7)
  else none

/-- The template literal of the address with these 32 bits. -/
def dottedQuad (v4Num : Nat) : Text :=
  [dot].intercalate
    ([v4Num >>> 24 &&& 0xff, v4Num >>> 16 &&& 0xff, v4Num >>> 8 &&& 0xff, v4Num &&& 0xff].map
      fun (n : Nat) => Text.ofInt n)

/-- `isBlockedV6` once it has the groups. -/
def isBlockedGroups (groups : List Nat) : Bool :=
  let group := fun i => groups.getD i 0
  if groups.all (· = 0) then true
  else if (groups.take 7).all (· = 0) && group 7 = 1 then true
  else if group 0 &&& 0xffc0 = 0xfe80 then true
  else if group 0 &&& 0xfe00 = 0xfc00 then true
  else if group 0 = 0 ∧ group 1 = 0 ∧ group 2 = 0 ∧ group 3 = 0 ∧ group 4 = 0 ∧
      group 5 = 0xffff then
    isBlockedV4 (dottedQuad (group 6 <<< 16 ||| group 7))
  else false

/-- `isBlockedV6`. -/
def isBlockedV6 (ip : Text) : Bool :=
  let stripped := ip.takeWhile (· ≠ percent)
  match mappedQuad stripped with
  | some quad => isBlockedV4 quad
  | none =>
    match ipv6Groups stripped with
    | none => false
    | some groups => isBlockedGroups groups

/-- `isBlockedIp`. -/
def isBlockedIp (ip : Text) : Bool :=
  if isIP ip = 4 then isBlockedV4 ip
  else if isIP ip = 6 then isBlockedV6 ip
  else false

example : isBlockedIp (text "169.254.169.254") = true := by decide +kernel

/-! ## Host names -/

/-- A `URL`, as far as it is looked at. -/
structure ParsedUrl where
  protocol : Text
  username : Text
  password : Text
  hostname : Text
  deriving DecidableEq, Repr

/-- `new URL`, `none` where it throws, and `toLowerCase`. -/
structure UrlPlatform where
  newURL : Text → Option ParsedUrl
  toLowerCase : Text → Text

structure LookupAddress where
  address : Text
  family : Nat
  deriving DecidableEq, Repr

/-- The answers of `dns.lookup` with and without `all`, `none` where it fails. -/
structure Resolver where
  all : Text → Option (List LookupAddress)
  first : Text → Option LookupAddress

/-- `s.endsWith(p)`. -/
def Text.endsWith (s p : Text) : Bool := p.isSuffixOf s

/-- `isBlockedHostname`. -/
def isBlockedHostname (P : UrlPlatform) (host : Text) : Bool :=
  let h := P.toLowerCase host
  h = text "localhost" || [text ".local", text ".internal"].any (Text.endsWith h)

/-- An IPv6 host of a URL is in brackets. -/
def stripBrackets (rawHost : Text) : Text :=
  if Text.startsWith rawHost (text "[") && Text.endsWith rawHost (text "]") then
    (rawHost.drop 1).dropLast
  else rawHost

inductive WebhookValidationCode where
  | webhookUrlBlocked
  | webhookUrlInvalid
  deriving DecidableEq, Repr

/-- `WebhookValidationError`. -/
structure WebhookValidationError where
  code : WebhookValidationCode
  message : String
  deriving DecidableEq, Repr

def urlBlocked (message : String) : WebhookValidationError := ⟨.webhookUrlBlocked, message⟩

/-- `assertWebhookUrlSafe`. -/
def assertWebhookUrlSafe (P : UrlPlatform) (escapeHatchActive : Bool) (dns : Resolver)
    (parsed : ParsedUrl) : Except WebhookValidationError Unit :=
  if escapeHatchActive then .ok ()
  else if parsed.hostname = [] then .error ⟨.webhookUrlInvalid, "url has no host"⟩
  else
    let host := stripBrackets parsed.hostname
    if isIP host ≠ 0 then
      if isBlockedIp host then .error (urlBlocked "url targets a disallowed address range")
      else .ok ()
    else if isBlockedHostname P host then
      .error (urlBlocked "url targets a disallowed hostname")
    else
      match dns.all host with
      | none => .error (urlBlocked "url host could not be resolved")
      | some addrs =>
        if addrs.length = 0 then .error (urlBlocked "url host could not be resolved")
        else if addrs.any fun a => isBlockedIp a.address then
          .error (urlBlocked "url host resolves to a disallowed address")
        else .ok ()

/-! ## Connecting -/

/-- What the lookup hook passes as its error. -/
inductive LookupError where
  | ssrfBlockedAddress
  | ssrfBlockedHostname
  | unresolved
  deriving DecidableEq, Repr

/-- What the `connect.lookup` of `buildSafeAgent` decides. -/
def safeLookup (P : UrlPlatform) (allowAll : Bool) (dns : Resolver) (hostname : Text) :
    Except LookupError LookupAddress :=
  if allowAll then
    match dns.first hostname with
    | some a => .ok a
    | none => .error .unresolved
  else if isIP hostname ≠ 0 then
    if isBlockedIp hostname then .error .ssrfBlockedAddress
    else .ok ⟨hostname, isIP hostname⟩
  else if isBlockedHostname P hostname then .error .ssrfBlockedHostname
  else
    match dns.all hostname with
    | none => .error .unresolved
    | some addrs =>
      match addrs.find? fun a => !isBlockedIp a.address with
      | some a => .ok a
      | none => .error .ssrfBlockedAddress

/-- The options that `net.connect` hands to the hook. -/
structure LookupOptions where
  all : Option Bool
  family : Option Nat
  hints : Option Nat
  deriving DecidableEq, Repr

/-- The second argument of the callback: Node takes records where it asked for `all`. -/
inductive CallbackAddress where
  | string (address : Text)
  | records (addresses : List LookupAddress)
  deriving DecidableEq, Repr

/-- The arguments of one call of the callback. -/
structure CallbackArgs where
  err : Option LookupError
  address : CallbackAddress
  family : Nat
  deriving DecidableEq, Repr

/-- `cb(err, "", 0)`. -/
def refuse (err : LookupError) : CallbackArgs := ⟨some err, .string [], 0⟩

/-- `cb(null, a.address, a.family)`. -/
def handBack (a : LookupAddress) : CallbackArgs := ⟨none, .string a.address, a.family⟩

/-- The loop of the hook over the resolver's answers, and what follows it: the calls made. -/
def pickAllowed : List LookupAddress → List CallbackArgs
  | [] => [refuse .ssrfBlockedAddress]
  | a :: addrs => if !isBlockedIp a.address then [handBack a] else pickAllowed addrs

/-- The `connect.lookup` of `buildSafeAgent` call by call: what it calls `cb` with, once the
resolver has answered. -/
def lookup (P : UrlPlatform) (allowAll : Bool) (dns : Resolver) (hostname : Text)
    (_opts : LookupOptions) : List CallbackArgs :=
  if allowAll then
    match dns.first hostname with
    | some a => [handBack a]
    | none => [refuse .unresolved]
  else
    let fam := isIP hostname
    if fam ≠ 0 then
      if isBlockedIp hostname then [refuse .ssrfBlockedAddress]
      else [⟨none, .string hostname, fam⟩]
    else if isBlockedHostname P hostname then [refuse .ssrfBlockedHostname]
    else
      match dns.all hostname with
      | some addrs => pickAllowed addrs
      | none => [refuse .unresolved]

/-- `isUrlAllowedForDelivery` of `services/webhookWorker.ts`. -/
def isUrlAllowedForDelivery (P : UrlPlatform) (allowPrivate : Bool) (rawUrl : Text) : Bool :=
  match P.newURL rawUrl with
  | none => false
  | some parsed =>
    if parsed.protocol ≠ text "http:" ∧ parsed.protocol ≠ text "https:" then false
    else if allowPrivate then true
    else if parsed.hostname = [] then false
    else !isBlockedIp (stripBrackets parsed.hostname)

/-- `redirect` of the options of `fetch`. -/
inductive RequestRedirect where
  | follow
  | error
  | manual
  deriving DecidableEq, Repr

/-- The addresses that `fetch` with the agent opens connections to, where `locations` are the URLs
that it is redirected to: it parses a URL and leaves the host to `connect`, which is `net.connect`
with the hook. -/
def fetchOpens (P : UrlPlatform) (connect : Text → (Text → Except LookupError LookupAddress) →
    List Text) (allowAll : Bool) (dns : Resolver) (redirect : RequestRedirect)
    (locations : List Text) (url : Text) : List Text :=
  (url :: if redirect = .follow then locations else []).flatMap fun url =>
    match P.newURL url with
    | none => []
    | some parsed => connect (stripBrackets parsed.hostname) (safeLookup P allowAll dns)

end Syrotp
