import Syrotp.Misc.JsText
import Syrotp.Misc.Pattern

/-!
# What the CLI shows of a value

`redactValue` of `config.ts` and `maskForDisplay` of `checks/index.ts` in `packages/cli`, and the
connection URLs that are shown: what `new URL` takes apart for these schemes.
-/

namespace Syrotp.Cli

/-- Letters without regard to case, where the pattern is all ASCII. -/
def asciiLower (s : Text) : Text := s.map fun c => if 65 ≤ c ∧ c ≤ 90 then c + 32 else c

/-! ## Redaction -/

/-- `/SECRET|PASSWORD|TOKEN|KEY/i`. -/
def credentialName (name : Text) : Bool :=
  [text "secret", text "password", text "token", text "key"].any fun word =>
    (asciiLower name).tails.any word.isPrefixOf

/-- `/^postgres(ql)?:\/\//i` and `/^redis:\/\//i`. -/
def redactedPrefixes : List Text := [text "postgres://", text "postgresql://", text "redis://"]

def hasCredentials (value : Text) : Bool :=
  redactedPrefixes.any fun start => start.isPrefixOf (asciiLower value)

def colon : UInt16 := 58
def slash : UInt16 := 47
def atSign : UInt16 := 64

/-- `[^@/]`. -/
def credentialChar (c : UInt16) : Bool := c != atSign && c != slash

/-- `/(:\/\/)[^@/]+(@)/`. -/
def credentials : List (Piece UInt16) :=
  [.lit (text "://"), .many1 credentialChar, .lit [atSign]]

/-- `value.replace(…, "$1***$2")`. -/
def withoutCredentials (value : Text) : Text :=
  replaceFirst credentials (fun _ => text "://***@") value

/-- `"[REDACTED]"`, or the ends of what is longer than eight. -/
def ends (value : Text) : Text :=
  if value.length ≤ 8 then text "[REDACTED]"
  else value.take 4 ++ text "***" ++ value.drop (value.length - 2)

/-- The two have the same body. -/
def masked (name value : Text) : Text :=
  if credentialName name then ends value
  else if hasCredentials value then withoutCredentials value
  else value

def redactValue (name value : Text) : Text := masked name value

def maskForDisplay (name value : Text) : Text := masked name value

/-! ## Connection URLs -/

/-- The schemes that the drivers of the server take. -/
inductive ConnectionScheme where
  | postgres
  | postgresql
  | redis
  | rediss
  deriving DecidableEq, Repr

def ConnectionScheme.text : ConnectionScheme → Text
  | .postgres => Syrotp.text "postgres"
  | .postgresql => Syrotp.text "postgresql"
  | .redis => Syrotp.text "redis"
  | .rediss => Syrotp.text "rediss"

/-- What is read of the start of a URL: C0 controls and spaces in front of it are stripped, and tabs
and newlines anywhere. -/
def readStart (s : Text) : Text :=
  (s.dropWhile fun c => c ≤ 32).filter fun c => c != 9 && c != 10 && c != 13

/-- The characters that end the part of a URL where the credentials stand: `/`, `?` and `#`. -/
def endsAuthority (c : UInt16) : Bool := c == slash || c == 63 || c == 35

/-- A connection URL without its password. The credentials end at the last `@` before the first
`/`, `?` or `#`, and the password begins after their first `:`; other characters may stand for
themselves. -/
structure ConnectionUrl where
  scheme : ConnectionScheme
  /-- The scheme and `://`, as they are written. -/
  head : Text
  username : Text
  /-- The host and what follows. -/
  location : Text
  head_reads : readStart (asciiLower head) = scheme.text ++ text "://"
  head_ends : head.getLast? = some slash
  username_free : ∀ c ∈ username, endsAuthority c = false ∧ c ≠ colon
  host_there : ∃ c ∈ location.head?, endsAuthority c = false ∧ c ≠ colon
  host_free : atSign ∉ location.takeWhile fun c => !endsAuthority c

/-- A password that is written as it is. -/
structure Password where
  chars : Text
  free : ∀ c ∈ chars, endsAuthority c = false

def ConnectionUrl.value (u : ConnectionUrl) (password : Password) : Text :=
  u.head ++ u.username ++ colon :: password.chars ++ atSign :: u.location

/-- The variables that hold one. -/
def connectionVars : List Text := [text "DATABASE_URL", text "REDIS_URL"]

end Syrotp.Cli
