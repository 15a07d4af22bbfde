import Syrotp.Server.Schema

/-!
# Configuration, phone numbers and what lies outside the repository

`config.ts` bounds each setting when the process boots; `Config` carries the bounds. `Platform`
collects the functions the server calls whose code is not here: the Unicode case mapping of the
JavaScript engine and the parser of libphonenumber. `World` is what the outside answers while one
statement runs.
-/

namespace Syrotp

/-- The settings of `config.ts` that the modelled services read. -/
structure Config where
  verificationTtlSeconds : Nat
  verificationCodeLength : Nat
  maxPendingPerPhone : Nat
  phoneBindingTtlSeconds : Nat
  receiverHeartbeatTimeoutSeconds : Nat
  inboundTimestampSkewSeconds : Nat
  defaultPhoneRegion : Text
  verificationTtl_range : 60 ≤ verificationTtlSeconds ∧ verificationTtlSeconds ≤ 3600
  codeLength_range : 4 ≤ verificationCodeLength ∧ verificationCodeLength ≤ 12
  maxPending_range : 1 ≤ maxPendingPerPhone ∧ maxPendingPerPhone ≤ 20
  phoneBindingTtl_range : 60 ≤ phoneBindingTtlSeconds ∧ phoneBindingTtlSeconds ≤ 900
  heartbeatTimeout_range : 30 ≤ receiverHeartbeatTimeoutSeconds
  timestampSkew_range : 30 ≤ inboundTimestampSkewSeconds ∧ inboundTimestampSkewSeconds ≤ 900

/-- The defaults of `config.ts`. -/
def Config.default : Config where
  verificationTtlSeconds := 600
  verificationCodeLength := 6
  maxPendingPerPhone := 3
  phoneBindingTtlSeconds := 300
  receiverHeartbeatTimeoutSeconds := 120
  inboundTimestampSkewSeconds := 300
  defaultPhoneRegion := text "SY"
  verificationTtl_range := by decide
  codeLength_range := by decide
  maxPending_range := by decide
  phoneBindingTtl_range := by decide
  heartbeatTimeout_range := by decide
  timestampSkew_range := by decide

/-- `getType()` of libphonenumber, as far as `normalizePhone` tells the types apart. -/
inductive NumberType where
  | premiumRate
  | sharedCost
  | other
  deriving DecidableEq, Repr

/-- What `parsePhoneNumberFromString` returns for a number it recognises. -/
structure ParsedPhone where
  number : Text
  nationalNumber : Text
  country : Option Text
  isValid : Bool
  type : NumberType
  deriving DecidableEq, Repr

/-- The functions whose code is not in the repository. -/
structure Platform where
  toUpperCase : Text → Text
  parsePhoneNumberFromString : Text → Text → Option ParsedPhone

structure Env where
  platform : Platform
  config : Config

/-- What the outside answers while one statement runs: the process clock, the database clock,
the ULIDs and random numbers drawn in order, and which of several equally good rows a query
puts first. -/
structure World where
  now : Time
  dbNow : Time
  ulid : Nat → Nat
  random : Nat → Nat
  tie : Nat

/-- `NormalizedPhone` of `lib/phone.ts`. -/
structure NormalizedPhone where
  e164 : Text
  national : Text
  country : Text
  deriving DecidableEq, Repr

/-- The codes of `PhoneError`. -/
inductive PhoneError where
  | invalidPhone
  | phoneTypeNotAllowed
  deriving DecidableEq, Repr

/-- `normalizePhone` of `lib/phone.ts`. -/
def normalizePhone (P : Platform) (raw defaultRegion : Text) :
    Except PhoneError NormalizedPhone :=
  let trimmed := Text.trim raw
  if trimmed.length < 5 ∨ 20 < trimmed.length then .error .invalidPhone
  else
    match P.parsePhoneNumberFromString trimmed defaultRegion with
    | none => .error .invalidPhone
    | some parsed =>
      if !parsed.isValid then .error .invalidPhone
      else if parsed.type = .premiumRate ∨ parsed.type = .sharedCost then
        .error .phoneTypeNotAllowed
      else .ok ⟨parsed.number, parsed.nationalNumber, parsed.country.getD defaultRegion⟩

/-- `p` is the E.164 form of something `normalizePhone` accepts. -/
def Normalized (env : Env) (p : Text) : Prop :=
  ∃ raw n, normalizePhone env.platform raw env.config.defaultPhoneRegion = .ok n ∧ n.e164 = p

/-- libphonenumber reads an E.164 number it printed back as that number. -/
def NormalizeIdempotent (env : Env) : Prop :=
  ∀ p, Normalized env p →
    ∃ n, normalizePhone env.platform p env.config.defaultPhoneRegion = .ok n ∧ n.e164 = p

/-- `maskPhone` of `lib/phone.ts`. -/
def maskPhone (e164 : Text) : Text :=
  if !Text.startsWith e164 (text "+") || e164.length < 7 then text "***"
  else
    let keepFront := min 6 (e164.length - 4)
    let keepBack := 3
    e164.take keepFront ++ List.replicate (e164.length - keepFront - keepBack) 42 ++
      e164.drop (e164.length - keepBack)

example : maskPhone (text "+963991234567") = text "+96399****567" := by decide

/-- A platform for ASCII text and for numbers already in E.164 form. -/
def Platform.ascii : Platform where
  toUpperCase := Text.asciiUpper
  parsePhoneNumberFromString raw _ :=
    match raw with
    | 43 :: digits =>
      if digits.all fun c => 48 ≤ c && c ≤ 57 then
        some ⟨raw, digits.drop 3, some (text "SY"), true, .other⟩
      else none
    | _ => none

def Env.ascii : Env := ⟨.ascii, .default⟩

/-- The ASCII platform recognises a number exactly when it is `+` and digits. -/
theorem ascii_parse_eq_some {raw region : Text} {parsed : ParsedPhone}
    (h : Platform.ascii.parsePhoneNumberFromString raw region = some parsed) :
    parsed.number = raw ∧ parsed.isValid = true ∧ parsed.type = .other ∧
      ∀ c ∈ raw, Text.isSpace c = false := by
  simp only [Platform.ascii] at h
  split at h
  · next digits =>
    simp only [Option.ite_none_right_eq_some, Option.some.injEq, List.all_eq_true] at h
    obtain ⟨all, rfl⟩ := h
    refine ⟨rfl, rfl, rfl, fun c hc => ?_⟩
    rcases List.mem_cons.mp hc with rfl | hc
    · decide
    · exact Text.digit_not_space (all c hc)
  · exact nomatch h

theorem normalizeIdempotent_ascii : NormalizeIdempotent .ascii := by
  rintro p ⟨raw, n, ok, rfl⟩
  simp only [normalizePhone, Env.ascii] at ok ⊢
  split at ok
  · exact nomatch ok
  · next range =>
    split at ok
    · exact nomatch ok
    · next parsed recognised =>
      obtain ⟨number, valid, type, spaceless⟩ := ascii_parse_eq_some recognised
      simp only [valid, type, Bool.not_true, Bool.false_eq_true, reduceIte, reduceCtorEq,
        or_self, Except.ok.injEq] at ok
      obtain rfl := ok
      rw [number, Text.trim_eq_self spaceless, if_neg range, recognised]
      simp [valid, type, number]

end Syrotp
