import Syrotp.Server.Aead

/-!
# The door of the admin dashboard

`admin/web/passwords.ts`, and what `admin/web/plugin.ts` makes of the two settings. `scrypt` of
`node:crypto` is a parameter.
-/

namespace Syrotp

/-- `scrypt` with the costs of the module: password, salt and length of the key. It is `none` where
the function throws. -/
structure Scrypt where
  derive : List UInt8 → List UInt8 → Nat → Option (List UInt8)
  derive_length : ∀ password salt n key, derive password salt n = some key → key.length = n

/-- `SCRYPT_KEYLEN`. -/
def scryptKeylen : Nat := 64

/-- The salt of `hashAdminPassword`: the one it is given, or the bytes drawn. -/
def adminSalt (saltHex : Option Text) (random : List UInt8) : List UInt8 :=
  match saltHex with
  | none => random
  | some s => if s.isEmpty then random else fromHex s

/-- `hashAdminPassword`, which throws for an empty password. -/
def hashAdminPassword (S : Scrypt) (password : Text) (saltHex : Option Text)
    (random : List UInt8) : Option Text :=
  if password.isEmpty then none
  else
    let salt := adminSalt saltHex random
    (S.derive (toUtf8 password) salt scryptKeylen).map fun key =>
      text "scrypt$" ++ hex salt ++ text "$" ++ hex key

/-- `safeHexToBuffer`. -/
def safeHexToBuffer (s : Text) : Option (List UInt8) :=
  if s.isEmpty || !s.all Text.isHexDigit || s.length % 2 != 0 then none else some (fromHex s)

/-- `verifyAdminPassword`. -/
def verifyAdminPassword (S : Scrypt) (stored candidate : Text) : Bool :=
  match stored.splitOn 36 with
  | [scheme, saltHex, keyHex] =>
    if scheme ≠ text "scrypt" then false
    else
      match safeHexToBuffer saltHex, safeHexToBuffer keyHex with
      | some salt, some expected =>
        if expected.isEmpty then false
        else
          match S.derive (toUtf8 candidate) salt expected.length with
          | none => false
          | some derived => derived = expected
      | _, _ => false
  | _ => false

/-! ## The settings -/

/-- `ADMIN_USER` and `ADMIN_PASSWORD_HASH`, empty where they are not set. -/
structure AdminSettings where
  user : Text
  passwordHash : Text

/-- `HASH_RE`: `/^scrypt\$[0-9a-fA-F]{16,128}\$[0-9a-fA-F]{32,256}$/`. -/
def isPasswordHash (s : Text) : Bool :=
  let salt := (s.drop 7).takeWhile Text.isHexDigit
  let rest := (s.drop 7).dropWhile Text.isHexDigit
  let key := rest.drop 1
  Text.startsWith s (text "scrypt$") && (16 ≤ salt.length && salt.length ≤ 128) &&
    rest.head? == some 36 && key.all Text.isHexDigit && (32 ≤ key.length && key.length ≤ 256)

/-- Whether the routes are mounted. -/
def AdminSettings.mounted (s : AdminSettings) : Bool :=
  !s.user.isEmpty && !s.passwordHash.isEmpty && isPasswordHash s.passwordHash

/-- `compareUser`, which compares bytes. -/
def compareUser (s : AdminSettings) (candidate : Text) : Bool :=
  let cb := toUtf8 candidate
  let expectedUserBuf := toUtf8 s.user
  if cb.length ≠ expectedUserBuf.length then false else cb = expectedUserBuf

/-- `validate`: both comparisons are made, whichever fails. -/
def AdminSettings.validate (s : AdminSettings) (S : Scrypt) (username password : Text) : Bool :=
  let userOk := compareUser s username
  let passOk := verifyAdminPassword S s.passwordHash password
  userOk && passOk

end Syrotp
