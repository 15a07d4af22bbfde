import Syrotp.Server.AdminAuth
import Mathlib.Data.List.TakeWhile

/-!
# Who gets into the dashboard

What the settings say of the salt and the key is read back exactly, so the door lets in those whose
password has the stored key, and nobody where a part of the setting has an odd number of digits.
-/

namespace Syrotp

/-! ## Hexadecimal -/

theorem hexValue_hexDigit : ∀ n : Fin 16, hexValue (hexDigit n) = some n.val := by decide

theorem fromHex_hex (bytes : List UInt8) : fromHex (hex bytes) = bytes := by
  induction bytes with
  | nil => rfl
  | cons b rest ih =>
    have small := b.toNat_lt
    have high := hexValue_hexDigit ⟨b.toNat / 16, by omega⟩
    have low := hexValue_hexDigit ⟨b.toNat % 16, by omega⟩
    rw [hex_cons]
    simp only [fromHex, high, low, ih]
    rw [Nat.div_add_mod' b.toNat 16]
    simp

/-- Each pair of digits is a byte. -/
theorem fromHex_length {s : Text} (digits : s.all Text.isHexDigit = true) :
    (fromHex s).length = s.length / 2 := by
  have value : ∀ c, Text.isHexDigit c = true → ∃ v, hexValue c = some v := by
    intro c digit
    by_cases decimal : 48 ≤ c ∧ c ≤ 57
    · exact ⟨_, if_pos decimal⟩
    · by_cases lower : 97 ≤ c ∧ c ≤ 102
      · exact ⟨_, by rw [hexValue, if_neg decimal, if_pos lower]⟩
      · by_cases upper : 65 ≤ c ∧ c ≤ 70
        · exact ⟨_, by rw [hexValue, if_neg decimal, if_neg lower, if_pos upper]⟩
        · simp [Text.isHexDigit, Text.isDigit] at digit
          grind
  induction s using fromHex.induct with
  | case1 a b rest high low ha hb ih =>
    simp only [List.all_cons, Bool.and_eq_true] at digits
    simp only [fromHex, ha, hb, List.length_cons, ih digits.2.2]
    omega
  | case2 a b rest none =>
    simp only [List.all_cons, Bool.and_eq_true] at digits
    obtain ⟨v, hv⟩ := value a digits.1
    obtain ⟨w, hw⟩ := value b digits.2.1
    exact absurd hw (none v w hv)
  | case3 s short =>
    cases s with
    | nil => rfl
    | cons a rest =>
      cases rest with
      | nil => simp [fromHex]
      | cons b rest => exact absurd rfl (short a b rest)

theorem safeHexToBuffer_eq {s : Text} (some' : s ≠ []) (digits : s.all Text.isHexDigit = true) :
    safeHexToBuffer s = if s.length % 2 = 0 then some (fromHex s) else none := by
  unfold safeHexToBuffer
  by_cases even : s.length % 2 = 0
  · simp [digits, even, some']
  · simp [digits, even]

/-! ## The setting -/

/-- The parts of a setting of the shape the plugin asks for. -/
structure PasswordHash where
  saltHex : Text
  keyHex : Text
  saltDigits : saltHex.all Text.isHexDigit = true
  keyDigits : keyHex.all Text.isHexDigit = true
  saltLength : 16 ≤ saltHex.length ∧ saltHex.length ≤ 128
  keyLength : 32 ≤ keyHex.length ∧ keyHex.length ≤ 256

namespace PasswordHash

variable (h : PasswordHash)

def render : Text := text "scrypt$" ++ h.saltHex ++ text "$" ++ h.keyHex

theorem dollar_not_mem {s : Text} (digits : s.all Text.isHexDigit = true) : 36 ∉ s := by
  intro mem
  have digit := List.all_eq_true.mp digits 36 mem
  revert digit
  decide

theorem splitOn_render : h.render.splitOn 36 = [text "scrypt", h.saltHex, h.keyHex] := by
  have apart := dollar_not_mem h.saltDigits
  have apart' := dollar_not_mem h.keyDigits
  have rendered : h.render = [36].intercalate [text "scrypt", h.saltHex, h.keyHex] := by
    simp [render, text, List.intercalate, List.intersperse]
  rw [rendered]
  refine List.splitOn_intercalate 36 ?_ (List.cons_ne_nil _ _)
  intro part mem
  simp only [List.mem_cons, List.not_mem_nil, or_false] at mem
  rcases mem with rfl | rfl | rfl
  · decide
  · exact apart
  · exact apart'

/-- The salt ends where its digits do. -/
theorem isPasswordHash_render : isPasswordHash h.render = true := by
  have salt := List.all_eq_true.mp h.saltDigits
  have dropped : h.render.drop 7 = h.saltHex ++ 36 :: h.keyHex := by
    simp [render, text]
  have starts : Text.startsWith h.render (text "scrypt$") = true := by
    simp [Text.startsWith, render]
  have upTo : (h.saltHex ++ 36 :: h.keyHex).takeWhile Text.isHexDigit = h.saltHex := by
    rw [List.takeWhile_append_of_pos salt]
    simp [Text.isHexDigit, Text.isDigit]
  have after : (h.saltHex ++ 36 :: h.keyHex).dropWhile Text.isHexDigit = 36 :: h.keyHex := by
    rw [List.dropWhile_append_of_pos salt]
    simp [Text.isHexDigit, Text.isDigit]
  simp only [isPasswordHash, dropped, starts, upTo, after]
  simp [h.keyDigits, h.saltLength, h.keyLength]

theorem of_isPasswordHash {s : Text} (shape : isPasswordHash s = true) :
    ∃ h : PasswordHash, h.render = s := by
  simp only [isPasswordHash, Bool.and_eq_true, decide_eq_true_eq, beq_iff_eq] at shape
  obtain ⟨⟨⟨⟨starts, salt⟩, dollar⟩, digits⟩, key⟩ := shape
  obtain ⟨rest, rfl⟩ := List.isPrefixOf_iff_prefix.mp starts
  have dropped : (text "scrypt$" ++ rest).drop 7 = rest := List.drop_left' rfl
  rw [dropped] at salt dollar digits key
  refine ⟨⟨_, _, List.all_takeWhile, digits, salt, key⟩, ?_⟩
  have last : rest.dropWhile Text.isHexDigit = 36 :: (rest.dropWhile Text.isHexDigit).drop 1 := by
    cases after : rest.dropWhile Text.isHexDigit with
    | nil => rw [after] at dollar; cases dollar
    | cons c tail =>
      rw [after] at dollar
      simp only [List.head?_cons, Option.some.injEq] at dollar
      simp [dollar]
  show text "scrypt$" ++ _ ++ text "$" ++ _ = _
  rw [List.append_assoc, List.append_assoc]
  congr 1
  calc _ = rest.takeWhile Text.isHexDigit ++ 36 :: (rest.dropWhile Text.isHexDigit).drop 1 := rfl
    _ = rest.takeWhile Text.isHexDigit ++ rest.dropWhile Text.isHexDigit := by rw [← last]
    _ = rest := List.takeWhile_append_dropWhile

/-- What the door asks of a password, read off the setting. -/
def Opens (S : Scrypt) (password : Text) : Prop :=
  h.saltHex.length % 2 = 0 ∧ h.keyHex.length % 2 = 0 ∧
    S.derive (toUtf8 password) (fromHex h.saltHex) (h.keyHex.length / 2) = some (fromHex h.keyHex)

theorem verifyAdminPassword_render {S : Scrypt} {candidate : Text} :
    verifyAdminPassword S h.render candidate = true ↔ h.Opens S candidate := by
  have salt : h.saltHex ≠ [] := by
    intro none
    have long := h.saltLength.1
    simp [none] at long
  have key : h.keyHex ≠ [] := by
    intro none
    have long := h.keyLength.1
    simp [none] at long
  have length := fromHex_length h.keyDigits
  have bytes : (fromHex h.keyHex).isEmpty = false := by
    have long := h.keyLength.1
    rw [List.isEmpty_eq_false_iff, ← List.length_pos_iff]
    omega
  simp only [verifyAdminPassword, splitOn_render, safeHexToBuffer_eq salt h.saltDigits,
    safeHexToBuffer_eq key h.keyDigits, Opens]
  by_cases evenSalt : h.saltHex.length % 2 = 0
  · by_cases evenKey : h.keyHex.length % 2 = 0
    · simp only [evenSalt, evenKey, if_true, bytes, Bool.false_eq_true, if_false, length]
      cases S.derive (toUtf8 candidate) (fromHex h.saltHex) (h.keyHex.length / 2) with
      | none => simp
      | some derived => simp
    · simp [evenSalt, evenKey]
  · simp [evenSalt]

/-- What `hashAdminPassword` writes. -/
def ofBytes (salt key : List UInt8) (saltLength : 8 ≤ salt.length ∧ salt.length ≤ 64)
    (keyLength : 16 ≤ key.length ∧ key.length ≤ 128) : PasswordHash where
  saltHex := hex salt
  keyHex := hex key
  saltDigits := List.all_eq_true.mpr fun _ => isHexDigit_of_mem_hex
  keyDigits := List.all_eq_true.mpr fun _ => isHexDigit_of_mem_hex
  saltLength := by
    rw [hex_length]
    omega
  keyLength := by
    rw [hex_length]
    omega

theorem ofBytes_opens {S : Scrypt} {salt key : List UInt8} {password : Text} {sl kl} :
    (ofBytes salt key sl kl).Opens S password ↔
      S.derive (toUtf8 password) salt key.length = some key := by
  simp [Opens, ofBytes, hex_length, fromHex_hex]

end PasswordHash

theorem hashAdminPassword_eq {S : Scrypt} {password hash : Text} {saltHex : Option Text}
    {random : List UInt8} (made : hashAdminPassword S password saltHex random = some hash) (sl) :
    ∃ key kl, S.derive (toUtf8 password) (adminSalt saltHex random) scryptKeylen = some key ∧
      hash = (PasswordHash.ofBytes (adminSalt saltHex random) key sl kl).render := by
  unfold hashAdminPassword at made
  by_cases nothing : password.isEmpty = true
  · simp [nothing] at made
  · simp only [nothing, Bool.false_eq_true, if_false, Option.map_eq_some_iff] at made
    obtain ⟨key, derived, rfl⟩ := made
    have length := S.derive_length _ _ _ _ derived
    exact ⟨key, by simp [length, scryptKeylen], derived, rfl⟩

theorem compareUser_iff {s : AdminSettings} {candidate : Text} :
    compareUser s candidate = true ↔ toUtf8 candidate = toUtf8 s.user := by
  unfold compareUser
  by_cases length : (toUtf8 candidate).length = (toUtf8 s.user).length
  · simp [length]
  · simp only [ne_eq, length, not_false_eq_true, if_true, Bool.false_eq_true, false_iff]
    intro same
    exact length (congrArg List.length same)

theorem validate_iff {s : AdminSettings} {S : Scrypt} {h : PasswordHash} {username password : Text}
    (setting : h.render = s.passwordHash) :
    s.validate S username password = true ↔
      toUtf8 username = toUtf8 s.user ∧ h.Opens S password := by
  rw [AdminSettings.validate, ← setting, Bool.and_eq_true, compareUser_iff,
    h.verifyAdminPassword_render]

/-- The routes are mounted where both settings are there and the second reads as a salt and a key;
they then let in whoever sends the user's name with a password whose derived bytes are the stored
ones, and nobody where a part has an odd number of digits. A setting `hashAdminPassword` made from a
salt of eight to sixty-four bytes, given or drawn, is such a one, and takes the passwords that
derive what the password it was made from does. -/
theorem admin_door_exact (S : Scrypt) :
    (∀ s : AdminSettings, (s.mounted = true ↔
        s.user ≠ [] ∧ ∃ h : PasswordHash, h.render = s.passwordHash) ∧
      ∀ h : PasswordHash, h.render = s.passwordHash → ∀ username password,
        s.validate S username password = true ↔
          toUtf8 username = toUtf8 s.user ∧ h.saltHex.length % 2 = 0 ∧ h.keyHex.length % 2 = 0 ∧
            S.derive (toUtf8 password) (fromHex h.saltHex) (h.keyHex.length / 2) =
              some (fromHex h.keyHex)) ∧
      ∀ user password saltHex random hash, user ≠ [] →
        let salt := adminSalt saltHex random
        8 ≤ salt.length → salt.length ≤ 64 →
        hashAdminPassword S password saltHex random = some hash →
        let s : AdminSettings := ⟨user, hash⟩
        s.mounted = true ∧ ∀ username candidate, s.validate S username candidate = true ↔
          toUtf8 username = toUtf8 user ∧
            S.derive (toUtf8 candidate) salt scryptKeylen =
              S.derive (toUtf8 password) salt scryptKeylen := by
  have mounted : ∀ s : AdminSettings, s.mounted = true ↔
      s.user ≠ [] ∧ ∃ h : PasswordHash, h.render = s.passwordHash := by
    intro s
    simp only [AdminSettings.mounted, Bool.and_eq_true, Bool.not_eq_true',
      List.isEmpty_eq_false_iff]
    constructor
    · rintro ⟨⟨user, _⟩, shape⟩
      exact ⟨user, PasswordHash.of_isPasswordHash shape⟩
    · rintro ⟨user, h, rendered⟩
      rw [← rendered]
      exact ⟨⟨user, by simp [PasswordHash.render, text]⟩, h.isPasswordHash_render⟩
  refine ⟨fun s => ⟨mounted s, fun h setting username password => validate_iff setting⟩, ?_⟩
  intro user password saltHex random hash named salt least most made
  obtain ⟨key, kl, derived, rfl⟩ := hashAdminPassword_eq made ⟨least, most⟩
  refine ⟨(mounted _).mpr ⟨named, _, rfl⟩, ?_⟩
  intro username candidate
  rw [validate_iff rfl, PasswordHash.ofBytes_opens, derived, S.derive_length _ _ _ _ derived]

namespace AdminScript

def salt : List UInt8 := [0, 1, 2, 3, 4, 5, 6, 7]

/-- `scrypt` of "correct horse". -/
def key : List UInt8 :=
    [239, 110, 85, 122, 6, 128, 64, 30, 90, 42, 87, 229, 83, 201, 252, 38, 149, 236, 56, 189, 96,
      47, 160, 39, 52, 129, 194, 146, 61, 237, 89, 239, 204, 203, 88, 70, 209, 196, 82, 2, 126,
      108, 224, 253, 54, 81, 145, 247, 145, 220, 155, 86, 127, 80, 45, 153, 23, 214, 85, 51, 43,
      128, 154, 16]

/-- `scrypt` of "wrong". -/
def wrongKey : List UInt8 :=
    [207, 232, 45, 219, 175, 41, 247, 169, 114, 34, 127, 164, 98, 45, 5, 71, 140, 143, 180, 232,
      33, 132, 249, 126, 213, 218, 59, 91, 89, 130, 71, 65, 10, 223, 255, 172, 252, 152, 127, 211,
      40, 25, 0, 116, 188, 182, 165, 183, 250, 35, 96, 211, 117, 108, 252, 209, 211, 103, 128,
      215, 116, 194, 192, 223]

/-- `scrypt` at the two passwords. -/
def scrypt : Scrypt where
  derive password given n :=
    if given = salt ∧ n = 64 then
      if password = toUtf8 (text "correct horse") then some key
      else if password = toUtf8 (text "wrong") then some wrongKey
      else none
    else none
  derive_length := by
    intro password given n derived found
    by_cases here : given = salt ∧ n = 64
    · rw [if_pos here] at found
      rw [here.2]
      by_cases first : password = toUtf8 (text "correct horse")
      · rw [if_pos first] at found
        cases found
        rfl
      · rw [if_neg first] at found
        by_cases second : password = toUtf8 (text "wrong")
        · rw [if_pos second] at found
          cases found
          rfl
        · rw [if_neg second] at found
          cases found
    · rw [if_neg here] at found
      cases found

def settings : AdminSettings := ⟨text "ops", text "scrypt$" ++ hex salt ++ text "$" ++ hex key⟩

end AdminScript

theorem admin_door_exact_ops :
    AdminScript.settings.mounted = true ∧
    AdminScript.settings.validate AdminScript.scrypt (text "ops") (text "correct horse") = true ∧
    AdminScript.settings.validate AdminScript.scrypt (text "ops") (text "wrong") = false := by
  have made : hashAdminPassword AdminScript.scrypt (text "correct horse") none AdminScript.salt =
      some AdminScript.settings.passwordHash := by decide +kernel
  have door := (admin_door_exact AdminScript.scrypt).2 (text "ops") (text "correct horse") none
    AdminScript.salt _ (by decide) (by decide) (by decide) made
  refine ⟨door.1, (door.2 (text "ops") (text "correct horse")).mpr ⟨rfl, rfl⟩, ?_⟩
  rw [← Bool.not_eq_true]
  intro opened
  have same := ((door.2 (text "ops") (text "wrong")).mp opened).2
  revert same
  decide +kernel

end Syrotp
