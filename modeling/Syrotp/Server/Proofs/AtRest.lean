import Syrotp.Server.Aead

/-!
# What is kept at rest

The parts of a wrapped value are read back as they were written, so unwrapping undoes wrapping. It
also accepts what wrapping never makes: a tag may be shortened to 4 bytes, since only the bytes that
are supplied are compared.
-/

namespace Syrotp

variable {G : Gcm} {masterKeyHex plaintext wrapped : Text} {aad : Option Text} {w : WrapParts}

/-! ## Base64url -/

/-- The digit of a sextet in the alphabet for URLs. -/
def urlDigit (n : Nat) : UInt16 :=
  if base64Digit n = 43 then 45 else if base64Digit n = 47 then 95 else base64Digit n

theorem replaceAll_digit : ∀ n < 64,
    Text.replaceAll 47 95 (Text.replaceAll 43 45 [base64Digit n]) = [urlDigit n] ∧
      Text.replaceAll 95 47 (Text.replaceAll 45 43 [urlDigit n]) = [base64Digit n] := by
  decide +kernel

theorem urlDigit_plain : ∀ n < 64, urlDigit n ≠ 61 ∧ urlDigit n ≠ dot := by decide +kernel

theorem replaceAll_append {c d : UInt16} {s t : Text} :
    Text.replaceAll c d (s ++ t) = Text.replaceAll c d s ++ Text.replaceAll c d t :=
  List.map_append

theorem replaceAll_digits {sixes : List ℕ} (range : ∀ n ∈ sixes, n < 64) :
    Text.replaceAll 47 95 (Text.replaceAll 43 45 (sixes.map base64Digit)) = sixes.map urlDigit ∧
      Text.replaceAll 95 47 (Text.replaceAll 45 43 (sixes.map urlDigit)) =
        sixes.map base64Digit := by
  constructor
  · rw [Text.replaceAll, Text.replaceAll, List.map_map, List.map_map]
    exact List.map_congr_left fun n hn =>
      List.singleton_inj.mp (replaceAll_digit n (range n hn)).1
  · rw [Text.replaceAll, Text.replaceAll, List.map_map, List.map_map]
    exact List.map_congr_left fun n hn =>
      List.singleton_inj.mp (replaceAll_digit n (range n hn)).2

/-- `b64u` writes the digits and no padding. -/
theorem b64u_eq (bytes : List UInt8) : b64u bytes = (sextets bytes).map urlDigit := by
  have pads : ∀ k, Text.replaceAll 47 95 (Text.replaceAll 43 45 (List.replicate k 61)) =
      List.replicate k 61 := by
    intro k
    rw [Text.replaceAll, Text.replaceAll, List.map_replicate, List.map_replicate]
    rfl
  have stop : ((sextets bytes).map urlDigit).reverse.dropWhile (fun c => decide (c = 61)) =
      ((sextets bytes).map urlDigit).reverse := by
    apply List.dropWhile_eq_self_iff.mpr
    intro nonempty
    have mem := List.mem_reverse.mp (List.getElem_mem nonempty)
    obtain ⟨n, hn, same⟩ := List.mem_map.mp mem
    simpa [← same] using (urlDigit_plain n (sextets_lt n hn)).1
  have strip : ∀ k, (List.replicate k (61 : UInt16) ++ ((sextets bytes).map urlDigit).reverse
      ).dropWhile (fun c => decide (c = 61)) = ((sextets bytes).map urlDigit).reverse := by
    intro k
    rw [List.dropWhile_append_of_pos]
    · exact stop
    · intro c hc
      rw [List.eq_of_mem_replicate hc]
      rfl
  simp only [b64u, base64]
  rw [replaceAll_append, replaceAll_append, (replaceAll_digits sextets_lt).1, pads,
    List.reverse_append, List.reverse_replicate, strip, List.reverse_reverse]

/-- Reading what `b64u` wrote gives the bytes, at every length. -/
theorem b64uDecode_b64u (bytes : List UInt8) : b64uDecode (b64u bytes) = bytes := by
  have read := fromBase64_digits bytes
  simp only [b64uDecode, b64u_eq, (replaceAll_digits sextets_lt).2]
  split
  · exact read 0
  · exact read _

theorem dot_not_mem_b64u (bytes : List UInt8) : dot ∉ b64u bytes := by
  rw [b64u_eq]
  intro mem
  obtain ⟨n, hn, same⟩ := List.mem_map.mp mem
  exact (urlDigit_plain n (sextets_lt n hn)).2 same

/-! ## Wrapping and unwrapping -/

/-- The parts are read back. -/
theorem parseWrapped_format (w : WrapParts) : parseWrapped w.format = some w := by
  have fields : w.format.splitOn dot = [aeadVersion, b64u w.iv, b64u w.tag, b64u w.ct] := by
    apply List.splitOn_intercalate
    · simp only [List.mem_cons, List.not_mem_nil, or_false, forall_eq_or_imp, forall_eq]
      exact ⟨by decide, dot_not_mem_b64u _, dot_not_mem_b64u _, dot_not_mem_b64u _⟩
    · exact List.cons_ne_nil _ _
  rw [parseWrapped, fields]
  simp only [if_true, b64uDecode_b64u]

theorem parseWrapped_wrap {iv : Iv} {s : Text}
    (h : wrap G masterKeyHex plaintext aad iv = .ok s) :
    (fromHex masterKeyHex).length = 32 ∧
      parseWrapped s = some (G.seal (fromHex masterKeyHex) plaintext aad iv) := by
  rw [wrap] at h
  split at h
  · exact nomatch h
  · next key =>
    rw [← Except.ok.inj h, parseWrapped_format]
    exact ⟨not_not.mp key, rfl⟩

/-- `unwrap` gets past every check: the key has its length, the cipher takes the IV and the tag, and
the tag is the beginning of the one that belongs to the ciphertext. -/
structure Admits (G : Gcm) (masterKeyHex : Text) (aad : Option Text) (w : WrapParts) : Prop where
  key : (fromHex masterKeyHex).length = 32
  iv : G.permitsIv w.iv.length = true
  tag : permitsTag w.tag.length = true
  same : (G.tag (fromHex masterKeyHex) w.iv (aadBytes aad) w.ct).take w.tag.length = w.tag

theorem unwrap_eq_ok {p : Text} : unwrap G masterKeyHex wrapped aad = .ok p ↔
    ∃ w, parseWrapped wrapped = some w ∧ Admits G masterKeyHex aad w ∧
      p = fromUtf8 (G.decrypt (fromHex masterKeyHex) w.iv w.ct) := by
  rw [unwrap]
  cases parsed : parseWrapped wrapped with
  | none => simp
  | some w =>
    simp only [Option.some.injEq, exists_eq_left']
    by_cases key : (fromHex masterKeyHex).length = 32
    · rw [if_neg (not_not.mpr key), Gcm.decipher]
      by_cases iv : G.permitsIv w.iv.length = true
      · by_cases tag : permitsTag w.tag.length = true
        · by_cases same : (G.tag (fromHex masterKeyHex) w.iv (aadBytes aad) w.ct).take
              w.tag.length = w.tag
          · have admits : Admits G masterKeyHex aad w := ⟨key, iv, tag, same⟩
            simp [iv, tag, same, admits, Except.map, eq_comm]
          · have refused : ¬Admits G masterKeyHex aad w := fun h => same h.same
            simp [iv, tag, same, refused, Except.map]
        · have refused : ¬Admits G masterKeyHex aad w := fun h => tag h.tag
          simp [iv, tag, refused, Except.map]
      · have refused : ¬Admits G masterKeyHex aad w := fun h => iv h.iv
        simp [iv, refused, Except.map]
    · have refused : ¬Admits G masterKeyHex aad w := fun h => key h.key
      simp [key, refused]

/-! ## The round trip -/

/-- What was wrapped is unwrapped, for every string without lone surrogates, every associated data
and every IV; and whatever the parts of a wrapped value are, they are read back as they were. -/
theorem wrap_round_trip (G : Gcm) (aad : Option Text) (iv : Iv)
    (key : (fromHex masterKeyHex).length = 32) (wellFormed : isWellFormed plaintext = true) :
    (∃ s, wrap G masterKeyHex plaintext aad iv = .ok s ∧
      parseWrapped s = some (G.seal (fromHex masterKeyHex) plaintext aad iv) ∧
      unwrap G masterKeyHex s aad = .ok plaintext) ∧
    ∀ w : WrapParts, parseWrapped w.format = some w := by
  refine ⟨⟨_, if_neg (not_not.mpr key), parseWrapped_format _, ?_⟩, parseWrapped_format⟩
  refine unwrap_eq_ok.mpr ⟨_, parseWrapped_format _, ⟨key, ?_, ?_, ?_⟩, ?_⟩
  · simp only [Gcm.seal, iv.2, G.permitsIv_12]
  · simp only [Gcm.seal, G.tag_length]
    decide
  · simp only [Gcm.seal]
    exact List.take_length
  · simp only [Gcm.seal, G.decrypt_encrypt, fromUtf8_toUtf8 wellFormed]

/-- The data and the keystream, byte by byte. -/
def xorStream (keystream data : List UInt8) : List UInt8 :=
  data.mapIdx fun i b => b ^^^ keystream.getD i 0

theorem xorStream_xorStream (keystream data : List UInt8) :
    xorStream keystream (xorStream keystream data) = data := by
  rw [xorStream, xorStream, List.mapIdx_mapIdx, List.mapIdx_eq_iff]
  intro i
  cases data[i]? with
  | none => rfl
  | some b =>
    simp only [Option.map_some, Function.comp_apply, UInt8.xor_assoc, UInt8.xor_self,
      UInt8.xor_zero]

/-- AES-256-GCM under one key and one IV, where it has this keystream. -/
def Gcm.ofStream (keystream : List UInt8) (tag : List UInt8 → List UInt8 → List UInt8)
    (tag_length : ∀ aad ct, (tag aad ct).length = 16) : Gcm where
  encrypt _ _ := xorStream keystream
  decrypt _ _ := xorStream keystream
  tag _ _ := tag
  permitsIv n := 0 < n
  decrypt_encrypt _ _ := xorStream_xorStream keystream
  encrypt_decrypt _ _ := xorStream_xorStream keystream
  tag_length _ _ := tag_length
  permitsIv_12 := rfl

namespace AtRestScript

/-- What AES-256-GCM encrypts the first block with, under a key and an IV of zeros. -/
def keystream : List UInt8 :=
  [206, 167, 64, 61, 77, 96, 107, 110, 7, 78, 197, 211, 186, 243, 157, 24]

/-- AES-256-GCM under a key and an IV of zeros, for the two messages below. -/
def cipher : Gcm :=
  .ofStream keystream
    (fun aad ct =>
      if aad = [] ∧ ct = [] then
        [83, 15, 138, 251, 199, 69, 54, 185, 169, 99, 180, 241, 196, 203, 115, 139]
      else [154, 74, 122, 25, 8, 165, 98, 18, 10, 114, 239, 82, 224, 141, 225, 214])
    (fun aad ct => by split <;> rfl)

def zeroKey : Text := List.replicate 64 48

def zeroIv : Iv := ⟨List.replicate 12 0, rfl⟩

/-- Letters of one, two and four bytes. -/
def secret : Text := [0x6b, 0xe9, 0x79, 0xd83d, 0xde00]

end AtRestScript

theorem wrap_round_trip_script : ∃ s,
    wrap AtRestScript.cipher AtRestScript.zeroKey AtRestScript.secret (some (text "receiver:rcv_1"))
      AtRestScript.zeroIv = .ok s ∧
    unwrap AtRestScript.cipher AtRestScript.zeroKey s (some (text "receiver:rcv_1")) =
      .ok AtRestScript.secret := by
  have key : (fromHex AtRestScript.zeroKey).length = 32 := by decide +kernel
  have wellFormed : isWellFormed AtRestScript.secret = true := by decide +kernel
  obtain ⟨⟨s, wrapped, _, unwrapped⟩, _⟩ := wrap_round_trip AtRestScript.cipher
    (some (text "receiver:rcv_1")) AtRestScript.zeroIv key wellFormed
  exact ⟨s, wrapped, unwrapped⟩

/-! ## Authenticity -/

/-- The string decodes to a full tag and to what `wrap` makes of the plaintext. -/
def Authentic (G : Gcm) (masterKeyHex : Text) (aad : Option Text) (wrapped plaintext : Text) :
    Prop :=
  ∃ (iv : Iv) (s : Text) (w : WrapParts), wrap G masterKeyHex plaintext aad iv = .ok s ∧
    parseWrapped s = some w ∧ parseWrapped wrapped = some w ∧ w.tag.length = 16

end Syrotp
