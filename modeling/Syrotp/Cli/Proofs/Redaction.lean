import Mathlib.Data.List.TakeWhile
import Syrotp.Cli.Redaction

/-!
# Two URLs that differ in their passwords

The redaction takes out what stands between `://` and the first `@`. That is the password, too, if
the scheme is one of those it looks for and no `@` stands for itself in the credentials; what
follows such an `@` is shown.
-/

namespace Syrotp.Cli

/-! ## The scheme -/

theorem asciiLower_append (s t : Text) : asciiLower (s ++ t) = asciiLower s ++ asciiLower t :=
  List.map_append

/-- Only a letter becomes a letter. -/
theorem eq_of_lower {c d : UInt16} (other : ¬(97 ≤ d ∧ d ≤ 122))
    (h : (if 65 ≤ c ∧ c ≤ 90 then c + 32 else c) = d) : c = d := by
  split at h
  · next upper =>
    refine absurd ?_ other
    simp only [UInt16.le_iff_toNat_le, ← h, UInt16.toNat_add] at upper ⊢
    simp at upper ⊢
    omega
  · exact h

/-- The start of a URL, as it is shown to the patterns. -/
theorem head_split {u : ConnectionUrl} {start : Text}
    (plain : asciiLower u.head = start ++ text "://") (letters : colon ∉ start) :
    ∃ scheme, u.head = scheme ++ text "://" ∧ colon ∉ scheme := by
  obtain ⟨scheme, rest, split, lowered, marks⟩ := List.map_eq_append_iff.mp plain
  refine ⟨scheme, ?_, fun mem => letters ?_⟩
  · obtain ⟨a, rest, rfl, first, marks⟩ := List.map_eq_cons_iff.mp marks
    obtain ⟨b, rest, rfl, second, marks⟩ := List.map_eq_cons_iff.mp marks
    obtain ⟨c, rest, rfl, third, marks⟩ := List.map_eq_cons_iff.mp marks
    obtain rfl := List.map_eq_nil_iff.mp marks
    rw [split, eq_of_lower (by decide) first, eq_of_lower (by decide) second,
      eq_of_lower (by decide) third]
    rfl
  · exact lowered ▸ List.mem_map.mpr ⟨colon, mem, by decide⟩

/-- Nothing is stripped of these. -/
theorem readStart_redacted {start rest : Text} (h : start ∈ redactedPrefixes) :
    readStart (start ++ rest) = start ++ rest.filter fun c => c != 9 && c != 10 && c != 13 := by
  simp only [redactedPrefixes, List.mem_cons, List.not_mem_nil, or_false] at h
  rcases h with rfl | rfl | rfl <;> rfl

/-- One of them that a scheme begins with is the scheme. -/
theorem redacted_scheme (scheme : ConnectionScheme) : ∀ start ∈ redactedPrefixes,
    start <+: scheme.text ++ text "://" → start = scheme.text ++ text "://" := by
  cases scheme <;> decide

/-- A scheme that is the beginning of one of them is one of them. -/
theorem redacted_take (scheme : ConnectionScheme) : ∀ start ∈ redactedPrefixes,
    ∀ n ≤ start.length, readStart (start.take n) = scheme.text ++ text "://" →
      start.take n ∈ redactedPrefixes := by
  cases scheme <;> decide

/-- The pattern looks at the start of the URL alone. -/
theorem hasCredentials_value {u : ConnectionUrl} {p : Password} :
    hasCredentials (u.value p) = true ↔ asciiLower u.head ∈ redactedPrefixes := by
  have split : asciiLower (u.value p) = asciiLower u.head ++
      asciiLower (u.username ++ colon :: p.chars ++ atSign :: u.location) := by
    rw [← asciiLower_append, ConnectionUrl.value]
    simp only [List.append_assoc]
  constructor
  · intro found
    obtain ⟨start, hs, begins⟩ := List.any_eq_true.mp found
    have begins := split ▸ List.isPrefixOf_iff_prefix.mp begins
    rcases List.prefix_or_prefix_of_prefix begins (List.prefix_append _ _) with inside | beyond
    · obtain ⟨rest, whole⟩ := inside
      have reads := u.head_reads
      rw [← whole, readStart_redacted hs] at reads
      have same := redacted_scheme u.scheme start hs (reads ▸ List.prefix_append _ _)
      have stripped := List.append_right_eq_self.mp (reads.trans same.symm)
      -- the scheme's last slash is written last
      have last : (start ++ rest).getLast? = some slash := by
        rw [whole, asciiLower, List.getLast?_map, u.head_ends]
        rfl
      rcases List.eq_nil_or_concat rest with rfl | ⟨more, c, rfl⟩
      · rw [← whole, List.append_nil]
        exact hs
      · rw [List.concat_eq_append, ← List.append_assoc, List.getLast?_concat] at last
        obtain rfl := Option.some.inj last
        rw [List.concat_eq_append, List.filter_append] at stripped
        exact absurd (List.append_eq_nil_iff.mp stripped).2 (by decide)
    · obtain ⟨rest, rfl⟩ := beyond
      have taken := redacted_take u.scheme _ hs (asciiLower u.head).length (by simp)
      rw [List.take_left] at taken
      exact taken u.head_reads
  · intro plain
    refine List.any_eq_true.mpr ⟨_, plain, List.isPrefixOf_iff_prefix.mpr ?_⟩
    exact split ▸ List.prefix_append _ _

/-! ## The first match -/

theorem marks_eq : text "://" = [colon, slash, slash] := by decide

/-- A match begins with `://` and something that is neither `@` nor `/`. -/
theorem credentials_none {input : Text}
    (h : ∀ c rest, input = text "://" ++ c :: rest → credentialChar c = false) :
    captures credentials input = none := by
  unfold credentials captures
  split
  · next start =>
    obtain ⟨rest, rfl⟩ := List.isPrefixOf_iff_prefix.mp start
    rw [List.drop_left, Option.map_eq_none_iff]
    cases rest with
    | nil => rfl
    | cons c rest => rw [captures, h c rest rfl, if_neg Bool.false_ne_true]
  · rfl

/-- No match begins before the marks of the scheme. -/
theorem credentials_none_of_not_colon {c : UInt16} {rest : Text} (other : c ≠ colon) :
    captures credentials (c :: rest) = none :=
  credentials_none fun _ _ same => absurd (List.cons.inj same).1 other

section

variable {scheme cred location : Text}

/-- What comes first in what a match leaves is the `@` it ends with. -/
theorem dropWhile_at (cred location : Text) : ∃ rest,
    cred.dropWhile (· ≠ atSign) ++ atSign :: location = atSign :: rest := by
  cases left : cred.dropWhile (· ≠ atSign) with
  | nil => exact ⟨location, rfl⟩
  | cons c more =>
    have first := List.head?_dropWhile_not (p := fun c => decide (c ≠ atSign)) cred
    rw [left] at first
    have same : c = atSign := by simpa using first
    exact ⟨more ++ atSign :: location, by rw [same]; rfl⟩

/-- The credentials up to the first `@` are taken out, -/
theorem withoutCredentials_of_run (letters : colon ∉ scheme) (noSlash : slash ∉ cred)
    (starts : cred.head? ≠ some atSign) (nonempty : cred ≠ []) :
    withoutCredentials (scheme ++ text "://" ++ cred ++ atSign :: location) =
      scheme ++ text "://***" ++ cred.dropWhile (· ≠ atSign) ++ atSign :: location := by
  obtain ⟨rest, hrest⟩ := dropWhile_at cred location
  let run := cred.takeWhile (· ≠ atSign)
  have split : cred = run ++ cred.dropWhile (· ≠ atSign) := List.takeWhile_append_dropWhile.symm
  have whole : scheme ++ text "://" ++ cred ++ atSign :: location =
      scheme ++ ([text "://", run, [atSign]].flatten ++ rest) := by
    have there : cred ++ atSign :: location = run ++ atSign :: rest := by
      rw [← hrest, ← List.append_assoc, ← split]
    simp only [List.append_assoc, there, List.flatten_cons, List.flatten_nil, List.append_nil]
    rfl
  have all : ∀ c ∈ run, credentialChar c = true := by
    intro c hc
    have notAt : c ≠ atSign := by
      simpa using List.all_eq_true.mp List.all_takeWhile c hc
    have notSlash : c ≠ slash := fun same =>
      noSlash (same ▸ (List.takeWhile_sublist _).subset hc)
    simp [credentialChar, notAt, notSlash]
  have some' : run ≠ [] := by
    cases cred with
    | nil => exact absurd rfl nonempty
    | cons c cred =>
      have notAt : c ≠ atSign := fun same => starts (congrArg some same)
      simp [run, notAt]
  have matched : captures credentials ([text "://", run, [atSign]].flatten ++ rest) =
      some [text "://", run, [atSign]] := by
    have last : captures [Piece.lit [atSign]] ([atSign] ++ rest) = some [[atSign]] :=
      captures_lit rfl
    have middle := captures_many1 all some' (stops_cons (by decide)) last
    simpa [credentials] using captures_lit (s := text "://") middle
  rw [whole, withoutCredentials, replaceFirst_skip, replaceFirst_match (by simp [some']) matched,
    List.append_assoc, List.append_assoc, hrest]
  · rfl
  · rintro s₁ c s₂ rfl
    refine credentials_none_of_not_colon fun same => letters ?_
    exact same ▸ List.mem_append_right _ List.mem_cons_self

/-- A `:` among credentials that have no `/` is not the beginning of a match. -/
theorem no_marks {w s₁ s₂ rest rest' : Text} (noSlash : slash ∉ w) (last : w.getLast? = some atSign)
    (split : w = s₁ ++ colon :: s₂) : s₂ ++ rest ≠ slash :: rest' := by
  cases s₂ with
  | nil =>
    rw [split, List.getLast?_concat] at last
    exact absurd last (by decide)
  | cons e s₂ =>
    intro same
    obtain rfl := (List.cons.inj same).1
    exact noSlash (split ▸ List.mem_append_right _ (List.mem_cons_of_mem _ List.mem_cons_self))

/-- Where a match could begin in a URL whose credentials begin with `@`. -/
theorem credentials_none_of_at {w s₁ s₂ rest : Text} {c : UInt16} (noSlash : slash ∉ w)
    (last : w.getLast? = some atSign) (starts : w.head? = some atSign)
    (split : text "://" ++ w = s₁ ++ c :: s₂) : captures credentials (c :: s₂ ++ rest) = none := by
  refine credentials_none fun d rest' same => ?_
  rw [marks_eq] at split same
  obtain ⟨rfl, following⟩ := List.cons.inj same
  cases s₁ with
  | nil =>
    obtain ⟨-, rfl⟩ := List.cons.inj split
    obtain ⟨w', rfl⟩ := List.head?_eq_some_iff.mp starts
    obtain ⟨rfl, -⟩ := List.cons.inj (List.cons.inj (List.cons.inj following).2).2
    decide
  | cons a s₁ =>
    have split := (List.cons.inj split).2
    cases s₁ with
    | nil => exact absurd (List.cons.inj split).1 (by decide)
    | cons b s₁ =>
      have split := (List.cons.inj split).2
      cases s₁ with
      | nil => exact absurd (List.cons.inj split).1 (by decide)
      | cons e s₁ => exact absurd following (no_marks noSlash last (List.cons.inj split).2)

/-- or none of them. -/
theorem withoutCredentials_of_at (letters : colon ∉ scheme) (noSlash : slash ∉ cred)
    (starts : cred.head? = some atSign) :
    withoutCredentials (scheme ++ text "://" ++ cred ++ atSign :: location) =
      scheme ++ text "://" ++ cred ++ atSign :: withoutCredentials location := by
  have whole : ∀ rest, scheme ++ text "://" ++ cred ++ atSign :: rest =
      scheme ++ ((text "://" ++ (cred ++ [atSign])) ++ rest) := by simp
  have noSlash' : slash ∉ cred ++ [atSign] := by
    simp only [List.mem_append, List.mem_singleton, not_or]
    exact ⟨noSlash, by decide⟩
  have starts' : (cred ++ [atSign]).head? = some atSign := by
    rw [List.head?_append, starts]
    rfl
  rw [whole, whole, withoutCredentials, replaceFirst_skip, replaceFirst_skip]
  · rfl
  · intro s₁ c s₂ split
    exact credentials_none_of_at noSlash' List.getLast?_concat starts' split
  · rintro s₁ c s₂ rfl
    refine credentials_none_of_not_colon fun same => letters ?_
    exact same ▸ List.mem_append_right _ List.mem_cons_self

end

/-! ## Two URLs -/

/-- The patterns find the password of such a URL: its start is written as they expect it, and its
user name has no `@`. -/
structure Findable (u : ConnectionUrl) : Prop where
  plain : asciiLower u.head = u.scheme.text ++ text "://"
  scheme : u.scheme ≠ .rediss
  username : atSign ∉ u.username

/-- What a password shows then: what comes after its first `@`, and that it has one. -/
def Password.shown (p : Password) : Text := p.chars.dropWhile (· ≠ atSign)

section

variable {u : ConnectionUrl} {p p' : Password} {name : Text}

theorem redacted_iff : asciiLower u.head ∈ redactedPrefixes ↔
    asciiLower u.head = u.scheme.text ++ text "://" ∧ u.scheme ≠ .rediss := by
  constructor
  · intro h
    have reads := u.head_reads
    rw [← List.append_nil (asciiLower u.head), readStart_redacted h, List.filter_nil,
      List.append_nil] at reads
    refine ⟨reads, fun secure => ?_⟩
    rw [reads, secure] at h
    exact absurd h (by decide)
  · rintro ⟨plain, other⟩
    rw [plain]
    cases scheme : u.scheme with
    | rediss => exact absurd scheme other
    | _ => decide

theorem ConnectionScheme.letters (scheme : ConnectionScheme) : colon ∉ scheme.text := by
  cases scheme <;> decide

theorem dropWhile_of_head {s : Text} (starts : s.head? = some atSign) :
    s.dropWhile (· ≠ atSign) = s := by
  obtain ⟨rest, rfl⟩ := List.head?_eq_some_iff.mp starts
  rfl

/-- The credentials of a URL, as they are written. -/
def ConnectionUrl.credentials (u : ConnectionUrl) (p : Password) : Text :=
  u.username ++ colon :: p.chars

theorem value_eq : u.value p = u.head ++ u.credentials p ++ atSign :: u.location := by
  simp only [ConnectionUrl.value, ConnectionUrl.credentials, List.append_assoc]

theorem slash_not_mem : slash ∉ u.credentials p := by
  have none : ∀ {c}, endsAuthority c = false → c ≠ slash := by
    rintro c free rfl
    exact absurd free (by decide)
  intro mem
  rcases List.mem_append.mp mem with name | rest
  · exact none (u.username_free _ name).1 rfl
  · rcases List.mem_cons.mp rest with mark | mem
    · exact absurd mark (by decide)
    · exact none (p.free _ mem) rfl

theorem credentials_inj : u.credentials p = u.credentials p' ↔ p.chars = p'.chars := by
  rw [ConnectionUrl.credentials, ConnectionUrl.credentials, List.append_cancel_left_eq,
    List.cons.injEq]
  exact and_iff_right rfl

/-- What is left of the credentials from their first `@` on is the same for both passwords. -/
theorem dropWhile_credentials :
    (u.credentials p).dropWhile (· ≠ atSign) = (u.credentials p').dropWhile (· ≠ atSign) ↔
      p.chars = p'.chars ∨ atSign ∉ u.username ∧ p.shown = p'.shown := by
  simp only [ConnectionUrl.credentials, List.dropWhile_append]
  by_cases named : atSign ∈ u.username
  · have left : (u.username.dropWhile (· ≠ atSign)).isEmpty = false := by
      rw [List.isEmpty_eq_false_iff, ne_eq, List.dropWhile_eq_nil_iff]
      exact fun all => absurd (all _ named) (by simp)
    rw [if_neg (by rw [left]; decide), if_neg (by rw [left]; decide), List.append_cancel_left_eq,
      List.cons.injEq, and_iff_right rfl]
    exact ⟨.inl, fun h => h.resolve_right fun other => other.1 named⟩
  · have none : (u.username.dropWhile (· ≠ atSign)).isEmpty = true := by
      rw [List.isEmpty_iff, List.dropWhile_eq_nil_iff]
      exact fun c hc => decide_eq_true fun same => named (same ▸ hc)
    have mark : ∀ chars : Text, (colon :: chars).dropWhile (· ≠ atSign) =
        chars.dropWhile (· ≠ atSign) := fun _ => rfl
    rw [if_pos none, if_pos none, mark, mark]
    exact ⟨fun same => .inr ⟨named, same⟩,
      fun h => h.elim (fun same => congrArg _ same) fun other => other.2⟩

/-- Both show the same if and only if the passwords are the same, or the patterns find them and
they are the same from their first `@` on. -/
theorem masked_eq_iff (var : name ∈ connectionVars) :
    masked name (u.value p) = masked name (u.value p') ↔
      p.chars = p'.chars ∨ Findable u ∧ p.shown = p'.shown := by
  have unnamed : ∀ name ∈ connectionVars, credentialName name = false := by decide +kernel
  simp only [masked, unnamed name var, Bool.false_eq_true, if_false, hasCredentials_value]
  by_cases covered : asciiLower u.head ∈ redactedPrefixes
  · rw [if_pos covered, if_pos covered]
    obtain ⟨plain, other⟩ := redacted_iff.mp covered
    have found : Findable u ↔ atSign ∉ u.username := ⟨Findable.username, fun h => ⟨plain, other, h⟩⟩
    obtain ⟨scheme, head, letters⟩ := head_split plain u.scheme.letters
    rw [value_eq, value_eq, head, found, ← dropWhile_credentials]
    by_cases starts : u.username.head? = some atSign
    · have both : ∀ q, (u.credentials q).head? = some atSign := by
        intro q
        rw [ConnectionUrl.credentials, List.head?_append, starts]
        rfl
      rw [withoutCredentials_of_at letters slash_not_mem (both p),
        withoutCredentials_of_at letters slash_not_mem (both p'), List.append_cancel_right_eq,
        List.append_cancel_left_eq, dropWhile_of_head (both p), dropWhile_of_head (both p')]
    · have both : ∀ q, (u.credentials q).head? ≠ some atSign := by
        intro q
        rw [ConnectionUrl.credentials, List.head?_append]
        cases named : u.username.head? with
        | none => exact fun same => absurd (Option.some.inj same) (by decide)
        | some c => exact fun same => starts (named.trans same)
      have some' : ∀ q, u.credentials q ≠ [] := fun q => by simp [ConnectionUrl.credentials]
      rw [withoutCredentials_of_run letters slash_not_mem (both p) (some' p),
        withoutCredentials_of_run letters slash_not_mem (both p') (some' p'),
        List.append_cancel_right_eq, List.append_cancel_left_eq]
  · rw [if_neg covered, if_neg covered, value_eq, value_eq, List.append_cancel_right_eq,
      List.append_cancel_left_eq, credentials_inj]
    refine ⟨.inl, fun h => h.resolve_right fun found => covered ?_⟩
    exact redacted_iff.mpr ⟨found.1.plain, found.1.scheme⟩

/-- For every URL that the CLI takes, and any two passwords in it: both functions show the same for
both if and only if the passwords are the same, or the patterns find the password of that URL and
the two are the same from their first `@` on. -/
theorem hides_password_iff (u : ConnectionUrl) (p p' : Password) {name : Text}
    (var : name ∈ connectionVars) :
    (redactValue name (u.value p) = redactValue name (u.value p') ∧
      maskForDisplay name (u.value p) = maskForDisplay name (u.value p')) ↔
      p.chars = p'.chars ∨ Findable u ∧ p.shown = p'.shown := by
  simp only [redactValue, maskForDisplay, and_self]
  exact masked_eq_iff var

end

namespace RedactionScript

theorem forall_of_all {l : Text} {P : UInt16 → Prop} [DecidablePred P]
    (all : (l.all fun c => decide (P c)) = true) : ∀ c ∈ l, P c :=
  fun c mem => of_decide_eq_true (List.all_eq_true.mp all c mem)

def postgres : ConnectionUrl where
  scheme := .postgres
  head := text "postgres://"
  username := text "syrotp"
  location := text "localhost:5432/syrotp"
  head_reads := by decide
  head_ends := by decide
  username_free := forall_of_all (by decide)
  host_there := by decide
  host_free := by decide

def rediss : ConnectionUrl where
  scheme := .rediss
  head := text "rediss://"
  username := []
  location := text "cache.example.com:6380/0"
  head_reads := by decide
  head_ends := by decide
  username_free := forall_of_all (by decide)
  host_there := by decide
  host_free := by decide

def short : Password := ⟨text "hunter2", forall_of_all (by decide)⟩

def long : Password := ⟨text "correct-horse:battery", forall_of_all (by decide)⟩

def at' : Password := ⟨text "p@ss", forall_of_all (by decide)⟩

end RedactionScript

/-- Two passwords without an `@`. -/
theorem hides_password_script : redactValue (text "DATABASE_URL")
      (RedactionScript.postgres.value RedactionScript.short) =
    redactValue (text "DATABASE_URL") (RedactionScript.postgres.value RedactionScript.long) :=
  ((hides_password_iff _ _ _ (by decide)).mpr
    (.inr ⟨⟨by decide, by decide, by decide⟩, by decide⟩)).1

/-- A `rediss` URL is shown in full, and so is what comes after an `@` of a password. -/
theorem shows_password :
    redactValue (text "REDIS_URL") (RedactionScript.rediss.value RedactionScript.short) =
      text "rediss://:hunter2@cache.example.com:6380/0" ∧
    maskForDisplay (text "REDIS_URL") (RedactionScript.rediss.value RedactionScript.short) ≠
      maskForDisplay (text "REDIS_URL") (RedactionScript.rediss.value RedactionScript.long) ∧
    redactValue (text "DATABASE_URL") (RedactionScript.postgres.value RedactionScript.at') =
      text "postgres://***@ss@localhost:5432/syrotp" ∧
    redactValue (text "DATABASE_URL") (RedactionScript.postgres.value RedactionScript.at') ≠
      redactValue (text "DATABASE_URL") (RedactionScript.postgres.value RedactionScript.short) := by
  refine ⟨?_, ?_, ?_, ?_⟩ <;> decide +kernel

end Syrotp.Cli
