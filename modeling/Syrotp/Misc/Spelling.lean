import Syrotp.Misc.JsText

/-!
# Text read without regard to case and white space

A message of a keyword and a tail can be typed in many ways: in either case, with white space
around it, after the keyword and inside the tail. `Spells` says which texts these are, and
`Spells.read` what is left of them once they are trimmed and in upper case.
-/

namespace Syrotp.Text

variable {s : Text} {c : UInt16}

/-! ## White space -/

/-- `s.trimEnd()`. -/
def trimEnd (s : Text) : Text := (s.reverse.dropWhile isSpace).reverse

theorem trim_eq_trimEnd : trim s = trimEnd (s.dropWhile isSpace) := rfl

theorem mem_of_mem_trimEnd (h : c ∈ trimEnd s) : c ∈ s :=
  List.mem_reverse.mp ((List.dropWhile_sublist _).subset (List.mem_reverse.mp h))

theorem removeSpaces_dropWhile : removeSpaces (s.dropWhile isSpace) = removeSpaces s := by
  induction s with
  | nil => rfl
  | cons c s ih =>
    by_cases space : isSpace c = true
    · simpa [removeSpaces, space] using ih
    · rw [List.dropWhile_cons_of_neg space]

theorem removeSpaces_reverse : removeSpaces s.reverse = (removeSpaces s).reverse :=
  List.filter_reverse ..

theorem removeSpaces_trimEnd : removeSpaces (trimEnd s) = removeSpaces s := by
  rw [trimEnd, removeSpaces_reverse, removeSpaces_dropWhile, removeSpaces_reverse,
    List.reverse_reverse]

theorem isSpace_or_mem_removeSpaces (h : c ∈ s) : isSpace c = true ∨ c ∈ removeSpaces s := by
  by_cases space : isSpace c = true
  · exact .inl space
  · exact .inr (List.mem_filter.mpr ⟨h, by simpa using space⟩)

/-- Trimming stops at a word. -/
theorem trim_append {lead word rest : Text} (spaces : ∀ c ∈ lead, isSpace c = true)
    (solid : ∀ c ∈ word, isSpace c = false) (nonempty : word ≠ []) :
    trim (lead ++ word ++ rest) = word ++ trimEnd rest := by
  have stop : ∀ {t u : Text}, (∀ c ∈ t, isSpace c = false) → t ≠ [] →
      (t ++ u).dropWhile isSpace = t ++ u := by
    intro t u solid nonempty
    cases t with
    | nil => exact absurd rfl nonempty
    | cons c t => exact List.dropWhile_cons_of_neg (by simp [solid c])
  have reversed : ∀ c ∈ word.reverse, isSpace c = false := fun c hc =>
    solid c (List.mem_reverse.mp hc)
  rw [trim_eq_trimEnd, List.append_assoc, List.dropWhile_append_of_pos spaces,
    stop solid nonempty, trimEnd, List.reverse_append, List.dropWhile_append]
  split
  · next gone =>
    have last := stop (u := []) reversed (by simpa using nonempty)
    rw [List.append_nil] at last
    rw [last, trimEnd, List.isEmpty_iff.mp gone]
    simp
  · rw [List.reverse_append, List.reverse_reverse, trimEnd]

/-! ## Case -/

/-- The upper case of one character. -/
def upperChar (c : UInt16) : UInt16 := if 97 ≤ c ∧ c ≤ 122 then c - 32 else c

theorem asciiUpper_eq_map : asciiUpper s = s.map upperChar := rfl

theorem asciiUpper_append {t : Text} : asciiUpper (s ++ t) = asciiUpper s ++ asciiUpper t :=
  List.map_append

/-- Letters and digits are not white space. -/
theorem alnum_not_space (h : isAlnum c = true) : isSpace c = false := by
  simp only [isAlnum, isUpperAlnum, Bool.or_eq_true, Bool.and_eq_true, decide_eq_true_eq,
    UInt16.le_iff_toNat_le] at h
  simp only [isSpace, Bool.or_eq_false_iff, Bool.and_eq_false_iff, decide_eq_false_iff_not,
    UInt16.le_iff_toNat_le, beq_eq_false_iff_ne, ne_eq, ← UInt16.toNat_inj]
  simp at *
  omega

/-- A character is alphanumeric exactly when its upper case is. -/
theorem isUpperAlnum_upperChar : isUpperAlnum (upperChar c) = isAlnum c := by
  unfold upperChar
  split
  · next lower =>
    have range := lower
    simp only [UInt16.le_iff_toNat_le] at range
    have shifted : (c - 32).toNat = c.toNat - 32 :=
      UInt16.toNat_sub_of_le _ _ (by rw [UInt16.le_iff_toNat_le]; simp at *; omega)
    have upper : isUpperAlnum (c - 32) = true := by
      simp only [isUpperAlnum, Bool.or_eq_true, Bool.and_eq_true, decide_eq_true_eq,
        UInt16.le_iff_toNat_le, shifted]
      simp at *
      omega
    simp [isAlnum, upper, lower]
  · next other =>
    have unlike : (decide (97 ≤ c) && decide (c ≤ 122)) = false := by simpa using other
    simp [isAlnum, unlike]

theorem upperChar_of_upperAlnum (h : isUpperAlnum c = true) : upperChar c = c := by
  refine if_neg fun lower => ?_
  simp only [isUpperAlnum, Bool.or_eq_true, Bool.and_eq_true, decide_eq_true_eq,
    UInt16.le_iff_toNat_le] at h lower
  simp at *
  omega

theorem isSpace_upperChar : isSpace (upperChar c) = isSpace c := by
  by_cases lower : 97 ≤ c ∧ c ≤ 122
  · have letter : isAlnum c = true := by simp [isAlnum, lower]
    have upper : isAlnum (upperChar c) = true :=
      Bool.or_eq_true_iff.mpr (.inl (isUpperAlnum_upperChar.trans letter))
    rw [alnum_not_space letter, alnum_not_space upper]
  · rw [upperChar, if_neg lower]

theorem asciiUpper_eq_self (h : ∀ c ∈ s, isUpperAlnum c = true) : asciiUpper s = s :=
  calc asciiUpper s = s.map id := List.map_congr_left fun c hc => upperChar_of_upperAlnum (h c hc)
    _ = s := List.map_id s

theorem removeSpaces_asciiUpper : removeSpaces (asciiUpper s) = asciiUpper (removeSpaces s) := by
  simp only [removeSpaces, asciiUpper_eq_map, List.filter_map]
  refine congrArg _ (List.filter_congr fun c _ => ?_)
  simp only [Function.comp_apply, isSpace_upperChar]

/-! ## Messages of a keyword and a tail -/

/-- The body is the keyword and then the tail, in any case of the ASCII letters, with any white
space before the keyword and before, inside and after the tail. -/
def Spells (keyword tail body : Text) : Prop :=
  ∃ lead word rest, body = lead ++ word ++ rest ∧ (∀ c ∈ lead, isSpace c = true) ∧
    asciiUpper word = asciiUpper keyword ∧ asciiUpper (removeSpaces rest) = asciiUpper tail

/-- A message as it is written out, with one space. -/
theorem spells_self {keyword tail : Text} (solid : ∀ c ∈ tail, isSpace c = false) :
    Spells keyword tail (keyword ++ text " " ++ tail) := by
  refine ⟨[], keyword, text " " ++ tail, by simp, nofun, rfl, congrArg _ ?_⟩
  have kept : removeSpaces tail = tail := List.filter_eq_self.mpr fun c hc => by simp [solid c hc]
  have split : removeSpaces (text " " ++ tail) = removeSpaces (text " ") ++ removeSpaces tail :=
    List.filter_append ..
  rw [split, kept]
  rfl

/-- What has an upper-case word for its upper case is letters and digits. -/
theorem alnum_of_asciiUpper {word : Text} (upper : ∀ c ∈ s, isUpperAlnum c = true)
    (h : asciiUpper word = asciiUpper s) : ∀ c ∈ word, isAlnum c = true := by
  intro c hc
  have mem : upperChar c ∈ asciiUpper word := List.mem_map_of_mem hc
  rw [h, asciiUpper_eq_self upper] at mem
  rw [← isUpperAlnum_upperChar]
  exact upper _ mem

/-- Once trimmed and in upper case, such a message is the keyword and then the tail with white
space; and it has no other characters. -/
theorem Spells.read {keyword tail body : Text} (h : Spells keyword tail body)
    (letters : ∀ c ∈ keyword, isUpperAlnum c = true) (nonempty : keyword ≠ [])
    (characters : ∀ c ∈ tail, isUpperAlnum c = true) :
    (∃ rest, asciiUpper (trim body) = keyword ++ rest ∧ removeSpaces rest = tail) ∧
      ∀ c ∈ trim body, isAlnum c = true ∨ isSpace c = true := by
  obtain ⟨lead, word, rest, rfl, spaces, hword, hrest⟩ := h
  have wordly := alnum_of_asciiUpper letters hword
  have wordy := alnum_of_asciiUpper characters hrest
  have present : word ≠ [] := by
    rintro rfl
    rw [asciiUpper_eq_self letters] at hword
    exact nonempty hword.symm
  rw [trim_append spaces (fun c hc => alnum_not_space (wordly c hc)) present]
  refine ⟨⟨asciiUpper (trimEnd rest), ?_, ?_⟩, fun c hc => ?_⟩
  · rw [asciiUpper_append, hword, asciiUpper_eq_self letters]
  · rw [removeSpaces_asciiUpper, removeSpaces_trimEnd, hrest, asciiUpper_eq_self characters]
  · rcases List.mem_append.mp hc with inside | after
    · exact .inl (wordly c inside)
    · rcases isSpace_or_mem_removeSpaces (mem_of_mem_trimEnd after) with space | solid
      · exact .inr space
      · exact .inl (wordy c solid)

end Syrotp.Text
