import Syrotp.Misc.JsText
import Mathlib.Data.Nat.Digits.Defs

/-!
# Address literals

The textual forms of IPv4 and IPv6 addresses that `net.isIP` of Node accepts. A literal carries
the proof that it is well formed, is printed by `render`, and names the number `address`; `isIP`
accepts just what some literal prints.
-/

namespace Syrotp

/-! ## Characters and numbers -/

def dot : UInt16 := 46

def colon : UInt16 := 58

def percent : UInt16 := 37

namespace Text

/-- `parseInt(s, 10)` of digits. -/
def decimal (s : Text) : Nat := s.foldl (fun n c => n * 10 + (c - 48).toNat) 0

def hexDigit (c : UInt16) : Nat :=
  if c < 65 then (c - 48).toNat else if c < 97 then (c - 55).toNat else (c - 87).toNat

/-- `parseInt(s, 16)` of hexadecimal digits. -/
def hexadecimal (s : Text) : Nat := s.foldl (fun n c => n * 16 + hexDigit c) 0

/-- `s.split(sep)`, but there are no pieces of nothing. -/
def fields (sep : UInt16) (s : Text) : List Text := if s = [] then [] else s.splitOn sep

/-- The text before the first `sep` in `s` and the text after it. -/
def cut (sep : Text) : Text → Option (Text × Text)
  | [] => if sep = [] then some ([], []) else none
  | c :: cs =>
    if sep.isPrefixOf (c :: cs) then some ([], (c :: cs).drop sep.length)
    else (cut sep cs).map fun r => (c :: r.1, r.2)

end Text

/-! ## What is accepted -/

/-- `25[0-5]|2[0-4]\d|1\d\d|[1-9]\d|\d`. -/
def isOctet (s : Text) : Bool :=
  s.all Text.isDigit && (1 ≤ s.length && s.length ≤ 3) && (s.length = 1 || s.head? ≠ some 48) &&
    Text.decimal s ≤ 255

/-- `[0-9a-fA-F]{1,4}`. -/
def isHextet (s : Text) : Bool :=
  s.all Text.isHexDigit && (1 ≤ s.length && s.length ≤ 4)

/-- `[0-9a-zA-Z-.:]`. -/
def isZoneChar (c : UInt16) : Bool := Text.isAlnum c || c == 45 || c == dot || c == colon

/-- `net.isIPv4`. -/
def isIPv4 (s : Text) : Bool :=
  (s.splitOn dot).length = 4 && (s.splitOn dot).all isOctet

/-- How many groups of 16 bits the fields spell, of which the last one may be dotted. -/
def groupCount : List Text → Option Nat
  | [] => some 0
  | [g] => if isHextet g then some 1 else if isIPv4 g then some 2 else none
  | g :: gs => if isHextet g then (groupCount gs).map (· + 1) else none

def gap : Text := [colon, colon]

/-- `net.isIPv6` of what has no zone. -/
def isIPv6Address (s : Text) : Bool :=
  match Text.cut gap s with
  | none => groupCount (Text.fields colon s) = some 8
  | some (left, right) =>
    (Text.fields colon left).all isHextet &&
      (groupCount (Text.fields colon right)).any fun n =>
        (Text.fields colon left).length + n ≤ 7

/-- `net.isIPv6`. -/
def isIPv6 (s : Text) : Bool :=
  isIPv6Address (s.takeWhile (· ≠ percent)) &&
    match s.dropWhile (· ≠ percent) with
    | [] => true
    | _ :: zone => zone ≠ [] && zone.all isZoneChar

/-- `net.isIP`. -/
def isIP (s : Text) : Nat := if isIPv4 s then 4 else if isIPv6 s then 6 else 0

/-! ## What it means -/

/-- `a.b.c.d`. -/
structure Ipv4Literal where
  octets : List Text
  four : octets.length = 4
  octet : ∀ o ∈ octets, isOctet o = true

namespace Ipv4Literal

def render (l : Ipv4Literal) : Text := [dot].intercalate l.octets

/-- Its 32 bits. -/
def address (l : Ipv4Literal) : Nat := Nat.ofDigits 256 (l.octets.map Text.decimal).reverse

/-- The upper and the lower 16 bits. -/
def groups (l : Ipv4Literal) : List Nat := [l.address / 65536, l.address % 65536]

end Ipv4Literal

/-- Groups of an IPv6 address, in which the last two may be spelled as an IPv4 address. -/
structure Ipv6Groups where
  hextets : List Text
  tail : Option Ipv4Literal
  hextet : ∀ g ∈ hextets, isHextet g = true

namespace Ipv6Groups

def fields (g : Ipv6Groups) : List Text := g.hextets ++ g.tail.toList.map Ipv4Literal.render

def values (g : Ipv6Groups) : List Nat :=
  g.hextets.map Text.hexadecimal ++ g.tail.toList.flatMap Ipv4Literal.groups

end Ipv6Groups

/-- An IPv6 literal. -/
structure Ipv6Literal where
  /-- The groups before `::`, if that is there. -/
  left : Option (List Text)
  /-- The groups after `::`, or all of them. -/
  right : Ipv6Groups
  zone : Option Text
  hextet : ∀ gs, left = some gs → ∀ g ∈ gs, isHextet g = true
  whole : left = none → right.values.length = 8
  gapped : ∀ gs, left = some gs → gs.length + right.values.length ≤ 7
  zoned : ∀ z, zone = some z → z ≠ [] ∧ ∀ c ∈ z, isZoneChar c = true

namespace Ipv6Literal

def renderAddress (l : Ipv6Literal) : Text :=
  match l.left with
  | none => [colon].intercalate l.right.fields
  | some gs => [colon].intercalate gs ++ gap ++ [colon].intercalate l.right.fields

def render (l : Ipv6Literal) : Text :=
  l.renderAddress ++
    match l.zone with
    | none => []
    | some z => percent :: z

/-- The eight groups of 16 bits. -/
def groups (l : Ipv6Literal) : List Nat :=
  match l.left with
  | none => l.right.values
  | some gs =>
    gs.map Text.hexadecimal ++ List.replicate (8 - (gs.length + l.right.values.length)) 0 ++
      l.right.values

/-- Its 128 bits. -/
def address (l : Ipv6Literal) : Nat := Nat.ofDigits 65536 l.groups.reverse

end Ipv6Literal

inductive IpLiteral where
  | v4 (l : Ipv4Literal)
  | v6 (l : Ipv6Literal)

def IpLiteral.render : IpLiteral → Text
  | .v4 l => l.render
  | .v6 l => l.render

/-! ## Pieces -/

namespace Text

theorem cut_eq_some {sep s : Text} {r : Text × Text} (h : cut sep s = some r) :
    s = r.1 ++ sep ++ r.2 := by
  induction s generalizing r with
  | nil =>
    simp only [cut, Option.ite_none_right_eq_some, Option.some.injEq] at h
    obtain ⟨rfl, rfl⟩ := h
    rfl
  | cons c cs ih =>
    rw [cut] at h
    split at h
    · next here =>
      obtain ⟨rest, same⟩ := List.isPrefixOf_iff_prefix.mp here
      obtain rfl := Option.some.inj h
      rw [← same, List.drop_left, List.nil_append]
    · obtain ⟨r', hr', rfl⟩ := Option.map_eq_some_iff.mp h
      rw [List.cons_append, List.cons_append, ← ih hr']

theorem intercalate_ne_nil {sep : UInt16} {l : List Text} (parts : ∀ p ∈ l, p ≠ [])
    (nonempty : l ≠ []) : [sep].intercalate l ≠ [] := by
  cases l with
  | nil => exact absurd rfl nonempty
  | cons p l =>
    have ne := parts p List.mem_cons_self
    cases l with
    | nil => simpa using ne
    | cons q l => simp [ne]

theorem fields_intercalate {sep : UInt16} {l : List Text} (parts : ∀ p ∈ l, p ≠ [] ∧ sep ∉ p) :
    fields sep ([sep].intercalate l) = l := by
  by_cases nonempty : l = []
  · rw [nonempty]
    rfl
  · rw [fields, if_neg (intercalate_ne_nil (fun p hp => (parts p hp).1) nonempty)]
    exact List.splitOn_intercalate sep (fun p hp => (parts p hp).2) nonempty

theorem intercalate_fields (sep : UInt16) (s : Text) : [sep].intercalate (fields sep s) = s := by
  unfold fields
  split
  · next empty => rw [empty]; rfl
  · exact List.intercalate_splitOn sep

end Text

theorem isHextet_plain {g : Text} (h : isHextet g = true) : g ≠ [] ∧ colon ∉ g := by
  simp only [isHextet, Bool.and_eq_true, decide_eq_true_eq, List.all_eq_true] at h
  obtain ⟨hex, some, _⟩ := h
  refine ⟨List.ne_nil_of_length_pos some, fun hc => ?_⟩
  exact absurd (hex colon hc) (by decide)

theorem isOctet_plain {o : Text} (h : isOctet o = true) : o ≠ [] ∧ ∀ c ∈ o, Text.isDigit c = true := by
  simp only [isOctet, Bool.and_eq_true, decide_eq_true_eq, List.all_eq_true] at h
  obtain ⟨⟨⟨digits, some, _⟩, _⟩, _⟩ := h
  exact ⟨List.ne_nil_of_length_pos some, digits⟩

theorem Text.cut_append {sep t : Text} {g : Text} (h : ∀ c ∈ g, sep.head? ≠ some c)
    (nonempty : sep ≠ []) :
    cut sep (g ++ t) = (cut sep t).map fun r => (g ++ r.1, r.2) := by
  induction g with
  | nil => simp
  | cons c g ih =>
    have other : sep.isPrefixOf (c :: (g ++ t)) = false := by
      cases sep with
      | nil => exact absurd rfl nonempty
      | cons d sep =>
        have ne : d ≠ c := fun same => h c List.mem_cons_self (by simp [same])
        simp [List.isPrefixOf, ne]
    rw [List.cons_append, cut, other, ih fun d hd => h d (List.mem_cons_of_mem _ hd)]
    cases cut sep t <;> rfl

/-- There is no `::` in groups that are joined by `:`. -/
theorem cut_groups {gs : List Text} (plain : ∀ g ∈ gs, g ≠ [] ∧ colon ∉ g) (t : Text) :
    Text.cut gap ([colon].intercalate gs ++ t) =
      (Text.cut gap t).map fun r => ([colon].intercalate gs ++ r.1, r.2) := by
  have skip : ∀ g : Text, colon ∉ g → ∀ t, Text.cut gap (g ++ t) =
      (Text.cut gap t).map fun r => (g ++ r.1, r.2) := fun g free t =>
    Text.cut_append (fun c hc same => free (Option.some.inj same ▸ hc)) (by decide)
  induction gs with
  | nil => simp
  | cons g gs ih =>
    obtain ⟨_, free⟩ := plain g List.mem_cons_self
    cases gs with
    | nil =>
      rw [List.intercalate_singleton]
      exact skip g free t
    | cons g' gs =>
      have tail := ih fun x hx => plain x (List.mem_cons_of_mem _ hx)
      obtain ⟨ne, free'⟩ := plain g' (List.mem_cons_of_mem _ List.mem_cons_self)
      cases g' with
      | nil => exact absurd rfl ne
      | cons c g' =>
        have start : [colon].intercalate ((c :: g') :: gs) = c :: [colon].intercalate (g' :: gs) := by
          cases gs <;> rfl
        have apart : gap.isPrefixOf (colon :: c :: ([colon].intercalate (g' :: gs) ++ t)) = false := by
          have ne : colon ≠ c := fun same => free' (same ▸ List.mem_cons_self)
          simp [gap, List.isPrefixOf, ne]
        rw [List.intercalate_cons_cons, List.append_assoc, List.append_assoc, skip g free,
          List.singleton_append, start]
        rw [start] at tail
        rw [List.cons_append, Text.cut, apart, ← List.cons_append, tail]
        cases Text.cut gap t <;> simp

/-! ## Every accepted text is a literal -/

theorem Ipv4Literal.splitOn_render (l : Ipv4Literal) : l.render.splitOn dot = l.octets := by
  refine List.splitOn_intercalate dot (fun o ho hd => ?_) ?_
  · exact absurd ((isOctet_plain (l.octet o ho)).2 dot hd) (by decide)
  · exact List.ne_nil_of_length_pos (l.four ▸ by decide)

theorem isIPv4_iff {s : Text} : isIPv4 s = true ↔ ∃ l : Ipv4Literal, l.render = s := by
  simp only [isIPv4, Bool.and_eq_true, decide_eq_true_eq, List.all_eq_true]
  constructor
  · rintro ⟨four, octet⟩
    exact ⟨⟨_, four, octet⟩, List.intercalate_splitOn dot⟩
  · rintro ⟨l, rfl⟩
    rw [l.splitOn_render]
    exact ⟨l.four, l.octet⟩

theorem Text.mem_intercalate {sep c : UInt16} {l : List Text} (h : c ∈ [sep].intercalate l) :
    c = sep ∨ ∃ p ∈ l, c ∈ p := by
  induction l with
  | nil => exact absurd h List.not_mem_nil
  | cons p l ih =>
    cases l with
    | nil => exact .inr ⟨p, List.mem_cons_self, by simpa using h⟩
    | cons q l =>
      rw [List.intercalate_cons_cons, List.mem_append, List.mem_append, List.mem_singleton] at h
      rcases h with (here | rfl) | later
      · exact .inr ⟨p, List.mem_cons_self, here⟩
      · exact .inl rfl
      · exact (ih later).imp_right fun ⟨x, hx, hc⟩ => ⟨x, List.mem_cons_of_mem _ hx, hc⟩

/-- The characters of an address without its zone. -/
def isAddressChar (c : UInt16) : Bool := Text.isHexDigit c || c == dot || c == colon

namespace Ipv4Literal

/-- It is made of digits and dots. -/
theorem render_chars (l : Ipv4Literal) {c : UInt16} (h : c ∈ l.render) :
    Text.isDigit c = true ∨ c = dot := by
  rcases Text.mem_intercalate h with rfl | ⟨o, ho, hc⟩
  · exact .inr rfl
  · exact .inl ((isOctet_plain (l.octet o ho)).2 c hc)

theorem dot_mem (l : Ipv4Literal) : dot ∈ l.render := by
  obtain ⟨octets, four, octet⟩ := l
  match octets, four with
  | [a, b, c, d], _ => simp [render, List.intercalate_cons_cons]

theorem render_plain (l : Ipv4Literal) : l.render ≠ [] ∧ colon ∉ l.render := by
  refine ⟨List.ne_nil_of_mem l.dot_mem, fun h => ?_⟩
  rcases l.render_chars h with digit | same
  · exact absurd digit (by decide)
  · exact absurd same (by decide)

theorem not_isHextet (l : Ipv4Literal) : isHextet l.render = false := by
  refine Bool.eq_false_iff.mpr fun h => ?_
  simp only [isHextet, Bool.and_eq_true, List.all_eq_true] at h
  exact absurd (h.1 dot l.dot_mem) (by decide)

end Ipv4Literal

namespace Ipv6Groups

theorem fields_plain (g : Ipv6Groups) : ∀ f ∈ g.fields, f ≠ [] ∧ colon ∉ f := by
  intro f hf
  rcases List.mem_append.mp hf with hf | hf
  · exact isHextet_plain (g.hextet f hf)
  · obtain ⟨l, _, rfl⟩ := List.mem_map.mp hf
    exact l.render_plain

/-- There are two groups in each field at most. -/
theorem fields_length (g : Ipv6Groups) : g.values.length ≤ g.fields.length + 1 := by
  obtain ⟨hextets, tail, _⟩ := g
  cases tail <;> simp [values, fields, Ipv4Literal.groups]

theorem fields_chars (g : Ipv6Groups) : ∀ f ∈ g.fields, ∀ c ∈ f, isAddressChar c = true := by
  intro f hf c hc
  rcases List.mem_append.mp hf with hf | hf
  · have hextet := g.hextet f hf
    simp only [isHextet, Bool.and_eq_true, List.all_eq_true] at hextet
    simp [isAddressChar, hextet.1 c hc]
  · obtain ⟨l, _, rfl⟩ := List.mem_map.mp hf
    rcases l.render_chars hc with digit | rfl
    · simp [isAddressChar, Text.isHexDigit, digit]
    · rfl

end Ipv6Groups

theorem groupCount_cons {g : Text} (h : isHextet g = true) (gs : List Text) :
    groupCount (g :: gs) = (groupCount gs).map (· + 1) := by
  cases gs <;> simp [groupCount, h]

/-- The fields that are counted are those of groups. -/
theorem groupCount_iff {fs : List Text} {n : Nat} :
    groupCount fs = some n ↔ ∃ g : Ipv6Groups, g.fields = fs ∧ g.values.length = n := by
  constructor
  · intro h
    induction fs generalizing n with
    | nil =>
      obtain rfl := Option.some.inj h
      exact ⟨⟨[], none, fun _ hg => absurd hg List.not_mem_nil⟩, rfl, rfl⟩
    | cons f fs ih =>
      by_cases hextet : isHextet f = true
      · rw [groupCount_cons hextet] at h
        obtain ⟨m, hm, rfl⟩ := Option.map_eq_some_iff.mp h
        obtain ⟨g, rfl, count⟩ := ih hm
        refine ⟨⟨f :: g.hextets, g.tail, fun x hx => ?_⟩, rfl, ?_⟩
        · rcases List.mem_cons.mp hx with rfl | hx
          · exact hextet
          · exact g.hextet x hx
        · rw [← count]
          simp [Ipv6Groups.values]
      · cases fs with
        | nil =>
          simp only [groupCount, hextet, Bool.false_eq_true, if_false,
            Option.ite_none_right_eq_some, Option.some.injEq] at h
          obtain ⟨dotted, rfl⟩ := h
          obtain ⟨l, rfl⟩ := isIPv4_iff.mp dotted
          exact ⟨⟨[], some l, fun _ hg => absurd hg List.not_mem_nil⟩, rfl, rfl⟩
        | cons f' fs => simp [groupCount, hextet] at h
  · rintro ⟨⟨hextets, tail, hextet⟩, rfl, rfl⟩
    induction hextets with
    | nil =>
      cases tail with
      | none => rfl
      | some l =>
        have dotted : isIPv4 l.render = true := isIPv4_iff.mpr ⟨l, rfl⟩
        simp [Ipv6Groups.fields, Ipv6Groups.values, groupCount, l.not_isHextet, dotted,
          Ipv4Literal.groups]
    | cons f hextets ih =>
      have rest := ih fun x hx => hextet x (List.mem_cons_of_mem _ hx)
      simp only [Ipv6Groups.fields, Ipv6Groups.values, List.cons_append, List.map_cons,
        List.length_cons] at rest ⊢
      rw [groupCount_cons (hextet f List.mem_cons_self), rest]
      rfl

namespace Ipv6Literal

theorem left_plain (l : Ipv6Literal) {gs : List Text} (h : l.left = some gs) :
    ∀ g ∈ gs, g ≠ [] ∧ colon ∉ g := fun g hg => isHextet_plain (l.hextet gs h g hg)

theorem renderAddress_chars (l : Ipv6Literal) {c : UInt16} (h : c ∈ l.renderAddress) :
    isAddressChar c = true := by
  have joined : ∀ {fs : List Text}, (∀ f ∈ fs, ∀ c ∈ f, isAddressChar c = true) →
      c ∈ [colon].intercalate fs → isAddressChar c = true := by
    intro fs all hc
    rcases Text.mem_intercalate hc with rfl | ⟨f, hf, hc⟩
    · rfl
    · exact all f hf c hc
  unfold renderAddress at h
  split at h
  · exact joined l.right.fields_chars h
  · next gs left =>
    rw [List.mem_append, List.mem_append] at h
    rcases h with (before | between) | after
    · refine joined (fun g hg c hc => ?_) before
      have hextet := l.hextet gs left g hg
      simp only [isHextet, Bool.and_eq_true, List.all_eq_true] at hextet
      simp [isAddressChar, hextet.1 c hc]
    · have : c = colon := by simpa [gap] using between
      rw [this]
      rfl
    · exact joined l.right.fields_chars after

theorem percent_free (l : Ipv6Literal) : ∀ c ∈ l.renderAddress, decide (c ≠ percent) = true := by
  intro c hc
  refine decide_eq_true fun same => ?_
  rw [same] at hc
  exact absurd (l.renderAddress_chars hc) (by decide)

end Ipv6Literal

/-- Where a literal has no `::`, there is none in its text. -/
theorem cut_fields (g : Ipv6Groups) : Text.cut gap ([colon].intercalate g.fields) = none := by
  have none := cut_groups g.fields_plain []
  rw [List.append_nil] at none
  rw [none]
  rfl

/-- Where it has one, it is the first in its text. -/
theorem cut_gap {gs : List Text} (plain : ∀ g ∈ gs, g ≠ [] ∧ colon ∉ g) (t : Text) :
    Text.cut gap ([colon].intercalate gs ++ gap ++ t) = some ([colon].intercalate gs, t) := by
  rw [List.append_assoc, cut_groups plain]
  simp [gap, Text.cut, List.isPrefixOf]

theorem isIPv6Address_iff {s : Text} :
    isIPv6Address s = true ↔ ∃ l : Ipv6Literal, l.renderAddress = s ∧ l.zone = none := by
  constructor
  · intro h
    unfold isIPv6Address at h
    split at h
    · obtain ⟨g, same, whole⟩ := groupCount_iff.mp (of_decide_eq_true h)
      refine ⟨⟨none, g, none, nofun, fun _ => whole, nofun, nofun⟩, ?_, rfl⟩
      rw [Ipv6Literal.renderAddress, same]
      exact Text.intercalate_fields colon s
    · next left right parts =>
      simp only [Bool.and_eq_true, List.all_eq_true, Option.any_eq_true, decide_eq_true_eq] at h
      obtain ⟨hextet, n, count, gapped⟩ := h
      obtain ⟨g, same, rfl⟩ := groupCount_iff.mp count
      refine ⟨⟨some (Text.fields colon left), g, none, ?_, nofun, ?_, nofun⟩, ?_, rfl⟩
      · rintro gs ⟨⟩
        exact hextet
      · rintro gs ⟨⟩
        exact gapped
      · simp only [Ipv6Literal.renderAddress, same, Text.intercalate_fields]
        exact (Text.cut_eq_some parts).symm
  · rintro ⟨l, rfl, _⟩
    unfold isIPv6Address
    cases left : l.left with
    | none =>
      have count := groupCount_iff.mpr ⟨l.right, rfl, l.whole left⟩
      simp only [Ipv6Literal.renderAddress, left, cut_fields]
      rw [Text.fields_intercalate l.right.fields_plain, count]
      rfl
    | some gs =>
      have count := groupCount_iff.mpr ⟨l.right, rfl, rfl⟩
      have plain := l.left_plain left
      simp only [Ipv6Literal.renderAddress, left, cut_gap plain]
      rw [Text.fields_intercalate plain, Text.fields_intercalate l.right.fields_plain, count]
      simp only [Bool.and_eq_true, List.all_eq_true, Option.any_some, decide_eq_true_eq]
      exact ⟨l.hextet gs left, l.gapped gs left⟩

namespace Ipv6Literal

/-- The zone of a literal starts at its `%`. -/
theorem split_zone (l : Ipv6Literal) :
    l.render.takeWhile (· ≠ percent) = l.renderAddress ∧
      l.render.dropWhile (· ≠ percent) =
        match l.zone with
        | none => []
        | some z => percent :: z := by
  unfold render
  rw [List.takeWhile_append_of_pos l.percent_free, List.dropWhile_append_of_pos l.percent_free]
  cases l.zone with
  | none => simp
  | some z => simp [percent]

theorem colon_mem (l : Ipv6Literal) : colon ∈ l.render := by
  refine List.mem_append_left _ ?_
  unfold renderAddress
  cases left : l.left with
  | none =>
    have whole := l.whole left
    have many : 2 ≤ l.right.fields.length := by
      have := l.right.fields_length
      omega
    generalize l.right.fields = fields at many
    match fields, many with
    | a :: b :: rest, _ => simp
  | some gs => simp [gap]

end Ipv6Literal

theorem isIPv6_iff {s : Text} : isIPv6 s = true ↔ ∃ l : Ipv6Literal, l.render = s := by
  unfold isIPv6
  constructor
  · intro h
    rw [Bool.and_eq_true] at h
    obtain ⟨address, zone⟩ := h
    obtain ⟨l, same, _⟩ := isIPv6Address_iff.mp address
    have parts : s.takeWhile (· ≠ percent) ++ s.dropWhile (· ≠ percent) = s :=
      List.takeWhile_append_dropWhile
    split at zone
    · next empty =>
      refine ⟨{ l with zone := none, zoned := nofun }, ?_⟩
      rw [empty, List.append_nil] at parts
      exact (List.append_nil _).trans (same.trans parts)
    · next c z rest =>
      simp only [Bool.and_eq_true, decide_eq_true_eq, List.all_eq_true] at zone
      have start : c = percent := by
        have first := List.head?_dropWhile_not (fun c => decide (c ≠ percent)) s
        rw [rest] at first
        simpa using first
      refine ⟨{ l with zone := some z, zoned := ?_ }, ?_⟩
      · rintro _ ⟨⟩
        exact zone
      · rw [rest, start] at parts
        exact (congrArg (· ++ percent :: z) same).trans parts
  · rintro ⟨l, rfl⟩
    obtain ⟨before, after⟩ := l.split_zone
    rw [before, after, Bool.and_eq_true]
    refine ⟨isIPv6Address_iff.mpr ⟨{ l with zone := none, zoned := nofun }, rfl, rfl⟩, ?_⟩
    cases zone : l.zone with
    | none => rfl
    | some z =>
      simp only [Bool.and_eq_true, decide_eq_true_eq, List.all_eq_true]
      exact l.zoned z zone

theorem isIP_v4 (l : Ipv4Literal) : isIP l.render = 4 := by
  rw [isIP, if_pos (isIPv4_iff.mpr ⟨l, rfl⟩)]

theorem isIP_v6 (l : Ipv6Literal) : isIP l.render = 6 := by
  have other : ¬isIPv4 l.render = true := by
    intro h
    obtain ⟨l', same⟩ := isIPv4_iff.mp h
    exact l'.render_plain.2 (same ▸ l.colon_mem)
  rw [isIP, if_neg other, if_pos (isIPv6_iff.mpr ⟨l, rfl⟩)]

/-- The texts that are accepted are those of literals. -/
theorem isIP_iff {s : Text} : isIP s ≠ 0 ↔ ∃ l : IpLiteral, l.render = s := by
  constructor
  · intro h
    unfold isIP at h
    split at h
    · next v4 =>
      obtain ⟨l, rfl⟩ := isIPv4_iff.mp v4
      exact ⟨.v4 l, rfl⟩
    · split at h
      · next v6 =>
        obtain ⟨l, rfl⟩ := isIPv6_iff.mp v6
        exact ⟨.v6 l, rfl⟩
      · exact absurd rfl h
  · rintro ⟨l | l, rfl⟩
    · exact fun h => absurd ((isIP_v4 l).symm.trans h) (by decide)
    · exact fun h => absurd ((isIP_v6 l).symm.trans h) (by decide)

/-! ## Bounds -/

theorem hexDigit_lt {c : UInt16} (h : Text.isHexDigit c = true) : Text.hexDigit c < 16 := by
  have all : ∀ c : Fin 103, Text.isHexDigit (.ofNat c) = true → Text.hexDigit (.ofNat c) < 16 := by
    decide +kernel
  have below : c.toNat < 103 := by
    simp only [Text.isHexDigit, Text.isDigit, Bool.or_eq_true, Bool.and_eq_true,
      decide_eq_true_eq, UInt16.le_iff_toNat_le] at h
    have : (102 : UInt16).toNat = 102 := rfl
    have : (70 : UInt16).toNat = 70 := rfl
    have : (57 : UInt16).toNat = 57 := rfl
    omega
  have := all ⟨c.toNat, below⟩
  rw [UInt16.ofNat_toNat] at this
  exact this h

theorem hexadecimal_lt {g : Text} (h : isHextet g = true) : Text.hexadecimal g < 65536 := by
  simp only [isHextet, Bool.and_eq_true, decide_eq_true_eq, List.all_eq_true] at h
  obtain ⟨hex, _, short⟩ := h
  have bound : ∀ (s : Text) (n k : Nat), (∀ c ∈ s, Text.isHexDigit c = true) → n < 16 ^ k →
      s.foldl (fun n c => n * 16 + Text.hexDigit c) n < 16 ^ (k + s.length) := by
    intro s
    induction s with
    | nil => exact fun n k _ hn => hn
    | cons c s ih =>
      intro n k hex hn
      have digit := hexDigit_lt (hex c List.mem_cons_self)
      have exponent : k + (s.length + 1) = k + 1 + s.length := by omega
      rw [List.foldl_cons, List.length_cons, exponent]
      apply ih
      · exact fun d hd => hex d (List.mem_cons_of_mem _ hd)
      · rw [Nat.pow_succ]
        omega
  have value := bound g 0 0 hex (by decide)
  rw [Nat.zero_add] at value
  exact Nat.lt_of_lt_of_le value (Nat.pow_le_pow_right (by decide) short)

theorem Ipv4Literal.address_lt (l : Ipv4Literal) : l.address < 2 ^ 32 := by
  have bound := Nat.ofDigits_lt_base_pow_length (b := 256)
    (l := (l.octets.map Text.decimal).reverse) (by decide) fun d hd => by
      obtain ⟨o, ho, rfl⟩ := List.mem_map.mp (List.mem_reverse.mp hd)
      have octet := l.octet o ho
      simp only [isOctet, Bool.and_eq_true, decide_eq_true_eq] at octet
      exact Nat.lt_succ_of_le octet.2
  rw [List.length_reverse, List.length_map, l.four] at bound
  exact bound

namespace Ipv6Literal

theorem groups_length (l : Ipv6Literal) : l.groups.length = 8 := by
  unfold groups
  split
  · next left => exact l.whole left
  · next gs left =>
    have := l.gapped gs left
    simp only [List.length_append, List.length_map, List.length_replicate]
    omega

theorem groups_lt (l : Ipv6Literal) : ∀ g ∈ l.groups, g < 65536 := by
  have right : ∀ g ∈ l.right.values, g < 65536 := by
    intro g hg
    rcases List.mem_append.mp hg with hg | hg
    · obtain ⟨h, hh, rfl⟩ := List.mem_map.mp hg
      exact hexadecimal_lt (l.right.hextet h hh)
    · obtain ⟨v, _, hg⟩ := List.mem_flatMap.mp hg
      have := v.address_lt
      simp only [Ipv4Literal.groups, List.mem_cons, List.not_mem_nil, or_false] at hg
      omega
  intro g hg
  unfold groups at hg
  split at hg
  · exact right g hg
  · next gs left =>
    rcases List.mem_append.mp hg with hg | hg
    · rcases List.mem_append.mp hg with hg | hg
      · obtain ⟨h, hh, rfl⟩ := List.mem_map.mp hg
        exact hexadecimal_lt (l.hextet gs left h hh)
      · rw [List.eq_of_mem_replicate hg]
        decide
    · exact right g hg

end Ipv6Literal

end Syrotp
