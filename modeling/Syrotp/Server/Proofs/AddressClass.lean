import Syrotp.Server.SsrfGuard
import Syrotp.Misc.Cidr

/-!
# What is blocked

The documented ranges are ranges of numbers. `isBlockedIp` decides them for every spelling of an
address but one: where the dotted tail follows `::` directly, it cannot read the groups and
allows the address.
-/

namespace Syrotp

/-! ## The documented ranges -/

/-- 0/8, 10/8, 100.64/10, 127/8, 169.254/16, 172.16/12 and 192.168/16. -/
def documentedV4 : List (Cidr 32) :=
  [⟨0x00000000, 8⟩, ⟨0x0a000000, 8⟩, ⟨0x64400000, 10⟩, ⟨0x7f000000, 8⟩, ⟨0xa9fe0000, 16⟩,
    ⟨0xac100000, 12⟩, ⟨0xc0a80000, 16⟩]

def DisallowedV4 (n : Nat) : Prop := ∃ r ∈ documentedV4, r.Contains n

def linkLocal : Cidr 128 := ⟨0xfe80 * 2 ^ 112, 10⟩

def uniqueLocal : Cidr 128 := ⟨0xfc00 * 2 ^ 112, 7⟩

def v4Mapped : Cidr 128 := ⟨0xffff * 2 ^ 32, 96⟩

def DisallowedV6 (n : Nat) : Prop :=
  n = 0 ∨ n = 1 ∨ linkLocal.Contains n ∨ uniqueLocal.Contains n ∨
    (v4Mapped.Contains n ∧ DisallowedV4 (n % 2 ^ 32))

/-- The address of the literal is in a documented range. -/
def IpLiteral.Disallowed : IpLiteral → Prop
  | .v4 l => DisallowedV4 l.address
  | .v6 l => DisallowedV6 l.address

/-! ## IPv4 -/

theorem toNumber_octet {o : Text} (h : isOctet o = true) :
    Text.toNumber o = some (Text.decimal o) := by
  obtain ⟨nonempty, digits⟩ := isOctet_plain h
  exact if_pos ⟨nonempty, List.all_eq_true.mpr digits⟩

theorem addOctet_eq {o : Text} (h : isOctet o = true) (out : Nat) :
    addOctet out o = some (out * 256 + Text.decimal o) := by
  unfold addOctet
  rw [toNumber_octet h]
  simp only [isOctet, Bool.and_eq_true, decide_eq_true_eq] at h
  obtain ⟨⟨⟨_, some, short⟩, _⟩, byte⟩ := h
  rw [if_neg (by omega)]
  exact if_neg (by omega)

theorem ipv4ToUint32_render (l : Ipv4Literal) : ipv4ToUint32 l.render = some l.address := by
  have bound := l.address_lt
  unfold ipv4ToUint32
  rw [l.splitOn_render]
  unfold Ipv4Literal.address at bound ⊢
  obtain ⟨octets, four, octet⟩ := l
  match octets, four with
  | [a, b, c, d], _ =>
    have value : [a, b, c, d].foldlM addOctet 0 =
        some (Nat.ofDigits 256 ([a, b, c, d].map Text.decimal).reverse) := by
      simp only [List.foldlM_cons, List.foldlM_nil, addOctet_eq (octet a (by simp)),
        addOctet_eq (octet b (by simp)), addOctet_eq (octet c (by simp)),
        addOctet_eq (octet d (by simp)), Option.bind_eq_bind, Option.bind_some]
      simp [Nat.ofDigits_cons]
      omega
    rw [if_neg (by simp), value, Option.map_some, Nat.mod_eq_of_lt bound]

/-- A range is compared under its mask. -/
theorem v4InRange_iff {n : Nat} (hn : n < 2 ^ 32) {r : Cidr 32} (hr : r.network < 2 ^ 32)
    (some : 0 < r.bits) :
    v4InRange n ⟨r.network, r.bits⟩ = true ↔ r.Contains n := by
  have mask : (if r.bits = 32 then 0xffffffff else 0xffffffff <<< (32 - r.bits) % 2 ^ 32) =
      (2 ^ 32 - 1) <<< (32 - r.bits) % 2 ^ 32 := by
    split
    · next all => rw [all]; rfl
    · rfl
  unfold v4InRange
  rw [if_neg (Nat.ne_of_gt some)]
  simp only [mask, decide_eq_true_eq]
  exact land_highMask_eq_iff _ _ hn hr

theorem blockedV4Ranges_eq :
    blockedV4Ranges = documentedV4.map fun r => ⟨r.network, r.bits⟩ := by decide +kernel

theorem isBlockedV4_iff (l : Ipv4Literal) :
    isBlockedV4 l.render = true ↔ DisallowedV4 l.address := by
  have ranges : ∀ r ∈ documentedV4, r.network < 2 ^ 32 ∧ 0 < r.bits := by decide
  unfold isBlockedV4 DisallowedV4
  simp only [ipv4ToUint32_render, blockedV4Ranges_eq, List.any_map, List.any_eq_true,
    Function.comp_apply]
  constructor
  · rintro ⟨r, hr, inside⟩
    obtain ⟨network, some⟩ := ranges r hr
    exact ⟨r, hr, (v4InRange_iff l.address_lt network some).mp inside⟩
  · rintro ⟨r, hr, inside⟩
    obtain ⟨network, some⟩ := ranges r hr
    exact ⟨r, hr, (v4InRange_iff l.address_lt network some).mpr inside⟩

/-- The template literal is a literal. -/
theorem dottedQuad_literal {n : Nat} (hn : n < 2 ^ 32) :
    ∃ l : Ipv4Literal, l.render = dottedQuad n ∧ l.address = n := by
  have byte : ∀ b : Fin 256, isOctet (Text.ofInt (b : Nat)) = true ∧
      Text.decimal (Text.ofInt (b : Nat)) = b := by decide +kernel
  have low : ∀ m : Nat, m &&& 0xff = m % 256 := fun m => Nat.and_two_pow_sub_one_eq_mod m 8
  let bytes : List Nat := [n >>> 24, n >>> 16, n >>> 8, n].map (· % 256)
  have octet : ∀ b ∈ bytes, isOctet (Text.ofInt b) = true ∧ Text.decimal (Text.ofInt b) = b := by
    intro b hb
    obtain ⟨m, _, rfl⟩ := List.mem_map.mp hb
    exact byte ⟨m % 256, Nat.mod_lt _ (by decide)⟩
  refine ⟨⟨bytes.map fun (b : Nat) => Text.ofInt b, rfl, fun o ho => ?_⟩, ?_, ?_⟩
  · obtain ⟨b, hb, rfl⟩ := List.mem_map.mp ho
    exact (octet b hb).1
  · simp only [Ipv4Literal.render, dottedQuad, low, bytes, List.map_cons, List.map_nil]
  · have values : (bytes.map fun (b : Nat) => Text.ofInt b).map Text.decimal = bytes := by
      rw [List.map_map]
      exact (List.map_congr_left fun b hb => (octet b hb).2).trans (List.map_id _)
    rw [Ipv4Literal.address, values]
    simp [bytes, Nat.shiftRight_eq_div_pow, Nat.ofDigits_cons]
    omega

/-! ## The groups of a literal -/

/-- The dotted tail follows `::`. -/
def Ipv6Literal.TailAfterGap (l : Ipv6Literal) : Prop :=
  l.left ≠ none ∧ l.right.hextets = [] ∧ l.right.tail ≠ none

instance (l : Ipv6Literal) : Decidable l.TailAfterGap :=
  inferInstanceAs (Decidable (_ ∧ _ ∧ _))

theorem isDottedQuad_render (l : Ipv4Literal) : isDottedQuad l.render = true := by
  unfold isDottedQuad
  simp only [l.splitOn_render, l.four, decide_true, Bool.true_and, List.all_eq_true]
  intro o ho
  have octet := l.octet o ho
  simp only [isOctet, Bool.and_eq_true] at octet ⊢
  exact ⟨octet.1.1.1, octet.1.1.2⟩

/-- A dotted quad has dots, and no colon. -/
theorem isDottedQuad_chars {s : Text} (h : isDottedQuad s = true) : dot ∈ s ∧ colon ∉ s := by
  simp only [isDottedQuad, Bool.and_eq_true, decide_eq_true_eq, List.all_eq_true] at h
  obtain ⟨four, parts⟩ := h
  constructor
  · by_contra none
    rw [List.splitOn_eq_singleton none] at four
    exact absurd four (by simp)
  · intro hc
    have joined : [dot].intercalate (s.splitOn dot) = s := List.intercalate_splitOn dot
    rw [← joined] at hc
    rcases Text.mem_intercalate hc with same | ⟨p, hp, hc⟩
    · exact absurd same (by decide)
    · exact absurd ((parts p hp).1 colon hc) (by decide)

/-- A dotted quad at the end is taken off with what is before it. -/
theorem v4Tail_append {before : Text} (plain : ∀ c ∈ before, isLineTerminator c = false)
    (v : Ipv4Literal) :
    v4Tail (before ++ colon :: v.render) = some (before ++ [colon], v.render) := by
  have free : ∀ c ∈ v.render.reverse, decide (c ≠ colon) = true := by
    intro c hc
    refine decide_eq_true fun same => ?_
    exact v.render_plain.2 (same ▸ List.mem_reverse.mp hc)
  have reversed : (before ++ colon :: v.render).reverse =
      v.render.reverse ++ (colon :: before.reverse) := by simp
  have whole : (colon :: before.reverse).takeWhile (fun c => !isLineTerminator c) =
      colon :: before.reverse := by
    have all : ∀ c ∈ colon :: before.reverse, (!isLineTerminator c) = true := by
      intro c hc
      rcases List.mem_cons.mp hc with rfl | hc
      · rfl
      · rw [plain c (List.mem_reverse.mp hc)]
        rfl
    have taken : (colon :: before.reverse ++ []).takeWhile (fun c => !isLineTerminator c) = _ :=
      List.takeWhile_append_of_pos all
    simpa using taken
  unfold v4Tail
  rw [reversed, List.takeWhile_append_of_pos free, List.dropWhile_append_of_pos free]
  have stop : decide (colon ≠ colon) = false := by decide
  simp only [List.takeWhile_cons, List.dropWhile_cons, stop]
  simp [isDottedQuad_render, whole]

/-- Without a dot there is no dotted tail. -/
theorem v4Tail_none {s : Text} (h : dot ∉ s) : v4Tail s = none := by
  unfold v4Tail
  refine if_neg fun ⟨_, quad⟩ => h ?_
  have inside := (isDottedQuad_chars quad).1
  exact List.mem_reverse.mp ((List.takeWhile_sublist _).subset (List.mem_reverse.mp inside))

theorem hextets_plain {gs : List Text} (h : ∀ g ∈ gs, isHextet g = true) :
    ∀ g ∈ gs, g ≠ [] ∧ colon ∉ g := fun g hg => isHextet_plain (h g hg)

theorem parseGroups_eq {gs : List Text} (h : ∀ g ∈ gs, isHextet g = true) :
    parseGroups gs = some (gs.map Text.hexadecimal) := if_pos (List.all_eq_true.mpr h)

theorem expandGroups_whole {gs : List Text} (hextet : ∀ g ∈ gs, isHextet g = true)
    {trailing : List Nat} (whole : gs.length + trailing.length = 8) :
    expandGroups ([colon].intercalate gs) trailing =
      some (gs.map Text.hexadecimal ++ trailing) := by
  have none : Text.cut gap ([colon].intercalate gs) = none := by
    have cut := cut_groups (hextets_plain hextet) []
    rw [List.append_nil] at cut
    rw [cut]
    rfl
  unfold expandGroups
  rw [none]
  simp only [Text.fields_intercalate (hextets_plain hextet), joinGroups, parseGroups_eq hextet]
  rw [if_neg (by simp; omega)]
  exact (if_neg (by simp; omega)).trans (by simp)

theorem expandGroups_gap {gs hs : List Text} (left : ∀ g ∈ gs, isHextet g = true)
    (right : ∀ g ∈ hs, isHextet g = true) {trailing : List Nat}
    (gapped : gs.length + hs.length + trailing.length ≤ 7) :
    expandGroups ([colon].intercalate gs ++ gap ++ [colon].intercalate hs) trailing =
      some (gs.map Text.hexadecimal ++
        List.replicate (8 - (gs.length + hs.length + trailing.length)) 0 ++
        hs.map Text.hexadecimal ++ trailing) := by
  unfold expandGroups
  rw [cut_gap (hextets_plain left)]
  simp only [Text.fields_intercalate (hextets_plain left),
    Text.fields_intercalate (hextets_plain right), joinGroups, parseGroups_eq left,
    parseGroups_eq right]
  rw [if_neg (by omega)]
  exact if_neg (by simp; omega)

/-- Nothing is read of a head that ends in a colon. -/
theorem expandGroups_colon {gs : List Text} (left : ∀ g ∈ gs, isHextet g = true)
    (trailing : List Nat) : expandGroups ([colon].intercalate gs ++ [colon]) trailing = none := by
  have empty : [] ∈ Text.fields colon ([colon].intercalate gs ++ [colon]) := by
    rw [Text.fields, if_neg (by simp), List.splitOn_append_cons_self]
    exact List.mem_append_right _ (by simp)
  have unread : parseGroups (Text.fields colon ([colon].intercalate gs ++ [colon])) = none :=
    if_neg fun all => absurd (List.all_eq_true.mp all [] empty) (by decide)
  have none : Text.cut gap ([colon].intercalate gs ++ [colon]) = none := by
    rw [cut_groups (hextets_plain left)]
    rfl
  unfold expandGroups
  rw [none]
  dsimp only
  rw [joinGroups, unread]
  split
  · rfl
  · rfl

theorem Text.intercalate_append {sep : UInt16} {l : List Text} (nonempty : l ≠ []) (x : Text) :
    [sep].intercalate (l ++ [x]) = [sep].intercalate l ++ sep :: x := by
  induction l with
  | nil => exact absurd rfl nonempty
  | cons p l ih =>
    cases l with
    | nil => simp
    | cons q l =>
      have rest := ih (List.cons_ne_nil q l)
      rw [List.cons_append, List.cons_append, List.intercalate_cons_cons, ← List.cons_append, rest,
        List.intercalate_cons_cons]
      simp

theorem isLineTerminator_addressChar {c : UInt16} (h : isAddressChar c = true) :
    isLineTerminator c = false := by
  refine Bool.eq_false_iff.mpr fun terminator => ?_
  simp only [isLineTerminator, Bool.or_eq_true, beq_iff_eq] at terminator
  rcases terminator with ((rfl | rfl) | rfl) | rfl
  all_goals exact absurd h (by decide)

/-- The dotted tail gives the last two groups. -/
theorem ipv6Groups_append {before : Text} (plain : ∀ c ∈ before, isAddressChar c = true)
    (nonempty : before ≠ []) (v : Ipv4Literal) :
    ipv6Groups (before ++ colon :: v.render) = expandGroups before v.groups := by
  have bound := v.address_lt
  have low : ∀ m : Nat, m &&& 0xffff = m % 65536 := fun m => Nat.and_two_pow_sub_one_eq_mod m 16
  have groups : [v.address >>> 16 &&& 0xffff, v.address &&& 0xffff] = v.groups := by
    rw [low, low, Nat.shiftRight_eq_div_pow, Nat.mod_eq_of_lt (by omega)]
    rfl
  unfold ipv6Groups
  rw [v4Tail_append (fun c hc => isLineTerminator_addressChar (plain c hc)) v]
  simp [ipv4ToUint32_render, nonempty, groups]

namespace Ipv6Literal

theorem dot_free (l : Ipv6Literal) (tail : l.right.tail = none) : dot ∉ l.renderAddress := by
  have joined : ∀ {gs : List Text}, (∀ g ∈ gs, isHextet g = true) →
      dot ∉ [colon].intercalate gs := by
    intro gs hextet h
    rcases Text.mem_intercalate h with same | ⟨g, hg, h⟩
    · exact absurd same (by decide)
    · have chars := hextet g hg
      simp only [isHextet, Bool.and_eq_true, List.all_eq_true] at chars
      exact absurd (chars.1 dot h) (by decide)
  have fields : l.right.fields = l.right.hextets := by simp [Ipv6Groups.fields, tail]
  unfold renderAddress
  rw [fields]
  split
  · exact joined l.right.hextet
  · next gs left =>
    simp only [List.mem_append, not_or]
    exact ⟨⟨joined (l.hextet gs left), by decide⟩, joined l.right.hextet⟩

/-- Without a dotted tail the groups are read. -/
theorem ipv6Groups_plain (l : Ipv6Literal) (tail : l.right.tail = none) :
    ipv6Groups l.renderAddress = some l.groups := by
  have fields : l.right.fields = l.right.hextets := by simp [Ipv6Groups.fields, tail]
  have values : l.right.values = l.right.hextets.map Text.hexadecimal := by
    simp [Ipv6Groups.values, tail]
  unfold ipv6Groups
  rw [v4Tail_none (l.dot_free tail)]
  cases left : l.left with
  | none =>
    have whole := l.whole left
    rw [values, List.length_map] at whole
    simp only [renderAddress, left, fields, groups, values]
    rw [expandGroups_whole l.right.hextet (by simpa using whole), List.append_nil]
  | some gs =>
    have gapped := l.gapped gs left
    rw [values, List.length_map] at gapped
    simp only [renderAddress, left, fields, groups, values, List.length_map]
    rw [expandGroups_gap (l.hextet gs left) l.right.hextet (by simpa using gapped)]
    simp

/-- With one they are read unless it follows `::`. -/
theorem ipv6Groups_tail (l : Ipv6Literal) {v : Ipv4Literal} (tail : l.right.tail = some v) :
    ipv6Groups l.renderAddress =
      if l.left ≠ none ∧ l.right.hextets = [] then none else some l.groups := by
  have fields : l.right.fields = l.right.hextets ++ [v.render] := by
    simp [Ipv6Groups.fields, tail]
  have values : l.right.values = l.right.hextets.map Text.hexadecimal ++ v.groups := by
    simp [Ipv6Groups.values, tail]
  have two : v.groups.length = 2 := rfl
  have plain : ∀ {before : Text}, l.renderAddress = before ++ colon :: v.render →
      ∀ c ∈ before, isAddressChar c = true := fun parts c hc =>
    l.renderAddress_chars (parts ▸ List.mem_append_left _ hc)
  cases left : l.left with
  | none =>
    have whole := l.whole left
    rw [values, List.length_append, List.length_map] at whole
    have some : l.right.hextets ≠ [] := List.ne_nil_of_length_pos (by omega)
    have parts : l.renderAddress = [colon].intercalate l.right.hextets ++ colon :: v.render := by
      simp only [renderAddress, left, fields, Text.intercalate_append some]
    have nonempty : [colon].intercalate l.right.hextets ≠ [] :=
      Text.intercalate_ne_nil (fun g hg => (isHextet_plain (l.right.hextet g hg)).1) some
    rw [if_neg (by simp), parts, ipv6Groups_append (plain parts) nonempty,
      expandGroups_whole l.right.hextet whole]
    simp only [groups, left, values]
  | some gs =>
    have gapped := l.gapped gs left
    rw [values, List.length_append, List.length_map, ← Nat.add_assoc] at gapped
    by_cases direct : l.right.hextets = []
    · have parts : l.renderAddress = ([colon].intercalate gs ++ [colon]) ++ colon :: v.render := by
        simp only [renderAddress, left, fields, direct, gap]
        simp
      rw [if_pos ⟨by simp, direct⟩, parts, ipv6Groups_append (plain parts) (by simp)]
      exact expandGroups_colon (l.hextet gs left) _
    · have parts : l.renderAddress =
          ([colon].intercalate gs ++ gap ++ [colon].intercalate l.right.hextets) ++
            colon :: v.render := by
        simp only [renderAddress, left, fields, Text.intercalate_append direct, List.append_assoc]
      rw [if_neg fun both => direct both.2, parts, ipv6Groups_append (plain parts) (by simp [gap]),
        expandGroups_gap (l.hextet gs left) l.right.hextet gapped]
      simp only [groups, left, values, List.length_append, List.length_map, Nat.add_assoc,
        List.append_assoc]

/-- So there is one spelling that is not read. -/
theorem ipv6Groups_render (l : Ipv6Literal) :
    ipv6Groups l.renderAddress = if l.TailAfterGap then none else some l.groups := by
  cases tail : l.right.tail with
  | none =>
    rw [ipv6Groups_plain l tail, if_neg fun h => h.2.2 tail]
  | some v =>
    rw [ipv6Groups_tail l tail]
    simp [TailAfterGap, tail]

end Ipv6Literal

/-! ## IPv6 -/

theorem linkLocal_iff {a : Nat} (ha : a < 65536) : a &&& 0xffc0 = 0xfe80 ↔ a / 64 = 1018 :=
  land_highMask_eq_iff 16 6 ha (show 0xfe80 < 2 ^ 16 by decide)

theorem uniqueLocal_iff {a : Nat} (ha : a < 65536) : a &&& 0xfe00 = 0xfc00 ↔ a / 512 = 126 :=
  land_highMask_eq_iff 16 9 ha (show 0xfc00 < 2 ^ 16 by decide)

/-- What is asked of the groups is what is documented of the number. -/
theorem isBlockedGroups_iff {a b c d e f g h : Nat} (ha : a < 65536) (hb : b < 65536)
    (hc : c < 65536) (hd : d < 65536) (he : e < 65536) (hf : f < 65536) (hg : g < 65536)
    (hh : h < 65536) :
    isBlockedGroups [a, b, c, d, e, f, g, h] = true ↔
      DisallowedV6 (Nat.ofDigits 65536 [h, g, f, e, d, c, b, a]) := by
  have value : Nat.ofDigits 65536 [h, g, f, e, d, c, b, a] = a * 2 ^ 112 + b * 2 ^ 96 + c * 2 ^ 80 +
      d * 2 ^ 64 + e * 2 ^ 48 + f * 2 ^ 32 + g * 2 ^ 16 + h := by
    simp [Nat.ofDigits_cons]
    omega
  have low : g <<< 16 ||| h = g * 2 ^ 16 + h := by
    rw [← Nat.shiftLeft_add_eq_or_of_lt hh, Nat.shiftLeft_eq]
  obtain ⟨l, render, address⟩ := dottedQuad_literal (show g * 2 ^ 16 + h < 2 ^ 32 by omega)
  have embedded : isBlockedV4 (dottedQuad (g <<< 16 ||| h)) = true ↔
      DisallowedV4 (g * 2 ^ 16 + h) := by
    rw [low, ← render, isBlockedV4_iff, address]
  have zero : Nat.ofDigits 65536 [h, g, f, e, d, c, b, a] = 0 ↔
      a = 0 ∧ b = 0 ∧ c = 0 ∧ d = 0 ∧ e = 0 ∧ f = 0 ∧ g = 0 ∧ h = 0 := by
    rw [value]
    omega
  have one : Nat.ofDigits 65536 [h, g, f, e, d, c, b, a] = 1 ↔
      a = 0 ∧ b = 0 ∧ c = 0 ∧ d = 0 ∧ e = 0 ∧ f = 0 ∧ g = 0 ∧ h = 1 := by
    rw [value]
    omega
  have local10 : linkLocal.Contains (Nat.ofDigits 65536 [h, g, f, e, d, c, b, a]) ↔
      a / 64 = 1018 := by
    simp only [linkLocal, Cidr.Contains]
    rw [value]
    omega
  have unique : uniqueLocal.Contains (Nat.ofDigits 65536 [h, g, f, e, d, c, b, a]) ↔
      a / 512 = 126 := by
    simp only [uniqueLocal, Cidr.Contains]
    rw [value]
    omega
  have mapped : v4Mapped.Contains (Nat.ofDigits 65536 [h, g, f, e, d, c, b, a]) ↔
      a = 0 ∧ b = 0 ∧ c = 0 ∧ d = 0 ∧ e = 0 ∧ f = 0xffff := by
    simp only [v4Mapped, Cidr.Contains]
    rw [value]
    omega
  have last : Nat.ofDigits 65536 [h, g, f, e, d, c, b, a] % 2 ^ 32 = g * 2 ^ 16 + h := by
    rw [value]
    omega
  unfold isBlockedGroups DisallowedV6
  rw [zero, one, local10, unique, mapped, last, ← embedded, ← linkLocal_iff ha,
    ← uniqueLocal_iff ha]
  simp [and_assoc]

/-- What the pattern of mapped addresses says of the first characters. -/
theorem mappedQuad_eq_some {s quad : Text} (h : mappedQuad s = some quad) :
    isDottedQuad quad = true ∧ ∃ ffff : Text, isHextet ffff = true ∧
      Text.hexadecimal ffff = 0xffff ∧ s = gap ++ [colon].intercalate [ffff, quad] := by
  unfold mappedQuad at h
  rw [Option.ite_none_right_eq_some] at h
  obtain ⟨⟨upper, dotted⟩, rest⟩ := h
  obtain rfl := Option.some.inj rest
  refine ⟨dotted, ?_⟩
  have colons : ∀ c : UInt16, (if 97 ≤ c ∧ c ≤ 122 then c - 32 else c) = 58 → c = colon := by
    unfold colon
    grind
  have letters : ∀ c : UInt16, (if 97 ≤ c ∧ c ≤ 122 then c - 32 else c) = 70 →
      Text.isHexDigit c = true ∧ Text.hexDigit c = 15 := by
    intro c hc
    have either : c = 70 ∨ c = 102 := by grind
    rcases either with rfl | rfl <;> exact ⟨rfl, rfl⟩
  have parts := List.take_append_drop 7 s
  have seven : (s.take 7).length = 7 := by
    have length := congrArg List.length upper
    rw [Text.asciiUpper, List.length_map] at length
    exact length.trans (by decide)
  generalize s.take 7 = start at upper parts seven
  match start, seven with
  | [c₀, c₁, f₀, f₁, f₂, f₃, c₂], _ =>
    obtain ⟨h₀, h₁, h₂, h₃, h₄, h₅, h₆⟩ : _ ∧ _ ∧ _ ∧ _ ∧ _ ∧ _ ∧ _ := by
      simpa only [Text.asciiUpper, List.map_cons, List.map_nil, List.cons.injEq, and_true] using
        upper.trans (show text "::FFFF:" = [58, 58, 70, 70, 70, 70, 58] by decide)
    obtain rfl := colons c₀ h₀
    obtain rfl := colons c₁ h₁
    obtain rfl := colons c₂ h₆
    refine ⟨[f₀, f₁, f₂, f₃], ?_, ?_, ?_⟩
    · simp [isHextet, letters f₀ h₂, letters f₁ h₃, letters f₂ h₄, letters f₃ h₅]
    · simp [Text.hexadecimal, letters f₀ h₂, letters f₁ h₃, letters f₂ h₄, letters f₃ h₅]
    · rw [← parts]
      simp [gap, List.intercalate_cons_cons]

namespace Ipv6Literal

/-- A literal of that pattern spells out an embedded address. -/
theorem mapped_literal (l : Ipv6Literal) {quad : Text}
    (h : mappedQuad l.renderAddress = some quad) :
    ∃ v : Ipv4Literal, v.render = quad ∧ ¬l.TailAfterGap ∧
      l.groups = [0, 0, 0, 0, 0, 0xffff, v.address / 65536, v.address % 65536] := by
  obtain ⟨dotted, ffff, hextet, value, spelled⟩ := mappedQuad_eq_some h
  obtain ⟨dots, free⟩ := isDottedQuad_chars dotted
  have plain : ∀ f ∈ [ffff, quad], f ≠ [] ∧ colon ∉ f := by
    intro f hf
    rcases List.mem_cons.mp hf with rfl | hf
    · exact isHextet_plain hextet
    · obtain rfl := List.mem_singleton.mp hf
      exact ⟨List.ne_nil_of_mem dots, free⟩
  have cut : Text.cut gap l.renderAddress = some ([], [colon].intercalate [ffff, quad]) := by
    rw [spelled]
    exact cut_gap (fun g hg => absurd hg List.not_mem_nil) _
  cases left : l.left with
  | none =>
    simp only [renderAddress, left, cut_fields] at cut
    cases cut
  | some gs =>
    have hextets := l.hextet gs left
    simp only [renderAddress, left, cut_gap (hextets_plain hextets), Option.some.injEq,
      Prod.mk.injEq] at cut
    obtain ⟨before, after⟩ := cut
    have none : gs = [] := by
      by_contra some
      exact Text.intercalate_ne_nil (fun g hg => (isHextet_plain (hextets g hg)).1) some before
    have fields : l.right.fields = [ffff, quad] := by
      rw [← Text.fields_intercalate l.right.fields_plain, after, Text.fields_intercalate plain]
    cases tail : l.right.tail with
    | none =>
      have all : l.right.hextets = [ffff, quad] := by simpa [Ipv6Groups.fields, tail] using fields
      have hextet := l.right.hextet quad (all ▸ by simp)
      simp only [isHextet, Bool.and_eq_true, List.all_eq_true] at hextet
      exact absurd (hextet.1 dot dots) (by decide)
    | some v =>
      have parts : l.right.hextets ++ [v.render] = [ffff] ++ [quad] := by
        simpa [Ipv6Groups.fields, tail] using fields
      obtain ⟨one, same⟩ := List.append_inj' parts rfl
      have values : l.right.values = [0xffff] ++ v.groups := by
        simp [Ipv6Groups.values, one, tail, value]
      refine ⟨v, List.singleton_inj.mp same, fun direct => ?_, ?_⟩
      · exact absurd (one.symm.trans direct.2.1) (List.cons_ne_nil _ _)
      · simp [groups, left, none, values, Ipv4Literal.groups]

end Ipv6Literal

theorem isBlockedGroups_groups (l : Ipv6Literal) :
    isBlockedGroups l.groups = true ↔ DisallowedV6 l.address := by
  have bound := l.groups_lt
  have eight := l.groups_length
  unfold Ipv6Literal.address
  generalize l.groups = groups at bound eight
  match groups, eight with
  | [a, b, c, d, e, f, g, h], _ =>
    exact isBlockedGroups_iff (bound a (by simp)) (bound b (by simp)) (bound c (by simp))
      (bound d (by simp)) (bound e (by simp)) (bound f (by simp)) (bound g (by simp))
      (bound h (by simp))

/-- An address in `::ffff:0:0/96` is disallowed when the embedded one is. -/
theorem disallowedV6_mapped {l : Ipv6Literal} {v : Ipv4Literal}
    (groups : l.groups = [0, 0, 0, 0, 0, 0xffff, v.address / 65536, v.address % 65536]) :
    DisallowedV6 l.address ↔ DisallowedV4 v.address := by
  have bound := v.address_lt
  have value : l.address = 0xffff * 2 ^ 32 + v.address := by
    simp [Ipv6Literal.address, groups, Nat.ofDigits_cons]
    omega
  have local10 : ¬linkLocal.Contains l.address := by
    simp only [linkLocal, Cidr.Contains, value]
    omega
  have unique : ¬uniqueLocal.Contains l.address := by
    simp only [uniqueLocal, Cidr.Contains, value]
    omega
  have mapped : v4Mapped.Contains l.address := by
    simp only [v4Mapped, Cidr.Contains, value]
    omega
  have embedded : l.address % 2 ^ 32 = v.address := by
    rw [value]
    omega
  have zero : l.address ≠ 0 := by omega
  have one : l.address ≠ 1 := by omega
  rw [DisallowedV6, embedded]
  simp [zero, one, local10, unique, mapped]

theorem isBlockedV6_iff (l : Ipv6Literal) :
    isBlockedV6 l.render = true ↔ ¬l.TailAfterGap ∧ DisallowedV6 l.address := by
  unfold isBlockedV6
  rw [l.split_zone.1]
  dsimp only
  cases mapped : mappedQuad l.renderAddress with
  | some quad =>
    obtain ⟨v, rfl, apart, groups⟩ := l.mapped_literal mapped
    simp only [apart, not_false_eq_true, true_and]
    rw [isBlockedV4_iff, disallowedV6_mapped groups]
  | none =>
    dsimp only
    rw [l.ipv6Groups_render]
    by_cases direct : l.TailAfterGap
    · simp [direct]
    · simp only [direct, if_false, not_false_eq_true, true_and]
      exact isBlockedGroups_groups l

/-- The literal writes a dotted tail directly after `::`. -/
def IpLiteral.TailAfterGap : IpLiteral → Prop
  | .v4 _ => False
  | .v6 l => l.TailAfterGap

/-- The texts `isIP` accepts are those of the literals; and of a literal `isBlockedIp` says
whether its address is in a documented range, unless it is and the dotted tail follows `::`. -/
theorem isBlockedIp_classifies (s : Text) (l : IpLiteral) :
    (isIP s ≠ 0 ↔ ∃ l : IpLiteral, l.render = s) ∧
    ((isBlockedIp l.render = true ↔ l.Disallowed) ↔ (l.TailAfterGap → ¬l.Disallowed)) := by
  refine ⟨isIP_iff, ?_⟩
  cases l with
  | v4 l =>
    have whole : isBlockedIp l.render = true ↔ DisallowedV4 l.address := by
      rw [isBlockedIp, if_pos (isIP_v4 l), isBlockedV4_iff]
    exact ⟨fun _ direct => absurd direct id, fun _ => whole⟩
  | v6 l =>
    have read : isBlockedIp l.render = true ↔ ¬l.TailAfterGap ∧ DisallowedV6 l.address := by
      rw [isBlockedIp, if_neg (by rw [isIP_v6]; decide), if_pos (isIP_v6 l), isBlockedV6_iff]
    show (isBlockedIp l.render = true ↔ DisallowedV6 l.address) ↔
      (l.TailAfterGap → ¬DisallowedV6 l.address)
    rw [read]
    by_cases direct : l.TailAfterGap
    · simp [direct]
    · simp [direct]

/-- `::0.0.0.1`. -/
def loopbackLiteral : IpLiteral :=
  .v6 {
    left := some []
    right := {
      hextets := []
      tail := some ⟨["0", "0", "0", "1"].map text, rfl, by decide⟩
      hextet := fun _ hg => absurd hg List.not_mem_nil }
    zone := none
    hextet := by
      rintro gs ⟨⟩ g hg
      exact absurd hg List.not_mem_nil
    whole := nofun
    gapped := by
      rintro gs ⟨⟩
      decide
    zoned := nofun }

/-- The loopback address in that spelling is not blocked. -/
theorem loopback_not_blocked :
    loopbackLiteral.render = text "::0.0.0.1" ∧ isIP loopbackLiteral.render = 6 ∧
      loopbackLiteral.Disallowed ∧ isBlockedIp loopbackLiteral.render = false := by
  refine ⟨by decide +kernel, by decide +kernel, .inr (.inl ?_), by decide +kernel⟩
  decide +kernel

end Syrotp
