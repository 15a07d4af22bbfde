import Mathlib.Data.List.Basic

/-!
# Codecs

A codec writes a value as symbols and reads a value off the front of a text; what was written is
read back before any rest. So no value's text is cut short to the text of another: a reader of
whole texts that takes only what a codec writes refuses every proper prefix.
-/

namespace Syrotp

variable {σ α β : Type*}

/-- A writer and a reader of one type. -/
structure Codec (σ α : Type*) where
  encode : α → List σ
  decode : List σ → Option (α × List σ)
  roundtrip : ∀ a rest, decode (encode a ++ rest) = some (a, rest)

namespace Codec

/-- One value after another. -/
def pair (first : Codec σ α) (second : Codec σ β) : Codec σ (α × β) where
  encode v := first.encode v.1 ++ second.encode v.2
  decode input :=
    match first.decode input with
    | none => none
    | some (a, rest) => (second.decode rest).map fun r => ((a, r.1), r.2)
  roundtrip v rest := by
    rw [List.append_assoc, first.roundtrip]
    simp only [second.roundtrip, Option.map_some]

/-- Another type whose values the first one can represent. -/
def iso (c : Codec σ α) (pack : α → β) (unpack : β → α) (inverse : ∀ b, pack (unpack b) = b) :
    Codec σ β where
  encode b := c.encode (unpack b)
  decode input := (c.decode input).map fun r => (pack r.1, r.2)
  roundtrip b rest := by rw [c.roundtrip, Option.map_some, inverse]

variable [DecidableEq σ]

/-- A value after a fixed text. -/
def after (lead : List σ) (c : Codec σ α) : Codec σ α where
  encode a := lead ++ c.encode a
  decode input := if lead <+: input then c.decode (input.drop lead.length) else none
  roundtrip a rest := by
    rw [List.append_assoc, if_pos (List.prefix_append _ _), List.drop_left, c.roundtrip]

/-- A text that a symbol ends which does not occur in it. -/
def stopped (write : α → List σ) (read : List σ → Option α) (stop : σ)
    (read_write : ∀ a, read (write a) = some a) (clean : ∀ a, stop ∉ write a) : Codec σ α where
  encode a := write a ++ [stop]
  decode input :=
    match input.dropWhile (· ≠ stop) with
    | [] => none
    | _ :: rest => (read (input.takeWhile (· ≠ stop))).map fun a => (a, rest)
  roundtrip a rest := by
    have goes : ∀ x ∈ write a, decide (x ≠ stop) = true :=
      fun x hx => decide_eq_true fun same => clean a (same ▸ hx)
    have ends : decide (stop ≠ stop) = false := decide_eq_false (not_not_intro rfl)
    rw [List.append_assoc, List.singleton_append, List.dropWhile_append_of_pos goes,
      List.takeWhile_append_of_pos goes, List.dropWhile_cons, List.takeWhile_cons, ends]
    simp [read_write]

/-- Reads values with a separator before each until a symbol stops them. -/
def decodeMany (c : Codec σ α) (sep stop : σ) : Nat → List σ → Option (List α × List σ)
  | 0, _ => none
  | _ + 1, [] => none
  | fuel + 1, x :: input =>
    if x = stop then some ([], input)
    else if x = sep then
      match c.decode input with
      | none => none
      | some (a, rest) => (decodeMany c sep stop fuel rest).map fun r => (a :: r.1, r.2)
    else none

theorem decodeMany_encode (c : Codec σ α) {sep stop : σ} (ne : sep ≠ stop) (values : List α)
    (rest : List σ) : ∀ fuel, values.length < fuel →
    decodeMany c sep stop fuel (values.flatMap (fun a => sep :: c.encode a) ++ stop :: rest) =
      some (values, rest) := by
  induction values with
  | nil =>
    intro fuel enough
    obtain ⟨fuel, rfl⟩ := Nat.exists_eq_succ_of_ne_zero (Nat.ne_of_gt enough)
    simp [decodeMany]
  | cons a values ih =>
    intro fuel enough
    obtain ⟨fuel, rfl⟩ := Nat.exists_eq_succ_of_ne_zero (Nat.ne_of_gt (Nat.zero_lt_of_lt enough))
    rw [List.flatMap_cons, List.append_assoc, List.cons_append, decodeMany, if_neg ne, if_pos rfl,
      c.roundtrip]
    simp only [ih fuel (Nat.lt_of_succ_lt_succ enough), Option.map_some]

/-- A list between a first and a last symbol with a separator between its values, none of which
begins with the last symbol. -/
def list (c : Codec σ α) (start sep stop : σ) (ne : sep ≠ stop)
    (begins : ∀ a rest, (c.encode a ++ rest).head? ≠ some stop) : Codec σ (List α) where
  encode
    | [] => [start, stop]
    | a :: values => start :: (c.encode a ++ (values.flatMap (fun a => sep :: c.encode a) ++ [stop]))
  decode
    | [] => none
    | x :: input =>
      if x ≠ start then none
      else if input.head? = some stop then some ([], input.tail)
      else
        match c.decode input with
        | none => none
        | some (a, rest) => (decodeMany c sep stop rest.length rest).map fun r => (a :: r.1, r.2)
  roundtrip values rest := by
    cases values with
    | nil => simp
    | cons a values =>
      have enough : values.length <
          (values.flatMap (fun a => sep :: c.encode a) ++ stop :: rest).length := by
        have each : values.length ≤ (values.flatMap fun a => sep :: c.encode a).length := by
          induction values with
          | nil => exact Nat.zero_le _
          | cons a values ih =>
            rw [List.flatMap_cons, List.length_append, List.length_cons, List.length_cons]
            omega
        rw [List.length_append, List.length_cons]
        omega
      simp only [List.cons_append, List.append_assoc, List.nil_append, ne_eq, not_true_eq_false,
        if_false, begins, c.roundtrip, decodeMany_encode c ne values rest _ enough, Option.map_some]

/-! ## Whole texts -/

/-- The value that this text is written for. -/
def whole (c : Codec σ α) (input : List σ) : Option α :=
  match c.decode input with
  | some (a, _) => if c.encode a = input then some a else none
  | none => none

theorem whole_encode (c : Codec σ α) (a : α) : c.whole (c.encode a) = some a := by
  have read := c.roundtrip a []
  rw [List.append_nil] at read
  simp [whole, read]

/-- A text that was cut short is the text of nothing. -/
theorem whole_torn (c : Codec σ α) {a : α} {part : List σ} (h : part <+: c.encode a)
    (torn : part ≠ c.encode a) : c.whole part = none := by
  cases read : c.whole part with
  | none => rfl
  | some b =>
    have written : c.encode b = part := by
      unfold whole at read
      split at read
      · obtain ⟨written, same⟩ := Option.ite_none_right_eq_some.mp read
        obtain rfl := Option.some.inj same
        exact written
      · cases read
    obtain ⟨rest, hrest⟩ := h
    have one := c.roundtrip a []
    rw [List.append_nil, ← hrest, ← written, c.roundtrip] at one
    have none : rest = [] := (Prod.mk.inj (Option.some.inj one)).2
    rw [none, List.append_nil] at hrest
    exact absurd hrest torn

end Codec

end Syrotp
