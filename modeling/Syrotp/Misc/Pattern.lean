import Mathlib.Data.List.Basic

/-!
# Greedy patterns

The fragment of regular expressions that header parsers are made of: literals, runs of a class of
characters, and optional characters, matched from the start of the input. Runs are greedy and
backtrack: the longest one after which the rest of the pattern matches is taken. The lemmas give
the match of an input that was printed piece by piece, where no run has to give anything back.
-/

namespace Syrotp

variable {α β : Type*}

/-- One piece of a pattern. -/
inductive Piece (α : Type*) where
  | lit (s : List α)
  | opt (p : α → Bool)
  | many (p : α → Bool)
  | many1 (p : α → Bool)

/-- The longest run of `p` after which `next` succeeds, and what `next` gives there. -/
def greedy (p : α → Bool) (next : List α → Option β) : List α → Option (List α × β)
  | [] => (next []).map ([], ·)
  | c :: cs =>
    if p c then
      match greedy p next cs with
      | some (run, b) => some (c :: run, b)
      | none => (next (c :: cs)).map ([], ·)
    else (next (c :: cs)).map ([], ·)

/-- What each piece matched, when the pattern matches a prefix of the input. -/
def captures [DecidableEq α] : List (Piece α) → List α → Option (List (List α))
  | [], _ => some []
  | .lit s :: pieces, input =>
    if s.isPrefixOf input then (captures pieces (input.drop s.length)).map (s :: ·) else none
  | .opt _ :: pieces, [] => (captures pieces []).map ([] :: ·)
  | .opt p :: pieces, c :: cs =>
    if p c then
      match captures pieces cs with
      | some r => some ([c] :: r)
      | none => (captures pieces (c :: cs)).map ([] :: ·)
    else (captures pieces (c :: cs)).map ([] :: ·)
  | .many p :: pieces, input => (greedy p (captures pieces) input).map fun r => r.1 :: r.2
  | .many1 _ :: _, [] => none
  | .many1 p :: pieces, c :: cs =>
    if p c then (greedy p (captures pieces) cs).map fun r => (c :: r.1) :: r.2 else none

/-- `replace` with a pattern that has no `g` flag: the leftmost match gives way to what is made of
the parts it matched. -/
def replaceFirst [DecidableEq α] (pieces : List (Piece α)) (made : List (List α) → List α) :
    List α → List α
  | [] => []
  | c :: cs =>
    match captures pieces (c :: cs) with
    | some parts => made parts ++ (c :: cs).drop parts.flatten.length
    | none => c :: replaceFirst pieces made cs

/-- The input goes on with something outside the class. -/
def Stops (p : α → Bool) (input : List α) : Prop := ∀ c, input.head? = some c → p c = false

theorem stops_cons {p : α → Bool} {c : α} {cs : List α} (h : p c = false) : Stops p (c :: cs) := by
  intro d hd
  obtain rfl := Option.some.inj hd
  exact h

theorem stops_append {p : α → Bool} {s input : List α} (nonempty : s ≠ [])
    (none : ∀ c ∈ s, p c = false) : Stops p (s ++ input) := by
  cases s with
  | nil => exact absurd rfl nonempty
  | cons c s => exact stops_cons (none c List.mem_cons_self)

/-- A run that is followed by something else is cut off where it ends. -/
theorem takeWhile_append_stops {p : α → Bool} {run input : List α}
    (all : ∀ c ∈ run, p c = true) (stops : Stops p input) :
    (run ++ input).takeWhile p = run ∧ (run ++ input).dropWhile p = input := by
  have halt : input.takeWhile p = [] ∧ input.dropWhile p = input := by
    cases input with
    | nil => exact ⟨rfl, rfl⟩
    | cons c cs => simp [stops c rfl]
  rw [List.takeWhile_append_of_pos all, List.dropWhile_append_of_pos all, halt.1, halt.2]
  exact ⟨List.append_nil _, rfl⟩

/-- A run that is followed by something else is taken as a whole. -/
theorem greedy_append {p : α → Bool} {next : List α → Option β} {run input : List α} {b : β}
    (all : ∀ c ∈ run, p c = true) (stops : Stops p input) (h : next input = some b) :
    greedy p next (run ++ input) = some (run, b) := by
  induction run with
  | nil =>
    cases input with
    | nil => simp [greedy, h]
    | cons c cs => simp [greedy, stops c rfl, h]
  | cons c run ih =>
    simp only [List.cons_append, greedy, all c List.mem_cons_self, if_true,
      ih fun d hd => all d (List.mem_cons_of_mem _ hd)]

section Captures

variable [DecidableEq α] {p : α → Bool} {pieces : List (Piece α)} {s input : List α}
  {r : List (List α)}

theorem captures_lit (h : captures pieces input = some r) :
    captures (.lit s :: pieces) (s ++ input) = some (s :: r) := by
  have start : s.isPrefixOf (s ++ input) = true :=
    List.isPrefixOf_iff_prefix.mpr (List.prefix_append _ _)
  simp only [captures, start, if_true, List.drop_left, h, Option.map_some]

theorem captures_opt {c : α} (hc : p c = true) (h : captures pieces input = some r) :
    captures (.opt p :: pieces) (c :: input) = some ([c] :: r) := by
  simp [captures, hc, h]

theorem captures_opt_nil (stops : Stops p input) (h : captures pieces input = some r) :
    captures (.opt p :: pieces) input = some ([] :: r) := by
  cases input with
  | nil => simp [captures, h]
  | cons c cs => simp [captures, stops c rfl, h]

theorem captures_many (all : ∀ c ∈ s, p c = true) (stops : Stops p input)
    (h : captures pieces input = some r) :
    captures (.many p :: pieces) (s ++ input) = some (s :: r) := by
  simp [captures, greedy_append all stops h]

theorem captures_many_nil (stops : Stops p input) (h : captures pieces input = some r) :
    captures (.many p :: pieces) input = some ([] :: r) :=
  captures_many (s := []) (fun _ hc => nomatch hc) stops h

theorem captures_many1 (all : ∀ c ∈ s, p c = true) (nonempty : s ≠ []) (stops : Stops p input)
    (h : captures pieces input = some r) :
    captures (.many1 p :: pieces) (s ++ input) = some (s :: r) := by
  cases s with
  | nil => exact absurd rfl nonempty
  | cons c run =>
    have taken := greedy_append (fun d hd => all d (List.mem_cons_of_mem _ hd)) stops h
    simp [captures, all c List.mem_cons_self, taken]

/-! ## The first match -/

variable {made : List (List α) → List α} {t : List α} {parts : List (List α)}

theorem replaceFirst_match (nonempty : parts.flatten ≠ [])
    (h : captures pieces (parts.flatten ++ t) = some parts) :
    replaceFirst pieces made (parts.flatten ++ t) = made parts ++ t := by
  cases matched : parts.flatten with
  | nil => exact absurd matched nonempty
  | cons c cs =>
    rw [matched] at h
    simp only [List.cons_append] at h ⊢
    simp only [replaceFirst, h, matched]
    simp

/-- What no match begins in stays. -/
theorem replaceFirst_skip (unmatched : ∀ s₁ c s₂, s = s₁ ++ c :: s₂ →
    captures pieces (c :: s₂ ++ t) = none) :
    replaceFirst pieces made (s ++ t) = s ++ replaceFirst pieces made t := by
  induction s with
  | nil => rfl
  | cons c s ih =>
    have here : captures pieces (c :: (s ++ t)) = none := unmatched [] c s rfl
    have later := ih fun s₁ d s₂ split => unmatched (c :: s₁) d s₂ (by rw [split]; rfl)
    simp only [List.cons_append, replaceFirst, here, later]

end Captures

end Syrotp
