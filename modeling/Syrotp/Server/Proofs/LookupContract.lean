import Syrotp.Server.Proofs.Egress

/-!
# What the lookup hook calls back with

The hook calls its callback once, with the first address that is allowed or with an error, and does
not look at the options. Node asks for a list of records where it selects the address family
itself, and is handed a string.
-/

namespace Syrotp

variable {P : UrlPlatform} {dns : Resolver} {hostname : Text} {opts : LookupOptions}

/-! ## One call -/

/-- The call that stands for what the hook decides. -/
def callbackArgs : Except LookupError LookupAddress → CallbackArgs
  | .ok a => handBack a
  | .error err => refuse err

theorem pickAllowed_eq (addrs : List LookupAddress) :
    pickAllowed addrs = [match addrs.find? fun a => !isBlockedIp a.address with
      | some a => handBack a
      | none => refuse .ssrfBlockedAddress] := by
  induction addrs with
  | nil => rfl
  | cons a addrs ih =>
    rw [pickAllowed, List.find?_cons]
    cases isBlockedIp a.address with
    | false => rfl
    | true => exact ih

/-- The hook calls its callback once, with what `safeLookup` decides. -/
theorem lookup_eq {allowAll : Bool} :
    lookup P allowAll dns hostname opts = [callbackArgs (safeLookup P allowAll dns hostname)] := by
  simp only [lookup, safeLookup]
  by_cases escape : allowAll
  · rw [if_pos escape, if_pos escape]
    cases dns.first hostname <;> rfl
  · rw [if_neg escape, if_neg escape]
    by_cases literal : isIP hostname ≠ 0
    · rw [if_pos literal, if_pos literal]
      split <;> rfl
    · rw [if_neg literal, if_neg literal]
      by_cases name : isBlockedHostname P hostname
      · rw [if_pos name, if_pos name]
        rfl
      · rw [if_neg name, if_neg name]
        cases dns.all hostname with
        | none => rfl
        | some addrs =>
          simp only [pickAllowed_eq]
          cases addrs.find? fun a => !isBlockedIp a.address <;> rfl

/-! ## When there is nothing to hand back -/

/-- What may be connected to: the address that the host is, or one that it resolves to. -/
def Offered (dns : Resolver) (hostname : Text) (a : LookupAddress) : Prop :=
  if isIP hostname ≠ 0 then a = ⟨hostname, isIP hostname⟩
  else ∃ addrs, dns.all hostname = some addrs ∧ a ∈ addrs

/-- The host is blocked, does not resolve, or resolves to blocked addresses only. -/
inductive LookupRefused (P : UrlPlatform) (dns : Resolver) (hostname : Text) : Prop
  | literal (literal : isIP hostname ≠ 0) (blocked : isBlockedIp hostname = true)
  | name (name : isIP hostname = 0) (blocked : isBlockedHostname P hostname = true)
  | unresolved (name : isIP hostname = 0) (failed : dns.all hostname = none)
  | addresses (name : isIP hostname = 0) {addrs : List LookupAddress}
      (resolved : dns.all hostname = some addrs)
      (blocked : ∀ a ∈ addrs, isBlockedIp a.address = true)

theorem safeLookup_error {err : LookupError} (h : safeLookup P false dns hostname = .error err) :
    LookupRefused P dns hostname := by
  unfold safeLookup at h
  rw [if_neg Bool.false_ne_true] at h
  by_cases literal : isIP hostname ≠ 0
  · rw [if_pos literal] at h
    split at h
    · next blocked => exact .literal literal blocked
    · exact nomatch h
  · have name : isIP hostname = 0 := not_not.mp literal
    rw [if_neg literal] at h
    split at h
    · next blocked => exact .name name blocked
    · split at h
      · next failed => exact .unresolved name failed
      · next addrs resolved =>
        split at h
        · exact nomatch h
        · next none =>
          refine .addresses name resolved ?_
          intro a ha
          simpa using List.find?_eq_none.mp none a ha

theorem safeLookup_offered {a : LookupAddress} (h : safeLookup P false dns hostname = .ok a) :
    Offered dns hostname a := by
  unfold safeLookup at h
  rw [if_neg Bool.false_ne_true] at h
  unfold Offered
  by_cases literal : isIP hostname ≠ 0
  · rw [if_pos literal] at h ⊢
    split at h
    · exact nomatch h
    · exact (Except.ok.inj h).symm
  · rw [if_neg literal] at h ⊢
    split at h
    · exact nomatch h
    · split at h
      · exact nomatch h
      · next addrs resolved =>
        split at h
        · next a' found =>
          obtain rfl := Except.ok.inj h
          exact ⟨addrs, resolved, List.mem_of_find?_eq_some found⟩
        · exact nomatch h

/-- An address is handed back only if there was one to hand back. -/
theorem safeLookup_not_refused {a : LookupAddress} (h : safeLookup P false dns hostname = .ok a) :
    ¬LookupRefused P dns hostname := by
  have allowed : isBlockedIp a.address = false := safeLookup_ok h
  have offered := safeLookup_offered h
  intro refused
  unfold Offered at offered
  cases refused with
  | literal literal blocked =>
    rw [if_pos literal] at offered
    rw [offered, blocked] at allowed
    exact Bool.noConfusion allowed
  | name name blocked => simp [safeLookup, name, blocked] at h
  | unresolved name failed =>
    rw [if_neg (not_not.mpr name), failed] at offered
    obtain ⟨addrs, none, _⟩ := offered
    exact nomatch none
  | addresses name resolved blocked =>
    rw [if_neg (not_not.mpr name), resolved] at offered
    obtain ⟨addrs, same, mem⟩ := offered
    obtain rfl := Option.some.inj same
    rw [blocked a mem] at allowed
    exact Bool.noConfusion allowed

theorem safeLookup_refused : LookupRefused P dns hostname ↔
    ∃ err, safeLookup P false dns hostname = .error err := by
  constructor
  · intro refused
    cases decided : safeLookup P false dns hostname with
    | error err => exact ⟨err, rfl⟩
    | ok a => exact absurd refused (safeLookup_not_refused decided)
  · rintro ⟨err, decided⟩
    exact safeLookup_error decided

/-! ## What is handed over -/

/-- What a call without an error hands back: records where `all` was asked for, else one address
and its family, and only addresses that are allowed. -/
def WellShaped (dns : Resolver) (hostname : Text) (opts : LookupOptions) (args : CallbackArgs) :
    Prop :=
  match args.address with
  | .string address => opts.all ≠ some true ∧ isBlockedIp address = false ∧
      Offered dns hostname ⟨address, args.family⟩
  | .records addresses => opts.all = some true ∧ addresses ≠ [] ∧
      ∀ a ∈ addresses, isBlockedIp a.address = false ∧ Offered dns hostname a

/-- Node's contract for a lookup: one call, with an error exactly if there is nothing to hand back,
and otherwise of the shape that was asked for. -/
structure HonoursLookup (P : UrlPlatform) (dns : Resolver) (hostname : Text) (opts : LookupOptions)
    (calls : List CallbackArgs) : Prop where
  once : calls.length = 1
  error : ∀ args ∈ calls, args.err.isSome = true ↔ LookupRefused P dns hostname
  shape : ∀ args ∈ calls, args.err = none → WellShaped dns hostname opts args

/-- The hook honours the contract exactly where Node does not ask for `all`, or there is nothing to
hand back. -/
theorem lookup_contract (P : UrlPlatform) (dns : Resolver) (hostname : Text)
    (opts : LookupOptions) :
    HonoursLookup P dns hostname opts (lookup P false dns hostname opts) ↔
      opts.all ≠ some true ∨ LookupRefused P dns hostname := by
  rw [lookup_eq]
  constructor
  · intro h
    cases decided : safeLookup P false dns hostname with
    | error err => exact .inr (safeLookup_error decided)
    | ok a =>
      have shape := h.shape (handBack a) (by simp [decided, callbackArgs]) rfl
      exact .inl shape.1
  · intro h
    refine ⟨rfl, ?_, ?_⟩
    · intro args mem
      rw [List.mem_singleton.mp mem, safeLookup_refused]
      cases safeLookup P false dns hostname <;> simp [callbackArgs, handBack, refuse]
    · intro args mem success
      rw [List.mem_singleton.mp mem] at success ⊢
      cases decided : safeLookup P false dns hostname with
      | error err => simp [decided, callbackArgs, refuse] at success
      | ok a =>
        have single : opts.all ≠ some true := h.resolve_right (safeLookup_not_refused decided)
        exact ⟨single, safeLookup_ok decided, safeLookup_offered decided⟩

namespace LookupScript

/-- Every host is `example.com`. -/
def resolver : Resolver where
  all _ := some [⟨text "93.184.216.34", 4⟩]
  first _ := some ⟨text "93.184.216.34", 4⟩

def platform : UrlPlatform := ⟨fun _ => none, fun s => s⟩

end LookupScript

/-- Node selects the address family and asks for `all`: it is handed one string. -/
theorem lookup_ignores_all : ¬∀ (P : UrlPlatform) (dns : Resolver) (hostname : Text)
    (opts : LookupOptions),
    HonoursLookup P dns hostname opts (lookup P false dns hostname opts) := by
  intro h
  have honoured := h LookupScript.platform LookupScript.resolver (text "example.com")
    ⟨some true, some 0, some 0⟩
  have calls : lookup LookupScript.platform false LookupScript.resolver (text "example.com")
      ⟨some true, some 0, some 0⟩ = [handBack ⟨text "93.184.216.34", 4⟩] := by decide +kernel
  rw [calls] at honoured
  have shape := honoured.shape _ (List.mem_singleton.mpr rfl) rfl
  exact shape.1 rfl

end Syrotp
