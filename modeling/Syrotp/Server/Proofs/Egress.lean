import Syrotp.Server.Proofs.Lease
import Syrotp.Server.WebhookEndpoints

/-!
# Where webhooks go

The three checks of a webhook URL together. A URL is checked against what DNS says when its
endpoint is created; before each delivery its host is checked if it is a literal; and the lookup
hook checks what DNS says then. Whatever DNS says at any of these moments, no connection goes to an
address that is blocked.
-/

namespace Syrotp

variable {P : UrlPlatform} {W : WebhookPlatform} {S : WebhookService} {dns : Resolver}

/-- How `net.connect` is documented to choose its address: it does not ask the hook about a literal,
and otherwise goes where the hook says. -/
structure NetConnect (connect : Text → (Text → Except LookupError LookupAddress) → List Text) :
    Prop where
  literal : ∀ host lookup, isIP host ≠ 0 → ∀ a ∈ connect host lookup, a = host
  resolved : ∀ host lookup, isIP host = 0 → ∀ a ∈ connect host lookup,
    ∃ answer, lookup host = .ok answer ∧ answer.address = a

/-- The hook only hands back an address that is allowed. -/
theorem safeLookup_ok {host : Text} {answer : LookupAddress}
    (h : safeLookup P false dns host = .ok answer) : isBlockedIp answer.address = false := by
  unfold safeLookup at h
  rw [if_neg Bool.false_ne_true] at h
  by_cases literal : isIP host ≠ 0
  · rw [if_pos literal] at h
    split at h
    · exact nomatch h
    · next allowed =>
      rw [← Except.ok.inj h]
      exact Bool.eq_false_iff.mpr allowed
  · rw [if_neg literal] at h
    split at h
    · exact nomatch h
    · split at h
      · exact nomatch h
      · split at h
        · next found =>
          rw [← Except.ok.inj h]
          simpa using List.find?_some found
        · exact nomatch h

/-- What the check before a delivery says of the host. -/
theorem isUrlAllowedForDelivery_host {url : Text} {parsed : ParsedUrl}
    (h : isUrlAllowedForDelivery P false url = true) (hp : P.newURL url = some parsed) :
    isBlockedIp (stripBrackets parsed.hostname) = false := by
  unfold isUrlAllowedForDelivery at h
  rw [hp] at h
  dsimp only at h
  split at h
  · exact nomatch h
  · rw [if_neg Bool.false_ne_true] at h
    split at h
    · exact nomatch h
    · simpa using h

/-- The literal check and the hook leave no gap between them, if no redirect is followed. -/
theorem fetchOpens_allowed
    {connect : Text → (Text → Except LookupError LookupAddress) → List Text}
    (net : NetConnect connect) {url : Text} (allowed : isUrlAllowedForDelivery P false url = true)
    (dns : Resolver) (locations : List Text) :
    ∀ a ∈ fetchOpens P connect false dns .manual locations url, isBlockedIp a = false := by
  intro a ha
  rw [fetchOpens, if_neg nofun, List.flatMap_singleton] at ha
  split at ha
  · exact absurd ha List.not_mem_nil
  · next parsed hp =>
    by_cases literal : isIP (stripBrackets parsed.hostname) = 0
    · obtain ⟨answer, ok, rfl⟩ := net.resolved _ _ literal a ha
      exact safeLookup_ok ok
    · rw [net.literal _ _ literal a ha]
      exact isUrlAllowedForDelivery_host allowed hp

/-! ## Deliveries -/

/-- The request a logged step makes. -/
def sends (W : WebhookPlatform) (e : WorkerPool × Act WorkerRequest WorkerMove) :
    Option DeliveryRequest :=
  match e.2 with
  | .turn i m =>
    match m.world?, e.1.calls[i]? with
    | some w, some (.tick (.deliver (row :: _))) =>
      (deliver W w.now row (row.attemptCount + 1)).toOption
    | _, _ => none
  | .arrive _ => none

theorem sends_allowed {e : WorkerPool × Act WorkerRequest WorkerMove} {request : DeliveryRequest}
    (h : sends W e = some request) :
    W.isUrlAllowedForDelivery request.url = true ∧ request.redirect = .manual := by
  unfold sends at h
  split at h
  · split at h
    · next w row rest _ _ =>
      cases hd : deliver W w.now row (row.attemptCount + 1) with
      | error outcome =>
        rw [hd] at h
        exact nomatch h
      | ok made =>
        rw [hd] at h
        obtain rfl := Option.some.inj h
        exact ⟨(deliver_ok hd).2.1, deliver_manual hd⟩
    · exact nomatch h
  · exact nomatch h

/-! ## Creation -/

/-- The host is no blocked name, and each address it stands for is allowed. -/
def SafeHost (P : UrlPlatform) (dns : Resolver) (host : Text) : Prop :=
  if isIP host ≠ 0 then isBlockedIp host = false
  else isBlockedHostname P host = false ∧
    ∃ addrs, dns.all host = some addrs ∧ addrs ≠ [] ∧ ∀ a ∈ addrs, isBlockedIp a.address = false

/-- What `assertWebhookUrlSafe` lets through. -/
theorem assertWebhookUrlSafe_ok {parsed : ParsedUrl}
    (h : assertWebhookUrlSafe P false dns parsed = .ok ()) :
    SafeHost P dns (stripBrackets parsed.hostname) := by
  unfold assertWebhookUrlSafe at h
  rw [if_neg Bool.false_ne_true] at h
  split at h
  · exact nomatch h
  · dsimp only at h
    unfold SafeHost
    split at h
    · next literal =>
      rw [if_pos literal]
      split at h
      · exact nomatch h
      · next allowed => exact Bool.eq_false_iff.mpr allowed
    · next name =>
      rw [if_neg name]
      split at h
      · exact nomatch h
      · next unblocked =>
        refine ⟨Bool.eq_false_iff.mpr unblocked, ?_⟩
        split at h
        · exact nomatch h
        · next addrs answered =>
          split at h
          · exact nomatch h
          · next some =>
            split at h
            · exact nomatch h
            · next allowed =>
              refine ⟨addrs, answered, fun none => some (by rw [none]; rfl), fun a ha => ?_⟩
              simpa using fun blocked => allowed (List.any_eq_true.mpr ⟨a, ha, blocked⟩)

/-- What `validateUrl` lets through. -/
theorem validateUrl_ok {value : Text} (closed : S.escapeHatchActive = false)
    (h : validateUrl S dns value = .ok ()) : ∃ parsed, S.url.newURL value = some parsed ∧
      SafeHost S.url dns (stripBrackets parsed.hostname) := by
  unfold validateUrl at h
  split at h
  · exact nomatch h
  · split at h
    · exact nomatch h
    · split at h
      · exact nomatch h
      · next parsed hp =>
        refine ⟨parsed, hp, ?_⟩
        split at h
        · exact nomatch h
        · split at h
          · exact nomatch h
          · rw [closed] at h
            cases safe : assertWebhookUrlSafe S.url false dns parsed with
            | error e =>
              rw [safe] at h
              exact nomatch h
            | ok _ => exact assertWebhookUrlSafe_ok safe

/-- The phases of a call whose URL has been let through. -/
def CreateWebhookPhase.accepted : CreateWebhookPhase → Bool
  | .validate => false
  | .selectExisting _ => true
  | .insert _ _ => true
  | .done result => result.isOk
  | .failed => false

/-- A call whose URL has been let through has checked it, and what DNS said then was safe. -/
theorem accepted_validated (closed : S.escapeHatchActive = false) {input : CreateWebhookInput}
    {log : List (CreateWebhookPhase × View × WebhookWorld)} {phase : CreateWebhookPhase}
    (run : CreateWebhookRun S input log phase) (accepted : phase.accepted = true) :
    ∃ e ∈ log, e.1 = .validate ∧ ∃ parsed, S.url.newURL input.url = some parsed ∧
      SafeHost S.url e.2.2.dns (stripBrackets parsed.hostname) := by
  induction run with
  | start => exact nomatch accepted
  | @next log t u e _ hs ih =>
    obtain ⟨⟨_, write⟩, step, rfl⟩ := Option.map_eq_some_iff.mp hs
    by_cases before : t.accepted = true
    · obtain ⟨e', he', first⟩ := ih before
      exact ⟨e', List.mem_append_left _ he', first⟩
    · refine ⟨(t, e), List.mem_append_right _ (List.mem_singleton.mpr rfl), ?_⟩
      unfold createWebhookEndpoint at step
      cases t with
      | validate =>
        refine ⟨rfl, ?_⟩
        dsimp only at step
        split at step
        · obtain ⟨rfl, rfl⟩ := Prod.mk.inj (Option.some.inj step)
          exact nomatch accepted
        · obtain ⟨rfl, rfl⟩ := Prod.mk.inj (Option.some.inj step)
          exact nomatch accepted
        · next ok _ => exact validateUrl_ok closed ok
      | selectExisting _ => exact absurd rfl before
      | insert _ _ => exact absurd rfl before
      | done _ => exact nomatch step
      | failed => exact nomatch step

/-! ## End to end -/

/-- With the escape hatch closed, the workers open no connection to a blocked address, whatever URL
a row holds, whatever DNS says then and wherever the receiver redirects to; and a URL is let through
at creation only if its host is no blocked name and each address it stands for is allowed. -/
theorem egress_guarded {connect : Text → (Text → Except LookupError LookupAddress) → List Text}
    (net : NetConnect connect) (guard : W.isUrlAllowedForDelivery = isUrlAllowedForDelivery P false)
    (service : S.url = P) (closed : S.escapeHatchActive = false) :
    (∀ store log q, WorkerRun W store log q → ∀ e ∈ log, ∀ request, sends W e = some request →
      ∀ dns locations, ∀ a ∈ fetchOpens P connect false dns request.redirect locations request.url,
        isBlockedIp a = false) ∧
    ∀ input log phase, CreateWebhookRun S input log phase → phase.accepted = true →
      ∃ e ∈ log, e.1 = .validate ∧ ∃ parsed, P.newURL input.url = some parsed ∧
        SafeHost P e.2.2.dns (stripBrackets parsed.hostname) := by
  constructor
  · intro store log q _ e _ request sent dns locations
    obtain ⟨allowed, manual⟩ := sends_allowed sent
    rw [manual]
    exact fetchOpens_allowed net (guard ▸ allowed) dns locations
  · intro input log phase run accepted
    exact service ▸ accepted_validated closed run accepted

namespace WorkerScript

/-- The functions on the URL of the endpoint, as the real ones are. -/
def urls : UrlPlatform where
  newURL url :=
    if url = endpoint.url then some ⟨text "https:", [], [], text "example.com"⟩ else none
  toLowerCase := id

/-- `net.connect` where the first address answers. -/
def connect (host : Text) (lookup : Text → Except LookupError LookupAddress) : List Text :=
  if isIP host ≠ 0 then [host]
  else
    match lookup host with
    | .ok answer => [answer.address]
    | .error _ => []

theorem connect_net : NetConnect connect where
  literal host lookup literal a ha := by
    unfold connect at ha
    rw [if_pos literal] at ha
    exact List.mem_singleton.mp ha
  resolved host lookup name a ha := by
    unfold connect at ha
    rw [if_neg (by simpa using name)] at ha
    split at ha
    · next answer ok => exact ⟨answer, ok, (List.mem_singleton.mp ha).symm⟩
    · exact absurd ha List.not_mem_nil

/-- The name has a public address when the endpoint is created, and a private one is added later. -/
def dnsAt (rebound : Bool) : Resolver where
  all _ := some ((if rebound then [⟨text "169.254.169.254", 4⟩] else []) ++
    [⟨text "93.184.216.34", 4⟩])
  first _ := none

def guardedPlatform : WebhookPlatform :=
  { platform with isUrlAllowedForDelivery := isUrlAllowedForDelivery urls false }

def service : WebhookService := ⟨urls, false, fun secret _ _ => secret⟩

def creation : List (View × WebhookWorld) :=
  List.replicate 3 (⟨.empty, fun _ => false, fun _ => false⟩,
    ⟨⟨start, start, id, id, 0⟩, dnsAt false, fun _ => 0⟩)

def created : Option (List (CreateWebhookPhase × View × WebhookWorld) × CreateWebhookPhase) :=
  exec (fun phase (e : View × WebhookWorld) =>
    (createWebhookEndpoint service e.1 e.2 ⟨app, endpoint.url, [.verified]⟩ phase).map (·.1))
    .validate creation

theorem created_runs : created.isSome = true := by decide +kernel

theorem guarded_run : ∃ (log : WorkerLog) (q : WorkerPool),
    WorkerRun guardedPlatform store log q ∧ ∃ e ∈ log, ∃ request ∈ sends guardedPlatform e,
      fetchOpens urls connect false (dnsAt true) request.redirect [] request.url =
        [text "93.184.216.34"] :=
  exists_runFrom guardedPlatform store takeTurns (by decide +kernel)

end WorkerScript

/-- The endpoint is created, and when DNS has been rebound its delivery goes to the address that is
still allowed. -/
theorem egress_guarded_script :
    (∃ log q, WorkerRun WorkerScript.guardedPlatform WorkerScript.store log q ∧
      ∃ e ∈ log, ∃ request, sends WorkerScript.guardedPlatform e = some request ∧
        fetchOpens WorkerScript.urls WorkerScript.connect false (WorkerScript.dnsAt true)
          request.redirect [] request.url = [text "93.184.216.34"] ∧
        ∀ dns locations, ∀ a ∈ fetchOpens WorkerScript.urls WorkerScript.connect false dns
          request.redirect locations request.url, isBlockedIp a = false) ∧
    ∃ input log phase, CreateWebhookRun WorkerScript.service input log phase ∧
      phase.accepted = true ∧ ∃ e ∈ log, e.1 = .validate ∧
        ∃ parsed, WorkerScript.urls.newURL input.url = some parsed ∧
          SafeHost WorkerScript.urls e.2.2.dns (stripBrackets parsed.hostname) := by
  have guarded := egress_guarded WorkerScript.connect_net
    (W := WorkerScript.guardedPlatform) (S := WorkerScript.service) rfl rfl rfl
  constructor
  · obtain ⟨log, q, run, e, logged, request, sent, opened⟩ := WorkerScript.guarded_run
    exact ⟨log, q, run, e, logged, request, sent, opened, guarded.1 _ _ _ run e logged request sent⟩
  · have run := run_of_exec (Option.some_get WorkerScript.created_runs).symm
    have accepted : (WorkerScript.created.get WorkerScript.created_runs).2.accepted = true := by
      decide +kernel
    exact ⟨_, _, _, run, accepted, guarded.2 _ _ _ run accepted⟩

end Syrotp
