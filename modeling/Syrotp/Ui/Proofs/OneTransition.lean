import Syrotp.Ui.WebController
import Syrotp.Ui.AndroidController

/-!
# One transition

Both controllers look at the status before they ask for it, but not again when the answer is there.
An answer that comes after the status has become terminal, with another status, is taken over; and
nothing else ever takes a controller out of a terminal status.
-/

namespace Syrotp.Ui

/-- A controller's status, and what its reports say of it. -/
def uiLens {σ τ : Type} (status : σ → VerificationStatus) :
    Lens σ (Report τ) VerificationStatus where
  status := status
  terminal s := s.isTerminal = true
  shows := Report.shows
  announces := Report.announces

theorem VerificationStatus.isTerminal_iff {s : VerificationStatus} :
    s.isTerminal = true ↔ s ≠ .pending := decide_eq_true_iff

/-! ## Reports -/

section

variable {σ τ : Type} {status : σ → VerificationStatus} {s t : σ} {secs : τ}

/-- A callback is for the new status, and only for a transition out of `pending`. -/
theorem transitionCallback_announces {prev : VerificationStatus} {next : Verification}
    {r : Report τ} (h : r ∈ transitionCallback prev next) : r.shows = none ∧
      r.announces = some next.status ∧ next.status.isTerminal = true ∧ prev = .pending := by
  unfold transitionCallback at h
  split at h
  · next moved =>
    obtain ⟨ne, rfl⟩ := moved
    have terminal := VerificationStatus.isTerminal_iff.mpr ne.symm
    split at h
    · next verified =>
      obtain rfl := List.mem_singleton.mp h
      exact ⟨rfl, congrArg some verified.symm, terminal, rfl⟩
    · next expired =>
      obtain rfl := List.mem_singleton.mp h
      exact ⟨rfl, congrArg some expired.symm, terminal, rfl⟩
    · next cancelled =>
      obtain rfl := List.mem_singleton.mp h
      exact ⟨rfl, congrArg some cancelled.symm, terminal, rfl⟩
    · exact absurd h List.not_mem_nil
  · exact absurd h List.not_mem_nil

theorem transitionCallback_length {prev : VerificationStatus} {next : Verification} :
    (transitionCallback (τ := τ) prev next).length ≤ 1 := by
  unfold transitionCallback
  split
  · split <;> simp
  · simp

/-- A transition reports faithfully. -/
theorem faithful_transition {next : Verification} (there : status t = next.status) :
    (uiLens status).Faithful s t (.change next secs :: transitionCallback (status s) next) where
  shown := by
    intro r hr k shows
    rcases List.mem_cons.mp hr with rfl | callback
    · exact (Option.some.inj shows).symm.trans there.symm
    · exact nomatch (transitionCallback_announces callback).1.symm.trans shows
  announced := by
    intro r hr k announces
    rcases List.mem_cons.mp hr with rfl | callback
    · exact nomatch announces
    · obtain ⟨_, same, terminal, pending⟩ := transitionCallback_announces callback
      obtain rfl := Option.some.inj (same.symm.trans announces)
      refine ⟨there.symm, terminal, fun already => ?_⟩
      exact VerificationStatus.isTerminal_iff.mp already pending
  once := by
    rw [List.filterMap_cons_none rfl]
    exact Nat.le_trans (List.length_filterMap_le _ _) transitionCallback_length

/-- So does a report of the visible state, -/
theorem faithful_change {v : Verification} (there : status t = v.status) :
    (uiLens status).Faithful s t [.change v secs] where
  shown := by
    intro r hr k shows
    obtain rfl := List.mem_singleton.mp hr
    exact (Option.some.inj shows).symm.trans there.symm
  announced := by
    intro r hr k announces
    obtain rfl := List.mem_singleton.mp hr
    exact nomatch announces
  once := Nat.zero_le 1

/-- and of an error. -/
theorem faithful_error {e : Failure} :
    (uiLens (τ := τ) status).Faithful s t [.onError e] where
  shown := by
    intro r hr k shows
    obtain rfl := List.mem_singleton.mp hr
    exact nomatch shows
  announced := by
    intro r hr k announces
    obtain rfl := List.mem_singleton.mp hr
    exact nomatch announces
  once := Nat.zero_le 1

/-- A step reports faithfully, and leaves a terminal status just if it is late. -/
structure Stepped (status : σ → VerificationStatus) (s t : σ) (new : List (Report τ))
    (late : Prop) : Prop where
  faithful : (uiLens status).Faithful s t new
  leaves : (status s).isTerminal = true → (status t = status s ↔ ¬late)

variable {new : List (Report τ)} {late : Prop}

theorem Stepped.stays (same : status t = status s) (faithful : (uiLens status).Faithful s t new)
    (never : ¬late) : Stepped status s t new late :=
  ⟨faithful, fun _ => ⟨fun _ => never, fun _ => same⟩⟩

theorem Stepped.of_status {s' : σ} (h : Stepped status s' t new late) (same : status s' = status s) :
    Stepped status s t new late := ⟨h.faithful.of_status same, same ▸ h.leaves⟩

theorem Stepped.transition {next : Verification} (there : status t = next.status)
    (leaves : (status s).isTerminal = true → (next.status = status s ↔ ¬late)) :
    Stepped status s t (.change next secs :: transitionCallback (status s) next) late :=
  ⟨faithful_transition there, there ▸ leaves⟩

/-- A run settles once if and only if none of its steps is late. -/
theorem settlesOnce_iff_never_late {α : Type} {step : σ → α → Option (σ × List (Report τ))}
    {late : σ → α → Prop} {s₀ : σ} {log : List (Reporting σ (Report τ) × α)}
    {q : Reporting σ (Report τ)} (run : Run (reporting step) ⟨s₀, []⟩ log q)
    (terminal : ∀ s a, late s a → (status s).isTerminal = true)
    (stepped : ∀ e ∈ log, ∀ t new, step e.1.state e.2 = some (t, new) →
      Stepped status e.1.state t new (late e.1.state e.2)) :
    (uiLens status).SettlesOnce log q ↔ ∀ e ∈ log, ¬late e.1.state e.2 := by
  rw [Lens.settlesOnce_iff run fun e he t new taken => (stepped e he t new taken).faithful]
  constructor
  · intro never e he isLate
    obtain ⟨_, _, _, _, _, hs, _⟩ := run.split he
    obtain ⟨⟨t, new⟩, taken, rfl⟩ := Option.map_eq_some_iff.mp hs
    have settled := terminal _ _ isLate
    have same : status t = status e.1.state := never e he t new taken settled
    exact ((stepped e he t new taken).leaves settled).mp same isLate
  · intro never e he t new taken settled
    exact ((stepped e he t new taken).leaves settled).mpr (never e he)

/-- Two callbacks are one too many. -/
theorem not_settlesOnce {α : Type} {log : List (Reporting σ (Report τ) × α)}
    {q : Reporting σ (Report τ)} (twice : 1 < (q.reports.filterMap Report.announces).length) :
    ¬(uiLens status).SettlesOnce log q := fun settles => absurd settles.once (Nat.not_le.mpr twice)

end

/-! ## The web component -/

namespace Web

def Controller.status (c : Controller) : VerificationStatus := c.state.status

variable {getTime : Text → Option Int} {c t : Controller} {new : List (Report (Option Nat))}

/-- An answer with another status is read although the status is terminal. -/
def Late (c : Controller) : Event → Prop
  | .read _ (.ok body) _ =>
    c.stopped = false ∧ c.state.status.isTerminal = true ∧ body.status ≠ c.state.status
  | _ => False

instance (c : Controller) (a : Event) : Decidable (Late c a) := by
  unfold Late
  split <;> infer_instance

/-- What a method does, for a controller that has the previous status right: it does so again. -/
def Sound (c : Controller) (o : Outcome) (late : Prop) : Prop :=
  o.1.prevStatus = o.1.status ∧ Stepped Controller.status c o.1 o.2 late

theorem Sound.of_status {c' : Controller} {o : Outcome} {late : Prop} (h : Sound c' o late)
    (same : c'.status = c.status) : Sound c o late := ⟨h.1, h.2.of_status same⟩

/-- Nothing is reported and the status stays. -/
theorem Sound.silent {late : Prop} (prev : t.prevStatus = t.status) (same : t.status = c.status)
    (never : ¬late) : Sound c (t, []) late := ⟨prev, .stays same .silent never⟩

theorem caught_sound {e : Failure} {late : Prop} (prev : c.prevStatus = c.status)
    (never : ¬late) : Sound c (c.caught e) late := by
  unfold Controller.caught
  split
  · exact .silent prev rfl never
  · split
    · exact .silent prev rfl never
    · exact ⟨prev, .stays rfl faithful_error never⟩

theorem poll_kept (c : Controller) : c.poll.status = c.status ∧ c.poll.prevStatus = c.prevStatus ∧
    c.poll.state = c.state := by
  unfold Controller.poll
  split
  · exact ⟨rfl, rfl, rfl⟩
  · split <;> exact ⟨rfl, rfl, rfl⟩

theorem start_sound {late : Prop} (prev : c.prevStatus = c.status) (never : ¬late) :
    Sound c c.start late := by
  unfold Controller.start
  split
  · exact .silent prev rfl never
  · dsimp only
    split
    · exact ⟨prev, .stays rfl (faithful_change rfl) never⟩
    · obtain ⟨status, prevStatus, _⟩ := poll_kept { c with started := true, tickId := true }
      exact ⟨prevStatus.trans (prev.trans status.symm),
        .stays status (faithful_change status) never⟩

theorem transition_sound {next : Verification} {now : Int} {late : Prop}
    (prev : c.prevStatus = c.status)
    (leaves : c.status.isTerminal = true → (next.status = c.status ↔ ¬late)) :
    Sound c (c.transition getTime next now) late := by
  unfold Controller.transition
  rw [prev]
  dsimp only
  split
  · exact ⟨rfl, .transition rfl leaves⟩
  · exact ⟨rfl, .transition rfl leaves⟩

theorem onCountdownTick_sound {now : Int} {late : Prop} (prev : c.prevStatus = c.status)
    (never : ¬late) : Sound c (c.onCountdownTick getTime now) late := by
  unfold Controller.onCountdownTick
  split
  · exact .silent prev rfl never
  · next pending =>
    have pending : c.status = .pending := Classical.not_not.mp pending
    dsimp only
    split
    · refine Sound.of_status (transition_sound ?_ fun terminal => ?_) ?_
      · exact prev
      · exact absurd pending (VerificationStatus.isTerminal_iff.mp terminal)
      · rfl
    · exact ⟨prev, .stays rfl (faithful_change rfl) never⟩

theorem received_sound {body : StatusResponse} {now : Int} (prev : c.prevStatus = c.status) :
    Sound c (c.received getTime body now)
      (c.stopped = false ∧ c.state.status.isTerminal = true ∧ body.status ≠ c.state.status) := by
  unfold Controller.received
  split
  · next stopped => exact .silent prev rfl fun late => absurd stopped (by rw [late.1]; decide)
  · next running =>
    split
    · next same =>
      split
      · exact ⟨prev, .stays rfl (faithful_change rfl) fun late => late.2.2 same⟩
      · exact .silent prev rfl fun late => late.2.2 same
    · next other =>
      refine transition_sound prev fun terminal => ⟨fun same => absurd same other, fun never => ?_⟩
      exact absurd ⟨Bool.eq_false_iff.mpr running, terminal, other⟩ never

/-- A step reports faithfully, and leaves a terminal status just by a late answer. -/
theorem step_sound {a : Event} {o : Outcome} (prev : c.prevStatus = c.status)
    (h : step getTime c a = some o) : Sound c o (Late c a) := by
  cases a with
  | start => exact Option.some.inj h ▸ start_sound prev id
  | stop => exact Option.some.inj h ▸ .silent prev rfl id
  | tick now =>
    obtain ⟨-, same⟩ := Option.ite_none_right_eq_some.mp h
    exact Option.some.inj same ▸ onCountdownTick_sound prev id
  | pollDue =>
    obtain ⟨-, same⟩ := Option.ite_none_right_eq_some.mp h
    obtain ⟨status, prevStatus, _⟩ := poll_kept c
    exact Option.some.inj same ▸ .silent (prevStatus.trans (prev.trans status.symm)) status id
  | fetched i result =>
    obtain ⟨-, same⟩ := Option.ite_none_right_eq_some.mp h
    have failed : ∀ e, Sound c ((c.advance i .over).caught e) False :=
      fun e => (caught_sound (c := c.advance i .over) prev id).of_status rfl
    cases result with
    | error e => exact Option.some.inj same ▸ failed e
    | ok status =>
      dsimp only at same
      split at same
      · exact Option.some.inj same ▸ .silent prev rfl id
      · exact Option.some.inj same ▸ failed _
  | read i result now =>
    obtain ⟨-, same⟩ := Option.ite_none_right_eq_some.mp h
    cases result with
    | error e =>
      exact Option.some.inj same ▸ (caught_sound (c := c.advance i .over) prev id).of_status rfl
    | ok body =>
      exact Option.some.inj same ▸ (received_sound (c := c.advance i .over) prev).of_status rfl

/-- A controller that has been made for this verification, and what its host has seen. -/
abbrev HostRun (getTime : Text → Option Int) (verification : Verification) (now : Int) :=
  Run (reporting (step getTime)) ⟨.new getTime verification now, []⟩

theorem settlesOnce_iff {verification : Verification} {now : Int}
    {log : List (Reporting Controller (Report (Option Nat)) × Event)}
    {q : Reporting Controller (Report (Option Nat))}
    (run : HostRun getTime verification now log q) :
    (uiLens Controller.status).SettlesOnce log q ↔ ∀ e ∈ log, ¬Late e.1.state e.2 := by
  have prev : ∀ e ∈ log, e.1.state.prevStatus = e.1.state.status := by
    intro e he
    obtain ⟨_, _, _, _, before, _, _⟩ := run.split he
    refine before.invariant (I := fun p => p.state.prevStatus = p.state.status) rfl ?_
    intro p a p' same hs
    obtain ⟨o, taken, rfl⟩ := Option.map_eq_some_iff.mp hs
    exact (step_sound same taken).1
  refine settlesOnce_iff_never_late run (fun c a late => ?_) fun e he t new taken =>
    (step_sound (prev e he) taken).2
  cases a with
  | read i result now =>
    cases result with
    | error e => exact late.elim
    | ok body => exact late.2.1
  | _ => exact late.elim

end Web

/-! ## The Android screen -/

namespace Android

def Controller.status (c : Controller) : VerificationStatus := c.verification.status

variable {parse : Text → Option Int} {c : Controller}

/-- Whether a coroutine has not been cancelled. -/
def Controller.isActive (c : Controller) (i : Nat) : Bool :=
  c.coroutines[i]?.any fun co => c.scope = some co.scope

/-- A coroutine that is not cancelled gets an answer with another status although the status is
terminal. -/
def Late (c : Controller) : Event → Prop
  | .answered i (.ok parsed) _ => c.isActive i = true ∧
    c.verification.status.isTerminal = true ∧ parsed.status ≠ c.verification.status
  | _ => False

instance (c : Controller) (a : Event) : Decidable (Late c a) := by
  unfold Late
  split <;> infer_instance

/-- What a method does. -/
def Sound (c : Controller) (o : Outcome) (late : Prop) : Prop :=
  Stepped Controller.status c o.1 o.2 late

/-- A coroutine going on is nothing that is seen. -/
theorem Sound.advance {o : Outcome} {late : Prop} (h : Sound c o late) (i scope : Nat)
    (work : Work) : Sound c (o.1.advance i scope work, o.2) late :=
  ⟨⟨h.faithful.shown, h.faithful.announced, h.faithful.once⟩, h.leaves⟩

theorem start_status (c : Controller) : c.start.status = c.status := by
  unfold Controller.start
  split
  · rfl
  · dsimp only
    split <;> rfl

theorem runCountdown_sound {nowMs : Int} {late : Prop} (never : ¬late) :
    Sound c (c.runCountdown parse nowMs).2 late := by
  unfold Controller.runCountdown
  split
  · exact .stays rfl .silent never
  · dsimp only
    split
    · exact .stays rfl .silent never
    · next running =>
      split
      · exact .transition rfl fun terminal => absurd terminal running
      · split
        · exact .stays rfl (faithful_change rfl) never
        · exact .stays rfl .silent never

theorem received_sound {parsed : StatusResponse} {nowMs : Int} :
    Sound c (c.received parse parsed nowMs)
      (c.verification.status.isTerminal = true ∧ parsed.status ≠ c.verification.status) := by
  unfold Controller.received
  dsimp only
  split
  · next same =>
    split
    · exact .stays rfl (faithful_change rfl) fun late => late.2 same
    · exact .stays rfl .silent fun late => late.2 same
  · next other =>
    refine .transition rfl fun terminal => ⟨fun same => absurd same other, fun never => ?_⟩
    exact absurd ⟨terminal, other⟩ never

/-- A step reports faithfully, and leaves a terminal status just by a late answer. -/
theorem step_sound {a : Event} {o : Outcome} (h : step parse c a = some o) :
    Sound c o (Late c a) := by
  cases a with
  | start => exact Option.some.inj h ▸ .stays (start_status c) .silent id
  | stop => exact Option.some.inj h ▸ .stays rfl .silent id
  | resume i nowMs =>
    cases hi : c.coroutines[i]? with
    | none =>
      rw [step, hi] at h
      exact nomatch h
    | some co =>
      obtain ⟨scope, work⟩ := co
      rw [step, hi] at h
      dsimp only at h
      split at h
      · exact Option.some.inj h ▸ .stays rfl .silent id
      · cases work with
        | «over» => exact nomatch h
        | countdown => exact Option.some.inj h ▸ (runCountdown_sound id).advance i scope _
        | polling phase =>
          cases phase with
          | requesting => exact nomatch h
          | _ => exact Option.some.inj h ▸ .stays rfl .silent id
  | answered i result nowMs =>
    cases hi : c.coroutines[i]? with
    | none =>
      rw [step, hi] at h
      exact nomatch h
    | some co =>
      obtain ⟨scope, work⟩ := co
      rw [step, hi] at h
      dsimp only at h
      obtain ⟨-, h⟩ := Option.ite_none_left_eq_some.mp h
      split at h
      · next cancelled =>
        refine Option.some.inj h ▸ .stays rfl .silent fun late => ?_
        cases result with
        | error e => exact late
        | ok parsed =>
          have active := late.1
          rw [Controller.isActive, hi] at active
          exact cancelled (of_decide_eq_true active)
      · next active =>
        cases result with
        | error e => exact Option.some.inj h ▸ (Stepped.stays rfl faithful_error id)
        | ok parsed =>
          have sound : Sound c (c.received parse parsed nowMs) _ := received_sound
          have received := sound.advance i scope (c.received parse parsed nowMs).1.again
          refine Option.some.inj h ▸ ⟨received.faithful, fun terminal => ?_⟩
          rw [received.leaves terminal]
          have here : c.isActive i = true := by
            rw [Controller.isActive, hi]
            exact decide_eq_true (Classical.not_not.mp active)
          exact not_congr ⟨fun late => ⟨here, late⟩, fun late => late.2⟩

/-- A controller that has been made for this verification, and what its host has seen. -/
abbrev HostRun (parse : Text → Option Int) (initial : Verification) (nowMs : Int) :=
  Run (reporting (step parse)) ⟨.new parse initial nowMs, []⟩

theorem settlesOnce_iff {initial : Verification} {nowMs : Int}
    {log : List (Reporting Controller (Report Nat) × Event)}
    {q : Reporting Controller (Report Nat)} (run : HostRun parse initial nowMs log q) :
    (uiLens Controller.status).SettlesOnce log q ↔ ∀ e ∈ log, ¬Late e.1.state e.2 := by
  refine settlesOnce_iff_never_late run (fun c a late => ?_) fun e _ t new taken => step_sound taken
  cases a with
  | answered i result nowMs =>
    cases result with
    | error e => exact late.elim
    | ok parsed => exact late.2.1
  | _ => exact late.elim

end Android

/-! ## Both -/

/-- In every run of either controller a terminal status is the last one, is announced at most once
and is the one that was announced, if and only if no answer with another status is taken over when
the status is terminal. -/
theorem transitions_once_iff (getTime parse : Text → Option Int) (v : Verification) (now : Int) :
    (∀ log q, Web.HostRun getTime v now log q →
      ((uiLens Web.Controller.status).SettlesOnce log q ↔ ∀ e ∈ log, ¬Web.Late e.1.state e.2)) ∧
    ∀ log q, Android.HostRun parse v now log q →
      ((uiLens Android.Controller.status).SettlesOnce log q ↔
        ∀ e ∈ log, ¬Android.Late e.1.state e.2) :=
  ⟨fun _ _ => Web.settlesOnce_iff, fun _ _ => Android.settlesOnce_iff⟩

namespace UiScript

def expiresAt : Text := text "2026-01-01T00:10:00.000Z"

/-- Times count from the start of that year. -/
def getTime (s : Text) : Option Int := if s = expiresAt then some 600000 else none

def shown : Verification := ⟨text "vrf_abc123", .pending, some (text "+963998887777"),
  some (text "VERIFY 123456"), text "+963 99* *** *567", expiresAt, none⟩

def answer (status : VerificationStatus) : StatusResponse := ⟨status, expiresAt, none⟩

def web (events : List Web.Event) :=
  exec (reporting (Web.step getTime)) ⟨.new getTime shown 0, []⟩ events

theorem web_run {events : List Web.Event} (h : (web events).isSome = true) :
    Web.HostRun getTime shown 0 ((web events).get h).1 ((web events).get h).2 :=
  run_of_exec (Option.some_get h).symm

def android (events : List Android.Event) :=
  exec (reporting (Android.step getTime)) ⟨.new getTime shown 0, []⟩ events

theorem android_run {events : List Android.Event} (h : (android events).isSome = true) :
    Android.HostRun getTime shown 0 ((android events).get h).1 ((android events).get h).2 :=
  run_of_exec (Option.some_get h).symm

/-- Three polls overlap; the answer `verified` comes first, then an older one, then a newer one. -/
def overlapping : List Web.Event :=
  [.start, .pollDue, .pollDue, .fetched 0 (.ok 200), .fetched 1 (.ok 200), .fetched 2 (.ok 200),
    .read 1 (.ok (answer .verified)) 5100, .read 0 (.ok (answer .pending)) 5200,
    .read 2 (.ok (answer .cancelled)) 5300]

/-- The time runs out on the device while the server still says `pending`. -/
def ahead : List Android.Event :=
  [.start, .resume 0 0, .resume 1 0, .resume 0 600000, .answered 1 (.ok (answer .pending)) 600100,
    .resume 1 602600, .answered 1 (.ok (answer .verified)) 602700]

theorem overlapping_runs : (web overlapping).isSome = true := by decide +kernel

theorem ahead_runs : (android ahead).isSome = true := by decide +kernel

theorem web_once : (web (overlapping.take 7)).isSome = true := by decide +kernel

theorem android_once : (android (ahead.take 4)).isSome = true := by decide +kernel

end UiScript

/-- Up to the first answer, or until the time runs out, both settle once. -/
theorem transitions_once_script : ∃ log q log' q',
    Web.HostRun UiScript.getTime UiScript.shown 0 log q ∧
    q.reports.filterMap Report.announces = [.verified] ∧
    (uiLens Web.Controller.status).SettlesOnce log q ∧
    Android.HostRun UiScript.getTime UiScript.shown 0 log' q' ∧
    q'.reports.filterMap Report.announces = [.expired] ∧
    (uiLens Android.Controller.status).SettlesOnce log' q' := by
  obtain ⟨web, android⟩ := transitions_once_iff UiScript.getTime UiScript.getTime UiScript.shown 0
  refine ⟨_, _, _, _, UiScript.web_run UiScript.web_once, ?_,
    (web _ _ (UiScript.web_run UiScript.web_once)).mpr ?_,
    UiScript.android_run UiScript.android_once, ?_,
    (android _ _ (UiScript.android_run UiScript.android_once)).mpr ?_⟩
  all_goals decide +kernel

/-- A late answer takes each of them back to `pending`, and a second callback fires. -/
theorem late_answer_taken_over : ∃ log q log' q',
    Web.HostRun UiScript.getTime UiScript.shown 0 log q ∧
    q.reports.filterMap Report.shows = [.pending, .verified, .pending, .cancelled] ∧
    q.reports.filterMap Report.announces = [.verified, .cancelled] ∧
    ¬(uiLens Web.Controller.status).SettlesOnce log q ∧
    Android.HostRun UiScript.getTime UiScript.shown 0 log' q' ∧
    q'.reports.filterMap Report.shows = [.expired, .pending, .verified] ∧
    q'.reports.filterMap Report.announces = [.expired, .verified] ∧
    ¬(uiLens Android.Controller.status).SettlesOnce log' q' := by
  refine ⟨_, _, _, _, UiScript.web_run UiScript.overlapping_runs, ?_, ?_,
    not_settlesOnce ?_, UiScript.android_run UiScript.ahead_runs, ?_, ?_, not_settlesOnce ?_⟩
  all_goals decide +kernel

end Syrotp.Ui
