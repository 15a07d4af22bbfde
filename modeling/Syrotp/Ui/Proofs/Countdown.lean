import Syrotp.Server.Verifications
import Syrotp.Ui.Proofs.OneTransition

/-!
# The countdown against the server

The server takes a verification for expired from the millisecond `expires_at` on. Both controllers
cut the time that is left down to whole seconds, and take it for expired from the last second on.
So a countdown that looks within that second is ahead of the server, and no other is.
-/

namespace Syrotp.Ui

/-- A verification that is watched: its row at every instant, and `expires_at` as the server
writes it and as the two controllers read it. All have the same clock. -/
structure Watch where
  row : Time → Syrotp.Verification
  expiresAt : Time
  kept : ∀ t, (row t).expiresAt = expiresAt
  toISOString : Time → Text
  getTime : Text → Option Int
  parse : Text → Option Int
  getTime_toISOString : getTime (toISOString expiresAt) = some (expiresAt : Int)
  parse_toISOString : parse (toISOString expiresAt) = some (expiresAt : Int)

namespace Watch

/-- A status of the server, as the controllers read it. -/
def wire : Syrotp.VerificationStatus → VerificationStatus
  | .pending => .pending
  | .verified => .verified
  | .expired => .expired
  | .cancelled => .cancelled
  | .failed => .failed

variable (w : Watch)

/-- The answer of `getHostedVerificationStatus` at an instant. -/
def answer (now : Time) : StatusResponse where
  status := wire (effectiveStatus (w.row now) now)
  expiresAt := w.toISOString (w.row now).expiresAt
  verifiedAt := (w.row now).verifiedAt.map w.toISOString

/-- The record the page was made with. -/
def initial (v : Verification) : Verification := { v with expiresAt := w.toISOString w.expiresAt }

/-- The last second before the expiry, without either end. -/
def LastSecond (now : Time) : Prop := w.expiresAt < now + 1000 ∧ now < w.expiresAt

/-- What is asked of a run: a controller that reports expired at an instant, on its own account,
finds that the server does not take the verification for pending at that instant. -/
def NeverEarly {σ α ρ : Type} (reports : σ → α → Time → Prop)
    (log : List (Reporting σ ρ × α)) : Prop :=
  ∀ e ∈ log, ∀ now, reports e.1.state e.2 now → effectiveStatus (w.row now) now ≠ .pending

/-- No local check is made in the last second of a verification that is still pending. -/
def Apart {σ α ρ : Type} (checks : σ → α → Time → Prop) (log : List (Reporting σ ρ × α)) : Prop :=
  ∀ e ∈ log, ∀ now, checks e.1.state e.2 now → (w.row now).status = .pending → ¬w.LastSecond now

theorem answer_expiresAt (now : Time) : (w.answer now).expiresAt = w.toISOString w.expiresAt := by
  rw [answer, w.kept]

/-- When the server takes it for pending. -/
theorem pending_iff {now : Time} : effectiveStatus (w.row now) now = .pending ↔
    (w.row now).status = .pending ∧ now < w.expiresAt := by
  unfold effectiveStatus lapsed
  rw [w.kept]
  by_cases pending : (w.row now).status = .pending
  · by_cases due : w.expiresAt ≤ now
    · simp [pending, due]
    · simpa [pending, due] using Nat.lt_of_not_le due
  · simp [pending]

/-- A controller whose check reports expired from the last second on is never early if and only if
none of its checks is made in that second. -/
theorem neverEarly_iff_apart {σ α ρ : Type} {checks reports : σ → α → Time → Prop}
    {log : List (Reporting σ ρ × α)} (expires : ∀ e ∈ log, ∀ now,
      reports e.1.state e.2 now ↔ checks e.1.state e.2 now ∧ w.expiresAt < now + 1000) :
    w.NeverEarly reports log ↔ w.Apart checks log := by
  constructor
  · rintro never e he now checked pending ⟨soon, before⟩
    have reported := (expires e he now).mpr ⟨checked, soon⟩
    exact never e he now reported (w.pending_iff.mpr ⟨pending, before⟩)
  · intro apart e he now reported still
    obtain ⟨checked, soon⟩ := (expires e he now).mp reported
    obtain ⟨pending, before⟩ := w.pending_iff.mp still
    exact apart e he now checked pending ⟨soon, before⟩

end Watch

/-! ## The web component -/

namespace Web

/-- What happens next to a controller that watches; an answer was made at an instant before. -/
inductive Watched where
  | start
  | stop
  | tick (now : Time)
  | pollDue
  | fetched (i : Nat) (result : Except Failure Nat)
  | answered (i : Nat) (at' now : Time)
  | unreadable (i : Nat) (e : Failure) (now : Time)
  deriving DecidableEq

def Watched.event (w : Watch) : Watched → Event
  | .start => .start
  | .stop => .stop
  | .tick now => .tick now
  | .pollDue => .pollDue
  | .fetched i result => .fetched i result
  | .answered i at' now => .read i (.ok (w.answer at')) now
  | .unreadable i e now => .read i (.error e) now

variable {w : Watch} {c : Controller} {a : Watched} {now : Time}

/-- The step is the local check, while pending is shown. -/
def Checks (c : Controller) (a : Watched) (now : Time) : Prop :=
  a = .tick now ∧ c.tickId = true ∧ c.status = .pending

/-- The step is the local check, and it reports expired. -/
def ReportsExpired (w : Watch) (c : Controller) (a : Watched) (now : Time) : Prop :=
  Checks c a now ∧ ∃ o, step w.getTime c (a.event w) = some o ∧ o.1.status = .expired

/-- The controller of the page of a verification. -/
abbrev WatchRun (w : Watch) (v : Verification) (now : Time) :=
  Run (reporting fun c (a : Watched) => step w.getTime c (a.event w))
    ⟨.new w.getTime (w.initial v) now, []⟩

theorem transition_state {next : Verification} {getTime : Text → Option Int} {now : Int} :
    (c.transition getTime next now).1.state = next := by
  unfold Controller.transition
  dsimp only
  split <;> rfl

theorem start_state : c.start.1.state = c.state := by
  unfold Controller.start
  split
  · rfl
  · dsimp only
    split
    · rfl
    · exact (poll_kept { c with started := true, tickId := true }).2.2

theorem caught_state {e : Failure} : (c.caught e).1.state = c.state := by
  unfold Controller.caught
  split
  · rfl
  · split <;> rfl

/-- The countdown changes the status only, -/
theorem onCountdownTick_expiresAt {getTime : Text → Option Int} {now : Int} :
    (c.onCountdownTick getTime now).1.state.expiresAt = c.state.expiresAt := by
  unfold Controller.onCountdownTick
  split
  · rfl
  · dsimp only
    split
    · rw [transition_state]
      rfl
    · rfl

/-- and an answer has the instant of the server. -/
theorem received_expiresAt {getTime : Text → Option Int} {body : StatusResponse} {now : Int}
    (same : c.state.expiresAt = body.expiresAt) :
    (c.received getTime body now).1.state.expiresAt = body.expiresAt := by
  unfold Controller.received
  split
  · exact same
  · split
    · split
      · rfl
      · exact same
    · rw [transition_state]
      rfl

/-- The record keeps its `expires_at`. -/
theorem step_expiresAt {o : Outcome} (same : c.state.expiresAt = w.toISOString w.expiresAt)
    (h : step w.getTime c (a.event w) = some o) :
    o.1.state.expiresAt = w.toISOString w.expiresAt := by
  cases a with
  | start => exact Option.some.inj h ▸ (congrArg Verification.expiresAt start_state).trans same
  | stop => exact Option.some.inj h ▸ same
  | tick now =>
    obtain ⟨-, eq⟩ := Option.ite_none_right_eq_some.mp h
    exact Option.some.inj eq ▸ onCountdownTick_expiresAt.trans same
  | pollDue =>
    obtain ⟨-, eq⟩ := Option.ite_none_right_eq_some.mp h
    exact Option.some.inj eq ▸ (congrArg Verification.expiresAt (poll_kept c).2.2).trans same
  | fetched i result =>
    obtain ⟨-, eq⟩ := Option.ite_none_right_eq_some.mp h
    have failed : ∀ e, ((c.advance i .over).caught e).1.state.expiresAt =
        w.toISOString w.expiresAt :=
      fun e => (congrArg Verification.expiresAt caught_state).trans same
    cases result with
    | error e => exact Option.some.inj eq ▸ failed e
    | ok status =>
      dsimp only at eq
      split at eq
      · exact Option.some.inj eq ▸ same
      · exact Option.some.inj eq ▸ failed _
  | answered i at' now =>
    obtain ⟨-, eq⟩ := Option.ite_none_right_eq_some.mp h
    refine Option.some.inj eq ▸ (received_expiresAt ?_).trans (w.answer_expiresAt at')
    exact same.trans (w.answer_expiresAt at').symm
  | unreadable i e now =>
    obtain ⟨-, eq⟩ := Option.ite_none_right_eq_some.mp h
    exact Option.some.inj eq ▸ (congrArg Verification.expiresAt caught_state).trans same

/-- The seconds that are left are none from the last second on. -/
theorem computeSecondsLeft_zero :
    computeSecondsLeft w.getTime (w.toISOString w.expiresAt) now = some 0 ↔
      w.expiresAt < now + 1000 := by
  rw [computeSecondsLeft, w.getTime_toISOString, Option.map_some, Option.some.injEq,
    Int.toNat_eq_zero]
  have seconds : ((w.expiresAt : Int) - now) / 1000 ≤ 0 ↔ (w.expiresAt : Int) < now + 1000 := by
    omega
  exact seconds.trans Int.ofNat_lt

/-- The local check reports expired from the last second on. -/
theorem reportsExpired_iff (same : c.state.expiresAt = w.toISOString w.expiresAt) :
    ReportsExpired w c a now ↔ Checks c a now ∧ w.expiresAt < now + 1000 := by
  refine and_congr_right ?_
  rintro ⟨rfl, tick, pending⟩
  have taken : step w.getTime c (Watched.event w (.tick now)) =
      some (c.onCountdownTick w.getTime now) := if_pos tick
  have pending' : ¬c.state.status ≠ .pending := not_not.mpr pending
  rw [taken]
  simp only [Option.some.injEq, exists_eq_left']
  rw [← computeSecondsLeft_zero (w := w), Controller.onCountdownTick, if_neg pending', same]
  dsimp only
  split
  · next out =>
    refine iff_of_true ?_ out
    rw [Controller.status, transition_state]
    rfl
  · next left =>
    refine iff_of_false (fun expired => ?_) left
    exact nomatch pending.symm.trans expired

theorem neverEarly_iff_apart {v : Verification} {made : Time}
    {log : List (Reporting Controller (Report (Option Nat)) × Watched)}
    {q : Reporting Controller (Report (Option Nat))} (run : WatchRun w v made log q) :
    w.NeverEarly (ReportsExpired w) log ↔ w.Apart Checks log := by
  refine w.neverEarly_iff_apart fun e he now => reportsExpired_iff ?_
  obtain ⟨_, _, _, _, before, _, _⟩ := run.split he
  refine before.invariant (I := fun p => p.state.state.expiresAt = w.toISOString w.expiresAt) rfl ?_
  intro p a p' same hs
  obtain ⟨o, taken, rfl⟩ := Option.map_eq_some_iff.mp hs
  exact step_expiresAt same taken

end Web

/-! ## The Android screen -/

namespace Android

/-- What happens next to a controller that watches. -/
inductive Watched where
  | start
  | stop
  | resume (i : Nat) (now : Time)
  | answered (i : Nat) (at' now : Time)
  | failed (i : Nat) (e : Failure) (now : Time)
  deriving DecidableEq

def Watched.event (w : Watch) : Watched → Event
  | .start => .start
  | .stop => .stop
  | .resume i now => .resume i now
  | .answered i at' now => .answered i (.ok (w.answer at')) now
  | .failed i e now => .answered i (.error e) now

variable {w : Watch} {c : Controller} {a : Watched} {now : Time}

/-- The step is the local check, while pending is shown. -/
def Checks (c : Controller) (a : Watched) (now : Time) : Prop :=
  ∃ i s, a = .resume i now ∧ c.coroutines[i]? = some ⟨s, .countdown⟩ ∧ c.scope = some s ∧
    c.status = .pending

/-- The step is the local check, and it reports expired. -/
def ReportsExpired (w : Watch) (c : Controller) (a : Watched) (now : Time) : Prop :=
  Checks c a now ∧ ∃ o, step w.parse c (a.event w) = some o ∧ o.1.status = .expired

/-- The controller of the screen of a verification. -/
abbrev WatchRun (w : Watch) (v : Verification) (now : Time) :=
  Run (reporting fun c (a : Watched) => step w.parse c (a.event w))
    ⟨.new w.parse (w.initial v) now, []⟩

variable {parse : Text → Option Int} {nowMs : Int}

theorem start_verification : c.start.verification = c.verification := by
  unfold Controller.start
  split
  · rfl
  · dsimp only
    split <;> rfl

/-- The countdown changes the status only, -/
theorem runCountdown_expiresAt :
    (c.runCountdown parse nowMs).2.1.verification.expiresAt = c.verification.expiresAt := by
  unfold Controller.runCountdown
  split
  · rfl
  · dsimp only
    split
    · rfl
    · split
      · rfl
      · split <;> rfl

/-- and an answer has the instant of the server. -/
theorem received_expiresAt {parsed : StatusResponse}
    (same : c.verification.expiresAt = parsed.expiresAt) :
    (c.received parse parsed nowMs).1.verification.expiresAt = parsed.expiresAt := by
  unfold Controller.received
  dsimp only
  split
  · split
    · rfl
    · exact same
  · rfl

/-- The record keeps its `expires_at`. -/
theorem step_expiresAt {o : Outcome} (same : c.verification.expiresAt = w.toISOString w.expiresAt)
    (h : step w.parse c (a.event w) = some o) :
    o.1.verification.expiresAt = w.toISOString w.expiresAt := by
  cases a with
  | start =>
    exact Option.some.inj h ▸ (congrArg Verification.expiresAt start_verification).trans same
  | stop => exact Option.some.inj h ▸ same
  | resume i now =>
    rw [Watched.event, step] at h
    split at h
    · exact absurd h (Option.some_ne_none o).symm
    · next scope work hi =>
      split at h
      · exact Option.some.inj h ▸ same
      · split at h
        · exact absurd h (Option.some_ne_none o).symm
        · exact absurd h (Option.some_ne_none o).symm
        · exact Option.some.inj h ▸ runCountdown_expiresAt.trans same
        · exact Option.some.inj h ▸ same
  | answered i at' now =>
    rw [Watched.event, step] at h
    split at h
    · exact absurd h (Option.some_ne_none o).symm
    · obtain ⟨-, h⟩ := Option.ite_none_left_eq_some.mp h
      split at h
      · exact Option.some.inj h ▸ same
      · refine Option.some.inj h ▸ (received_expiresAt ?_).trans (w.answer_expiresAt at')
        exact same.trans (w.answer_expiresAt at').symm
  | failed i e now =>
    rw [Watched.event, step] at h
    split at h
    · exact absurd h (Option.some_ne_none o).symm
    · obtain ⟨-, h⟩ := Option.ite_none_left_eq_some.mp h
      split at h
      · exact Option.some.inj h ▸ same
      · exact Option.some.inj h ▸ same

/-- The seconds that are left are none from the last second on. -/
theorem secondsLeftFrom_zero :
    secondsLeftFrom w.parse (w.toISOString w.expiresAt) now = 0 ↔ w.expiresAt < now + 1000 := by
  rw [secondsLeftFrom, w.parse_toISOString]
  have seconds : (((w.expiresAt : Int) - now).tdiv 1000).toNat = 0 ↔
      (w.expiresAt : Int) < now + 1000 := by
    rw [Int.toNat_eq_zero]
    rcases Int.le_total 0 ((w.expiresAt : Int) - now) with left | out
    · rw [Int.tdiv_eq_ediv_of_nonneg left]
      omega
    · rw [← Int.neg_sub, Int.neg_tdiv, Int.tdiv_eq_ediv_of_nonneg (Int.sub_nonneg_of_le ?_)]
      · omega
      · exact Int.le_of_sub_nonpos out
  exact seconds.trans Int.ofNat_lt

/-- The local check reports expired from the last second on. -/
theorem reportsExpired_iff (same : c.verification.expiresAt = w.toISOString w.expiresAt) :
    ReportsExpired w c a now ↔ Checks c a now ∧ w.expiresAt < now + 1000 := by
  refine and_congr_right ?_
  rintro ⟨i, s, rfl, countdown, scope, pending⟩
  have taken : step w.parse c (Watched.event w (.resume i now)) =
      some ((c.runCountdown w.parse now).2.1.advance i s (c.runCountdown w.parse now).1,
        (c.runCountdown w.parse now).2.2) := by
    rw [Watched.event, step, countdown]
    exact if_neg (not_not.mpr scope)
  have active : ¬(!c.scopeActive) = true := by
    rw [Controller.scopeActive, scope, Option.isSome_some]
    decide
  have running : ¬c.verification.status.isTerminal = true :=
    fun terminal => VerificationStatus.isTerminal_iff.mp terminal pending
  rw [taken]
  simp only [Option.some.injEq, exists_eq_left']
  rw [← secondsLeftFrom_zero (w := w), Controller.runCountdown, if_neg active]
  dsimp only
  rw [if_neg running, same]
  split
  · next out => exact iff_of_true rfl out
  · next left =>
    refine iff_of_false (fun expired => ?_) left
    split at expired
    · cases pending.symm.trans expired
    · cases pending.symm.trans expired

theorem neverEarly_iff_apart {v : Verification} {made : Time}
    {log : List (Reporting Controller (Report Nat) × Watched)}
    {q : Reporting Controller (Report Nat)} (run : WatchRun w v made log q) :
    w.NeverEarly (ReportsExpired w) log ↔ w.Apart Checks log := by
  refine w.neverEarly_iff_apart fun e he now => reportsExpired_iff ?_
  obtain ⟨_, _, _, _, before, _, _⟩ := run.split he
  refine before.invariant
    (I := fun p => p.state.verification.expiresAt = w.toISOString w.expiresAt) rfl ?_
  intro p a p' same hs
  obtain ⟨o, taken, rfl⟩ := Option.map_eq_some_iff.mp hs
  exact step_expiresAt same taken

end Android

/-! ## Both -/

/-- In every run of either controller an expiry that is reported on its own account is one the
server agrees with, if and only if no local check is made in the last second of a verification that
is still pending. -/
theorem neverEarly_iff (w : Watch) (v : Verification) (made : Time) :
    (∀ log q, Web.WatchRun w v made log q →
      (w.NeverEarly (Web.ReportsExpired w) log ↔ w.Apart Web.Checks log)) ∧
    ∀ log q, Android.WatchRun w v made log q →
      (w.NeverEarly (Android.ReportsExpired w) log ↔ w.Apart Android.Checks log) :=
  ⟨fun _ _ => Web.neverEarly_iff_apart, fun _ _ => Android.neverEarly_iff_apart⟩

namespace UiScript

/-- Nothing has been received for this one. -/
def unclaimed : Syrotp.Verification where
  id := newId .verification 1
  appId := newId .app 1
  phoneE164 := text "+963991234567"
  purpose := text "login"
  clientRef := none
  locale := none
  receiverId := newId .receiver 1
  receiverMsisdnSnapshot := some (text "+963998887777")
  receiverOperatorSnapshot := none
  code := text "123456"
  messagePrefix := text "VERIFY"
  status := .pending
  attempts := 0
  expiresAt := 600000
  verifiedAt := none
  cancelledAt := none
  matchedInboundId := none
  createdIp := none
  createdAt := 0

def watch : Watch where
  row _ := unclaimed
  expiresAt := 600000
  kept _ := rfl
  toISOString _ := expiresAt
  getTime := getTime
  parse := getTime
  getTime_toISOString := by decide
  parse_toISOString := by decide

def webWatch (events : List Web.Watched) :=
  exec (reporting fun c (a : Web.Watched) => Web.step watch.getTime c (a.event watch))
    ⟨.new watch.getTime (watch.initial shown) 0, []⟩ events

theorem webWatch_run {events : List Web.Watched} (h : (webWatch events).isSome = true) :
    Web.WatchRun watch shown 0 ((webWatch events).get h).1 ((webWatch events).get h).2 :=
  run_of_exec (Option.some_get h).symm

def androidWatch (events : List Android.Watched) :=
  exec (reporting fun c (a : Android.Watched) => Android.step watch.parse c (a.event watch))
    ⟨.new watch.parse (watch.initial shown) 0, []⟩ events

theorem androidWatch_run {events : List Android.Watched}
    (h : (androidWatch events).isSome = true) :
    Android.WatchRun watch shown 0 ((androidWatch events).get h).1
      ((androidWatch events).get h).2 :=
  run_of_exec (Option.some_get h).symm

/-- The local check finds half a second left. -/
def webEarly : List Web.Watched := [.start, .tick 599500]

def androidEarly : List Android.Watched := [.start, .resume 0 0, .resume 0 599500]

/-- It finds five seconds left, and then none. -/
def webPunctual : List Web.Watched := [.start, .tick 595000, .tick 600000]

def androidPunctual : List Android.Watched :=
  [.start, .resume 0 0, .resume 0 595000, .resume 0 600000]

theorem webEarly_runs : (webWatch webEarly).isSome = true := by decide +kernel

theorem androidEarly_runs : (androidWatch androidEarly).isSome = true := by decide +kernel

theorem webPunctual_runs : (webWatch webPunctual).isSome = true := by decide +kernel

theorem androidPunctual_runs : (androidWatch androidPunctual).isSome = true := by decide +kernel

/-- Five seconds are enough, and none are no longer before the expiry. -/
theorem not_lastSecond {now : Nat} (punctual : now ∈ [0, 595000, 600000]) :
    ¬watch.LastSecond now := by
  rintro ⟨soon, before⟩
  have soon : (600000 : Nat) < now + 1000 := soon
  have before : now < (600000 : Nat) := before
  simp only [List.mem_cons, List.not_mem_nil, or_false] at punctual
  omega

end UiScript

/-- Controllers that look five seconds before the expiry and at the expiry are never early. -/
theorem neverEarly_script : ∃ log q log' q',
    Web.WatchRun UiScript.watch UiScript.shown 0 log q ∧ q.state.status = .expired ∧
    UiScript.watch.NeverEarly (Web.ReportsExpired UiScript.watch) log ∧
    Android.WatchRun UiScript.watch UiScript.shown 0 log' q' ∧ q'.state.status = .expired ∧
    UiScript.watch.NeverEarly (Android.ReportsExpired UiScript.watch) log' := by
  obtain ⟨web, android⟩ := neverEarly_iff UiScript.watch UiScript.shown 0
  have webRun := UiScript.webWatch_run UiScript.webPunctual_runs
  have androidRun := UiScript.androidWatch_run UiScript.androidPunctual_runs
  refine ⟨_, _, _, _, webRun, by decide +kernel, (web _ _ webRun).mpr ?_, androidRun,
    by decide +kernel, (android _ _ androidRun).mpr ?_⟩
  · rintro e he now ⟨tick, -, -⟩ -
    have punctual : ∀ e ∈ ((UiScript.webWatch UiScript.webPunctual).get
        UiScript.webPunctual_runs).1,
        e.2 ∈ [Web.Watched.start, .tick 595000, .tick 600000] := by
      decide +kernel
    refine UiScript.not_lastSecond ?_
    simpa [tick] using Or.inr (punctual e he)
  · rintro e he now ⟨i, s, resumed, -, -, -⟩ -
    have punctual : ∀ e ∈ ((UiScript.androidWatch UiScript.androidPunctual).get
        UiScript.androidPunctual_runs).1,
        e.2 ∈ [Android.Watched.start, .resume 0 0, .resume 0 595000, .resume 0 600000] := by
      decide +kernel
    refine UiScript.not_lastSecond ?_
    have there := punctual e he
    simp only [resumed] at there
    simp at there ⊢
    exact there.imp And.right (Or.imp And.right And.right)

/-- Both report expired half a second before the expiry, and the server says `pending` then. -/
theorem halfSecond_early : ∃ log q log' q',
    Web.WatchRun UiScript.watch UiScript.shown 0 log q ∧
    ¬UiScript.watch.NeverEarly (Web.ReportsExpired UiScript.watch) log ∧
    Android.WatchRun UiScript.watch UiScript.shown 0 log' q' ∧
    ¬UiScript.watch.NeverEarly (Android.ReportsExpired UiScript.watch) log' := by
  have pending : effectiveStatus (UiScript.watch.row 599500) 599500 = .pending := by decide
  refine ⟨_, _, _, _, UiScript.webWatch_run UiScript.webEarly_runs, fun never => ?_,
    UiScript.androidWatch_run UiScript.androidEarly_runs, fun never => ?_⟩
  · have he := List.getLast_mem (l := ((UiScript.webWatch UiScript.webEarly).get
      UiScript.webEarly_runs).1) (by decide +kernel)
    refine never _ he 599500 ⟨⟨?_, ?_, ?_⟩, ?_⟩ pending
    · decide +kernel
    · decide +kernel
    · decide +kernel
    · refine ⟨_, Option.some_get (by decide +kernel) |>.symm, ?_⟩
      decide +kernel
  · have he := List.getLast_mem (l := ((UiScript.androidWatch UiScript.androidEarly).get
      UiScript.androidEarly_runs).1) (by decide +kernel)
    refine never _ he 599500 ⟨⟨0, 0, ?_, ?_, ?_, ?_⟩, ?_⟩ pending
    · decide +kernel
    · decide +kernel
    · decide +kernel
    · decide +kernel
    · refine ⟨_, Option.some_get (by decide +kernel) |>.symm, ?_⟩
      decide +kernel

end Syrotp.Ui
