import Syrotp.Server.System

/-!
# Metrics

The counters of `services/metrics.ts` that the routes of verifications and of inbound messages
increment, and where the routes do it: once the call of the service has returned. The histograms
beside them observe durations and are left out.
-/

namespace Syrotp

/-- An increment of a counter, with its labels. -/
inductive MetricEvent where
  | verificationStarted (appId : Id)
  | verificationTerminal (appId : Id) (status : VerificationStatus)
  | inboundReceived (receiverId : Id) (isMatched : Bool) (reason : String)
  deriving DecidableEq, Repr

def MatchOutcome.isMatched : MatchOutcome → Bool
  | .verification .. | .binding .. => true
  | .unmatched .. | .duplicate _ => false

/-- `reasonLabel` of the route. -/
def MatchOutcome.reasonLabel : MatchOutcome → String
  | .verification .. | .binding .. => "matched"
  | .duplicate _ => "duplicate"
  | .unmatched .expired _ => "expired"
  | .unmatched .noMatch _ | .unmatched .bindingNoMatch _ => "no_match"

/-- What the inbound route counts when `processInbound` returns. -/
def inboundMetrics (receiver : Receiver) (outcome : MatchOutcome) : List MetricEvent :=
  .inboundReceived receiver.id outcome.isMatched outcome.reasonLabel ::
    if outcome.isMatched then [.verificationTerminal receiver.appId .verified] else []

/-- What the route of a call counts when the call has ended. The receiver is the one that signed
the message; it keeps its id and its app. -/
def Call.metrics (receivers : List Receiver) : Call → List MetricEvent
  | .start input (.done (.ok _)) => [.verificationStarted input.appId]
  | .inbound input (.done outcome) =>
    match receivers.find? fun r => r.id = input.receiverId with
    | none => []
    | some receiver => inboundMetrics receiver outcome
  | .cancel appId _ (.done (.ok _)) => [.verificationTerminal appId .cancelled]
  | _ => []

/-- What is counted at a step of the server. -/
def metricsAt (env : Env) (e : Server × Act Request Move) : List MetricEvent :=
  match e.2 with
  | .turn i (.statement w) =>
    match e.1.calls[i]?.bind (·.statement env (viewOf e.1.store (e.1.others i)) w) with
    | none => []
    | some t => t.call.metrics e.1.store.receivers
  | .turn _ _ | .arrive _ => []

end Syrotp
