import Syrotp.Misc.Run

/-!
# The timer of the webhook worker

`start`, `stop`, `runOnce` and `scheduleNext` of `services/webhookWorker.ts`, with the timers and
promises that are underway. A tick is what `webhookTick` models; here it only takes its time, and
its errors are logged by `runOnce`. `runOnce` is called by the timer alone.
-/

namespace Syrotp

/-- Where the callback of a timer is: `runOnce` waits for its tick; it has returned, and `finally`
is to follow; it is through. -/
inductive Round where
  | ticking
  | returned
  | through
  deriving DecidableEq, Repr

/-- The fields of the worker, the timers that are set, the number of those that were, the callbacks,
and the calls of `stop`, each resolved or not. -/
structure WorkerLoop where
  enabled : Bool
  stopped : Bool
  running : Bool
  timer : Option Nat
  armed : List Nat
  drawn : Nat
  rounds : List Round
  stops : List Bool
  deriving DecidableEq, Repr

/-- `new WebhookWorker(log)`, with the setting `WEBHOOK_WORKER_ENABLED`. -/
def WorkerLoop.new (enabled : Bool) : WorkerLoop where
  enabled
  stopped := false
  running := false
  timer := none
  armed := []
  drawn := 0
  rounds := []
  stops := []

/-- What happens to it: it is started; a timer fires; a tick ends, or throws; the `finally` of a
callback follows; it is stopped; a call of `stop` looks at `running` again. -/
inductive LoopAct where
  | start
  | fire (timer : Nat)
  | settle (i : Nat)
  | follow (i : Nat)
  | stop
  | look (i : Nat)
  deriving DecidableEq, Repr

namespace WorkerLoop

def scheduleNext (w : WorkerLoop) : WorkerLoop :=
  if w.stopped then w
  else { w with timer := some w.drawn, armed := w.armed ++ [w.drawn], drawn := w.drawn + 1 }

def start (w : WorkerLoop) : WorkerLoop :=
  if !w.enabled then w else scheduleNext { w with stopped := false }

/-- `runOnce`, up to its tick. -/
def runOnce (w : WorkerLoop) : WorkerLoop :=
  if w.running then { w with rounds := w.rounds ++ [.returned] }
  else { w with running := true, rounds := w.rounds ++ [.ticking] }

/-- `stop`, up to its loop. -/
def stop (w : WorkerLoop) : WorkerLoop :=
  { w with
    stopped := true
    timer := none
    armed := w.timer.elim w.armed w.armed.erase
    stops := w.stops ++ [!w.running] }

def step (w : WorkerLoop) : LoopAct → Option WorkerLoop
  | .start => some w.start
  | .fire h => if h ∈ w.armed then some (runOnce { w with armed := w.armed.erase h }) else none
  | .settle i =>
    if w.rounds[i]? = some .ticking then
      some { w with running := false, rounds := w.rounds.set i .returned }
    else none
  | .follow i =>
    if w.rounds[i]? = some .returned then
      some (scheduleNext { w with rounds := w.rounds.set i .through })
    else none
  | .stop => some w.stop
  | .look i =>
    if w.stops[i]? = some false then some { w with stops := w.stops.set i (!w.running) } else none

end WorkerLoop

end Syrotp
