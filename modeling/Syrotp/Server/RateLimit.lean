import Syrotp.Misc.Run
import Syrotp.Server.Schema

/-!
# The rate limit

`services/rateLimit.ts`: a counter in Redis for each key and window. All instances of the server
share the Redis and its clock, so a run is the order in which their calls reach it.
-/

namespace Syrotp

/-! ## Counters in Redis -/

/-- A counter, and when it expires if a TTL was set. -/
structure Counter where
  value : Nat
  expiresAt : Option Time
  deriving DecidableEq, Repr

/-- The counters by their keys. -/
abbrev Counters := Text → Option Counter

def Counter.live (now : Time) (c : Counter) : Bool :=
  match c.expiresAt with
  | none => true
  | some t => now < t

/-- What a command finds at the key. -/
def Counters.get (redis : Counters) (key : Text) (now : Time) : Option Counter :=
  (redis key).filter (·.live now)

def Counters.set (redis : Counters) (key : Text) (c : Counter) : Counters := fun k =>
  if k = key then some c else redis k

/-- `INCR key`: a missing counter starts at 1, without a TTL. -/
def incr (redis : Counters) (key : Text) (now : Time) : Nat × Counters :=
  match redis.get key now with
  | none => (1, redis.set key ⟨1, none⟩)
  | some c => (c.value + 1, redis.set key ⟨c.value + 1, c.expiresAt⟩)

/-- `EXPIRE key seconds NX`: only a counter without a TTL gets one. -/
def expireNX (redis : Counters) (key : Text) (seconds : Nat) (now : Time) : Counters :=
  match redis.get key now with
  | some ⟨value, none⟩ => redis.set key ⟨value, some (now + seconds * 1000)⟩
  | _ => redis

/-! ## The check -/

/-- The arguments of `rateCheck`. -/
structure RateRequest where
  key : Text
  limit : Nat
  windowSeconds : Nat
  deriving DecidableEq, Repr

structure RateCheck where
  allowed : Bool
  count : Nat
  remaining : Nat
  resetSeconds : Nat
  deriving DecidableEq, Repr

/-- `Math.floor(Date.now() / 1000 / windowSeconds)`. -/
def windowIndex (windowSeconds : Nat) (now : Time) : Nat := now / (windowSeconds * 1000)

/-- The key of the counter. -/
def bucket (key : Text) (index : Nat) : Text :=
  text "syrotp:rl:" ++ key ++ text ":" ++ Text.ofInt index

/-- The pipeline, executed at once: the reply of its INCR, and what it leaves. -/
def RateRequest.pipeline (r : RateRequest) (redis : Counters) (now : Time) : Nat × Counters :=
  let key := bucket r.key (windowIndex r.windowSeconds now)
  let incremented := incr redis key now
  (incremented.1, expireNX incremented.2 key r.windowSeconds now)

/-- What `rateCheck` makes of the replies, at a second reading of the clock: it lets the request
pass if there are none, and counts an error as zero. -/
def RateRequest.check (r : RateRequest) (later : Time) : Option (Option Nat) → RateCheck
  | none => ⟨true, 0, r.limit, r.windowSeconds⟩
  | some incrReply =>
    let count := incrReply.getD 0
    { allowed := count ≤ r.limit
      count := count
      remaining := r.limit - count
      resetSeconds := r.windowSeconds - later / 1000 % r.windowSeconds }

/-! ## Runs -/

/-- The shared clock and the shared Redis. -/
structure RateLimiter where
  now : Time
  redis : Counters

inductive RateAction where
  /-- Time passes. -/
  | tick (ms : Nat)
  /-- Some instance makes a check, and reads the clock again when it has its replies. -/
  | rateCheck (r : RateRequest) (later : Time)
  deriving DecidableEq, Repr

def RateLimiter.step (s : RateLimiter) : RateAction → Option RateLimiter
  | .tick ms => some { s with now := s.now + ms }
  | .rateCheck r _ => some { s with redis := (r.pipeline s.redis s.now).2 }

/-- What a logged check answered. -/
def answered (e : RateLimiter × RateAction) : Option (RateRequest × RateCheck) :=
  match e.2 with
  | .tick _ => none
  | .rateCheck r later => some (r, r.check later (some (some (r.pipeline e.1.redis e.1.now).1)))

end Syrotp
