import Syrotp.Gsm.Service

/-!
# One step of a station

What each action of the modem, the loops of the gateway and the process needs, and the station it
leaves.
-/

namespace Syrotp.Gsm

variable {cfg : GatewayConfig} {s t : Station} {a : Action}

/-- The slots after a deletion. -/
def Station.slotsAfter (s : Station) (index : Nat) (effective : Bool) : List Slot :=
  if effective then s.slots.filter fun slot => slot.sms.index ≠ index else s.slots

inductive StationStep (cfg : GatewayConfig) (s : Station) : Action → Station → Prop
  | arrived {sms} : (∀ slot ∈ s.slots, slot.sms.index ≠ sms.index) →
      StationStep cfg s (.arrive sms)
        { s with arrivals := s.arrivals ++ [sms], slots := s.slots ++ [⟨s.arrivals.length, sms⟩] }
  | polled {clock reads} : s.reading = [] → s.Brings reads →
      StationStep cfg s (.poll clock reads)
        { s with reading := s.listed clock reads, isQueued := false }
  | added {now r rest} : s.reading = r :: rest → s.isQueued = false →
      StationStep cfg s (.add now)
        { s with queue := (s.queue.add now (payload cfg r.sms)).2, isQueued := true }
  | deleted {effective r rest} : s.reading = r :: rest → s.isQueued = true →
      StationStep cfg s (.delete effective)
        { s with
          slots := s.slotsAfter r.sms.index effective
          reading := rest
          isQueued := false }
  | readerFailed : StationStep cfg s .readerFails { s with reading := [], isQueued := false }
  | drained {now} : s.sending = [] → s.authFailed = false →
      StationStep cfg s (.drain now) { s with sending := s.queue.snapshot now 50 }
  | uploaded {reply now item rest} : s.sending = item :: rest → reply.isOther = true →
      StationStep cfg s (.upload reply now) (s.post item rest now reply)
  | workerFailed : StationStep cfg s .workerFails { s with sending := [] }
  | restarted : StationStep cfg s .restart
      { s with reading := [], isQueued := false, sending := [], authFailed := false }

theorem Station.step_cases (h : s.step cfg a = some t) : StationStep cfg s a t := by
  cases a with
  | arrive sms =>
    simp only [Station.step, Option.ite_none_left_eq_some, Option.some.injEq] at h
    obtain ⟨free, rfl⟩ := h
    refine .arrived fun slot hslot same => free (List.any_eq_true.mpr ⟨slot, hslot, ?_⟩)
    exact decide_eq_true same
  | poll clock reads =>
    simp only [Station.step] at h
    split at h
    · next idle =>
      obtain ⟨brings, h⟩ := Option.ite_none_right_eq_some.mp h
      obtain rfl := Option.some.inj h
      exact .polled idle brings
    · cases h
  | add now =>
    simp only [Station.step] at h
    split at h
    · next first new =>
      obtain rfl := Option.some.inj h
      exact .added first new
    · cases h
  | delete effective =>
    simp only [Station.step] at h
    split at h
    · next first queued =>
      obtain rfl := Option.some.inj h
      exact .deleted first queued
    · cases h
  | readerFails =>
    obtain rfl := Option.some.inj h
    exact .readerFailed
  | drain now =>
    simp only [Station.step] at h
    split at h
    · next idle allowed =>
      obtain rfl := Option.some.inj h
      exact .drained idle allowed
    · cases h
  | upload reply now =>
    simp only [Station.step] at h
    split at h
    · next first =>
      obtain ⟨other, h⟩ := Option.ite_none_right_eq_some.mp h
      obtain rfl := Option.some.inj h
      exact .uploaded first other
    · cases h
  | workerFails =>
    obtain rfl := Option.some.inj h
    exact .workerFailed
  | restart =>
    obtain rfl := Option.some.inj h
    exact .restarted

end Syrotp.Gsm
