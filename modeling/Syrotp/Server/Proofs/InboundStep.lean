import Syrotp.Server.Proofs.Calls

/-!
# The statements of a post

`InboundStep` says once what a statement of `processInbound` can do: where it leads, what it
writes, and what it found. Everything else about posts is proved by cases on it.
-/

namespace Syrotp

theorem limitOne_mem {α : Type*} {rows : List α} {tie : Nat} {x : α}
    (h : limitOne rows tie = some x) : x ∈ rows := List.mem_of_getElem? h

theorem limitOne_eq_none {α : Type*} {rows : List α} {tie : Nat} (h : limitOne rows tie = none) :
    rows = [] := by
  rw [limitOne, List.getElem?_eq_none_iff] at h
  refine List.eq_nil_of_length_eq_zero (Nat.eq_zero_of_not_pos fun some => ?_)
  exact absurd (Nat.mod_lt tie some) (by omega)

/-- The probe only explains a failure. -/
theorem consumeBindNonceProbe_ne_matched {db : Db} {tie : Nat} {input : ConsumeBindNonceInput}
    {now : Time} {bindingId appId : Id} :
    consumeBindNonceProbe db tie input now ≠ .matched bindingId appId := by
  simp only [consumeBindNonceProbe]
  split
  · exact nofun
  · split
    · exact nofun
    · split
      · exact nofun
      · split <;> exact nofun

/-- What `consumeBindNonce` is called with. -/
def MatchInput.bind (env : Env) (input : MatchInput) (nonce : Text) : ConsumeBindNonceInput :=
  ⟨input.receiverId, input.fromE164 env, nonce⟩

/-- The rows a claim may take: in its snapshot, and qualifying now. -/
def candidate (env : Env) (input : MatchInput) (code : Text) (now : Time) (candidates : List Id)
    (x : Verification) : Prop :=
  x.id ∈ candidates ∧ claimable input.receiverId (input.fromE164 env) code now x = true

/-- One statement of a post: the stage before, the stage after and what it writes. -/
inductive InboundStep (env : Env) (v : View) (w : World) (input : MatchInput) :
    InboundPhase → InboundPhase → Option Write → Prop
  | stored : hasKey (·.id) (newId .inbound (w.ulid 0)) v.db.inboundSms = false →
      hasKey (·.idempotency) input.idempotency v.db.inboundSms = false →
      InboundStep env v w input .insert
        (afterInsert env input (newId .inbound (w.ulid 0)) w.now)
        (some (.insertInbound (input.row env (newId .inbound (w.ulid 0)) w.dbNow)))
  | clash : hasKey (·.id) (newId .inbound (w.ulid 0)) v.db.inboundSms = true ∨
        hasKey (·.idempotency) input.idempotency v.db.inboundSms = true →
      InboundStep env v w input .insert .findPrior none
  | duplicate {prior} : prior ∈ v.db.inboundSms → prior.idempotency = input.idempotency →
      InboundStep env v w input .findPrior (.done (.duplicate prior.id)) none
  | rethrown : (∀ m ∈ v.db.inboundSms, m.idempotency ≠ input.idempotency) →
      InboundStep env v w input .findPrior .failed none
  | violated {i nonce now b} : b ∈ v.db.phoneBindings →
      consumable (input.bind env nonce) now b = true →
      InboundStep env v w input (.consumeBind i nonce now) .failed none
  | consumed {i nonce now b} : b ∈ v.db.phoneBindings →
      consumable (input.bind env nonce) now b = true →
      activeUnique (v.db.commit (.verifyBindings
        ((v.db.phoneBindings.filter (consumable (input.bind env nonce) now)).map (·.id))
        now)).phoneBindings = true →
      InboundStep env v w input (.consumeBind i nonce now) (.annotate i b.id)
        (some (.verifyBindings
          ((v.db.phoneBindings.filter (consumable (input.bind env nonce) now)).map (·.id)) now))
  | unconsumed {i nonce now} :
      (∀ b ∈ v.db.phoneBindings, consumable (input.bind env nonce) now b = false) →
      InboundStep env v w input (.consumeBind i nonce now) (.probeBind i nonce now) none
  | probed {i nonce now} : InboundStep env v w input (.probeBind i nonce now)
      (.done (.unmatched .bindingNoMatch i)) none
  | annotated {i bindingId} : InboundStep env v w input (.annotate i bindingId)
      (.done (.binding bindingId i)) (some (.setMatched i (some bindingId)))
  | snapshot {i code now} : InboundStep env v w input (.claimSnapshot i code now)
      (.claimLock i code now ((v.db.verifications.filter
        (claimable input.receiverId (input.fromE164 env) code now)).map (·.id))) none
  | locked {i code now candidates x} : x ∈ v.db.verifications →
      candidate env input code now candidates x → v.held (.verification x.id) = false →
      InboundStep env v w input (.claimLock i code now candidates)
        (.emit i (x.claimed i now) .insertEvent) none
  | passed {i code now candidates} :
      (∀ x ∈ v.db.verifications, candidate env input code now candidates x →
        v.held (.verification x.id) = true) →
      InboundStep env v w input (.claimLock i code now candidates) (.clear i) none
  | returned {i row emission write} : emission.write? row .verified (some i) = some write →
      InboundStep env v w input (.emit i row emission) (.commit i row emission) none
  | emitted {i row emission emission'} :
      emitVerificationEventInTx v w .verified row.appId emission = some emission' →
      InboundStep env v w input (.emit i row emission) (.emit i row emission') none
  | committed {i row emission write} : emission.write? row .verified (some i) = some write →
      InboundStep env v w input (.commit i row emission) (.done (.verification row.id i))
        (some write)
  | cleared {i} : InboundStep env v w input (.clear i) (.done (.unmatched .noMatch i))
      (some (.setMatched i none))

theorem processInbound_step {env : Env} {v : View} {w : World} {input : MatchInput}
    {phase phase' : InboundPhase} {x : Option Write}
    (h : processInbound env v w input phase = some (phase', x)) :
    InboundStep env v w input phase phase' x := by
  cases phase with
  | insert =>
    simp only [processInbound] at h
    split at h
    · next present =>
      obtain ⟨rfl, rfl⟩ := Option.some.inj h
      exact .clash (Bool.or_eq_true _ _ ▸ present)
    · next absent =>
      obtain ⟨rfl, rfl⟩ := Option.some.inj h
      simp only [Bool.or_eq_true, not_or, Bool.not_eq_true] at absent
      exact .stored absent.1 absent.2
  | findPrior =>
    simp only [processInbound] at h
    split at h
    · next prior found =>
      obtain ⟨rfl, rfl⟩ := Option.some.inj h
      have hit := List.find?_some found
      simp only [decide_eq_true_eq] at hit
      exact .duplicate (List.mem_of_find?_eq_some found) (Prod.ext hit.1 hit.2)
    · next absent =>
      obtain ⟨rfl, rfl⟩ := Option.some.inj h
      refine .rethrown fun m hm key => ?_
      have miss := List.find?_eq_none.mp absent m hm
      exact miss (decide_eq_true ⟨congrArg Prod.fst key, congrArg Prod.snd key⟩)
  | consumeBind i nonce now =>
    simp only [processInbound, consumeBindNonce] at h
    cases found : limitOne (v.db.phoneBindings.filter (consumable (input.bind env nonce) now))
        w.tie with
    | none =>
      simp only [MatchInput.bind] at found
      simp only [found] at h
      obtain ⟨rfl, rfl⟩ := Option.some.inj h
      exact .unconsumed fun b hb =>
        Bool.eq_false_iff.mpr (List.filter_eq_nil_iff.mp (limitOne_eq_none found) b hb)
    | some b =>
      obtain ⟨hb, hit⟩ := List.mem_filter.mp (limitOne_mem found)
      simp only [MatchInput.bind] at found
      simp only [found] at h
      split at h
      · obtain ⟨rfl, rfl⟩ := Option.some.inj h
        exact .violated hb hit
      · next row write claimed =>
        obtain ⟨rfl, rfl⟩ := Option.some.inj h
        split at claimed
        · next unique =>
          obtain ⟨rfl, rfl⟩ := ConsumeUpdate.claimed.inj claimed
          exact .consumed hb hit unique
        · cases claimed
      · next other =>
        split at other <;> cases other
  | probeBind i nonce now =>
    simp only [processInbound] at h
    split at h
    · next matched => exact absurd matched consumeBindNonceProbe_ne_matched
    · obtain ⟨rfl, rfl⟩ := Option.some.inj h
      exact .probed
  | annotate i bindingId =>
    obtain ⟨rfl, rfl⟩ := Option.some.inj h
    exact .annotated
  | claimSnapshot i code now =>
    obtain ⟨rfl, rfl⟩ := Option.some.inj h
    exact .snapshot
  | claimLock i code now candidates =>
    simp only [processInbound] at h
    split at h
    · next empty =>
      obtain ⟨rfl, rfl⟩ := Option.some.inj h
      refine .passed fun y hy hit => Bool.of_not_eq_false fun free => ?_
      refine absurd (limitOne_eq_none empty) (List.ne_nil_of_mem (a := y) ?_)
      exact List.mem_filter.mpr ⟨hy, decide_eq_true ⟨hit.1, hit.2, free⟩⟩
    · next y found =>
      obtain ⟨rfl, rfl⟩ := Option.some.inj h
      obtain ⟨hy, picked⟩ := List.mem_filter.mp (limitOne_mem found)
      obtain ⟨seen, claim, free⟩ := of_decide_eq_true picked
      exact .locked hy ⟨seen, claim⟩ free
  | emit i row emission =>
    simp only [processInbound] at h
    split at h
    · next write written =>
      obtain ⟨rfl, rfl⟩ := Option.some.inj h
      exact .returned written
    · obtain ⟨e, he, same⟩ := Option.map_eq_some_iff.mp h
      obtain ⟨rfl, rfl⟩ := same
      exact .emitted he
  | commit i row emission =>
    obtain ⟨write, written, same⟩ := Option.map_eq_some_iff.mp h
    obtain ⟨rfl, rfl⟩ := same
    exact .committed written
  | clear i =>
    obtain ⟨rfl, rfl⟩ := Option.some.inj h
    exact .cleared
  | done outcome => cases h
  | failed => cases h

end Syrotp
