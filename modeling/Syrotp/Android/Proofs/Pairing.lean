import Syrotp.Android.Pairing
import Syrotp.Android.Proofs.LostUpdate

/-!
# Pairing is kept

A paired gateway stays paired until it is unpaired, whatever its threads do at once and whenever its
process dies. But `isPaired` looks at two places one after the other, and a key that moves from the
one to the other in between is seen in neither.
-/

namespace Syrotp.Android

variable {P : Primitives} {d d' : Phone} {c c' : GatewayCall} {m : GatewayMove}
  {s t : Gateway} {a : GatewayAct} {log : List (Gateway × GatewayAct)} {i : Nat}

/-! ## What a turn does -/

/-- The key that its next statement imports. -/
def GatewayCall.imports? : GatewayCall → Option Text
  | .onCreate (.importKey legacy) | .doWork (.migrating (.importKey legacy)) => some legacy
  | .save _ _ key .importKey => some key
  | _ => none

/-- Whether its next statement erases the legacy key. -/
def GatewayCall.clears : GatewayCall → Bool
  | .onCreate .clearLegacySigningKey | .doWork (.migrating .clearLegacySigningKey)
  | .save _ _ _ .clearLegacySigningKey => true
  | _ => false

def GatewayCall.isUnpair : GatewayCall → Bool
  | .unpair _ => true
  | _ => false

/-- Someone presses Unpair. -/
def GatewayAct.isUnpair : GatewayAct → Bool
  | .act (.arrive .unpair) => true
  | _ => false

/-- Its stage of `isPaired`. -/
def GatewayCall.check? : GatewayCall → Option Checking
  | .refresh stage | .onReceive stage | .doWork (.checking stage) => some stage
  | _ => none

/-- A turn of a call is a step of a migration, a button or a check, or a worker that goes on. -/
inductive GatewayTurn (P : Primitives) (d : Phone) (m : GatewayMove) :
    GatewayCall → Phone → GatewayCall → Prop
  | migrates {of : Migrating → GatewayCall} {stage stage' : Migrating} {d' : Phone} :
      of = .onCreate ∨ of = (fun x => .doWork (.migrating x)) →
      stage.next P d m = some (d', stage') → GatewayTurn P d m (of stage) d' (of stage')
  | saves {url rcv key : Text} {stage stage' : Saving} {d' : Phone} :
      stage.next P d url rcv key m = some (d', stage') →
      GatewayTurn P d m (.save url rcv key stage) d' (.save url rcv key stage')
  | unpairs {stage stage' : Unpairing} {d' : Phone} : stage.next d m = some (d', stage') →
      GatewayTurn P d m (.unpair stage) d' (.unpair stage')
  | checks {of : Checking → GatewayCall} {stage stage' : Checking} :
      of = .refresh ∨ of = .onReceive ∨ of = (fun x => .doWork (.checking x)) →
      stage.next d m = some stage' → GatewayTurn P d m (of stage) d (of stage')
  | works {stage stage' : Working} : (∀ x, stage = .migrating x → x = .done) →
      (∀ x, stage' ≠ .migrating x) → (∀ x, stage' = .checking x → x = .serverUrl) →
      GatewayTurn P d m (.doWork stage) d (.doWork stage')

theorem Working.next_turn {stage stage' : Working} (h : stage.next P d m = some (d', stage')) :
    GatewayTurn P d m (.doWork stage) d' (.doWork stage') := by
  unfold Working.next at h
  split at h
  · cases h
    exact .works (by simp) (by simp) (by simp)
  · obtain ⟨⟨e, x⟩, next, same⟩ := Option.map_eq_some_iff.mp h
    cases same
    exact .migrates (.inr rfl) next
  · cases h
    apply GatewayTurn.works (by simp)
    · split <;> simp
    · split <;> simp
  · obtain ⟨x, next, same⟩ := Option.map_eq_some_iff.mp h
    cases same
    exact .checks (.inr (.inr rfl)) next
  · cases h
    apply GatewayTurn.works (by simp)
    · split <;> simp
    · split <;> simp
  · cases h
    apply GatewayTurn.works (by simp)
    · cases d.prefs.serverUrl <;> simp
    · cases d.prefs.serverUrl <;> simp
  · cases h
    apply GatewayTurn.works (by simp)
    · cases d.prefs.receiverId <;> simp
    · cases d.prefs.receiverId <;> simp
  · cases h
    exact .works (by simp) (by simp) (by simp)
  · cases h
    exact .works (by simp) (by simp) (by simp)
  · cases h

theorem GatewayCall.next_turn (h : c.next P d m = some (d', c')) : GatewayTurn P d m c d' c' := by
  cases c with
  | onCreate stage =>
    obtain ⟨⟨e, x⟩, next, same⟩ := Option.map_eq_some_iff.mp h
    cases same
    exact .migrates (.inl rfl) next
  | save url rcv key stage =>
    obtain ⟨⟨e, x⟩, next, same⟩ := Option.map_eq_some_iff.mp h
    cases same
    exact .saves next
  | unpair stage =>
    obtain ⟨⟨e, x⟩, next, same⟩ := Option.map_eq_some_iff.mp h
    cases same
    exact .unpairs next
  | refresh stage =>
    obtain ⟨x, next, same⟩ := Option.map_eq_some_iff.mp h
    cases same
    exact .checks (.inl rfl) next
  | onReceive stage =>
    obtain ⟨x, next, same⟩ := Option.map_eq_some_iff.mp h
    cases same
    exact .checks (.inr (.inl rfl)) next
  | doWork stage =>
    obtain ⟨⟨e, x⟩, next, same⟩ := Option.map_eq_some_iff.mp h
    cases same
    exact Working.next_turn next

/-! ### The phone -/

/-- All that a turn can do to the phone, and what it comes to. -/
inductive Effect (P : Primitives) (d : Phone) (c : GatewayCall) : Phone → GatewayCall → Prop
  | looked {c' : GatewayCall} : c'.isUnpair = c.isUnpair → c.clears = false → c'.clears = false →
      Effect P d c d c'
  | imported {c' : GatewayCall} {k : Text} : c.imports? = some k → c'.isUnpair = false →
      c.clears = false → c'.clears = true → Effect P d c (d.setEntry (importKey P k)) c'
  | erased {c' : GatewayCall} : c.clears = true → c'.isUnpair = false → c'.clears = false →
      Effect P d c (d.edit .clearLegacySigningKey) c'
  | addressed {c' : GatewayCall} {url rcv key : Text} {stage : Saving} {e : Edit} :
      c = .save url rcv key stage → e = .serverUrl url ∨ e = .receiverId rcv →
      c'.isUnpair = false → c.clears = false → c'.clears = false → Effect P d c (d.edit e) c'
  | deleted : c = .unpair .delete → Effect P d c d.delete (.unpair .clear)
  | unpaired : c = .unpair .clear → Effect P d c (d.edit .clear) (.unpair .unpaired)

/-- A migration looks, or imports, or erases. -/
theorem Migrating.next_cases {stage stage' : Migrating} (h : stage.next P d m = some (d', stage')) :
    (stage ≠ .clearLegacySigningKey ∧ stage' ≠ .clearLegacySigningKey ∧ d' = d) ∨
      (∃ legacy, stage = .importKey legacy ∧ d' = d.setEntry (Android.importKey P legacy) ∧
        stage' = .clearLegacySigningKey) ∨
      (stage = .clearLegacySigningKey ∧ d' = d.edit .clearLegacySigningKey ∧ stage' = .done) := by
  cases stage with
  | hasKey =>
    cases m with
    | proceed =>
      cases h
      apply Or.inl
      refine ⟨by simp, ?_, rfl⟩
      by_cases key : d.keystore.isSome = true
      · simp [key]
      · simp [key]
    | _ => cases h
  | legacySigningKey =>
    cases m with
    | proceed =>
      cases h
      apply Or.inl
      refine ⟨by simp, ?_, rfl⟩
      cases d.prefs.signingKey with
      | none => simp
      | some legacy => simp
    | _ => cases h
  | importKey legacy =>
    cases m with
    | proceed =>
      cases h
      exact .inr (.inl ⟨legacy, rfl, rfl, rfl⟩)
    | throws =>
      cases h
      apply Or.inl
      simp
    | _ => cases h
  | clearLegacySigningKey =>
    cases m with
    | proceed =>
      cases h
      exact .inr (.inr ⟨rfl, rfl, rfl⟩)
    | _ => cases h
  | done => cases m <;> cases h

theorem Saving.next_effect {url rcv key : Text} {stage stage' : Saving}
    (h : stage.next P d url rcv key m = some (d', stage')) :
    Effect P d (.save url rcv key stage) d' (.save url rcv key stage') := by
  cases stage with
  | serverUrl =>
    cases m with
    | proceed =>
      cases h
      exact .addressed rfl (.inl rfl) rfl rfl rfl
    | _ => cases h
  | receiverId =>
    cases m with
    | proceed =>
      cases h
      exact .addressed rfl (.inr rfl) rfl rfl rfl
    | _ => cases h
  | importKey =>
    cases m with
    | proceed =>
      cases h
      exact .imported rfl rfl rfl rfl
    | throws =>
      cases h
      exact .looked rfl rfl rfl
    | _ => cases h
  | clearLegacySigningKey =>
    cases m with
    | proceed =>
      cases h
      exact .erased rfl rfl rfl
    | _ => cases h
  | saved => cases m <;> cases h
  | refused e => cases m <;> cases h

theorem Unpairing.next_effect {stage stage' : Unpairing} (h : stage.next d m = some (d', stage')) :
    Effect P d (.unpair stage) d' (.unpair stage') := by
  cases stage with
  | delete =>
    cases m with
    | proceed =>
      cases h
      exact .deleted rfl
    | _ => cases h
  | clear =>
    cases m with
    | proceed =>
      cases h
      exact .unpaired rfl
    | _ => cases h
  | unpaired => cases m <;> cases h

theorem clears_doWork {stage : Working} (other : ∀ x, stage = .migrating x → x = .done) :
    (GatewayCall.doWork stage).clears = false := by
  cases stage with
  | migrating x =>
    rw [other x rfl]
    rfl
  | _ => rfl

theorem clears_migrating {of : Migrating → GatewayCall} {stage : Migrating}
    (kind : of = .onCreate ∨ of = fun x => .doWork (.migrating x))
    (other : stage ≠ .clearLegacySigningKey) : (of stage).clears = false := by
  obtain rfl | rfl := kind
  all_goals
    cases stage with
    | clearLegacySigningKey => exact absurd rfl other
    | _ => rfl

/-- The turn of any call has one of these effects. -/
theorem GatewayTurn.effect (turn : GatewayTurn P d m c d' c') : Effect P d c d' c' := by
  cases turn with
  | migrates kind next =>
    obtain ⟨before, after, rfl⟩ | ⟨legacy, rfl, rfl, rfl⟩ | ⟨rfl, rfl, rfl⟩ :=
      Migrating.next_cases next
    · refine .looked ?_ (clears_migrating kind before) (clears_migrating kind after)
      obtain rfl | rfl := kind <;> rfl
    · obtain rfl | rfl := kind <;> exact .imported rfl rfl rfl rfl
    · obtain rfl | rfl := kind <;> exact .erased rfl rfl rfl
  | saves next => exact Saving.next_effect next
  | unpairs next => exact Unpairing.next_effect next
  | checks kind _ => obtain rfl | rfl | rfl := kind <;> exact .looked rfl rfl rfl
  | works before after _ =>
    exact .looked rfl (clears_doWork before) (clears_doWork fun x same => absurd same (after x))

/-- A step is an arrival, a turn, a write of the file or the death of the process. -/
theorem gatewayStep_cases (h : gatewayStep P s a = some t) :
    (∃ r, a = .act (.arrive r) ∧ t = ⟨s.store, s.calls ++ [r.call]⟩) ∨
      (∃ i m c d' c', a = .act (.turn i m) ∧ s.calls[i]? = some c ∧
        c.next P s.store m = some (d', c') ∧ t = ⟨d', s.calls.set i c'⟩) ∨
      (∃ n, a = .write n ∧ t = ⟨s.store.written n, s.calls⟩) ∨
      (a = .die ∧ t = ⟨s.store.died, []⟩) := by
  cases a with
  | act a =>
    have h : s.step (gateway P) a = some t := h
    cases a with
    | arrive r =>
      obtain ⟨c, hc, rfl⟩ := Pool.step_arrive h
      cases hc
      exact .inl ⟨r, rfl, rfl⟩
    | turn i m =>
      obtain ⟨c, u, hc, ht, rfl⟩ := Pool.step_turn h
      obtain ⟨_, moved⟩ := Option.ite_none_left_eq_some.mp ht
      obtain ⟨⟨d', c'⟩, next, rfl⟩ := Option.map_eq_some_iff.mp moved
      refine .inr (.inl ⟨i, m, c, d', c', rfl, hc, next, ?_⟩)
      simp
  | write n => exact .inr (.inr (.inl ⟨n, rfl, (Option.some.inj h).symm⟩))
  | die => exact .inr (.inr (.inr ⟨rfl, (Option.some.inj h).symm⟩))

/-! ## The preferences -/

/-- All states of the preferences that may be found, now or by a later process. -/
def Phone.states (d : Phone) : List Prefs := d.prefs :: d.file :: d.unwritten

theorem mem_states_edit {e : Edit} {p : Prefs} (h : p ∈ (d.edit e).states) :
    p ∈ d.states ∨ p = e.apply d.prefs := by
  simp only [Phone.states, Phone.edit, List.mem_cons, List.mem_append, List.not_mem_nil,
    or_false] at h ⊢
  obtain rfl | rfl | old | rfl := h
  · exact .inr rfl
  · exact .inl (.inr (.inl rfl))
  · exact .inl (.inr (.inr old))
  · exact .inr rfl

theorem mem_states_written {n : Nat} {p : Prefs} (h : p ∈ (d.written n).states) :
    p ∈ d.states := by
  unfold Phone.written at h
  cases reached : d.unwritten[n]? with
  | none => simpa [reached] using h
  | some q =>
    simp only [reached, Phone.states, List.mem_cons] at h ⊢
    obtain rfl | rfl | later := h
    · exact .inl rfl
    · exact .inr (.inr (List.mem_of_getElem? reached))
    · exact .inr (.inr (List.mem_of_mem_drop later))

theorem mem_states_died {p : Prefs} (h : p ∈ d.died.states) : p ∈ d.states := by
  simp only [Phone.states, Phone.died, List.mem_cons, List.not_mem_nil, or_false, or_self] at h ⊢
  exact .inr (.inl h)

theorem written_keystore (n : Nat) : (d.written n).keystore = d.keystore := by
  unfold Phone.written
  cases d.unwritten[n]? <;> rfl

theorem written_prefs (n : Nat) : (d.written n).prefs = d.prefs := by
  unfold Phone.written
  cases d.unwritten[n]? <;> rfl

/-! ## Paired -/

/-- What `isPaired` answers if nothing changes meanwhile. -/
def Phone.isPaired (d : Phone) : Bool :=
  d.prefs.serverUrl.isSome && d.prefs.receiverId.isSome &&
    (d.keystore.isSome || d.prefs.signingKey.isSome)

/-- Paired in memory, in the file and in all that is still to be written to it. -/
structure Phone.Paired (d : Phone) : Prop where
  addressed : ∀ p ∈ d.states, p.serverUrl.isSome = true ∧ p.receiverId.isSome = true
  keyed : d.keystore.isSome = true ∨ ∀ p ∈ d.states, p.signingKey.isSome = true

namespace Phone.Paired

theorem of_states (paired : d.Paired) (states : ∀ p ∈ d'.states, p ∈ d.states)
    (key : d'.keystore = d.keystore) : d'.Paired where
  addressed p hp := paired.addressed p (states p hp)
  keyed := by
    rw [key]
    obtain key | legacy := paired.keyed
    · exact .inl key
    · exact .inr fun p hp => legacy p (states p hp)

theorem isPaired (paired : d.Paired) : d.isPaired = true := by
  have here : d.prefs ∈ d.states := List.mem_cons_self
  obtain ⟨url, receiver⟩ := paired.addressed _ here
  have key : (d.keystore.isSome || d.prefs.signingKey.isSome) = true := by
    obtain key | legacy := paired.keyed
    · simp [key]
    · simp [legacy _ here]
  simp [Phone.isPaired, url, receiver, key]

theorem died (paired : d.Paired) : d.died.Paired :=
  paired.of_states (fun _ => mem_states_died) rfl

theorem written (paired : d.Paired) (n : Nat) : (d.written n).Paired :=
  paired.of_states (fun _ => mem_states_written) (written_keystore n)

theorem setEntry (paired : d.Paired) (key : List UInt8) : (d.setEntry key).Paired where
  addressed := paired.addressed
  keyed := .inl rfl

/-- An edit that leaves the addresses, and the key where there is no other. -/
theorem edit {e : Edit} (paired : d.Paired)
    (addresses : (e.apply d.prefs).serverUrl.isSome = true ∧
      (e.apply d.prefs).receiverId.isSome = true)
    (key : d.keystore.isSome = true ∨ (e.apply d.prefs).signingKey = d.prefs.signingKey) :
    (d.edit e).Paired where
  addressed p hp := by
    obtain old | rfl := mem_states_edit hp
    · exact paired.addressed p old
    · exact addresses
  keyed := by
    obtain stored | legacy := paired.keyed
    · exact .inl stored
    · obtain stored | same := key
      · exact .inl stored
      · apply Or.inr
        intro p hp
        obtain old | rfl := mem_states_edit hp
        · exact legacy p old
        · rw [same]
          exact legacy _ List.mem_cons_self

end Phone.Paired

/-- It erases the legacy key only where there is another, and is not the listener of Unpair. -/
structure GatewayCall.Keeps (d : Phone) (c : GatewayCall) : Prop where
  held : c.isUnpair = false
  keyed : c.clears = true → d.keystore.isSome = true

/-- A turn keeps the pairing, and what the calls may assume. -/
theorem Effect.kept (effect : Effect P d c d' c') (paired : d.Paired) (keeps : c.Keeps d) :
    d'.Paired ∧ c'.Keeps d' ∧ ∀ o : GatewayCall, o.Keeps d → o.Keeps d' := by
  have here : d.prefs ∈ d.states := List.mem_cons_self
  obtain ⟨url, receiver⟩ := paired.addressed _ here
  cases effect with
  | looked same _ quiet =>
    refine ⟨paired, ⟨same.trans keeps.held, ?_⟩, fun _ => id⟩
    intro clears
    rw [quiet] at clears
    cases clears
  | imported _ other _ _ =>
    refine ⟨paired.setEntry _, ⟨other, fun _ => rfl⟩, ?_⟩
    intro o theirs
    exact ⟨theirs.held, fun _ => rfl⟩
  | erased clears other quiet =>
    refine ⟨paired.edit ⟨url, receiver⟩ (.inl (keeps.keyed clears)), ⟨other, ?_⟩, ?_⟩
    · intro clears
      rw [quiet] at clears
      cases clears
    · intro o theirs
      exact ⟨theirs.held, theirs.keyed⟩
  | addressed _ edit other _ quiet =>
    refine ⟨?_, ⟨other, ?_⟩, fun o theirs => ⟨theirs.held, theirs.keyed⟩⟩
    · obtain rfl | rfl := edit
      · exact paired.edit ⟨rfl, receiver⟩ (.inr rfl)
      · exact paired.edit ⟨url, rfl⟩ (.inr rfl)
    · intro clears
      rw [quiet] at clears
      cases clears
  | deleted same =>
    have held := keeps.held
    rw [same] at held
    cases held
  | unpaired same =>
    have held := keeps.held
    rw [same] at held
    cases held

/-- The invariant: the phone is paired, and no call takes that away. -/
structure Gateway.Kept (s : Gateway) : Prop where
  paired : s.store.Paired
  keeps : ∀ c ∈ s.calls, c.Keeps s.store

theorem call_keeps {r : GatewayRequest} (held : r ≠ .unpair) : r.call.Keeps d := by
  cases r with
  | unpair => exact absurd rfl held
  | save url rcv key =>
    show (GatewayCall.save url rcv key
      ((pairingError url rcv key).elim .serverUrl .refused)).Keeps d
    cases pairingError url rcv key with
    | none => exact ⟨rfl, fun clears => by cases clears⟩
    | some e => exact ⟨rfl, fun clears => by cases clears⟩
  | _ => exact ⟨rfl, fun clears => by cases clears⟩

/-- A step keeps it, unless someone presses Unpair. -/
theorem Gateway.Kept.step (kept : Gateway.Kept s) (held : a.isUnpair = false)
    (h : gatewayStep P s a = some t) : Gateway.Kept t := by
  obtain ⟨r, rfl, rfl⟩ | ⟨i, m, c, d', c', rfl, hc, next, rfl⟩ | ⟨n, rfl, rfl⟩ | ⟨rfl, rfl⟩ :=
    gatewayStep_cases h
  · refine ⟨kept.paired, ?_⟩
    intro c hc
    obtain old | new := List.mem_append.mp hc
    · exact kept.keeps c old
    · rw [List.mem_singleton.mp new]
      apply call_keeps
      rintro rfl
      cases held
  · have effect := (GatewayCall.next_turn next).effect
    obtain ⟨paired, own, theirs⟩ := effect.kept kept.paired (kept.keeps c (List.mem_of_getElem? hc))
    refine ⟨paired, ?_⟩
    intro o ho
    obtain old | rfl := List.mem_or_eq_of_mem_set ho
    · exact theirs o (kept.keeps o old)
    · exact own
  · refine ⟨kept.paired.written n, ?_⟩
    intro c hc
    obtain ⟨held, keyed⟩ := kept.keeps c hc
    refine ⟨held, ?_⟩
    intro clears
    rw [written_keystore]
    exact keyed clears
  · refine ⟨kept.paired.died, ?_⟩
    intro c hc
    cases hc

/-! ## What a check sees -/

/-- It looked for a key in the keystore, where there was none. -/
def LookedInVain (log : List (Gateway × GatewayAct)) (i : Nat) : Prop :=
  ∃ earlier q later, log = earlier ++ (q, .act (.turn i .proceed)) :: later ∧
    (∀ e ∈ later, e.2 ≠ .die) ∧
    (∃ c, q.calls[i]? = some c ∧ c.check? = some .hasKey) ∧ q.store.keystore = none

/-- After that it looked for the legacy key, which had been moved to the keystore. -/
def Missed (log : List (Gateway × GatewayAct)) (i : Nat) : Prop :=
  ∃ earlier q later, log = earlier ++ (q, .act (.turn i .proceed)) :: later ∧
    (∀ e ∈ later, e.2 ≠ .die) ∧ LookedInVain earlier i ∧
    (∃ c, q.calls[i]? = some c ∧ c.check? = some .legacySigningKey) ∧
    q.store.keystore.isSome = true ∧ q.store.prefs.signingKey = none

/-- What is behind the stage of a check. -/
def GatewayCall.Told (log : List (Gateway × GatewayAct)) (i : Nat) (c : GatewayCall) : Prop :=
  (c.check? = some .legacySigningKey → LookedInVain log i) ∧
    (c.check? = some (.answered false) → Missed log i)

theorem LookedInVain.mono (looked : LookedInVain log i) {q : Gateway} (alive : a ≠ .die) :
    LookedInVain (log ++ [(q, a)]) i := by
  obtain ⟨earlier, p, later, rfl, living, seen⟩ := looked
  refine ⟨earlier, p, later ++ [(q, a)], by simp, ?_, seen⟩
  exact List.forall_mem_append.mpr ⟨living, List.forall_mem_singleton.mpr alive⟩

theorem Missed.mono (missed : Missed log i) {q : Gateway} (alive : a ≠ .die) :
    Missed (log ++ [(q, a)]) i := by
  obtain ⟨earlier, p, later, rfl, living, seen⟩ := missed
  refine ⟨earlier, p, later ++ [(q, a)], by simp, ?_, seen⟩
  exact List.forall_mem_append.mpr ⟨living, List.forall_mem_singleton.mpr alive⟩

theorem GatewayCall.Told.mono (told : c.Told log i) {q : Gateway} (alive : a ≠ .die) :
    c.Told (log ++ [(q, a)]) i :=
  ⟨fun stage => (told.1 stage).mono alive, fun stage => (told.2 stage).mono alive⟩

/-- A turn of a call that comes to a stage of `isPaired` goes on from one, or has just begun. -/
theorem GatewayTurn.check {stage' : Checking} (turn : GatewayTurn P d m c d' c')
    (at' : c'.check? = some stage') : stage' = .serverUrl ∨
      ∃ stage, c.check? = some stage ∧ stage.next d m = some stage' := by
  cases turn with
  | migrates kind _ => obtain rfl | rfl := kind <;> cases at'
  | saves _ => cases at'
  | unpairs _ => cases at'
  | @checks of stage x kind next =>
    obtain rfl | rfl | rfl := kind
    all_goals
      cases at'
      exact .inr ⟨stage, rfl, next⟩
  | @works stage x _ _ begun =>
    cases x with
    | checking y =>
      cases at'
      exact .inl (begun _ rfl)
    | _ => cases at'

/-- Of a paired phone, only a look in vain at the keystore comes to the second look, and only a
second look in vain comes to the answer that it is not paired. -/
theorem Checking.next_cases {stage stage' : Checking} (paired : d.Paired)
    (h : stage.next d m = some stage') :
    (stage' = .legacySigningKey → stage = .hasKey ∧ m = .proceed ∧ d.keystore = none) ∧
      (stage' = .answered false → stage = .legacySigningKey ∧ m = .proceed ∧
        d.keystore.isSome = true ∧ d.prefs.signingKey = none) := by
  have here : d.prefs ∈ d.states := List.mem_cons_self
  obtain ⟨url, receiver⟩ := paired.addressed _ here
  cases m with
  | proceed =>
    cases stage with
    | serverUrl =>
      cases h
      rw [if_pos url]
      exact ⟨by simp, by simp⟩
    | receiverId =>
      cases h
      rw [if_pos receiver]
      exact ⟨by simp, by simp⟩
    | hasKey =>
      cases h
      by_cases key : d.keystore.isSome = true
      · rw [if_pos key]
        exact ⟨by simp, by simp⟩
      · rw [if_neg key]
        refine ⟨fun _ => ⟨rfl, rfl, by simpa using key⟩, by simp⟩
    | legacySigningKey =>
      cases h
      refine ⟨by simp, ?_⟩
      intro answer
      have absent : d.prefs.signingKey = none := by
        simpa using Checking.answered.inj answer
      refine ⟨rfl, rfl, ?_, absent⟩
      obtain key | legacy := paired.keyed
      · exact key
      · have kept := legacy _ here
        rw [absent] at kept
        cases kept
    | answered paired => cases h
  | _ => cases stage <;> cases h

/-- A call that has just come has not begun its check, if it makes one. -/
theorem call_check {r : GatewayRequest} {stage : Checking} (at' : r.call.check? = some stage) :
    stage = .serverUrl := by
  cases r with
  | refresh | onReceive =>
    cases at'
    rfl
  | _ => cases at'

theorem call_told {r : GatewayRequest} : r.call.Told log i := by
  constructor
  · intro stage
    cases call_check stage
  · intro stage
    cases call_check stage

/-- What the stages of the checks tell, a step keeps. -/
theorem told_step (kept : Gateway.Kept s)
    (told : ∀ (i : Nat) (c : GatewayCall), s.calls[i]? = some c → c.Told log i)
    (h : gatewayStep P s a = some t) :
    ∀ (i : Nat) (c : GatewayCall), t.calls[i]? = some c → c.Told (log ++ [(s, a)]) i := by
  intro j o hj
  obtain ⟨r, rfl, rfl⟩ | ⟨i, m, c, d', c', rfl, hc, next, rfl⟩ | ⟨n, rfl, rfl⟩ | ⟨rfl, rfl⟩ :=
    gatewayStep_cases h
  · rcases Nat.lt_or_ge j s.calls.length with inside | outside
    · rw [List.getElem?_append_left inside] at hj
      exact (told j o hj).mono (by simp)
    · rw [List.getElem?_append_right outside] at hj
      rw [List.mem_singleton.mp (List.mem_of_getElem? hj)]
      exact call_told
  · by_cases same : i = j
    · subst same
      have bound : i < s.calls.length := (List.getElem?_eq_some_iff.mp hc).1
      have own : c' = o := by simpa [bound] using hj
      subst own
      constructor
      · intro stage
        obtain first | ⟨before, at', looked⟩ := (GatewayCall.next_turn next).check stage
        · cases first
        · obtain ⟨rfl, rfl, vain⟩ := (Checking.next_cases kept.paired looked).1 rfl
          exact ⟨log, s, [], rfl, by simp, ⟨c, hc, at'⟩, vain⟩
      · intro stage
        obtain first | ⟨before, at', looked⟩ := (GatewayCall.next_turn next).check stage
        · cases first
        · obtain ⟨rfl, rfl, moved⟩ := (Checking.next_cases kept.paired looked).2 rfl
          exact ⟨log, s, [], rfl, by simp, (told i c hc).1 at', ⟨c, hc, at'⟩, moved⟩
    · rw [List.getElem?_set_ne same] at hj
      exact (told j o hj).mono (by simp)
  · exact (told j o hj).mono (by simp)
  · cases hj

theorem kept_run (run : Run (gatewayStep P) s log t) (kept : Gateway.Kept s) (idle : s.calls = [])
    (held : ∀ e ∈ log, e.2.isUnpair = false) : Gateway.Kept t ∧
      ∀ (i : Nat) (c : GatewayCall), t.calls[i]? = some c → c.Told log i := by
  induction run with
  | start =>
    refine ⟨kept, ?_⟩
    intro i c hc
    rw [idle] at hc
    cases hc
  | @next log q u a _ hs ih =>
    obtain ⟨before, told⟩ := ih fun e he => held e (List.mem_append_left _ he)
    have pressed := held (q, a) (List.mem_append_right _ (List.mem_singleton_self _))
    exact ⟨before.step pressed hs, told_step before told hs⟩

/-- A gateway that is paired stays so until someone presses Unpair: in memory, and for the process
after the next one's death, through migrations and new pairings on any threads. Whoever asks is told
so, but for one that looked into the keystore before a key was moved there and at the preferences
after it had been erased from them. -/
theorem pairing_kept (run : Run (gatewayStep P) s log t) (paired : s.store.Paired)
    (idle : s.calls = []) (held : ∀ e ∈ log, e.2.isUnpair = false) :
    (t.store.isPaired = true ∧ t.store.died.isPaired = true) ∧
      ∀ (i : Nat) (c : GatewayCall), t.calls[i]? = some c →
        c.check? = some (.answered false) → Missed log i := by
  have kept : Gateway.Kept s := by
    refine ⟨paired, ?_⟩
    intro c hc
    rw [idle] at hc
    cases hc
  obtain ⟨after, told⟩ := kept_run run kept idle held
  refine ⟨⟨after.paired.isPaired, after.paired.died.isPaired⟩, ?_⟩
  intro i c hc answered
  exact (told i c hc).2 answered

namespace PairingScript

def legacy : Text := text "0123456789abcdef0123456789abcdef"

/-- An installation from before the keystore. -/
def prefs : Prefs where
  serverUrl := some (text "https://otp.example")
  receiverId := some (text "rcv_1")
  signingKey := some legacy

def upgraded : Gateway := ⟨⟨prefs, prefs, [], none⟩, []⟩

def proceed (i : Nat) : GatewayAct := .act (.turn i .proceed)

/-- The receiver looks into the keystore, the worker migrates, and the receiver looks at the
preferences. -/
def acts : List GatewayAct :=
  [.act (.arrive .onReceive), .act (.arrive .doWork), proceed 0, proceed 0, proceed 0, proceed 1,
    proceed 1, proceed 1, proceed 1, proceed 0]

theorem paired : upgraded.store.Paired where
  addressed := by decide +kernel
  keyed := .inr (by decide +kernel)

theorem shown : ∃ log t, Run (gatewayStep QueueScript.primitives) upgraded log t ∧
    (t.calls[0]? = some (.onReceive (.answered false)) ∧ ∀ e ∈ log, e.2.isUnpair = false) :=
  @run_of_exec_any _ _ _ acts _ _ _ (by decide +kernel)

end PairingScript

/-- A message that comes during the migration may be dropped, though the gateway is paired all the
time. -/
theorem pairing_kept_script : ∃ log t,
    Run (gatewayStep QueueScript.primitives) PairingScript.upgraded log t ∧
      t.calls[0]? = some (.onReceive (.answered false)) ∧ t.store.isPaired = true ∧
      Missed log 0 := by
  obtain ⟨log, t, run, dropped, held⟩ := PairingScript.shown
  obtain ⟨⟨paired, _⟩, told⟩ := pairing_kept run PairingScript.paired rfl held
  exact ⟨log, t, run, dropped, paired, told 0 _ dropped rfl⟩

end Syrotp.Android
