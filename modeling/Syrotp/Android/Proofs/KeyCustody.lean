import Syrotp.Android.Proofs.Pairing

/-!
# Custody of the signing key

Which key the keystore holds, and what becomes of the legacy key in the preferences.
-/

namespace Syrotp.Android

variable {P : Primitives} {d d' : Phone} {c c' : GatewayCall} {m : GatewayMove}
  {s t : Gateway} {a : GatewayAct} {log : List (Gateway × GatewayAct)}

/-! ## The buttons -/

/-- What a step makes of the key if only the buttons count: Save imports the key that was typed, and
Unpair deletes it. -/
def pressed (P : Primitives) (key : Option (List UInt8)) (e : Gateway × GatewayAct) :
    Option (List UInt8) :=
  match e.2 with
  | .act (.turn i .proceed) =>
    match e.1.calls[i]? with
    | some (.save _ _ typed .importKey) => some (importKey P typed)
    | some (.unpair .delete) => none
    | _ => key
  | _ => key

/-- What a call's turn makes of it. -/
def GatewayCall.pressed (P : Primitives) (key : Option (List UInt8)) :
    GatewayCall → GatewayMove → Option (List UInt8)
  | .save _ _ typed .importKey, .proceed => some (importKey P typed)
  | .unpair .delete, .proceed => none
  | _, _ => key

/-- The stage of its migration. -/
def GatewayCall.migration? : GatewayCall → Option Migrating
  | .onCreate stage | .doWork (.migrating stage) => some stage
  | _ => none

/-- A migration that has the legacy key, and is about to import it. -/
def GatewayCall.carries (c : GatewayCall) : Bool :=
  match c.migration? with
  | some (.importKey _) => true
  | _ => false

/-- A migration that found no key in the keystore, and is about to look for the legacy key. -/
def GatewayCall.seeks (c : GatewayCall) : Bool := c.migration? = some .legacySigningKey

/-- There is no legacy key, in no state of the preferences. -/
def Phone.LegacyGone (d : Phone) : Prop := ∀ p ∈ d.states, p.signingKey = none

/-- No migration has the legacy key, and none will take it: it is gone, or the keystore has a key
and no migration has looked before. -/
structure Gateway.Quiet (s : Gateway) : Prop where
  carried : ∀ c ∈ s.calls, c.carries = false
  taken : s.store.LegacyGone ∨
    s.store.keystore.isSome = true ∧ ∀ c ∈ s.calls, c.seeks = false

/-- Where a turn leaves a migration. -/
theorem Migrating.next_stage {stage stage' : Migrating} (h : stage.next P d m = some (d', stage')) :
    (∀ legacy, stage' = .importKey legacy → stage = .legacySigningKey ∧
      d.prefs.signingKey = some legacy) ∧
      (stage' = .legacySigningKey → d.keystore = none) := by
  cases m with
  | proceed =>
    cases stage with
    | hasKey =>
      cases h
      by_cases key : d.keystore.isSome = true
      · simp [key]
      · have absent : d.keystore = none := by simpa using key
        simp [absent]
    | legacySigningKey =>
      cases h
      cases legacy : d.prefs.signingKey with
      | none => simp
      | some legacy => simp
    | importKey legacy =>
      cases h
      simp
    | clearLegacySigningKey =>
      cases h
      simp
    | done => cases h
  | throws =>
    cases stage with
    | importKey legacy =>
      cases h
      simp
    | _ => cases h
  | _ => cases stage <;> cases h

/-- A turn of a call that comes to a stage of the migration goes on from one. -/
theorem GatewayTurn.migration {stage' : Migrating} (turn : GatewayTurn P d m c d' c')
    (at' : c'.migration? = some stage') :
    ∃ stage, c.migration? = some stage ∧ stage.next P d m = some (d', stage') := by
  cases turn with
  | @migrates of stage x _ kind next =>
    obtain rfl | rfl := kind
    all_goals
      cases at'
      exact ⟨stage, rfl, next⟩
  | saves _ => cases at'
  | unpairs _ => cases at'
  | checks kind _ => obtain rfl | rfl | rfl := kind <;> cases at'
  | @works stage x _ other _ =>
    cases x with
    | migrating y => exact absurd rfl (other y)
    | _ => cases at'

/-- A call that has the legacy key has just sought and found it. -/
theorem GatewayTurn.carries (turn : GatewayTurn P d m c d' c') (heavy : c'.carries = true) :
    c.seeks = true ∧ ∃ legacy, d.prefs.signingKey = some legacy := by
  obtain ⟨legacy, at'⟩ : ∃ legacy, c'.migration? = some (.importKey legacy) := by
    unfold GatewayCall.carries at heavy
    split at heavy
    · exact ⟨_, ‹_›⟩
    · cases heavy
  obtain ⟨stage, before, moved⟩ := turn.migration at'
  obtain ⟨rfl, read⟩ := (Migrating.next_stage moved).1 legacy rfl
  exact ⟨decide_eq_true before, legacy, read⟩

/-- One that seeks it has just found no key in the keystore. -/
theorem GatewayTurn.seeks (turn : GatewayTurn P d m c d' c') (sought : c'.seeks = true) :
    d.keystore = none := by
  obtain ⟨stage, _, moved⟩ := turn.migration (of_decide_eq_true sought)
  exact (Migrating.next_stage moved).2 rfl

/-- A step of a button is what its listener's turn is. -/
theorem pressed_turn {key : Option (List UInt8)} {i : Nat} (hc : s.calls[i]? = some c) :
    c.pressed P key m = pressed P key (s, .act (.turn i m)) := by
  cases m with
  | proceed =>
    simp only [pressed, hc]
    cases c with
    | save url rcv key stage => cases stage <;> rfl
    | unpair stage => cases stage <;> rfl
    | _ => rfl
  | _ =>
    cases c with
    | save url rcv key stage => cases stage <;> rfl
    | unpair stage => cases stage <;> rfl
    | _ => rfl

/-- Without a migration that carries the legacy key, the keystore is what the buttons make of it. -/
theorem GatewayTurn.keystore (turn : GatewayTurn P d m c d' c') (light : c.carries = false) :
    d'.keystore = c.pressed P d.keystore m := by
  cases turn with
  | migrates kind next =>
    obtain ⟨_, _, rfl⟩ | ⟨legacy, rfl, _⟩ | ⟨_, rfl, _⟩ := Migrating.next_cases next
    · obtain rfl | rfl := kind <;> rfl
    · obtain rfl | rfl := kind <;> cases light
    · obtain rfl | rfl := kind <;> rfl
  | @saves url rcv key stage x _ next =>
    cases stage with
    | saved => cases m <;> cases next
    | refused e => cases m <;> cases next
    | _ =>
      cases m with
      | proceed =>
        cases next
        rfl
      | throws => cases next <;> rfl
      | _ => cases next
  | @unpairs stage x _ next =>
    cases stage with
    | unpaired => cases m <;> cases next
    | _ =>
      cases m with
      | proceed =>
        cases next
        rfl
      | _ => cases next
  | checks kind _ => obtain rfl | rfl | rfl := kind <;> rfl
  | works _ _ _ => rfl

/-- No turn brings a legacy key back. -/
theorem Effect.legacyGone (effect : Effect P d c d' c') (gone : d.LegacyGone) :
    d'.LegacyGone := by
  have edited : ∀ {e : Edit}, (e.apply d.prefs).signingKey = none → (d.edit e).LegacyGone := by
    intro e none p hp
    obtain old | rfl := mem_states_edit hp
    · exact gone p old
    · exact none
  cases effect with
  | looked _ _ _ => exact gone
  | imported _ _ _ _ => exact gone
  | erased _ _ _ => exact edited rfl
  | addressed _ edit _ _ _ =>
    have here : d.prefs.signingKey = none := gone _ List.mem_cons_self
    obtain rfl | rfl := edit
    · exact edited here
    · exact edited here
  | deleted _ => exact gone
  | unpaired _ => exact edited rfl

theorem pressed_isSome {key : Option (List UInt8)} (some : key.isSome = true)
    (held : c ≠ .unpair .delete ∨ m ≠ .proceed) : (c.pressed P key m).isSome = true := by
  unfold GatewayCall.pressed
  split
  · rfl
  · obtain other | other := held
    · exact absurd rfl other
    · exact absurd rfl other
  · exact some

/-- The step is the one that deletes the key. -/
def deletes (e : Gateway × GatewayAct) : Prop :=
  ∃ i, e.2 = .act (.turn i .proceed) ∧ e.1.calls[i]? = some (.unpair .delete)

theorem call_light (r : GatewayRequest) : r.call.carries = false ∧ r.call.seeks = false := by
  cases r <;> exact ⟨rfl, rfl⟩

/-- One step: quiet it stays, and the keystore is what the buttons make of it. -/
theorem Gateway.Quiet.step (quiet : Gateway.Quiet s)
    (erased : deletes (s, a) → s.store.LegacyGone) (h : gatewayStep P s a = some t) :
    Gateway.Quiet t ∧ t.store.keystore = pressed P s.store.keystore (s, a) := by
  obtain ⟨r, rfl, rfl⟩ | ⟨i, m, c, d', c', rfl, hc, next, rfl⟩ | ⟨n, rfl, rfl⟩ | ⟨rfl, rfl⟩ :=
    gatewayStep_cases h
  · refine ⟨⟨?_, ?_⟩, rfl⟩
    · intro c hc
      obtain old | new := List.mem_append.mp hc
      · exact quiet.carried c old
      · rw [List.mem_singleton.mp new]
        exact (call_light r).1
    · obtain gone | ⟨stored, unsought⟩ := quiet.taken
      · exact .inl gone
      · refine .inr ⟨stored, ?_⟩
        intro c hc
        obtain old | new := List.mem_append.mp hc
        · exact unsought c old
        · rw [List.mem_singleton.mp new]
          exact (call_light r).2
  · have turn := GatewayCall.next_turn next
    have mem := List.mem_of_getElem? hc
    have stored := turn.keystore (quiet.carried c mem)
    refine ⟨⟨?_, ?_⟩, stored.trans (pressed_turn hc)⟩
    · intro o ho
      obtain old | rfl := List.mem_or_eq_of_mem_set ho
      · exact quiet.carried o old
      · -- It would have read the legacy key, of which there is none or which it did not seek.
        by_contra heavy
        rw [Bool.not_eq_false] at heavy
        obtain ⟨sought, legacy, read⟩ := turn.carries heavy
        obtain gone | ⟨_, unsought⟩ := quiet.taken
        · rw [gone _ List.mem_cons_self] at read
          cases read
        · rw [unsought c mem] at sought
          cases sought
    · obtain gone | ⟨key, unsought⟩ := quiet.taken
      · exact .inl (turn.effect.legacyGone gone)
      · by_cases delete : c = .unpair .delete ∧ m = .proceed
        · obtain ⟨rfl, rfl⟩ := delete
          exact .inl (turn.effect.legacyGone (erased ⟨i, rfl, hc⟩))
        · refine .inr ⟨?_, ?_⟩
          · show d'.keystore.isSome = true
            rw [stored]
            apply pressed_isSome key
            by_cases same : c = .unpair .delete
            · exact .inr fun proceed => delete ⟨same, proceed⟩
            · exact .inl same
          · intro o ho
            obtain old | rfl := List.mem_or_eq_of_mem_set ho
            · exact unsought o old
            · by_contra sought
              rw [Bool.not_eq_false] at sought
              rw [turn.seeks sought] at key
              cases key
  · refine ⟨⟨quiet.carried, ?_⟩, written_keystore n⟩
    obtain gone | ⟨key, unsought⟩ := quiet.taken
    · exact .inl fun p hp => gone p (mem_states_written hp)
    · refine .inr ⟨?_, unsought⟩
      rw [written_keystore]
      exact key
  · have nobody : ∀ c ∈ ([] : List GatewayCall), c.carries = false ∧ c.seeks = false := by simp
    refine ⟨⟨fun c hc => (nobody c hc).1, ?_⟩, rfl⟩
    obtain gone | ⟨key, _⟩ := quiet.taken
    · exact .inl fun p hp => gone p (mem_states_died hp)
    · exact .inr ⟨key, fun c hc => (nobody c hc).2⟩

/-- Once no migration has the legacy key in hand or in reach, the keystore follows the two buttons:
it holds the key that was imported by the last Save, or none after an Unpair, whatever the workers
do at once, whenever the file is written and the process dies. -/
theorem keystore_follows_buttons (run : Run (gatewayStep P) s log t) (quiet : Gateway.Quiet s)
    (erased : ∀ e ∈ log, deletes e → e.1.store.LegacyGone) :
    t.store.keystore = log.foldl (pressed P) s.store.keystore := by
  suffices both : Gateway.Quiet t ∧ t.store.keystore = log.foldl (pressed P) s.store.keystore from
    both.2
  induction run with
  | start => exact ⟨quiet, rfl⟩
  | @next log q u a _ hs ih =>
    obtain ⟨before, same⟩ := ih fun e he => erased e (List.mem_append_left _ he)
    have last := erased (q, a) (List.mem_append_right _ (List.mem_singleton_self _))
    obtain ⟨after, now⟩ := before.step last hs
    refine ⟨after, ?_⟩
    rw [List.foldl_append, ← same]
    exact now

namespace PairingScript

def unpairedPhone : Gateway := ⟨⟨⟨none, none, none⟩, ⟨none, none, none⟩, [], none⟩, []⟩

def typedKey : Text := text "fedcba9876543210fedcba9876543210"

def save : GatewayRequest := .save (text "https://otp.example") (text "rcv_1") typedKey

/-- A worker looks at the preferences while the listener of Save writes them. -/
def saving : List GatewayAct :=
  [.act (.arrive .doWork), .act (.arrive save), proceed 0, proceed 1, proceed 1, proceed 0,
    proceed 1, .write 0, proceed 1, .die]

theorem saved : ∃ log t, Run (gatewayStep QueueScript.primitives) unpairedPhone log t ∧
    (t.store.keystore = some (importKey QueueScript.primitives typedKey) ∧
      ∀ e ∈ log, ∀ p ∈ e.1.store.states, p.signingKey = none) :=
  @run_of_exec_any _ _ _ saving _ _ _ (by decide +kernel)

theorem quiet : Gateway.Quiet unpairedPhone where
  carried := by simp [unpairedPhone]
  taken := by
    apply Or.inl
    show ∀ p ∈ unpairedPhone.store.states, p.signingKey = none
    decide

end PairingScript

theorem keystore_follows_buttons_script : ∃ log t,
    Run (gatewayStep QueueScript.primitives) PairingScript.unpairedPhone log t ∧
      log.foldl (pressed QueueScript.primitives) none =
        some (importKey QueueScript.primitives PairingScript.typedKey) := by
  obtain ⟨log, t, run, stored, gone⟩ := PairingScript.saved
  have follows := keystore_follows_buttons run PairingScript.quiet fun e he _ => gone e he
  exact ⟨log, t, run, follows.symm.trans stored⟩

/-! ## The legacy key -/

/-- There is no legacy key beside a key in the keystore, but where a call is about to erase it. -/
def Gateway.Erasing (s : Gateway) : Prop :=
  s.store.keystore.isSome = true → s.store.prefs.signingKey = none ∨
    ∃ (i : Nat) (c : GatewayCall), s.calls[i]? = some c ∧ c.clears = true

/-- A step keeps it, while the process lives. -/
theorem Gateway.Erasing.step (erasing : Gateway.Erasing s) (alive : a ≠ .die)
    (h : gatewayStep P s a = some t) : Gateway.Erasing t := by
  intro key
  obtain ⟨r, rfl, rfl⟩ | ⟨i, m, c, d', c', rfl, hc, next, rfl⟩ | ⟨n, rfl, rfl⟩ | ⟨rfl, rfl⟩ :=
    gatewayStep_cases h
  · obtain gone | ⟨j, o, ho, clears⟩ := erasing key
    · exact .inl gone
    · have bound : j < s.calls.length := (List.getElem?_eq_some_iff.mp ho).1
      exact .inr ⟨j, o, (List.getElem?_append_left bound).trans ho, clears⟩
  · have bound : i < s.calls.length := (List.getElem?_eq_some_iff.mp hc).1
    -- Another call's turn leaves a call that is about to erase the key where it is.
    have others : c.clears = false → ∀ (j : Nat) (o : GatewayCall), s.calls[j]? = some o →
        o.clears = true → (s.calls.set i c')[j]? = some o := by
      intro other j o ho clears
      have ne : i ≠ j := by
        rintro rfl
        rw [Option.some.inj (hc.symm.trans ho), clears] at other
        cases other
      rw [List.getElem?_set_ne ne]
      exact ho
    have kept : s.store.keystore.isSome = true → c.clears = false →
        d'.prefs.signingKey = s.store.prefs.signingKey → d'.prefs.signingKey = none ∨
          ∃ (j : Nat) (o : GatewayCall), (s.calls.set i c')[j]? = some o ∧ o.clears = true := by
      intro stored other same
      obtain gone | ⟨j, o, ho, clears⟩ := erasing stored
      · exact .inl (same.trans gone)
      · exact .inr ⟨j, o, others other j o ho clears, clears⟩
    cases (GatewayCall.next_turn next).effect with
    | looked _ other _ => exact kept key other rfl
    | imported _ _ _ clears => exact .inr ⟨i, c', by simp [bound], clears⟩
    | erased _ _ _ => exact .inl rfl
    | addressed _ edit _ other _ =>
      obtain rfl | rfl := edit
      · exact kept key other rfl
      · exact kept key other rfl
    | deleted _ => cases key
    | unpaired _ => exact .inl rfl
  · have key : (s.store.written n).keystore.isSome = true := key
    rw [written_keystore] at key
    show (s.store.written n).prefs.signingKey = none ∨ _
    rw [written_prefs]
    exact erasing key
  · exact absurd rfl alive

/-- A call that has not begun to migrate, or is through, and is of neither button. -/
def GatewayCall.isInert : GatewayCall → Bool
  | .onCreate stage | .doWork (.migrating stage) => stage = .hasKey || stage = .done
  | .save _ _ _ _ | .unpair _ => false
  | _ => true

def GatewayAct.isDeath : GatewayAct → Bool
  | .die => true
  | _ => false

/-- A button is pressed. -/
def GatewayAct.isPress : GatewayAct → Bool
  | .act (.arrive (.save _ _ _)) | .act (.arrive .unpair) => true
  | _ => false

/-- Beside a key in the keystore, such a call changes nothing. -/
theorem GatewayTurn.inert (turn : GatewayTurn P d m c d' c') (key : d.keystore.isSome = true)
    (inert : c.isInert = true) : d' = d ∧ c'.isInert = true := by
  cases turn with
  | @migrates of stage x _ kind next =>
    have waiting : stage = .hasKey ∨ stage = .done := by
      obtain rfl | rfl := kind
      all_goals simpa [GatewayCall.isInert] using inert
    obtain rfl | rfl := waiting
    · cases m with
      | proceed =>
        cases next
        rw [if_pos key]
        obtain rfl | rfl := kind <;> exact ⟨rfl, rfl⟩
      | _ => cases next
    · cases m <;> cases next
  | saves _ => cases inert
  | unpairs _ => cases inert
  | checks kind _ => obtain rfl | rfl | rfl := kind <;> exact ⟨rfl, rfl⟩
  | @works stage x _ other _ =>
    refine ⟨rfl, ?_⟩
    cases x with
    | migrating y => exact absurd rfl (other y)
    | _ => rfl

/-- The key is in the keystore and the legacy key is everywhere still, and nothing is going on that
would change it. -/
structure Gateway.Stranded (key : List UInt8) (legacy : Text) (s : Gateway) : Prop where
  stored : s.store.keystore = some key
  everywhere : ∀ p ∈ s.store.states, p.signingKey = some legacy
  inert : ∀ c ∈ s.calls, c.isInert = true

theorem call_inert {r : GatewayRequest} (other : (GatewayAct.act (.arrive r)).isPress = false) :
    r.call.isInert = true := by
  cases r with
  | save url rcv key => cases other
  | unpair => cases other
  | _ => rfl

theorem Gateway.Stranded.step {key : List UInt8} {legacy : Text}
    (stranded : Gateway.Stranded key legacy s) (other : a.isPress = false)
    (h : gatewayStep P s a = some t) : Gateway.Stranded key legacy t := by
  obtain ⟨r, rfl, rfl⟩ | ⟨i, m, c, d', c', rfl, hc, next, rfl⟩ | ⟨n, rfl, rfl⟩ | ⟨rfl, rfl⟩ :=
    gatewayStep_cases h
  · refine ⟨stranded.stored, stranded.everywhere, ?_⟩
    intro c hc
    obtain old | new := List.mem_append.mp hc
    · exact stranded.inert c old
    · rw [List.mem_singleton.mp new]
      exact call_inert other
  · have some : s.store.keystore.isSome = true := by rw [stranded.stored]; rfl
    obtain ⟨rfl, inert⟩ := (GatewayCall.next_turn next).inert some
      (stranded.inert c (List.mem_of_getElem? hc))
    refine ⟨stranded.stored, stranded.everywhere, ?_⟩
    intro o ho
    obtain old | rfl := List.mem_or_eq_of_mem_set ho
    · exact stranded.inert o old
    · exact inert
  · refine ⟨?_, fun p hp => stranded.everywhere p (mem_states_written hp), stranded.inert⟩
    exact (written_keystore n).trans stranded.stored
  · refine ⟨stranded.stored, fun p hp => stranded.everywhere p (mem_states_died hp), ?_⟩
    intro c hc
    cases hc

/-- A legacy key is gone from the preferences as soon as there is a key in the keystore and no call
is about to erase it, in every run in which the process lives on. But where it dies with a key
imported and the file not yet rewritten, no migration of any later process looks at the legacy key
again: it stays in the file until a button is pressed. -/
theorem legacy_key_ends (P : Primitives) :
    (∀ s log t, Run (gatewayStep P) s log t → s.store.keystore = none →
      (∀ e ∈ log, e.2 ≠ .die) → t.store.keystore.isSome = true →
        (∀ c ∈ t.calls, c.clears = false) → t.store.prefs.signingKey = none) ∧
    ∀ s key legacy u, s.store.keystore = some key → s.store.file.signingKey = some legacy →
      gatewayStep P s .die = some u → ∀ log t, Run (gatewayStep P) u log t →
        (∀ e ∈ log, e.2.isPress = false) → t.store.keystore = some key ∧
          t.store.prefs.signingKey = some legacy ∧ t.store.file.signingKey = some legacy := by
  constructor
  · intro s log t run fresh alive stored done
    have erasing : Gateway.Erasing t := by
      refine run.invariant_of Gateway.Erasing (fun _ a => a ≠ .die) ?_ ?_ alive
      · intro key
        rw [fresh] at key
        cases key
      · intro q a v before living hs
        exact before.step living hs
    obtain gone | ⟨i, c, hc, clears⟩ := erasing stored
    · exact gone
    · rw [done c (List.mem_of_getElem? hc)] at clears
      cases clears
  · intro s key legacy u stored there died log t run released
    cases died
    have stranded : Gateway.Stranded key legacy t := by
      refine run.invariant_of (Gateway.Stranded key legacy) (fun _ a => a.isPress = false)
        ⟨stored, ?_, ?_⟩ ?_ released
      · intro p hp
        have same : p = s.store.file := by simpa [Phone.states, Phone.died] using hp
        rw [same]
        exact there
      · intro c hc
        cases hc
      · intro q a v before other hs
        exact before.step other hs
    exact ⟨stranded.stored, stranded.everywhere _ List.mem_cons_self,
      stranded.everywhere _ (List.mem_cons_of_mem _ List.mem_cons_self)⟩

namespace PairingScript

/-- A worker migrates. -/
def migrating : List GatewayAct :=
  [.act (.arrive .doWork), proceed 0, proceed 0, proceed 0, proceed 0]

theorem migrated : ∃ log t, Run (gatewayStep QueueScript.primitives) upgraded log t ∧
    ((∀ e ∈ log, e.2.isDeath = false) ∧ t.store.keystore.isSome = true ∧
      ∀ c ∈ t.calls, c.clears = false) :=
  @run_of_exec_any _ _ _ migrating _ _ _ (by decide +kernel)

/-- The key is in the keystore, and the legacy key not yet erased. -/
def torn : Gateway :=
  ⟨⟨prefs, prefs, [], some (importKey QueueScript.primitives legacy)⟩,
    [.doWork (.migrating .clearLegacySigningKey)]⟩

def restarted : Gateway := ⟨torn.store.died, []⟩

/-- Another worker, of the next process. -/
theorem migratedAgain : ∃ log t, Run (gatewayStep QueueScript.primitives) restarted log t ∧
    (t.calls[0]? = some (.doWork (.migrating .done)) ∧ ∀ e ∈ log, e.2.isPress = false) :=
  @run_of_exec_any _ _ _ [.act (.arrive .doWork), proceed 0, .write 0] _ _ _ (by decide +kernel)

end PairingScript

theorem legacy_key_ends_script :
    (∃ log t, Run (gatewayStep QueueScript.primitives) PairingScript.upgraded log t ∧
      t.store.prefs.signingKey = none) ∧
    ∃ log t, Run (gatewayStep QueueScript.primitives) PairingScript.restarted log t ∧
      t.calls[0]? = some (.doWork (.migrating .done)) ∧
      t.store.file.signingKey = some PairingScript.legacy := by
  obtain ⟨erased, stays⟩ := legacy_key_ends QueueScript.primitives
  constructor
  · obtain ⟨log, t, run, living, stored, done⟩ := PairingScript.migrated
    refine ⟨log, t, run, erased _ log t run rfl ?_ stored done⟩
    intro e he same
    have alive := living e he
    rw [same] at alive
    cases alive
  · obtain ⟨log, t, run, through, released⟩ := PairingScript.migratedAgain
    obtain ⟨_, _, there⟩ := stays PairingScript.torn _ PairingScript.legacy _ rfl rfl rfl log t run
      released
    exact ⟨log, t, run, through, there⟩

end Syrotp.Android
