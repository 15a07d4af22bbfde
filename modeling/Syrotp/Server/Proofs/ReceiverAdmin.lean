import Syrotp.Server.ReceiverAdmin
import Syrotp.Server.Proofs.AtRest
import Syrotp.Server.Proofs.Signatures

/-!
# The key of a receiver

A receiver's key is drawn when it is added, told to the operator and kept wrapped. Whatever the
operators do at the same time, a request passes the check of its signature exactly if it is signed
with the key that was drawn for its receiver, and the receiver is enabled.
-/

namespace Syrotp

/-! ## The key at rest -/

theorem isWellFormed_hex (bytes : List UInt8) : isWellFormed (hex bytes) = true := by
  have digit : ∀ n : Fin 16, isSurrogate (hexDigit n) = false := by decide
  apply isWellFormed_of_single
  intro c hc
  obtain ⟨n, rfl⟩ := mem_hex hc
  exact digit n

theorem unwrap_of_wrap {G : Gcm} {masterKeyHex plaintext s : Text} {aad : Option Text} {iv : Iv}
    (wellFormed : isWellFormed plaintext = true)
    (h : wrap G masterKeyHex plaintext aad iv = .ok s) :
    unwrap G masterKeyHex s aad = .ok plaintext := by
  obtain ⟨key, parsed⟩ := parseWrapped_wrap h
  apply unwrap_eq_ok.mpr
  refine ⟨_, parsed, ⟨key, ?_, ?_, ?_⟩, ?_⟩
  · simp only [Gcm.seal, iv.2, G.permitsIv_12]
  · simp only [Gcm.seal, G.tag_length]
    decide
  · simp only [Gcm.seal]
    exact List.take_length
  · simp only [Gcm.seal, G.decrypt_encrypt, fromUtf8_toUtf8 wellFormed]

/-! ## What is provisioned -/

variable {S : AdminService}

/-- The draft that the next statement of a call commits. -/
def AdminCall.provisions (store : AdminStore) : AdminCall → List ReceiverDraft
  | .addReceiver _ (.insert d) =>
    if hasKey (·.gateway.id) d.row.gateway.id store.receivers ||
      !hasKey (·.id) d.row.gateway.appId store.apps then [] else [d]
  | _ => []

/-- The draft that a step commits. -/
def provisions : Admin × Act AdminRequest AdminMove → List ReceiverDraft
  | (s, .turn i m) =>
    match s.calls[i]?, m.world? with
    | some c, some _ => c.provisions s.store
    | _, _ => []
  | (_, .arrive _) => []

/-- The receivers that a run has added, with their keys. -/
def provisioned (log : List (Admin × Act AdminRequest AdminMove)) : List ReceiverDraft :=
  log.flatMap provisions

/-- What no command changes of a row. -/
def AdminReceiver.face (r : AdminReceiver) : GatewayReceiver := (r.setEnabled true).gateway

theorem AdminReceiver.of_face {r r' : AdminReceiver} (same : r.face = r'.face) :
    r.gateway.id = r'.gateway.id ∧ r.gateway.appId = r'.gateway.appId ∧
      r.gateway.msisdn = r'.gateway.msisdn ∧
      r.gateway.secretWrapped = r'.gateway.secretWrapped := by
  obtain ⟨id, appId, msisdn, wrapped, _⟩ := GatewayReceiver.mk.inj same
  exact ⟨id, appId, msisdn, wrapped⟩

/-- The key of a draft is what its row unwraps to. -/
def ReceiverDraft.Sealed (S : AdminService) (d : ReceiverDraft) : Prop :=
  S.crypto.unwrap d.row.gateway.secretWrapped (text "receiver:" ++ d.row.gateway.id) =
    some d.signingKey

/-- The table holds just the receivers that were added. -/
structure Enrolled (S : AdminService) (drafts : List ReceiverDraft) (store : AdminStore) :
    Prop where
  faces : store.receivers.map (·.face) = drafts.map (·.row.face)
  ids : (store.receivers.map (·.gateway.id)).Nodup
  isSealed : ∀ d ∈ drafts, d.Sealed S

def AdminCall.Drafted (S : AdminService) : AdminCall → Prop
  | .addReceiver _ (.insert d) => d.Sealed S
  | _ => True

section

variable {store : AdminStore} {drafts : List ReceiverDraft} {w : AdminWorld}

theorem ids_of_faces (rows : List AdminReceiver) :
    (rows.map (·.face)).map (·.id) = rows.map (·.gateway.id) := by
  rw [List.map_map]
  rfl

/-- A statement that only writes `enabled`, or nothing, keeps what was added. -/
theorem Enrolled.same (inv : Enrolled S drafts store) {store' : AdminStore}
    (faces : store'.receivers.map (·.face) = store.receivers.map (·.face)) :
    Enrolled S (drafts ++ []) store' := by
  rw [List.append_nil]
  refine ⟨faces.trans inv.faces, ?_, inv.isSealed⟩
  rw [← ids_of_faces, faces, ids_of_faces]
  exact inv.ids

theorem toggle_faces {enabled : Bool} {receiverId : Text} {phase phase' : TogglePhase}
    {rows : List AdminReceiver}
    (h : toggleReceiver enabled store receiverId phase = some (phase', rows)) :
    rows.map (·.face) = store.receivers.map (·.face) := by
  cases phase with
  | select =>
    simp only [toggleReceiver] at h
    split at h
    · cases h
      rfl
    · split at h <;> cases h <;> rfl
  | update msisdn =>
    cases h
    exact map_updateWhere fun _ => rfl
  | done result => cases h
  | failed => cases h

/-- What `addReceiver` is about to insert has its key in it. -/
theorem addReceiver_drafts {opts : AddReceiverOptions} {phase : AddReceiverPhase}
    {d : ReceiverDraft} {rows : List AdminReceiver}
    (h : addReceiver S store w opts phase = some (.insert d, rows)) : d.Sealed S := by
  cases phase with
  | selectApp phone =>
    simp only [addReceiver] at h
    split at h
    · cases h
    · split at h
      · cases h
      · split at h
        · cases h
        · next wrapped sealed =>
          cases h
          show (unwrap S.gcm S.masterKeyHex wrapped _).toOption = _
          rw [unwrap_of_wrap (isWellFormed_hex _) sealed]
          rfl
  | insert d =>
    simp only [addReceiver] at h
    split at h <;> cases h
  | done result => cases h
  | failed => cases h

/-- An operation adds what it provisions, and changes no other receiver. -/
theorem operation_provisioned {c : AdminCall} {t : Turn AdminStore AdminCall}
    (inv : Enrolled S drafts store) (drafted : c.Drafted S)
    (h : c.operation S store w = some t) :
    Enrolled S (drafts ++ c.provisions store) t.store ∧ t.call.Drafted S ∧ t.spawned = [] := by
  simp only [AdminCall.operation, Option.ite_none_left_eq_some] at h
  obtain ⟨_, h⟩ := h
  cases c with
  | verify input phase =>
    obtain ⟨r, _, rfl⟩ := Option.map_eq_some_iff.mp h
    exact ⟨inv.same rfl, trivial, rfl⟩
  | addReceiver opts phase =>
    obtain ⟨⟨phase', rows⟩, added, rfl⟩ := Option.map_eq_some_iff.mp h
    refine ⟨?_, ?_, rfl⟩
    · cases phase with
      | selectApp phone =>
        have unchanged : rows = store.receivers := by
          simp only [Syrotp.addReceiver] at added
          split at added
          · cases added; rfl
          · split at added
            · cases added; rfl
            · split at added <;> cases added <;> rfl
        rw [unchanged]
        exact inv.same rfl
      | insert d =>
        simp only [Syrotp.addReceiver] at added
        by_cases refused : (hasKey (·.gateway.id) d.row.gateway.id store.receivers ||
            !hasKey (·.id) d.row.gateway.appId store.apps) = true
        · rw [if_pos refused] at added
          cases added
          simp only [AdminCall.provisions, if_pos refused]
          exact inv.same rfl
        · rw [if_neg refused] at added
          cases added
          simp only [AdminCall.provisions, if_neg refused]
          have fresh := (Bool.or_eq_false_iff.mp (Bool.eq_false_iff.mpr refused)).1
          refine ⟨?_, nodup_insert inv.ids fresh, ?_⟩
          · show (store.receivers ++ [d.row]).map _ = _
            rw [List.map_append, List.map_append, inv.faces]
            rfl
          · intro d' hd'
            rcases List.mem_append.mp hd' with old | new
            · exact inv.isSealed d' old
            · rw [List.mem_singleton.mp new]
              exact drafted
      | done result => cases added
      | failed => cases added
    · cases phase' with
      | insert d => exact addReceiver_drafts added
      | _ => trivial
  | disableReceiver id phase =>
    obtain ⟨⟨phase', rows⟩, toggled, rfl⟩ := Option.map_eq_some_iff.mp h
    exact ⟨inv.same (toggle_faces toggled), trivial, rfl⟩
  | enableReceiver id phase =>
    obtain ⟨⟨phase', rows⟩, toggled, rfl⟩ := Option.map_eq_some_iff.mp h
    exact ⟨inv.same (toggle_faces toggled), trivial, rfl⟩
  | putApp app isDone =>
    cases isDone with
    | false =>
      cases h
      exact ⟨inv.same rfl, trivial, rfl⟩
    | true => cases h

theorem AdminCall.drafted_failed (c : AdminCall) : c.failed.Drafted S := by
  cases c <;> trivial

theorem AdminRequest.drafted_call (r : AdminRequest) : (r.call S).Drafted S := by
  cases r with
  | addReceiver opts =>
    show AdminCall.Drafted S (.addReceiver opts (addReceiverEntry S opts))
    unfold addReceiverEntry
    split
    · trivial
    · split
      · trivial
      · split <;> trivial
  | _ => trivial

theorem admin_turn_provisioned {c : AdminCall} {m : AdminMove} {t : Turn AdminStore AdminCall}
    (inv : Enrolled S drafts store) (drafted : c.Drafted S) (h : c.turn S store m = some t) :
    Enrolled S (drafts ++ if m.world?.isSome then c.provisions store else []) t.store ∧
      t.call.Drafted S ∧ t.spawned = [] := by
  cases m with
  | run w => exact operation_provisioned inv drafted h
  | error =>
    obtain ⟨_, hit⟩ := Option.ite_none_right_eq_some.mp h
    obtain rfl := Option.some.inj hit
    exact ⟨inv.same rfl, c.drafted_failed, rfl⟩
  | lost w =>
    obtain ⟨t', ht, rfl⟩ := Option.map_eq_some_iff.mp h
    exact ⟨(operation_provisioned inv drafted ht).1, c.drafted_failed, rfl⟩

end

variable {log : List (Admin × Act AdminRequest AdminMove)} {p : Admin}

theorem provisions_turn {i : Nat} {c : AdminCall} {m : AdminMove} (hc : p.calls[i]? = some c) :
    provisions (p, .turn i m) = if m.world?.isSome then c.provisions p.store else [] := by
  cases m <;> simp [provisions, hc, AdminMove.world?]

/-- Every run keeps just the receivers that it has added. -/
theorem AdminRun.enrolled (run : AdminRun S log p) :
    Enrolled S (provisioned log) p.store ∧ ∀ c ∈ p.calls, c.Drafted S := by
  induction run with
  | start =>
    refine ⟨⟨rfl, List.nodup_nil, ?_⟩, ?_⟩
    · intro d hd
      cases hd
    · intro c hc
      cases hc
  | @next log p q a _ step ih =>
    obtain ⟨inv, drafted⟩ := ih
    have split : provisioned (log ++ [(p, a)]) =
        provisioned log ++ provisions (p, a) := by
      simp [provisioned]
    rw [split]
    cases a with
    | arrive r =>
      obtain ⟨c, hc, rfl⟩ := Pool.step_arrive step
      cases hc
      refine ⟨inv.same rfl, ?_⟩
      intro c hc
      rcases List.mem_append.mp hc with old | new
      · exact drafted c old
      · rw [List.mem_singleton.mp new]
        exact r.drafted_call
    | turn i m =>
      obtain ⟨c, t, hc, ht, rfl⟩ := Pool.step_turn step
      obtain ⟨after, next, alone⟩ :=
        admin_turn_provisioned inv (drafted c (List.mem_of_getElem? hc)) ht
      rw [provisions_turn hc]
      refine ⟨after, ?_⟩
      intro x hx
      rw [alone, List.append_nil] at hx
      rcases List.mem_or_eq_of_mem_set hx with old | rfl
      · exact drafted x old
      · exact next

/-! ## The check -/

/-- A request is signed with the key that was drawn for its receiver, which is enabled. -/
def Admitted (S : AdminService) (drafts : List ReceiverDraft) (store : AdminStore)
    (input : VerifyHmacInput) (ts : Int) (r : VerifiedReceiver) : Prop :=
  ∃ d ∈ drafts, d.row.gateway.id = input.receiverId ∧
    (∃ row ∈ store.receivers, row.gateway.id = input.receiverId ∧ row.gateway.enabled = true) ∧
    S.crypto.hmacSha256Hex d.signingKey (signedPayload S.crypto input ts) = input.signatureHeader ∧
    r = ⟨d.row.gateway.id, d.row.gateway.appId, d.row.gateway.msisdn⟩

/-- The check of the signature passes just the requests that are. -/
theorem checkSignature_iff {drafts : List ReceiverDraft} {store : AdminStore}
    (inv : Enrolled S drafts store) {input : VerifyHmacInput} {ts : Int} {r : VerifiedReceiver} :
    checkSignature S.crypto store.gateway.receivers input ts = .ok r ↔
      Admitted S drafts store input ts r := by
  cases found : store.gateway.receivers.find? (fun r => r.id = input.receiverId) with
  | none =>
    simp only [checkSignature, found]
    constructor
    · intro h
      cases h
    · rintro ⟨d, hd, mine, ⟨row, hrow, same, _⟩, _⟩
      have absent := List.find?_eq_none.mp found row.gateway (List.mem_map.mpr ⟨row, hrow, rfl⟩)
      exact absurd same (by simpa using absent)
  | some g =>
    obtain ⟨row, hrow, rfl⟩ := List.mem_map.mp (List.mem_of_find?_eq_some found)
    have mine : row.gateway.id = input.receiverId := by simpa using List.find?_some found
    have face : row.face ∈ drafts.map (·.row.face) := by
      rw [← inv.faces]
      exact List.mem_map.mpr ⟨row, hrow, rfl⟩
    obtain ⟨d, hd, same⟩ := List.mem_map.mp face
    obtain ⟨id, appId, msisdn, wrapped⟩ := AdminReceiver.of_face same
    have key : S.crypto.unwrap row.gateway.secretWrapped (text "receiver:" ++ row.gateway.id) =
        some d.signingKey := by
      rw [← wrapped, ← id]
      exact inv.isSealed d hd
    -- a draft is known by its receiver
    have sole : ∀ d' ∈ drafts, d'.row.gateway.id = input.receiverId → d'.row.face = d.row.face := by
      intro d' hd' mine'
      have there : d'.row.face ∈ store.receivers.map (·.face) := by
        rw [inv.faces]
        exact List.mem_map.mpr ⟨d', hd', rfl⟩
      obtain ⟨row', hrow', same'⟩ := List.mem_map.mp there
      have id' := (AdminReceiver.of_face same').1
      have one : row' = row := eq_of_key inv.ids hrow' hrow (id'.trans (mine'.trans mine.symm))
      rw [← same', one, same]
    simp only [checkSignature, found, key]
    by_cases enabled : row.gateway.enabled = true
    · simp only [enabled, Bool.not_true, Bool.false_eq_true, if_false]
      constructor
      · intro h
        by_cases signed : S.crypto.hmacSha256Hex d.signingKey (signedPayload S.crypto input ts) =
            input.signatureHeader
        · rw [if_pos signed] at h
          cases h
          exact ⟨d, hd, id.trans mine, ⟨row, hrow, mine, enabled⟩, signed, by rw [id, appId, msisdn]⟩
        · rw [if_neg signed] at h
          cases h
      · rintro ⟨d', hd', mine', _, signed, rfl⟩
        obtain ⟨id', app', msisdn', wrapped'⟩ := AdminReceiver.of_face (sole d' hd' mine')
        have keys : d'.signingKey = d.signingKey := by
          have other := inv.isSealed d' hd'
          unfold ReceiverDraft.Sealed at other
          rw [wrapped', id'] at other
          exact Option.some.inj (other.symm.trans (inv.isSealed d hd))
        rw [keys] at signed
        rw [if_pos signed, mine', app', msisdn', mine, appId, msisdn]
    · simp only [Bool.not_eq_true _ ▸ enabled, Bool.not_false, if_true]
      constructor
      · intro h
        cases h
      · rintro ⟨_, _, _, ⟨row', hrow', mine', enabled'⟩, _⟩
        have one : row' = row := eq_of_key inv.ids hrow' hrow (mine'.trans mine.symm)
        rw [one] at enabled'
        exact absurd enabled' enabled

/-- The receiver that a request has passed the check of its signature for. -/
def HmacPhase.passed? : HmacPhase → Option VerifiedReceiver
  | .setNonce r => some r
  | .done (.ok r) => some r
  | _ => none

/-- At this step the call at position `i` has its signature checked, and it passes. -/
def Passes (S : AdminService) (e : Admin × Act AdminRequest AdminMove) (i : Nat)
    (input : VerifyHmacInput) (r : VerifiedReceiver) : Prop :=
  ∃ w ts, e.2 = .turn i (.run w) ∧ Text.parseInt input.timestampHeader = some ts ∧
    checkSignature S.crypto e.1.store.gateway.receivers input ts = .ok r

/-- The stage of a call tells what it has been through. -/
def Told (S : AdminService) (log : List (Admin × Act AdminRequest AdminMove)) (i : Nat)
    (c : AdminCall) : Prop :=
  ∀ input phase, c = .verify input phase →
    (∀ ts, phase = .select ts → Text.parseInt input.timestampHeader = some ts) ∧
      ∀ r, phase.passed? = some r → ∃ e ∈ log, Passes S e i input r

/-- An operation of the check gets on only by what it asks for. -/
theorem verifyGatewayHmac_told {C : Crypto} {config : Config} {store : GatewayStore} {now : Time}
    {input : VerifyHmacInput} {phase phase' : HmacPhase} {nonces : List RedisEntry}
    (h : verifyGatewayHmac C config store now input phase = some (phase', nonces)) :
    (∀ ts, phase' = .select ts → Text.parseInt input.timestampHeader = some ts) ∧
      ∀ r, phase'.passed? = some r → phase.passed? = some r ∨
        ∃ ts, phase = .select ts ∧ checkSignature C store.receivers input ts = .ok r := by
  cases phase with
  | check =>
    simp only [verifyGatewayHmac] at h
    cases checked : checkHeaders config now input with
    | error e =>
      rw [checked] at h
      cases h
      constructor
      · intro ts same
        cases same
      · intro r passed
        cases passed
    | ok ts =>
      rw [checked] at h
      cases h
      constructor
      · intro ts' same
        cases same
        exact (checkHeaders_ok checked).2.2
      · intro r passed
        cases passed
  | select ts =>
    simp only [verifyGatewayHmac] at h
    cases checked : checkSignature C store.receivers input ts with
    | error e =>
      rw [checked] at h
      cases h
      constructor
      · intro ts same
        cases same
      · intro r passed
        cases passed
    | ok r =>
      rw [checked] at h
      cases h
      constructor
      · intro ts same
        cases same
      · intro r' passed
        cases passed
        exact .inr ⟨ts, rfl, checked⟩
  | setNonce r =>
    cases h
    constructor
    · intro ts same
      cases same
    · intro r' passed
      split at passed
      · exact .inl passed
      · cases passed
  | done result => cases h
  | failed => cases h

theorem calls_told (run : AdminRun S log p) : ∀ i c, p.calls[i]? = some c → Told S log i c := by
  have threw : ∀ log i (c : AdminCall), Told S log i c.failed := by
    intro log i c input phase same
    cases c <;> cases same
    exact ⟨nofun, nofun⟩
  refine Pool.call_history ?frame ?first ?admitted ?spawned ?turned run
  case frame =>
    intro log q a i c _ told input phase same
    obtain ⟨parsed, passed⟩ := told input phase same
    refine ⟨parsed, ?_⟩
    intro r hr
    obtain ⟨e, he, passes⟩ := passed r hr
    exact ⟨e, List.mem_append_left _ he, passes⟩
  case first =>
    intro i c h
    cases h
  case admitted =>
    intro d r c h log i _ input phase same
    cases h
    cases r <;> cases same
    exact ⟨nofun, nofun⟩
  case spawned =>
    intro log q i c m t run hi h n hn
    have alone := (admin_turn_provisioned (AdminRun.enrolled run).1
      ((AdminRun.enrolled run).2 c (List.mem_of_getElem? hi)) h).2.2
    rw [alone] at hn
    cases hn
  case turned =>
    intro log q i c m t run hi h told
    cases m with
    | run w =>
      intro input phase same
      simp only [receiverAdmin, AdminCall.turn, AdminCall.operation,
        Option.ite_none_left_eq_some] at h
      obtain ⟨_, h⟩ := h
      cases c with
      | verify input' phase' =>
        obtain ⟨⟨phase'', nonces⟩, ran, rfl⟩ := Option.map_eq_some_iff.mp h
        cases same
        obtain ⟨parsed, passed⟩ := verifyGatewayHmac_told ran
        refine ⟨parsed, ?_⟩
        intro r hr
        rcases passed r hr with before | ⟨ts, rfl, checked⟩
        · obtain ⟨e, he, passes⟩ := (told input phase' rfl).2 r before
          exact ⟨e, List.mem_append_left _ he, passes⟩
        · have timestamp := (told input _ rfl).1 ts rfl
          exact ⟨_, List.mem_append_right _ (List.mem_singleton_self _), w, ts, rfl, timestamp,
            checked⟩
      | putApp app isDone =>
        cases isDone with
        | false =>
          cases h
          cases same
        | true => cases h
      | _ =>
        obtain ⟨_, _, rfl⟩ := Option.map_eq_some_iff.mp h
        cases same
    | error =>
      obtain ⟨_, hit⟩ := Option.ite_none_right_eq_some.mp h
      obtain rfl := Option.some.inj hit
      exact threw _ i c
    | lost w =>
      obtain ⟨t', _, rfl⟩ := Option.map_eq_some_iff.mp h
      exact threw _ i c

/-- In every run of the operators' commands and the gateways' requests, a request that is accepted
was signed with the key that had been drawn for its receiver, which was enabled when that was
checked; and at every moment the check passes all the requests that are. -/
theorem gateways_hold_their_keys (run : AdminRun S log p) :
    (∀ i input r, p.calls[i]? = some (.verify input (.done (.ok r))) →
      ∃ log₁ e log₂ w ts, log = log₁ ++ e :: log₂ ∧ e.2 = .turn i (.run w) ∧
        Text.parseInt input.timestampHeader = some ts ∧
        Admitted S (provisioned log₁) e.1.store input ts r) ∧
    ∀ input ts r, checkSignature S.crypto p.store.gateway.receivers input ts = .ok r ↔
      Admitted S (provisioned log) p.store input ts r := by
  constructor
  · intro i input r answered
    obtain ⟨e, he, w, ts, act, parsed, checked⟩ := (calls_told run i _ answered input _ rfl).2 r rfl
    obtain ⟨log₁, _, log₂, split, before, _, _⟩ := run.split he
    exact ⟨log₁, e, log₂, w, ts, split, act, parsed,
      (checkSignature_iff (AdminRun.enrolled before).1).mp checked⟩
  · intro input ts r
    exact checkSignature_iff run.enrolled.1

namespace ReceiverScript

/-- What AES-256-GCM encrypts with under a key of bytes `01` and an IV of bytes `02`. -/
def keystream : List UInt8 :=
  [7, 214, 201, 73, 74, 87, 193, 253, 211, 204, 188, 200, 92, 167, 194, 178, 162, 181, 209, 239,
   235, 177, 141, 113, 221, 135, 224, 251, 120, 251, 116, 127, 119, 127, 30, 55, 109, 111, 163,
   239, 71, 46, 82, 233, 159, 39, 92, 123, 170, 117, 222, 215, 167, 90, 221, 38, 203, 67, 179,
   178, 99, 52, 77, 138]

/-- AES-256-GCM for the one key that is wrapped. -/
def cipher : Gcm :=
  .ofStream keystream
    (fun _ _ => [121, 252, 21, 178, 232, 12, 187, 111, 82, 107, 8, 224, 197, 68, 211, 92])
    (fun _ _ => rfl)

/-- The bytes `00` to `1f` are drawn. -/
def signingKey : Text := Crypto.generateNonce 32 fun i => i.toUInt8

def mac : List UInt8 :=
  [104, 11, 199, 73, 186, 11, 151, 219, 99, 167, 29, 213, 239, 154, 56, 101, 205, 72, 108, 249,
   177, 58, 182, 225, 61, 5, 14, 119, 180, 199, 244, 113]

/-- The values of the real functions on the heartbeat. -/
def primitives : Primitives :=
  { SignatureScript.primitives with
    hmacSha256 := fun k m =>
      if k = SignatureScript.bytes signingKey ∧ m = SignatureScript.bytes SignatureScript.message
      then mac else List.replicate 32 0
    hmacSha256_length := fun k m => by
      split
      · rfl
      · exact List.length_replicate }

def service : AdminService := ⟨.ascii, .default, primitives, cipher, hex (List.replicate 32 1)⟩

def world (now : Time) : AdminWorld :=
  ⟨now, text "01J", fun i => i.toUInt8, ⟨List.replicate 12 2, rfl⟩⟩

def request : VerifyHmacInput :=
  ⟨text "rcv_01J", text "1700000000", GatewayScript.nonce, hex mac, GatewayScript.heartbeat⟩

/-- A receiver is added and posts a heartbeat; it is disabled and posts it again. -/
def acts : List (Act AdminRequest AdminMove) :=
  [.arrive (.putApp ⟨text "app_1", text "a", false⟩), .turn 0 (.run (world 0)),
    .arrive (.addReceiver ⟨text "app_1", text "gsm", none, text "+963110000000", false⟩),
    .turn 1 (.run (world 0)), .turn 1 (.run (world 0)), .arrive (.verify request)] ++
  List.replicate 3 (.turn 2 (.run (world 1700000001000))) ++
  [.arrive (.disableReceiver (text "rcv_01J")), .turn 3 (.run (world 1700000001000)),
    .turn 3 (.run (world 1700000001000)), .arrive (.verify request)] ++
  List.replicate 2 (.turn 4 (.run (world 1700000002000)))

def accepted : VerifiedReceiver := ⟨text "rcv_01J", text "app_1", text "+963110000000"⟩

theorem posted : ∃ log p, AdminRun service log p ∧
    (p.calls[2]? = some (.verify request (.done (.ok accepted))) ∧
      p.calls[4]? = some (.verify request (.done (.error .unknownReceiver))) ∧
      (provisioned log).map (·.signingKey) = [signingKey]) :=
  @run_of_exec_any _ _ _ acts _ _ _ (by decide +kernel)

end ReceiverScript

/-- The heartbeat bears the signature of the key that `addReceiver` drew. -/
theorem gateways_hold_their_keys_script : ∃ log₁ s ts,
    Admitted ReceiverScript.service (provisioned log₁) s ReceiverScript.request ts
      ReceiverScript.accepted := by
  obtain ⟨log, p, run, answered, _, _⟩ := ReceiverScript.posted
  obtain ⟨log₁, e, _, _, ts, _, _, _, admitted⟩ :=
    (gateways_hold_their_keys run).1 2 _ _ answered
  exact ⟨log₁, e.1.store, ts, admitted⟩

end Syrotp
