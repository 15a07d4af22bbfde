import Syrotp.Misc.Simulation
import Syrotp.Server.ApiKeys

/-!
# Who is let in

The table of keys knows an issued key by its hash only. What a request is answered is told here from
the keys as they were handed out: the keys that bootstraps have committed, with their texts.
-/

namespace Syrotp

/-! ## The text of a key -/

/-- What a key of a kind starts with. -/
def ApiKeyKind.keyPrefix : ApiKeyKind → Text
  | .publicKey => text "pk_live"
  | .secretKey => text "sk_live"
  | .gatewayKey => text "gw_live"

theorem own_keyPrefix (kind : ApiKeyKind) : prefixToKind.own kind.keyPrefix = some kind := by
  cases kind <;> decide +kernel

theorem length_keyPrefix (kind : ApiKeyKind) : kind.keyPrefix.length = 7 := by
  cases kind <;> rfl

theorem Text.lastIndexOf_append {s t : Text} {c : UInt16} (last : c ∉ t) :
    Text.lastIndexOf (s ++ c :: t) c = some s.length := by
  have found : (s ++ c :: t).reverse.idxOf c = t.length := by
    have absent : c ∉ t.reverse := fun h => last (List.mem_reverse.mp h)
    rw [List.reverse_append, List.reverse_cons, List.append_assoc,
      List.idxOf_append_of_notMem absent]
    simp
  unfold Text.lastIndexOf
  rw [if_pos (by simp), found]
  simp

/-- A generated key tells its kind. -/
theorem keyPrefixKind_generated (kind : ApiKeyKind) (bytes : Nat → UInt8) :
    keyPrefixKind (generateApiKey kind.keyPrefix bytes) = some (some kind) := by
  have body : generateApiKey kind.keyPrefix bytes = kind.keyPrefix ++
      95 :: Text.draw apiKeyAlphabet 32 (fun i => (bytes i).toNat) := by
    show kind.keyPrefix ++ [95] ++ _ = _
    rw [List.append_assoc]
    rfl
  have absent : (95 : UInt16) ∉ Text.draw apiKeyAlphabet 32 (fun i => (bytes i).toNat) := by
    intro h
    have := Text.mem_of_mem_draw (by decide) h
    revert this
    decide +kernel
  have length : (generateApiKey kind.keyPrefix bytes).length = 40 := by
    simp [body, length_keyPrefix, Text.length_draw]
  unfold keyPrefixKind
  rw [length, if_neg (by omega), body, Text.lastIndexOf_append absent]
  simp only [List.take_left', own_keyPrefix]

/-! ## The keys that are handed out -/

/-- The keys of a draft, with their texts. -/
def KeyDraft.issued (d : KeyDraft) : List (Text × AuthedKey) :=
  [(d.publicKey, ⟨d.publicId, d.appId, .publicKey⟩), (d.secretKey, ⟨d.secretId, d.appId, .secretKey⟩)]

/-- The keys that the next statement of a call commits. -/
def KeyCall.issues (S : KeyService) (db : KeyDb) : KeyCall → List (Text × AuthedKey)
  | .bootstrap _ (.insertKeys d) => if d.insertable S db then d.issued else []
  | _ => []

/-- The keys that a step commits. -/
def issues (S : KeyService) : Keyring × Act KeyRequest KeyMove → List (Text × AuthedKey)
  | (s, .turn i m) =>
    match s.calls[i]?, m.world? with
    | some c, some _ => c.issues S s.store
    | _, _ => []
  | (_, .arrive _) => []

/-- The keys that a run has committed. -/
def issued (S : KeyService) (log : List (Keyring × Act KeyRequest KeyMove)) :
    List (Text × AuthedKey) := log.flatMap (issues S)

/-- Whether a key is in force: it is not revoked, and its app not disabled. -/
def KeyDb.live (db : KeyDb) (key : AuthedKey) : Bool :=
  db.apiKeys.any (fun k => k.id = key.id ∧ k.revokedAt = none) &&
    db.apps.any (fun a => a.id = key.appId ∧ a.disabled = false)

/-- What a request is to be answered, from the keys as they were handed out. -/
def verdict (issued : List (Text × AuthedKey)) (db : KeyDb) (authorization : Option Text)
    (allowed : List ApiKeyKind) : Except KeyRejection AuthedKey :=
  match extractBearer authorization with
  | none => .error .missing
  | some tok => decideKey allowed (((issued.find? (·.1 = tok)).map (·.2)).filter db.live)

/-! ## The tables -/

/-- What a row says of its key. -/
def ApiKey.face (k : ApiKey) : Text × AuthedKey := (k.keyHash, ⟨k.id, k.appId, k.kind⟩)

def KeyDb.faces (db : KeyDb) : List (Text × AuthedKey) := db.apiKeys.map (·.face)

def KeyDb.appIds (db : KeyDb) : List Id := db.apps.map (·.id)

/-- What is stored of a key that is handed out. -/
def KeyService.stored (S : KeyService) (k : Text × AuthedKey) : Text × AuthedKey := (S.hash k.1, k.2)

/-- The tables hold just the keys that were handed out, each under its hash. -/
structure Keyed (S : KeyService) (issued : List (Text × AuthedKey)) (db : KeyDb) : Prop where
  faces : db.faces = issued.map S.stored
  ids : (db.faces.map (·.2.id)).Nodup
  hashes : (db.faces.map (·.1)).Nodup
  apps : db.appIds.Nodup
  known : ∀ k ∈ db.faces, k.2.appId ∈ db.appIds
  generated : ∀ k ∈ issued, ∃ bytes, k.1 = generateApiKey k.2.kind.keyPrefix bytes

/-- The keys of a draft were generated. -/
def BootstrapPhase.Drafted : BootstrapPhase → Prop
  | .insertKeys d => ∀ k ∈ d.issued, ∃ bytes, k.1 = generateApiKey k.2.kind.keyPrefix bytes
  | _ => True

def KeyCall.Drafted : KeyCall → Prop
  | .bootstrap _ phase => phase.Drafted
  | _ => True

@[simp] theorem KeyDb.faces_touch (db : KeyDb) (now : Time) (id : ApiKeyId) :
    (db.touch now id).faces = db.faces := map_updateWhere fun _ => rfl

@[simp] theorem KeyDb.appIds_touch (db : KeyDb) (now : Time) (id : ApiKeyId) :
    (db.touch now id).appIds = db.appIds := rfl

@[simp] theorem KeyDb.faces_revoke (db : KeyDb) (now : Time) (id : ApiKeyId) :
    (db.revoke now id).faces = db.faces := map_updateWhere fun _ => rfl

@[simp] theorem KeyDb.appIds_revoke (db : KeyDb) (now : Time) (id : ApiKeyId) :
    (db.revoke now id).appIds = db.appIds := rfl

@[simp] theorem KeyDb.faces_setDisabled (db : KeyDb) (appId : Id) (off : Bool) :
    (db.setDisabled appId off).faces = db.faces := rfl

@[simp] theorem KeyDb.appIds_setDisabled (db : KeyDb) (appId : Id) (off : Bool) :
    (db.setDisabled appId off).appIds = db.appIds := map_updateWhere fun _ => rfl

theorem KeyDraft.faces_rows (S : KeyService) (d : KeyDraft) :
    (d.rows S).map (·.face) = d.issued.map S.stored := rfl

theorem faces_ids (db : KeyDb) : db.faces.map (·.2.id) = db.apiKeys.map (·.id) := by
  simp only [KeyDb.faces, List.map_map]
  rfl

theorem faces_hashes (db : KeyDb) : db.faces.map (·.1) = db.apiKeys.map (·.keyHash) := by
  simp only [KeyDb.faces, List.map_map]
  rfl

section

variable {S : KeyService} {db : KeyDb} {keys : List (Text × AuthedKey)} {w : KeyWorld}

/-- A statement adds the keys that it commits to the tables, and changes no other. -/
theorem KeyCall.statement_keyed {c : KeyCall} {t : Turn KeyDb KeyCall} (keyed : Keyed S keys db)
    (drafted : c.Drafted) (h : c.statement S db w = some t) :
    Keyed S (keys ++ c.issues S db) t.store ∧ t.call.Drafted ∧ ∀ n ∈ t.spawned, n.Drafted := by
  have quiet : ∀ db' : KeyDb, db'.faces = db.faces → db'.appIds = db.appIds →
      Keyed S (keys ++ []) db' := by
    intro db' same apps
    rw [List.append_nil]
    exact ⟨same ▸ keyed.faces, same ▸ keyed.ids, same ▸ keyed.hashes, apps ▸ keyed.apps,
      same ▸ apps ▸ keyed.known, keyed.generated⟩
  cases c with
  | bootstrap name phase =>
    obtain ⟨⟨next, db'⟩, stepped, rfl⟩ := Option.map_eq_some_iff.mp h
    cases phase with
    | insertApp =>
      simp only [bootstrapApp] at stepped
      by_cases taken : hasKey (·.id) (newId .app (w.ulid 0)) db.apps = true
      · rw [if_pos taken] at stepped
        cases stepped
        exact ⟨quiet _ rfl rfl, trivial, by simp⟩
      · rw [if_neg taken] at stepped
        cases stepped
        have fresh := hasKey_eq_false.mp (Bool.eq_false_iff.mpr taken)
        refine ⟨?_, ?_, by simp⟩
        · simp only [KeyCall.issues, List.append_nil]
          refine ⟨keyed.faces, keyed.ids, keyed.hashes, ?_, ?_, keyed.generated⟩
          · exact nodup_insert keyed.apps (Bool.eq_false_iff.mpr taken)
          · intro k hk
            simp only [KeyDb.appIds, List.map_append]
            exact List.mem_append_left _ (keyed.known k hk)
        · show ∀ k ∈ KeyDraft.issued _, _
          intro k hk
          simp only [KeyDraft.issued, List.mem_cons, List.not_mem_nil, or_false] at hk
          rcases hk with rfl | rfl
          · exact ⟨_, rfl⟩
          · exact ⟨_, rfl⟩
    | insertKeys d =>
      simp only [bootstrapApp] at stepped
      by_cases insertable : d.insertable S db = true
      · rw [if_pos insertable] at stepped
        cases stepped
        obtain ⟨ids, hashes, app⟩ := of_decide_eq_true insertable
        have added : (⟨db.apps, db.apiKeys ++ d.rows S⟩ : KeyDb).faces =
            db.faces ++ d.issued.map S.stored := by
          simp only [KeyDb.faces, List.map_append, d.faces_rows]
        refine ⟨?_, trivial, by simp⟩
        simp only [KeyCall.issues, if_pos insertable]
        refine ⟨?_, ?_, ?_, keyed.apps, ?_, ?_⟩
        · rw [added, keyed.faces, List.map_append]
        · rw [faces_ids]
          exact ids
        · rw [faces_hashes]
          exact hashes
        · intro k hk
          rw [added] at hk
          rcases List.mem_append.mp hk with old | new
          · exact keyed.known k old
          · have mine : k.2.appId = d.appId := by
              simp only [KeyDraft.issued, List.map_cons, List.map_nil, List.mem_cons,
                List.not_mem_nil, or_false] at new
              rcases new with rfl | rfl <;> rfl
            rw [mine]
            exact List.mem_map.mpr (hasKey_iff.mp app)
        · intro k hk
          rcases List.mem_append.mp hk with old | new
          · exact keyed.generated k old
          · exact drafted k new
      · rw [if_neg insertable] at stepped
        cases stepped
        simp only [KeyCall.issues, if_neg insertable]
        exact ⟨quiet _ rfl rfl, trivial, by simp⟩
    | done _ => cases stepped
    | failed => cases stepped
  | require authorization allowed phase =>
    cases phase with
    | select raw kind =>
      cases h
      refine ⟨quiet _ rfl rfl, trivial, ?_⟩
      intro n hn
      obtain ⟨_, _, rfl⟩ := List.mem_map.mp hn
      trivial
    | done _ => cases h
    | failed => cases h
  | touch id isDone =>
    cases isDone with
    | false => cases h; exact ⟨quiet _ (by simp) (by simp), trivial, by simp⟩
    | true => cases h
  | revoke id isDone =>
    cases isDone with
    | false => cases h; exact ⟨quiet _ (by simp) (by simp), trivial, by simp⟩
    | true => cases h
  | setDisabled appId off isDone =>
    cases isDone with
    | false => cases h; exact ⟨quiet _ (by simp) (by simp), trivial, by simp⟩
    | true => cases h

theorem KeyCall.drafted_failed (c : KeyCall) : c.failed.Drafted := by
  cases c <;> trivial

theorem KeyRequest.drafted_call (r : KeyRequest) : r.call.Drafted := by
  cases r with
  | bootstrap name =>
    show (bootstrapEntry name).Drafted
    unfold bootstrapEntry
    split <;> trivial
  | _ => trivial

/-- So does a turn. -/
theorem KeyCall.turn_keyed {c : KeyCall} {m : KeyMove} {t : Turn KeyDb KeyCall}
    (keyed : Keyed S keys db) (drafted : c.Drafted) (h : c.turn S db m = some t) :
    Keyed S (keys ++ if m.world?.isSome then c.issues S db else []) t.store ∧ t.call.Drafted ∧
      ∀ n ∈ t.spawned, n.Drafted := by
  cases m with
  | statement w => exact c.statement_keyed keyed drafted h
  | error =>
    obtain ⟨_, hit⟩ := Option.ite_none_right_eq_some.mp h
    obtain rfl := Option.some.inj hit
    simp only [KeyMove.world?, Option.isSome_none, Bool.false_eq_true, if_false, List.append_nil]
    exact ⟨keyed, c.drafted_failed, by simp⟩
  | lost w =>
    obtain ⟨t', ht, rfl⟩ := Option.map_eq_some_iff.mp h
    exact ⟨(c.statement_keyed keyed drafted ht).1, c.drafted_failed, by simp⟩

theorem issued_append (log : List (Keyring × Act KeyRequest KeyMove))
    (e : Keyring × Act KeyRequest KeyMove) : issued S (log ++ [e]) = issued S log ++ issues S e := by
  simp [issued]

theorem issues_turn {p : Keyring} {i : Nat} {c : KeyCall} {m : KeyMove} (hc : p.calls[i]? = some c) :
    issues S (p, .turn i m) = if m.world?.isSome then c.issues S p.store else [] := by
  cases m <;> simp [issues, hc, KeyMove.world?]

variable {log : List (Keyring × Act KeyRequest KeyMove)} {p : Keyring}

/-- The tables of every run hold just the keys that it has handed out. -/
theorem KeyRun.keyed (run : KeyRun S log p) : Keyed S (issued S log) p.store ∧
    ∀ (i : Nat) (c : KeyCall), p.calls[i]? = some c → c.Drafted := by
  induction run with
  | start =>
    refine ⟨⟨rfl, ?_, ?_, ?_, ?_, ?_⟩, ?_⟩
    all_goals simp [KeyDb.faces, KeyDb.appIds, issued]
  | @next log p q a _ step ih =>
    obtain ⟨keyed, drafted⟩ := ih
    rw [issued_append]
    cases a with
    | arrive r =>
      obtain ⟨c, hc, rfl⟩ := Pool.step_arrive step
      cases hc
      refine ⟨by simpa [issues] using keyed, ?_⟩
      intro i c hi
      rcases List.mem_append.mp (List.mem_of_getElem? hi) with old | new
      · obtain ⟨j, hj⟩ := List.mem_iff_getElem?.mp old
        exact drafted j c hj
      · rw [List.mem_singleton.mp new]
        exact r.drafted_call
    | turn i m =>
      obtain ⟨c, t, hc, ht, rfl⟩ := Pool.step_turn step
      obtain ⟨after, next, spawned⟩ := c.turn_keyed keyed (drafted i c hc) ht
      rw [issues_turn hc]
      refine ⟨after, ?_⟩
      intro j x hx
      rcases Pool.turned_call hc hx with ⟨_, old⟩ | ⟨_, rfl⟩ | ⟨_, new⟩
      · exact drafted j x old
      · exact next
      · exact spawned x new

/-! ## The query -/

/-- The row of a key that was handed out. -/
theorem Keyed.row (keyed : Keyed S keys db) {k : Text × AuthedKey} (hk : k ∈ keys) :
    ∃ row ∈ db.apiKeys, row.face = S.stored k := by
  have there : S.stored k ∈ db.faces := by
    rw [keyed.faces]
    exact List.mem_map.mpr ⟨k, hk, rfl⟩
  exact List.mem_map.mp there

/-- And every row is the row of one. -/
theorem Keyed.source (keyed : Keyed S keys db) {row : ApiKey} (h : row ∈ db.apiKeys) :
    ∃ k ∈ keys, row.face = S.stored k := by
  have there : row.face ∈ keys.map S.stored := by
    rw [← keyed.faces]
    exact List.mem_map.mpr ⟨row, h, rfl⟩
  obtain ⟨k, hk, same⟩ := List.mem_map.mp there
  exact ⟨k, hk, same.symm⟩

/-- Whether a key is in force is told by its row and that of its app. -/
theorem Keyed.live_eq (keyed : Keyed S keys db) {row : ApiKey} {a : App} (hr : row ∈ db.apiKeys)
    (ha : a ∈ db.apps) (owner : a.id = row.appId) :
    db.live row.face.2 = (row.revokedAt.isNone && !a.disabled) := by
  have rows : db.apiKeys.any (fun k => k.id = row.face.2.id ∧ k.revokedAt = none) =
      row.revokedAt.isNone := by
    rw [Bool.eq_iff_iff, List.any_eq_true]
    constructor
    · rintro ⟨k, hk, hit⟩
      obtain ⟨same, inForce⟩ := of_decide_eq_true hit
      obtain rfl : k = row := eq_of_key (faces_ids db ▸ keyed.ids) hk hr same
      simp [inForce]
    · intro inForce
      exact ⟨row, hr, by simpa [ApiKey.face] using inForce⟩
  have apps : db.apps.any (fun x => x.id = row.face.2.appId ∧ x.disabled = false) = !a.disabled := by
    rw [Bool.eq_iff_iff, List.any_eq_true]
    constructor
    · rintro ⟨x, hx, hit⟩
      obtain ⟨same, enabled⟩ := of_decide_eq_true hit
      obtain rfl : x = a := eq_of_key keyed.apps hx ha (same.trans owner.symm)
      simp [enabled]
    · intro enabled
      exact ⟨a, ha, by simpa [ApiKey.face, owner] using enabled⟩
  unfold KeyDb.live
  rw [rows, apps]

/-- The query finds the key that the text was handed out as, if it is in force. -/
theorem lookupApiKey_eq (keyed : Keyed S keys db) {tok : Text} {kind : Option ApiKeyKind}
    (told : keyPrefixKind tok = some kind)
    (apart : ∀ k ∈ keys, S.hash tok = S.hash k.1 → tok = k.1) :
    lookupApiKey S db tok kind = ((keys.find? (·.1 = tok)).map (·.2)).filter db.live := by
  cases found : keys.find? (·.1 = tok) with
  | none =>
    have absent : db.apiKeys.find? (fun k => k.keyHash = S.hash tok) = none := by
      refine List.find?_eq_none.mpr ?_
      intro row hrow hit
      obtain ⟨k, hk, same⟩ := keyed.source hrow
      have hash : row.keyHash = S.hash k.1 := congrArg Prod.fst same
      have this : tok = k.1 := apart k hk ((of_decide_eq_true hit).symm.trans hash)
      exact List.find?_eq_none.mp found k hk (by simp [this])
    simp [lookupApiKey, absent]
  | some k =>
    have hk : k ∈ keys := List.mem_of_find?_eq_some found
    have mine : k.1 = tok := by simpa using List.find?_some found
    obtain ⟨row, hrow, face⟩ := keyed.row hk
    have hash : row.keyHash = S.hash tok := by
      rw [← mine]
      exact congrArg Prod.fst face
    have key : row.face.2 = k.2 := by rw [face]; rfl
    have first : db.apiKeys.find? (fun k => k.keyHash = S.hash tok) = some row := by
      cases hit : db.apiKeys.find? (fun k => k.keyHash = S.hash tok) with
      | none => exact absurd hash (by simpa using List.find?_eq_none.mp hit row hrow)
      | some other =>
        have same : other.keyHash = S.hash tok := by simpa using List.find?_some hit
        exact congrArg some (eq_of_key (faces_hashes db ▸ keyed.hashes)
          (List.mem_of_find?_eq_some hit) hrow (same.trans hash.symm))
    have owned : row.appId ∈ db.appIds := keyed.known _ (List.mem_map.mpr ⟨row, hrow, rfl⟩)
    obtain ⟨a, ha, owner⟩ := List.mem_map.mp owned
    have app : db.apps.find? (fun x => x.id = row.appId) = some a := by
      cases hit : db.apps.find? (fun x => x.id = row.appId) with
      | none => exact absurd owner (by simpa using List.find?_eq_none.mp hit a ha)
      | some other =>
        have same : other.id = row.appId := by simpa using List.find?_some hit
        exact congrArg some (eq_of_key keyed.apps (List.mem_of_find?_eq_some hit) ha
          (same.trans owner.symm))
    have kinds : some row.kind = kind := by
      obtain ⟨bytes, text⟩ := keyed.generated k hk
      rw [← mine, text, keyPrefixKind_generated] at told
      rw [← Option.some.inj told, ← key]
      rfl
    have live := keyed.live_eq hrow ha owner
    rw [key] at live
    have value : (⟨row.id, row.appId, row.kind⟩ : AuthedKey) = k.2 := key
    simp only [lookupApiKey, first, app, Option.map_some, Option.filter_some, live, value, kinds]
    cases row.revokedAt <;> cases a.disabled <;> simp

/-- A text that does not look like a key is none. -/
theorem find?_untold (keyed : Keyed S keys db) {tok : Text}
    (told : keyPrefixKind tok = none) : keys.find? (·.1 = tok) = none := by
  refine List.find?_eq_none.mpr ?_
  intro k hk hit
  obtain ⟨bytes, text⟩ := keyed.generated k hk
  have mine : k.1 = tok := of_decide_eq_true hit
  rw [← mine, text, keyPrefixKind_generated] at told
  cases told

/-! ## Revocation -/

/-- Whether the row of a key says that it is revoked. -/
def KeyDb.Revoked (db : KeyDb) (id : ApiKeyId) : Prop :=
  ∃ k ∈ db.apiKeys, k.id = id ∧ k.revokedAt ≠ none

theorem KeyDb.not_revoked_of_live {key : AuthedKey} (keyed : Keyed S keys db)
    (live : db.live key = true) : ¬ db.Revoked key.id := by
  intro ⟨k, hk, same, revoked⟩
  obtain ⟨rows, _⟩ := Bool.and_eq_true_iff.mp live
  obtain ⟨k', hk', hit⟩ := List.any_eq_true.mp rows
  obtain ⟨same', inForce⟩ := of_decide_eq_true hit
  obtain rfl : k = k' := eq_of_key (faces_ids db ▸ keyed.ids) hk hk' (same.trans same'.symm)
  exact revoked inForce

/-- No statement takes a revocation back. -/
theorem KeyCall.statement_revoked {c : KeyCall} {t : Turn KeyDb KeyCall} {id : ApiKeyId}
    (h : c.statement S db w = some t) (revoked : db.Revoked id) : t.store.Revoked id := by
  obtain ⟨k, hk, same, since⟩ := revoked
  have grown : ∀ rows, ∃ x ∈ db.apiKeys ++ rows, x.id = id ∧ x.revokedAt ≠ none := fun rows =>
    ⟨k, List.mem_append_left rows hk, same, since⟩
  have updated : ∀ (id' : ApiKeyId) (f : ApiKey → ApiKey), (∀ x, (f x).id = x.id) →
      (∀ x, x.revokedAt ≠ none → (f x).revokedAt ≠ none) →
      ∃ x ∈ updateWhere (fun x => x.id = id') f db.apiKeys, x.id = id ∧ x.revokedAt ≠ none := by
    intro id' f ids kept
    by_cases hit : k.id = id'
    · exact ⟨f k, mem_updateWhere_of_pos hk (by simpa using hit), (ids k).trans same, kept k since⟩
    · exact ⟨k, mem_updateWhere_of_neg hk (by simpa using hit), same, since⟩
  cases c with
  | bootstrap name phase =>
    obtain ⟨⟨next, db'⟩, stepped, rfl⟩ := Option.map_eq_some_iff.mp h
    cases phase with
    | insertApp =>
      simp only [bootstrapApp] at stepped
      split at stepped <;> cases stepped <;> exact ⟨k, hk, same, since⟩
    | insertKeys d =>
      simp only [bootstrapApp] at stepped
      split at stepped
      · cases stepped
        exact grown _
      · cases stepped
        exact ⟨k, hk, same, since⟩
    | done _ => cases stepped
    | failed => cases stepped
  | require authorization allowed phase =>
    cases phase with
    | select raw kind => cases h; exact ⟨k, hk, same, since⟩
    | done _ => cases h
    | failed => cases h
  | touch id' isDone =>
    cases isDone with
    | false => cases h; exact updated id' _ (fun _ => rfl) fun _ kept => kept
    | true => cases h
  | revoke id' isDone =>
    cases isDone with
    | false => cases h; exact updated id' _ (fun _ => rfl) fun _ _ => by simp
    | true => cases h
  | setDisabled appId off isDone =>
    cases isDone with
    | false => cases h; exact ⟨k, hk, same, since⟩
    | true => cases h

theorem KeyCall.turn_revoked {c : KeyCall} {m : KeyMove} {t : Turn KeyDb KeyCall} {id : ApiKeyId}
    (h : c.turn S db m = some t) (revoked : db.Revoked id) : t.store.Revoked id := by
  cases m with
  | statement w => exact c.statement_revoked h revoked
  | error =>
    obtain ⟨_, hit⟩ := Option.ite_none_right_eq_some.mp h
    obtain rfl := Option.some.inj hit
    exact revoked
  | lost w =>
    obtain ⟨t', ht, rfl⟩ := Option.map_eq_some_iff.mp h
    have after : t'.store.Revoked id := c.statement_revoked ht revoked
    exact after

/-- A key that was revoked at some moment of a run is revoked at its end. -/
theorem KeyRun.revoked (run : KeyRun S log p) {u : Keyring} (hu : u ∈ moments log p)
    {id : ApiKeyId} (revoked : u.store.Revoked id) : p.store.Revoked id := by
  have moments := (run.pairwise_moments
    (R := fun s t => s.store.Revoked id → t.store.Revoked id) (fun _ h => h)
    (fun _ _ _ first second h => second (first h))).mpr ?_
  · exact pairwise_last (fun _ h => h) moments hu revoked
  · intro e _ v hs revoked
    match e, hs with
    | (s, .arrive r), hs =>
      obtain ⟨_, _, rfl⟩ := Pool.step_arrive hs
      exact revoked
    | (s, .turn i m), hs =>
      obtain ⟨c, t, _, ht, rfl⟩ := Pool.step_turn hs
      exact c.turn_revoked ht revoked

/-! ## Requests -/

/-- Where the phase of a `requireKey` comes from. -/
def KeyHistory (S : KeyService) (log : List (Keyring × Act KeyRequest KeyMove)) (i : Nat) : KeyCall → Prop
  | .require authorization _ (.select raw kind) => requireEntry authorization = .select raw kind
  | .require authorization allowed (.done r) => requireEntry authorization = .done r ∨
      ∃ raw kind s m, requireEntry authorization = .select raw kind ∧ (s, .turn i m) ∈ log ∧
        r = decideKey allowed (lookupApiKey S s.store raw kind)
  | _ => True

theorem KeyRun.asked (run : KeyRun S log p) :
    ∀ i c, p.calls[i]? = some c → KeyHistory S log i c := by
  refine Pool.call_history (K := KeyHistory S) ?_ ?_ ?_ ?_ ?_ run
  · intro log q a i c _ asked
    match c, asked with
    | .require authorization _ (.select raw kind), asked => exact asked
    | .require authorization allowed (.done r), .inl asked => exact .inl asked
    | .require authorization allowed (.done r), .inr ⟨raw, kind, s, m, entry, logged, eq⟩ =>
      exact .inr ⟨raw, kind, s, m, entry, List.mem_append_left _ logged, eq⟩
    | .require _ _ .failed, _ => trivial
    | .bootstrap .., _ | .touch .., _ | .revoke .., _ | .setDisabled .., _ => trivial
  · intro i c h
    simp at h
  · intro d r c h log i _
    cases h
    cases r with
    | require authorization allowed =>
      show KeyHistory S log i (.require authorization allowed (requireEntry authorization))
      cases entry : requireEntry authorization with
      | select raw kind => exact entry
      | done r => exact .inl entry
      | failed => trivial
    | _ => trivial
  · intro log q i c m t _ _ turned n hn log i _
    cases m with
    | statement w =>
      cases c with
      | require authorization allowed phase =>
        cases phase with
        | select raw kind =>
          cases turned
          obtain ⟨_, _, rfl⟩ := List.mem_map.mp hn
          trivial
        | _ => cases turned
      | bootstrap name phase =>
        obtain ⟨_, _, rfl⟩ := Option.map_eq_some_iff.mp turned
        cases hn
      | touch id isDone => cases isDone <;> cases turned; cases hn
      | revoke id isDone => cases isDone <;> cases turned; cases hn
      | setDisabled appId off isDone => cases isDone <;> cases turned; cases hn
    | error =>
      obtain ⟨_, hit⟩ := Option.ite_none_right_eq_some.mp turned
      obtain rfl := Option.some.inj hit
      cases hn
    | lost w =>
      obtain ⟨t', _, rfl⟩ := Option.map_eq_some_iff.mp turned
      cases hn
  · intro log q i c m t _ _ turned asked
    have threw : KeyHistory S (log ++ [(q, .turn i m)]) i c.failed := by cases c <;> trivial
    cases m with
    | statement w =>
      cases c with
      | require authorization allowed phase =>
        cases phase with
        | select raw kind =>
          cases turned
          exact .inr ⟨raw, kind, q, .statement w, asked, by simp, rfl⟩
        | _ => cases turned
      | bootstrap name phase =>
        obtain ⟨_, _, rfl⟩ := Option.map_eq_some_iff.mp turned
        trivial
      | touch id isDone => cases isDone <;> cases turned; trivial
      | revoke id isDone => cases isDone <;> cases turned; trivial
      | setDisabled appId off isDone => cases isDone <;> cases turned; trivial
    | error =>
      obtain ⟨_, hit⟩ := Option.ite_none_right_eq_some.mp turned
      obtain rfl := Option.some.inj hit
      exact threw
    | lost w =>
      obtain ⟨t', _, rfl⟩ := Option.map_eq_some_iff.mp turned
      exact threw

/-- What is answered without a query. -/
theorem verdict_of_entry (keyed : Keyed S keys db) {authorization : Option Text}
    {allowed : List ApiKeyKind} {r : Except KeyRejection AuthedKey}
    (entry : requireEntry authorization = .done r) :
    r = verdict keys db authorization allowed := by
  unfold requireEntry at entry
  unfold verdict
  cases bearer : extractBearer authorization with
  | none =>
    rw [bearer] at entry
    cases entry
    rfl
  | some tok =>
    simp only [bearer] at entry
    cases told : keyPrefixKind tok with
    | none =>
      rw [told] at entry
      cases entry
      simp [find?_untold keyed told, decideKey]
    | some kind =>
      rw [told] at entry
      cases entry

/-- What is answered with one. -/
theorem verdict_of_lookup (keyed : Keyed S keys db) {authorization : Option Text}
    {allowed : List ApiKeyKind} {raw : Text} {kind : Option ApiKeyKind}
    (entry : requireEntry authorization = .select raw kind)
    (apart : ∀ tok, extractBearer authorization = some tok →
      ∀ k ∈ keys, S.hash tok = S.hash k.1 → tok = k.1) :
    decideKey allowed (lookupApiKey S db raw kind) = verdict keys db authorization allowed := by
  unfold requireEntry at entry
  unfold verdict
  cases bearer : extractBearer authorization with
  | none =>
    rw [bearer] at entry
    cases entry
  | some tok =>
    simp only [bearer] at entry
    cases told : keyPrefixKind tok with
    | none =>
      rw [told] at entry
      cases entry
    | some kind =>
      rw [told] at entry
      cases entry
      show decideKey allowed _ = decideKey allowed _
      rw [lookupApiKey_eq keyed told (apart _ bearer)]

/-- A key that a verdict lets in is in force. -/
theorem live_of_verdict {authorization : Option Text} {allowed : List ApiKeyKind} {key : AuthedKey}
    (let_in : verdict keys db authorization allowed = .ok key) : db.live key = true := by
  unfold verdict at let_in
  cases bearer : extractBearer authorization with
  | none =>
    rw [bearer] at let_in
    cases let_in
  | some tok =>
    simp only [bearer] at let_in
    cases found : ((keys.find? (·.1 = tok)).map (·.2)).filter db.live with
    | none => simp [found, decideKey] at let_in
    | some k =>
      have live : db.live k = true := (Option.filter_eq_some_iff.mp found).2
      simp only [found, decideKey] at let_in
      split at let_in
      · cases let_in
        exact live
      · cases let_in

end

namespace KeyScript

def world : KeyWorld := ⟨0, id, fun i => i.toUInt8⟩

def publicKey : Text := generateApiKey (text "pk_live") world.bytes

def secretKey : Text := generateApiKey (text "sk_live") fun i => world.bytes (32 + i)

def masterKey : List UInt8 := List.replicate 32 0x5f

def bytes (s : Text) : List UInt8 := s.map UInt16.toUInt8

/-- What the real function gives for the two keys, in the domain of keys. -/
def mac (key message : List UInt8) : List UInt8 :=
  if key = masterKey ∧ message = bytes (text "api_key:" ++ publicKey) then
    [136, 28, 239, 27, 225, 197, 22, 16, 26, 144, 147, 244, 245, 105, 245, 220, 39, 149, 151, 84,
     184, 162, 46, 75, 233, 37, 3, 234, 236, 68, 74, 221]
  else if key = masterKey ∧ message = bytes (text "api_key:" ++ secretKey) then
    [85, 46, 226, 80, 54, 58, 197, 197, 49, 240, 221, 80, 7, 218, 41, 195, 131, 234, 128, 69,
     145, 104, 95, 31, 69, 6, 91, 61, 39, 45, 235, 114]
  else List.replicate 32 0

theorem length_mac (key message : List UInt8) : (mac key message).length = 32 := by
  unfold mac
  split
  · rfl
  · split
    · rfl
    · exact List.length_replicate

def service : KeyService where
  primitives :=
    { utf8 := bytes
      sha256 := fun _ => List.replicate 32 0
      hmacSha256 := mac
      utf8_ascii := fun _ _ => rfl
      sha256_length := fun _ => List.length_replicate
      hmacSha256_length := length_mac }
  masterKeyHex := hex masterKey

def authorization : Option Text := some (text "Bearer " ++ secretKey)

/-- An app gets its keys and shows its secret one, before and after that is revoked. -/
def acts : List (Act KeyRequest KeyMove) :=
  [.arrive (.bootstrap (text "a")), .turn 0 (.statement world), .turn 0 (.statement world),
    .arrive (.require authorization [.secretKey]), .turn 1 (.statement world),
    .arrive (.revoke ⟨2⟩), .turn 3 (.statement world),
    .arrive (.require authorization [.secretKey]), .turn 4 (.statement world)]

theorem shown : ∃ log p, KeyRun service log p ∧
    (p.calls[1]? = some (.require authorization [.secretKey]
        (.done (.ok ⟨⟨2⟩, newId .app 0, .secretKey⟩))) ∧
      p.calls[4]? = some (.require authorization [.secretKey] (.done (.error .unknown))) ∧
      extractBearer authorization = some secretKey ∧
      ∀ k ∈ issued service log, service.hash secretKey = service.hash k.1 → secretKey = k.1) :=
  @run_of_exec_any _ _ _ acts _ _ _ (by decide +kernel)

end KeyScript

end Syrotp
