import Syrotp.Sdk.PythonRecords
import Syrotp.Sdk.Proofs.RetryContract

/-!
# Decoding a response

What a method of the client comes to is settled by the last response: an error of the class that
the contract has for its status, or the verification of its body with every member kept. A response
that the client cannot read is the exception: a body that is empty or lacks a required member, and
one that Python gives up loading. So is an attempt that `httpx` turns away with something else than
an `HTTPError`: the pattern of an id lets a newline through at the end, and no address may have one.
-/

namespace Syrotp.Sdk.Records

open Py

variable {d : Decoder} {res : HttpResponse} {a : Arrival HttpResponse}

/-! ## What the contract has -/

/-- The seconds that a `Retry-After` header asks for: it is an integer with any white space around
it, and a negative one asks for none. -/
def AsksFor (header : Option Str) (n : Nat) : Prop :=
  ∃ before t after z, header = some (before ++ t ++ after) ∧ (∀ c ∈ before, isSpace c = true) ∧
    (∀ c ∈ after, isSpace c = true) ∧ Spells t z ∧ n = z.toNat

/-- The class the contract assigns; the base class where it assigns none. -/
inductive Assigned : Arrival HttpResponse → ErrorClass → Prop
  | timeout {message} : Assigned (.timeoutException message) .timeout
  | network {message} : Assigned (.httpError message) .network
  | validation {res : HttpResponse} (status : res.statusCode = 400) :
      Assigned (.response res) .validation
  | auth {res : HttpResponse} (status : res.statusCode = 401 ∨ res.statusCode = 403) :
      Assigned (.response res) .auth
  | rateLimit {res : HttpResponse} {value} (status : res.statusCode = 429)
      (asked : ∀ n, value = some n ↔ AsksFor res.retryAfter n) :
      Assigned (.response res) (.rateLimit value)
  | server {res : HttpResponse} (status : 500 ≤ res.statusCode ∧ res.statusCode < 600) :
      Assigned (.response res) .server
  | base {res : HttpResponse} (other : res.statusCode ∉ [400, 401, 403, 429])
      (below : ¬(500 ≤ res.statusCode ∧ res.statusCode < 600)) : Assigned (.response res) .base

/-- Another attempt follows, if retries are left. -/
def transient : Arrival HttpResponse → Bool
  | .timeoutException _ | .exception _ => false
  | .httpError _ => true
  | .response res =>
    res.statusCode = 429 || (500 ≤ res.statusCode && res.statusCode < 600 : Bool)

/-- The response asks for a wait of so many seconds. -/
def Asks : Arrival HttpResponse → Nat → Prop
  | .response res, n => res.statusCode = 429 ∧ AsksFor res.retryAfter n
  | _, _ => False

/-- Nothing of the body is lost. -/
structure Lossless (members : Members) (v : Verification) : Prop where
  id : members.lookup (text "id") = some v.id
  status : ∃ raw, members.lookup (text "status") = some raw ∧
    ∀ s, s ≠ .unknown → (v.status = s ↔ raw = .string s.value)
  phoneMasked : members.lookup (text "phone_masked") = some v.phoneMasked
  expiresAt : members.lookup (text "expires_at") = some v.expiresAt
  createdAt : members.lookup (text "created_at") = some v.createdAt
  sendTo : (members.lookup (text "send_to")).getD .null = v.sendTo
  message : (members.lookup (text "message")).getD .null = v.message
  clientRef : (members.lookup (text "client_ref")).getD .null = v.clientRef
  purpose : (members.lookup (text "purpose")).getD .null = v.purpose
  verifiedAt : (members.lookup (text "verified_at")).getD .null = v.verifiedAt
  attempts : (members.lookup (text "attempts")).getD .null = v.attempts
  extras : ∀ key, v.extras.lookup key = if key ∈ known then none else members.lookup key

/-- The body of a 2xx is this JSON object. -/
def Decoder.Holds (d : Decoder) (a : Arrival HttpResponse) (members : Members) : Prop :=
  ∃ res, a = .response res ∧ res.isSuccess ∧
    d.loadsBytes res.content = .value (.object members)

/-- The ending is what the contract has for the last response. -/
def Decoded (d : Decoder) (a : Arrival HttpResponse) : Ending Verification → Prop
  | .returned v => ∃ members, d.Holds a members ∧ Lossless members v
  | .raised (.syrotp e) => Assigned a e.errorClass
  | .raised _ => False

/-! ## What the client can read -/

def required : List Text := ["id", "status", "phone_masked", "expires_at", "created_at"].map text

/-- `str` renders the members of an `error` that are used. -/
def Decoder.Renders (d : Decoder) (err : Members) : Prop :=
  (∀ key ∈ [text "code", text "message"], ∀ v, err.lookup key = some v → v.truthy = true →
    (d.str v).isSome) ∧
  ∀ v, err.lookup (text "request_id") = some v → v ≠ .null → (d.str v).isSome

/-- The error in a body can be read. -/
def Decoder.ReadableError (d : Decoder) (bodyText : Text) : Prop :=
  bodyText = [] ∨
    match d.loads bodyText with
    | .valueError | .recursionError => False
    | .value (.object body) =>
      ∀ err, body.lookup (text "error") = some (.object err) → d.Renders err
    | _ => True

/-- The body of a response can be read. -/
def Decoder.Readable (d : Decoder) : Arrival HttpResponse → Prop
  | .timeoutException _ | .httpError _ => True
  | .exception _ => False
  | .response res =>
    if res.isSuccess then
      res.text ≠ [] ∧
        match d.loadsBytes res.content with
        | .recursionError => False
        | .value (.object members) => ∀ key ∈ required, (members.lookup key).isSome
        | _ => True
    else d.ReadableError res.text

/-! ## Errors -/

theorem strOr_cases (member : Option Json) (default : String) :
    (∃ v, member = some v ∧ v.truthy = true ∧ d.str v = none ∧
        d.strOr member default = .error .recursionError) ∨
      (∀ v, member = some v → v.truthy = true → (d.str v).isSome) ∧
        ∃ s, d.strOr member default = .ok s := by
  unfold Decoder.strOr
  cases member with
  | none => exact .inr ⟨nofun, default, rfl⟩
  | some v =>
    by_cases truthy : v.truthy = true
    · cases rendered : d.str v with
      | none => exact .inl ⟨v, rfl, truthy, rendered, by simp [truthy, rendered]⟩
      | some s =>
        exact .inr ⟨fun _ same _ => by simp [← Option.some.inj same, rendered],
          s, by simp [truthy, rendered]⟩
    · exact .inr ⟨fun _ same on => absurd (Option.some.inj same ▸ on) truthy,
        default, by simp [truthy]⟩

theorem strUnlessNone_cases (rid : Option Json) :
    (∃ v, rid = some v ∧ v ≠ .null ∧ d.str v = none ∧
        d.strUnlessNone rid = .error .recursionError) ∨
      (∀ v, rid = some v → v ≠ .null → (d.str v).isSome) ∧
        ∃ s, d.strUnlessNone rid = .ok s := by
  unfold Decoder.strUnlessNone
  split
  · exact .inr ⟨nofun, none, rfl⟩
  · exact .inr ⟨fun _ same other => absurd (Option.some.inj same).symm other, none, rfl⟩
  · next v other =>
    cases rendered : d.str v with
    | none => exact .inl ⟨v, rfl, fun null => other (null ▸ rfl), rendered, rfl⟩
    | some s =>
      exact .inr ⟨fun _ same _ => by simp [← Option.some.inj same, rendered], _, rfl⟩

/-- The fields of an `error` are rendered one by one. -/
theorem fields_cases (err : Members) (code message : String) :
    let fields : Except PyError (String × String × Option Text) := do
      let code ← d.strOr (err.lookup (text "code")) code
      let message ← d.strOr (err.lookup (text "message")) message
      let requestId ← d.strUnlessNone (err.lookup (text "request_id"))
      return (code, message, requestId)
    (d.Renders err ∧ ∃ r, fields = .ok r) ∨
      (¬d.Renders err ∧ ∃ e, fields = .error e ∧ ∀ own, e ≠ .syrotp own) := by
  intro fields
  rcases strOr_cases (d := d) (err.lookup (text "code")) code with
    ⟨v, here, truthy, none, raises⟩ | ⟨renders, code', reads⟩
  · refine .inr ⟨fun all => ?_, .recursionError, by simp only [fields, raises]; rfl, nofun⟩
    simpa [none] using all.1 _ (by simp) v here truthy
  rcases strOr_cases (d := d) (err.lookup (text "message")) message with
    ⟨v, here, truthy, none, raises⟩ | ⟨renders', message', reads'⟩
  · refine .inr ⟨fun all => ?_, .recursionError, by simp only [fields, reads, raises]; rfl,
      nofun⟩
    simpa [none] using all.1 _ (by simp) v here truthy
  rcases strUnlessNone_cases (d := d) (err.lookup (text "request_id")) with
    ⟨v, here, given, none, raises⟩ | ⟨renders'', requestId, reads''⟩
  · refine .inr ⟨fun all => ?_, .recursionError, by simp only [fields, reads, reads', raises]; rfl,
      nofun⟩
    simpa [none] using all.2 v here given
  · refine .inl ⟨⟨?_, renders''⟩, (code', message', requestId),
      by simp only [fields, reads, reads', reads'']; rfl⟩
    intro key chosen v here truthy
    rcases List.mem_pair.mp chosen with rfl | rfl
    · exact renders v here truthy
    · exact renders' v here truthy

/-- `_error_from_response` gets its fields exactly if the error can be read; where it does not,
Python raises an error of its own. -/
theorem errorFields_cases (status : Nat) (bodyText : Text) :
    (d.ReadableError bodyText ∧ ∃ r, d.errorFields status bodyText = .ok r) ∨
      (¬d.ReadableError bodyText ∧ ∃ e, d.errorFields status bodyText = .error e ∧
        ∀ own, e ≠ .syrotp own) := by
  unfold Decoder.ReadableError Decoder.errorFields
  by_cases empty : bodyText = []
  · rw [empty]
    exact .inl ⟨.inl rfl, _, rfl⟩
  · simp only [empty, List.isEmpty_iff, if_false, false_or]
    cases loaded : d.loads bodyText with
    | decodeError => exact .inl ⟨trivial, _, rfl⟩
    | valueError => exact .inr ⟨id, _, rfl, nofun⟩
    | recursionError => exact .inr ⟨id, _, rfl, nofun⟩
    | value v =>
      cases v with
      | object body =>
        dsimp only
        split
        · next err here =>
          simp only [here, Option.some.injEq, Json.object.injEq, forall_eq']
          exact fields_cases err _ _
        · next other =>
          refine .inl ⟨fun err here => absurd here (other err), _, rfl⟩
      | null => exact .inl ⟨trivial, _, rfl⟩
      | bool b => exact .inl ⟨trivial, _, rfl⟩
      | int n => exact .inl ⟨trivial, _, rfl⟩
      | float bits => exact .inl ⟨trivial, _, rfl⟩
      | string s => exact .inl ⟨trivial, _, rfl⟩
      | array items => exact .inl ⟨trivial, _, rfl⟩

/-! ## Records -/

theorem lookup_filter (data : Members) (keep : Text → Bool) (key : Text) :
    (data.filter fun m => keep m.1).lookup key = if keep key then data.lookup key else none := by
  induction data with
  | nil => simp
  | cons m data ih =>
    rcases m with ⟨name, v⟩
    by_cases same : key = name
    · subst same
      by_cases kept : keep key = true
      · simp [kept]
      · simp [kept, ih]
    · have apart : (key == name) = false := beq_eq_false_iff_ne.mpr same
      by_cases kept : keep name = true
      · simp [kept, List.lookup_cons, apart, ih]
      · simp [kept, List.lookup_cons, apart, ih]

theorem value_injective : ∀ s t : VerificationStatus, s.value = t.value → s = t := by
  intro s t
  cases s <;> cases t <;> decide

/-- A status that is known is kept, and no other becomes one. -/
theorem ofJson_eq_iff {raw : Json} {s : VerificationStatus} (other : s ≠ .unknown) :
    VerificationStatus.ofJson raw = s ↔ raw = .string s.value := by
  cases raw with
  | string written =>
    rw [VerificationStatus.ofJson, Json.string.injEq]
    cases found : VerificationStatus.members.find? fun status => status.value = written with
    | none =>
      refine ⟨fun unknown => absurd unknown.symm other, fun same => ?_⟩
      have member : s ∈ VerificationStatus.members := by cases s <;> decide
      simpa [same] using List.find?_eq_none.mp found s member
    | some t =>
      have same : t.value = written := by simpa using List.find?_some found
      rw [Option.getD_some, ← same]
      exact ⟨fun eq => eq ▸ rfl, fun eq => value_injective t s eq⟩
  | null => exact ⟨fun unknown => absurd unknown.symm other, nofun⟩
  | bool b => exact ⟨fun unknown => absurd unknown.symm other, nofun⟩
  | int n => exact ⟨fun unknown => absurd unknown.symm other, nofun⟩
  | float bits => exact ⟨fun unknown => absurd unknown.symm other, nofun⟩
  | array items => exact ⟨fun unknown => absurd unknown.symm other, nofun⟩
  | object members => exact ⟨fun unknown => absurd unknown.symm other, nofun⟩

theorem item_some {data : Members} {key : Text} {v : Json} (here : data.lookup key = some v) :
    item data key = .ok v := by
  rw [item, here]

theorem item_none {data : Members} {key : Text} (missing : data.lookup key = none) :
    item data key = .error (.keyError key) := by
  rw [item, missing]

/-- Where a required member is missing, the record is not decoded. -/
theorem fromDict_raises {data : Members} (missing : ¬∀ key ∈ required, (data.lookup key).isSome) :
    ∃ key, fromDict data = .error (.keyError key) := by
  cases id : data.lookup (text "id") with
  | none => exact ⟨_, by simp only [fromDict, item_none id]; rfl⟩
  | some idV =>
  cases status : data.lookup (text "status") with
  | none => exact ⟨_, by simp only [fromDict, item_some id, item_none status]; rfl⟩
  | some statusV =>
  cases phone : data.lookup (text "phone_masked") with
  | none =>
    exact ⟨_, by simp only [fromDict, item_some id, item_some status, item_none phone]; rfl⟩
  | some phoneV =>
  cases expires : data.lookup (text "expires_at") with
  | none =>
    exact ⟨_, by
      simp only [fromDict, item_some id, item_some status, item_some phone, item_none expires]
      rfl⟩
  | some expiresV =>
  cases created : data.lookup (text "created_at") with
  | none =>
    exact ⟨_, by
      simp only [fromDict, item_some id, item_some status, item_some phone, item_some expires,
        item_none created]
      rfl⟩
  | some createdV =>
    refine absurd (fun key member => ?_) missing
    simp only [required, List.map_cons, List.map_nil, List.mem_cons, List.not_mem_nil,
      or_false] at member
    rcases member with rfl | rfl | rfl | rfl | rfl <;>
      simp only [id, status, phone, expires, created, Option.isSome_some]

/-- Where they are there, nothing is lost. -/
theorem fromDict_lossless {data : Members} (all : ∀ key ∈ required, (data.lookup key).isSome) :
    ∃ v, fromDict data = .ok v ∧ Lossless data v := by
  have read : ∀ key ∈ required, ∃ v, data.lookup key = some v :=
    fun key member => Option.isSome_iff_exists.mp (all key member)
  obtain ⟨idV, id⟩ := read (text "id") (by decide)
  obtain ⟨statusV, status⟩ := read (text "status") (by decide)
  obtain ⟨phoneV, phone⟩ := read (text "phone_masked") (by decide)
  obtain ⟨expiresV, expires⟩ := read (text "expires_at") (by decide)
  obtain ⟨createdV, created⟩ := read (text "created_at") (by decide)
  refine ⟨_, by
    simp only [fromDict, item_some id, item_some status, item_some phone, item_some expires,
      item_some created]
    rfl, ?_⟩
  exact {
    id := id
    status := ⟨statusV, status, fun s => ofJson_eq_iff⟩
    phoneMasked := phone
    expiresAt := expires
    createdAt := created
    sendTo := rfl
    message := rfl
    clientRef := rfl
    purpose := rfl
    verifiedAt := rfl
    attempts := rfl
    extras := fun key => by
      rw [lookup_filter data (fun key => !known.contains key) key]
      by_cases k : key ∈ known <;> simp [k] }

/-- A record is decoded exactly if it has the members that are required. -/
theorem fromDict_cases (data : Members) :
    ((∀ key ∈ required, (data.lookup key).isSome) ∧
        ∃ v, fromDict data = .ok v ∧ Lossless data v) ∨
      (¬(∀ key ∈ required, (data.lookup key).isSome) ∧
        ∃ key, fromDict data = .error (.keyError key)) := by
  by_cases all : ∀ key ∈ required, (data.lookup key).isSome
  · exact .inl ⟨all, fromDict_lossless all⟩
  · exact .inr ⟨all, fromDict_raises all⟩

/-! ## One response -/

theorem parseRetryAfter_eq_some_iff {header : Option Str} {n : Nat} :
    parseRetryAfter header = some n ↔ AsksFor header n := by
  unfold AsksFor
  cases header with
  | none => simp [parseRetryAfter]
  | some value =>
    have read : parseRetryAfter (some value) = some n ↔
        ∃ z, pyInt (strip value) = some z ∧ z.toNat = n := by
      by_cases empty : value = []
      · subst empty
        simp [parseRetryAfter, show pyInt (strip []) = none by decide]
      · simp [parseRetryAfter, empty]
    rw [read]
    constructor
    · rintro ⟨z, spelled, rfl⟩
      obtain ⟨before, t, after, rfl, lead, trail, spelled⟩ := pyInt_strip_eq_some_iff.mp spelled
      exact ⟨before, t, after, z, rfl, lead, trail, spelled, rfl⟩
    · rintro ⟨before, t, after, z, same, lead, trail, spelled, rfl⟩
      exact ⟨z, pyInt_strip_eq_some_iff.mpr ⟨before, t, after, Option.some.inj same, lead, trail,
        spelled⟩, rfl⟩

theorem errorClass_assigned (res : HttpResponse) : Assigned (.response res) res.errorClass := by
  unfold HttpResponse.errorClass
  split
  · next status => exact .auth status
  · next auth =>
    split
    · next status => exact .validation status
    · next validation =>
      split
      · next status => exact .rateLimit status fun n => parseRetryAfter_eq_some_iff
      · next limit =>
        split
        · next status => exact .server status
        · next below => exact .base (by simp; omega) below

theorem assigned_success (h : res.isSuccess) : Assigned (.response res) .base := by
  have low := h.1
  have high := h.2
  exact .base (by simp; omega) (by omega)

/-- An error of the client is retriable exactly where the response is transient. -/
theorem isRetriable_eq {e : SyrotpError} (assigned : Assigned a e.errorClass) :
    isRetriable e = transient a := by
  rcases e with ⟨errorClass, code, message, status, requestId⟩
  cases assigned with
  | timeout => rfl
  | network => rfl
  | validation status => simp [isRetriable, transient, status]
  | auth status => rcases status with status | status <;> simp [isRetriable, transient, status]
  | rateLimit status asked => simp [isRetriable, transient, status]
  | server status => simp [isRetriable, transient, status]
  | base other below =>
    simp only [List.mem_cons, not_or] at other
    simp only [isRetriable, transient, other, decide_false, Bool.false_or]
    simpa using below

theorem transient_success (h : res.isSuccess) : transient (.response res) = false := by
  have low := h.1
  have high := h.2
  simp [transient]
  omega

/-- What a response comes to that the client can read. -/
inductive Understood (d : Decoder) (a : Arrival HttpResponse) : Except PyError Members → Prop
  | record {data v} (decoded : fromDict data = .ok v) (holds : d.Holds a data)
      (lossless : Lossless data v) (last : transient a = false) : Understood d a (.ok data)
  | error {e : SyrotpError} (assigned : Assigned a e.errorClass) :
      Understood d a (.error (.syrotp e))

/-- What another comes to. -/
inductive Escaped : Except PyError Members → Prop
  | keyError {data key} (missing : fromDict data = .error (.keyError key)) : Escaped (.ok data)
  | raised {e} (foreign : ∀ own, e ≠ .syrotp own) : Escaped (.error e)

theorem onResponse_failure (failure : ¬res.isSuccess) :
    (d.Readable (.response res) ∧ Understood d (.response res) (d.onResponse res)) ∨
      (¬d.Readable (.response res) ∧ Escaped (d.onResponse res)) := by
  rw [Decoder.onResponse, if_neg failure, Decoder.Readable, if_neg failure,
    Decoder.errorFromResponse]
  rcases errorFields_cases (d := d) res.statusCode res.text with
    ⟨readable, ⟨code, message, requestId⟩, fields⟩ | ⟨unreadable, e, fields, foreign⟩
  · rw [fields]
    exact .inl ⟨readable, .error (errorClass_assigned res)⟩
  · rw [fields]
    exact .inr ⟨unreadable, .raised foreign⟩

theorem onResponse_success (success : res.isSuccess) :
    (d.Readable (.response res) ∧ Understood d (.response res) (d.onResponse res)) ∨
      (¬d.Readable (.response res) ∧ Escaped (d.onResponse res)) := by
  have base : Assigned (.response res) .base := assigned_success success
  rw [Decoder.onResponse, if_pos success, Decoder.Readable, if_pos success]
  by_cases empty : res.text = []
  · rw [empty]
    exact .inr ⟨fun readable => readable.1 rfl, .keyError rfl⟩
  · rw [if_neg (by simpa using empty)]
    cases loaded : d.loadsBytes res.content with
    | decodeError => exact .inl ⟨⟨empty, trivial⟩, .error base⟩
    | valueError => exact .inl ⟨⟨empty, trivial⟩, .error base⟩
    | recursionError => exact .inr ⟨fun readable => readable.2, .raised nofun⟩
    | value v =>
      cases v with
      | object data =>
        rcases fromDict_cases data with ⟨whole, v, decoded, lossless⟩ | ⟨partial', key, missing⟩
        · exact .inl ⟨⟨empty, whole⟩, .record decoded ⟨res, rfl, success, loaded⟩ lossless
            (transient_success success)⟩
        · exact .inr ⟨fun readable => partial' readable.2, .keyError missing⟩
      | null => exact .inl ⟨⟨empty, trivial⟩, .error base⟩
      | bool b => exact .inl ⟨⟨empty, trivial⟩, .error base⟩
      | int n => exact .inl ⟨⟨empty, trivial⟩, .error base⟩
      | float bits => exact .inl ⟨⟨empty, trivial⟩, .error base⟩
      | string s => exact .inl ⟨⟨empty, trivial⟩, .error base⟩
      | array items => exact .inl ⟨⟨empty, trivial⟩, .error base⟩

/-- Whether a call comes to what the contract has for it is settled by what the client can read. -/
theorem outcome_cases (d : Decoder) (a : Arrival HttpResponse) :
    (d.Readable a ∧ Understood d a (a.outcome d.onResponse)) ∨
      (¬d.Readable a ∧ Escaped (a.outcome d.onResponse)) := by
  cases a with
  | timeoutException message => exact .inl ⟨trivial, .error .timeout⟩
  | httpError message => exact .inl ⟨trivial, .error .network⟩
  | exception name => exact .inr ⟨id, .raised nofun⟩
  | response res =>
    by_cases success : res.isSuccess
    · exact onResponse_success success
    · exact onResponse_failure success

theorem transient_of_asks {n : Nat} (h : Asks a n) : transient a = true := by
  cases a with
  | response res => simp [transient, h.1]
  | timeoutException message => exact h.elim
  | httpError message => exact h.elim
  | exception name => exact h.elim

theorem assigned_rateLimit {errorClass : ErrorClass} {n : Nat} (assigned : Assigned a errorClass) :
    errorClass = .rateLimit (some n) ↔ Asks a n := by
  cases assigned with
  | timeout => simp [Asks]
  | network => simp [Asks]
  | validation status => simp [Asks, status]
  | auth status => rcases status with status | status <;> simp [Asks, status]
  | rateLimit status asked => simp [Asks, status, asked]
  | server status => simpa [Asks] using fun limit => absurd limit (by omega)
  | base other below =>
    simp only [List.mem_cons, not_or] at other
    simp [Asks, other]

/-! ## A request -/

section Request

variable {c : Client} {transport : Nat → Arrival HttpResponse} {retries k : Nat}

/-- A wait that the client can make. -/
def Client.Waits (c : Client) (a : Arrival HttpResponse) : Prop :=
  ∀ n, Asks a n → ∃ f : Nat, toDouble n = some f ∧ (f : ℚ) ≤ c.sleeper.longest

theorem transient_of_not_waits (h : ¬c.Waits a) : transient a = true := by
  by_contra off
  exact h fun n asks => absurd (transient_of_asks asks) off

theorem exchange_outcome : (c.exchange transport retries).outcome k =
    (transport k).outcome c.decoder.onResponse := rfl

theorem exchange_retried : (c.exchange transport retries).retried k = true ↔
    c.decoder.Readable (transport k) ∧ transient (transport k) = true := by
  rw [retried_iff, exchange_outcome]
  have cases' := outcome_cases c.decoder (transport k)
  generalize (transport k).outcome c.decoder.onResponse = came at cases' ⊢
  rcases cases' with ⟨readable, come⟩ | ⟨unreadable, come⟩
  · cases come with
    | record decoded holds lossless last => simp [last]
    | error assigned => simp [readable, isRetriable_eq assigned]
  · refine iff_of_false ?_ fun both => unreadable both.1
    rintro ⟨e, rfl, -⟩
    cases come with
    | raised foreign => exact foreign e rfl

theorem exchange_retryAfter {n : Nat} : (c.exchange transport retries).retryAfter k = some n ↔
    c.decoder.Readable (transport k) ∧ Asks (transport k) n := by
  rw [retryAfter_eq_some, exchange_outcome]
  have cases' := outcome_cases c.decoder (transport k)
  generalize (transport k).outcome c.decoder.onResponse = came at cases' ⊢
  rcases cases' with ⟨readable, come⟩ | ⟨unreadable, come⟩
  · cases come with
    | record decoded holds lossless last =>
      refine iff_of_false (by simp) fun both => ?_
      exact absurd (transient_of_asks both.2) (by simp [last])
    | error assigned => simp [readable, assigned_rateLimit assigned]
  · refine iff_of_false ?_ fun both => unreadable both.1
    rintro ⟨e, rfl, -⟩
    cases come with
    | raised foreign => exact foreign e rfl

theorem exchange_goesOn : (c.exchange transport retries).goesOn c.sleeper k = true ↔
    c.decoder.Readable (transport k) ∧ transient (transport k) = true ∧ c.Waits (transport k) := by
  by_cases again : (c.exchange transport retries).retried k = true
  · obtain ⟨readable, more⟩ := exchange_retried.mp again
    rw [goesOn_iff again]
    simp only [exchange_retryAfter, readable, more, true_and, Client.Waits]
  · refine iff_of_false (fun goes => again (goesOn_retried goes)) fun all => again ?_
    exact exchange_retried.mpr ⟨all.1, all.2.1⟩

/-- The result is what the contract has for the last response: the first that is not transient, or
the one that uses up the retries. -/
def Client.Answers (c : Client) (transport : Nat → Arrival HttpResponse) (retries : Nat)
    (result : Ending Verification) : Prop :=
  ∃ k, Reached (fun j => transient (transport j)) retries k ∧
    (k = retries ∨ transient (transport k) = false) ∧ Decoded c.decoder (transport k) result

/-- The client can read every response it gets, and make every wait it is asked for. -/
def Client.Reads (c : Client) (transport : Nat → Arrival HttpResponse) (retries : Nat) : Prop :=
  ∀ k, Reached (fun j => transient (transport j)) retries k →
    c.decoder.Readable (transport k) ∧ (k < retries → c.Waits (transport k))

/-- How a request ends whose last attempt is `k`. -/
theorem request_last (made : Reached ((c.exchange transport retries).goesOn c.sleeper) retries k)
    (last : k = retries ∨ (c.exchange transport retries).goesOn c.sleeper k = false) :
    ((c.exchange transport retries).execute c.sleeper).2 =
      (c.exchange transport retries).stop (retries - k) k := by
  have same : (c.exchange transport retries).last c.sleeper = k := lastFrom_eq made last
  rw [execute_ending (Int.natCast_nonneg retries), same]
  rfl

theorem Understood.decoded {r : Except PyError Members} (h : Understood d a r)
    (ends : ((c.exchange transport retries).execute c.sleeper).2 = .of r) :
    Decoded d a (c.request transport retries) := by
  rw [Client.request, ends]
  cases h with
  | record decoded holds lossless last =>
    simp only [Ending.of, Records.record, decoded]
    exact ⟨_, holds, lossless⟩
  | error assigned => exact assigned

theorem Escaped.not_decoded {r : Except PyError Members} (h : Escaped r)
    (ends : ((c.exchange transport retries).execute c.sleeper).2 = .of r) :
    ¬Decoded d a (c.request transport retries) := by
  rw [Client.request, ends]
  cases h with
  | keyError missing => simp [Ending.of, Records.record, missing, Decoded]
  | @raised e foreign =>
    cases e with
    | syrotp own => exact absurd rfl (foreign own)
    | exception name => exact id
    | valueError => exact id
    | overflowError => exact id
    | recursionError => exact id
    | keyError key => exact id

theorem answers_of_reads (h : c.Reads transport retries) :
    c.Answers transport retries (c.request transport retries) := by
  let goes := (c.exchange transport retries).goesOn c.sleeper
  let l := lastFrom goes retries 0
  have made : Reached goes retries l := reached_iff.mpr (Nat.le_refl l)
  have ends : l = 0 + retries ∨ goes l = false := lastFrom_ends
  have reached : Reached (fun j => transient (transport j)) retries l :=
    ⟨made.1, fun j before => (exchange_goesOn.mp (made.2 j before)).2.1⟩
  obtain ⟨readable, waits⟩ := h l reached
  have last : l = retries ∨ transient (transport l) = false := by
    refine or_iff_not_imp_left.mpr fun more => Bool.eq_false_iff.mpr fun again => ?_
    have on : goes l = true := exchange_goesOn.mpr
      ⟨readable, again, waits (Nat.lt_of_le_of_ne made.1 more)⟩
    rcases ends with used | off
    · exact more (used.trans (Nat.zero_add _))
    · exact absurd on (by simp [off])
  refine ⟨l, reached, last, ?_⟩
  have come : Understood c.decoder (transport l) ((c.exchange transport retries).outcome l) := by
    rcases outcome_cases c.decoder (transport l) with ⟨-, come⟩ | ⟨unreadable, -⟩
    · exact come
    · exact absurd readable unreadable
  refine come.decoded ((request_last made (ends.imp_left (by omega))).trans (if_neg ?_))
  rintro ⟨left, again⟩
  rcases last with used | off
  · omega
  · exact absurd (exchange_retried.mp again).2 (by simp [off])

/-- A response that cannot be read, or a wait that cannot be made, ends in another error. -/
theorem not_decoded (made : Reached ((c.exchange transport retries).goesOn c.sleeper) retries k)
    (off : ¬(c.decoder.Readable (transport k) ∧ (k < retries → c.Waits (transport k)))) :
    ¬Decoded d a (c.request transport retries) := by
  have stays : (c.exchange transport retries).goesOn c.sleeper k = false ∨ k = retries := by
    refine or_iff_not_imp_right.mpr fun more => Bool.eq_false_iff.mpr fun goes => off ?_
    obtain ⟨readable, -, waits⟩ := exchange_goesOn.mp goes
    exact ⟨readable, fun _ => waits⟩
  have ends := request_last made stays.symm
  rcases outcome_cases c.decoder (transport k) with ⟨readable, come⟩ | ⟨unreadable, come⟩
  · have stuck : ¬(k < retries → c.Waits (transport k)) := fun waits => off ⟨readable, waits⟩
    obtain ⟨more, stuck⟩ := Classical.not_imp.mp stuck
    have again : (c.exchange transport retries).retried k = true :=
      exchange_retried.mpr ⟨readable, transient_of_not_waits stuck⟩
    rw [Client.request, ends.trans (if_pos ⟨by omega, again⟩)]
    exact id
  · refine come.not_decoded (ends.trans (if_neg ?_))
    exact fun both => unreadable (exchange_retried.mp both.2).1

theorem reads_of_answers (h : c.Answers transport retries (c.request transport retries)) :
    c.Reads transport retries := by
  obtain ⟨_, -, -, decoded⟩ := h
  intro k
  induction k using Nat.strong_induction_on with
  | _ k ih =>
    intro reached
    have within := reached.1
    by_contra off
    refine not_decoded ⟨within, fun j before => ?_⟩ off decoded
    obtain ⟨readable, waits⟩ := ih j before
      ⟨by omega, fun i earlier => reached.2 i (earlier.trans before)⟩
    exact exchange_goesOn.mpr ⟨readable, reached.2 j before, waits (by omega)⟩

end Request

/-! ## The methods -/

/-- A call of one of the three methods, with the arguments that are checked. -/
inductive Invocation where
  | startVerification (phone purpose : Text)
  | getVerification (verificationId : Text)
  | cancelVerification (verificationId : Text)

/-- The arguments are as the method asks for them. -/
def Invocation.Legal : Invocation → Prop
  | .startVerification phone purpose => phone ≠ [] ∧ purpose ≠ []
  | .getVerification verificationId | .cancelVerification verificationId =>
    isVerificationId verificationId = true

/-- The retries of the request. -/
def Client.budget (c : Client) : Invocation → Nat
  | .cancelVerification _ => min c.retries 1
  | _ => c.retries

def Client.invoke (c : Client) (transport : Nat → Arrival HttpResponse) :
    Invocation → Ending Verification
  | .startVerification phone purpose => c.startVerification transport phone purpose
  | .getVerification verificationId => c.getVerification transport verificationId
  | .cancelVerification verificationId => c.cancelVerification transport verificationId

/-- The method raises an error of the class the contract assigns, or returns a verification that is
all of the body. -/
structure Client.Decodes (c : Client) (transport : Nat → Arrival HttpResponse)
    (i : Invocation) : Prop where
  refused : ¬i.Legal → ∃ e, c.invoke transport i = .raised (.syrotp e) ∧
    e.errorClass = .validation
  answers : i.Legal → c.Answers transport (c.budget i) (c.invoke transport i)

variable {c : Client} {transport : Nat → Arrival HttpResponse}

theorem invoke_legal {i : Invocation} (legal : i.Legal) :
    c.invoke transport i = c.request transport (c.budget i) := by
  cases i with
  | startVerification phone purpose =>
    simp [Client.invoke, Client.startVerification, legal.1, legal.2, Client.budget]
  | getVerification verificationId => exact if_pos legal
  | cancelVerification verificationId => exact if_pos legal

theorem invoke_refused {i : Invocation} (illegal : ¬i.Legal) :
    ∃ e, c.invoke transport i = .raised (.syrotp e) ∧ e.errorClass = .validation := by
  cases i with
  | startVerification phone purpose =>
    by_cases phoned : phone = []
    · exact ⟨_, if_pos (by simp [phoned]), rfl⟩
    · have missing : purpose = [] := by_contra fun given => illegal ⟨phoned, given⟩
      exact ⟨_, (if_neg (by simpa using phoned)).trans (if_pos (by simp [missing])), rfl⟩
  | getVerification verificationId => exact ⟨_, if_neg illegal, rfl⟩
  | cancelVerification verificationId => exact ⟨_, if_neg illegal, rfl⟩

/-- A client without retries that gets an empty object. -/
def emptyHanded : Client where
  retries := 0
  decoder := ⟨fun _ => .value (.object []), fun _ => .value (.object []), fun _ => some ""⟩
  sleeper := nanosecondClock
  jitter _ low _ := low

end Syrotp.Sdk.Records
