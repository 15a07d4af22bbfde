import Syrotp.Cli.Argv

/-!
# What a command line says

The flags of a command line are those that the specification lists, and their aliases. `parseFlags`
looks them up in plain objects, so it takes some names for flags that are none, and misses some that
are; with any other name it reads the command line as it is meant.
-/

namespace Syrotp.Cli

open PlainObject

/-! ## The grammar -/

/-- The flag with an alias; of several it is the last. -/
def aliasOwner (spec : FlagParseSpec) (name : Text) : Option Text :=
  (spec.flags.reverse.find? fun e => e.2.alias? = some name ∧ name ≠ []).map (·.1)

/-- The flag with a name, and whether it takes a value. -/
def specDef (spec : FlagParseSpec) (name : Text) : Option (Text × Bool) :=
  (spec.flags.own name).map fun d => (name, d.value)

/-- The flag a token names. -/
def namedFlag (spec : FlagParseSpec) (tok : Text) : Option (Text × Bool) :=
  let name := flagName tok
  specDef spec
    (if tok.startsWith terminator then name else (aliasOwner spec name).getD name)

section

variable (lookup : Text → Option (Text × Bool))

/-- A flag token with the token after it: the flag and its value, unless the token names no flag or
lacks the value. -/
def readFlag (tok : Text) (next : Option Text) : Option Taken :=
  match lookup tok with
  | none => none
  | some (name, true) =>
    match inlineValue tok, next with
    | some v, _ => some (.flag [tok] name (.text v))
    | none, some v => some (.flag [tok, v] name (.text v))
    | none, none => none
  | some (name, false) => some (.flag [tok] name .given)

/-- What every token is, up to the first that is unknown. -/
def account : List Text → List Taken × Option Text
  | [] => ([], none)
  | tok :: rest =>
    if tok = terminator then (.terminator :: rest.map .positional, none)
    else if isFlagToken tok then
      match lookup tok with
      | none => ([], some tok)
      | some (name, true) =>
        match inlineValue tok, rest with
        | some v, rest => (.flag [tok] name (.text v) :: (account rest).1, (account rest).2)
        | none, v :: rest => (.flag [tok, v] name (.text v) :: (account rest).1, (account rest).2)
        | none, [] => ([], some tok)
      | some (name, false) => (.flag [tok] name .given :: (account rest).1, (account rest).2)
    else (.positional tok :: (account rest).1, (account rest).2)

/-- The flag tokens that are reached, each with the token after it. -/
def reached : List Text → List (Text × Option Text)
  | [] => []
  | tok :: rest =>
    if tok = terminator then []
    else if isFlagToken tok then
      (tok, rest.head?) ::
        match lookup tok with
        | none => []
        | some (_, true) =>
          match inlineValue tok, rest with
          | some _, rest => reached rest
          | none, _ :: rest => reached rest
          | none, [] => []
        | some (_, false) => reached rest
    else reached rest

end

def Taken.tokens : Taken → List Text
  | .flag toks _ _ => toks
  | .positional tok => [tok]
  | .terminator => [Cli.terminator]

def Taken.positional? : Taken → Option Text
  | .positional tok => some tok
  | .flag _ _ _ | .terminator => none

def Taken.write? : Taken → Option (Text × FlagValue)
  | .flag _ name value => some (name, value)
  | .positional _ | .terminator => none

/-- What is asked of a parse: it tells of a token just if one names no flag of the specification or
lacks its value, and that is the first; it takes the tokens before for what they are, and all of
them are there if none is told of; a flag has the last of its values, and the positionals are in
order. -/
structure Exact (spec : FlagParseSpec) (argv : List Text) (r : FlagParseResult) : Prop where
  told : r.unknown.isSome = true ↔
    ∃ e ∈ reached (namedFlag spec) argv, readFlag (namedFlag spec) e.1 e.2 = none
  unknown : r.unknown = (account (namedFlag spec) argv).2
  taken : r.taken = (account (namedFlag spec) argv).1
  accounted : r.unknown = none → r.taken.flatMap Taken.tokens = argv
  positionals : r.positionals = r.taken.filterMap Taken.positional?
  values : ∀ name, r.values.own name = lastWritten (r.taken.filterMap Taken.write?) name

/-! ## What is collected -/

section

variable {lookup f g : Text → Option (Text × Bool)} {spec : FlagParseSpec} {argv rest : List Text}
  {tok : Text} {next : Option Text} {r : FlagParseResult}

/-- A result after an account. -/
def FlagParseResult.after (r : FlagParseResult) (found : List Taken × Option Text) :
    FlagParseResult where
  values := (found.1.filterMap Taken.write?).foldl (fun o e => o.set e.1 e.2) r.values
  positionals := r.positionals ++ found.1.filterMap Taken.positional?
  unknown := found.2
  taken := r.taken ++ found.1

theorem after_flag {toks : List Text} {name : Text} {value : FlagValue}
    {found : List Taken × Option Text} : (r.flag toks name value).after found =
      r.after (.flag toks name value :: found.1, found.2) := by
  simp [FlagParseResult.after, FlagParseResult.flag, List.filterMap_cons, Taken.write?,
    Taken.positional?]

theorem after_push {found : List Taken × Option Text} :
    (r.push [tok]).after found = r.after (.positional tok :: found.1, found.2) := by
  simp [FlagParseResult.after, FlagParseResult.push, List.filterMap_cons, Taken.write?,
    Taken.positional?]

/-- The loop collects the account of what it looks up. -/
theorem parseFrom_eq (running : r.unknown = none) :
    parseFrom spec argv r = r.after (account (objectFlag spec) argv) := by
  fun_induction parseFrom spec argv r with
  | case1 r =>
    obtain ⟨values, positionals, unknown, taken⟩ := r
    cases running
    simp [account, FlagParseResult.after]
  | case2 rest r =>
    rw [account, if_pos rfl]
    simp [FlagParseResult.after, FlagParseResult.ended, FlagParseResult.push, running,
      List.filterMap_cons, List.filterMap_map, Function.comp_def, Taken.write?, Taken.positional?]
  | case3 tok rest r other dashed unnamed =>
    rw [account, if_neg other, if_pos dashed, unnamed]
    simp [FlagParseResult.after]
  | case4 tok r other dashed name named v rest inline ih =>
    rw [account, if_neg other, if_pos dashed, named, inline, ih running]
    exact after_flag
  | case5 tok r other dashed name named v rest inline ih =>
    rw [account, if_neg other, if_pos dashed, named, inline, ih running]
    exact after_flag
  | case6 tok r other dashed name named inline =>
    rw [account, if_neg other, if_pos dashed, named, inline]
    simp [FlagParseResult.after]
  | case7 tok rest r other dashed name named ih =>
    rw [account, if_neg other, if_pos dashed, named, ih running]
    exact after_flag
  | case8 tok rest r other plain ih =>
    rw [account, if_neg other, if_neg plain, ih running]
    exact after_push

/-- If no token is unknown, all are accounted for. -/
theorem account_tokens (known : (account lookup argv).2 = none) :
    (account lookup argv).1.flatMap Taken.tokens = argv := by
  fun_induction account lookup argv with
  | case1 => rfl
  | case2 rest => simp [Taken.tokens, List.flatMap_map]
  | case3 tok rest other dashed unnamed => exact absurd known (Option.some_ne_none tok)
  | case4 tok other dashed name named v rest inline ih =>
    exact congrArg (tok :: ·) (ih known)
  | case5 tok other dashed name named v rest inline ih =>
    exact congrArg (tok :: v :: ·) (ih known)
  | case6 tok other dashed name named inline => exact absurd known (Option.some_ne_none tok)
  | case7 tok rest other dashed name named ih => exact congrArg (tok :: ·) (ih known)
  | case8 tok rest other plain ih => exact congrArg (tok :: ·) (ih known)

/-- A flag and what follows it. -/
theorem account_flag (other : tok ≠ terminator) (dashed : isFlagToken tok = true) :
    account lookup (tok :: rest) =
      match readFlag lookup tok rest.head? with
      | none => ([], some tok)
      | some item =>
        (item :: (account lookup ((tok :: rest).drop item.tokens.length)).1,
          (account lookup ((tok :: rest).drop item.tokens.length)).2) := by
  rw [account, if_neg other, if_pos dashed, readFlag]
  rcases lookup tok with _ | ⟨name, _ | _⟩
  · rfl
  · rfl
  · cases inlineValue tok with
    | some v => rfl
    | none => cases rest <;> rfl

theorem reached_flag (other : tok ≠ terminator) (dashed : isFlagToken tok = true) :
    reached lookup (tok :: rest) = (tok, rest.head?) ::
      match readFlag lookup tok rest.head? with
      | none => []
      | some item => reached lookup ((tok :: rest).drop item.tokens.length) := by
  conv_lhs => unfold reached
  rw [if_neg other, if_pos dashed, readFlag]
  rcases lookup tok with _ | ⟨name, _ | _⟩
  · rfl
  · rfl
  · cases inlineValue tok with
    | some v => rfl
    | none => cases rest <;> rfl

/-! ## Two ways to look a flag up -/

/-- A flag is read from its token, and perhaps the one after it. -/
theorem readFlag_tokens {item : Taken} (read : readFlag lookup tok next = some item) :
    0 < item.tokens.length := by
  unfold readFlag at read
  split at read
  · cases read
  · split at read <;> cases read <;> exact Nat.succ_pos _
  · cases read
    exact Nat.succ_pos _

/-- The flag and its value say what was looked up. -/
theorem readFlag_lookup {item : Taken} (read : readFlag lookup tok next = some item) :
    ∃ toks name value, item = .flag toks name value ∧
      lookup tok = some (name, decide (value ≠ .given)) := by
  unfold readFlag at read
  split at read
  · cases read
  · next name named =>
    split at read
    · cases read
      exact ⟨_, _, _, rfl, named⟩
    · cases read
      exact ⟨_, _, _, rfl, named⟩
    · cases read
  · next name named =>
    cases read
    exact ⟨_, _, _, rfl, named⟩

/-- Two lookups of a token come to the same if and only if they find the same, or the token is
unknown either way. -/
theorem readFlag_eq_iff : readFlag f tok next = readFlag g tok next ↔
    (f tok ≠ g tok → readFlag f tok next = none ∧ readFlag g tok next = none) := by
  constructor
  · intro same differ
    cases read : readFlag f tok next with
    | none => exact ⟨rfl, same ▸ read⟩
    | some item =>
      obtain ⟨toks, name, value, rfl, found⟩ := readFlag_lookup read
      obtain ⟨toks', name', value', shape, found'⟩ := readFlag_lookup (same ▸ read)
      obtain ⟨rfl, rfl, rfl⟩ := Taken.flag.inj shape
      exact absurd (found.trans found'.symm) differ
  · intro unknown
    by_cases same : f tok = g tok
    · rw [readFlag, readFlag, same]
    · obtain ⟨left, right⟩ := unknown same
      exact left.trans right.symm

theorem account_positional (other : tok ≠ terminator) (plain : ¬isFlagToken tok = true) :
    account lookup (tok :: rest) =
      (.positional tok :: (account lookup rest).1, (account lookup rest).2) := by
  rw [account, if_neg other, if_neg plain]

theorem reached_positional (other : tok ≠ terminator) (plain : ¬isFlagToken tok = true) :
    reached lookup (tok :: rest) = reached lookup rest := by
  rw [reached.eq_def]
  simp only [if_neg other, if_neg plain]

/-- Induction along a command line: after a flag it goes on behind the flag's tokens. -/
theorem argv_induct (lookup : Text → Option (Text × Bool)) {P : List Text → Prop} (nil : P [])
    (ended : ∀ rest, P (terminator :: rest))
    (flag : ∀ tok rest, tok ≠ terminator → isFlagToken tok = true →
      (∀ item, readFlag lookup tok rest.head? = some item →
        P ((tok :: rest).drop item.tokens.length)) → P (tok :: rest))
    (positional : ∀ tok rest, tok ≠ terminator → ¬isFlagToken tok = true → P rest →
      P (tok :: rest)) (argv : List Text) : P argv := by
  induction bound : argv.length using Nat.strongRecOn generalizing argv with
  | ind n ih =>
    cases argv with
    | nil => exact nil
    | cons tok rest =>
      by_cases last : tok = terminator
      · exact last ▸ ended rest
      · by_cases dashed : isFlagToken tok = true
        · refine flag tok rest last dashed fun item read => ih _ ?_ _ rfl
          have := readFlag_tokens read
          rw [List.length_drop, ← bound, List.length_cons]
          omega
        · exact positional tok rest last dashed (ih _ (bound ▸ Nat.lt_succ_self _) _ rfl)

/-- Two lookups give the same account if and only if they read every flag token alike that is
reached. -/
theorem account_eq_iff : account f argv = account g argv ↔
    ∀ e ∈ reached g argv, readFlag f e.1 e.2 = readFlag g e.1 e.2 := by
  refine argv_induct g (P := fun argv => account f argv = account g argv ↔
    ∀ e ∈ reached g argv, readFlag f e.1 e.2 = readFlag g e.1 e.2) ?_ ?_ ?_ ?_ argv
  · exact iff_of_true rfl (List.forall_mem_nil _)
  · intro rest
    rw [account, account, reached.eq_def]
    simp
  · intro tok rest other dashed ih
    rw [account_flag other dashed, account_flag other dashed, reached_flag other dashed,
      List.forall_mem_cons]
    cases right : readFlag g tok rest.head? with
    | none => cases left : readFlag f tok rest.head? <;> simp
    | some item =>
      cases left : readFlag f tok rest.head? with
      | none => simp
      | some item' =>
        by_cases same : item' = item
        · subst same
          rw [← ih _ right, Prod.ext_iff, Prod.ext_iff]
          simp
        · simp [same]
  · intro tok rest other plain ih
    rw [account_positional other plain, account_positional other plain,
      reached_positional other plain, ← ih, Prod.ext_iff, Prod.ext_iff]
    simp

/-- A token is unknown if one that is reached is read as none. -/
theorem account_unknown : (account lookup argv).2.isSome = true ↔
    ∃ e ∈ reached lookup argv, readFlag lookup e.1 e.2 = none := by
  refine argv_induct lookup (P := fun argv => (account lookup argv).2.isSome = true ↔
    ∃ e ∈ reached lookup argv, readFlag lookup e.1 e.2 = none) ?_ ?_ ?_ ?_ argv
  · simp [account, reached]
  · intro rest
    rw [account, reached.eq_def]
    simp
  · intro tok rest other dashed ih
    rw [account_flag other dashed, reached_flag other dashed]
    cases read : readFlag lookup tok rest.head? with
    | none => simp [read]
    | some item => simpa [read] using ih item read
  · intro tok rest other plain ih
    rw [account_positional other plain, reached_positional other plain]
    exact ih

/-! ## What plain objects make of a name -/

/-- The name of a token is one that plain objects have on their own: it is no flag's, and none is
looked for; or it is an alias that cannot be written down there, or is written down as nothing; or
it is none, and stands for what is inherited under it. -/
def Clashes (spec : FlagParseSpec) (tok : Text) : Prop :=
  if tok.startsWith terminator then
    inherited (flagName tok) = true ∧ spec.flags.own (flagName tok) = none
  else
    match aliasOwner spec (flagName tok) with
    | some flag => flag = [] ∨ flagName tok = proto ∧ flag ≠ text "[object Object]"
    | none => inherited (flagName tok) = true ∧ ((spec.flags.own (flagName tok)).isSome = true ∨
        (spec.flags.own (inheritedKey (flagName tok))).isSome = true)

variable {name key flag : Text}

/-- The writes of the loop over the specification. -/
def aliasWrite (e : Text × FlagDef) : Option (Text × Text) :=
  match e.2.alias? with
  | none => none
  | some short => if short.isEmpty then none else some (short, e.1)

theorem aliasMap_eq : aliasMap spec =
    (spec.flags.filterMap aliasWrite).foldl (fun o e => PlainObject.set o e.1 e.2) [] := by
  rw [List.foldl_filterMap, aliasMap]
  congr
  funext map e
  unfold aliasWrite
  cases e.2.alias? with
  | none => rfl
  | some short => cases short <;> rfl

theorem aliasOwner_eq : aliasOwner spec name =
    lastWritten (spec.flags.filterMap aliasWrite) name := by
  have hit : ∀ e : Text × FlagDef, (aliasWrite e).any (·.1 = name) =
      decide (e.2.alias? = some name ∧ name ≠ []) := by
    intro e
    unfold aliasWrite
    cases e.2.alias? with
    | none => simp
    | some short =>
      cases short with
      | nil =>
        by_cases same : name = []
        · simp [same]
        · simp [Ne.symm same]
      | cons c short =>
        by_cases same : c :: short = name
        · simp [← same]
        · simp [same]
  rw [lastWritten, ← List.filterMap_reverse, List.find?_filterMap, aliasOwner]
  simp only [hit]
  cases found : spec.flags.reverse.find? fun e => decide (e.2.alias? = some name ∧ name ≠ []) with
  | none => rfl
  | some e =>
    have owned := List.find?_some found
    simp only [decide_eq_true_eq] at owned
    simp [aliasWrite, owned.1, owned.2]

theorem own_aliasMap : (aliasMap spec).own name =
    if name = proto then none else aliasOwner spec name := by
  rw [aliasMap_eq, aliasOwner_eq]
  by_cases accessor : name = proto
  · rw [if_pos accessor, accessor]
    exact own_foldl_proto _ rfl
  · rw [if_neg accessor, own_foldl _ accessor]
    exact Option.or_none

/-- The flag with an alias is one of the flags. -/
theorem own_aliasOwner (h : aliasOwner spec name = some flag) :
    name ≠ [] ∧ ∃ d, spec.flags.own flag = some d := by
  obtain ⟨e, found, rfl⟩ := Option.map_eq_some_iff.mp h
  have there : (spec.flags.find? (·.1 = e.1)).isSome = true :=
    List.find?_isSome.mpr ⟨e, List.mem_reverse.mp (List.mem_of_find?_eq_some found), by simp⟩
  obtain ⟨e', found'⟩ := Option.isSome_iff_exists.mp there
  have owned := List.find?_some found
  simp only [decide_eq_true_eq] at owned
  exact ⟨owned.2, e'.2, Option.map_eq_some_iff.mpr ⟨e', found', rfl⟩⟩

theorem flagDef_ne_iff : flagDef spec key ≠ specDef spec key ↔
    inherited key = true ∧ spec.flags.own key = none := by
  unfold flagDef specDef
  cases found : spec.flags.own key with
  | some d => simp
  | none =>
    cases inherited key with
    | true => simp
    | false => simp

/-- The name is kept. -/
theorem flagDef_name {e : Text × Bool} (h : flagDef spec key = some e) : e.1 = key := by
  unfold flagDef at h
  split at h
  · exact Option.some.inj h ▸ rfl
  · obtain ⟨-, same⟩ := Option.ite_none_right_eq_some.mp h
    exact Option.some.inj same ▸ rfl

theorem inherited_key (h : inherited name = true) : inherited (inheritedKey name) = false := by
  have none : ∀ name ∈ prototypeNames, inherited (inheritedKey name) = false := by decide +kernel
  exact none name (List.contains_iff_mem.mp h)

/-- A name with another key is another flag, or none. -/
theorem flagDef_ne_of_key {d : Text × Bool} (found : specDef spec name = some d)
    (other : key ≠ name) : flagDef spec key ≠ specDef spec name := by
  intro same
  obtain ⟨d', -, rfl⟩ := Option.map_eq_some_iff.mp found
  exact other (flagDef_name (same.trans found)).symm

/-- The key of an alias. -/
theorem aliasKey_of_owner (owner : aliasOwner spec name = some flag) : aliasKey spec name =
    if name = proto then some (text "[object Object]") else if flag = [] then none
      else some flag := by
  rw [aliasKey, own_aliasMap]
  by_cases accessor : name = proto
  · subst accessor
    rfl
  · rw [if_neg accessor, owner, if_neg accessor]
    cases flag with
    | nil => rfl
    | cons c flag => rfl

theorem clash_of_owner (owner : aliasOwner spec name = some flag) :
    flagDef spec ((aliasKey spec name).getD name) ≠ specDef spec flag ↔
      flag = [] ∨ name = proto ∧ flag ≠ text "[object Object]" := by
  obtain ⟨some', d, there⟩ := own_aliasOwner owner
  have found : specDef spec flag = some (flag, d.value) := by rw [specDef, there]; rfl
  have keyed : flagDef spec ((aliasKey spec name).getD name) ≠ specDef spec flag ↔
      (aliasKey spec name).getD name ≠ flag := by
    refine ⟨fun differ same => differ ?_, flagDef_ne_of_key found⟩
    rw [same]
    exact not_not.mp fun differ =>
      absurd (flagDef_ne_iff.mp differ).2 (there ▸ Option.some_ne_none d)
  rw [keyed, aliasKey_of_owner owner]
  by_cases accessor : name = proto
  · rw [if_pos accessor, Option.getD_some]
    constructor
    · exact fun differ => .inr ⟨accessor, differ.symm⟩
    · rintro (rfl | ⟨-, other⟩)
      · decide
      · exact other.symm
  · rw [if_neg accessor]
    by_cases empty : flag = []
    · rw [if_pos empty, Option.getD_none]
      exact iff_of_true (empty ▸ some') (.inl empty)
    · rw [if_neg empty, Option.getD_some]
      exact iff_of_false (fun differ => differ rfl)
        fun h => h.elim empty fun named => accessor named.1

theorem clash_of_none (owner : aliasOwner spec name = none) :
    flagDef spec ((aliasKey spec name).getD name) ≠ specDef spec name ↔
      inherited name = true ∧ ((spec.flags.own name).isSome = true ∨
        (spec.flags.own (inheritedKey name)).isSome = true) := by
  have unwritten : (aliasMap spec).own name = none := by
    rw [own_aliasMap, owner]
    split <;> rfl
  rw [aliasKey, unwritten]
  cases there : inherited name with
  | false =>
    simp only [Bool.false_eq_true, if_false, Option.getD_none, false_and, iff_false]
    rw [flagDef_ne_iff, there]
    exact fun h => absurd h.1 Bool.false_ne_true
  | true =>
    simp only [if_true, Option.getD_some, true_and]
    have other : inheritedKey name ≠ name := by
      intro same
      have plain := inherited_key there
      rw [same, there] at plain
      cases plain
    have plain : flagDef spec (inheritedKey name) = specDef spec (inheritedKey name) :=
      not_not.mp fun differ =>
        absurd (flagDef_ne_iff.mp differ).1 (by rw [inherited_key there]; decide)
    cases here : spec.flags.own name with
    | some d =>
      have found : specDef spec name = some (name, d.value) := by rw [specDef, here]; rfl
      exact iff_of_true (flagDef_ne_of_key found other) (.inl rfl)
    | none =>
      rw [plain, specDef, specDef, here]
      cases spec.flags.own (inheritedKey name) with
      | none => simp
      | some d => simp

/-- The lookup in plain objects differs from what the specification says just where it clashes. -/
theorem objectFlag_ne_iff : objectFlag spec tok ≠ namedFlag spec tok ↔ Clashes spec tok := by
  unfold objectFlag namedFlag Clashes
  by_cases long : tok.startsWith terminator = true
  · simp only [if_pos long]
    exact flagDef_ne_iff
  · simp only [if_neg long]
    cases owner : aliasOwner spec (flagName tok) with
    | some flag => exact clash_of_owner owner
    | none => exact clash_of_none owner

/-! ## The parse -/

/-- Every name that matters is read as it is meant: a token that clashes is unknown either way, and
no flag is named `__proto__`. -/
structure Plain (spec : FlagParseSpec) (argv : List Text) : Prop where
  lookups : ∀ e ∈ reached (namedFlag spec) argv, Clashes spec e.1 →
    readFlag (objectFlag spec) e.1 e.2 = none ∧ readFlag (namedFlag spec) e.1 e.2 = none
  writes : ∀ toks value, .flag toks proto value ∉ (account (namedFlag spec) argv).1

/-- The lookups give the account that is meant just if every name is read as it is meant. -/
theorem account_objectFlag : account (objectFlag spec) argv = account (namedFlag spec) argv ↔
    ∀ e ∈ reached (namedFlag spec) argv, Clashes spec e.1 →
      readFlag (objectFlag spec) e.1 e.2 = none ∧ readFlag (namedFlag spec) e.1 e.2 = none := by
  rw [account_eq_iff]
  refine forall₂_congr fun e _ => ?_
  rw [readFlag_eq_iff, objectFlag_ne_iff]

theorem lastWritten_none {writes : List (Text × FlagValue)} :
    lastWritten writes name = none ↔ ∀ e ∈ writes, e.1 ≠ name := by
  simp [lastWritten]

/-- The values after an account of the whole command line. -/
theorem own_values {found : List Taken × Option Text} (other : name ≠ proto) :
    ((⟨[], [], none, []⟩ : FlagParseResult).after found).values.own name =
      lastWritten (found.1.filterMap Taken.write?) name := by
  rw [FlagParseResult.after, own_foldl _ other]
  exact Option.or_none

theorem own_values_proto {found : List Taken × Option Text} :
    ((⟨[], [], none, []⟩ : FlagParseResult).after found).values.own proto = none :=
  own_foldl_proto _ rfl

theorem unwritten_iff {items : List Taken} :
    lastWritten (items.filterMap Taken.write?) name = none ↔
      ∀ toks value, .flag toks name value ∉ items := by
  rw [lastWritten_none]
  constructor
  · intro unwritten toks value mem
    exact unwritten (name, value) (List.mem_filterMap.mpr ⟨_, mem, rfl⟩) rfl
  · intro absent e mem same
    obtain ⟨item, there, write⟩ := List.mem_filterMap.mp mem
    cases item with
    | flag toks name' value =>
      cases write
      exact absent toks value (same ▸ there)
    | positional tok => cases write
    | terminator => cases write

/-- For every specification and every argument vector: `parseFlags` is exact if and only if every
name that matters is read as it is meant. -/
theorem parseFlags_exact_iff (spec : FlagParseSpec) (argv : List Text) :
    Exact spec argv (parseFlags argv spec) ↔ Plain spec argv := by
  have parsed : parseFlags argv spec =
      (⟨[], [], none, []⟩ : FlagParseResult).after (account (objectFlag spec) argv) :=
    parseFrom_eq rfl
  rw [parsed]
  constructor
  · intro exact
    have same : account (objectFlag spec) argv = account (namedFlag spec) argv :=
      Prod.ext exact.taken exact.unknown
    have lost := exact.values proto
    rw [own_values_proto, exact.taken] at lost
    exact ⟨account_objectFlag.mp same, unwritten_iff.mp lost.symm⟩
  · intro plain
    have same := account_objectFlag.mpr plain.lookups
    rw [same]
    refine ⟨account_unknown, rfl, rfl, account_tokens, rfl, fun name => ?_⟩
    by_cases accessor : name = proto
    · subst accessor
      exact own_values_proto.trans (unwritten_iff.mpr plain.writes).symm
    · exact own_values accessor

/-- `--constructor` is taken for a flag, though the specification has none of that name. -/
theorem inherited_name_accepted : ∃ spec argv, ¬Exact spec argv (parseFlags argv spec) := by
  refine ⟨⟨[(text "timeout", ⟨true, none⟩)], by decide⟩, [text "--constructor"], fun exact => ?_⟩
  have accepted := exact.unknown
  revert accepted
  decide +kernel

end

end Syrotp.Cli
