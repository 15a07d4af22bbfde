import Syrotp.Misc.PlainObject

/-!
# Flags of the command line

`parseFlags` of `packages/cli/src/argv.ts`. The specification, the aliases and the values are plain
objects. Next to what the source returns, the result says what each token has been taken for.
-/

namespace Syrotp.Cli

open PlainObject

structure FlagDef where
  value : Bool
  alias? : Option Text
  deriving DecidableEq, Repr

/-- The flags, as `Object.entries` gives them. -/
structure FlagParseSpec where
  flags : PlainObject FlagDef
  names : (flags.map Prod.fst).Nodup

/-- `string | true`. -/
inductive FlagValue where
  | given
  | text (s : Text)
  deriving DecidableEq, Repr

/-- What tokens have been taken for. -/
inductive Taken where
  | flag (toks : List Text) (name : Text) (value : FlagValue)
  | positional (tok : Text)
  | terminator
  deriving DecidableEq, Repr

structure FlagParseResult where
  values : PlainObject FlagValue
  positionals : List Text
  unknown : Option Text
  taken : List Taken
  deriving DecidableEq, Repr

def dash : UInt16 := 45
def equalsSign : UInt16 := 61

def terminator : Text := [dash, dash]

/-- `tok.startsWith("--") || tok.startsWith("-")`. -/
def isFlagToken (tok : Text) : Bool := tok.startsWith terminator || tok.startsWith [dash]

/-- `tok.replace(/^-+/, "")`. -/
def withoutDashes (tok : Text) : Text := tok.dropWhile (· = dash)

/-- The name, and the value after the first `=`. -/
def flagName (tok : Text) : Text := (withoutDashes tok).takeWhile (· ≠ equalsSign)

def inlineValue (tok : Text) : Option Text :=
  match (withoutDashes tok).dropWhile (· ≠ equalsSign) with
  | [] => none
  | _ :: value => some value

/-- `aliasMap`. -/
def aliasMap (spec : FlagParseSpec) : PlainObject Text :=
  spec.flags.foldl (fun map e =>
    match e.2.alias? with
    | none => map
    | some short => if short.isEmpty then map else map.set short e.1) []

/-- `aliasMap[name]` as a property key, where it is truthy. -/
def aliasKey (spec : FlagParseSpec) (name : Text) : Option Text :=
  match (aliasMap spec).own name with
  | some flag => if flag.isEmpty then none else some flag
  | none => if inherited name then some (inheritedKey name) else none

/-- `spec.flags[name]`: its name, and whether its `value` is truthy; nothing that is inherited has
one. -/
def flagDef (spec : FlagParseSpec) (name : Text) : Option (Text × Bool) :=
  match spec.flags.own name with
  | some d => some (name, d.value)
  | none => if inherited name then some (name, false) else none

/-- The property a flag token is looked up as, and what is found. -/
def objectFlag (spec : FlagParseSpec) (tok : Text) : Option (Text × Bool) :=
  let name := flagName tok
  flagDef spec
    (if tok.startsWith terminator then name else (aliasKey spec name).getD name)

/-- A flag from these tokens. -/
def FlagParseResult.flag (r : FlagParseResult) (toks : List Text) (name : Text)
    (value : FlagValue) : FlagParseResult :=
  { r with values := r.values.set name value, taken := r.taken ++ [.flag toks name value] }

def FlagParseResult.ended (r : FlagParseResult) : FlagParseResult :=
  { r with taken := r.taken ++ [.terminator] }

def FlagParseResult.push (r : FlagParseResult) (toks : List Text) : FlagParseResult :=
  { r with positionals := r.positionals ++ toks, taken := r.taken ++ toks.map .positional }

/-- The loop, with what it has collected. -/
def parseFrom (spec : FlagParseSpec) : List Text → FlagParseResult → FlagParseResult
  | [], r => r
  | tok :: rest, r =>
    if tok = terminator then r.ended.push rest
    else if isFlagToken tok then
      match objectFlag spec tok with
      | none => { r with unknown := some tok }
      | some (name, true) =>
        match inlineValue tok, rest with
        | some v, rest => parseFrom spec rest (r.flag [tok] name (.text v))
        | none, v :: rest => parseFrom spec rest (r.flag [tok, v] name (.text v))
        | none, [] => { r with unknown := some tok }
      | some (name, false) => parseFrom spec rest (r.flag [tok] name .given)
    else parseFrom spec rest (r.push [tok])

def parseFlags (argv : List Text) (spec : FlagParseSpec) : FlagParseResult :=
  parseFrom spec argv ⟨[], [], none, []⟩

end Syrotp.Cli
