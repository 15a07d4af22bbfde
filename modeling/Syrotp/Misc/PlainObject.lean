import Syrotp.Misc.JsText

/-!
# Plain objects

An object literal has its own properties and inherits those of `Object.prototype`. A read falls
back on these; `__proto__` is an accessor there, and writing a value that is no object to it has no
effect.
-/

namespace Syrotp

/-- The own properties of an object, in order. -/
abbrev PlainObject (β : Type*) := List (Text × β)

namespace PlainObject

variable {β : Type*} {o : PlainObject β} {name key : Text} {v : β}

def proto : Text := text "__proto__"

/-- The properties of `Object.prototype`. -/
def prototypeNames : List Text :=
  [text "constructor", text "__defineGetter__", text "__defineSetter__", text "hasOwnProperty",
    text "__lookupGetter__", text "__lookupSetter__", text "isPrototypeOf",
    text "propertyIsEnumerable", text "toString", text "valueOf", proto, text "toLocaleString"]

def inherited (name : Text) : Bool := prototypeNames.contains name

/-- The value of such a property, none of which is falsy, where it is used as a property key: a
function has its text. -/
def inheritedKey (name : Text) : Text :=
  if name = proto then text "[object Object]"
  else if name = text "constructor" then text "function Object() \x7b [native code] \x7d"
  else text "function " ++ name ++ text "() \x7b [native code] \x7d"

/-- An own property. -/
def own (o : PlainObject β) (name : Text) : Option β := (o.find? (·.1 = name)).map (·.2)

/-- `o[key] = v`, for a value that is no object. -/
def set (o : PlainObject β) (key : Text) (v : β) : PlainObject β :=
  if key = proto then o
  else if (o.own key).isSome then o.map fun e => if e.1 = key then (key, v) else e
  else o ++ [(key, v)]

theorem own_cons {e : Text × β} :
    own (e :: o) name = if e.1 = name then some e.2 else o.own name := by
  unfold own
  by_cases same : e.1 = name
  · simp [same]
  · simp [same]

theorem own_map : own (o.map fun e => if e.1 = key then (key, v) else e) name =
    if name = key then (o.own key).map fun _ => v else o.own name := by
  induction o with
  | nil =>
    rw [List.map_nil]
    split <;> rfl
  | cons e o ih =>
    rw [List.map_cons, own_cons, own_cons, own_cons, ih]
    by_cases mine : e.1 = key
    · subst mine
      by_cases same : name = e.1
      · simp [same]
      · simp [same, Ne.symm same]
    · by_cases same : name = key
      · subst same
        simp [mine]
      · simp [mine, same]

theorem own_append {e : Text × β} :
    own (o ++ [e]) name = (o.own name).or (if e.1 = name then some e.2 else none) := by
  induction o with
  | nil => rw [List.nil_append, own_cons]; rfl
  | cons d o ih =>
    rw [List.cons_append, own_cons, own_cons, ih]
    split <;> rfl

/-- What is read after a write. -/
theorem own_set : (o.set key v).own name =
    if name = key ∧ key ≠ proto then some v else o.own name := by
  unfold set
  by_cases accessor : key = proto
  · simp [accessor]
  · rw [if_neg accessor]
    by_cases there : (o.own key).isSome = true
    · obtain ⟨old, found⟩ := Option.isSome_iff_exists.mp there
      rw [if_pos there, own_map, found]
      simp [accessor]
    · rw [if_neg there, own_append]
      have absent : o.own key = none := Option.not_isSome_iff_eq_none.mp there
      by_cases same : name = key
      · simp [same, absent, accessor]
      · simp [same, Ne.symm same]

/-- The last value that is written to a property, if any is. -/
def lastWritten (writes : List (Text × β)) (name : Text) : Option β :=
  (writes.reverse.find? (·.1 = name)).map (·.2)

/-- What is read after writes in turn. -/
theorem own_foldl (writes : List (Text × β)) (other : name ≠ proto) :
    (writes.foldl (fun o e => o.set e.1 e.2) o).own name =
      (lastWritten writes name).or (o.own name) := by
  induction writes generalizing o with
  | nil => rfl
  | cons e writes ih =>
    rw [List.foldl_cons, ih, own_set, lastWritten, lastWritten, List.reverse_cons,
      List.find?_append]
    cases (writes.reverse.find? (·.1 = name)) with
    | some later => rfl
    | none =>
      by_cases same : e.1 = name
      · subst same
        simp [other]
      · simp [same, Ne.symm same]

/-- The accessor is never an own property. -/
theorem own_foldl_proto (writes : List (Text × β)) (absent : o.own proto = none) :
    (writes.foldl (fun o e => o.set e.1 e.2) o).own proto = none := by
  induction writes generalizing o with
  | nil => exact absent
  | cons e writes ih =>
    refine ih ?_
    rw [own_set, if_neg (fun h => h.2 h.1.symm), absent]

end PlainObject

end Syrotp
