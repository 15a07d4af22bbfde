import Syrotp.Misc.JsText

/-!
# Markup and templates

The tokenizer of HTML on a part of the language: tags with names and double-quoted attributes, text,
character references with a semicolon, and the raw text of a style sheet. What lies outside of this
part is not read at all. A template has holes where text goes; holes may stand in text and in values
of attributes, where the text must be escaped. Then it changes nothing but the text: the filled
template is read as the template is, with the text in the holes.
-/

namespace Syrotp

/-- A character, or a place for text. -/
inductive Glyph (ι : Type) where
  | unit (c : UInt16)
  | hole (k : ι)
  deriving DecidableEq, Repr

abbrev Markup (ι : Type) := List (Glyph ι)

/-- A text as markup. -/
def units {ι : Type} (s : Text) : Markup ι := s.map .unit

inductive HtmlToken (ι : Type) where
  | char (g : Glyph ι)
  | startTag (name : Text) (attributes : List (Text × Markup ι))
  | endTag (name : Text)
  deriving DecidableEq, Repr

/-- The states of the tokenizer: the tag, attributes, name and value so far. -/
inductive HtmlState (ι : Type) where
  | data
  | reference (ref : Text)
  | tagOpen
  | tagName (tag : Text)
  | beforeAttribute (tag : Text) (attributes : List (Text × Markup ι))
  | attributeName (tag : Text) (attributes : List (Text × Markup ι)) (name : Text)
  | beforeValue (tag : Text) (attributes : List (Text × Markup ι)) (name : Text)
  | value (tag : Text) (attributes : List (Text × Markup ι)) (name : Text) (value : Markup ι)
  | valueReference (tag : Text) (attributes : List (Text × Markup ι)) (name : Text)
      (value : Markup ι) (ref : Text)
  | afterValue (tag : Text) (attributes : List (Text × Markup ι))
  | endTagOpen
  | endTagName (tag : Text)
  | raw (tag : Text)
  | rawLess (tag : Text)
  | rawEnd (tag : Text) (name : Text)
  deriving DecidableEq, Repr

/-! ## Characters -/

namespace Html

def isLetter (c : UInt16) : Bool := (65 ≤ c && c ≤ 90) || (97 ≤ c && c ≤ 122)

def lower (c : UInt16) : UInt16 := if 65 ≤ c ∧ c ≤ 90 then c + 32 else c

/-- White space between attributes. -/
def isBlank (c : UInt16) : Bool := c == 9 || c == 10 || c == 12 || c == 32

/-- What a name goes on with. -/
def isNameChar (c : UInt16) : Bool := isLetter c || Text.isDigit c || c == 45

/-- The references that are known here. -/
def references : List (Text × UInt16) :=
  [(text "amp", 38), (text "lt", 60), (text "gt", 62), (text "quot", 34), (text "#39", 39)]

/-- What a reference stands for. -/
def referred (ref : Text) : Option UInt16 := (references.find? (·.1 = ref)).map (·.2)

/-- What a reference goes on with. -/
def isRefChar (c : UInt16) : Bool := isLetter c || Text.isDigit c || c == 35

/-- The elements whose content is not markup, but for style sheets. -/
def otherContent : List Text :=
  [text "script", text "textarea", text "title", text "xmp", text "iframe", text "noembed",
    text "noframes", text "noscript", text "plaintext"]

/-- Carriage returns become line feeds before anything is read. -/
def normalizeNewlines : Text → Text
  | [] => []
  | [c] => [if c = 13 then 10 else c]
  | c :: d :: rest =>
    if c = 13 then
      if d = 10 then normalizeNewlines (d :: rest) else 10 :: normalizeNewlines (d :: rest)
    else c :: normalizeNewlines (d :: rest)

end Html

namespace HtmlState

open Html

variable {ι : Type}

/-- A start tag is complete. -/
def opened (tag : Text) (attributes : List (Text × Markup ι)) :
    Option (List (HtmlToken ι) × HtmlState ι) :=
  if otherContent.any (· = tag) then none
  else some ([.startTag tag attributes], if tag = text "style" then .raw tag else .data)

/-- An attribute is complete; a second one of the same name is dropped. -/
def withAttribute (attributes : List (Text × Markup ι)) (name : Text) (value : Markup ι) :
    List (Text × Markup ι) :=
  if attributes.any (·.1 = name) then attributes else attributes ++ [(name, value)]

/-- The tokenizer reads a character. -/
def stepUnit (c : UInt16) : HtmlState ι → Option (List (HtmlToken ι) × HtmlState ι)
  | .data =>
    if c = 38 then some ([], .reference [])
    else if c = 60 then some ([], .tagOpen)
    else if c = 0 then some ([], .data)
    else some ([.char (.unit c)], .data)
  | .reference ref =>
    if c = 59 then (referred ref).map fun d => ([.char (.unit d)], .data)
    else if isRefChar c then some ([], .reference (ref ++ [c]))
    else none
  | .tagOpen =>
    if c = 47 then some ([], .endTagOpen)
    else if isLetter c then some ([], .tagName [lower c])
    else none
  | .tagName tag =>
    if isBlank c then some ([], .beforeAttribute tag [])
    else if c = 62 then opened tag []
    else if isNameChar c then some ([], .tagName (tag ++ [lower c]))
    else none
  | .beforeAttribute tag attributes =>
    if isBlank c then some ([], .beforeAttribute tag attributes)
    else if c = 62 then opened tag attributes
    else if isLetter c then some ([], .attributeName tag attributes [lower c])
    else none
  | .attributeName tag attributes name =>
    if c = 61 then some ([], .beforeValue tag attributes name)
    else if isNameChar c then some ([], .attributeName tag attributes (name ++ [lower c]))
    else none
  | .beforeValue tag attributes name =>
    if isBlank c then some ([], .beforeValue tag attributes name)
    else if c = 34 then some ([], .value tag attributes name [])
    else none
  | .value tag attributes name v =>
    if c = 34 then some ([], .afterValue tag (withAttribute attributes name v))
    else if c = 38 then some ([], .valueReference tag attributes name v [])
    else if c = 0 then some ([], .value tag attributes name (v ++ [.unit 0xFFFD]))
    else some ([], .value tag attributes name (v ++ [.unit c]))
  | .valueReference tag attributes name v ref =>
    if c = 59 then (referred ref).map fun d =>
      ([], .value tag attributes name (v ++ [.unit d]))
    else if isRefChar c then some ([], .valueReference tag attributes name v (ref ++ [c]))
    else none
  | .afterValue tag attributes =>
    if isBlank c then some ([], .beforeAttribute tag attributes)
    else if c = 62 then opened tag attributes
    else none
  | .endTagOpen => if isLetter c then some ([], .endTagName [lower c]) else none
  | .endTagName tag =>
    if c = 62 then some ([.endTag tag], .data)
    else if isNameChar c then some ([], .endTagName (tag ++ [lower c]))
    else none
  | .raw tag =>
    if c = 60 then some ([], .rawLess tag)
    else if c = 0 then none
    else some ([.char (.unit c)], .raw tag)
  | .rawLess tag => if c = 47 then some ([], .rawEnd tag []) else none
  | .rawEnd tag name =>
    if c = 62 then if name = tag then some ([.endTag tag], .data) else none
    else if isLetter c then some ([], .rawEnd tag (name ++ [lower c]))
    else none

/-- It comes to a hole, which may stand in text and in values. -/
def stepHole (k : ι) : HtmlState ι → Option (List (HtmlToken ι) × HtmlState ι)
  | .data => some ([.char (.hole k)], .data)
  | .value tag attributes name v => some ([], .value tag attributes name (v ++ [.hole k]))
  | _ => none

def step (st : HtmlState ι) : Glyph ι → Option (List (HtmlToken ι) × HtmlState ι)
  | .unit c => st.stepUnit c
  | .hole k => st.stepHole k

end HtmlState

variable {ι : Type}

def tokenize : HtmlState ι → Markup ι → Option (List (HtmlToken ι) × HtmlState ι)
  | st, [] => some ([], st)
  | st, g :: rest =>
    match st.step g with
    | none => none
    | some (ts, next) => (tokenize next rest).map fun r => (ts ++ r.1, r.2)

/-- A template with strings in its holes as they are. -/
def Markup.evaluate (m : Markup ι) (strings : ι → Text) : Text :=
  m.flatMap fun
    | .unit c => [c]
    | .hole k => strings k

/-- The tokens of a template, which ends where text may stand. -/
def readMarkup (m : Markup ι) : Option (List (HtmlToken ι)) :=
  match tokenize .data m with
  | some (ts, .data) => some ts
  | _ => none

/-- The tokens of a document. -/
def readHtml (s : Text) : Option (List (HtmlToken Empty)) :=
  readMarkup (units (Html.normalizeNewlines s))

theorem tokenize_append (st : HtmlState ι) (a b : Markup ι) :
    tokenize st (a ++ b) = (tokenize st a).bind fun r =>
      (tokenize r.2 b).map fun r' => (r.1 ++ r'.1, r'.2) := by
  induction a generalizing st with
  | nil => simp [tokenize]
  | cons g rest ih =>
    simp only [List.cons_append, tokenize]
    cases st.step g with
    | none => rfl
    | some r =>
      obtain ⟨ts, next⟩ := r
      simp only [ih]
      cases tokenize next rest with
      | none => rfl
      | some r =>
        obtain ⟨us, last⟩ := r
        simp only [Option.bind_some, Option.map_some, Option.map_map, List.append_assoc]
        rfl

theorem tokenize_trans {st next last : HtmlState ι} {a b : Markup ι} {ts us : List (HtmlToken ι)}
    (first : tokenize st a = some (ts, next)) (second : tokenize next b = some (us, last)) :
    tokenize st (a ++ b) = some (ts ++ us, last) := by
  rw [tokenize_append, first, Option.bind_some, second, Option.map_some]

theorem tokenize_single (st : HtmlState ι) (g : Glyph ι) : tokenize st [g] = st.step g := by
  simp only [tokenize]
  cases st.step g with
  | none => rfl
  | some r => simp

/-! ## Filling -/

/-- An escaping of text, character by character: each is read as itself in text and in a value, and
line ends stand as they are. -/
structure Escaping (esc : UInt16 → Text) : Prop where
  text : ∀ c, c ≠ 0 → tokenize (.data : HtmlState Empty) (units (esc c)) =
    some ([.char (.unit c)], .data)
  value : ∀ tag attributes name v c, c ≠ 0 →
    tokenize (.value tag attributes name v : HtmlState Empty) (units (esc c)) =
      some ([], .value tag attributes name (v ++ [.unit c]))
  plain : ∀ c, c = 0 ∨ c = 10 ∨ c = 13 → esc c = [c]
  newline : ∀ c, c ≠ 10 → c ≠ 13 → 10 ∉ esc c ∧ 13 ∉ esc c

/-- What a null is in text: nothing; and in a value. -/
def shown (s : Text) : Text := s.filter (· ≠ 0)

def inValue (s : Text) : Text := s.map fun c => if c = 0 then 0xFFFD else c

section

variable (esc : UInt16 → Text) (values : ι → Text)

/-- A template as text, with the escaped values in its holes. -/
def Glyph.source : Glyph ι → Text
  | .unit c => [c]
  | .hole k => (values k).flatMap esc

def Markup.source (m : Markup ι) : Text := m.flatMap (·.source esc values)

/-- A value with what is in its holes. -/
def fillValue (v : Markup ι) : Markup Empty :=
  v.flatMap fun
    | .unit c => [.unit c]
    | .hole k => units (inValue (values k))

def fillAttributes (attributes : List (Text × Markup ι)) : List (Text × Markup Empty) :=
  attributes.map fun a => (a.1, fillValue values a.2)

def HtmlToken.fill : HtmlToken ι → List (HtmlToken Empty)
  | .char (.unit c) => [.char (.unit c)]
  | .char (.hole k) => (shown (values k)).map fun c => .char (.unit c)
  | .startTag tag attributes => [.startTag tag (fillAttributes values attributes)]
  | .endTag tag => [.endTag tag]

def HtmlState.fill : HtmlState ι → HtmlState Empty
  | .data => .data
  | .reference ref => .reference ref
  | .tagOpen => .tagOpen
  | .tagName tag => .tagName tag
  | .beforeAttribute tag attributes => .beforeAttribute tag (fillAttributes values attributes)
  | .attributeName tag attributes name =>
    .attributeName tag (fillAttributes values attributes) name
  | .beforeValue tag attributes name => .beforeValue tag (fillAttributes values attributes) name
  | .value tag attributes name v =>
    .value tag (fillAttributes values attributes) name (fillValue values v)
  | .valueReference tag attributes name v ref =>
    .valueReference tag (fillAttributes values attributes) name (fillValue values v) ref
  | .afterValue tag attributes => .afterValue tag (fillAttributes values attributes)
  | .endTagOpen => .endTagOpen
  | .endTagName tag => .endTagName tag
  | .raw tag => .raw tag
  | .rawLess tag => .rawLess tag
  | .rawEnd tag name => .rawEnd tag name

/-- A step's outcome with what is in its holes. -/
def fillStep (r : List (HtmlToken ι) × HtmlState ι) : List (HtmlToken Empty) × HtmlState Empty :=
  (r.1.flatMap (·.fill values), r.2.fill values)

end

variable {esc : UInt16 → Text} {values : ι → Text}

theorem fillValue_append (v w : Markup ι) :
    fillValue values (v ++ w) = fillValue values v ++ fillValue values w :=
  List.flatMap_append

theorem fillAttributes_withAttribute (attributes : List (Text × Markup ι)) (name : Text)
    (v : Markup ι) : fillAttributes values (HtmlState.withAttribute attributes name v) =
      HtmlState.withAttribute (fillAttributes values attributes) name (fillValue values v) := by
  have names : (fillAttributes values attributes).any (·.1 = name) =
      attributes.any (·.1 = name) := by
    simp [fillAttributes, List.any_map, Function.comp_def]
  unfold HtmlState.withAttribute
  rw [names]
  by_cases twice : attributes.any (·.1 = name) = true
  · simp [twice]
  · simp [twice, fillAttributes]

theorem opened_fill (tag : Text) (attributes : List (Text × Markup ι)) :
    HtmlState.opened tag (fillAttributes values attributes) =
      (HtmlState.opened tag attributes).map (fillStep values) := by
  unfold HtmlState.opened
  by_cases other : Html.otherContent.any (· = tag) = true
  · rw [if_pos other, if_pos other]
    rfl
  · rw [if_neg other, if_neg other]
    by_cases style : tag = text "style"
    · rw [if_pos style, if_pos style]
      rfl
    · rw [if_neg style, if_neg style]
      rfl

/-- What a character of the template does, it does in the filled one. -/
theorem stepUnit_fill (st : HtmlState ι) (c : UInt16) :
    (st.fill values).stepUnit c = (st.stepUnit c).map (fillStep values) := by
  have unit : ∀ d, fillValue values [.unit d] = [.unit d] := fun _ => rfl
  have distribute := fun (P : Prop) [Decidable P] a b =>
    apply_ite (Option.map (fillStep values)) P a b
  cases st <;>
    simp only [HtmlState.fill, HtmlState.stepUnit, distribute, Option.map_some, Option.map_none,
      Option.map_map, opened_fill, ← fillAttributes_withAttribute, ← unit, ← fillValue_append]
  case tagName tag =>
    rw [← opened_fill tag ([] : List (Text × Markup ι))]
    rfl
  all_goals rfl

/-- Escaped text is read as the text. -/
theorem tokenize_text (E : Escaping esc) (s : Text) :
    tokenize (.data : HtmlState Empty) (units (s.flatMap esc)) =
      some ((shown s).map fun c => .char (.unit c), .data) := by
  induction s with
  | nil => rfl
  | cons c rest ih =>
    rw [List.flatMap_cons, units, List.map_append]
    have first : tokenize (.data : HtmlState Empty) (units (esc c)) =
        some ((shown [c]).map fun c => .char (.unit c), .data) := by
      by_cases null : c = 0
      · subst null
        rw [E.plain 0 (.inl rfl)]
        rfl
      · rw [E.text c null]
        simp [shown, null]
    have whole := tokenize_trans first ih
    rw [← List.map_append] at whole
    rw [show shown (c :: rest) = shown [c] ++ shown rest from List.filter_append [c] rest]
    exact whole

theorem tokenize_value (E : Escaping esc) (tag : Text) (attributes : List (Text × Markup Empty))
    (name : Text) (v : Markup Empty) (s : Text) :
    tokenize (.value tag attributes name v) (units (s.flatMap esc)) =
      some ([], .value tag attributes name (v ++ units (inValue s))) := by
  induction s generalizing v with
  | nil => simp [tokenize, units, inValue]
  | cons c rest ih =>
    rw [List.flatMap_cons, units, List.map_append]
    have first : tokenize (.value tag attributes name v) (units (esc c)) =
        some ([], .value tag attributes name (v ++ units (inValue [c]))) := by
      by_cases null : c = 0
      · subst null
        rw [E.plain 0 (.inl rfl)]
        rfl
      · rw [E.value tag attributes name v c null]
        simp [units, inValue, null]
    have whole := tokenize_trans first (ih (v ++ units (inValue [c])))
    rw [List.append_assoc] at whole
    exact whole

theorem tokenize_glyph (E : Escaping esc) {st next : HtmlState ι} {g : Glyph ι}
    {ts : List (HtmlToken ι)} (h : st.step g = some (ts, next)) :
    tokenize (st.fill values) (units (g.source esc values)) =
      some (ts.flatMap (·.fill values), next.fill values) := by
  cases g with
  | unit c =>
    show tokenize (st.fill values) [.unit c] = _
    rw [tokenize_single]
    show (st.fill values).stepUnit c = _
    rw [stepUnit_fill, show st.stepUnit c = some (ts, next) from h]
    rfl
  | hole k =>
    have h : st.stepHole k = some (ts, next) := h
    cases st with
    | data =>
      cases h
      show tokenize .data (units ((values k).flatMap esc)) = _
      rw [tokenize_text E]
      simp [HtmlToken.fill, HtmlState.fill]
    | value tag attributes name v =>
      cases h
      show tokenize (.value tag _ name _) (units ((values k).flatMap esc)) = _
      rw [tokenize_value E]
      simp [HtmlState.fill, fillValue]
    | _ => cases h

/-- A filled template is read as the template is, with the values in the holes. -/
theorem tokenize_source (E : Escaping esc) {m : Markup ι} {st last : HtmlState ι}
    {ts : List (HtmlToken ι)} (h : tokenize st m = some (ts, last)) :
    tokenize (st.fill values) (units (m.source esc values)) =
      some (ts.flatMap (·.fill values), last.fill values) := by
  induction m generalizing st ts with
  | nil =>
    cases h
    rfl
  | cons g rest ih =>
    simp only [tokenize] at h
    cases step : st.step g with
    | none => simp [step] at h
    | some r =>
      obtain ⟨us, next⟩ := r
      simp only [step, Option.map_eq_some_iff, Prod.mk.injEq] at h
      obtain ⟨⟨vs, last⟩, read, rfl, rfl⟩ := h
      have whole := tokenize_trans (tokenize_glyph E step) (ih read)
      rw [← List.flatMap_append, units, units, ← List.map_append] at whole
      exact whole

/-! ## Line ends -/

namespace Html

theorem normalizeNewlines_cons {c : UInt16} (other : c ≠ 13) (s : Text) :
    normalizeNewlines (c :: s) = c :: normalizeNewlines s := by
  cases s with
  | nil => simp [normalizeNewlines, other]
  | cons d rest => simp [normalizeNewlines, other]

theorem normalizeNewlines_return {s : Text} (notFeed : s.head? ≠ some 10) :
    normalizeNewlines (13 :: s) = 10 :: normalizeNewlines s := by
  cases s with
  | nil => rfl
  | cons d rest =>
    have other : d ≠ 10 := fun same => notFeed (congrArg some same)
    simp [normalizeNewlines, other]

theorem normalizeNewlines_append_plain {a : Text} (noReturn : 13 ∉ a) (b : Text) :
    normalizeNewlines (a ++ b) = a ++ normalizeNewlines b := by
  induction a with
  | nil => rfl
  | cons c rest ih =>
    rw [List.mem_cons, not_or] at noReturn
    rw [List.cons_append, normalizeNewlines_cons (Ne.symm noReturn.1), ih noReturn.2]
    rfl

theorem normalizeNewlines_append (a : Text) {b : Text} (notFeed : b.head? ≠ some 10) :
    normalizeNewlines (a ++ b) = normalizeNewlines a ++ normalizeNewlines b := by
  induction a with
  | nil => rfl
  | cons c rest ih =>
    rw [List.cons_append]
    by_cases carriage : c = 13
    · subst carriage
      cases rest with
      | nil => exact normalizeNewlines_return notFeed
      | cons d rest =>
        rw [List.cons_append] at ih ⊢
        by_cases feed : d = 10
        · subst feed
          simp only [normalizeNewlines, if_true]
          exact ih
        · simp only [normalizeNewlines, if_true, feed, if_false, List.cons_append]
          rw [ih]
    · rw [normalizeNewlines_cons carriage, normalizeNewlines_cons carriage, ih]
      rfl

end Html

open Html

theorem Escaping.ne_nil (E : Escaping esc) (c : UInt16) : esc c ≠ [] := by
  intro empty
  by_cases null : c = 0
  · rw [E.plain c (.inl null)] at empty
    cases empty
  · have read := E.text c null
    rw [empty] at read
    cases read

/-- Escaped text starts with a line feed only if the text does. -/
theorem head?_escaped (E : Escaping esc) {s : Text} (notFeed : s.head? ≠ some 10) :
    (s.flatMap esc).head? ≠ some 10 := by
  cases s with
  | nil => exact notFeed
  | cons c rest =>
    have other : c ≠ 10 := fun same => notFeed (congrArg some same)
    have absent : 10 ∉ esc c := by
      by_cases carriage : c = 13
      · subst carriage
        rw [E.plain 13 (.inr (.inr rfl))]
        decide
      · exact (E.newline c other carriage).1
    rw [List.flatMap_cons, List.head?_append_of_ne_nil _ (E.ne_nil c)]
    intro first
    exact absent (List.mem_of_head? first)

/-- The ends of lines are made the same before the escaping or behind it. -/
theorem normalizeNewlines_escaped (E : Escaping esc) (s : Text) :
    normalizeNewlines (s.flatMap esc) = (normalizeNewlines s).flatMap esc := by
  have noReturn : ∀ c, c ≠ 13 → 13 ∉ esc c := by
    intro c other
    by_cases feed : c = 10
    · subst feed
      rw [E.plain 10 (.inr (.inl rfl))]
      decide
    · exact (E.newline c feed other).2
  induction s with
  | nil => rfl
  | cons c rest ih =>
    rw [List.flatMap_cons]
    by_cases carriage : c = 13
    · subst carriage
      rw [E.plain 13 (.inr (.inr rfl)), List.singleton_append]
      by_cases feed : rest.head? = some 10
      · obtain ⟨rest, rfl⟩ := List.head?_eq_some_iff.mp feed
        rw [List.flatMap_cons, E.plain 10 (.inr (.inl rfl))] at ih ⊢
        simp only [List.singleton_append, normalizeNewlines, if_true] at ih ⊢
        exact ih
      · rw [normalizeNewlines_return (head?_escaped E feed), normalizeNewlines_return feed, ih,
          List.flatMap_cons, E.plain 10 (.inr (.inl rfl))]
        rfl
    · rw [normalizeNewlines_append_plain (noReturn c carriage), normalizeNewlines_cons carriage, ih]
      rfl

/-- Nothing in the template makes a line end with what is in a hole. -/
def Markup.isApart : Markup ι → Bool
  | [] => true
  | .unit c :: rest => c ≠ 13 && Markup.isApart rest
  | [.hole _] => true
  | .hole _ :: .hole _ :: _ => false
  | .hole _ :: .unit c :: rest => c ≠ 10 && Markup.isApart (.unit c :: rest)

theorem normalizeNewlines_source (E : Escaping esc) {m : Markup ι} (apart : m.isApart = true) :
    normalizeNewlines (m.source esc values) =
      m.source esc fun k => normalizeNewlines (values k) := by
  induction m using Markup.isApart.induct with
  | case1 => rfl
  | case2 c rest ih =>
    simp only [Markup.isApart, Bool.and_eq_true, decide_eq_true_eq] at apart
    show normalizeNewlines (c :: Markup.source esc values rest) = c :: _
    rw [normalizeNewlines_cons apart.1, ih apart.2]
    rfl
  | case3 k =>
    simp only [Markup.source, List.flatMap_cons, List.flatMap_nil, List.append_nil, Glyph.source]
    exact normalizeNewlines_escaped E _
  | case4 k j rest => cases apart
  | case5 k c rest ih =>
    have apart : (decide (c ≠ 10) && Markup.isApart (.unit c :: rest)) = true := apart
    rw [Bool.and_eq_true, decide_eq_true_eq] at apart
    have notFeed : (Markup.source esc values (.unit c :: rest)).head? ≠ some 10 := by
      intro first
      exact apart.1 (Option.some.inj first)
    show normalizeNewlines ((values k).flatMap esc ++
      Markup.source esc values (.unit c :: rest)) = _
    rw [normalizeNewlines_append _ notFeed, normalizeNewlines_escaped E, ih apart.2]
    rfl

/-- So is the text of a filled template: it is read as the template, whatever is in the holes. -/
theorem readHtml_source (E : Escaping esc) {m : Markup ι} {ts : List (HtmlToken ι)}
    (apart : m.isApart = true) (read : readMarkup m = some ts) :
    readHtml (m.source esc values) =
      some (ts.flatMap (·.fill fun k => normalizeNewlines (values k))) := by
  unfold readMarkup at read
  cases tokens : tokenize .data m with
  | none => simp [tokens] at read
  | some r =>
    obtain ⟨us, last⟩ := r
    rw [tokens] at read
    cases last with
    | data =>
      cases read
      have filled : tokenize .data
          (units (Markup.source esc (fun k => normalizeNewlines (values k)) m)) =
            some (ts.flatMap (·.fill fun k => normalizeNewlines (values k)), .data) :=
        tokenize_source E tokens
      rw [readHtml, normalizeNewlines_source E apart]
      unfold readMarkup
      rw [filled]
    | _ => cases read

/-- The strings in the holes may be escaped by themselves. -/
theorem evaluate_escaped {m : Markup ι} {strings : ι → Text}
    (escaped : ∀ k, strings k = (values k).flatMap esc) :
    m.evaluate strings = m.source esc values := by
  unfold Markup.evaluate Markup.source
  congr 1
  funext g
  cases g with
  | unit c => rfl
  | hole k => exact escaped k

/-! ## Trees -/

/-- Text, or an element with its content. -/
inductive HtmlNode (ι : Type) where
  | text (m : Markup ι)
  | element (tag : Text) (attributes : List (Text × Markup ι)) (children : List (HtmlNode ι))

mutual

def HtmlNode.tokens : HtmlNode ι → List (HtmlToken ι)
  | .text m => m.map .char
  | .element tag attributes children =>
    .startTag tag attributes :: (HtmlNode.allTokens children ++ [.endTag tag])

def HtmlNode.allTokens : List (HtmlNode ι) → List (HtmlToken ι)
  | [] => []
  | node :: rest => node.tokens ++ HtmlNode.allTokens rest

end

section

variable (values : ι → Text)

def fillText (m : Markup ι) : Markup Empty :=
  m.flatMap fun
    | .unit c => [.unit c]
    | .hole k => units (shown (values k))

mutual

/-- The tree with what is in its holes. -/
def HtmlNode.fill : HtmlNode ι → HtmlNode Empty
  | .text m => .text (fillText values m)
  | .element tag attributes children =>
    .element tag (fillAttributes values attributes) (HtmlNode.fillAll children)

def HtmlNode.fillAll : List (HtmlNode ι) → List (HtmlNode Empty)
  | [] => []
  | node :: rest => node.fill :: HtmlNode.fillAll rest

end

theorem map_fillText (m : Markup ι) :
    (fillText values m).map .char = (m.map .char).flatMap (HtmlToken.fill values) := by
  induction m with
  | nil => rfl
  | cons g rest ih =>
    rw [fillText, List.flatMap_cons, List.map_append, List.map_cons, List.flatMap_cons, ← ih]
    cases g with
    | unit c => rfl
    | hole k => simp [HtmlToken.fill, units, fillText]

mutual

theorem HtmlNode.tokens_fill (node : HtmlNode ι) :
    (node.fill values).tokens = node.tokens.flatMap (HtmlToken.fill values) := by
  cases node with
  | text m =>
    simp only [HtmlNode.fill, HtmlNode.tokens]
    exact map_fillText values m
  | element tag attributes children =>
    simp only [HtmlNode.fill, HtmlNode.tokens, List.flatMap_cons, List.flatMap_append]
    rw [HtmlNode.allTokens_fillAll children]
    rfl

theorem HtmlNode.allTokens_fillAll (nodes : List (HtmlNode ι)) :
    HtmlNode.allTokens (HtmlNode.fillAll values nodes) =
      (HtmlNode.allTokens nodes).flatMap (HtmlToken.fill values) := by
  cases nodes with
  | nil => rfl
  | cons node rest =>
    simp only [HtmlNode.fillAll, HtmlNode.allTokens, List.flatMap_append]
    rw [HtmlNode.tokens_fill node, HtmlNode.allTokens_fillAll rest]

end

end

/-- A filled template is the filled tree. -/
theorem readHtml_evaluate (E : Escaping esc) {m : Markup ι} {nodes : List (HtmlNode ι)}
    (apart : m.isApart = true) (tree : readMarkup m = some (HtmlNode.allTokens nodes))
    {strings : ι → Text} (escaped : ∀ k, strings k = (values k).flatMap esc) :
    readHtml (m.evaluate strings) = some (HtmlNode.allTokens
      (HtmlNode.fillAll (fun k => normalizeNewlines (values k)) nodes)) := by
  rw [evaluate_escaped escaped, readHtml_source E apart tree, HtmlNode.allTokens_fillAll]

end Syrotp
