import Syrotp.Ui.WidgetMarkup
import Syrotp.Misc.Decimal

/-!
# What the web component shows

The shadow root is the same tree whatever the record and the attributes say; their strings are text
in it and the target of the link, and nothing else.
-/

namespace Syrotp.Ui

/-! ## Escaping -/

/-- The five characters that are escaped. -/
def isSpecial (c : UInt16) : Prop := c = 38 ∨ c = 60 ∨ c = 62 ∨ c = 34 ∨ c = 39

instance (c : UInt16) : Decidable (isSpecial c) :=
  inferInstanceAs (Decidable (_ ∨ _ ∨ _ ∨ _ ∨ _))

theorem escapeChar_other {c : UInt16} (other : ¬ isSpecial c) : escapeChar c = [c] := by
  simp only [isSpecial, not_or] at other
  simp only [escapeChar, other, if_false]

theorem escaping_escapeChar : Escaping escapeChar where
  text c null := by
    by_cases special : isSpecial c
    · obtain rfl | rfl | rfl | rfl | rfl := special
      all_goals decide +kernel
    · rw [escapeChar_other special]
      show tokenize .data [.unit c] = _
      simp only [isSpecial, not_or] at special
      rw [tokenize_single]
      simp [HtmlState.step, HtmlState.stepUnit, special, null]
  value tag attributes name v c null := by
    by_cases special : isSpecial c
    · obtain rfl | rfl | rfl | rfl | rfl := special
      all_goals rfl
    · rw [escapeChar_other special]
      show tokenize (.value tag attributes name v) [.unit c] = _
      simp only [isSpecial, not_or] at special
      rw [tokenize_single]
      simp [HtmlState.step, HtmlState.stepUnit, special, null]
  plain c h := by
    obtain rfl | rfl | rfl := h
    all_goals rfl
  newline c feed carriage := by
    by_cases special : isSpecial c
    · obtain rfl | rfl | rfl | rfl | rfl := special
      all_goals decide +kernel
    · rw [escapeChar_other special]
      simp [Ne.symm feed, Ne.symm carriage]

/-! ## The tree -/

/-- The white space before a line. -/
def line {ι : Type} (n : Nat) : HtmlNode ι := .text (units (10 :: List.replicate n 32))

def said {ι : Type} (s : String) : HtmlNode ι := .text (units (literal s))

def shownAt {ι : Type} (k : ι) : HtmlNode ι := .text [.hole k]

def attr {ι : Type} (name value : String) : Text × Markup ι := (literal name, units (literal value))

def node {ι : Type} (tag : String) (attributes : List (Text × Markup ι))
    (children : List (HtmlNode ι)) : HtmlNode ι := .element (literal tag) attributes children

def container {ι : Type} (children : List (HtmlNode ι)) : HtmlNode ι :=
  node "div" [attr "class" "container", attr "data-syrotp" "container",
    attr "role" "region", attr "aria-label" "Phone verification"] children

def style {ι : Type} : HtmlNode ι := node "style" [] [.text (units STYLES)]

/-- The instruction, the two numbers, the message, the button, the link and the countdown. -/
def pendingView : List (HtmlNode PendingHole) :=
  [line 8, style, line 8, container
    [line 10, node "div" [attr "data-syrotp" "instruction"] [shownAt .instruction],
      line 10, node "div" [attr "data-syrotp" "phone-masked", attr "class" "muted"]
        [said "From: ", node "span" [] [shownAt .phoneMasked]],
      line 10, node "div" [attr "data-syrotp" "send-to", attr "class" "muted"]
        [said "To: ", node "code" [] [shownAt .sendTo]],
      line 10, node "div" [attr "data-syrotp" "message", attr "class" "msg",
        attr "aria-label" "SMS message body"] [shownAt .message],
      line 10, node "div" [attr "class" "actions"]
        [line 12, node "button" [attr "type" "button", attr "data-syrotp" "copy",
            attr "aria-label" "Copy SMS body to clipboard"] [said "Copy"],
          line 12, node "a" [attr "class" "btn", attr "data-syrotp" "sms-link",
            (literal "href", [.hole .smsLink])] [said "Open SMS app"],
          line 10],
      line 10, node "div" [attr "data-syrotp" "countdown", attr "role" "timer",
        attr "aria-label" "Time remaining", attr "class" "small"]
        [line 12, said "Expires in ", node "span" [] [shownAt .countdown], line 10],
      line 8], line 6]

def statusView : List (HtmlNode StatusHole) :=
  [line 6, style, line 6, container
    [line 8, node "div" [attr "data-syrotp" "status",
        (literal "class", units (literal "status ") ++ [.hole .cls]), attr "role" "status",
        attr "aria-live" "polite"] [shownAt .text],
      line 6], line 4]

theorem readMarkup_pending :
    readMarkup pendingTemplate = some (HtmlNode.allTokens pendingView) := by
  decide +kernel

theorem readMarkup_status :
    readMarkup statusTemplate = some (HtmlNode.allTokens statusView) := by
  decide +kernel

theorem isApart_pending : pendingTemplate.isApart = true := by decide +kernel

theorem isApart_status : statusTemplate.isApart = true := by decide +kernel

/-! ## What is shown -/

/-- The strings of the pending state, as they are. -/
def pendingValues (initialInstruction : Option Text) (v : Verification) (secsLeft : Option Nat) :
    PendingHole → Text
  | .instruction => initialInstruction.getD defaultInstruction
  | .phoneMasked => v.phoneMasked
  | .sendTo => v.sendTo.getD []
  | .message => v.message.getD []
  | .smsLink => SmsLink.FrontEnd.webComponent.smsLink (v.sendTo.getD []) (v.message.getD [])
  | .countdown => formatCountdown secsLeft

def statusValues (cls message : Text) : StatusHole → Text
  | .cls => cls
  | .text => message

/-- The class and the text of a status that has come to an end. -/
def verdict : VerificationStatus → Option (Text × Text)
  | .pending => none
  | .verified => some (text "ok", text "Phone verified.")
  | .expired => some (text "warn", text "Verification expired. Start a new one to continue.")
  | .cancelled => some (text "muted", text "Verification cancelled.")
  | .failed => some (text "error", text "Verification failed.")

/-- The tree under the root: a fixed one for each state, with the strings in its places. -/
def widgetTree (initialInstruction : Option Text) (v : Verification) (secsLeft : Option Nat) :
    List (HtmlNode Empty) :=
  if awaitsSms v then
    HtmlNode.fillAll
      (fun k => Html.normalizeNewlines (pendingValues initialInstruction v secsLeft k)) pendingView
  else
    (verdict v.status).elim [] fun shown =>
      HtmlNode.fillAll (fun k => Html.normalizeNewlines (statusValues shown.1 shown.2 k)) statusView

theorem escapeHtml_of_plain {s : Text} (plain : ∀ c ∈ s, ¬ isSpecial c) : escapeHtml s = s := by
  induction s with
  | nil => rfl
  | cons c rest ih =>
    rw [List.forall_mem_cons] at plain
    rw [escapeHtml, List.flatMap_cons, escapeChar_other plain.1]
    show c :: escapeHtml rest = _
    rw [ih plain.2]

theorem not_special_of_digit {c : UInt16} (digit : Text.isDigit c = true) : ¬ isSpecial c := by
  intro special
  obtain rfl | rfl | rfl | rfl | rfl := special
  all_goals cases digit

theorem not_special_ofInt (n : Nat) : ∀ c ∈ Text.ofInt n, ¬ isSpecial c := by
  intro c mem
  rw [Text.ofInt_nat] at mem
  exact not_special_of_digit (Text.isDigit_of_mem_digits mem)

/-- The countdown stands in the markup as it is. -/
theorem escapeHtml_formatCountdown (secsLeft : Option Nat) :
    escapeHtml (formatCountdown secsLeft) = formatCountdown secsLeft := by
  cases secsLeft with
  | none => decide +kernel
  | some secs =>
    apply escapeHtml_of_plain
    intro c mem
    simp only [formatCountdown, padStart2, List.mem_append, List.mem_replicate] at mem
    obtain (minutes | colon) | ⟨-, rfl⟩ | seconds := mem
    · exact not_special_ofInt _ c minutes
    · have colon : c ∈ [58] := colon
      rw [List.mem_singleton] at colon
      subst colon
      decide
    · decide
    · exact not_special_ofInt _ c seconds

theorem readHtml_statusBlock {cls message : Text} (plain : escapeHtml cls = cls) :
    readHtml (statusBlock cls message) = some (HtmlNode.allTokens (HtmlNode.fillAll
      (fun k => Html.normalizeNewlines (statusValues cls message k)) statusView)) := by
  apply readHtml_evaluate escaping_escapeChar isApart_status readMarkup_status
  intro k
  cases k with
  | cls => exact plain.symm
  | text => rfl

/-- Whatever the record and the attributes say, the browser reads the fixed tree of the state, with
the strings as text and as the target of the link. It throws, writing nothing, exactly if the
message cannot be encoded. -/
theorem widget_markup (initialInstruction : Option Text) (v : Verification)
    (secsLeft : Option Nat) :
    (render initialInstruction v secsLeft = none ↔
      awaitsSms v ∧ isWellFormed (v.message.getD []) = false) ∧
    ∀ html, render initialInstruction v secsLeft = some html →
      readHtml html = some (HtmlNode.allTokens (widgetTree initialInstruction v secsLeft)) := by
  by_cases awaits : awaitsSms v
  · by_cases wellFormed : isWellFormed (v.message.getD []) = true
    · simp only [render, widgetTree, awaits, if_true, wellFormed]
      refine ⟨by simp, ?_⟩
      intro html written
      cases written
      apply readHtml_evaluate escaping_escapeChar isApart_pending readMarkup_pending
      intro k
      cases k with
      | countdown => exact (escapeHtml_formatCountdown secsLeft).symm
      | _ => rfl
    · rw [Bool.not_eq_true] at wellFormed
      simp [render, awaits, wellFormed]
  · simp only [render, widgetTree, awaits, if_false, false_and, iff_false]
    cases v.status with
    | pending =>
      refine ⟨by simp, ?_⟩
      intro html written
      cases written
      rfl
    | _ =>
      refine ⟨by simp, ?_⟩
      intro html written
      cases written
      apply readHtml_statusBlock
      decide +kernel

/-- An instruction that closes the element it stands in and opens a script. -/
def injected : Text := text "</div><script>alert(1)</script>"

def awaited : Verification where
  id := text "ver_1"
  status := .pending
  sendTo := some (text "+963900000000")
  message := some (text "VERIFY \"A\"&<B>")
  phoneMasked := text "+963*****11"
  expiresAt := text "2026-01-01T00:00:00.000Z"
  verifiedAt := none

theorem widget_markup_injected :
    readHtml ((render (some injected) awaited (some 125)).getD []) =
      some (HtmlNode.allTokens (widgetTree (some injected) awaited (some 125))) :=
  (widget_markup (some injected) awaited (some 125)).2 _ (by decide +kernel)

end Syrotp.Ui
