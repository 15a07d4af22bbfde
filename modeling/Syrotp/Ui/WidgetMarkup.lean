import Syrotp.Misc.Html
import Syrotp.Ui.SmsLink
import Syrotp.Ui.Verification

/-!
# The markup of the web component

`render.ts` of `packages/web-component`, and `render` of `element.ts`, which writes it into the
shadow root.
-/

namespace Syrotp.Ui

/-- A literal of the source, whose characters are all ASCII, by its bytes. -/
def literal (s : String) : Text := s.toByteArray.data.toList.map UInt8.toUInt16

/-- The lines of a template literal. -/
def lines (ls : List String) : Text := [10].intercalate (ls.map literal)

example : lines ["<a>", ""] = text "<a>\n" := by decide +kernel

/-- The replacement of `escapeHtml`. -/
def escapeChar (c : UInt16) : Text :=
  if c = 38 then text "&amp;"
  else if c = 60 then text "&lt;"
  else if c = 62 then text "&gt;"
  else if c = 34 then text "&quot;"
  else if c = 39 then text "&#39;"
  else [c]

def escapeHtml (s : Text) : Text := s.flatMap escapeChar

/-- `s.padStart(2, "0")`. -/
def padStart2 (s : Text) : Text := List.replicate (2 - s.length) 48 ++ s

/-- `formatCountdown`, of `NaN` too. -/
def formatCountdown : Option Nat → Text
  | none => text "NaN:NaN"
  | some secs => Text.ofInt (secs / 60 : Nat) ++ text ":" ++ padStart2 (Text.ofInt (secs % 60 : Nat))

example : formatCountdown (some 125) = text "2:05" := by decide +kernel

def STYLES : Text :=
  lines ["",
    "  :host \x7b display: block; \x7d",
    "  .container \x7b",
    "    font-family: system-ui, -apple-system, \"Segoe UI\", sans-serif;",
    "    max-width: 420px;",
    "    padding: 16px;",
    "    border: 1px solid #e5e7eb;",
    "    border-radius: 8px;",
    "    display: flex;",
    "    flex-direction: column;",
    "    gap: 12px;",
    "  \x7d",
    "  .muted \x7b font-size: 14px; color: #4b5563; \x7d",
    "  .small \x7b font-size: 13px; color: #6b7280; \x7d",
    "  .msg \x7b",
    "    font-family: ui-monospace, SFMono-Regular, Menlo, monospace;",
    "    font-size: 18px;",
    "    padding: 10px 12px;",
    "    background: #f3f4f6;",
    "    border-radius: 6px;",
    "    border: 1px solid #e5e7eb;",
    "    user-select: all;",
    "  \x7d",
    "  .actions \x7b display: flex; gap: 8px; flex-wrap: wrap; \x7d",
    "  button, a.btn \x7b",
    "    padding: 8px 12px;",
    "    border: 1px solid #d1d5db;",
    "    border-radius: 6px;",
    "    background: #ffffff;",
    "    cursor: pointer;",
    "    font-size: 14px;",
    "    color: #111827;",
    "    text-decoration: none;",
    "    display: inline-block;",
    "  \x7d",
    "  a.btn \x7b color: #1d4ed8; \x7d",
    "  .status \x7b font-size: 14px; font-weight: 500; \x7d",
    "  .status.ok \x7b color: #15803d; \x7d",
    "  .status.warn \x7b color: #b45309; \x7d",
    "  .status.error \x7b color: #b91c1c; \x7d",
    "  .status.muted \x7b color: #6b7280; \x7d",
    ""]

/-- `DEFAULT_INSTRUCTION`. -/
def defaultInstruction : Text := text "Send this SMS to verify your phone."

/-! ## Templates -/

/-- What is substituted where an SMS is awaited. -/
inductive PendingHole where
  | instruction
  | phoneMasked
  | sendTo
  | message
  | smsLink
  | countdown
  deriving DecidableEq, Repr

/-- The template literal of the state `pending`. -/
def pendingTemplate : Markup PendingHole :=
  units (lines ["",
    "        <style>"]) ++
  units STYLES ++
  units (lines ["</style>",
    "        <div class=\"container\" data-syrotp=\"container\" role=\"region\" aria-label=\"Phone verification\">",
    "          <div data-syrotp=\"instruction\">"]) ++
  [.hole .instruction] ++
  units (lines ["</div>",
    "          <div data-syrotp=\"phone-masked\" class=\"muted\">From: <span>"]) ++
  [.hole .phoneMasked] ++
  units (lines ["</span></div>",
    "          <div data-syrotp=\"send-to\" class=\"muted\">To: <code>"]) ++
  [.hole .sendTo] ++
  units (lines ["</code></div>",
    "          <div data-syrotp=\"message\" class=\"msg\" aria-label=\"SMS message body\">"]) ++
  [.hole .message] ++
  units (lines ["</div>",
    "          <div class=\"actions\">",
    "            <button type=\"button\" data-syrotp=\"copy\" aria-label=\"Copy SMS body to clipboard\">Copy</button>",
    "            <a class=\"btn\" data-syrotp=\"sms-link\" href=\""]) ++
  [.hole .smsLink] ++
  units (lines ["\">Open SMS app</a>",
    "          </div>",
    "          <div data-syrotp=\"countdown\" role=\"timer\" aria-label=\"Time remaining\" class=\"small\">",
    "            Expires in <span>"]) ++
  [.hole .countdown] ++
  units (lines ["</span>",
    "          </div>",
    "        </div>",
    "      "])

inductive StatusHole where
  | cls
  | text
  deriving DecidableEq, Repr

/-- The template literal of `statusBlock`. -/
def statusTemplate : Markup StatusHole :=
  units (lines ["",
    "      <style>"]) ++
  units STYLES ++
  units (lines ["</style>",
    "      <div class=\"container\" data-syrotp=\"container\" role=\"region\" aria-label=\"Phone verification\">",
    "        <div data-syrotp=\"status\" class=\"status "]) ++
  [.hole .cls] ++
  units (lines ["\" role=\"status\" aria-live=\"polite\">"]) ++
  [.hole .text] ++
  units (lines ["</div>",
    "      </div>",
    "    "])

def statusBlock (cls message : Text) : Text :=
  statusTemplate.evaluate fun
    | .cls => cls
    | .text => escapeHtml message

/-- Whether the SMS is still to be sent, and its parts are known. -/
def awaitsSms (v : Verification) : Prop :=
  v.status = .pending ∧ v.sendTo.getD [] ≠ [] ∧ v.message.getD [] ≠ []

instance (v : Verification) : Decidable (awaitsSms v) :=
  inferInstanceAs (Decidable (_ ∧ _ ∧ _))

/-- `render`, with the attribute `initial-instruction`: what becomes the `innerHTML` of the root.
`encodeURIComponent` throws at a lone surrogate, before anything is written. -/
def render (initialInstruction : Option Text) (v : Verification) (secsLeft : Option Nat) :
    Option Text :=
  let instruction := initialInstruction.getD defaultInstruction
  let sendTo := v.sendTo.getD []
  let message := v.message.getD []
  if awaitsSms v then
    if isWellFormed message then
      some <| pendingTemplate.evaluate fun
        | .instruction => escapeHtml instruction
        | .phoneMasked => escapeHtml v.phoneMasked
        | .sendTo => escapeHtml sendTo
        | .message => escapeHtml message
        | .smsLink => escapeHtml (SmsLink.FrontEnd.webComponent.smsLink sendTo message)
        | .countdown => formatCountdown secsLeft
    else none
  else
    match v.status with
    | .verified => some (statusBlock (text "ok") (text "Phone verified."))
    | .expired =>
      some (statusBlock (text "warn")
        (text "Verification expired. Start a new one to continue."))
    | .cancelled => some (statusBlock (text "muted") (text "Verification cancelled."))
    | .failed => some (statusBlock (text "error") (text "Verification failed."))
    | .pending => some []

end Syrotp.Ui
