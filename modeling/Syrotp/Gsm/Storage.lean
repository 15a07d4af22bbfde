import Syrotp.Gsm.Modem

/-!
# What a modem stores and how it lists it

The other side of the driver: a stored message, with a body of any text, and the lines and the
text in which a modem in text mode lists its messages.
-/

namespace Syrotp.Gsm

open Py

/-- Text that can stand between quotes on one line. -/
def Quotable (s : Str) : Prop := '"' ∉ s ∧ '\n' ∉ s

instance (s : Str) : Decidable (Quotable s) := inferInstanceAs (Decidable (_ ∧ _))

/-- A message on the modem. -/
structure StoredSms where
  index : Nat
  status : Str
  sender : Str
  /-- The phone book's name of the sender, if it lists one. -/
  alpha : Option Str
  scts : Str
  body : Str
  status_quotable : Quotable status
  sender_quotable : Quotable sender
  alpha_quotable : ∀ a, alpha = some a → Quotable a ∧ ',' ∉ a
  scts_quotable : Quotable scts
  scts_nonempty : scts ≠ []

/-- The name in quotes, or nothing. -/
def alphaField : Option Str → Str
  | none => []
  | some a => '"' :: (a ++ ['"'])

/-- The header line. -/
def StoredSms.header (m : StoredSms) : Str :=
  cmglPrefix ++ ' ' :: (Nat.toDigits 10 m.index ++ ',' :: '"' :: (m.status ++
    '"' :: ',' :: '"' :: (m.sender ++ '"' :: ',' :: (alphaField m.alpha ++
      ',' :: '"' :: (m.scts ++ ['"'])))))

/-- The lines of the body. -/
def StoredSms.bodyLines (m : StoredSms) : List Str := m.body.splitOn '\n'

/-- What the modem lists for one message. -/
def StoredSms.lines (m : StoredSms) : List Str := m.header :: m.bodyLines

/-- What is received of it: the lines without their terminators, the empty ones left out. -/
def StoredSms.received (m : StoredSms) : List Str :=
  (m.header :: m.bodyLines.map rstripLine).filter (· ≠ [])

/-- What it sends for all of them, with its final result code. -/
def sent (messages : List StoredSms) : Str :=
  messages.flatMap (fun m => m.header ++ '\r' :: '\n' :: (m.body ++ ['\r', '\n'])) ++ str "OK\r\n"

/-- What successive calls of `readline` return of a text that is all there. -/
def readlines : Str → List Str
  | [] => []
  | c :: cs =>
    if c = '\n' then ['\n'] :: readlines cs
    else
      match readlines cs with
      | [] => [[c]]
      | line :: rest => (c :: line) :: rest

/-- A stored message as the gateway should see it: index, sender, and the body up to surrounding
white space. -/
def StoredSms.content (m : StoredSms) : Nat × Str × Str := (m.index, m.sender, strip m.body)

def IncomingSms.content (m : IncomingSms) : Nat × Str × Str := (m.index, m.sender, strip m.body)

end Syrotp.Gsm
