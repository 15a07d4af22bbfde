import Syrotp.Misc.JsText

/-!
# What the admin pages show of a message

`maskInboundBody` of `admin/web/masks.ts`, for bodies that are strings.
-/

namespace Syrotp

/-- `[A-Za-z]`. -/
def Text.isLetter (c : UInt16) : Bool := (65 ≤ c && c ≤ 90) || (97 ≤ c && c ≤ 122)

/-- What `/^[A-Za-z][A-Za-z0-9]{0,15}/` matches, if anything. -/
def verb (trimmed : Text) : Text :=
  match trimmed with
  | [] => []
  | c :: rest => if Text.isLetter c then c :: (rest.takeWhile Text.isAlnum).take 15 else []

/-- `maskInboundBody`. What it calls bytes are code units. -/
def maskInboundBody (body : Text) : Text :=
  if body.length = 0 then text "(empty)"
  else Text.trim (verb (Text.trim body) ++ text " *** (" ++ Text.ofInt body.length ++
    text " bytes)")

example : maskInboundBody (text "VERIFY A7K9P2") = text "VERIFY *** (13 bytes)" := by
  decide +kernel

end Syrotp
