import Syrotp.Misc.Percent

/-!
# The link that opens the SMS app

Each front end builds an `sms:` link with the receiver's number and the message: the hosted page,
the web component and the React component, and the packages for Flutter, SwiftUI and Android. The
encoders of the platforms leave different characters as they are. Text with lone surrogates is left
out.
-/

namespace Syrotp

namespace SmsLink

/-- Letters and digits, and some marks besides. -/
def alnumOr (marks : Text) (c : UInt16) : Bool := Text.isAlnum c || marks.contains c

/-- What `encodeURIComponent` leaves, and `Uri.encodeComponent` of Dart and `Uri.encode` of
Android. -/
def uriMarks : Text := text "-_.!~*'()"

/-- The `allowed` of `SmsIntent.swift`. -/
def swiftMarks : Text := text "-._~"

/-- What `URLEncoder` of Java leaves. -/
def javaMarks : Text := text "-_.*"

/-- `encodeURIComponent(s)`. -/
def encodeURIComponent (s : Text) : Text := Percent.encode (alnumOr uriMarks) (toUtf8 s)

/-- `URLEncoder.encode(s, "UTF-8")`. -/
def urlEncode (s : Text) : Text :=
  (toUtf8 s).flatMap fun b => if b = 32 then [43] else Percent.encodeByte (alnumOr javaMarks) b

/-- `s.replace("+", "%20")`. -/
def replacePlus (s : Text) : Text := s.flatMap fun c => if c = 43 then text "%20" else [c]

/-- The front ends. -/
inductive FrontEnd where
  | hosted
  | webComponent
  | react
  | flutter
  | swiftUi
  | androidUi
  deriving DecidableEq, Repr

/-- `encodeSmsBody`, or `encodeURIComponent` where there is no function of that name. -/
def FrontEnd.encodeSmsBody : FrontEnd → Text → Text
  | .hosted, body | .webComponent, body | .react, body => encodeURIComponent body
  | .flutter, body => encodeURIComponent body
  | .swiftUi, body => Percent.encode (alnumOr swiftMarks) (toUtf8 body)
  | .androidUi, body => replacePlus (urlEncode body)

/-- The number as it stands in the link: two of them encode it. -/
def FrontEnd.recipient : FrontEnd → Text → Text
  | .hosted, sendTo | .androidUi, sendTo => encodeURIComponent sendTo
  | .webComponent, sendTo | .react, sendTo | .flutter, sendTo | .swiftUi, sendTo => sendTo

/-- `smsHref`, `buildSmsLink`, `buildSmsUri` and `buildSmsUrl`. -/
def FrontEnd.smsLink (f : FrontEnd) (sendTo body : Text) : Text :=
  text "sms:" ++ f.recipient sendTo ++ text "?body=" ++ f.encodeSmsBody body

example : FrontEnd.hosted.smsLink (text "+9631") (text "VERIFY A?") =
    text "sms:%2B9631?body=VERIFY%20A%3F" := by decide +kernel

/-! ## Reading a link -/

/-- What the SMS app makes of a link: the number, and the `body` up to the next separator. -/
def readSmsLink (link : Text) : Option (Text × Text) :=
  if !Text.startsWith link (text "sms:") then none
  else
    let number := (link.drop 4).takeWhile (· ≠ 63)
    let query := (link.drop 4).dropWhile (· ≠ 63)
    if !Text.startsWith query (text "?body=") then none
    else
      match Percent.decode number,
        Percent.decode ((query.drop 6).takeWhile fun c => c ≠ 38 ∧ c ≠ 35) with
      | some number, some body => some (fromUtf8 number, fromUtf8 body)
      | _, _ => none

end SmsLink

end Syrotp
