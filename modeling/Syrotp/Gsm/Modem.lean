import Syrotp.Misc.PyText

/-!
# The GSM modem driver

`syrotp_gateway/modem.py`: the line-reading loop of `_command`, the parser of the text-mode
listing and `list_sms`. What `readline` returns before the deadline of a command is a parameter.
-/

namespace Syrotp.Gsm

open Py

abbrev Bytes := List UInt8

/-- `s.startswith(p)`. -/
def startsWith (s p : Str) : Bool := p.isPrefixOf s

/-- `raw.decode("ascii", errors="replace")`. -/
def decodeAscii (raw : Bytes) : Str :=
  raw.map fun b => if b < 128 then Char.ofNat b.toNat else '\uFFFD'

/-- `s.rstrip("\r\n")`. -/
def rstripLine (s : Str) : Str :=
  (s.reverse.dropWhile fun c => c == '\r' || c == '\n').reverse

/-! ## Timestamps -/

def isLeapYear (year : Nat) : Bool := year % 4 == 0 && (year % 100 != 0 || year % 400 == 0)

def daysInMonth (year month : Nat) : Nat :=
  if month = 2 then (if isLeapYear year then 29 else 28)
  else if month ∈ [4, 6, 9, 11] then 30 else 31

/-- `date.toordinal`: the days from the first of January of year 1, which is day 1. -/
def toOrdinal (year month day : Nat) : Nat :=
  let before := year - 1
  before * 365 + before / 4 - before / 100 + before / 400 +
    ((List.range (month - 1)).map fun m => daysInMonth year (m + 1)).sum + day

/-- The milliseconds of `datetime(…, tzinfo=timezone.utc)`, `none` where a field is out of
range. -/
def utcMillis (year month day hour minute second : Int) : Option Int :=
  if 1 ≤ year ∧ year ≤ 9999 ∧ 1 ≤ month ∧ month ≤ 12 ∧ 1 ≤ day ∧
      day ≤ daysInMonth year.toNat month.toNat ∧ hour < 24 ∧ minute < 60 ∧ second < 60 then
    let days : Int := toOrdinal year.toNat month.toNat day.toNat - 719163
    some ((days * 86400 + hour * 3600 + minute * 60 + second) * 1000)
  else none

example : utcMillis 2026 5 2 14 33 11 = some 1777732391000 := by decide

/-- `^(\d{2}):(\d{2}):(\d{2})(?:[+\-]\d{1,2})?$`, whose `$` also matches before a last newline. -/
def timeFields (s : Str) : Option (Int × Int × Int) :=
  let body := if s.getLast? = some '\n' then s.dropLast else s
  match body with
  | h₁ :: h₂ :: ':' :: m₁ :: m₂ :: ':' :: s₁ :: s₂ :: zone =>
    let zoneOk : Bool := match zone with
      | [] => true
      | sign :: digits => (sign == '+' || sign == '-') && 1 ≤ digits.length &&
          digits.length ≤ 2 && digits.all isDecimal
    if zoneOk ∧ [h₁, h₂, m₁, m₂, s₁, s₂].all isDecimal then
      some (intOfDigits [h₁, h₂], intOfDigits [m₁, m₂], intOfDigits [s₁, s₂])
    else none
  | _ => none

/-- `_parse_scts_to_ms`; whatever goes wrong, it answers the clock. -/
def parseSctsToMs (clock : Int) (scts : Str) : Int :=
  let result :=
    if ',' ∈ scts then
      let datePart := scts.takeWhile (· != ',')
      let timePart := (scts.dropWhile (· != ',')).tail
      match timeFields timePart, (datePart.splitOn '/').map pyInt with
      | some (hh, mn, ss), [some yy, some mm, some dd] => utcMillis (2000 + yy) mm dd hh mn ss
      | _, _ => none
    else none
  result.getD clock

example : parseSctsToMs 0 (str "26/05/02,14:33:11+12") = 1777732391000 := by decide +kernel

/-! ## The listing -/

/-- `IncomingSms`. -/
structure IncomingSms where
  index : Nat
  sender : Str
  receivedAtMs : Int
  body : Str
  deriving DecidableEq, Repr

def notQuote (c : Char) : Bool := c != '"'

def isQuote (c : Char) : Bool := c == '"'

/-- `[^",]`. -/
def isAlpha (c : Char) : Bool := c != '"' && c != ','

def cmglPrefix : Str := str "+CMGL:"

/-- `_CMGL_HEADER`. -/
def cmglPattern : List (Piece Char) :=
  [.lit cmglPrefix, .many isSpace, .many1 isDecimal, .lit [','], .many isSpace,
    .lit ['"'], .many notQuote, .lit ['"', ','], .many isSpace,
    .lit ['"'], .many notQuote, .lit ['"', ','], .many isSpace,
    .opt isQuote, .many isAlpha, .opt isQuote, .many isSpace, .lit [','], .many isSpace,
    .lit ['"'], .many1 notQuote, .lit ['"']]

/-- The groups of a match that the parser reads. -/
structure CmglHeader where
  index : Str
  sender : Str
  scts : Str
  deriving DecidableEq, Repr

/-- `_CMGL_HEADER.match(line)`. -/
def cmglHeader (line : Str) : Option CmglHeader :=
  (captures cmglPattern line).map fun groups =>
    ⟨groups.getD 2 [], groups.getD 10 [], groups.getD 20 []⟩

/-- A line of the listing that does not end a body. -/
def isBodyLine (line : Str) : Bool := !startsWith line cmglPrefix

/-- `_parse_cmgl_block`, with the clock that each message found so far has in case its timestamp
cannot be read. -/
def parseCmglBlock (clock : Nat → Int) (found : Nat) : List Str → List IncomingSms
  | [] => []
  | line :: rest =>
    match cmglHeader line with
    | none => parseCmglBlock clock found rest
    | some h =>
      { index := intOfDigits h.index
        sender := h.sender
        receivedAtMs := parseSctsToMs (clock found) h.scts
        body := strip (['\n'].intercalate (rest.takeWhile isBodyLine)) } ::
        parseCmglBlock clock (found + 1) (rest.dropWhile isBodyLine)
termination_by lines => lines.length
decreasing_by
  · simp
  · exact Nat.lt_succ_of_le (List.dropWhile_suffix _).length_le

/-! ## Commands -/

/-- `ModemError`, with what its message reports. -/
inductive ModemError where
  | notOpen
  | unexpectedOk (expect cmd : Str)
  | error (cmd line : Str)
  | timeout (expect cmd : Str)
  deriving DecidableEq, Repr

/-- The loop of `_command` over what `readline` returns until the deadline. -/
def readResponse (cmd expect : Str) : List Bytes → List Str → Except ModemError (List Str)
  | [], _ => .error (.timeout expect cmd)
  | raw :: reads, lines =>
    if raw = [] then readResponse cmd expect reads lines
    else
      let line := rstripLine (decodeAscii raw)
      if line = [] then readResponse cmd expect reads lines
      else if line = str "OK" then
        if expect = str "OK" then .ok lines else .error (.unexpectedOk expect cmd)
      else if startsWith line (str "ERROR") ∨ startsWith line (str "+CME ERROR") then
        .error (.error cmd line)
      else readResponse cmd expect reads (lines ++ [line])

/-- `_command`. -/
def command (isOpen : Bool) (cmd expect : Str) (reads : List Bytes) :
    Except ModemError (List Str) :=
  if isOpen then readResponse cmd expect reads [] else .error .notOpen

/-- `list_sms`, where `int` takes the index in every header. -/
def listSms (isOpen : Bool) (clock : Nat → Int) (reads : List Bytes) : List IncomingSms :=
  match command isOpen (str "AT+CMGL=\"ALL\"") (str "OK") reads with
  | .error _ => []
  | .ok lines => parseCmglBlock clock 0 lines

/-- `list_sms` raises: a header has an index of more digits than `int` takes. -/
def listSmsRaises (isOpen : Bool) (reads : List Bytes) : Bool :=
  match command isOpen (str "AT+CMGL=\"ALL\"") (str "OK") reads with
  | .error _ => false
  | .ok lines => lines.any fun line =>
      (cmglHeader line).any fun h => maxStrDigits < h.index.length

end Syrotp.Gsm
