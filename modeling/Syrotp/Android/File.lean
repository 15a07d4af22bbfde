import Syrotp.Android.QueueText
import Syrotp.Misc.Run

/-!
# The queue file

How `InboundQueue.kt` reads its file and writes it back. `openFileOutput` empties the file, and what
the writer holds reaches it piece by piece. `JSONArray` is a parameter.
-/

namespace Syrotp.Android

/-- `JSONArray`: its text, and its constructor, `none` where that throws. What was written is read
as an array of as many objects, and a text cut short is not an array. -/
structure JsonArray where
  toText : List Item → Bytes
  ofText : Bytes → Option (List Item)
  read_back : ∀ items, ∃ arr, ofText (toText items) = some arr ∧ arr.length = items.length
  torn : ∀ items part, part <+: toText items → part ≠ toText items → ofText part = none

/-- `readArray` of the file, if there is one. -/
def readArray (J : JsonArray) (file : Option Bytes) : List Item :=
  match file with
  | none => []
  | some bytes =>
    match J.ofText bytes with
    | some arr => arr
    | none => []

/-- Where `writeArray` is: the file is as it was, or it is open, with these bytes in it and these
still to come. -/
inductive Writing where
  | waiting (file : Option Bytes)
  | opened (written rest : Bytes)
  deriving DecidableEq

inductive Writing.Action where
  | openFileOutput
  | flush (n : Nat)

/-- One step of `writeArray` of an array with this text. -/
def Writing.step (content : Bytes) : Writing → Writing.Action → Option Writing
  | .waiting _, .openFileOutput => some (.opened [] content)
  | .opened written rest, .flush n => some (.opened (written ++ rest.take n) (rest.drop n))
  | _, _ => none

/-- What a crash leaves on the disk. -/
def Writing.file : Writing → Option Bytes
  | .waiting file => file
  | .opened written _ => some written

/-- The operations that write. -/
inductive Change where
  | enqueue (item : Item)
  | op (op : Op)

def Change.apply : Change → List Item → List Item
  | .enqueue item => Android.enqueue item
  | .op o => o.apply

/-- What the operation writes when it finds this file. -/
def Change.content (J : JsonArray) (change : Change) (file : Option Bytes) : Bytes :=
  J.toText (change.apply (readArray J file))

end Syrotp.Android
