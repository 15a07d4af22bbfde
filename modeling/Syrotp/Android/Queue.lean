import Syrotp.Misc.Digest
import Syrotp.Misc.Table
import Syrotp.Misc.Run

/-!
# The queue of the Android gateway

`InboundQueue.kt`, whose operations read the whole file and write it back, and the two components
that change the file: `SmsReceiver.onReceive` and `UploadWorker.doWork`. Each has an instance of
its own, so the lock of one does not keep the other out. A file that is not there or cannot be read
is an empty array.
-/

namespace Syrotp.Android

/-- What a message is, in an item of the queue. -/
structure Message where
  id : Text
  sender : Text
  recipient : Text
  body : Text
  receivedAtMillis : Int
  idempotencyKey : Text
  simSlot : Option Int
  deriving DecidableEq, Repr

/-- `InboundQueue.Item`. -/
structure Item extends Message where
  attempts : Nat
  deriving DecidableEq, Repr

/-- What `enqueue` writes when it has read these items. -/
def enqueue (item : Item) (arr : List Item) : List Item := arr ++ [item]

/-- The worker's operations. -/
inductive Op where
  | remove (id : Text)
  | bumpAttempts (id : Text)
  deriving DecidableEq

/-- What they write when they have read these items. -/
def Op.apply : Op → List Item → List Item
  | .remove id, arr => arr.filter (·.id ≠ id)
  | .bumpAttempts id, arr => updateWhere (·.id = id)
      (fun o => { o with attempts := o.attempts + 1 }) arr

/-- The item of `enqueue`. -/
def newItem (P : Primitives) (id sender recipient body : Text) (receivedAtMillis : Int)
    (simSlot : Option Int) : Item where
  id := id
  sender := sender
  recipient := recipient
  body := body
  receivedAtMillis := receivedAtMillis
  idempotencyKey := hex (P.sha256 (P.utf8 (sender ++ text "|" ++ recipient ++ text "|" ++
    Text.ofInt receivedAtMillis ++ text "|" ++ body)))
  simSlot := simSlot
  attempts := 0

/-- `UploadWorker.MAX_ATTEMPTS`. -/
def MAX_ATTEMPTS : Nat := 8

/-- What `doWork` does about an item after this status, or after an exception; `none` where it
returns `Result.failure()`. -/
def opsFor (item : Item) : Option Nat → Option (List Op)
  | none => some [.bumpAttempts item.id]
  | some status =>
    if 200 ≤ status ∧ status ≤ 299 ∨ status = 409 then some [.remove item.id]
    else if status = 401 then none
    else if 400 ≤ status ∧ status ≤ 499 then
      some (.bumpAttempts item.id ::
        if MAX_ATTEMPTS ≤ item.attempts + 1 then [.remove item.id] else [])
    else some [.bumpAttempts item.id]

/-- The file, what each component has read for the operation it is in, and what the worker still
has of its snapshot and has to do about the item it posted. `drawn` are the ids of `randomUUID` so
far. -/
structure Device where
  file : List Item
  receiver : Option (Item × List Item)
  worker : Option (Op × List Item)
  items : List Item
  todo : List Op
  drawn : List Text

def Device.init : Device := ⟨[], none, none, [], [], []⟩

inductive Action where
  /-- `enqueue` reads the file. -/
  | receive (id sender recipient body : Text) (receivedAtMillis : Int) (simSlot : Option Int)
  | receiverWrite
  | snapshot
  | post (status : Option Nat)
  /-- The worker's next operation reads the file. -/
  | workerRead
  | workerWrite
  /-- The process is killed. -/
  | die

/-- One read or write of the file, or one post. An id is never drawn twice. -/
def Device.step (P : Primitives) (d : Device) : Action → Option Device
  | .receive id sender recipient body receivedAtMillis simSlot =>
    match d.receiver with
    | none =>
      if id ∈ d.drawn then none
      else some { d with
        receiver := some (newItem P id sender recipient body receivedAtMillis simSlot, d.file),
        drawn := id :: d.drawn }
    | some _ => none
  | .receiverWrite =>
    match d.receiver with
    | some (item, arr) => some { d with file := enqueue item arr, receiver := none }
    | none => none
  | .snapshot =>
    match d.worker, d.todo, d.items with
    | none, [], [] => some { d with items := d.file }
    | _, _, _ => none
  | .post status =>
    match d.worker, d.todo, d.items with
    | none, [], item :: rest =>
      match opsFor item status with
      | some ops => some { d with todo := ops, items := rest }
      | none => some { d with items := [] }
    | _, _, _ => none
  | .workerRead =>
    match d.worker, d.todo with
    | none, op :: rest => some { d with worker := some (op, d.file), todo := rest }
    | _, _ => none
  | .workerWrite =>
    match d.worker with
    | some (op, arr) => some { d with file := op.apply arr, worker := none }
    | none => none
  | .die => some { d with receiver := none, worker := none, items := [], todo := [] }

abbrev DeviceRun (P : Primitives) := Run (Device.step P) Device.init

end Syrotp.Android
