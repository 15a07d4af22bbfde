import Syrotp.Android.Queue

/-!
# The upload worker of the Android gateway

`UploadWorker.doWork` from its checks to its result, over a file that only it changes meanwhile.
-/

namespace Syrotp.Android

/-- `ListenableWorker.Result`. -/
inductive WorkResult where
  | success
  | retry
  | failure
  deriving DecidableEq, Repr

/-- Whether the branch for this answer sets `transient`: there was none, or its status is in no
other branch. -/
def setsTransient : Option Nat → Bool
  | none => true
  | some status =>
    if 200 ≤ status ∧ status ≤ 299 ∨ status = 409 then false
    else if status = 401 then false
    else if 400 ≤ status ∧ status ≤ 499 then false
    else true

/-- What `doWork` does to the queue about an item. -/
def applyOps (ops : List Op) (file : List Item) : List Item :=
  ops.foldl (fun arr op => op.apply arr) file

/-- The loop over the items, each with the answer to its post. -/
def uploadItems : List (Item × Option Nat) → List Item → Bool → WorkResult × List Item
  | [], file, transient => (if transient then .retry else .success, file)
  | (item, answer) :: posts, file, transient =>
    match opsFor item answer with
    | none => (.failure, file)
    | some ops => uploadItems posts (applyOps ops file) (transient || setsTransient answer)

/-- What `doWork` answers, the snapshot it took and the file it leaves. -/
structure Work where
  result : WorkResult
  items : List Item
  file : List Item

/-- The items of a snapshot with the answers in the order of the posts. -/
def posted (items : List Item) (answers : Nat → Option Nat) : List (Item × Option Nat) :=
  items.mapIdx fun i item => (item, answers i)

/-- `doWork`. -/
def doWork (isPaired hasKey : Bool) (file : List Item) (answers : Nat → Option Nat) : Work :=
  if !isPaired then ⟨.failure, [], file⟩
  else if !hasKey then ⟨.retry, [], file⟩
  else if file = [] then ⟨.success, [], file⟩
  else
    let done := uploadItems (posted file answers) file false
    ⟨done.1, file, done.2⟩

end Syrotp.Android
