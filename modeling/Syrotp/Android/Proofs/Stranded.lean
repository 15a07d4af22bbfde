import Syrotp.Android.Proofs.LostUpdate
import Syrotp.Android.Worker

/-!
# Items that the worker leaves behind

An answer either removes its item, asks for another run, or does neither: a client error short of
the last attempt. So a run of the worker strands nothing exactly when another answer asks for the
next run, or every item is removed.
-/

namespace Syrotp.Android

variable {P : Primitives} {file arr : List Item} {id : Text}

def ids (arr : List Item) : List Text := arr.map (·.id)

/-- A successful run has removed every item of its snapshot, and a run that leaves one asks for
the next. -/
structure StrandsNothing (w : Work) : Prop where
  success : w.result = .success → ∀ item ∈ w.items, item.id ∉ ids w.file
  left : ∀ item ∈ w.items, item.id ∈ ids w.file → w.result = .retry

/-- The answer to a post makes the worker remove the item: a success, a duplicate, or a client error
at the last attempt. -/
def removes : Item × Option Nat → Bool
  | (_, none) => false
  | (item, some status) =>
    if 200 ≤ status ∧ status ≤ 299 ∨ status = 409 then true
    else status ≠ 401 ∧ 400 ≤ status ∧ status ≤ 499 ∧ MAX_ATTEMPTS ≤ item.attempts + 1

/-! ## One answer -/

theorem mem_ids_remove {x : Text} : id ∈ ids ((Op.remove x).apply arr) ↔ id ∈ ids arr ∧ id ≠ x := by
  simp only [ids, Op.apply, List.mem_map, List.mem_filter, decide_eq_true_eq]
  constructor
  · rintro ⟨o, ⟨ho, other⟩, rfl⟩
    exact ⟨⟨o, ho, rfl⟩, other⟩
  · rintro ⟨⟨o, ho, rfl⟩, other⟩
    exact ⟨o, ⟨ho, other⟩, rfl⟩

theorem ids_bumpAttempts (x : Text) (arr : List Item) :
    ids ((Op.bumpAttempts x).apply arr) = ids arr := map_updateWhere fun _ => rfl

/-- What the operations after an answer leave. -/
theorem mem_ids_applyOps {item : Item} {answer : Option Nat} {ops : List Op}
    (h : opsFor item answer = some ops) :
    id ∈ ids (applyOps ops arr) ↔ id ∈ ids arr ∧ (item.id = id → removes (item, answer) = false) := by
  have removed : ∀ arr, id ∈ ids ((Op.remove item.id).apply arr) ↔
      id ∈ ids arr ∧ (item.id = id → true = false) := by
    intro arr
    rw [mem_ids_remove]
    exact and_congr_right fun _ => ⟨fun other same => absurd same.symm other, fun kept same =>
      absurd (kept same.symm) (by decide)⟩
  have bumped : id ∈ ids ((Op.bumpAttempts item.id).apply arr) ↔
      id ∈ ids arr ∧ (item.id = id → false = false) := by
    rw [ids_bumpAttempts]
    exact ⟨fun mem => ⟨mem, fun _ => rfl⟩, And.left⟩
  cases answer with
  | none =>
    obtain rfl := Option.some.inj h
    exact bumped
  | some status =>
    simp only [opsFor] at h
    split at h
    · next taken =>
      obtain rfl := Option.some.inj h
      rw [removes, if_pos taken]
      exact removed arr
    · next refused =>
      rw [removes, if_neg refused]
      split at h
      · cases h
      · next authorized =>
        split at h
        · next client =>
          obtain rfl := Option.some.inj h
          split
          · next last =>
            rw [decide_eq_true ⟨authorized, client.1, client.2, last⟩]
            exact (removed _).trans (by rw [ids_bumpAttempts])
          · next more =>
            rw [decide_eq_false fun all => more all.2.2.2]
            exact bumped
        · next server =>
          obtain rfl := Option.some.inj h
          rw [decide_eq_false fun all => server ⟨all.2.1, all.2.2.1⟩]
          exact bumped

theorem opsFor_isSome {item : Item} {answer : Option Nat} (h : answer ≠ some 401) :
    ∃ ops, opsFor item answer = some ops := by
  cases answer with
  | none => exact ⟨_, rfl⟩
  | some status =>
    have authorized : status ≠ 401 := fun same => h (congrArg some same)
    simp only [opsFor, if_neg authorized]
    split
    · exact ⟨_, rfl⟩
    · split <;> exact ⟨_, rfl⟩

/-! ## The loop -/

theorem uploadItems_spec (posts : List (Item × Option Nat)) (file : List Item) (transient : Bool)
    (authorized : ∀ post ∈ posts, post.2 ≠ some 401) :
    (uploadItems posts file transient).1 =
        (if (transient || posts.any fun post => setsTransient post.2) = true then .retry
          else .success) ∧
      ∀ id, id ∈ ids (uploadItems posts file transient).2 ↔
        id ∈ ids file ∧ ∀ post ∈ posts, post.1.id = id → removes post = false := by
  induction posts generalizing file transient with
  | nil => simp [uploadItems]
  | cons post posts ih =>
    obtain ⟨item, answer⟩ := post
    obtain ⟨ops, hops⟩ : ∃ ops, opsFor item answer = some ops :=
      opsFor_isSome (authorized _ List.mem_cons_self)
    obtain ⟨result, left⟩ := ih (applyOps ops file) (transient || setsTransient answer)
      fun post hpost => authorized post (List.mem_cons_of_mem _ hpost)
    have step : uploadItems ((item, answer) :: posts) file transient =
        uploadItems posts (applyOps ops file) (transient || setsTransient answer) := by
      rw [uploadItems, hops]
    rw [step]
    refine ⟨by rw [result, List.any_cons, Bool.or_assoc], fun id => ?_⟩
    rw [left, mem_ids_applyOps hops, List.forall_mem_cons, and_assoc]

theorem mem_posted {items : List Item} {answers : Nat → Option Nat} {post : Item × Option Nat} :
    post ∈ posted items answers ↔ ∃ i, items[i]? = some post.1 ∧ answers i = post.2 := by
  rw [posted, List.mem_mapIdx]
  constructor
  · rintro ⟨i, hi, rfl⟩
    exact ⟨i, List.getElem?_eq_getElem hi, rfl⟩
  · rintro ⟨i, hitem, hanswer⟩
    obtain ⟨hi, hitem⟩ := List.getElem?_eq_some_iff.mp hitem
    exact ⟨i, hi, Prod.ext hitem hanswer⟩

/-! ## The worker on a device -/

/-- The device when only the worker was at work. -/
def Device.working (d : Device) (file items : List Item) (todo : List Op) : Device :=
  { d with file := file, worker := none, items := items, todo := todo }

theorem ops_run (d : Device) (items : List Item) (ops : List Op) (file : List Item) : ∃ log,
    Run (Device.step P) (d.working file items ops) log (d.working (applyOps ops file) items []) := by
  induction ops generalizing file with
  | nil => exact ⟨_, .start⟩
  | cons op ops ih =>
    obtain ⟨log, later⟩ := ih (op.apply file)
    have read : Device.step P (d.working file items (op :: ops)) .workerRead =
        some { d.working file items ops with worker := some (op, file) } := rfl
    have write : Device.step P { d.working file items ops with worker := some (op, file) }
        .workerWrite = some (d.working (op.apply file) items ops) := rfl
    exact ⟨_, ((Run.single read).next write).trans later⟩

theorem uploadItems_run (d : Device) (posts : List (Item × Option Nat)) (file : List Item)
    (transient : Bool) : ∃ log, Run (Device.step P) (d.working file (posts.map (·.1)) []) log
      (d.working (uploadItems posts file transient).2 [] []) := by
  induction posts generalizing file transient with
  | nil => exact ⟨_, .start⟩
  | cons post posts ih =>
    obtain ⟨item, answer⟩ := post
    rw [uploadItems]
    cases hops : opsFor item answer with
    | none =>
      have stop : Device.step P (d.working file (item :: posts.map (·.1)) []) (.post answer) =
          some (d.working file [] []) := by
        simp only [Device.step, Device.working, hops]
      exact ⟨_, .single stop⟩
    | some ops =>
      have decided : Device.step P (d.working file (item :: posts.map (·.1)) []) (.post answer) =
          some (d.working file (posts.map (·.1)) ops) := by
        simp only [Device.step, Device.working, hops]
      obtain ⟨_, done⟩ := ops_run (P := P) d (posts.map (·.1)) ops file
      obtain ⟨_, later⟩ := ih (applyOps ops file) (transient || setsTransient answer)
      exact ⟨_, ((Run.single decided).trans done).trans later⟩

theorem map_fst_posted (items : List Item) (answers : Nat → Option Nat) :
    (posted items answers).map (·.1) = items := by
  refine List.ext_getElem? fun i => ?_
  rw [posted, List.getElem?_map, List.getElem?_mapIdx, Option.map_map]
  exact Option.map_id'

/-- The worker of the device has nothing to do. -/
def Device.Idle (d : Device) : Prop := d.worker = none ∧ d.todo = [] ∧ d.items = []

/-- `doWork` is a run of the worker of an idle device, and leaves the file that the run leaves. -/
theorem doWork_run (d : Device) (idle : d.Idle) (isPaired hasKey : Bool)
    (answers : Nat → Option Nat) : ∃ log, Run (Device.step P) d log
      { d with file := (doWork isPaired hasKey d.file answers).file } := by
  obtain ⟨worker, todo, items⟩ := idle
  have quiet : ∀ file, { d with file := file } = d.working file [] [] := by
    intro file
    rw [Device.working, ← worker, ← todo, ← items]
  have stays : ∃ log, Run (Device.step P) d log { d with file := d.file } := ⟨_, .start⟩
  unfold doWork
  cases isPaired with
  | false => exact stays
  | true =>
    cases hasKey with
    | false => exact stays
    | true =>
      simp only [Bool.not_true, Bool.false_eq_true, if_false]
      split
      · exact stays
      · have taken : Device.step P d .snapshot = some (d.working d.file d.file []) := by
          simp only [Device.step, worker, todo, items, Device.working]
        obtain ⟨_, loop⟩ := uploadItems_run (P := P) d (posted d.file answers) d.file false
        rw [map_fst_posted] at loop
        rw [quiet]
        exact ⟨_, (Run.single taken).trans loop⟩

/-! ## What is stranded -/

theorem doWork_strandsNothing_iff (isPaired hasKey : Bool) (file : List Item)
    (answers : Nat → Option Nat) (authorized : ∀ i < file.length, answers i ≠ some 401) :
    StrandsNothing (doWork isPaired hasKey file answers) ↔
      isPaired = false ∨ hasKey = false ∨
      (∃ post ∈ posted file answers, setsTransient post.2 = true) ∨
      ∀ item ∈ file, ∃ post ∈ posted file answers, post.1.id = item.id ∧ removes post = true := by
  have early : ∀ result file, StrandsNothing ⟨result, [], file⟩ := fun result file =>
    ⟨fun _ item hitem => absurd hitem List.not_mem_nil,
      fun item hitem => absurd hitem List.not_mem_nil⟩
  unfold doWork
  cases isPaired with
  | false => exact iff_of_true (early _ _) (.inl rfl)
  | true =>
    cases hasKey with
    | false => exact iff_of_true (early _ _) (.inr (.inl rfl))
    | true =>
      simp only [Bool.not_true, Bool.false_eq_true, if_false, reduceCtorEq, false_or]
      by_cases empty : file = []
      · rw [if_pos empty]
        subst empty
        exact iff_of_true (early _ _) (.inr fun item hitem => absurd hitem List.not_mem_nil)
      · rw [if_neg empty]
        have allowed : ∀ post ∈ posted file answers, post.2 ≠ some 401 := by
          intro post hpost
          obtain ⟨i, hitem, hanswer⟩ := mem_posted.mp hpost
          rw [← hanswer]
          exact authorized i (List.getElem?_eq_some_iff.mp hitem).1
        obtain ⟨result, left⟩ := uploadItems_spec _ file false allowed
        by_cases again : ∃ post ∈ posted file answers, setsTransient post.2 = true
        · have retry : (uploadItems (posted file answers) file false).1 = .retry := by
            rw [result, if_pos]
            rw [Bool.false_or]
            exact List.any_eq_true.mpr again
          refine iff_of_true ⟨fun success => ?_, fun _ _ _ => retry⟩ (.inl again)
          rw [retry] at success
          cases success
        · have success : (uploadItems (posted file answers) file false).1 = .success := by
            rw [result, if_neg]
            rw [Bool.false_or]
            exact fun any => again (List.any_eq_true.mp any)
          have gone : ∀ item ∈ file, item.id ∉ ids (uploadItems (posted file answers) file false).2 ↔
              ∃ post ∈ posted file answers, post.1.id = item.id ∧ removes post = true := by
            intro item hitem
            have there : item.id ∈ ids file := List.mem_map_of_mem hitem
            simp only [left, there, true_and, not_forall, Bool.not_eq_false, exists_prop]
          constructor
          · exact fun h => .inr fun item hitem => (gone item hitem).mp (h.success success item hitem)
          · rintro (any | all)
            · exact absurd any again
            · have none := fun item hitem => (gone item hitem).mpr (all item hitem)
              exact ⟨fun _ => none, fun item hitem there => absurd there (none item hitem)⟩

/-- A run of the worker that no 401 stops takes an idle device to the file it leaves, and strands
nothing exactly if it took no snapshot, or some answer asks for another run, or every item is
removed. -/
theorem strandsNothing_iff (P : Primitives) (isPaired hasKey : Bool) (file : List Item)
    (answers : Nat → Option Nat) (authorized : ∀ i < file.length, answers i ≠ some 401) :
    (∀ d : Device, d.Idle → d.file = file → ∃ log, Run (Device.step P) d log
      { d with file := (doWork isPaired hasKey file answers).file }) ∧
    (StrandsNothing (doWork isPaired hasKey file answers) ↔
      isPaired = false ∨ hasKey = false ∨
      (∃ post ∈ posted file answers, setsTransient post.2 = true) ∨
      ∀ item ∈ file, ∃ post ∈ posted file answers, post.1.id = item.id ∧ removes post = true) := by
  refine ⟨?_, doWork_strandsNothing_iff isPaired hasKey file answers authorized⟩
  rintro d idle rfl
  exact doWork_run d idle isPaired hasKey answers

namespace StrandedScript

def item (id : Text) : Item :=
  { id := id
    sender := text "+963999000001"
    recipient := text "+963110000000"
    body := text "VERIFY A7K9P2"
    receivedAtMillis := 1777732391000
    idempotencyKey := text "2c26b46b"
    simSlot := none
    attempts := 0 }

def queue : List Item := [item (text "a"), item (text "b")]

end StrandedScript

/-- One message is taken and the network fails for the other. -/
theorem strandsNothing_script :
    StrandsNothing
      (doWork true true StrandedScript.queue fun i => if i = 0 then some 202 else none) :=
  (strandsNothing_iff QueueScript.primitives true true StrandedScript.queue _ (by decide)).2.mpr
    (by decide)

/-- The server refuses the second message once: it stays, and the run is a success. -/
theorem refused_item_stranded : ¬StrandsNothing (doWork true true StrandedScript.queue
    fun i => if i = 0 then some 202 else some 422) := by
  intro h
  exact absurd (h.success (by decide) (StrandedScript.item (text "b")) (by decide)) (by decide)

end Syrotp.Android
