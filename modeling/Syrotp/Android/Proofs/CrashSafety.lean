import Syrotp.Android.File

/-!
# The queue file after a crash

A file that was emptied, or written in part, is read as an empty queue. So an operation survives a
crash at every point exactly when the queue was empty before it or is empty after it.
-/

namespace Syrotp.Android

variable {J : JsonArray} {change : Change} {file : Option Bytes} {content : Bytes}
  {log : List (Writing × Writing.Action)} {w : Writing}

/-- Wherever the operation is when the process dies, the queue read after that is the one before
the operation or the one after it. -/
def Survives (J : JsonArray) (change : Change) (file : Option Bytes) : Prop :=
  ∀ log w, Run (Writing.step (change.content J file)) (.waiting file) log w →
    readArray J w.file = readArray J file ∨
      readArray J w.file = readArray J (some (change.content J file))

/-! ## What a crash leaves -/

/-- While the file is open, what was written and what is to come are the whole text. -/
def Writing.Inv (file : Option Bytes) (content : Bytes) : Writing → Prop
  | .waiting before => before = file
  | .opened written rest => written ++ rest = content

theorem Writing.step_inv {a : Writing.Action} {v : Writing} (h : w.Inv file content)
    (hs : w.step content a = some v) : v.Inv file content := by
  cases w with
  | waiting before =>
    cases a with
    | openFileOutput =>
      obtain rfl := Option.some.inj hs
      rfl
    | flush n => cases hs
  | opened written rest =>
    cases a with
    | openFileOutput => cases hs
    | flush n =>
      obtain rfl := Option.some.inj hs
      simp only [Writing.Inv] at h ⊢
      rw [List.append_assoc, List.take_append_drop, h]

theorem Writing.run_inv (run : Run (Writing.step content) (.waiting file) log w) :
    w.Inv file content :=
  run.invariant rfl fun _ _ _ => Writing.step_inv

/-- The file is empty right after it was opened. -/
theorem emptied_run (content : Bytes) (file : Option Bytes) :
    Run (Writing.step content) (.waiting file) [(.waiting file, .openFileOutput)]
      (.opened [] content) :=
  .single rfl

/-- Every write ends with the whole text in the file. -/
theorem finished_run (content : Bytes) (file : Option Bytes) : ∃ log,
    Run (Writing.step content) (.waiting file) log (.opened content []) := by
  have last : Writing.step content (.opened [] content) (.flush content.length) =
      some (.opened content []) := by
    rw [Writing.step, List.take_length, List.drop_length, List.nil_append]
  exact ⟨_, (emptied_run content file).next last⟩

theorem readArray_torn {items : List Item} {part : Bytes} (h : part <+: J.toText items)
    (torn : part ≠ J.toText items) : readArray J (some part) = [] := by
  rw [readArray, J.torn items part h torn]

theorem readArray_toText_eq_nil {items : List Item} :
    readArray J (some (J.toText items)) = [] ↔ items = [] := by
  obtain ⟨arr, read, length⟩ := J.read_back items
  rw [readArray, read, ← List.length_eq_zero_iff, ← List.length_eq_zero_iff, length]

/-- An empty file is no array. -/
theorem readArray_emptied : readArray J (some []) = [] := by
  by_cases none : J.toText [] = []
  · rw [← none]
    exact readArray_toText_eq_nil.mpr rfl
  · exact readArray_torn (List.nil_prefix) (Ne.symm none)

/-! ## Which changes are safe -/

/-- An operation leaves an empty queue if it found one and did not add to it, or removed all. -/
theorem apply_eq_nil_iff {arr : List Item} (nonempty : arr ≠ []) :
    change.apply arr = [] ↔ ∃ id, change = .op (.remove id) ∧ ∀ item ∈ arr, item.id = id := by
  cases change with
  | enqueue item => simp [Change.apply, Android.enqueue]
  | op op =>
    cases op with
    | remove id => simp [Change.apply, Op.apply, List.filter_eq_nil_iff]
    | bumpAttempts id => simp [Change.apply, Op.apply, updateWhere, nonempty]

theorem survives_iff_empty : Survives J change file ↔
    readArray J file = [] ∨ change.apply (readArray J file) = [] := by
  constructor
  · intro survives
    have emptied := survives _ _ (emptied_run _ file)
    rw [Writing.file, readArray_emptied] at emptied
    rcases emptied with before | after
    · exact .inl before.symm
    · exact .inr (readArray_toText_eq_nil.mp after.symm)
  · intro empty log w run
    have inv := Writing.run_inv run
    cases w with
    | waiting before =>
      obtain rfl := inv
      exact .inl rfl
    | opened written rest =>
      by_cases whole : written = change.content J file
      · rw [whole]
        exact .inr rfl
      · have torn : readArray J (some written) = [] := readArray_torn ⟨rest, inv⟩ whole
        rw [Writing.file, torn]
        exact empty.imp Eq.symm fun after => (readArray_toText_eq_nil.mpr after).symm

/-- A crash is survived at every point exactly if the queue was empty, or the operation removes all
there is. -/
theorem survives_iff : Survives J change file ↔ readArray J file = [] ∨
    ∃ id, change = .op (.remove id) ∧ ∀ item ∈ readArray J file, item.id = id := by
  rw [survives_iff_empty]
  by_cases empty : readArray J file = []
  · exact ⟨fun _ => .inl empty, fun _ => .inl empty⟩
  · rw [apply_eq_nil_iff empty]

/-! ## A queue that is lost -/

/-- An array whose text is what `queueCodec` writes. -/
def queueArray : JsonArray where
  toText := queueCodec.encode
  ofText := queueCodec.whole
  read_back items := ⟨items, queueCodec.whole_encode items, rfl⟩
  torn _ _ := queueCodec.whole_torn

def waitingItem : Item :=
  { id := text "8f14e45f-ceea-467f-a1d6-5e0d6f5b6a01"
    sender := text "+963999000001"
    recipient := text "+963110000000"
    body := text "VERIFY A7K9P2"
    receivedAtMillis := 1777732391000
    idempotencyKey := text "2c26b46b68ffc68ff99b453c1d304134"
    simSlot := none
    attempts := 0 }

/-- The process dies while it adds a message to a queue with one in it: both are lost. -/
theorem queue_lost_by_crash : ∃ file, readArray queueArray file = [waitingItem] ∧
    ¬Survives queueArray (.enqueue { waitingItem with id := text "c9f0f895" }) file ∧
    ∃ log w, Run (Writing.step
        (Change.content queueArray (.enqueue { waitingItem with id := text "c9f0f895" }) file))
      (.waiting file) log w ∧ readArray queueArray w.file = [] := by
  have read : readArray queueArray (some (queueCodec.encode [waitingItem])) = [waitingItem] := by
    simp only [readArray, queueArray, queueCodec.whole_encode]
  refine ⟨some (queueCodec.encode [waitingItem]), read, fun survives => ?_, _, _, emptied_run _ _,
    readArray_emptied⟩
  rcases survives_iff_empty.mp survives with before | after
  · rw [read] at before
    cases before
  · rw [read] at after
    cases after

end Syrotp.Android
