import Syrotp.Android.Queue

/-!
# Lost updates

An operation writes back what it read, with its own change. So the file goes on to hold just the
messages enqueued and not removed exactly when every write finds in the file the messages that its
operation had read.
-/

namespace Syrotp.Android

variable {P : Primitives} {log : List (Device × Action)} {d t : Device} {a : Action}

def messages (arr : List Item) : List Message := arr.map Item.toMessage

/-- The message was written to the file by `enqueue`. -/
def Enqueued (log : List (Device × Action)) (m : Message) : Prop :=
  ∃ e ∈ log, ∃ item arr, e.2 = .receiverWrite ∧ e.1.receiver = some (item, arr) ∧
    item.toMessage = m

/-- A `remove` of this id was written. -/
def Removed (log : List (Device × Action)) (id : Text) : Prop :=
  ∃ e ∈ log, ∃ arr, e.2 = .workerWrite ∧ e.1.worker = some (.remove id, arr)

/-- An enqueued message is in the file until it is removed, a removed one is not there again, and
nothing else is. -/
structure Kept (log : List (Device × Action)) (d : Device) : Prop where
  stays : ∀ m, Enqueued log m → ¬Removed log m.id → m ∈ messages d.file
  gone : ∀ m ∈ messages d.file, ¬Removed log m.id
  sent : ∀ m ∈ messages d.file, Enqueued log m

/-- That in every state of a run. -/
def Lossless (log : List (Device × Action)) (d : Device) : Prop :=
  (∀ log₁ e log₂, log = log₁ ++ e :: log₂ → Kept log₁ e.1) ∧ Kept log d

/-- The messages that were read are those in the file. -/
def Current (arr : List Item) (d : Device) : Prop := ∀ m, m ∈ messages arr ↔ m ∈ messages d.file

/-- A write at this step is of an operation that read the messages in the file. -/
structure WritesCurrent (e : Device × Action) : Prop where
  receiver : e.2 = .receiverWrite → ∀ item arr, e.1.receiver = some (item, arr) → Current arr e.1
  worker : e.2 = .workerWrite → ∀ op arr, e.1.worker = some (op, arr) → Current arr e.1

/-! ## The operations -/

def Op.target : Op → Text
  | .remove id => id
  | .bumpAttempts id => id

theorem mem_enqueue {item : Item} {arr : List Item} {m : Message} :
    m ∈ messages (enqueue item arr) ↔ m ∈ messages arr ∨ m = item.toMessage := by
  rw [messages, enqueue, List.map_append, List.mem_append, List.map_singleton, List.mem_singleton]
  rfl

theorem mem_remove {id : Text} {arr : List Item} {m : Message} :
    m ∈ messages ((Op.remove id).apply arr) ↔ m ∈ messages arr ∧ m.id ≠ id := by
  simp only [messages, Op.apply, List.mem_map, List.mem_filter, decide_eq_true_eq]
  constructor
  · rintro ⟨item, ⟨hitem, other⟩, rfl⟩
    exact ⟨⟨item, hitem, rfl⟩, other⟩
  · rintro ⟨⟨item, hitem, rfl⟩, other⟩
    exact ⟨item, ⟨hitem, other⟩, rfl⟩

theorem messages_bumpAttempts (id : Text) (arr : List Item) :
    messages ((Op.bumpAttempts id).apply arr) = messages arr := map_updateWhere fun _ => rfl

theorem mem_apply {op : Op} {arr : List Item} {m : Message} (h : m ∈ messages (op.apply arr)) :
    m ∈ messages arr := by
  cases op with
  | remove id => exact (mem_remove.mp h).1
  | bumpAttempts id => exact messages_bumpAttempts id arr ▸ h

theorem target_of_mem_opsFor {item : Item} {status : Option Nat} {ops : List Op}
    (h : opsFor item status = some ops) {op : Op} (hop : op ∈ ops) : op.target = item.id := by
  have bump : ops = [.bumpAttempts item.id] → op.target = item.id := by
    rintro rfl
    rw [List.mem_singleton.mp hop]
    rfl
  cases status with
  | none => exact bump (Option.some.inj h).symm
  | some status =>
    simp only [opsFor] at h
    split at h
    · obtain rfl := Option.some.inj h
      rw [List.mem_singleton.mp hop]
      rfl
    · split at h
      · exact nomatch h
      · split at h
        · obtain rfl := Option.some.inj h
          rcases List.mem_cons.mp hop with rfl | hop
          · rfl
          · split at hop
            · rw [List.mem_singleton.mp hop]
              rfl
            · exact nomatch hop
        · exact bump (Option.some.inj h).symm

/-! ## Steps -/

/-- One step of a device: what it found, the action and the device it leaves. -/
inductive DeviceStep (P : Primitives) (d : Device) : Action → Device → Prop
  | received {id sender recipient body receivedAtMillis simSlot} : d.receiver = none →
      id ∉ d.drawn →
      DeviceStep P d (.receive id sender recipient body receivedAtMillis simSlot)
        { d with
          receiver := some (newItem P id sender recipient body receivedAtMillis simSlot, d.file)
          drawn := id :: d.drawn }
  | enqueued {item arr} : d.receiver = some (item, arr) →
      DeviceStep P d .receiverWrite { d with file := enqueue item arr, receiver := none }
  | listed : d.worker = none → d.todo = [] → d.items = [] →
      DeviceStep P d .snapshot { d with items := d.file }
  | decided {status item rest ops} : d.worker = none → d.todo = [] → d.items = item :: rest →
      opsFor item status = some ops →
      DeviceStep P d (.post status) { d with todo := ops, items := rest }
  | stopped {status item rest} : d.worker = none → d.todo = [] → d.items = item :: rest →
      opsFor item status = none → DeviceStep P d (.post status) { d with items := [] }
  | read {op rest} : d.worker = none → d.todo = op :: rest →
      DeviceStep P d .workerRead { d with worker := some (op, d.file), todo := rest }
  | written {op arr} : d.worker = some (op, arr) →
      DeviceStep P d .workerWrite { d with file := op.apply arr, worker := none }
  | died : DeviceStep P d .die { d with receiver := none, worker := none, items := [], todo := [] }

theorem Device.step_cases (h : d.step P a = some t) : DeviceStep P d a t := by
  cases a with
  | receive id sender recipient body receivedAtMillis simSlot =>
    simp only [Device.step] at h
    split at h
    · next none =>
      obtain ⟨fresh, h⟩ := Option.ite_none_left_eq_some.mp h
      obtain rfl := Option.some.inj h
      exact .received none fresh
    · cases h
  | receiverWrite =>
    simp only [Device.step] at h
    split at h
    · next holding =>
      obtain rfl := Option.some.inj h
      exact .enqueued holding
    · cases h
  | snapshot =>
    simp only [Device.step] at h
    split at h
    · next idle free done =>
      obtain rfl := Option.some.inj h
      exact .listed idle free done
    · cases h
  | post status =>
    simp only [Device.step] at h
    split at h
    · next idle free left =>
      split at h
      · next decided =>
        obtain rfl := Option.some.inj h
        exact .decided idle free left decided
      · next stopped =>
        obtain rfl := Option.some.inj h
        exact .stopped idle free left stopped
    · cases h
  | workerRead =>
    simp only [Device.step] at h
    split at h
    · next idle left =>
      obtain rfl := Option.some.inj h
      exact .read idle left
    · cases h
  | workerWrite =>
    simp only [Device.step] at h
    split at h
    · next holding =>
      obtain rfl := Option.some.inj h
      exact .written holding
    · cases h
  | die =>
    obtain rfl := Option.some.inj h
    exact .died

/-! ## Ids -/

/-- The id is of something enqueued, read or worked on before. -/
inductive Old (log : List (Device × Action)) (d : Device) (id : Text) : Prop
  | file {m} : m ∈ messages d.file → m.id = id → Old log d id
  | items {item} : item ∈ d.items → item.id = id → Old log d id
  | todo {op} : op ∈ d.todo → op.target = id → Old log d id
  | worker {op arr} : d.worker = some (op, arr) → op.target = id → Old log d id
  | workerRead {op arr m} : d.worker = some (op, arr) → m ∈ messages arr → m.id = id → Old log d id
  | receiverRead {item arr m} : d.receiver = some (item, arr) → m ∈ messages arr → m.id = id →
      Old log d id
  | enqueued {m} : Enqueued log m → m.id = id → Old log d id
  | removed : Removed log id → Old log d id

/-- Whatever is old was drawn, and the message that is being enqueued is not old. -/
structure Ids (log : List (Device × Action)) (d : Device) : Prop where
  drawn : ∀ id, Old log d id → id ∈ d.drawn
  new : ∀ item arr, d.receiver = some (item, arr) → item.id ∈ d.drawn ∧ ¬Old log d item.id

theorem enqueued_append {e : Device × Action} {m : Message} : Enqueued (log ++ [e]) m ↔
    Enqueued log m ∨ ∃ item arr, e.2 = .receiverWrite ∧ e.1.receiver = some (item, arr) ∧
      item.toMessage = m := by
  unfold Enqueued
  simp only [List.mem_append, List.mem_singleton, or_and_right, exists_or, exists_eq_left]

theorem removed_append {e : Device × Action} {id : Text} : Removed (log ++ [e]) id ↔
    Removed log id ∨ ∃ arr, e.2 = .workerWrite ∧ e.1.worker = some (.remove id, arr) := by
  unfold Removed
  simp only [List.mem_append, List.mem_singleton, or_and_right, exists_or, exists_eq_left]

theorem enqueued_append_other (other : a ≠ .receiverWrite) {m : Message} :
    Enqueued (log ++ [(d, a)]) m ↔ Enqueued log m := by
  rw [enqueued_append, or_iff_left]
  rintro ⟨_, _, write, _⟩
  exact other write

theorem removed_append_other (other : a ≠ .workerWrite) {id : Text} :
    Removed (log ++ [(d, a)]) id ↔ Removed log id := by
  rw [removed_append, or_iff_left]
  rintro ⟨_, write, _⟩
  exact other write

/-- The only id that gets old is that of the message whose enqueue is written. -/
theorem Old.before {id : Text} (hs : d.step P a = some t) (old : Old (log ++ [(d, a)]) t id) :
    Old log d id ∨ ∃ item arr, a = .receiverWrite ∧ d.receiver = some (item, arr) ∧
      item.id = id := by
  -- what was enqueued or removed, before or at this step
  have past : ((∃ m, Enqueued (log ++ [(d, a)]) m ∧ m.id = id) ∨ Removed (log ++ [(d, a)]) id) →
      Old log d id ∨ ∃ item arr, a = .receiverWrite ∧ d.receiver = some (item, arr) ∧
        item.id = id := by
    rintro (⟨m, enqueued, rfl⟩ | removed)
    · rcases enqueued_append.mp enqueued with enqueued | ⟨item, arr, write, holding, rfl⟩
      · exact .inl (.enqueued enqueued rfl)
      · exact .inr ⟨item, arr, write, holding, rfl⟩
    · rcases removed_append.mp removed with removed | ⟨arr, write, holding⟩
      · exact .inl (.removed removed)
      · exact .inl (.worker holding rfl)
  cases old with
  | file hm same =>
    cases Device.step_cases hs with
    | enqueued holding =>
      rcases mem_enqueue.mp hm with read | rfl
      · exact .inl (.receiverRead holding read same)
      · exact .inr ⟨_, _, rfl, holding, same⟩
    | written holding => exact .inl (.workerRead holding (mem_apply hm) same)
    | _ => exact .inl (.file hm same)
  | items hi same =>
    cases Device.step_cases hs with
    | listed => exact .inl (.file (List.mem_map_of_mem hi) same)
    | decided _ _ left => exact .inl (.items (left ▸ List.mem_cons_of_mem _ hi) same)
    | stopped => cases hi
    | died => cases hi
    | _ => exact .inl (.items hi same)
  | todo ho same =>
    cases Device.step_cases hs with
    | decided _ _ left decided =>
      have about := target_of_mem_opsFor decided ho
      exact .inl (.items (left ▸ List.mem_cons_self) (about.symm.trans same))
    | read _ left => exact .inl (.todo (left ▸ List.mem_cons_of_mem _ ho) same)
    | died => cases ho
    | _ => exact .inl (.todo ho same)
  | worker hw same =>
    cases Device.step_cases hs with
    | read _ left =>
      obtain ⟨rfl, _⟩ := Prod.mk.inj (Option.some.inj hw)
      exact .inl (.todo (left ▸ List.mem_cons_self) same)
    | written => cases hw
    | died => cases hw
    | _ => exact .inl (.worker hw same)
  | workerRead hw hm same =>
    cases Device.step_cases hs with
    | read =>
      obtain ⟨_, rfl⟩ := Prod.mk.inj (Option.some.inj hw)
      exact .inl (.file hm same)
    | written => cases hw
    | died => cases hw
    | _ => exact .inl (.workerRead hw hm same)
  | receiverRead hr hm same =>
    cases Device.step_cases hs with
    | received =>
      obtain ⟨_, rfl⟩ := Prod.mk.inj (Option.some.inj hr)
      exact .inl (.file hm same)
    | enqueued => cases hr
    | died => cases hr
    | _ => exact .inl (.receiverRead hr hm same)
  | enqueued h same => exact past (.inl ⟨_, h, same⟩)
  | removed h => exact past (.inr h)

theorem Ids.step (h : Ids log d) (hs : d.step P a = some t) : Ids (log ++ [(d, a)]) t := by
  have grows : ∀ id ∈ d.drawn, id ∈ t.drawn := by
    intro id hid
    cases Device.step_cases hs with
    | received => exact List.mem_cons_of_mem _ hid
    | _ => exact hid
  constructor
  · intro id old
    rcases old.before hs with earlier | ⟨item, arr, _, holding, rfl⟩
    · exact grows id (h.drawn id earlier)
    · exact grows _ (h.new item arr holding).1
  · intro item arr holding
    -- the message was being enqueued before, or its id was drawn at this step
    have origin : (d.receiver = some (item, arr) ∧ a ≠ .receiverWrite) ∨
        (item.id ∉ d.drawn ∧ item.id ∈ t.drawn ∧ a ≠ .receiverWrite) := by
      cases Device.step_cases hs with
      | received _ fresh =>
        obtain ⟨rfl, _⟩ := Prod.mk.inj (Option.some.inj holding)
        exact .inr ⟨fresh, List.mem_cons_self, by rintro ⟨⟩⟩
      | enqueued => cases holding
      | died => cases holding
      | _ => exact .inl ⟨holding, by rintro ⟨⟩⟩
    rcases origin with ⟨before, other⟩ | ⟨fresh, drawn, other⟩
    · refine ⟨grows _ (h.new item arr before).1, fun old => ?_⟩
      rcases old.before hs with earlier | ⟨_, _, write, _⟩
      · exact (h.new item arr before).2 earlier
      · exact other write
    · refine ⟨drawn, fun old => ?_⟩
      rcases old.before hs with earlier | ⟨_, _, write, _⟩
      · exact fresh (h.drawn _ earlier)
      · exact other write

/-! ## What should be in the file -/

/-- Enqueued and not removed. -/
def Live (log : List (Device × Action)) (m : Message) : Prop :=
  Enqueued log m ∧ ¬Removed log m.id

theorem kept_iff : Kept log d ↔ ∀ m, m ∈ messages d.file ↔ Live log m := by
  constructor
  · intro h m
    exact ⟨fun hm => ⟨h.sent m hm, h.gone m hm⟩, fun live => h.stays m live.1 live.2⟩
  · intro h
    exact ⟨fun m sent left => (h m).mpr ⟨sent, left⟩, fun m hm => ((h m).mp hm).2,
      fun m hm => ((h m).mp hm).1⟩

theorem live_receiverWrite (h : Ids log d) {item : Item} {arr : List Item}
    (holding : d.receiver = some (item, arr)) {m : Message} :
    Live (log ++ [(d, .receiverWrite)]) m ↔ Live log m ∨ m = item.toMessage := by
  have left : ¬Removed log item.id := fun gone => (h.new item arr holding).2 (.removed gone)
  unfold Live
  rw [removed_append_other (a := .receiverWrite) nofun, enqueued_append]
  constructor
  · rintro ⟨sent | ⟨item', arr', _, holding', rfl⟩, kept⟩
    · exact .inl ⟨sent, kept⟩
    · obtain ⟨rfl, _⟩ := Prod.mk.inj (Option.some.inj (holding.symm.trans holding'))
      exact .inr rfl
  · rintro (⟨sent, kept⟩ | rfl)
    · exact ⟨.inl sent, kept⟩
    · exact ⟨.inr ⟨item, arr, rfl, holding, rfl⟩, left⟩

theorem live_workerWrite {op : Op} {arr : List Item} (holding : d.worker = some (op, arr))
    {m : Message} : Live (log ++ [(d, .workerWrite)]) m ↔
      Live log m ∧ (op = .remove op.target → m.id ≠ op.target) := by
  unfold Live
  rw [enqueued_append_other (a := .workerWrite) nofun, removed_append, not_or, and_assoc]
  refine and_congr_right fun _ => and_congr_right fun _ => ?_
  constructor
  · intro none removes same
    rw [removes] at holding
    exact none ⟨arr, rfl, same ▸ holding⟩
  · rintro kept ⟨arr', _, holding'⟩
    obtain ⟨rfl, _⟩ := Prod.mk.inj (Option.some.inj (holding.symm.trans holding'))
    exact kept rfl rfl

theorem live_other (r : a ≠ .receiverWrite) (w : a ≠ .workerWrite) {m : Message} :
    Live (log ++ [(d, a)]) m ↔ Live log m := by
  unfold Live
  rw [enqueued_append_other r, removed_append_other w]

/-- While no message was lost, the worker's operation read live messages, among them the one that
it is about if that is live. -/
structure Holding (log : List (Device × Action)) (d : Device) : Prop where
  live : ∀ op arr, d.worker = some (op, arr) → ∀ m ∈ messages arr, Live log m
  target : ∀ op arr, d.worker = some (op, arr) → ∀ m, Live log m → m.id = op.target →
    m ∈ messages arr

theorem Holding.step (h : Holding log d) (ids : Ids log d) (kept : Kept log d)
    (hs : d.step P a = some t) : Holding (log ++ [(d, a)]) t := by
  have file := kept_iff.mp kept
  -- where the worker holds what it held and the live messages are the same
  have same : a ≠ .receiverWrite → a ≠ .workerWrite → t.worker = d.worker →
      Holding (log ++ [(d, a)]) t := by
    intro r w still
    constructor
    · intro op arr holding m hm
      exact (live_other r w).mpr (h.live op arr (still ▸ holding) m hm)
    · intro op arr holding m live about
      exact h.target op arr (still ▸ holding) m ((live_other r w).mp live) about
  have idle : t.worker = none → Holding (log ++ [(d, a)]) t := by
    intro none
    constructor
    · intro op arr holding
      rw [none] at holding
      exact nomatch holding
    · intro op arr holding
      rw [none] at holding
      exact nomatch holding
  cases Device.step_cases hs with
  | @enqueued item arr holding =>
    constructor
    · intro op arr' held m hm
      exact (live_receiverWrite ids holding).mpr (.inl (h.live op arr' held m hm))
    · intro op arr' held m live about
      rcases (live_receiverWrite ids holding).mp live with live | rfl
      · exact h.target op arr' held m live about
      · exact absurd (.worker held about.symm) (ids.new item arr holding).2
  | read =>
    constructor
    · intro op arr holding m hm
      obtain ⟨_, rfl⟩ := Prod.mk.inj (Option.some.inj holding)
      exact (live_other (by rintro ⟨⟩) (by rintro ⟨⟩)).mpr ((file m).mp hm)
    · intro op arr holding m live _
      obtain ⟨_, rfl⟩ := Prod.mk.inj (Option.some.inj holding)
      exact (file m).mpr ((live_other (by rintro ⟨⟩) (by rintro ⟨⟩)).mp live)
  | written => exact idle rfl
  | died => exact idle rfl
  | _ => exact same (by rintro ⟨⟩) (by rintro ⟨⟩) rfl

/-- A step from a state in which the file is right leads to such a state exactly when a write at
it is of an operation that read the messages in the file. -/
theorem kept_step_iff (ids : Ids log d) (held : Holding log d) (kept : Kept log d)
    (hs : d.step P a = some t) : Kept (log ++ [(d, a)]) t ↔ WritesCurrent (d, a) := by
  have file := kept_iff.mp kept
  -- where neither the file nor the live messages change
  have same : a ≠ .receiverWrite → a ≠ .workerWrite → t.file = d.file →
      (Kept (log ++ [(d, a)]) t ↔ WritesCurrent (d, a)) := by
    intro r w still
    refine iff_of_true (kept_iff.mpr fun m => ?_) ⟨fun e => absurd e r, fun e => absurd e w⟩
    rw [live_other r w, still]
    exact file m
  cases Device.step_cases hs with
  | @enqueued item arr holding =>
    have new := (ids.new item arr holding).2
    rw [kept_iff]
    constructor
    · intro h
      refine ⟨fun _ item' arr' holding' m => ?_, nofun⟩
      obtain ⟨rfl, rfl⟩ := Prod.mk.inj (Option.some.inj (holding.symm.trans holding'))
      have after := h m
      rw [mem_enqueue, live_receiverWrite ids holding, ← file] at after
      constructor
      · intro read
        exact (after.mp (.inl read)).resolve_right fun e =>
          new (.receiverRead holding read (congrArg Message.id e))
      · intro there
        exact (after.mpr (.inl there)).resolve_right fun e =>
          new (.file there (congrArg Message.id e))
    · intro h m
      rw [mem_enqueue, live_receiverWrite ids holding, h.receiver rfl item arr holding m, file]
  | @written op arr holding =>
    rw [kept_iff]
    have written : ∀ m, m ∈ messages (op.apply arr) ↔ m ∈ messages arr ∧
        (op = .remove op.target → m.id ≠ op.target) := by
      intro m
      cases op with
      | remove id => rw [mem_remove]; simp [Op.target]
      | bumpAttempts id => rw [messages_bumpAttempts]; simp [Op.target]
    constructor
    · intro h
      refine ⟨nofun, fun _ op' arr' holding' m => ?_⟩
      obtain ⟨rfl, rfl⟩ := Prod.mk.inj (Option.some.inj (holding.symm.trans holding'))
      have after := h m
      rw [written, live_workerWrite holding, ← file] at after
      constructor
      · exact fun read => (file m).mpr (held.live op arr holding m read)
      · intro there
        by_cases about : m.id = op.target
        · exact held.target op arr holding m ((file m).mp there) about
        · exact (after.mpr ⟨there, fun _ => about⟩).1
    · intro h m
      rw [written, live_workerWrite holding, h.worker rfl op arr holding m, file]
  | _ => exact same (by rintro ⟨⟩) (by rintro ⟨⟩) rfl

theorem lossless_append (e : Device × Action) :
    Lossless (log ++ [e]) t ↔ Lossless log e.1 ∧ Kept (log ++ [e]) t := by
  constructor
  · rintro ⟨before, now⟩
    refine ⟨⟨fun log₁ e' log₂ hlog => ?_, before log e [] rfl⟩, now⟩
    exact before log₁ e' (log₂ ++ [e]) (by rw [hlog, List.append_assoc, List.cons_append])
  · rintro ⟨⟨before, here⟩, now⟩
    refine ⟨fun log₁ e' log₂ hlog => ?_, now⟩
    rcases List.eq_nil_or_concat log₂ with rfl | ⟨rest, x, rfl⟩
    · obtain ⟨rfl, same⟩ := List.append_inj' hlog rfl
      obtain rfl := List.singleton_inj.mp same
      exact here
    · rw [List.concat_eq_append, ← List.cons_append, ← List.append_assoc] at hlog
      exact before log₁ e' rest (List.append_inj' hlog rfl).1

/-! ## No update lost -/

/-- In every state of a run the file holds just what was enqueued and not removed, exactly when
every write of the run finds in the file the messages that its operation had read. -/
theorem queue_lossless (run : DeviceRun P log d) :
    Lossless log d ↔ ∀ e ∈ log, WritesCurrent e := by
  suffices all : Ids log d ∧ (Lossless log d ↔ ∀ e ∈ log, WritesCurrent e) ∧
      (Lossless log d → Holding log d) from all.2.1
  induction run with
  | start =>
    have none : Kept [] Device.init := ⟨(fun _ ⟨_, he, _⟩ => nomatch he), (fun _ hm => nomatch hm),
      (fun _ hm => nomatch hm)⟩
    refine ⟨⟨fun id old => ?_, nofun⟩, ?_, fun _ => ⟨nofun, nofun⟩⟩
    · cases old with
      | file hm _ => exact nomatch hm
      | items hi _ => exact nomatch hi
      | todo ho _ => exact nomatch ho
      | worker hw _ => exact nomatch hw
      | workerRead hw _ _ => exact nomatch hw
      | receiverRead hr _ _ => exact nomatch hr
      | enqueued h _ =>
        obtain ⟨_, he, _⟩ := h
        exact nomatch he
      | removed h =>
        obtain ⟨_, he, _⟩ := h
        exact nomatch he
    · exact iff_of_true ⟨fun log₁ e log₂ hlog => absurd hlog (by simp), none⟩
        (fun e he => nomatch he)
  | @next log d t a _ hs ih =>
    obtain ⟨ids, lossless, held⟩ := ih
    refine ⟨ids.step hs, ?_, fun all => ?_⟩
    · rw [lossless_append, List.forall_mem_append, List.forall_mem_singleton, ← lossless]
      exact and_congr_right fun all => kept_step_iff ids (held all) all.2 hs
    · have before := ((lossless_append (d, a)).mp all).1
      exact (held before).step ids before.2 hs

namespace QueueScript

def bytes (s : Text) : List UInt8 := s.map UInt16.toUInt8

def digest₁ : List UInt8 :=
  [179, 226, 206, 199, 24, 38, 246, 234, 38, 193, 84, 183, 131, 115, 189, 226, 185, 42, 12, 235,
   182, 212, 17, 238, 242, 145, 82, 206, 225, 190, 60, 88]

def digest₂ : List UInt8 :=
  [170, 151, 21, 20, 153, 255, 175, 30, 213, 235, 173, 236, 144, 60, 234, 171, 221, 220, 182,
   116, 117, 184, 172, 213, 39, 56, 182, 63, 91, 64, 74, 249]

/-- SHA-256 on the two texts that are hashed here. -/
def sha256 (data : List UInt8) : List UInt8 :=
  if data = bytes (text "+963991111111|self|1700000000000|VERIFY ABCDEF") then digest₁
  else if data = bytes (text "+963992222222|self|1700000001000|VERIFY GHJKMN") then digest₂
  else List.replicate 32 0

def primitives : Primitives where
  utf8 := bytes
  sha256 := sha256
  hmacSha256 _ _ := List.replicate 32 0
  utf8_ascii _ _ := rfl
  sha256_length data := by
    unfold sha256
    split
    · rfl
    · split
      · rfl
      · exact List.length_replicate
  hmacSha256_length _ _ := List.length_replicate

def receiveFirst : Action :=
  .receive (text "id-1") (text "+963991111111") (text "self") (text "VERIFY ABCDEF") 1700000000000
    none

def receiveSecond : Action :=
  .receive (text "id-2") (text "+963992222222") (text "self") (text "VERIFY GHJKMN") 1700000001000
    none

/-- The first message is queued and posted; then the worker removes it while the second message is
queued before, or in between. -/
def acts (removal : List Action) : List Action :=
  [receiveFirst, .receiverWrite, .snapshot, .post (some 202)] ++ removal

def inTurn : List Action := [receiveSecond, .receiverWrite, .workerRead, .workerWrite]

def inBetween : List Action := [.workerRead, receiveSecond, .receiverWrite, .workerWrite]

def result (removal : List Action) : Option (List (Device × Action) × Device) :=
  exec (Device.step primitives) .init (acts removal)

theorem run (removal : List Action) (h : (result removal).isSome = true) :
    DeviceRun primitives ((result removal).get h).1 ((result removal).get h).2 :=
  run_of_exec (Option.some_get h).symm

theorem inTurn_runs : (result inTurn).isSome = true := by decide +kernel

theorem inBetween_runs : (result inBetween).isSome = true := by decide +kernel

/-- What is written at this step was read from the same messages. -/
def current (e : Device × Action) : Bool :=
  (e.2 matches .receiverWrite → e.1.receiver.all fun r => messages r.2 = messages e.1.file) &&
    (e.2 matches .workerWrite → e.1.worker.all fun w => messages w.2 = messages e.1.file)

theorem writesCurrent {e : Device × Action} (h : current e = true) : WritesCurrent e := by
  simp only [current, Bool.and_eq_true, decide_eq_true_eq] at h
  constructor
  · intro write item arr holding m
    have same := h.1 (by rw [write])
    simp only [holding, Option.all_some, decide_eq_true_eq] at same
    rw [same]
  · intro write op arr holding m
    have same := h.2 (by rw [write])
    simp only [holding, Option.all_some, decide_eq_true_eq] at same
    rw [same]

/-- The second message as it is queued. -/
def second : Item := newItem primitives (text "id-2") (text "+963992222222") (text "self")
  (text "VERIFY GHJKMN") 1700000001000 none

def enqueuesSecond (e : Device × Action) : Bool :=
  e.2 matches .receiverWrite && e.1.receiver.any fun r => r.1 = second

def removesSecond (e : Device × Action) : Bool :=
  e.1.worker.any fun w => w.1 = .remove second.id

theorem enqueued_of_any (h : log.any enqueuesSecond = true) : Enqueued log second.toMessage := by
  obtain ⟨⟨d, a⟩, he, write⟩ := List.any_eq_true.mp h
  simp only [enqueuesSecond, Bool.and_eq_true, Option.any_eq_true, decide_eq_true_eq] at write
  obtain ⟨act, ⟨item, arr⟩, holding, same⟩ := write
  refine ⟨_, he, item, arr, ?_, holding, congrArg Item.toMessage same⟩
  cases a with
  | receiverWrite => rfl
  | _ => exact nomatch act

theorem not_removed_of_any (h : log.any removesSecond = false) : ¬Removed log second.id := by
  rintro ⟨e, he, arr, _, holding⟩
  have not := List.any_eq_false.mp h e he
  simp [removesSecond, holding] at not

end QueueScript

/-- Queued before the worker's removal, the second message is all that is left. -/
theorem queue_lossless_script : ∃ log d, DeviceRun QueueScript.primitives log d ∧
    Lossless log d ∧ d.file = [QueueScript.second] := by
  have run := QueueScript.run _ QueueScript.inTurn_runs
  have current : ∀ e ∈ ((QueueScript.result QueueScript.inTurn).get QueueScript.inTurn_runs).1,
      QueueScript.current e = true := by decide +kernel
  exact ⟨_, _, run, (queue_lossless run).mpr fun e he => QueueScript.writesCurrent (current e he),
    by decide +kernel⟩

/-- Queued between the read and the write of the removal, it is lost. -/
theorem message_lost : ∃ log d, DeviceRun QueueScript.primitives log d ∧ ¬Lossless log d ∧
    Enqueued log QueueScript.second.toMessage ∧ ¬Removed log QueueScript.second.id ∧
    d.file = [] := by
  have sent : ((QueueScript.result QueueScript.inBetween).get
      QueueScript.inBetween_runs).1.any QueueScript.enqueuesSecond = true := by decide +kernel
  have left : ((QueueScript.result QueueScript.inBetween).get
      QueueScript.inBetween_runs).1.any QueueScript.removesSecond = false := by decide +kernel
  have empty : ((QueueScript.result QueueScript.inBetween).get
      QueueScript.inBetween_runs).2.file = [] := by decide +kernel
  have enqueued := QueueScript.enqueued_of_any sent
  have kept := QueueScript.not_removed_of_any left
  refine ⟨_, _, QueueScript.run _ QueueScript.inBetween_runs, fun lossless => ?_, enqueued, kept,
    empty⟩
  have there := lossless.2.stays _ enqueued kept
  rw [empty] at there
  exact nomatch there

end Syrotp.Android
