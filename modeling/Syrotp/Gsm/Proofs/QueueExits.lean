import Syrotp.Misc.Attempts
import Syrotp.Gsm.Proofs.Keys

/-!
# Why items leave the queue of the GSM gateway

A row's attempts are the failures among the answers to it, of whatever kind, and a client error
drops the row once there are as many as the maximum. So every row leaves for a reason of its own
exactly when the attempts of a row that a client error drops are permanent errors.
-/

namespace Syrotp.Gsm

variable {cfg : GatewayConfig} {s t : Station} {a : Action} {log : List (Station × Action)}
  {item : QueueItem} {rest : List QueueItem}

/-- How a post ends for the item, if the worker lives to hear of it. -/
def Reply.outcome : Reply → Option Outcome
  | .answered => some .delivered
  | .refused status _ => some (.ofStatus status)
  | .lost _ => some .transient
  | .unheard _ => none

/-- What a step answers, and to which item. -/
def answer (e : Station × Action) : Option (Nat × Outcome) :=
  match e.2, e.1.sending with
  | .upload reply _, item :: _ => reply.outcome.map (item.id, ·)
  | _, _ => none

def InboundQueue.ids (q : InboundQueue) : List Nat := q.rows.map (·.id)

/-- The row leaves the queue at this step. -/
def Leaves (cfg : GatewayConfig) (e : Station × Action) (id : Nat) : Prop :=
  ∃ t, e.1.step cfg e.2 = some t ∧ id ∈ e.1.queue.ids ∧ id ∉ t.queue.ids

/-- Every row that leaves the queue in this log has a reason. -/
def ExitsHaveReasons (cfg : GatewayConfig) (log : List (Station × Action)) : Prop :=
  ExitsForReasons maxAttempts4xx answer (Leaves cfg) log

/-- The counts that client errors end in this log are of permanent errors. -/
def CountsArePermanent (log : List (Station × Action)) : Prop :=
  CountsOfPermanent maxAttempts4xx answer log

instance (log : List (Station × Action)) : Decidable (CountsArePermanent log) :=
  inferInstanceAs (Decidable (CountsOfPermanent _ _ _))

/-! ## One answer -/

theorem answer_upload {reply : Reply} {now : Int} {o : Outcome} (first : s.sending = item :: rest)
    (heard : reply.outcome = some o) : answer (s, .upload reply now) = some (item.id, o) := by
  simp only [answer, first, heard, Option.map_some]

theorem answer_eq_some {id : Nat} {o : Outcome} (told : answer (s, a) = some (id, o)) :
    ∃ reply now item rest, a = .upload reply now ∧ s.sending = item :: rest ∧
      reply.outcome = some o ∧ item.id = id := by
  unfold answer at told
  split at told
  · next reply now item rest upload first =>
    obtain ⟨o', heard, same⟩ := Option.map_eq_some_iff.mp told
    obtain ⟨rfl, rfl⟩ := Prod.mk.inj same
    exact ⟨reply, now, item, rest, upload, first, heard, rfl⟩
  · cases told

/-- What an answer does to the queue, by what it does to the count. -/
inductive Handled (q : InboundQueue) (item : QueueItem) (o : Outcome) (q' : InboundQueue) : Prop
  | removed : countAttempt maxAttempts4xx (some item.attempts) o = none →
      q'.rows = q.rows.filter (·.id ≠ item.id) → q'.nextId = q.nextId → Handled q item o q'
  | kept : countAttempt maxAttempts4xx (some item.attempts) o = some item.attempts →
      q'.rows = q.rows → q'.nextId = q.nextId → Handled q item o q'
  | bumped {next : Int} :
      countAttempt maxAttempts4xx (some item.attempts) o = some (item.attempts + 1) →
      q'.rows = updateWhere (·.id = item.id) (fun r =>
        { r with attempts := r.attempts + 1, nextTryAtMs := next }) q.rows →
      q'.nextId = q.nextId → Handled q item o q'

theorem handled_status (q : InboundQueue) (now : Int) (item : QueueItem) (status : Nat) :
    Handled q item (.ofStatus status) (handleUploadResult q now item.id item.attempts status).1 := by
  unfold handleUploadResult
  split
  · next taken =>
    rw [Outcome.ofStatus_delivered taken]
    exact .removed rfl rfl rfl
  · next refused =>
    split
    · next unauthorized =>
      rw [unauthorized]
      exact .kept rfl rfl rfl
    · next authorized =>
      split
      · next client =>
        have counted : countAttempt maxAttempts4xx (some item.attempts) _ = _ :=
          countAttempt_client (Outcome.ofStatus_client refused authorized client)
        split
        · next last => exact .removed (counted.trans (if_pos last)) rfl rfl
        · next more => exact .bumped (counted.trans (if_neg more)) rfl rfl
      · next server =>
        rw [Outcome.ofStatus_transient refused authorized server]
        exact .bumped rfl rfl rfl

theorem handled_post (now : Int) {reply : Reply} {o : Outcome} (heard : reply.outcome = some o) :
    Handled s.queue item o (s.post item rest now reply).queue := by
  cases reply with
  | answered =>
    obtain rfl := Option.some.inj heard
    have taken : Outcome.ofStatus (answerStatus s.server item.toPayload) = .delivered := by
      unfold answerStatus
      split <;> rfl
    have handled := handled_status s.queue now item (answerStatus s.server item.toPayload)
    rw [taken] at handled
    exact handled
  | refused status stored =>
    obtain rfl := Option.some.inj heard
    exact handled_status s.queue now item status
  | lost stored =>
    obtain rfl := Option.some.inj heard
    exact .bumped rfl rfl rfl
  | unheard stored => cases heard

/-! ## What a row's attempts count -/

/-- The attempts of each row are the count that the answers to it make; what the worker still has of
its snapshot is in the queue as it was. -/
structure Station.Counted (log : List (Station × Action)) (s : Station) : Prop where
  ids : s.queue.ids.Nodup
  old : ∀ id ∈ s.queue.ids, id < s.queue.nextId
  fresh : ∀ id, s.queue.nextId ≤ id → answersTo answer id log = []
  counts : ∀ row ∈ s.queue.rows,
    countAttempts maxAttempts4xx (answersTo answer row.id log) = some row.attempts
  sending : ∀ item ∈ s.sending, item ∈ s.queue.rows
  batch : (s.sending.map (·.id)).Nodup

theorem snapshot_sublist (q : InboundQueue) (now : Int) (limit : Nat) :
    (q.snapshot now limit).Sublist q.rows :=
  (List.take_sublist _ _).trans List.filter_sublist

theorem Station.Counted.add (h : s.Counted log) (now : Int) (p : Payload) :
    (s.queue.add now p).2.ids.Nodup ∧
      (∀ id ∈ (s.queue.add now p).2.ids, id < (s.queue.add now p).2.nextId) ∧
      s.queue.nextId ≤ (s.queue.add now p).2.nextId ∧
      ∀ row ∈ (s.queue.add now p).2.rows,
        countAttempts maxAttempts4xx (answersTo answer row.id log) = some row.attempts := by
  unfold InboundQueue.add
  split
  · exact ⟨h.ids, h.old, Nat.le_refl _, h.counts⟩
  · have ids : (s.queue.rows ++ [(⟨p, s.queue.nextId, 0, 0, now⟩ : QueueItem)]).map (·.id) =
        s.queue.ids ++ [s.queue.nextId] := by
      rw [List.map_append]
      rfl
    refine ⟨?_, fun id mem => ?_, Nat.le_succ _, fun row hrow => ?_⟩
    · rw [InboundQueue.ids, ids, List.nodup_append]
      refine ⟨h.ids, List.nodup_singleton _, fun id mem id' last => ?_⟩
      rw [List.mem_singleton.mp last]
      exact Nat.ne_of_lt (h.old id mem)
    · rw [InboundQueue.ids, ids] at mem
      rcases List.mem_append.mp mem with earlier | last
      · exact Nat.lt_succ_of_lt (h.old id earlier)
      · exact List.mem_singleton.mp last ▸ Nat.lt_succ_self _
    · rcases List.mem_append.mp hrow with earlier | last
      · exact h.counts row earlier
      · obtain rfl := List.mem_singleton.mp last
        exact (congrArg (countAttempts maxAttempts4xx) (h.fresh _ (Nat.le_refl _))).trans rfl

theorem mem_ids {q : InboundQueue} {row : QueueItem} (h : row ∈ q.rows) : row.id ∈ q.ids :=
  List.mem_map_of_mem h

theorem Handled.nextId {q q' : InboundQueue} {o : Outcome} (h : Handled q item o q') :
    q'.nextId = q.nextId := by
  cases h with
  | removed _ _ next => exact next
  | kept _ _ next => exact next
  | bumped _ _ next => exact next

/-- An upload keeps the counts if it leaves other rows alone and gives the item's row, if that
stays, the count with this answer. -/
theorem Station.Counted.post (h : s.Counted log) (first : s.sending = item :: rest) (now : Int)
    {reply : Reply} {o : Outcome} (heard : reply.outcome = some o)
    (ids : (s.post item rest now reply).queue.ids.Sublist s.queue.ids)
    (rows : ∀ row ∈ (s.post item rest now reply).queue.rows,
      row ∈ s.queue.rows ∧ row.id ≠ item.id ∨ row.id = item.id ∧
        countAttempt maxAttempts4xx (some item.attempts) o = some row.attempts)
    (others : ∀ row ∈ s.queue.rows, row.id ≠ item.id →
      row ∈ (s.post item rest now reply).queue.rows) :
    (s.post item rest now reply).Counted (log ++ [(s, .upload reply now)]) := by
  have there : item ∈ s.queue.rows := h.sending item (first ▸ List.mem_cons_self)
  have batch : item.id ∉ rest.map (·.id) ∧ (rest.map (·.id)).Nodup := by
    have nodup := h.batch
    rw [first] at nodup
    exact List.nodup_cons.mp nodup
  have left : (s.post item rest now reply).sending.Sublist rest := (mem_post reply).2.2.2.1
  have next : (s.post item rest now reply).queue.nextId = s.queue.nextId :=
    (handled_post now heard).nextId
  have told : answer (s, .upload reply now) = some (item.id, o) := answer_upload first heard
  have other : ∀ id, id ≠ item.id →
      answersTo answer id (log ++ [(s, .upload reply now)]) = answersTo answer id log := by
    intro id ne
    refine answersTo_of_other (fun a ha => ?_) log
    obtain rfl := Option.some.inj (told.symm.trans ha)
    exact Ne.symm ne
  have own : answersTo answer item.id (log ++ [(s, .upload reply now)]) =
      answersTo answer item.id log ++ [o] := answersTo_of_answer told log
  refine ⟨h.ids.sublist ids, fun id mem => ?_, fun id new => ?_, fun row hrow => ?_,
    fun x hx => ?_, batch.2.sublist (left.map _)⟩
  · rw [next]
    exact h.old id (ids.subset mem)
  · rw [next] at new
    have ne : id ≠ item.id := by
      have older := h.old item.id (mem_ids there)
      omega
    rw [other id ne, h.fresh id new]
  · rcases rows row hrow with ⟨before, ne⟩ | ⟨same, count⟩
    · rw [other row.id ne, h.counts row before]
    · rw [same, own, countAttempts_concat, h.counts item there, count]
  · have ne : x.id ≠ item.id := fun same =>
      batch.1 (same ▸ List.mem_map_of_mem (left.subset hx))
    exact others x (h.sending x (first ▸ List.mem_cons_of_mem _ (left.subset hx))) ne

/-- An answered upload keeps the counts, and its item leaves exactly if the answer ends the
count. -/
theorem Station.Counted.upload (h : s.Counted log) (first : s.sending = item :: rest) (now : Int)
    {reply : Reply} {o : Outcome} (heard : reply.outcome = some o) :
    (s.post item rest now reply).Counted (log ++ [(s, .upload reply now)]) ∧
      ∀ id ∈ s.queue.ids, id ∉ (s.post item rest now reply).queue.ids ↔ id = item.id ∧
        countAttempt maxAttempts4xx (some item.attempts) o = none := by
  have there : item ∈ s.queue.rows := h.sending item (first ▸ List.mem_cons_self)
  have only : ∀ row ∈ s.queue.rows, row.id = item.id → row = item :=
    fun row hrow same => eq_of_key h.ids hrow there same
  have handled : Handled s.queue item o (s.post item rest now reply).queue :=
    handled_post now heard
  cases handled with
  | removed count rows _ =>
    have ids : (s.post item rest now reply).queue.ids =
        (s.queue.rows.filter (·.id ≠ item.id)).map (·.id) := congrArg _ rows
    refine ⟨h.post first now heard ?_ (fun row hrow => ?_) (fun row hrow ne => ?_), fun id mem => ?_⟩
    · rw [ids]
      exact List.filter_sublist.map _
    · rw [rows] at hrow
      exact .inl ⟨(List.mem_filter.mp hrow).1, of_decide_eq_true (List.mem_filter.mp hrow).2⟩
    · rw [rows]
      exact List.mem_filter.mpr ⟨hrow, decide_eq_true ne⟩
    · obtain ⟨row, hrow, rfl⟩ := List.mem_map.mp mem
      rw [ids, count]
      simp only [and_true]
      constructor
      · intro gone
        by_contra ne
        exact gone (List.mem_map_of_mem (List.mem_filter.mpr ⟨hrow, decide_eq_true ne⟩))
      · intro same stays
        obtain ⟨row', hrow', same'⟩ := List.mem_map.mp stays
        exact of_decide_eq_true (List.mem_filter.mp hrow').2 (same'.trans same)
  | kept count rows _ =>
    have ids : (s.post item rest now reply).queue.ids = s.queue.ids :=
      congrArg (List.map QueueItem.id) rows
    refine ⟨h.post first now heard (ids ▸ List.Sublist.refl _) (fun row hrow => ?_)
      (fun row hrow _ => rows ▸ hrow), fun id mem => ?_⟩
    · rw [rows] at hrow
      by_cases same : row.id = item.id
      · exact .inr ⟨same, by rw [count, only row hrow same]⟩
      · exact .inl ⟨hrow, same⟩
    · rw [ids, count]
      simp only [mem, not_true_eq_false, reduceCtorEq, and_false]
  | bumped count rows _ =>
    have ids : (s.post item rest now reply).queue.ids = s.queue.ids :=
      (congrArg _ rows).trans (map_updateWhere fun _ => rfl)
    refine ⟨h.post first now heard (ids ▸ List.Sublist.refl _) (fun row hrow => ?_)
      (fun row hrow ne => ?_), fun id mem => ?_⟩
    · rw [rows] at hrow
      rcases mem_updateWhere_cases hrow with ⟨before, hbefore, hit, rfl⟩ | ⟨before, miss⟩
      · obtain rfl := only before hbefore (of_decide_eq_true hit)
        exact .inr ⟨rfl, count⟩
      · exact .inl ⟨before, of_decide_eq_false miss⟩
    · rw [rows]
      exact mem_updateWhere_of_neg hrow (decide_eq_false ne)
    · rw [ids, count]
      simp only [mem, not_true_eq_false, reduceCtorEq, and_false]

/-- A step that is no upload, leaves the queue alone and gives the worker nothing new. -/
theorem Station.Counted.idle (h : s.Counted log) (quiet : answer (s, a) = none)
    (queue : t.queue = s.queue) (sending : t.sending = s.sending ∨ t.sending = []) :
    t.Counted (log ++ [(s, a)]) := by
  have same : ∀ id, answersTo answer id (log ++ [(s, a)]) = answersTo answer id log :=
    fun id => answersTo_of_other (fun _ told => by rw [quiet] at told; cases told) log
  have left : t.sending.Sublist s.sending := by
    rcases sending with whole | none
    · exact whole ▸ List.Sublist.refl _
    · exact none ▸ List.nil_sublist _
  refine ⟨queue ▸ h.ids, queue ▸ h.old, fun id new => ?_, fun row hrow => ?_, fun item hitem => ?_,
    h.batch.sublist (left.map _)⟩
  · rw [same]
    exact h.fresh id (queue ▸ new)
  · rw [same]
    exact h.counts row (queue ▸ hrow)
  · rw [queue]
    exact h.sending item (left.subset hitem)

theorem Station.Counted.step (h : s.Counted log) (hs : s.step cfg a = some t) :
    t.Counted (log ++ [(s, a)]) := by
  have same : ∀ {a : Action}, answer (s, a) = none → ∀ id,
      answersTo answer id (log ++ [(s, a)]) = answersTo answer id log :=
    fun quiet id => answersTo_of_other (fun _ told => by rw [quiet] at told; cases told) log
  cases Station.step_cases hs with
  | arrived _ => exact h.idle rfl rfl (.inl rfl)
  | polled _ _ => exact h.idle rfl rfl (.inl rfl)
  | @added now r rest _ _ =>
    obtain ⟨ids, old, later, counts⟩ := h.add now (payload cfg r.sms)
    have quiet := same (a := .add now) rfl
    refine ⟨ids, old, fun id new => ?_, fun row hrow => ?_, fun item hitem => ?_, h.batch⟩
    · rw [quiet]
      exact h.fresh id (later.trans new)
    · rw [quiet]
      exact counts row hrow
    · exact mem_add_of_mem (h.sending item hitem)
  | deleted _ _ => exact h.idle rfl rfl (.inl rfl)
  | readerFailed => exact h.idle rfl rfl (.inl rfl)
  | @drained now _ _ =>
    have taken := snapshot_sublist s.queue now 50
    have quiet := same (a := .drain now) rfl
    refine ⟨h.ids, h.old, fun id new => ?_, fun row hrow => ?_, fun item hitem => taken.subset hitem,
      h.ids.sublist (taken.map _)⟩
    · rw [quiet]
      exact h.fresh id new
    · rw [quiet]
      exact h.counts row hrow
  | @uploaded reply now item rest first _ =>
    cases heard : reply.outcome with
    | some o => exact (h.upload first now heard).1
    | none =>
      cases reply with
      | unheard stored => exact h.idle (by simp [answer, first, heard]) rfl (.inr rfl)
      | _ => cases heard
  | workerFailed => exact h.idle rfl rfl (.inr rfl)
  | restarted => exact h.idle rfl rfl (.inr rfl)

theorem StationRun.counted (run : StationRun cfg log s) : s.Counted log := by
  induction run with
  | start =>
    exact ⟨.nil, List.forall_mem_nil _, fun _ _ => rfl, List.forall_mem_nil _,
      List.forall_mem_nil _, .nil⟩
  | next _ hs ih => exact ih.step hs

/-! ## Exits -/

/-- A row leaves at an upload of it that ends its count, and at no other step. -/
theorem Station.Counted.leaves (h : s.Counted log) (hs : s.step cfg a = some t) {id : Nat}
    (there : id ∈ s.queue.ids) (gone : id ∉ t.queue.ids) :
    ∃ item rest o, answer (s, a) = some (id, o) ∧ s.sending = item :: rest ∧ item.id = id ∧
      countAttempt maxAttempts4xx (some item.attempts) o = none := by
  cases Station.step_cases hs with
  | arrived _ => exact absurd there gone
  | polled _ _ => exact absurd there gone
  | added _ _ =>
    obtain ⟨row, hrow, rfl⟩ := List.mem_map.mp there
    exact absurd (mem_ids (mem_add_of_mem hrow)) gone
  | deleted _ _ => exact absurd there gone
  | readerFailed => exact absurd there gone
  | drained _ _ => exact absurd there gone
  | @uploaded reply now item rest first _ =>
    cases heard : reply.outcome with
    | some o =>
      obtain ⟨rfl, ends⟩ := ((h.upload first now heard).2 id there).mp gone
      exact ⟨item, rest, o, answer_upload first heard, first, rfl, ends⟩
    | none =>
      cases reply with
      | unheard stored => exact absurd there gone
      | _ => cases heard
  | workerFailed => exact absurd there gone
  | restarted => exact absurd there gone

/-- At every step of a run, the rows that leave have a reason exactly if the answer counts permanent
errors. -/
theorem leavesForReason_iff (run : StationRun cfg log s) (hs : s.step cfg a = some t) :
    LeavesForReason maxAttempts4xx answer (Leaves cfg) log (s, a) ↔
      AnswersPermanent maxAttempts4xx answer log (s, a) := by
  have counted := run.counted
  have positive : 0 < maxAttempts4xx := by decide
  have count : ∀ {item rest}, s.sending = item :: rest →
      countAttempts maxAttempts4xx (answersTo answer item.id log) = some item.attempts :=
    fun first => counted.counts _ (counted.sending _ (first ▸ List.mem_cons_self))
  constructor
  · rintro reasons ⟨id, o⟩ told
    obtain ⟨reply, now, item, rest, rfl, first, heard, rfl⟩ := answer_eq_some told
    cases ends : countAttempt maxAttempts4xx (some item.attempts) o with
    | some n => exact countsPermanent_of_some (count first) ends
    | none =>
      show CountsPermanent maxAttempts4xx (answersTo answer item.id log) o
      rw [← hasReason_iff positive (count first) ends, ← answersTo_of_answer told]
      have there : item.id ∈ s.queue.ids :=
        mem_ids (counted.sending item (first ▸ List.mem_cons_self))
      refine reasons item.id ⟨t, hs, there, ?_⟩
      cases Station.step_cases hs with
      | uploaded first' _ =>
        obtain ⟨rfl, rfl⟩ := List.cons.inj (first.symm.trans first')
        exact ((counted.upload first now heard).2 _ there).mpr ⟨rfl, ends⟩
  · rintro permanent id ⟨t', hs', there, gone⟩
    obtain ⟨item, rest, o, told, first, rfl, ends⟩ := counted.leaves hs' there gone
    rw [answersTo_of_answer told, hasReason_iff positive (count first) ends]
    exact permanent _ told

/-- So it is in a whole run. -/
theorem exitsHaveReasons_iff (run : StationRun cfg log s) :
    ExitsHaveReasons cfg log ↔ CountsArePermanent log := by
  rw [CountsArePermanent, countsOfPermanent_iff]
  refine forall₄_congr fun log₁ e log₂ split => ?_
  obtain ⟨v, before, hs, _⟩ := run.split_at split
  exact leavesForReason_iff before hs

end Syrotp.Gsm
