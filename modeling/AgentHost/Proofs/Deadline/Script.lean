import AgentHost.Deadline.Handler
import AgentHost.Proofs.Deadline.Delivery
/-!
# Waiting under two limits

A `Script` is a handler that only waits: it pauses, may read the body once, pauses
again as what it read tells it, and answers. `Script.Answers` says when and what it
answers as long as nobody stops it. Under a limit on the answer it is stopped at
the limit, unless the answer is there before (`kept_run`).
-/

namespace AgentHost.Deadline

variable {α : Type} {limits : Limits} {now due time : Nat} {answer : α} {body : Body}

/-- How long some pauses take together. -/
def total : List Nat → Nat
  | [] => 0
  | pause :: rest => pause + total rest

/-- The handler behind some pauses. -/
def Handler.pausing (pauses : List Nat) (next : Handler α) : Handler α := pauses.foldr .sleep next

/-- What a handler waits for, and its answer. -/
inductive Script (α : Type) where
  /-- The body is not looked at. -/
  | blind (pauses : List Nat) (answer : α)
  /-- The body is read between two rows of pauses. -/
  | reading (before : List Nat) (after : Except ReadError String → List Nat × α)

namespace Script

/-- The script as a handler. -/
def handler : Script α → Handler α
  | .blind pauses answer => .pausing pauses (.answer answer)
  | .reading before after =>
    .pausing before (.read fun result => .pausing (after result).1 (.answer (after result).2))

/-- When the body is read. -/
def start : Script α → Nat
  | .blind _ _ => 0
  | .reading before _ => total before

/-- When and what the script answers, with a limit on each silence of the body only. -/
inductive Answers (d : Delivery) (limit : Nat) : Script α → Nat → α → Prop
  | blind {pauses : List Nat} {answer : α} : Answers d limit (.blind pauses answer) (total pauses) answer
  | reading {before : List Nat} {after : Except ReadError String → List Nat × α} {time : Nat}
    {result : Except ReadError String} (read : d.Reads limit (total before) time result) :
    Answers d limit (.reading before after) (time + total (after result).1) (after result).2

theorem exists_answers {limit : Nat} (hlimit : 0 < limit) (d : Delivery) (script : Script α) :
    ∃ due answer, script.Answers d limit due answer := by
  cases script with
  | blind pauses answer => exact ⟨_, _, .blind⟩
  | reading before after => exact ⟨_, _, .reading (d.reads_read hlimit (total before))⟩

end Script

/-! ## Pauses -/

theorem inTime_eq (hnow : now < limits.write) (wait : Nat) :
    inTime limits.write now wait = decide (now + wait < limits.write) := by
  cases wait with
  | zero => simp [inTime, hnow]
  | succ n => simp [inTime]

theorem runFrom_sleep (hnow : now < limits.write) (pause : Nat) (next : Handler α) :
    Handler.runFrom limits now body (.sleep pause next) =
      if now + pause < limits.write then Handler.runFrom limits (now + pause) body next else .late limits.write := by
  simp only [Handler.runFrom, inTime_eq hnow, decide_eq_true_eq, Nat.max_eq_right (Nat.le_of_lt hnow)]

/-- Pauses are one long pause. -/
theorem runFrom_pausing (hnow : now < limits.write) (pauses : List Nat) (next : Handler α) :
    Handler.runFrom limits now body (.pausing pauses next) =
      if now + total pauses < limits.write then Handler.runFrom limits (now + total pauses) body next
      else .late limits.write := by
  induction pauses generalizing now with
  | nil => simp [Handler.pausing, total, hnow]
  | cons pause rest ih =>
    have hnext : Handler.pausing (pause :: rest) next = .sleep pause (.pausing rest next) := rfl
    rw [hnext, runFrom_sleep hnow, total, ← Nat.add_assoc]
    by_cases hpause : now + pause < limits.write
    · rw [if_pos hpause, ih hpause]
    · rw [if_neg hpause, if_neg (by omega)]

/-! ## The limit on the answer -/

/-- The answer is kept if it is due before the limit, and else nothing; it is known
then, or at the limit. -/
structure Outcome.Kept (o : Outcome α) (limit due : Nat) (answer : α) : Prop where
  answer? : o.answer? = if due < limit then some answer else none
  time : o.time = min due limit

theorem Outcome.Kept.answer?_eq_none_iff {o : Outcome α} {limit : Nat} (h : o.Kept limit due answer) :
    o.answer? = none ↔ limit ≤ due := by
  rw [h.answer?, ← Nat.not_lt]
  by_cases hdue : due < limit <;> simp [hdue]

theorem Outcome.Kept.answer?_eq_some_iff {o : Outcome α} {limit : Nat} (h : o.Kept limit due answer) :
    o.answer? = some answer ↔ due < limit := by
  rw [h.answer?]
  by_cases hdue : due < limit <;> simp [hdue]

theorem kept_late (h : limits.write ≤ due) : (Outcome.late limits.write : Outcome α).Kept limits.write due answer where
  answer? := (if_neg (Nat.not_lt.2 h)).symm
  time := (Nat.min_eq_right h).symm

theorem kept_answer (h : now < limits.write) :
    (Handler.runFrom limits now body (.answer answer)).Kept limits.write now answer where
  answer? := (if_pos h).symm
  time := (Nat.min_eq_left (Nat.le_of_lt h)).symm

theorem Outcome.Kept.after {o : Outcome α} {limit : Nat} (h : o.Kept limit due answer) (events : List (Nat × Event)) :
    (o.after events).Kept limit due answer := ⟨h.answer?, h.time⟩

theorem kept_pausing (hnow : now < limits.write) (body : Body) (pauses : List Nat) (answer : α) :
    (Handler.runFrom limits now body (.pausing pauses (.answer answer))).Kept limits.write (now + total pauses) answer := by
  rw [runFrom_pausing hnow]
  split
  case isTrue hdue => exact kept_answer hdue
  case isFalse hdue => exact kept_late (Nat.le_of_not_lt hdue)

/-- A handler that reads goes on when the read is over, unless the limit is met before. -/
theorem runFrom_read (hnow : now < limits.write) (next : Except ReadError String → Handler α) :
    Handler.runFrom limits now body (.read next) =
      if now + (body.read limits.read).time < limits.write then
        (Handler.runFrom limits (now + (body.read limits.read).time) .spent (next (body.read limits.read).result)).after
          (shift now (body.read limits.read).events)
      else
        (Outcome.late limits.write).after
          (shift now ((body.read limits.read).events.filter fun e => inTime limits.write now e.1)) := by
  simp only [Handler.runFrom, inTime_eq hnow, decide_eq_true_eq, Nat.max_eq_right (Nat.le_of_lt hnow)]

/-- A script that runs under both limits is stopped at the limit on the answer or
answers before it, as it would have anyhow. -/
theorem kept_run (hread : 0 < limits.read) (hwrite : 0 < limits.write) {d : Delivery} {script : Script α}
    (h : script.Answers d limits.read due answer) :
    (script.handler.run limits (d.seenFrom script.start)).Kept limits.write due answer := by
  simp only [Handler.run, if_neg (Nat.ne_of_gt hwrite)]
  cases h with
  | @blind pauses answer =>
    have hkept := kept_pausing hwrite (d.seenFrom 0) pauses answer
    rwa [Nat.zero_add] at hkept
  | @reading before after time result hreads =>
    obtain ⟨htime, hresult⟩ := hreads.read_eq hread
    simp only [Script.handler, Script.start, runFrom_pausing hwrite, Nat.zero_add]
    split
    case isFalse hstart => exact kept_late (by omega)
    case isTrue hstart =>
      rw [runFrom_read hstart, htime, hresult]
      split
      case isTrue hover => exact (kept_pausing hover _ _ _).after _
      case isFalse hover => exact (kept_late (by omega)).after _

/-- A read that fails before the limit on the answer is seen to fail. -/
theorem failure_mem_run (hread : 0 < limits.read) (hwrite : 0 < limits.write) {d : Delivery} {before : List Nat}
    {after : Except ReadError String → List Nat × α} {cause : ReadError}
    (h : d.Reads limits.read (total before) time (.error cause)) (htime : time < limits.write) :
    (time, Event.failure cause) ∈
      ((Script.reading before after).handler.run limits (d.seenFrom (total before))).events := by
  obtain ⟨hover, hresult⟩ := h.read_eq hread
  simp only [Handler.run, if_neg (Nat.ne_of_gt hwrite), Script.handler, runFrom_pausing hwrite, Nat.zero_add]
  rw [if_pos (by omega), runFrom_read (by omega), hover, if_pos htime]
  have hshown := Body.showsFailure_read _ _ cause hresult
  exact List.mem_append_left _ (List.mem_map.2 ⟨_, hshown, congrArg (·, Event.failure cause) hover⟩)

end AgentHost.Deadline
