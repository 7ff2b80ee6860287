import AngzarrClient.Lib.Run
import Mathlib.Data.List.Count
import Mathlib.Data.List.Nodup

/-!
# A process manager's compensation

A process manager completes steps at other components, one reply at a time, and when one
of them is refused it rolls back: it journals a failed event and, for every step it
completed, an event that undoes it. A reply may still arrive after that; its step is
undone at once. So undoing is split between two operations that look at different
evidence: `Compensation.rollback` at what the state records of each step, and
`Compensation.reply` at the type of the reply.

The journal of a run is what its operations append, each on the state folded from the
journal so far (`AngzarrClient.Compensation.run`). To say *which* step an undo belongs to,
a run is also followed with each event's origin
(`AngzarrClient.Compensation.trace`); erasing the origins gives the journal back
(`AngzarrClient.Compensation.map_event_trace`).

* When no step is replied to twice and there is one rollback at most, every step is undone
  exactly once if both occurred, wherever the rollback falls
  (`AngzarrClient.Compensation.undone_exactly_once`).
* A rollback does not ask whether there was one before it. So in an arbitrary run every
  step is undone at most once exactly when no operation repeats
  (`AngzarrClient.Compensation.undone_at_most_once_iff`).
-/

namespace AngzarrClient

/-! ### Steps and their registration -/

/-- What the `(command)` option of a message says: whether it is a fact. -/
structure CommandOption where
  fact : Bool
  deriving DecidableEq

/-- What registering a step reads of a message's descriptor. -/
structure MessageDescriptor where
  fullName : String
  /-- The `(command)` option, where the message has one. -/
  command : Option CommandOption
  deriving DecidableEq

/-- `_is_command`: whether a message is declared a command and not a fact. -/
def isCommand (message : MessageDescriptor) : Bool :=
  match message.command with
  | none => false
  | some option => !option.fact

/-- `UndoTargetsCommand`: the warning of a step whose undo may be refused. -/
structure UndoTargetsCommand where
  step : String
  command : String
  deriving DecidableEq

/-- `UndoTargetsCommand.code`. -/
def UndoTargetsCommand.code : String := "UNDO_TARGETS_COMMAND"

/-- `UndoTargetsCommand.args`. -/
def UndoTargetsCommand.args (warning : UndoTargetsCommand) : List (String × String) :=
  [("step", warning.step), ("command", warning.command)]

/-- `_Step`: over states `σ`, events `ε` and the types `τ` of events. -/
structure CompensationStep (σ ε τ : Type) where
  name : String
  completedBy : τ
  target : String
  recorded : σ → Option ε
  undo : ε → ε

/-- `Compensation`: the steps in the order they were registered, and the events that roll
them back for a reason in `ρ`. -/
structure Compensation (σ ρ ε τ : Type) where
  failed : σ → ρ → ε
  rolledBack : σ → Bool
  compensationFailed : σ → String → ε
  steps : List (CompensationStep σ ε τ) := []
  warnings : List UndoTargetsCommand := []

namespace Compensation

variable {σ ρ ε τ : Type}

/-- `Compensation.step`: register a step after those registered, and warn of an undo that
becomes a command. -/
def step (C : Compensation σ ρ ε τ) (name : String) (completedBy : τ)
    (undoes : MessageDescriptor) (recorded : σ → Option ε) (undo : ε → ε) :
    Compensation σ ρ ε τ :=
  let target := undoes.fullName
  { C with
    warnings :=
      if isCommand undoes then C.warnings ++ [⟨name, target⟩] else C.warnings
    steps := C.steps ++ [⟨name, completedBy, target, recorded, undo⟩] }

/-- `Compensation.rollback`: the failed event, then the undo of each step the state
records done, newest first. -/
def rollback (C : Compensation σ ρ ε τ) (state : σ) (reason : ρ) : List ε :=
  C.failed state reason ::
    C.steps.reverse.filterMap fun step => (step.recorded state).map step.undo

variable [DecidableEq τ] (typeOf : ε → τ)

/-- `Compensation.reply`: the reply, and its step's undo at once when the state has rolled
back. The step is the first that the reply's type completes. -/
def reply (C : Compensation σ ρ ε τ) (state : σ) (reply : ε) : List ε :=
  reply ::
    if C.rolledBack state then
      match C.steps.find? fun step => typeOf reply = step.completedBy with
      | some step => [step.undo reply]
      | none => []
    else []

omit [DecidableEq τ] in
/-- `Compensation.undo_refused`: the failure of the first step whose undo becomes the
message. -/
def undoRefused (C : Compensation σ ρ ε τ) (state : σ) (target : String) : Option ε :=
  (C.steps.find? fun step => step.target = target).map fun step =>
    C.compensationFailed state step.name

/-! ### Runs -/

/-- One handling of the process manager: a reply recorded, or a rollback. -/
inductive Operation (ρ ε : Type) where
  | reply (event : ε)
  | rollback (reason : ρ)
  deriving DecidableEq

/-- The replies of a run, in order. -/
def replies (ops : List (Operation ρ ε)) : List ε :=
  ops.filterMap fun
    | .reply event => some event
    | .rollback _ => none

/-- The reasons of a run's rollbacks, in order. -/
def rollbacks (ops : List (Operation ρ ε)) : List ρ :=
  ops.filterMap fun
    | .reply _ => none
    | .rollback reason => some reason

/-- The events of one operation on a state. -/
def events (C : Compensation σ ρ ε τ) (state : σ) : Operation ρ ε → List ε
  | .reply event => C.reply typeOf state event
  | .rollback reason => C.rollback state reason

variable (fold : List ε → σ)

/-- The journal once an operation is handled: its events are built on the state folded from
the journal so far, and appended. -/
def journaled (C : Compensation σ ρ ε τ) (journal : List ε) (op : Operation ρ ε) : List ε :=
  journal ++ C.events typeOf (fold journal) op

/-- **The journal of a run.** -/
def run (C : Compensation σ ρ ε τ) (ops : List (Operation ρ ε)) : List ε :=
  Run.run (C.journaled typeOf fold) [] ops

/-! ### The origin of an event -/

/-- A journaled event and, for an undo, the position of the step it undoes. -/
structure Entry (ε : Type) where
  event : ε
  undoes : Option ℕ
  deriving DecidableEq

/-- The step a reply completes, with its position: the first of its type. -/
def completed (C : Compensation σ ρ ε τ) (event : ε) : Option (CompensationStep σ ε τ × ℕ) :=
  C.steps.zipIdx.find? fun (step, _) => typeOf event = step.completedBy

/-- The events of one operation with their origins. -/
def entries (C : Compensation σ ρ ε τ) (state : σ) : Operation ρ ε → List (Entry ε)
  | .reply event =>
    ⟨event, none⟩ ::
      if C.rolledBack state then
        ((C.completed typeOf event).map fun (step, i) => ⟨step.undo event, some i⟩).toList
      else []
  | .rollback reason =>
    ⟨C.failed state reason, none⟩ ::
      C.steps.zipIdx.reverse.filterMap fun (step, i) =>
        (step.recorded state).map fun done => ⟨step.undo done, some i⟩

/-- The journal with its origins once an operation is handled. -/
def traced (C : Compensation σ ρ ε τ) (journal : List (Entry ε)) (op : Operation ρ ε) :
    List (Entry ε) :=
  journal ++ C.entries typeOf (fold (journal.map Entry.event)) op

/-- The journal of a run with the origin of each event. -/
def trace (C : Compensation σ ρ ε τ) (ops : List (Operation ρ ε)) : List (Entry ε) :=
  Run.run (C.traced typeOf fold) [] ops

/-- The undos of the step at a position. -/
def undosOf (i : ℕ) (journal : List (Entry ε)) : List (Entry ε) :=
  journal.filter fun entry => entry.undoes = some i

/-- The undos of a journal, whatever their step. -/
def undos (journal : List (Entry ε)) : List (Entry ε) :=
  journal.filter fun entry => entry.undoes.isSome

/-! ### What one operation adds -/

@[simp] theorem replies_concat_reply (ops : List (Operation ρ ε)) (e : ε) :
    replies (ops ++ [.reply e]) = replies ops ++ [e] := by
  simp [replies]

@[simp] theorem replies_concat_rollback (ops : List (Operation ρ ε)) (r : ρ) :
    replies (ops ++ [.rollback r]) = replies ops := by
  simp [replies]

/-- The replies of a run's part are among the run's. -/
theorem replies_sublist_append (pre post : List (Operation ρ ε)) :
    (replies pre).Sublist (replies (pre ++ post)) := by
  simp only [replies, List.filterMap_append]
  exact List.sublist_append_left ..

@[simp] theorem rollbacks_concat_reply (ops : List (Operation ρ ε)) (e : ε) :
    rollbacks (ops ++ [.reply e]) = rollbacks ops := by
  simp [rollbacks]

@[simp] theorem rollbacks_concat_rollback (ops : List (Operation ρ ε)) (r : ρ) :
    rollbacks (ops ++ [.rollback r]) = rollbacks ops ++ [r] := by
  simp [rollbacks]

variable {typeOf fold} {C : Compensation σ ρ ε τ}

@[simp] theorem run_nil : C.run typeOf fold [] = [] := rfl

@[simp] theorem trace_nil : C.trace typeOf fold [] = [] := rfl

theorem run_concat (ops : List (Operation ρ ε)) (op : Operation ρ ε) :
    C.run typeOf fold (ops ++ [op]) =
      C.run typeOf fold ops ++ C.events typeOf (fold (C.run typeOf fold ops)) op :=
  Run.run_concat ops op

/-- The journal of a longer run continues that of a shorter one. -/
theorem run_prefix_append (pre post : List (Operation ρ ε)) :
    C.run typeOf fold pre <+: C.run typeOf fold (pre ++ post) := by
  rw [run, run, Run.run_append]
  exact Run.run_related (fun _ => List.prefix_rfl) List.IsPrefix.trans
    (fun journal op => List.prefix_append journal _) _ post

/-- The step a reply completes stands at its position and has the reply's type. -/
theorem completed_spec {event : ε} {step : CompensationStep σ ε τ} {i : ℕ}
    (h : C.completed typeOf event = some (step, i)) :
    C.steps[i]? = some step ∧ typeOf event = step.completedBy := by
  refine ⟨?_, by simpa using List.find?_some h⟩
  exact List.mk_mem_zipIdx_iff_getElem?.mp (List.mem_of_find?_eq_some h)

theorem exists_completed {event : ε} {step : CompensationStep σ ε τ} (hstep : step ∈ C.steps)
    (h : typeOf event = step.completedBy) : ∃ p, C.completed typeOf event = some p := by
  obtain ⟨i, hi⟩ := List.mem_iff_getElem?.mp hstep
  refine Option.isSome_iff_exists.mp (List.find?_isSome.mpr ⟨(step, i), ?_, by simpa using h⟩)
  exact List.mk_mem_zipIdx_iff_getElem?.mpr hi

/-- Which step a reply completes is a matter of its type. -/
theorem completed_congr {e e' : ε} (h : typeOf e = typeOf e') :
    C.completed typeOf e = C.completed typeOf e' := by
  unfold completed
  rw [h]

theorem map_fst_completed (event : ε) :
    (C.completed typeOf event).map Prod.fst =
      C.steps.find? fun step => typeOf event = step.completedBy := by
  conv_rhs => rw [← List.zipIdx_map_fst 0 C.steps, List.find?_map]
  rfl

/-- **Erasing the origins** of an operation's entries gives its events. -/
theorem map_event_entries (state : σ) (op : Operation ρ ε) :
    (C.entries typeOf state op).map Entry.event = C.events typeOf state op := by
  cases op with
  | reply event =>
    simp only [entries, events, reply, List.map_cons]
    congr 1
    split
    · rw [← map_fst_completed]
      cases C.completed typeOf event <;> rfl
    · rfl
  | rollback reason =>
    simp only [entries, events, rollback, List.map_cons, List.map_filterMap]
    conv_rhs => rw [← List.zipIdx_map_fst 0 C.steps, ← List.map_reverse, List.filterMap_map]
    congr 2
    funext ⟨step, i⟩
    cases h : step.recorded state <;> simp [h]

theorem trace_concat' (ops : List (Operation ρ ε)) (op : Operation ρ ε) :
    C.trace typeOf fold (ops ++ [op]) = C.trace typeOf fold ops ++
      C.entries typeOf (fold ((C.trace typeOf fold ops).map Entry.event)) op :=
  Run.run_concat ops op

/-- **Erasing the origins** of a run's entries gives its journal. -/
theorem map_event_trace (ops : List (Operation ρ ε)) :
    (C.trace typeOf fold ops).map Entry.event = C.run typeOf fold ops := by
  induction ops using List.reverseRecOn with
  | nil => rfl
  | append_singleton ops op ih =>
    rw [trace_concat', run_concat, List.map_append, map_event_entries, ih]

theorem trace_concat (ops : List (Operation ρ ε)) (op : Operation ρ ε) :
    C.trace typeOf fold (ops ++ [op]) = C.trace typeOf fold ops ++
      C.entries typeOf (fold (C.run typeOf fold ops)) op := by
  rw [trace_concat', map_event_trace]

/-! ### The undos of one step -/

omit [DecidableEq τ] in
/-- Only one position of a list is the `i`-th. -/
theorem filter_zipIdx (steps : List (CompensationStep σ ε τ)) (k i : ℕ) :
    (steps.zipIdx k).filter (fun p => p.2 = k + i) =
      (steps[i]?.map fun step => (step, k + i)).toList := by
  induction steps generalizing k i with
  | nil => rfl
  | cons step steps ih =>
    rw [List.zipIdx_cons, List.filter_cons]
    cases i with
    | zero =>
      -- The positions after the first are all larger.
      have hrest : (steps.zipIdx (k + 1)).filter (fun p => p.2 = k + 0) = [] := by
        refine List.filter_eq_nil_iff.mpr fun p hp => ?_
        have := List.le_snd_of_mem_zipIdx hp
        simp only [decide_eq_true_eq]
        omega
      rw [hrest]
      simp
    | succ i =>
      have hk : k + (i + 1) = k + 1 + i := by omega
      have hne : ¬k = k + 1 + i := by omega
      rw [hk, ih]
      simp [hne]

@[simp] theorem undosOf_append (i : ℕ) (j j' : List (Entry ε)) :
    undosOf i (j ++ j') = undosOf i j ++ undosOf i j' :=
  List.filter_append ..

@[simp] theorem undosOf_nil (i : ℕ) : undosOf i ([] : List (Entry ε)) = [] := rfl

/-- **A rollback's undos of one step**: one when the state records it done, built from the
event recorded, and none when it does not. -/
theorem undosOf_entries_rollback (i : ℕ) (state : σ) (reason : ρ) :
    undosOf i (C.entries typeOf state (.rollback reason)) =
      (C.steps[i]?.bind fun step =>
        (step.recorded state).map fun done => ⟨step.undo done, some i⟩).toList := by
  have hcomm : ∀ steps : List (CompensationStep σ ε τ × ℕ),
      (steps.filterMap fun (step, i) =>
        (step.recorded state).map fun done => (⟨step.undo done, some i⟩ : Entry ε)).filter
          (fun entry => entry.undoes = some i) =
      (steps.filter fun p => p.2 = i).filterMap fun (step, i) =>
        (step.recorded state).map fun done => ⟨step.undo done, some i⟩ := by
    intro steps
    rw [List.filter_filterMap, List.filterMap_filter]
    congr 1
    funext ⟨step, k⟩
    cases h : step.recorded state with
    | none => simp [h]
    | some done => by_cases hk : k = i <;> simp [h, hk]
  have hone : C.steps.zipIdx.filter (fun p => p.2 = i) =
      (C.steps[i]?.map fun step => (step, i)).toList := by
    simpa using filter_zipIdx C.steps 0 i
  simp only [undosOf, entries, List.filter_cons, reduceCtorEq, decide_false, Bool.false_eq_true,
    if_false]
  rw [hcomm, List.filter_reverse, hone]
  cases C.steps[i]? with
  | none => rfl
  | some step => cases h : step.recorded state <;> simp [h]

/-- **A reply's undos of one step**: one when the state has rolled back and the reply
completes that step, and none otherwise. -/
theorem undosOf_entries_reply (i : ℕ) (state : σ) (e : ε) :
    undosOf i (C.entries typeOf state (.reply e)) =
      if C.rolledBack state then
        (((C.completed typeOf e).filter fun p => p.2 = i).map
          fun (step, i) => ⟨step.undo e, some i⟩).toList
      else [] := by
  simp only [undosOf, entries, List.filter_cons, reduceCtorEq, decide_false, Bool.false_eq_true,
    if_false]
  split
  · cases C.completed typeOf e with
    | none => rfl
    | some p => by_cases hp : p.2 = i <;> simp [Option.filter, hp]
  · rfl

/-! ### A state folded from the journal -/

/-- **What a process manager's fold keeps of its journal**: that it rolled back once a
failed event is folded, and of each step the event that completed it. Failed events and
undos complete no step. -/
structure Folds (C : Compensation σ ρ ε τ) (typeOf : ε → τ) (fold : List ε → σ) : Prop where
  rolledBack_iff : ∀ j, C.rolledBack (fold j) = true ↔ ∃ state reason, C.failed state reason ∈ j
  mem_of_recorded : ∀ step ∈ C.steps, ∀ j e, step.recorded (fold j) = some e →
    e ∈ j ∧ typeOf e = step.completedBy
  isSome_recorded : ∀ step ∈ C.steps, ∀ j, ∀ e ∈ j, typeOf e = step.completedBy →
    (step.recorded (fold j)).isSome
  failed_type : ∀ step ∈ C.steps, ∀ state reason,
    typeOf (C.failed state reason) ≠ step.completedBy
  undo_type : ∀ step ∈ C.steps, ∀ undone ∈ C.steps, ∀ e,
    typeOf (undone.undo e) ≠ step.completedBy

section Folds

variable (hfold : C.Folds typeOf fold)
include hfold

/-- The events of a step's type that an operation journals are its reply. -/
theorem filter_events {step : CompensationStep σ ε τ} (hstep : step ∈ C.steps) (state : σ)
    (op : Operation ρ ε) :
    (C.events typeOf state op).filter (fun e => typeOf e = step.completedBy) =
      (replies [op]).filter fun e => typeOf e = step.completedBy := by
  -- What follows an operation's first event is undos.
  have hundos : ∀ late : List ε, (∀ e ∈ late, ∃ undone ∈ C.steps, ∃ d, e = undone.undo d) →
      late.filter (fun e => typeOf e = step.completedBy) = [] := by
    intro late hlate
    refine List.filter_eq_nil_iff.mpr fun e he => ?_
    obtain ⟨undone, hundone, d, rfl⟩ := hlate e he
    simpa using hfold.undo_type step hstep undone hundone d
  cases op with
  | reply event =>
    have hreply : replies [(.reply event : Operation ρ ε)] = [event] := rfl
    rw [events, reply, hreply, List.filter_cons, List.filter_cons, hundos]
    · rfl
    · intro e he
      split at he
      · split at he
        · next undone hfind =>
          exact ⟨undone, List.mem_of_find?_eq_some hfind, event, List.mem_singleton.mp he⟩
        · cases he
      · cases he
  | rollback reason =>
    rw [events, rollback, List.filter_cons_of_neg, hundos]
    · rfl
    · intro e he
      obtain ⟨undone, hundone, h⟩ := List.mem_filterMap.mp he
      obtain ⟨d, -, rfl⟩ := Option.map_eq_some_iff.mp h
      exact ⟨undone, List.mem_reverse.mp hundone, d, rfl⟩
    · simpa using hfold.failed_type step hstep state reason

/-- **The journal holds of a step's type exactly its replies.** -/
theorem filter_run {step : CompensationStep σ ε τ} (hstep : step ∈ C.steps)
    (ops : List (Operation ρ ε)) :
    (C.run typeOf fold ops).filter (fun e => typeOf e = step.completedBy) =
      (replies ops).filter fun e => typeOf e = step.completedBy := by
  induction ops using List.reverseRecOn with
  | nil => rfl
  | append_singleton ops op ih =>
    have hsplit : replies (ops ++ [op]) = replies ops ++ replies [op] := by
      simp [replies]
    rw [run_concat, hsplit, List.filter_append, List.filter_append, ih,
      filter_events hfold hstep]

/-- A step is recorded done exactly when it was replied to. -/
theorem isSome_recorded_iff {step : CompensationStep σ ε τ} (hstep : step ∈ C.steps)
    (ops : List (Operation ρ ε)) :
    (step.recorded (fold (C.run typeOf fold ops))).isSome ↔
      ∃ e ∈ replies ops, typeOf e = step.completedBy := by
  have hmem : ∀ e, e ∈ C.run typeOf fold ops ∧ typeOf e = step.completedBy ↔
      e ∈ replies ops ∧ typeOf e = step.completedBy := by
    intro e
    have h : e ∈ (C.run typeOf fold ops).filter (fun e => typeOf e = step.completedBy) ↔
        e ∈ (replies ops).filter fun e => typeOf e = step.completedBy := by
      rw [filter_run hfold hstep]
    simpa using h
  constructor
  · intro h
    obtain ⟨e, he⟩ := Option.isSome_iff_exists.mp h
    exact ⟨e, (hmem e).mp (hfold.mem_of_recorded step hstep _ e he)⟩
  · rintro ⟨e, he⟩
    obtain ⟨hj, htype⟩ := (hmem e).mpr he
    exact hfold.isSome_recorded step hstep _ e hj htype

/-- What the state records of a step is the reply that completed it. -/
theorem mem_replies_of_recorded {step : CompensationStep σ ε τ} (hstep : step ∈ C.steps)
    {ops : List (Operation ρ ε)} {e : ε}
    (h : step.recorded (fold (C.run typeOf fold ops)) = some e) :
    e ∈ replies ops ∧ typeOf e = step.completedBy := by
  obtain ⟨hj, htype⟩ := hfold.mem_of_recorded step hstep _ e h
  have hmem : e ∈ (C.run typeOf fold ops).filter fun e => typeOf e = step.completedBy :=
    List.mem_filter.mpr ⟨hj, by simpa using htype⟩
  rw [filter_run hfold hstep] at hmem
  exact ⟨(List.mem_filter.mp hmem).1, htype⟩

/-- **A run has rolled back once it made a rollback**, as long as no reply is itself a
failed event. -/
theorem rolledBack_run {ops : List (Operation ρ ε)}
    (hreplies : ∀ e ∈ replies ops, ∀ state reason, e ≠ C.failed state reason) :
    C.rolledBack (fold (C.run typeOf fold ops)) = true ↔ rollbacks ops ≠ [] := by
  induction ops using List.reverseRecOn with
  | nil =>
    rw [hfold.rolledBack_iff]
    simp [rollbacks]
  | append_singleton ops op ih =>
    have hbefore : ∀ e ∈ replies ops, ∀ state reason, e ≠ C.failed state reason :=
      fun e he => hreplies e ((replies_sublist_append ops [op]).subset he)
    specialize ih hbefore
    -- Rolling back is for good: the failed event stays in the journal.
    have hstays : C.rolledBack (fold (C.run typeOf fold ops)) = true →
        C.rolledBack (fold (C.run typeOf fold (ops ++ [op]))) = true := by
      simp only [hfold.rolledBack_iff]
      rintro ⟨state, reason, h⟩
      exact ⟨state, reason, (run_prefix_append ops [op]).subset h⟩
    cases op with
    | reply event =>
      rw [rollbacks_concat_reply, ← ih]
      refine ⟨fun h => ?_, hstays⟩
      by_contra hnot
      obtain ⟨state, reason, hmem⟩ := (hfold.rolledBack_iff _).mp h
      rw [run_concat, List.mem_append] at hmem
      rcases hmem with hmem | hmem
      · exact hnot ((hfold.rolledBack_iff _).mpr ⟨state, reason, hmem⟩)
      · rw [events, reply, if_neg hnot, List.mem_singleton] at hmem
        exact hreplies event (by simp) state reason hmem.symm
    | rollback reason =>
      rw [rollbacks_concat_rollback]
      refine ⟨fun _ => by simp, fun _ => ?_⟩
      rw [hfold.rolledBack_iff, run_concat]
      exact ⟨_, reason, List.mem_append_right _ (List.mem_cons_self ..)⟩

end Folds

/-! ### At most one reply a step and one rollback -/

/-- **A run in which no step is replied to twice** and there is at most one rollback. -/
structure OncePerStep (C : Compensation σ ρ ε τ) (typeOf : ε → τ)
    (ops : List (Operation ρ ε)) : Prop where
  reply_type : ∀ e ∈ replies ops, ∃ step ∈ C.steps, typeOf e = step.completedBy
  one_reply : ((replies ops).map typeOf).Nodup
  one_rollback : (rollbacks ops).length ≤ 1

omit [DecidableEq τ] in
/-- The part of such a run before an operation is one too. -/
theorem OncePerStep.of_append {pre post : List (Operation ρ ε)}
    (h : C.OncePerStep typeOf (pre ++ post)) : C.OncePerStep typeOf pre := by
  have hreplies := replies_sublist_append pre post
  have hrollbacks : (rollbacks pre).Sublist (rollbacks (pre ++ post)) := by
    simp only [rollbacks, List.filterMap_append]
    exact List.sublist_append_left ..
  exact ⟨fun e he => h.reply_type e (hreplies.subset he), h.one_reply.sublist (hreplies.map _),
    Nat.le_trans hrollbacks.length_le h.one_rollback⟩

/-- Of a list whose images differ, one element has a given image. -/
theorem filter_eq_singleton {l : List ε} {e : ε} (hl : (l.map typeOf).Nodup) (he : e ∈ l) :
    l.filter (fun e' => typeOf e' = typeOf e) = [e] := by
  induction l with
  | nil => cases he
  | cons a l ih =>
    rw [List.map_cons, List.nodup_cons] at hl
    rcases List.mem_cons.mp he with rfl | he
    · have hrest : l.filter (fun e' => typeOf e' = typeOf e) = [] := by
        refine List.filter_eq_nil_iff.mpr fun e' he' => ?_
        rw [decide_eq_true_eq]
        exact fun h => hl.1 (h ▸ List.mem_map_of_mem he')
      rw [List.filter_cons_of_pos (by simp), hrest]
    · have hne : typeOf a ≠ typeOf e := fun h => hl.1 (h ▸ List.mem_map_of_mem he)
      rw [List.filter_cons_of_neg (by simpa using hne), ih hl.2 he]

/-- The step a reply completes is the one of its type, when no two steps share one. -/
theorem filter_completed (hsteps : (C.steps.map (·.completedBy)).Nodup) {i : ℕ}
    {step : CompensationStep σ ε τ} (hi : C.steps[i]? = some step) (e : ε) :
    (C.completed typeOf e).filter (fun p => p.2 = i) =
      if typeOf e = step.completedBy then some (step, i) else none := by
  split
  · next htype =>
    obtain ⟨⟨found, k⟩, hfound⟩ := exists_completed (List.mem_of_getElem? hi) htype
    obtain ⟨hk, hktype⟩ := completed_spec hfound
    -- Two positions of one type are the same position.
    have hki : i = k := by
      have hlt : i < (C.steps.map (·.completedBy)).length := by
        rw [List.length_map]
        exact (List.getElem?_eq_some_iff.mp hi).1
      refine (List.getElem?_inj hlt hsteps).mp ?_
      rw [List.getElem?_map, List.getElem?_map, hi, hk, Option.map_some, Option.map_some,
        ← htype, hktype]
    subst hki
    rw [hk, Option.some.injEq] at hi
    simp [hfound, hi, Option.filter]
  · next htype =>
    rw [Option.filter_eq_none_iff]
    rintro ⟨found, k⟩ hfound
    rw [decide_eq_true_eq]
    rintro rfl
    obtain ⟨hk, hktype⟩ := completed_spec hfound
    rw [hi, Option.some.injEq] at hk
    exact htype (hk ▸ hktype)

section OncePerStep

variable (hfold : C.Folds typeOf fold) {ops : List (Operation ρ ε)}
  (hops : C.OncePerStep typeOf ops)
include hfold hops

/-- A step is recorded by the one reply that completed it. -/
theorem recorded_run {step : CompensationStep σ ε τ} (hstep : step ∈ C.steps) :
    (step.recorded (fold (C.run typeOf fold ops))).toList =
      (replies ops).filter fun e => typeOf e = step.completedBy := by
  cases h : step.recorded (fold (C.run typeOf fold ops)) with
  | none =>
    refine (List.filter_eq_nil_iff.mpr fun e he htype => ?_).symm
    have hsome := (isSome_recorded_iff hfold hstep ops).mpr ⟨e, he, by simpa using htype⟩
    simp [h] at hsome
  | some e =>
    obtain ⟨he, htype⟩ := mem_replies_of_recorded hfold hstep h
    rw [← htype, filter_eq_singleton hops.one_reply he]
    rfl

omit [DecidableEq τ] in
/-- No reply is a failed event: it has the type of a step. -/
theorem OncePerStep.ne_failed : ∀ e ∈ replies ops, ∀ state reason, e ≠ C.failed state reason := by
  rintro e he state reason rfl
  obtain ⟨step, hstep, htype⟩ := hops.reply_type _ he
  exact hfold.failed_type step hstep state reason htype

end OncePerStep

/-- **The undos of a step over a run** are its reply's, once a rollback was made: wherever
the rollback falls. -/
theorem undosOf_trace (hsteps : (C.steps.map (·.completedBy)).Nodup)
    (hfold : C.Folds typeOf fold) {ops : List (Operation ρ ε)} (hops : C.OncePerStep typeOf ops)
    {i : ℕ} {step : CompensationStep σ ε τ} (hi : C.steps[i]? = some step) :
    undosOf i (C.trace typeOf fold ops) =
      if rollbacks ops = [] then []
      else ((replies ops).filter fun e => typeOf e = step.completedBy).map
        fun e => ⟨step.undo e, some i⟩ := by
  induction ops using List.reverseRecOn with
  | nil => rfl
  | append_singleton ops op ih =>
    have hbefore : C.OncePerStep typeOf ops := hops.of_append
    have hrolled := rolledBack_run hfold (hbefore.ne_failed hfold)
    rw [trace_concat, undosOf_append, ih hbefore]
    cases op with
    | reply e =>
      rw [undosOf_entries_reply, filter_completed hsteps hi, rollbacks_concat_reply,
        replies_concat_reply]
      by_cases hnone : rollbacks ops = []
      · simp [hrolled, hnone]
      · by_cases htype : typeOf e = step.completedBy <;> simp [hrolled, hnone, htype]
    | rollback reason =>
      have hone := hops.one_rollback
      rw [rollbacks_concat_rollback, List.length_append, List.length_singleton] at hone
      have hnone : rollbacks ops = [] := List.length_eq_zero_iff.mp (by omega)
      rw [undosOf_entries_rollback, hi, rollbacks_concat_rollback, replies_concat_rollback,
        ← recorded_run hfold hbefore (List.mem_of_getElem? hi)]
      cases h : step.recorded (fold (C.run typeOf fold ops)) <;> simp [hnone, h]

/-- No undo is of a step that is not there. -/
theorem undosOf_trace_none {i : ℕ} (hi : C.steps[i]? = none) (ops : List (Operation ρ ε)) :
    undosOf i (C.trace typeOf fold ops) = [] := by
  induction ops using List.reverseRecOn with
  | nil => rfl
  | append_singleton ops op ih =>
    rw [trace_concat, undosOf_append, ih, List.nil_append]
    cases op with
    | rollback reason =>
      rw [undosOf_entries_rollback, hi]
      rfl
    | reply e =>
      rw [undosOf_entries_reply]
      split
      · have hnone : (C.completed typeOf e).filter (fun p => p.2 = i) = none := by
          rw [Option.filter_eq_none_iff]
          rintro ⟨found, k⟩ hfound
          rw [decide_eq_true_eq]
          rintro rfl
          rw [(completed_spec hfound).1] at hi
          cases hi
        rw [hnone]
        rfl
      · rfl

omit [DecidableEq τ] in
/-- Two journals that undo each step alike hold the same undos, up to their order. -/
theorem undos_perm {j j' : List (Entry ε)} (h : ∀ i, (undosOf i j).Perm (undosOf i j')) :
    (undos j).Perm (undos j') := by
  classical
  refine List.perm_iff_count.mpr fun entry => ?_
  cases hi : entry.undoes with
  | none =>
    -- What undoes no step is among neither's undos.
    have hnot : ∀ j : List (Entry ε), (undos j).count entry = 0 := by
      intro j
      refine List.count_eq_zero.mpr fun hmem => ?_
      simp [undos, hi] at hmem
    rw [hnot, hnot]
  | some i =>
    have hcount : ∀ j : List (Entry ε), (undos j).count entry = (undosOf i j).count entry := by
      intro j
      rw [undos, undosOf, List.count_filter (by simp [hi]), List.count_filter (by simp [hi])]
    rw [hcount, hcount, (h i).count_eq]

/-- **A rollback's events**, of a run with one reply a step: the failed event, then the
undo of each step replied to before it, in the reverse of their registration. -/
theorem run_concat_rollback (hfold : C.Folds typeOf fold) {ops : List (Operation ρ ε)}
    (hops : C.OncePerStep typeOf ops) (reason : ρ) :
    C.run typeOf fold (ops ++ [.rollback reason]) =
      C.run typeOf fold ops ++ C.failed (fold (C.run typeOf fold ops)) reason ::
        C.steps.reverse.filterMap fun step =>
          ((replies ops).find? fun e => typeOf e = step.completedBy).map step.undo := by
  rw [run_concat, events, rollback]
  congr 2
  refine List.filterMap_congr fun step hstep => ?_
  have hfind := recorded_run hfold hops (List.mem_reverse.mp hstep)
  rw [← List.head?_filter, ← hfind, Option.head?_toList]

end Compensation

/-! ### The shipment -/

/-- The events of a process manager of two steps, reserving stock and charging a payment,
each with the identifier its reply brought. -/
inductive ShipmentEvent where
  | stockReserved (reservation : ℕ)
  | paymentCharged (charge : ℕ)
  | shipmentFailed (reason : String)
  | stockReleaseDue (reservation : ℕ)
  | refundDue (charge : ℕ)
  | compensationFailed (step : String)
  deriving DecidableEq

namespace ShipmentEvent

/-- The type of an event. -/
def typeOf : ShipmentEvent → String
  | .stockReserved _ => "StockReserved"
  | .paymentCharged _ => "PaymentCharged"
  | .shipmentFailed _ => "ShipmentFailed"
  | .stockReleaseDue _ => "StockReleaseDue"
  | .refundDue _ => "RefundDue"
  | .compensationFailed _ => "CompensationFailed"

/-- The event's reservation, when it is one. -/
def reservation : ShipmentEvent → Option ShipmentEvent
  | .stockReserved id => some (.stockReserved id)
  | _ => none

/-- The event's charge, when it is one. -/
def charge : ShipmentEvent → Option ShipmentEvent
  | .paymentCharged id => some (.paymentCharged id)
  | _ => none

/-- Whether the event is the failed one. -/
def isFailed : ShipmentEvent → Bool
  | .shipmentFailed _ => true
  | _ => false

/-- The undo a completed step's event calls for. -/
def undone : ShipmentEvent → ShipmentEvent
  | .stockReserved id => .stockReleaseDue id
  | .paymentCharged id => .refundDue id
  | _ => .compensationFailed ""

end ShipmentEvent

/-- What a shipment's journal folds to. -/
structure ShipmentState where
  reserved : Option ShipmentEvent
  charged : Option ShipmentEvent
  failed : Bool
  deriving DecidableEq

/-- The state of a shipment's journal: the last reservation and the last charge, and
whether it failed. -/
def shipmentFold (journal : List ShipmentEvent) : ShipmentState :=
  ⟨(journal.filterMap ShipmentEvent.reservation).getLast?,
    (journal.filterMap ShipmentEvent.charge).getLast?, journal.any ShipmentEvent.isFailed⟩

/-- The shipment's compensation: both undos become facts. -/
def shipment : Compensation ShipmentState String ShipmentEvent String :=
  let empty : Compensation ShipmentState String ShipmentEvent String :=
    { failed := fun _ reason => .shipmentFailed reason
      rolledBack := ShipmentState.failed
      compensationFailed := fun _ step => .compensationFailed step }
  (empty.step "reserve stock" "StockReserved" ⟨"test.compensation.ReleaseStock", some ⟨true⟩⟩
      ShipmentState.reserved ShipmentEvent.undone).step
    "charge payment" "PaymentCharged" ⟨"test.compensation.RefundPayment", some ⟨true⟩⟩
      ShipmentState.charged ShipmentEvent.undone

/-- What a list's last picked element is: one of its elements, of the picked type. -/
theorem getLast?_filterMap_typeOf {pick : ShipmentEvent → Option ShipmentEvent} {type : String}
    (hpick : ∀ e e', pick e = some e' → e = e' ∧ ShipmentEvent.typeOf e = type)
    {j : List ShipmentEvent} {e : ShipmentEvent} (h : (j.filterMap pick).getLast? = some e) :
    e ∈ j ∧ ShipmentEvent.typeOf e = type := by
  obtain ⟨e', he', hpicked⟩ := List.mem_filterMap.mp (List.mem_of_getLast? h)
  obtain ⟨rfl, htype⟩ := hpick e' e hpicked
  exact ⟨he', htype⟩

/-- A list that holds an element of the picked type has a last one. -/
theorem isSome_getLast?_filterMap {pick : ShipmentEvent → Option ShipmentEvent}
    {j : List ShipmentEvent} {e : ShipmentEvent} (he : e ∈ j) (hpick : pick e = some e) :
    ((j.filterMap pick).getLast?).isSome := by
  have hmem : e ∈ j.filterMap pick := List.mem_filterMap.mpr ⟨e, he, hpick⟩
  rw [List.getLast?_isSome]
  exact List.ne_nil_of_mem hmem

/-- A shipment's state is folded from its journal as its compensation reads it. -/
theorem shipment_folds : shipment.Folds ShipmentEvent.typeOf shipmentFold where
  rolledBack_iff := by
    intro j
    change j.any ShipmentEvent.isFailed = true ↔ _
    rw [List.any_eq_true]
    constructor
    · rintro ⟨e, he, hfailed⟩
      cases e <;> first | exact ⟨shipmentFold [], _, he⟩ | cases hfailed
    · rintro ⟨_, reason, he⟩
      exact ⟨_, he, rfl⟩
  mem_of_recorded := by
    intro step hstep j e h
    rcases List.mem_pair.mp hstep with rfl | rfl
    · refine getLast?_filterMap_typeOf (fun e e' h => ?_) h
      cases e <;> simp_all [ShipmentEvent.reservation, ShipmentEvent.typeOf]
    · refine getLast?_filterMap_typeOf (fun e e' h => ?_) h
      cases e <;> simp_all [ShipmentEvent.charge, ShipmentEvent.typeOf]
  isSome_recorded := by
    intro step hstep j e he htype
    rcases List.mem_pair.mp hstep with rfl | rfl
    · refine isSome_getLast?_filterMap he ?_
      cases e <;> simp_all [ShipmentEvent.typeOf, ShipmentEvent.reservation]
    · refine isSome_getLast?_filterMap he ?_
      cases e <;> simp_all [ShipmentEvent.typeOf, ShipmentEvent.charge]
  failed_type := by
    intro step hstep state reason
    rcases List.mem_pair.mp hstep with rfl | rfl <;>
      simp [shipment, Compensation.step, ShipmentEvent.typeOf]
  undo_type := by
    intro step hstep undone hundone e
    rcases List.mem_pair.mp hstep with rfl | rfl <;>
      rcases List.mem_pair.mp hundone with rfl | rfl <;> cases e <;>
        simp [ShipmentEvent.undone, ShipmentEvent.typeOf]

namespace Compensation

variable {σ ρ ε τ : Type} [DecidableEq τ] {typeOf : ε → τ} {fold : List ε → σ}
  {C : Compensation σ ρ ε τ}

/-- **Each completed step is undone exactly once**, over a run. -/
structure UndoneOnce (C : Compensation σ ρ ε τ) (typeOf : ε → τ) (fold : List ε → σ)
    (ops : List (Operation ρ ε)) : Prop where
  /-- The journal with its origins is the journal. -/
  journal : (C.trace typeOf fold ops).map Entry.event = C.run typeOf fold ops
  /-- With a rollback and the step's reply, one undo, built from that reply. -/
  once : ∀ i step, C.steps[i]? = some step → rollbacks ops ≠ [] →
    ∀ e ∈ replies ops, typeOf e = step.completedBy →
      undosOf i (C.trace typeOf fold ops) = [⟨step.undo e, some i⟩]
  /-- Without the one or the other, none. -/
  otherwise : ∀ i step, C.steps[i]? = some step →
    (rollbacks ops = [] ∨ ∀ e ∈ replies ops, typeOf e ≠ step.completedBy) →
      undosOf i (C.trace typeOf fold ops) = []
  /-- Any other order of the same replies and a rollback gives the same undos. -/
  order : ∀ ops', C.OncePerStep typeOf ops' → (replies ops').Perm (replies ops) →
    (rollbacks ops' = [] ↔ rollbacks ops = []) →
      (undos (C.trace typeOf fold ops')).Perm (undos (C.trace typeOf fold ops))
  /-- A rollback is the failed event, then the undos in reverse registration order. -/
  newestFirst : ∀ pre reason post, ops = pre ++ .rollback reason :: post →
    C.run typeOf fold pre ++ C.failed (fold (C.run typeOf fold pre)) reason ::
        (C.steps.reverse.filterMap fun step =>
          ((replies pre).find? fun e => typeOf e = step.completedBy).map step.undo) <+:
      C.run typeOf fold ops

/-- **Each completed step is undone exactly once, whatever the order.** -/
theorem undone_exactly_once (hsteps : (C.steps.map (·.completedBy)).Nodup)
    (hfold : C.Folds typeOf fold) (ops : List (Operation ρ ε))
    (hops : C.OncePerStep typeOf ops) : C.UndoneOnce typeOf fold ops where
  journal := map_event_trace ops
  once := by
    intro i step hi hrollback e he htype
    rw [undosOf_trace hsteps hfold hops hi, if_neg hrollback, ← htype,
      filter_eq_singleton hops.one_reply he]
    rfl
  otherwise := by
    intro i step hi hor
    rw [undosOf_trace hsteps hfold hops hi]
    split
    · rfl
    · next hrollback =>
      have hnone := hor.resolve_left hrollback
      have hnil : (replies ops).filter (fun e => typeOf e = step.completedBy) = [] :=
        List.filter_eq_nil_iff.mpr fun e he => by simpa using hnone e he
      rw [hnil]
      rfl
  order := by
    intro ops' hops' hperm hrollbacks
    refine undos_perm fun i => ?_
    cases hi : C.steps[i]? with
    | none =>
      rw [undosOf_trace_none hi, undosOf_trace_none hi]
    | some step =>
      rw [undosOf_trace hsteps hfold hops hi, undosOf_trace hsteps hfold hops' hi]
      by_cases hrollback : rollbacks ops = []
      · rw [if_pos hrollback, if_pos (hrollbacks.mpr hrollback)]
      · rw [if_neg hrollback, if_neg fun h => hrollback (hrollbacks.mp h)]
        exact (hperm.filter _).map _
  newestFirst := by
    rintro pre reason post rfl
    have hpre : C.OncePerStep typeOf pre := hops.of_append
    rw [← run_concat_rollback hfold hpre reason]
    have hprefix : C.run typeOf fold (pre ++ [.rollback reason]) <+:
        C.run typeOf fold (pre ++ [.rollback reason] ++ post) := run_prefix_append _ _
    simpa using hprefix

end Compensation

/-- The shipment undoes each completed step once, also with the charge's reply late. -/
theorem undone_exactly_once_shipment :
    shipment.OncePerStep ShipmentEvent.typeOf
        [.reply (.stockReserved 1), .rollback "no", .reply (.paymentCharged 2)] ∧
      shipment.UndoneOnce ShipmentEvent.typeOf shipmentFold
        [.reply (.stockReserved 1), .rollback "no", .reply (.paymentCharged 2)] := by
  have hops : shipment.OncePerStep ShipmentEvent.typeOf
      [.reply (.stockReserved 1), .rollback "no", .reply (.paymentCharged 2)] := by
    refine ⟨fun e he => ?_, by decide, by decide⟩
    rcases List.mem_pair.mp he with rfl | rfl
    · exact ⟨_, List.mem_cons_self .., rfl⟩
    · exact ⟨_, List.mem_cons_of_mem _ (List.mem_cons_self ..), rfl⟩
  exact ⟨hops, Compensation.undone_exactly_once (by decide) shipment_folds _ hops⟩

/-! ### Rolling back again -/

namespace Compensation

variable {σ ρ ε τ : Type} [DecidableEq τ] {typeOf : ε → τ} {fold : List ε → σ}
  {C : Compensation σ ρ ε τ}

/-- **An operation that repeats what a rollback did**: a rollback of a state that has
rolled back and records some step done, or a reply, to a state that has rolled back, that
completes a step recorded done. -/
def Repeats (C : Compensation σ ρ ε τ) (typeOf : ε → τ) (state : σ) : Operation ρ ε → Prop
  | .reply event => C.rolledBack state = true ∧ ∃ step ∈ C.steps,
      typeOf event = step.completedBy ∧ (step.recorded state).isSome
  | .rollback _ => C.rolledBack state = true ∧ ∃ step ∈ C.steps, (step.recorded state).isSome

/-- A run none of whose operations repeats, each seen on the state it is made on. -/
def NoneRepeats (C : Compensation σ ρ ε τ) (typeOf : ε → τ) (fold : List ε → σ)
    (ops : List (Operation ρ ε)) : Prop :=
  Run.Along (C.journaled typeOf fold) (fun journal op => ¬C.Repeats typeOf (fold journal) op) [] ops

/-- The entries of a longer run continue those of a shorter one. -/
theorem trace_prefix_append (pre post : List (Operation ρ ε)) :
    C.trace typeOf fold pre <+: C.trace typeOf fold (pre ++ post) := by
  rw [trace, trace, Run.run_append]
  exact Run.run_related (fun _ => List.prefix_rfl) List.IsPrefix.trans
    (fun journal op => List.prefix_append journal _) _ post

section Folds

variable (hfold : C.Folds typeOf fold)
include hfold

omit [DecidableEq τ] in
/-- What the journal records of a step stays recorded. -/
theorem isSome_recorded_of_prefix {step : CompensationStep σ ε τ} (hstep : step ∈ C.steps)
    {j j' : List ε} (hj : j <+: j') (h : (step.recorded (fold j)).isSome) :
    (step.recorded (fold j')).isSome := by
  obtain ⟨e, he⟩ := Option.isSome_iff_exists.mp h
  obtain ⟨hmem, htype⟩ := hfold.mem_of_recorded step hstep j e he
  exact hfold.isSome_recorded step hstep j' e (hj.subset hmem) htype

omit [DecidableEq τ] in
/-- A journal that has rolled back stays rolled back. -/
theorem rolledBack_of_prefix {j j' : List ε} (hj : j <+: j') (h : C.rolledBack (fold j) = true) :
    C.rolledBack (fold j') = true := by
  obtain ⟨state, reason, hmem⟩ := (hfold.rolledBack_iff j).mp h
  exact (hfold.rolledBack_iff j').mpr ⟨state, reason, hj.subset hmem⟩

/-- **The step of the induction**: an operation that does not repeat undoes a step at most
once, and then only a step not undone before, and leaves it recorded by a state that has
rolled back. -/
theorem undosOf_entries_of_not_repeats {journal : List ε} {op : Operation ρ ε}
    (h : ¬C.Repeats typeOf (fold journal) op) {i : ℕ}
    (hadded : undosOf i (C.entries typeOf (fold journal) op) ≠ []) :
    (undosOf i (C.entries typeOf (fold journal) op)).length ≤ 1 ∧
      ∃ step, C.steps[i]? = some step ∧
        (C.rolledBack (fold journal) = true → step.recorded (fold journal) = none) ∧
        C.rolledBack (fold (journal ++ C.events typeOf (fold journal) op)) = true ∧
        (step.recorded (fold (journal ++ C.events typeOf (fold journal) op))).isSome := by
  have hprefix := List.prefix_append journal (C.events typeOf (fold journal) op)
  cases op with
  | reply e =>
    rw [undosOf_entries_reply] at hadded ⊢
    split at hadded
    · next hrolled =>
      rw [if_pos hrolled]
      refine ⟨Option.length_toList_le, ?_⟩
      cases hcompleted : C.completed typeOf e with
      | none =>
        rw [hcompleted] at hadded
        exact absurd rfl hadded
      | some p =>
        obtain ⟨step, k⟩ := p
        -- The reply's undo is of the position asked for.
        have hk : k = i := by
          by_contra hk
          simp [hcompleted, Option.filter, hk] at hadded
        subst hk
        obtain ⟨hstep, htype⟩ := completed_spec hcompleted
        have hmem : step ∈ C.steps := List.mem_of_getElem? hstep
        refine ⟨step, hstep, fun _ => ?_, rolledBack_of_prefix hfold hprefix hrolled, ?_⟩
        · by_contra hsome
          exact h ⟨hrolled, step, hmem, htype, Option.isSome_iff_ne_none.mpr hsome⟩
        · refine hfold.isSome_recorded step hmem _ e ?_ htype
          exact List.mem_append_right _ (List.mem_cons_self ..)
    · exact absurd rfl hadded
  | rollback reason =>
    rw [undosOf_entries_rollback] at hadded ⊢
    refine ⟨Option.length_toList_le, ?_⟩
    cases hstep : C.steps[i]? with
    | none =>
      rw [hstep] at hadded
      exact absurd rfl hadded
    | some step =>
      have hmem : step ∈ C.steps := List.mem_of_getElem? hstep
      have hsome : (step.recorded (fold journal)).isSome := by
        by_contra hnone
        rw [Option.not_isSome_iff_eq_none] at hnone
        simp [hstep, hnone] at hadded
      refine ⟨step, rfl, fun hrolled => absurd ⟨hrolled, step, hmem, hsome⟩ h, ?_,
        isSome_recorded_of_prefix hfold hmem hprefix hsome⟩
      rw [hfold.rolledBack_iff]
      exact ⟨_, reason, List.mem_append_right _ (List.mem_cons_self ..)⟩

/-- **The invariant of a run in which no operation repeats**: a step is undone at most
once, and once it is, the state has rolled back and records it. -/
theorem undosOf_trace_of_noneRepeats {ops : List (Operation ρ ε)}
    (h : C.NoneRepeats typeOf fold ops) (i : ℕ) :
    (undosOf i (C.trace typeOf fold ops)).length ≤ 1 ∧
      (undosOf i (C.trace typeOf fold ops) ≠ [] → ∃ step, C.steps[i]? = some step ∧
        C.rolledBack (fold (C.run typeOf fold ops)) = true ∧
        (step.recorded (fold (C.run typeOf fold ops))).isSome) := by
  induction ops using List.reverseRecOn with
  | nil => exact ⟨Nat.zero_le _, fun hne => absurd rfl hne⟩
  | append_singleton ops op ih =>
    have hop : ¬C.Repeats typeOf (fold (C.run typeOf fold ops)) op := Run.Along.last h
    obtain ⟨hcount, hundone⟩ := ih (Run.Along.of_append h)
    rw [trace_concat, undosOf_append, run_concat]
    by_cases hadded : undosOf i (C.entries typeOf (fold (C.run typeOf fold ops)) op) = []
    · rw [hadded, List.append_nil]
      refine ⟨hcount, fun hne => ?_⟩
      obtain ⟨step, hstep, hrolled, hsome⟩ := hundone hne
      have hprefix := List.prefix_append (C.run typeOf fold ops)
        (C.events typeOf (fold (C.run typeOf fold ops)) op)
      exact ⟨step, hstep, rolledBack_of_prefix hfold hprefix hrolled,
        isSome_recorded_of_prefix hfold (List.mem_of_getElem? hstep) hprefix hsome⟩
    · obtain ⟨hone, step, hstep, hnone, hrolled, hsome⟩ :=
        undosOf_entries_of_not_repeats hfold hop hadded
      -- Had the step been undone before, the state would record it: the operation repeats.
      have hfirst : undosOf i (C.trace typeOf fold ops) = [] := by
        by_contra hne
        obtain ⟨step', hstep', hrolled', hsome'⟩ := hundone hne
        rw [hstep, Option.some.injEq] at hstep'
        subst hstep'
        rw [hnone hrolled'] at hsome'
        cases hsome'
      rw [hfirst, List.nil_append]
      exact ⟨hone, fun _ => ⟨step, hstep, hrolled, hsome⟩⟩

/-- **Once rolled back, every step replied to is undone**: by the rollback, when the reply
came before it, and at once when it came late. -/
theorem undosOf_trace_ne_nil {ops : List (Operation ρ ε)}
    (hreplies : ∀ e ∈ replies ops, ∀ state reason, e ≠ C.failed state reason)
    (hrollback : rollbacks ops ≠ []) {e : ε} (he : e ∈ replies ops)
    {step : CompensationStep σ ε τ} {i : ℕ} (hcompleted : C.completed typeOf e = some (step, i)) :
    undosOf i (C.trace typeOf fold ops) ≠ [] := by
  induction ops using List.reverseRecOn with
  | nil => exact absurd rfl hrollback
  | append_singleton ops op ih =>
    have hbefore : ∀ e ∈ replies ops, ∀ state reason, e ≠ C.failed state reason :=
      fun e he => hreplies e ((replies_sublist_append ops [op]).subset he)
    rw [trace_concat, undosOf_append]
    cases op with
    | reply event =>
      rw [rollbacks_concat_reply] at hrollback
      rw [replies_concat_reply, List.mem_append, List.mem_singleton] at he
      rcases he with he | rfl
      · exact List.append_ne_nil_of_left_ne_nil (ih hbefore hrollback he) _
      · refine List.append_ne_nil_of_right_ne_nil _ ?_
        rw [undosOf_entries_reply, if_pos ((rolledBack_run hfold hbefore).mpr hrollback),
          hcompleted]
        simp [Option.filter]
    | rollback reason =>
      rw [replies_concat_rollback] at he
      refine List.append_ne_nil_of_right_ne_nil _ ?_
      obtain ⟨hstep, htype⟩ := completed_spec hcompleted
      have hsome := (isSome_recorded_iff hfold (List.mem_of_getElem? hstep) ops).mpr ⟨e, he, htype⟩
      obtain ⟨done, hdone⟩ := Option.isSome_iff_exists.mp hsome
      simp [undosOf_entries_rollback, hstep, hdone]

/-- **An operation that repeats undoes some step a second time.** -/
theorem two_undos_of_repeats {ops : List (Operation ρ ε)}
    (hreplies : ∀ e ∈ replies ops, ∀ state reason, e ≠ C.failed state reason)
    {op : Operation ρ ε} (h : C.Repeats typeOf (fold (C.run typeOf fold ops)) op) :
    ∃ i, 2 ≤ (undosOf i (C.trace typeOf fold (ops ++ [op]))).length := by
  cases op with
  | reply event =>
    obtain ⟨hrolled, step, hstep, htype, hsome⟩ := h
    have hrollback := (rolledBack_run hfold hreplies).mp hrolled
    obtain ⟨e, he, hetype⟩ := (isSome_recorded_iff hfold hstep ops).mp hsome
    obtain ⟨⟨found, i⟩, hfound⟩ := exists_completed hstep hetype
    have hevent : C.completed typeOf event = some (found, i) :=
      (completed_congr (htype.trans hetype.symm)).trans hfound
    have hbefore := undosOf_trace_ne_nil hfold hreplies hrollback he hfound
    refine ⟨i, ?_⟩
    rw [trace_concat, undosOf_append, List.length_append, undosOf_entries_reply, if_pos hrolled,
      hevent]
    have := List.length_pos_iff.mpr hbefore
    simp [Option.filter]
    omega
  | rollback reason =>
    obtain ⟨hrolled, step, hstep, hsome⟩ := h
    have hrollback := (rolledBack_run hfold hreplies).mp hrolled
    obtain ⟨e, he, hetype⟩ := (isSome_recorded_iff hfold hstep ops).mp hsome
    obtain ⟨⟨found, i⟩, hfound⟩ := exists_completed hstep hetype
    have hbefore := undosOf_trace_ne_nil hfold hreplies hrollback he hfound
    -- The rollback undoes, of the recorded step's type, the first step once more.
    obtain ⟨hi, htype⟩ := completed_spec hfound
    obtain ⟨done, hdone⟩ := Option.isSome_iff_exists.mp
      ((isSome_recorded_iff hfold (List.mem_of_getElem? hi) ops).mpr ⟨e, he, htype⟩)
    refine ⟨i, ?_⟩
    rw [trace_concat, undosOf_append, List.length_append, undosOf_entries_rollback, hi]
    have := List.length_pos_iff.mpr hbefore
    simp [hdone]
    omega

end Folds

/-- **Every completed step is undone at most once exactly when no operation of the run
repeats**: when no rollback is made of a state that has rolled back and records a step,
and no late reply completes a step again. -/
theorem undone_at_most_once_iff (hfold : C.Folds typeOf fold) (ops : List (Operation ρ ε))
    (hreplies : ∀ e ∈ replies ops, ∀ state reason, e ≠ C.failed state reason) :
    (∀ i, (undosOf i (C.trace typeOf fold ops)).length ≤ 1) ↔ C.NoneRepeats typeOf fold ops := by
  refine ⟨fun h => ?_, fun h i => (undosOf_trace_of_noneRepeats hfold h i).1⟩
  rintro pre op post rfl hrepeats
  have hpre : ∀ e ∈ replies pre, ∀ state reason, e ≠ C.failed state reason :=
    fun e he => hreplies e ((replies_sublist_append pre (op :: post)).subset he)
  obtain ⟨i, htwo⟩ := two_undos_of_repeats hfold hpre hrepeats
  -- The undos of the part of the run up to the operation are undos of the run.
  have hlater : C.trace typeOf fold (pre ++ [op]) <+: C.trace typeOf fold (pre ++ op :: post) := by
    simpa using trace_prefix_append (pre ++ [op]) post
  have hsub := (hlater.sublist.filter fun entry => entry.undoes = some i).length_le
  have hone := h i
  unfold undosOf at htwo hone
  omega

end Compensation

/-- The shipment's one reply and one rollback: each step undone at most once, nothing
repeated. -/
theorem undone_at_most_once_iff_shipment :
    (∀ i, (Compensation.undosOf i (shipment.trace ShipmentEvent.typeOf shipmentFold
        [.reply (.stockReserved 1), .rollback "no"])).length ≤ 1) ↔
      shipment.NoneRepeats ShipmentEvent.typeOf shipmentFold
        [.reply (.stockReserved 1), .rollback "no"] := by
  refine Compensation.undone_at_most_once_iff shipment_folds _ fun e he state reason => ?_
  rw [List.mem_singleton.mp he]
  exact nofun

/-- **Two rollbacks undo a completed step twice**: the state is folded from the journal as
its compensation reads it, and the stock reserved once is released twice. -/
theorem two_rollbacks_undo_twice :
    shipment.Folds ShipmentEvent.typeOf shipmentFold ∧
      shipment.run ShipmentEvent.typeOf shipmentFold
          [.reply (.stockReserved 1), .rollback "no payment", .rollback "no carrier"] =
        [.stockReserved 1, .shipmentFailed "no payment", .stockReleaseDue 1,
          .shipmentFailed "no carrier", .stockReleaseDue 1] ∧
      ¬∀ i, (Compensation.undosOf i (shipment.trace ShipmentEvent.typeOf shipmentFold
        [.reply (.stockReserved 1), .rollback "no payment",
          .rollback "no carrier"])).length ≤ 1 := by
  refine ⟨shipment_folds, by decide, fun h => ?_⟩
  exact absurd (h 0) (by decide)

end AngzarrClient
