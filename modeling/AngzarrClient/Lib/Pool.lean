import Mathlib.Algebra.GroupWithZero.Nat

/-!
# A pool of workers

Tasks are submitted to a queue, and a bounded number of workers take them from it, in the
order they were submitted in (`Pool.take`). A task that a worker took goes through its stages
one at a time, while the other workers do whatever they do, until it comes to a result
(`Pool.work`). It can be cancelled as long as no worker has taken it (`Pool.cancel`); then it
is passed over.

The queue is what lies past `Pool.next`. What is kept through every step is
`Pool.Sound`: no more tasks run than there are workers, a task runs or has finished exactly
if it was begun, and tasks are begun in the order they were submitted in, so none is begun
twice. A pool at rest (`Pool.AtRest`) has nothing queued and nothing running.
-/

/-- Where a task is, over stages `π` and results `α`. -/
inductive TaskStatus (π α : Type) where
  | queued
  | cancelled
  | running (stage : π)
  | finished (result : α)
  deriving DecidableEq

namespace TaskStatus

variable {π α : Type}

/-- A worker has it. -/
def isRunning : TaskStatus π α → Bool
  | .running _ => true
  | _ => false

/-- A worker has taken it. -/
def hasBegun : TaskStatus π α → Bool
  | .running _ => true
  | .finished _ => true
  | _ => false

end TaskStatus

/-- A task: what was submitted, and where it is. -/
structure PoolTask (ρ π α : Type) where
  job : ρ
  status : TaskStatus π α
  deriving DecidableEq

/-- A pool: its tasks in the order they were submitted in, the place its queue begins at, and
the places of those begun, in that order. -/
structure Pool (ρ π α : Type) where
  workers : ℕ
  tasks : List (PoolTask ρ π α)
  next : ℕ
  begun : List ℕ
  deriving DecidableEq

namespace Pool

variable {ρ π α : Type}

/-- A pool nothing was submitted to. -/
def new (workers : ℕ) : Pool ρ π α := ⟨workers, [], 0, []⟩

/-- How many tasks run. -/
def busy (p : Pool ρ π α) : ℕ := p.tasks.countP (·.status.isRunning)

/-- A task is put into the queue. -/
def submit (p : Pool ρ π α) (job : ρ) : Pool ρ π α :=
  { p with tasks := p.tasks ++ [⟨job, .queued⟩] }

/-- A worker without a task takes the first of the queue, and passes over one that was
cancelled. -/
def take (start : ρ → π) (p : Pool ρ π α) : Pool ρ π α :=
  if p.busy < p.workers then
    match p.tasks[p.next]? with
    | none => p
    | some ⟨job, .queued⟩ =>
      { p with
        tasks := p.tasks.set p.next ⟨job, .running (start job)⟩
        next := p.next + 1
        begun := p.begun ++ [p.next] }
    | some _ => { p with next := p.next + 1 }
  else p

/-- A running task goes on: to another stage, or to its result. -/
def work (step : ρ → π → π ⊕ α) (p : Pool ρ π α) (t : ℕ) : Pool ρ π α :=
  match p.tasks[t]? with
  | some ⟨job, .running stage⟩ =>
    { p with tasks := p.tasks.set t ⟨job, (step job stage).elim .running .finished⟩ }
  | _ => p

/-- A queued task is cancelled. -/
def cancel (p : Pool ρ π α) (t : ℕ) : Pool ρ π α :=
  match p.tasks[t]? with
  | some ⟨job, .queued⟩ => { p with tasks := p.tasks.set t ⟨job, .cancelled⟩ }
  | _ => p

/-- The result of a task that has finished. -/
def result? (p : Pool ρ π α) (t : ℕ) : Option α :=
  match p.tasks[t]? with
  | some ⟨_, .finished result⟩ => some result
  | _ => none

/-- **At rest**: nothing is queued, and nothing runs. -/
def AtRest (p : Pool ρ π α) : Prop := p.next = p.tasks.length ∧ p.busy = 0

instance (p : Pool ρ π α) : Decidable p.AtRest := inferInstanceAs (Decidable (_ ∧ _))

/-! ### What a step does -/

variable {p : Pool ρ π α} {start : ρ → π} {step : ρ → π → π ⊕ α}

/-- **What taking does**: nothing; or a cancelled task is passed over; or a queued one is
begun. -/
theorem take_cases (start : ρ → π) (p : Pool ρ π α) :
    p.take start = p ∨
      (∃ task, p.tasks[p.next]? = some task ∧ task.status ≠ .queued ∧
        p.take start = { p with next := p.next + 1 }) ∨
      ∃ job, p.tasks[p.next]? = some ⟨job, .queued⟩ ∧ p.busy < p.workers ∧
        p.take start = { p with
          tasks := p.tasks.set p.next ⟨job, .running (start job)⟩
          next := p.next + 1
          begun := p.begun ++ [p.next] } := by
  unfold take
  split
  · next hbusy =>
    split
    · exact .inl rfl
    · next job htask => exact .inr (.inr ⟨job, htask, hbusy, rfl⟩)
    · next task hqueued htask =>
      refine .inr (.inl ⟨task, htask, ?_, rfl⟩)
      intro hstatus
      exact hqueued task.job (by rw [← hstatus])
  · exact .inl rfl

/-- **What working does**: nothing, or a running task goes on. -/
theorem work_cases (step : ρ → π → π ⊕ α) (p : Pool ρ π α) (t : ℕ) :
    p.work step t = p ∨ ∃ job stage, p.tasks[t]? = some ⟨job, .running stage⟩ ∧
      p.work step t =
        { p with tasks := p.tasks.set t ⟨job, (step job stage).elim .running .finished⟩ } := by
  unfold work
  split
  · next job stage htask => exact .inr ⟨job, stage, htask, rfl⟩
  · exact .inl rfl

/-- **What cancelling does**: nothing, or a queued task is cancelled. -/
theorem cancel_cases (p : Pool ρ π α) (t : ℕ) :
    (p.cancel t = p ∧ ∀ job, p.tasks[t]? ≠ some ⟨job, .queued⟩) ∨
      ∃ job, p.tasks[t]? = some ⟨job, .queued⟩ ∧
        p.cancel t = { p with tasks := p.tasks.set t ⟨job, .cancelled⟩ } := by
  unfold cancel
  split
  · next job htask => exact .inr ⟨job, htask, rfl⟩
  · next hqueued => exact .inl ⟨rfl, fun job htask => hqueued job htask⟩

theorem result?_eq_some_iff {t : ℕ} {result : α} :
    p.result? t = some result ↔ ∃ job, p.tasks[t]? = some ⟨job, .finished result⟩ := by
  unfold result?
  split
  · next job result' htask => simp [htask]
  · next hfinished =>
    simp only [reduceCtorEq, false_iff, not_exists]
    exact fun job htask => hfinished job result htask

/-- A place holds what was put there, and every other what it held. -/
theorem getElem?_place {tasks : List (PoolTask ρ π α)} {t i : ℕ} {placed task : PoolTask ρ π α}
    (h : (tasks.set t placed)[i]? = some task) :
    i = t ∧ task = placed ∨ i ≠ t ∧ tasks[i]? = some task := by
  rw [List.getElem?_set] at h
  split at h
  · next heq =>
    split at h
    · exact .inl ⟨heq.symm, (Option.some.inj h).symm⟩
    · cases h
  · next hne => exact .inr ⟨Ne.symm hne, h⟩

/-- One task changes how many run by its own. -/
theorem countP_place {tasks : List (PoolTask ρ π α)} {t : ℕ} {task : PoolTask ρ π α}
    (h : tasks[t]? = some task) (placed : PoolTask ρ π α) :
    (tasks.set t placed).countP (·.status.isRunning) + (if task.status.isRunning then 1 else 0) =
      tasks.countP (·.status.isRunning) + if placed.status.isRunning then 1 else 0 := by
  obtain ⟨hlt, rfl⟩ := List.getElem?_eq_some_iff.mp h
  rw [List.countP_set hlt]
  have hpos : (if tasks[t].status.isRunning then 1 else 0) ≤
      tasks.countP (·.status.isRunning) := by
    split
    · next hrunning =>
      exact List.countP_pos_iff.mpr ⟨_, List.getElem_mem hlt, hrunning⟩
    · exact Nat.zero_le _
  omega

/-! ### What tasks were submitted as -/

/-- The jobs submitted, in order. -/
def jobs (p : Pool ρ π α) : List ρ := p.tasks.map PoolTask.job

theorem getElem?_jobs (p : Pool ρ π α) (t : ℕ) :
    p.jobs[t]? = (p.tasks[t]?).map PoolTask.job :=
  List.getElem?_map

@[simp] theorem length_jobs (p : Pool ρ π α) : p.jobs.length = p.tasks.length :=
  List.length_map ..

/-- A task put in a task's place is of the same job, so the jobs stay. -/
theorem map_job_set {tasks : List (PoolTask ρ π α)} {t : ℕ} {job : ρ}
    {status status' : TaskStatus π α} (h : tasks[t]? = some ⟨job, status⟩) :
    (tasks.set t ⟨job, status'⟩).map PoolTask.job = tasks.map PoolTask.job := by
  rw [List.map_set]
  refine List.ext_getElem? fun i => ?_
  rw [List.getElem?_set]
  split
  · next heq =>
    subst heq
    obtain ⟨hlt, -⟩ := List.getElem?_eq_some_iff.mp h
    rw [if_pos (by simpa using hlt), List.getElem?_map, h]
    rfl
  · rfl

@[simp] theorem jobs_submit (p : Pool ρ π α) (job : ρ) : (p.submit job).jobs = p.jobs ++ [job] :=
  List.map_append ..

@[simp] theorem jobs_take (start : ρ → π) (p : Pool ρ π α) : (p.take start).jobs = p.jobs := by
  rcases take_cases start p with h | ⟨task, -, -, h⟩ | ⟨job, htask, -, h⟩ <;> rw [h]
  · rfl
  · exact map_job_set htask

@[simp] theorem jobs_work (step : ρ → π → π ⊕ α) (p : Pool ρ π α) (t : ℕ) :
    (p.work step t).jobs = p.jobs := by
  rcases work_cases step p t with h | ⟨job, stage, htask, h⟩ <;> rw [h]
  exact map_job_set htask

@[simp] theorem jobs_cancel (p : Pool ρ π α) (t : ℕ) : (p.cancel t).jobs = p.jobs := by
  rcases cancel_cases p t with ⟨h, -⟩ | ⟨job, htask, h⟩ <;> rw [h]
  exact map_job_set htask

/-! ### Cancelled tasks -/

/-- A task was cancelled. -/
def Cancelled (p : Pool ρ π α) (t : ℕ) : Prop := ∃ job, p.tasks[t]? = some ⟨job, .cancelled⟩

theorem Cancelled.of_submit {job : ρ} {t : ℕ} (h : (p.submit job).Cancelled t) :
    p.Cancelled t := by
  obtain ⟨job', htask⟩ := h
  rw [submit, List.getElem?_append] at htask
  split at htask
  · exact ⟨job', htask⟩
  · have hmem := List.mem_of_getElem? htask
    simp at hmem

/-- A task in the place of another is cancelled only where it is put there so. -/
theorem cancelled_of_place {t t' : ℕ} {placed : PoolTask ρ π α}
    (h : ({ p with tasks := p.tasks.set t placed } : Pool ρ π α).Cancelled t')
    (hplaced : t' = t → placed.status ≠ .cancelled) : p.Cancelled t' := by
  obtain ⟨job, htask⟩ := h
  rcases getElem?_place htask with ⟨heq, rfl⟩ | ⟨-, htask⟩
  · exact absurd rfl (hplaced heq)
  · exact ⟨job, htask⟩

theorem Cancelled.of_take {t : ℕ} (h : (p.take start).Cancelled t) : p.Cancelled t := by
  rcases take_cases start p with heq | ⟨task, -, -, heq⟩ | ⟨job, -, -, heq⟩ <;> rw [heq] at h
  · exact h
  · exact h
  · exact cancelled_of_place (p := p) h fun _ => by simp

theorem Cancelled.of_work {t t' : ℕ} (h : (p.work step t).Cancelled t') : p.Cancelled t' := by
  rcases work_cases step p t with heq | ⟨job, stage, -, heq⟩ <;> rw [heq] at h
  · exact h
  · exact cancelled_of_place h fun _ => by cases step job stage <;> simp

theorem Cancelled.of_cancel {t t' : ℕ} (h : (p.cancel t).Cancelled t') (hne : t' ≠ t) :
    p.Cancelled t' := by
  rcases cancel_cases p t with ⟨heq, -⟩ | ⟨job, -, heq⟩ <;> rw [heq] at h
  · exact h
  · exact cancelled_of_place h fun heq => absurd heq hne

/-! ### Workers, and what was begun -/

@[simp] theorem workers_take (start : ρ → π) (p : Pool ρ π α) :
    (p.take start).workers = p.workers := by
  rcases take_cases start p with heq | ⟨task, -, -, heq⟩ | ⟨job, -, -, heq⟩ <;> rw [heq]

@[simp] theorem workers_work (step : ρ → π → π ⊕ α) (p : Pool ρ π α) (t : ℕ) :
    (p.work step t).workers = p.workers := by
  rcases work_cases step p t with heq | ⟨job, stage, -, heq⟩ <;> rw [heq]

@[simp] theorem workers_cancel (p : Pool ρ π α) (t : ℕ) : (p.cancel t).workers = p.workers := by
  rcases cancel_cases p t with ⟨heq, -⟩ | ⟨job, -, heq⟩ <;> rw [heq]

theorem mem_begun_take {t : ℕ} (h : t ∈ p.begun) : t ∈ (p.take start).begun := by
  rcases take_cases start p with heq | ⟨task, -, -, heq⟩ | ⟨job, -, -, heq⟩ <;> rw [heq]
  · exact h
  · exact h
  · exact List.mem_append_left _ h

@[simp] theorem begun_work (step : ρ → π → π ⊕ α) (p : Pool ρ π α) (t : ℕ) :
    (p.work step t).begun = p.begun := by
  rcases work_cases step p t with heq | ⟨job, stage, -, heq⟩ <;> rw [heq]

@[simp] theorem begun_cancel (p : Pool ρ π α) (t : ℕ) : (p.cancel t).begun = p.begun := by
  rcases cancel_cases p t with ⟨heq, -⟩ | ⟨job, -, heq⟩ <;> rw [heq]

/-! ### What is so of every task -/

section Every

variable {P : PoolTask ρ π α → Prop} (h : ∀ task ∈ p.tasks, P task)

include h

theorem forall_submit {job : ρ} (hjob : P ⟨job, .queued⟩) :
    ∀ task ∈ (p.submit job).tasks, P task := by
  intro task htask
  rcases List.mem_append.mp htask with htask | htask
  · exact h task htask
  · rw [List.mem_singleton.mp htask]
    exact hjob

theorem forall_take (hstart : ∀ job, P ⟨job, .queued⟩ → P ⟨job, .running (start job)⟩) :
    ∀ task ∈ (p.take start).tasks, P task := by
  rcases take_cases start p with heq | ⟨task, -, -, heq⟩ | ⟨job, htask, -, heq⟩ <;> rw [heq]
  · exact h
  · exact h
  · intro task' hmem
    rcases List.mem_or_eq_of_mem_set hmem with hmem | rfl
    · exact h task' hmem
    · exact hstart job (h _ (List.mem_of_getElem? htask))

theorem forall_work (t : ℕ) (hstep : ∀ job stage, P ⟨job, .running stage⟩ →
    P ⟨job, (step job stage).elim .running .finished⟩) :
    ∀ task ∈ (p.work step t).tasks, P task := by
  rcases work_cases step p t with heq | ⟨job, stage, htask, heq⟩ <;> rw [heq]
  · exact h
  · intro task' hmem
    rcases List.mem_or_eq_of_mem_set hmem with hmem | rfl
    · exact h task' hmem
    · exact hstep job stage (h _ (List.mem_of_getElem? htask))

theorem forall_cancel (t : ℕ) (hcancel : ∀ job, P ⟨job, .queued⟩ → P ⟨job, .cancelled⟩) :
    ∀ task ∈ (p.cancel t).tasks, P task := by
  rcases cancel_cases p t with ⟨heq, -⟩ | ⟨job, htask, heq⟩ <;> rw [heq]
  · exact h
  · intro task' hmem
    rcases List.mem_or_eq_of_mem_set hmem with hmem | rfl
    · exact h task' hmem
    · exact hcancel job (h _ (List.mem_of_getElem? htask))

end Every

/-! ### What every step keeps -/

/-- **What a pool keeps**: no more tasks run than there are workers, what lies past the place
the queue begins at waits and what lies before it does not, and the tasks begun are those that
run or have finished, in the order they were submitted in. -/
structure Sound (p : Pool ρ π α) : Prop where
  busy_le : p.busy ≤ p.workers
  next_le : p.next ≤ p.tasks.length
  waiting : ∀ {t task}, p.tasks[t]? = some task → p.next ≤ t →
    task.status = .queued ∨ task.status = .cancelled
  past : ∀ {t task}, p.tasks[t]? = some task → t < p.next → task.status ≠ .queued
  begun_iff : ∀ {t task}, p.tasks[t]? = some task →
    (t ∈ p.begun ↔ task.status.hasBegun = true)
  below : ∀ t ∈ p.begun, t < p.next
  ordered : p.begun.Pairwise (· < ·)

theorem sound_new (workers : ℕ) : (new workers : Pool ρ π α).Sound where
  busy_le := Nat.zero_le _
  next_le := Nat.le_refl _
  waiting h := by cases h
  past h := by cases h
  begun_iff h := by cases h
  below := by simp [new]
  ordered := .nil

namespace Sound

theorem submit (h : p.Sound) (job : ρ) : (p.submit job).Sound := by
  have hcases {t : ℕ} {task : PoolTask ρ π α} (htask : (p.submit job).tasks[t]? = some task) :
      p.tasks[t]? = some task ∨ t = p.tasks.length ∧ task = ⟨job, .queued⟩ := by
    rw [Pool.submit, List.getElem?_append] at htask
    split at htask
    · exact .inl htask
    · rw [List.getElem?_singleton] at htask
      split at htask
      · exact .inr ⟨by omega, (Option.some.inj htask).symm⟩
      · cases htask
  have hlength : (p.submit job).tasks.length = p.tasks.length + 1 := by simp [Pool.submit]
  constructor
  · have hbusy : (p.submit job).busy = p.busy := by simp [busy, Pool.submit, TaskStatus.isRunning]
    rw [hbusy]
    exact h.busy_le
  · rw [hlength]
    exact Nat.le_succ_of_le h.next_le
  · intro t task htask hle
    rcases hcases htask with htask | ⟨-, rfl⟩
    · exact h.waiting htask hle
    · exact .inl rfl
  · intro t task htask hlt
    rcases hcases htask with htask | ⟨rfl, -⟩
    · exact h.past htask hlt
    · exact absurd hlt (Nat.not_lt.mpr h.next_le)
  · intro t task htask
    rcases hcases htask with htask | ⟨rfl, rfl⟩
    · exact h.begun_iff htask
    · refine iff_of_false (fun hmem => ?_) (by simp [TaskStatus.hasBegun])
      exact absurd (h.below _ hmem) (Nat.not_lt.mpr h.next_le)
  · exact h.below
  · exact h.ordered

theorem take (h : p.Sound) (start : ρ → π) : (p.take start).Sound := by
  rcases take_cases start p with heq | ⟨task, htask, hstatus, heq⟩ | ⟨job, htask, hbusy, heq⟩ <;>
    rw [heq]
  · exact h
  -- a cancelled task is passed over
  · refine ⟨h.busy_le, (List.getElem?_eq_some_iff.mp htask).1, fun htask' hle => ?_,
      fun {t task'} htask' hlt => ?_, h.begun_iff, fun t hmem => ?_, h.ordered⟩
    · exact h.waiting htask' (Nat.le_of_succ_le hle)
    · rcases Nat.lt_succ_iff_lt_or_eq.mp hlt with hlt | rfl
      · exact h.past htask' hlt
      · rwa [Option.some.inj (htask'.symm.trans htask)]
    · exact Nat.lt_succ_of_lt (h.below t hmem)
  -- the first of the queue is begun, and is past those begun before
  · obtain ⟨hlt, -⟩ := List.getElem?_eq_some_iff.mp htask
    constructor
    · have hcount := countP_place htask ⟨job, .running (start job)⟩
      change _ + 0 = p.busy + 1 at hcount
      exact Nat.le_trans (Nat.le_of_eq hcount) hbusy
    · rw [List.length_set]
      exact hlt
    · intro t task htask' hle
      rcases getElem?_place htask' with ⟨rfl, -⟩ | ⟨-, htask'⟩
      · exact absurd hle (Nat.not_succ_le_self _)
      · exact h.waiting htask' (Nat.le_of_succ_le hle)
    · intro t task htask' hlt'
      rcases getElem?_place htask' with ⟨-, rfl⟩ | ⟨hne, htask'⟩
      · simp
      · exact h.past htask' ((Nat.lt_succ_iff_lt_or_eq.mp hlt').resolve_right hne)
    · intro t task htask'
      rw [List.mem_append, List.mem_singleton]
      rcases getElem?_place htask' with ⟨rfl, rfl⟩ | ⟨hne, htask'⟩
      · exact iff_of_true (.inr rfl) rfl
      · rw [or_iff_left hne]
        exact h.begun_iff htask'
    · intro t hmem
      rcases List.mem_append.mp hmem with hmem | hmem
      · exact Nat.lt_succ_of_lt (h.below t hmem)
      · rw [List.mem_singleton.mp hmem]
        exact Nat.lt_succ_self _
    · refine List.pairwise_append.mpr ⟨h.ordered, List.pairwise_singleton .., ?_⟩
      intro t hmem t' hmem'
      rw [List.mem_singleton.mp hmem']
      exact h.below t hmem

/-- A task that a worker has, or that none may have, is put in its own place. -/
theorem place (h : p.Sound) {t : ℕ} {job : ρ} {status status' : TaskStatus π α}
    (htask : p.tasks[t]? = some ⟨job, status⟩) (hbegun : status'.hasBegun = status.hasBegun)
    (hqueued : status' ≠ .queued) (hrunning : status.isRunning = false → status'.isRunning = false)
    (hwaiting : p.next ≤ t → status' = .cancelled) :
    ({ p with tasks := p.tasks.set t ⟨job, status'⟩ } : Pool ρ π α).Sound := by
  constructor
  · have hcount := countP_place htask ⟨job, status'⟩
    have hle := h.busy_le
    simp only [busy] at hle ⊢
    cases hr : status.isRunning with
    | false =>
      simp only [hr, hrunning hr] at hcount
      omega
    | true =>
      simp only [hr, if_true] at hcount
      split at hcount <;> omega
  · rw [List.length_set]
    exact h.next_le
  · intro t' task htask' hle
    rcases getElem?_place htask' with ⟨rfl, rfl⟩ | ⟨-, htask'⟩
    · exact .inr (hwaiting hle)
    · exact h.waiting htask' hle
  · intro t' task htask' hlt
    rcases getElem?_place htask' with ⟨-, rfl⟩ | ⟨-, htask'⟩
    · exact hqueued
    · exact h.past htask' hlt
  · intro t' task htask'
    rcases getElem?_place htask' with ⟨rfl, rfl⟩ | ⟨-, htask'⟩
    · rw [h.begun_iff htask, hbegun]
    · exact h.begun_iff htask'
  · exact h.below
  · exact h.ordered

theorem work (h : p.Sound) (step : ρ → π → π ⊕ α) (t : ℕ) : (p.work step t).Sound := by
  rcases work_cases step p t with heq | ⟨job, stage, htask, heq⟩ <;> rw [heq]
  · exact h
  · refine h.place htask ?_ ?_ (fun hrunning => by cases hrunning) fun hle => ?_
    · cases step job stage <;> rfl
    · cases step job stage <;> simp
    · rcases h.waiting htask hle with hstatus | hstatus <;> cases hstatus

theorem cancel (h : p.Sound) (t : ℕ) : (p.cancel t).Sound := by
  rcases cancel_cases p t with ⟨heq, -⟩ | ⟨job, htask, heq⟩ <;> rw [heq]
  · exact h
  · exact h.place htask rfl (by simp) (fun _ => rfl) fun _ => rfl

end Sound

/-! ### What is left to do -/

/-- One element of a list changes what its elements weigh by its own weight. -/
theorem sum_map_set {β : Type} (weight : β → ℕ) {l : List β} {i : ℕ} {a : β} (h : l[i]? = some a)
    (b : β) : ((l.set i b).map weight).sum + weight a = (l.map weight).sum + weight b := by
  induction l generalizing i with
  | nil => cases h
  | cons c l ih =>
    cases i with
    | zero =>
      obtain rfl : c = a := Option.some.inj h
      simp only [List.set_cons_zero, List.map_cons, List.sum_cons]
      omega
    | succ i =>
      have hrest := ih (i := i) h
      simp only [List.set_cons_succ, List.map_cons, List.sum_cons]
      omega

section ToDo

variable (start : ρ → π) (cost : ρ → π → ℕ)

/-- The steps a task has before it, as its stages cost. -/
def taskCost (task : PoolTask ρ π α) : ℕ :=
  match task.status with
  | .queued => cost task.job (start task.job) + 1
  | .running stage => cost task.job stage + 1
  | .cancelled => 0
  | .finished _ => 0

/-- The steps a pool has before it: those of its tasks, and one to take each that is queued
or to pass over it. -/
def toDo (p : Pool ρ π α) : ℕ :=
  (p.tasks.map (taskCost start cost)).sum + (p.tasks.length - p.next)

theorem toDo_submit (h : p.Sound) (job : ρ) :
    (p.submit job).toDo start cost = p.toDo start cost + (cost job (start job) + 2) := by
  have hle := h.next_le
  simp only [toDo, submit, List.map_append, List.map_singleton, List.sum_append,
    List.sum_singleton, List.length_append, List.length_singleton, taskCost]
  omega

/-- **Taking leaves less to do**, where it does anything. -/
theorem toDo_take (p : Pool ρ π α) :
    p.take start = p ∨ (p.take start).toDo start cost < p.toDo start cost := by
  rcases take_cases start p with heq | ⟨task, htask, -, heq⟩ | ⟨job, htask, -, heq⟩
  · exact .inl heq
  · obtain ⟨hlt, -⟩ := List.getElem?_eq_some_iff.mp htask
    rw [heq]
    exact .inr (Nat.add_lt_add_left (Nat.sub_succ_lt_self _ _ hlt) _)
  · obtain ⟨hlt, -⟩ := List.getElem?_eq_some_iff.mp htask
    have hsum := sum_map_set (taskCost start cost) htask ⟨job, .running (start job)⟩
    refine .inr ?_
    simp only [heq, toDo, List.length_set]
    simp only [taskCost] at hsum ⊢
    omega

/-- A cancelled task is no more to do. -/
theorem toDo_cancel (p : Pool ρ π α) (t : ℕ) :
    (p.cancel t).toDo start cost ≤ p.toDo start cost := by
  rcases cancel_cases p t with ⟨heq, -⟩ | ⟨job, htask, heq⟩
  · exact Nat.le_of_eq (congrArg (toDo start cost) heq)
  · have hsum := sum_map_set (taskCost start cost) htask ⟨job, .cancelled⟩
    change _ + _ = _ + 0 at hsum
    simp only [heq, toDo, List.length_set]
    omega

variable {cost} (step : ρ → π → π ⊕ α)
  (hstep : ∀ {job stage stage'}, step job stage = .inl stage' → cost job stage' < cost job stage)

include hstep

/-- **Working leaves less to do**, where it does anything. -/
theorem toDo_work (p : Pool ρ π α) (t : ℕ) :
    p.work step t = p ∨ (p.work step t).toDo start cost < p.toDo start cost := by
  rcases work_cases step p t with heq | ⟨job, stage, htask, heq⟩
  · exact .inl heq
  · have hsum := sum_map_set (taskCost start cost) htask
      ⟨job, (step job stage).elim .running .finished⟩
    have hlower : taskCost start cost ⟨job, (step job stage).elim .running .finished⟩ <
        cost job stage + 1 := by
      cases hnext : step job stage with
      | inl stage' => exact Nat.succ_lt_succ (hstep hnext)
      | inr result => exact Nat.succ_pos _
    refine .inr ?_
    simp only [heq, toDo, List.length_set]
    change _ + (cost job stage + 1) = _ at hsum
    omega

/-- **A pool that is not at rest goes on**: a worker takes something, or has something. -/
theorem exists_step (hp : p.Sound) (hworkers : 0 < p.workers) (h : ¬p.AtRest) :
    p.take start ≠ p ∨ ∃ t, p.work step t ≠ p := by
  by_cases hbusy : p.busy = 0
  · refine .inl fun heq => ?_
    have hlt : p.next < p.tasks.length :=
      Nat.lt_of_le_of_ne hp.next_le fun hnext => h ⟨hnext, hbusy⟩
    have hnext := congrArg Pool.next heq
    rw [take, if_pos (hbusy ▸ hworkers), List.getElem?_eq_getElem hlt] at hnext
    split at hnext
    · cases ‹some _ = none›
    · exact absurd hnext (Nat.succ_ne_self _)
    · exact absurd hnext (Nat.succ_ne_self _)
  · obtain ⟨⟨job, status⟩, hmem, hrunning⟩ := List.countP_pos_iff.mp (Nat.pos_of_ne_zero hbusy)
    obtain ⟨t, htask⟩ := List.getElem?_of_mem hmem
    refine .inr ⟨t, fun heq => ?_⟩
    cases status with
    | queued => cases hrunning
    | cancelled => cases hrunning
    | finished result => cases hrunning
    | running stage =>
      obtain ⟨hlt, -⟩ := List.getElem?_eq_some_iff.mp htask
      have hplaced := congrArg (fun p => p.tasks[t]?) heq
      simp only [work, htask, List.getElem?_set_self hlt] at hplaced
      cases hnext : step job stage with
      | inl stage' =>
        rw [hnext] at hplaced
        obtain rfl : stage' = stage := by simpa using hplaced
        exact absurd (hstep hnext) (Nat.lt_irrefl _)
      | inr result =>
        rw [hnext] at hplaced
        simp at hplaced

end ToDo

/-! ### At rest -/

/-- At rest a task was cancelled or has finished. -/
theorem AtRest.over (h : p.AtRest) (hp : p.Sound) {t : ℕ} {task : PoolTask ρ π α}
    (htask : p.tasks[t]? = some task) :
    task.status = .cancelled ∨ ∃ result, task.status = .finished result := by
  obtain ⟨hlt, -⟩ := List.getElem?_eq_some_iff.mp htask
  have hpast := hp.past htask (h.1 ▸ hlt)
  have hidle := List.countP_eq_zero.mp h.2 task (List.mem_of_getElem? htask)
  cases hstatus : task.status with
  | queued => exact absurd hstatus hpast
  | cancelled => exact .inl rfl
  | running stage => exact absurd (by rw [hstatus]; rfl) hidle
  | finished result => exact .inr ⟨result, rfl⟩

/-- A pool at rest stays as it is: no worker finds anything. -/
theorem AtRest.take (h : p.AtRest) (start : ρ → π) : p.take start = p := by
  rcases take_cases start p with heq | ⟨task, htask, -⟩ | ⟨job, htask, -⟩
  · exact heq
  · obtain ⟨hlt, -⟩ := List.getElem?_eq_some_iff.mp htask
    exact absurd h.1 (Nat.ne_of_lt hlt)
  · obtain ⟨hlt, -⟩ := List.getElem?_eq_some_iff.mp htask
    exact absurd h.1 (Nat.ne_of_lt hlt)

theorem AtRest.cancel (h : p.AtRest) (hp : p.Sound) (t : ℕ) : p.cancel t = p := by
  rcases cancel_cases p t with ⟨heq, -⟩ | ⟨job, htask, -⟩
  · exact heq
  · rcases h.over hp htask with hstatus | ⟨result, hstatus⟩ <;> cases hstatus

theorem AtRest.work (h : p.AtRest) (step : ρ → π → π ⊕ α) (t : ℕ) : p.work step t = p := by
  rcases work_cases step p t with heq | ⟨job, stage, htask, -⟩
  · exact heq
  · have hidle := List.countP_eq_zero.mp h.2 _ (List.mem_of_getElem? htask)
    exact absurd rfl hidle

end Pool
