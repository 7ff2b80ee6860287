import AngzarrClient.Host.Dispatcher
import AngzarrClient.Lib.Pool
import AngzarrClient.Lib.Run
import AngzarrClient.Router.Ledger

/-!
# What a host answers while it serves and stops

A host answers many calls at once. Each is a coroutine on the event loop, which hands its
request to a pool of workers and waits for what the router's dispatch comes to there; a call
can be aborted meanwhile, by its client or by the server once a stop's grace is over. A stop
refuses new calls, waits until those there are over, shuts the pool down, ends the loop and
closes a router the host owns, and it can raise on the way, where the loop is ended at once.
All of that goes on in any order (`AngzarrClient.Serving.act`), and a worker that has taken a
dispatch reads the router only when it comes to it.

Two results about every order of these steps.

* **Each call is answered as if it were alone** (`AngzarrClient.Serving.answered_alone`): by
  what the servicer's method comes to on its request and the router as the host was started
  with it, whatever else is dispatched and even if the router is closed meanwhile.
* **A stop ends** (`AngzarrClient.Serving.stop_ends`): with handlers that return, whatever
  order its steps are made in, there are only so many, and they end with the host closed. A
  call whose method never ends of itself is ended by the server, once the grace is over.
-/

namespace AngzarrClient

open Router

/-! ### Calls -/

/-- A request for a method of a servicer that dispatches, with `ρ` for an upcaster's. -/
inductive HostRequest (ρ : Type) where
  | command (request : ContextualCommand)
  | source (book : EventBook)
  | refusal (refusal : Refusal)
  | projection (book : EventBook)
  | upcast (request : ρ)

/-- What such a method comes to, with `β` for an upcaster's response. -/
inductive HostReply (β : Type) where
  | command (reply : Reply CommandHandlerResponse)
  | source (reply : Reply PolicyResponse)
  | refusal (reply : Reply OnRefusedResponse)
  | projection (reply : Reply Projection)
  | upcast (reply : Reply β)

/-- Whether it never ends of itself. -/
def HostReply.isPending {β : Type} : HostReply β → Bool
  | .command reply => reply.isPending
  | .source reply => reply.isPending
  | .refusal reply => reply.isPending
  | .projection reply => reply.isPending
  | .upcast reply => reply.isPending

/-- What has become of a call. -/
inductive CallFate (β : Type) where
  /-- Its coroutine is there. -/
  | live
  | answered (reply : HostReply β)
  | aborted

/-- A call: its request, its dispatch on the pool once it was submitted, and its fate. -/
structure HostCall (ρ β : Type) where
  request : HostRequest ρ
  task : Option ℕ
  fate : CallFate β

/-- Whether its coroutine is there. -/
def HostCall.isLive {ρ β : Type} (call : HostCall ρ β) : Bool :=
  match call.fate with
  | .live => true
  | _ => false

theorem isLive_iff {ρ β : Type} {call : HostCall ρ β} : call.isLive = true ↔ call.fate = .live := by
  unfold HostCall.isLive
  split
  · next hfate => exact iff_of_true rfl hfate
  · next hfate => exact iff_of_false (by simp) hfate

/-- A place of a list, with what is before and after it. -/
theorem exists_around {α : Type} {l : List α} {i : ℕ} {a : α} (h : l[i]? = some a) (b : α) :
    ∃ before after, l = before ++ a :: after ∧ l.set i b = before ++ b :: after := by
  obtain ⟨hlt, rfl⟩ := List.getElem?_eq_some_iff.mp h
  obtain ⟨before, after, hsplit, -, hset⟩ := List.exists_of_set hlt
  exact ⟨before, after, hsplit, hset⟩

/-! ### The state -/

/-- Where `stop` is, as far as calls go. -/
inductive ServingPhase where
  /-- It was not called, or has not come to the server. -/
  | serving
  /-- It awaits `self._server.stop(grace)`. -/
  | draining
  /-- It is in `self._executor.shutdown(wait=True)`, which blocks the loop. -/
  | joining
  /-- The loop has ended: after the shutdown, or cut short before. -/
  | ended (cut : Bool)
  /-- `stop` has returned or raised. -/
  | closed (cut : Bool)
  deriving DecidableEq

/-- Whether coroutines run. -/
def ServingPhase.loops : ServingPhase → Bool
  | .serving => true
  | .draining => true
  | _ => false

/-- Whether the draining is over, and was not cut short. -/
def ServingPhase.isDrained : ServingPhase → Bool
  | .joining => true
  | .ended cut => !cut
  | .closed cut => !cut
  | _ => false

/-- Whether the pool was shut down. -/
def ServingPhase.isJoined : ServingPhase → Bool
  | .ended cut => !cut
  | .closed cut => !cut
  | _ => false

/-- Whether `stop` has returned or raised. -/
def ServingPhase.isClosed : ServingPhase → Bool
  | .closed _ => true
  | _ => false

/-- Coroutines run only before the draining is over. -/
theorem not_over_of_loops {phase : ServingPhase} (h : phase.loops = true) :
    phase.isDrained = false ∧ phase.isJoined = false ∧ phase.isClosed = false := by
  cases phase with
  | serving => exact ⟨rfl, rfl, rfl⟩
  | draining => exact ⟨rfl, rfl, rfl⟩
  | joining => cases h
  | ended cut => cases h
  | closed cut => cases h

/-- A host that was started, and its calls. The stage of a dispatch is the router it has read,
once it has. -/
structure Serving (σ ρ β : Type) where
  ownsRouter : Bool
  router : Router σ
  upcaster : Upcaster ρ β
  pool : Pool (HostRequest ρ) (Option (Router σ)) (HostReply β)
  calls : List (HostCall ρ β)
  phase : ServingPhase

/-- A step of the host, of a worker or of a client. -/
inductive ServingAction (ρ : Type) where
  /-- A call comes in. -/
  | arrive (request : HostRequest ρ)
  /-- A call's `loop.run_in_executor(...)`. -/
  | submit (call : ℕ)
  /-- A worker takes a dispatch. -/
  | take
  /-- A worker goes on with the dispatch it has. -/
  | work (task : ℕ)
  /-- A call reads what its dispatch came to, and ends. -/
  | resume (call : ℕ)
  /-- A call's coroutine is cancelled. -/
  | abort (call : ℕ)
  /-- `stop` comes to `self._server.stop(grace)`. -/
  | stop
  /-- `self._server.stop(grace)` returns. -/
  | drained
  /-- `self._executor.shutdown(wait=True)` returns, and the loop is ended. -/
  | joined
  /-- `stop` raises, and the loop is ended. -/
  | cut
  /-- The end of `stop`. -/
  | close

namespace Serving

section Component

variable [Spec] [Message ErrorInfo] [Message Status] {σ ρ β : Type} [Message σ]
  [Message CommandRefused]

/-- A host just started. -/
def new (ownsRouter : Bool) (router : Router σ) (upcaster : Upcaster ρ β) (maxWorkers : ℕ) :
    Serving σ ρ β :=
  ⟨ownsRouter, router, upcaster, .new maxWorkers, [], .serving⟩

/-- What a call comes to, alone. -/
def reply (upcaster : Upcaster ρ β) (router : Router σ) : HostRequest ρ → HostReply β
  | .command request => .command (CommandHandlerServicer.handle router request)
  | .source book => .source (PolicyServicer.handle router book)
  | .refusal refusal => .refusal (PolicyServicer.onRefused router refusal)
  | .projection book => .projection (ProjectorServicer.handle router book)
  | .upcast request => .upcast (UpcasterServicer.upcast upcaster request)

/-- A dispatch goes on: it reads the router (`Router._hosted`), and then comes to its end with
what it read. -/
def dispatching (upcaster : Upcaster ρ β) (router : Router σ) (request : HostRequest ρ) :
    Option (Router σ) → Option (Router σ) ⊕ HostReply β
  | none => .inl (some router)
  | some read => .inr (reply upcaster read request)

/-- `loop.run_in_executor(self._executor, fn, request)`, of a call that has not called it. -/
def submit (s : Serving σ ρ β) (i : ℕ) : Serving σ ρ β :=
  match s.calls[i]? with
  | some ⟨request, none, .live⟩ =>
    { s with
      pool := s.pool.submit request
      calls := s.calls.set i ⟨request, some s.pool.tasks.length, .live⟩ }
  | _ => s

/-- A call whose dispatch has come to its end is answered, where its method ends. -/
def resume (s : Serving σ ρ β) (i : ℕ) : Serving σ ρ β :=
  match s.calls[i]? with
  | some ⟨request, some t, .live⟩ =>
    match s.pool.result? t with
    | some reply =>
      if reply.isPending then s
      else { s with calls := s.calls.set i ⟨request, some t, .answered reply⟩ }
    | none => s
  | _ => s

/-- A call is cancelled, and with it its dispatch if no worker has it. -/
def abort (s : Serving σ ρ β) (i : ℕ) : Serving σ ρ β :=
  match s.calls[i]? with
  | some ⟨request, task, .live⟩ =>
    { s with
      pool := task.elim s.pool s.pool.cancel
      calls := s.calls.set i ⟨request, task, .aborted⟩ }
  | _ => s

/-- A call waits for what never comes: its dispatch is done, and its method does not end. -/
def Waits (s : Serving σ ρ β) (i : ℕ) : Prop :=
  ∃ request t reply, s.calls[i]? = some ⟨request, some t, .live⟩ ∧
    s.pool.result? t = some reply ∧ reply.isPending = true

/-- A step that does not cut a stop short, and aborts no call but one that waits for what never
comes. -/
def Patient (s : Serving σ ρ β) : ServingAction ρ → Prop
  | .abort i => s.Waits i
  | .cut => False
  | _ => True

/-- Every call's coroutine is over. -/
def Drained (s : Serving σ ρ β) : Prop := ∀ call ∈ s.calls, call.isLive = false

instance (s : Serving σ ρ β) : Decidable s.Drained := inferInstanceAs (Decidable (∀ _ ∈ _, _))

/-- The end of `stop`: an owned router is closed. -/
def close (s : Serving σ ρ β) : Serving σ ρ β :=
  match s.phase with
  | .ended cut =>
    { s with router := if s.ownsRouter then s.router.close else s.router, phase := .closed cut }
  | _ => s

/-- The host after a step. -/
def act (s : Serving σ ρ β) : ServingAction ρ → Serving σ ρ β
  | .arrive request =>
    if s.phase = .serving then { s with calls := s.calls ++ [⟨request, none, .live⟩] } else s
  | .submit i => if s.phase.loops then s.submit i else s
  | .take => { s with pool := s.pool.take fun _ => none }
  | .work t => { s with pool := s.pool.work (dispatching s.upcaster s.router) t }
  | .resume i => if s.phase.loops then s.resume i else s
  | .abort i => if s.phase.loops then s.abort i else s
  | .stop => if s.phase = .serving then { s with phase := .draining } else s
  | .drained => if s.phase = .draining ∧ s.Drained then { s with phase := .joining } else s
  | .joined => if s.phase = .joining ∧ s.pool.AtRest then { s with phase := .ended false } else s
  | .cut =>
    if s.phase = .serving ∨ s.phase = .draining ∨ s.phase = .joining then
      { s with phase := .ended true }
    else s
  | .close => s.close

/-- **All a step can do.** -/
inductive Steps (s : Serving σ ρ β) : Serving σ ρ β → Prop where
  | same : Steps s s
  | arrive (request : HostRequest ρ) (hphase : s.phase = .serving) :
      Steps s { s with calls := s.calls ++ [⟨request, none, .live⟩] }
  | submit {i : ℕ} {request : HostRequest ρ} (hloops : s.phase.loops = true)
      (hcall : s.calls[i]? = some ⟨request, none, .live⟩) :
      Steps s { s with
        pool := s.pool.submit request
        calls := s.calls.set i ⟨request, some s.pool.tasks.length, .live⟩ }
  | take : Steps s { s with pool := s.pool.take fun _ => none }
  | work (t : ℕ) : Steps s { s with pool := s.pool.work (dispatching s.upcaster s.router) t }
  | resume {i t : ℕ} {request : HostRequest ρ} {reply : HostReply β} (hloops : s.phase.loops = true)
      (hcall : s.calls[i]? = some ⟨request, some t, .live⟩)
      (hresult : s.pool.result? t = some reply) (hends : reply.isPending = false) :
      Steps s { s with calls := s.calls.set i ⟨request, some t, .answered reply⟩ }
  | abort {i : ℕ} {request : HostRequest ρ} {task : Option ℕ}
      (hcall : s.calls[i]? = some ⟨request, task, .live⟩) :
      Steps s { s with
        pool := task.elim s.pool s.pool.cancel
        calls := s.calls.set i ⟨request, task, .aborted⟩ }
  | stop (hphase : s.phase = .serving) : Steps s { s with phase := .draining }
  | drained (hphase : s.phase = .draining) (hdrained : s.Drained) :
      Steps s { s with phase := .joining }
  | joined (hphase : s.phase = .joining) (hrest : s.pool.AtRest) :
      Steps s { s with phase := .ended false }
  | cut (hphase : s.phase = .serving ∨ s.phase = .draining ∨ s.phase = .joining) :
      Steps s { s with phase := .ended true }
  | close {cut : Bool} (hphase : s.phase = .ended cut) :
      Steps s { s with
        router := if s.ownsRouter then s.router.close else s.router
        phase := .closed cut }

theorem steps_act (s : Serving σ ρ β) (a : ServingAction ρ) : s.Steps (s.act a) := by
  cases a with
  | arrive request =>
    rw [act]
    split
    · next hphase => exact .arrive request hphase
    · exact .same
  | submit i =>
    rw [act]
    split
    · next hloops =>
      unfold submit
      split
      · next request hcall => exact .submit hloops hcall
      · exact .same
    · exact .same
  | take => exact .take
  | work t => exact .work t
  | resume i =>
    rw [act]
    split
    · next hloops =>
      unfold resume
      split
      · next request t hcall =>
        split
        · next came hresult =>
          split
          · exact .same
          · next hends => exact .resume hloops hcall hresult (Bool.eq_false_iff.mpr hends)
        · exact .same
      · exact .same
    · exact .same
  | abort i =>
    rw [act]
    split
    · unfold abort
      split
      · next request task hcall => exact .abort hcall
      · exact .same
    · exact .same
  | stop =>
    rw [act]
    split
    · next hphase => exact .stop hphase
    · exact .same
  | drained =>
    rw [act]
    split
    · next hphase => exact .drained hphase.1 hphase.2
    · exact .same
  | joined =>
    rw [act]
    split
    · next hphase => exact .joined hphase.1 hphase.2
    · exact .same
  | cut =>
    rw [act]
    split
    · next hphase => exact .cut hphase
    · exact .same
  | close =>
    rw [act, close]
    split
    · next cut hphase => exact .close hphase
    · exact .same

/-! ### What every step keeps -/

section Sound

variable (maxWorkers : ℕ) (upcaster : Upcaster ρ β) (router : Router σ)

/-- A dispatch goes as it does on a router that stays. -/
def AsAlone (task : PoolTask (HostRequest ρ) (Option (Router σ)) (HostReply β)) : Prop :=
  match task.status with
  | .running (some read) => read = router
  | .finished came => came = reply upcaster router task.job
  | _ => True

/-- **What is so of a call**: its dispatch is of its own request, and is not cancelled as long
as the call is there; and an answered one had its dispatch begun, and was answered by what it
comes to alone. -/
structure CallSound (pool : Pool (HostRequest ρ) (Option (Router σ)) (HostReply β))
    (call : HostCall ρ β) : Prop where
  job : ∀ t, call.task = some t → pool.jobs[t]? = some call.request
  waits : call.isLive = true → ∀ t, call.task = some t → ¬pool.Cancelled t
  answered : ∀ came, call.fate = .answered came → came = reply upcaster router call.request ∧
    ∃ t, call.task = some t ∧ t ∈ pool.begun

/-- **What a host keeps while it serves and stops.** -/
structure Sound (s : Serving σ ρ β) : Prop where
  workers_eq : s.pool.workers = maxWorkers
  upcaster_eq : s.upcaster = upcaster
  pool : s.pool.Sound
  router_eq : s.phase.isClosed = false → s.router = router
  alone : s.phase.isClosed = false → ∀ task ∈ s.pool.tasks, AsAlone upcaster router task
  calls : ∀ call ∈ s.calls, CallSound upcaster router s.pool call
  distinct : (s.calls.filterMap HostCall.task).Nodup
  drained : s.phase.isDrained = true → s.Drained
  rest : s.phase.isJoined = true → s.pool.AtRest

variable {maxWorkers upcaster router}

/-- What is so of a call stays so, whatever the pool does that keeps its dispatch. -/
theorem CallSound.mono {pool pool' : Pool (HostRequest ρ) (Option (Router σ)) (HostReply β)}
    {call : HostCall ρ β} (h : CallSound upcaster router pool call)
    (hjobs : ∀ (t : ℕ) job, pool.jobs[t]? = some job → pool'.jobs[t]? = some job)
    (hcancelled : call.isLive = true → ∀ t, call.task = some t → pool'.Cancelled t →
      pool.Cancelled t)
    (hbegun : ∀ t ∈ pool.begun, t ∈ pool'.begun) : CallSound upcaster router pool' call where
  job t ht := hjobs t _ (h.job t ht)
  waits hlive t ht hc := h.waits hlive t ht (hcancelled hlive t ht hc)
  answered came hfate := by
    obtain ⟨hcame, t, ht, hmem⟩ := h.answered came hfate
    exact ⟨hcame, t, ht, hbegun t hmem⟩

theorem sound_new (ownsRouter : Bool) :
    (new ownsRouter router upcaster maxWorkers).Sound maxWorkers upcaster router where
  workers_eq := rfl
  upcaster_eq := rfl
  pool := Pool.sound_new maxWorkers
  router_eq _ := rfl
  alone _ := by simp [new, Pool.new]
  calls := by simp [new]
  distinct := List.nodup_nil
  drained h := by cases h
  rest h := by cases h

namespace Sound

variable {s : Serving σ ρ β} (h : s.Sound maxWorkers upcaster router)

include h

/-- A call comes in as long as calls do. -/
theorem arrive (hphase : s.phase = .serving) (request : HostRequest ρ) :
    ({ s with calls := s.calls ++ [⟨request, none, .live⟩] } : Serving σ ρ β).Sound maxWorkers
      upcaster router where
  workers_eq := h.workers_eq
  upcaster_eq := h.upcaster_eq
  pool := h.pool
  router_eq := h.router_eq
  alone := h.alone
  calls call hmem := by
    rcases List.mem_append.mp hmem with hmem | hmem
    · exact h.calls call hmem
    · rw [List.mem_singleton.mp hmem]
      exact ⟨fun t ht => (by cases ht), fun _ t ht => (by cases ht), fun came hc => (by cases hc)⟩
  distinct := by
    rw [List.filterMap_append]
    simpa using h.distinct
  drained hd := by
    change s.phase.isDrained = true at hd
    rw [hphase] at hd
    cases hd
  rest := h.rest

/-- A worker takes a dispatch. -/
theorem take : ({ s with pool := s.pool.take fun _ => none } : Serving σ ρ β).Sound maxWorkers
    upcaster router where
  workers_eq := (Pool.workers_take _ _).trans h.workers_eq
  upcaster_eq := h.upcaster_eq
  pool := h.pool.take _
  router_eq := h.router_eq
  alone hc := Pool.forall_take (h.alone hc) fun _ _ => trivial
  calls call hmem := (h.calls call hmem).mono (fun t job hjob => by rwa [Pool.jobs_take])
    (fun _ _ _ => Pool.Cancelled.of_take) fun _ => Pool.mem_begun_take
  distinct := h.distinct
  drained := h.drained
  rest hr := by
    rw [(h.rest hr).take]
    exact h.rest hr

/-- **A worker goes on with a dispatch**: the router it reads is the one from the start, as long
as `stop` has not come to its end. -/
theorem work (t : ℕ) : ({ s with
    pool := s.pool.work (dispatching s.upcaster s.router) t } : Serving σ ρ β).Sound maxWorkers
      upcaster router where
  workers_eq := (Pool.workers_work _ _ _).trans h.workers_eq
  upcaster_eq := h.upcaster_eq
  pool := h.pool.work _ t
  router_eq := h.router_eq
  alone hc := by
    refine Pool.forall_work (h.alone hc) t fun request stage halone => ?_
    cases stage with
    | none => exact h.router_eq hc
    | some read =>
      obtain rfl : read = router := halone
      exact congrArg (fun upcaster => reply upcaster read request) h.upcaster_eq
  calls call hmem := (h.calls call hmem).mono (fun t job hjob => by rwa [Pool.jobs_work])
    (fun _ _ _ => Pool.Cancelled.of_work) fun t ht => by rwa [Pool.begun_work]
  distinct := h.distinct
  drained := h.drained
  rest hr := by
    rw [(h.rest hr).work]
    exact h.rest hr

/-- A phase that is reached with what it stands for. -/
theorem enter {phase : ServingPhase} (hopen : phase.isClosed = false → s.phase.isClosed = false)
    (hdrained : phase.isDrained = true → s.Drained)
    (hrest : phase.isJoined = true → s.pool.AtRest) :
    ({ s with phase := phase } : Serving σ ρ β).Sound maxWorkers upcaster router where
  workers_eq := h.workers_eq
  upcaster_eq := h.upcaster_eq
  pool := h.pool
  router_eq hc := h.router_eq (hopen hc)
  alone hc := h.alone (hopen hc)
  calls := h.calls
  distinct := h.distinct
  drained := hdrained
  rest := hrest

/-- A call hands its request to the pool, where it is the last. -/
theorem submit {i : ℕ} {request : HostRequest ρ} (hloops : s.phase.loops = true)
    (hcall : s.calls[i]? = some ⟨request, none, .live⟩) :
    ({ s with
      pool := s.pool.submit request
      calls := s.calls.set i ⟨request, some s.pool.tasks.length, .live⟩ } :
        Serving σ ρ β).Sound maxWorkers upcaster router := by
  obtain ⟨hphase, hjoined, -⟩ := not_over_of_loops hloops
  have hjobs (t : ℕ) (job : HostRequest ρ) (hjob : s.pool.jobs[t]? = some job) :
      (s.pool.submit request).jobs[t]? = some job := by
    rw [Pool.jobs_submit, List.getElem?_append_left (List.getElem?_eq_some_iff.mp hjob).1]
    exact hjob
  have hlast : (s.pool.submit request).jobs[s.pool.tasks.length]? = some request := by
    rw [Pool.jobs_submit, ← Pool.length_jobs]
    exact List.getElem?_concat_length
  constructor
  · exact h.workers_eq
  · exact h.upcaster_eq
  · exact h.pool.submit request
  · exact h.router_eq
  · intro hc
    exact Pool.forall_submit (h.alone hc) trivial
  · intro call hmem
    rcases List.mem_or_eq_of_mem_set hmem with hmem | rfl
    · exact (h.calls call hmem).mono hjobs (fun _ _ _ => Pool.Cancelled.of_submit) fun _ ht => ht
    · refine ⟨fun t ht => ?_, fun _ t ht hcancelled => ?_, fun came hfate => by cases hfate⟩
      · obtain rfl := Option.some.inj ht
        exact hlast
      · obtain rfl := Option.some.inj ht
        obtain ⟨job, htask⟩ := hcancelled.of_submit
        exact absurd (List.getElem?_eq_some_iff.mp htask).1 (Nat.lt_irrefl _)
  · -- the new place is none of those before
    have hfresh : s.pool.tasks.length ∉ s.calls.filterMap HostCall.task := by
      intro hmem
      obtain ⟨call, hcall, htask⟩ := List.mem_filterMap.mp hmem
      have hjob := (h.calls call hcall).job _ htask
      rw [← Pool.length_jobs] at hjob
      exact absurd (List.getElem?_eq_some_iff.mp hjob).1 (Nat.lt_irrefl _)
    obtain ⟨before, after, hsplit, hset⟩ := exists_around hcall
      ⟨request, some s.pool.tasks.length, .live⟩
    have hdistinct := h.distinct
    rw [hsplit, List.filterMap_append, List.filterMap_cons_none rfl] at hfresh hdistinct
    change (List.filterMap HostCall.task (s.calls.set i _)).Nodup
    rw [hset, List.filterMap_append, List.filterMap_cons_some (f := HostCall.task) rfl]
    exact List.nodup_middle.mpr (List.nodup_cons.mpr ⟨hfresh, hdistinct⟩)
  · intro hd
    exact absurd hd (by simp [hphase])
  · intro hr
    exact absurd hr (by simp [hjoined])

/-- A call is over: aborted, or answered by what its dispatch comes to alone. -/
theorem finish {i : ℕ} {request : HostRequest ρ} {task : Option ℕ} {fate : CallFate β}
    (hcall : s.calls[i]? = some ⟨request, task, .live⟩) (hfate : fate ≠ .live)
    (hanswered : ∀ came, fate = .answered came → came = reply upcaster router request ∧
      ∃ t, task = some t ∧ t ∈ s.pool.begun) :
    ({ s with calls := s.calls.set i ⟨request, task, fate⟩ } : Serving σ ρ β).Sound maxWorkers
      upcaster router where
  workers_eq := h.workers_eq
  upcaster_eq := h.upcaster_eq
  pool := h.pool
  router_eq := h.router_eq
  alone := h.alone
  calls call hmem := by
    rcases List.mem_or_eq_of_mem_set hmem with hmem | rfl
    · exact h.calls call hmem
    · refine ⟨(h.calls _ (List.mem_of_getElem? hcall)).job, fun hlive => ?_, hanswered⟩
      exact absurd (isLive_iff.mp hlive) hfate
  distinct := by
    obtain ⟨before, after, hsplit, hset⟩ := exists_around hcall ⟨request, task, fate⟩
    have hdistinct := h.distinct
    rw [hsplit] at hdistinct
    change (List.filterMap HostCall.task (s.calls.set i _)).Nodup
    rw [hset]
    simpa only [List.filterMap_append, List.filterMap_cons] using hdistinct
  drained hd call hmem := by
    rcases List.mem_or_eq_of_mem_set hmem with hmem | rfl
    · exact h.drained hd call hmem
    · exact Bool.eq_false_iff.mpr fun hlive => hfate (isLive_iff.mp hlive)
  rest := h.rest

/-- A dispatch that no call waits for is cancelled. -/
theorem cancel {t : ℕ} (hnone : ∀ call ∈ s.calls, call.isLive = true → call.task ≠ some t) :
    ({ s with pool := s.pool.cancel t } : Serving σ ρ β).Sound maxWorkers upcaster router where
  workers_eq := (Pool.workers_cancel _ t).trans h.workers_eq
  upcaster_eq := h.upcaster_eq
  pool := h.pool.cancel t
  router_eq := h.router_eq
  alone hc := Pool.forall_cancel (h.alone hc) t fun _ _ => trivial
  calls call hmem := by
    refine (h.calls call hmem).mono (fun t job hjob => by rwa [Pool.jobs_cancel])
      (fun hlive t' ht' hcancelled => hcancelled.of_cancel ?_)
      fun t ht => by rwa [Pool.begun_cancel]
    rintro rfl
    exact hnone call hmem hlive ht'
  distinct := h.distinct
  drained := h.drained
  rest hr := by
    rw [(h.rest hr).cancel h.pool]
    exact h.rest hr

/-- A call reads what its dispatch came to, which is what it comes to alone. -/
theorem resume {i t : ℕ} {request : HostRequest ρ} {came : HostReply β}
    (hloops : s.phase.loops = true) (hcall : s.calls[i]? = some ⟨request, some t, .live⟩)
    (hresult : s.pool.result? t = some came) :
    ({ s with calls := s.calls.set i ⟨request, some t, .answered came⟩ } :
      Serving σ ρ β).Sound maxWorkers upcaster router := by
  obtain ⟨job, htask⟩ := Pool.result?_eq_some_iff.mp hresult
  have hcame : came = reply upcaster router job :=
    h.alone (not_over_of_loops hloops).2.2 _ (List.mem_of_getElem? htask)
  have hjob : job = request := by
    have hrequest := (h.calls _ (List.mem_of_getElem? hcall)).job t rfl
    rw [Pool.getElem?_jobs, htask] at hrequest
    exact Option.some.inj hrequest
  refine h.finish hcall (by simp) fun came' hfate => ?_
  obtain rfl : came = came' := by injection hfate
  exact ⟨hjob ▸ hcame, t, rfl, (h.pool.begun_iff htask).mpr rfl⟩

/-- A call is aborted, and with it its dispatch, which no other call waits for. -/
theorem abort {i : ℕ} {request : HostRequest ρ} {task : Option ℕ}
    (hcall : s.calls[i]? = some ⟨request, task, .live⟩) :
    ({ s with
      pool := task.elim s.pool s.pool.cancel
      calls := s.calls.set i ⟨request, task, .aborted⟩ } :
        Serving σ ρ β).Sound maxWorkers upcaster router := by
  have hover : ({ s with calls := s.calls.set i ⟨request, task, .aborted⟩ } :
      Serving σ ρ β).Sound maxWorkers upcaster router :=
    h.finish hcall (by simp) fun came hfate => by cases hfate
  cases task with
  | none => exact hover
  | some t =>
    refine hover.cancel fun call hmem hlive ht => ?_
    obtain ⟨before, after, hsplit, hset⟩ := exists_around hcall ⟨request, some t, .aborted⟩
    have hdistinct := h.distinct
    rw [hsplit, List.filterMap_append,
      List.filterMap_cons_some (f := HostCall.task) rfl] at hdistinct
    change call ∈ s.calls.set i _ at hmem
    rw [hset, List.mem_append, List.mem_cons] at hmem
    -- a second call with this dispatch
    have hsecond (hmem : call ∈ before ++ after) : False := by
      refine (List.nodup_cons.mp (List.nodup_middle.mp hdistinct)).1 ?_
      rw [← List.filterMap_append]
      exact List.mem_filterMap.mpr ⟨call, hmem, ht⟩
    rcases hmem with hmem | rfl | hmem
    · exact hsecond (List.mem_append_left _ hmem)
    · cases hlive
    · exact hsecond (List.mem_append_right _ hmem)

/-- **Every step keeps it.** -/
theorem steps {s' : Serving σ ρ β} (hsteps : s.Steps s') :
    s'.Sound maxWorkers upcaster router := by
  cases hsteps with
  | same => exact h
  | arrive request hphase => exact h.arrive hphase request
  | submit hloops hcall => exact h.submit hloops hcall
  | take => exact h.take
  | work t => exact h.work t
  | resume hloops hcall hresult _ => exact h.resume hloops hcall hresult
  | abort hcall => exact h.abort hcall
  | stop hphase =>
    exact h.enter (fun _ => by rw [hphase]; rfl) (fun hd => by cases hd) fun hr => by cases hr
  | drained hphase hdrained =>
    exact h.enter (fun _ => by rw [hphase]; rfl) (fun _ => hdrained) fun hr => by cases hr
  | joined hphase hrest =>
    refine h.enter (fun _ => by rw [hphase]; rfl) (fun _ => h.drained ?_) fun _ => hrest
    rw [hphase]
    rfl
  | cut hphase =>
    refine h.enter (fun _ => ?_) (fun hd => by cases hd) fun hr => by cases hr
    rcases hphase with hphase | hphase | hphase <;> rw [hphase] <;> rfl
  | close hphase =>
    exact ⟨h.workers_eq, h.upcaster_eq, h.pool, fun hc => (by cases hc), fun hc => (by cases hc),
      h.calls, h.distinct, fun hd => h.drained (by rw [hphase]; exact hd),
      fun hr => h.rest (by rw [hphase]; exact hr)⟩

/-- What a host does keeps it. -/
theorem act (a : ServingAction ρ) : (s.act a).Sound maxWorkers upcaster router :=
  h.steps (steps_act s a)

end Sound

/-- **Once `stop` has returned nothing happens any more.** -/
theorem Sound.act_of_closed {s : Serving σ ρ β} (h : s.Sound maxWorkers upcaster router)
    (hphase : s.phase = .closed false) (a : ServingAction ρ) : s.act a = s := by
  have hrest := h.rest (by rw [hphase]; rfl)
  have hloops : ¬s.phase.loops = true := by simp [hphase, ServingPhase.loops]
  cases a with
  | arrive request => exact if_neg (by simp [hphase])
  | submit i => exact if_neg hloops
  | take =>
    rw [Serving.act, hrest.take]
  | work t =>
    rw [Serving.act, hrest.work]
  | resume i => exact if_neg hloops
  | abort i => exact if_neg hloops
  | stop => exact if_neg (by simp [hphase])
  | drained => exact if_neg (by simp [hphase])
  | joined => exact if_neg (by simp [hphase])
  | cut => exact if_neg (by simp [hphase])
  | close =>
    rw [Serving.act, Serving.close, hphase]

/-- What is kept holds in every run. -/
theorem sound_run (ownsRouter : Bool) (actions : List (ServingAction ρ)) :
    (Run.run act (new ownsRouter router upcaster maxWorkers) actions).Sound maxWorkers upcaster
      router := by
  refine Run.invariant_of_step ?_ (sound_new ownsRouter) actions
  exact fun s a h => h.act a

end Sound

/-- What a dispatch has before it once it was taken: it reads the router, and comes to its
end. -/
def dispatchCost (_ : HostRequest ρ) : Option (Router σ) → ℕ
  | none => 1
  | some _ => 0

/-- What a call has before it: to submit its dispatch, with what that has, and to be over. -/
def callCost (call : HostCall ρ β) : ℕ :=
  match call.fate, call.task with
  | .live, none => 5
  | .live, some _ => 1
  | _, _ => 0

/-- What a stop has before it. -/
def phaseCost : ServingPhase → ℕ
  | .serving => 4
  | .draining => 3
  | .joining => 2
  | .ended _ => 1
  | .closed _ => 0

/-- **What is left to do**, once no more calls come in. -/
def toDo (s : Serving σ ρ β) : ℕ :=
  s.pool.toDo (fun _ => none) dispatchCost + (s.calls.map callCost).sum + phaseCost s.phase

theorem dispatchCost_lt {upcaster : Upcaster ρ β} {router : Router σ} {request : HostRequest ρ}
    {stage stage' : Option (Router σ)}
    (h : dispatching upcaster router request stage = .inl stage') :
    dispatchCost request stage' < dispatchCost request stage := by
  cases stage with
  | none =>
    obtain rfl : some router = stage' := by injection h
    exact Nat.zero_lt_one
  | some read => cases h

section Ends

variable {maxWorkers : ℕ} {upcaster : Upcaster ρ β} {router : Router σ} {s : Serving σ ρ β}

omit [Spec] [Message ErrorInfo] [Message Status] [Message σ] [Message CommandRefused] in
/-- What a host has to do, part by part. -/
theorem toDo_lt {s' : Serving σ ρ β}
    (hpool : s'.pool.toDo (fun _ => none) dispatchCost ≤
      s.pool.toDo (fun _ => none) dispatchCost)
    (hcalls : (s'.calls.map callCost).sum ≤ (s.calls.map callCost).sum)
    (hphase : phaseCost s'.phase ≤ phaseCost s.phase)
    (hlt : s'.pool.toDo (fun _ => none) dispatchCost < s.pool.toDo (fun _ => none) dispatchCost ∨
      (s'.calls.map callCost).sum < (s.calls.map callCost).sum ∨
        phaseCost s'.phase < phaseCost s.phase) : s'.toDo < s.toDo := by
  unfold toDo
  omega

/-- **After `stop` was called a step does nothing, or leaves less to do.** -/
theorem Steps.eq_or_lt {s' : Serving σ ρ β} (hsteps : s.Steps s') (h : s.pool.Sound)
    (hphase : s.phase ≠ .serving) : s' = s ∨ s'.toDo < s.toDo := by
  -- a phase is left for one with less before it
  have henter {phase : ServingPhase} {router : Router σ}
      (hlt : phaseCost phase < phaseCost s.phase) :
      ({ s with router := router, phase := phase } : Serving σ ρ β).toDo < s.toDo :=
    toDo_lt (Nat.le_refl _) (Nat.le_refl _) (Nat.le_of_lt hlt) (.inr (.inr hlt))
  cases hsteps with
  | same => exact .inl rfl
  | arrive request hserving => exact absurd hserving hphase
  | submit hloops hcall =>
    next i request =>
    have hsum := Pool.sum_map_set callCost hcall ⟨request, some s.pool.tasks.length, .live⟩
    have hpool := Pool.toDo_submit (fun _ => none) dispatchCost h request
    change _ + 5 = _ + 1 at hsum
    change _ = _ + 3 at hpool
    refine .inr ?_
    simp only [toDo, hpool]
    omega
  | take =>
    rcases Pool.toDo_take (fun _ => none) dispatchCost s.pool with heq | hlt
    · exact .inl (by rw [heq])
    · exact .inr (toDo_lt (Nat.le_of_lt hlt) (Nat.le_refl _) (Nat.le_refl _) (.inl hlt))
  | work t =>
    rcases Pool.toDo_work (fun _ => none) (dispatching s.upcaster s.router) dispatchCost_lt
      s.pool t with heq | hlt
    · exact .inl (by rw [heq])
    · exact .inr (toDo_lt (Nat.le_of_lt hlt) (Nat.le_refl _) (Nat.le_refl _) (.inl hlt))
  | @resume i t request came hloops hcall hresult hends =>
    have hsum := Pool.sum_map_set callCost hcall ⟨request, some t, .answered came⟩
    change _ + 1 = _ + 0 at hsum
    have hlt := Nat.lt_of_succ_le (Nat.le_of_eq hsum)
    exact .inr (toDo_lt (Nat.le_refl _) (Nat.le_of_lt hlt) (Nat.le_refl _) (.inr (.inl hlt)))
  | abort hcall =>
    next i request task =>
    have hsum := Pool.sum_map_set callCost hcall ⟨request, task, .aborted⟩
    have hlt : ((s.calls.set i ⟨request, task, .aborted⟩).map callCost).sum <
        (s.calls.map callCost).sum := by
      cases task with
      | none =>
        change _ + 5 = _ + 0 at hsum
        omega
      | some t =>
        change _ + 1 = _ + 0 at hsum
        omega
    refine .inr (toDo_lt ?_ (Nat.le_of_lt hlt) (Nat.le_refl _) (.inr (.inl hlt)))
    cases task with
    | none => exact Nat.le_refl _
    | some t => exact Pool.toDo_cancel (fun _ => none) dispatchCost s.pool t
  | stop hserving => exact absurd hserving hphase
  | drained hdraining hdrained => exact .inr (henter (by rw [hdraining]; exact Nat.lt_succ_self 2))
  | joined hjoining hrest => exact .inr (henter (by rw [hjoining]; exact Nat.lt_succ_self 1))
  | cut hphases =>
    refine .inr (henter ?_)
    rcases hphases with heq | heq | heq <;> rw [heq] <;> simp [phaseCost]
  | close hended => exact .inr (henter (by rw [hended]; exact Nat.lt_succ_self 0))

/-- A host does not go back to where it serves. -/
theorem Steps.phase_ne {s' : Serving σ ρ β} (hsteps : s.Steps s') (hphase : s.phase ≠ .serving) :
    s'.phase ≠ .serving := by
  cases hsteps with
  | stop | drained | joined | cut | close => simp
  | _ => exact hphase

/-- A call that is not over, once the pool is at rest: it is submitted, resumed with the reply
its dispatch came to, or, where that never ends, aborted. -/
theorem exists_step_of_live (h : s.Sound maxWorkers upcaster router) (hp : s.phase = .draining)
    (hrest : s.pool.AtRest) {call : HostCall ρ β} (hmem : call ∈ s.calls)
    (hlive : call.isLive = true) : ∃ a : ServingAction ρ, s.Patient a ∧ s.act a ≠ s := by
  obtain ⟨request, task, fate⟩ := call
  obtain rfl : fate = .live := isLive_iff.mp hlive
  obtain ⟨i, hcall⟩ := List.getElem?_of_mem hmem
  cases task with
  | none =>
    refine ⟨.submit i, trivial, fun heq => ?_⟩
    have hlength := congrArg (fun s => s.pool.tasks.length) heq
    simp [Serving.act, hp, ServingPhase.loops, Serving.submit, hcall, Pool.submit] at hlength
  | some t =>
    have hsound := h.calls _ hmem
    have hjob := hsound.job t rfl
    rw [Pool.getElem?_jobs, Option.map_eq_some_iff] at hjob
    obtain ⟨task, htask, -⟩ := hjob
    -- Its task is over, and was not cancelled, for the call waits for it.
    rcases hrest.over h.pool htask with hstatus | ⟨came, hstatus⟩
    · exact absurd ⟨task.job, by rw [htask, ← hstatus]⟩ (hsound.waits hlive t rfl)
    have hresult : s.pool.result? t = some came :=
      Pool.result?_eq_some_iff.mpr ⟨task.job, by rw [htask, ← hstatus]⟩
    obtain ⟨hlt, -⟩ := List.getElem?_eq_some_iff.mp hcall
    cases hends : came.isPending with
    | true =>
      refine ⟨.abort i, ⟨request, t, came, hcall, hresult, hends⟩, fun heq => ?_⟩
      have hfate := congrArg (fun s => s.calls[i]?) heq
      simp only [Serving.act, hp, ServingPhase.loops, if_true, Serving.abort, hcall,
        List.getElem?_set_self hlt] at hfate
      cases hfate
    | false =>
      refine ⟨.resume i, trivial, fun heq => ?_⟩
      have hfate := congrArg (fun s => s.calls[i]?) heq
      simp only [Serving.act, hp, ServingPhase.loops, if_true, Serving.resume, hcall,
        hresult, hends, Bool.false_eq_true, if_false, List.getElem?_set_self hlt] at hfate
      cases hfate

/-- **A stop is never stuck**: as long as it has not come to its end there is a step that does
something, and aborts no call that could end. -/
theorem exists_step (h : s.Sound maxWorkers upcaster router) (hworkers : 0 < maxWorkers)
    (hphase : s.phase ≠ .serving) (hopen : s.phase.isClosed = false) :
    ∃ a : ServingAction ρ, s.Patient a ∧ s.act a ≠ s := by
  have hpool (hrest : ¬s.pool.AtRest) : ∃ a : ServingAction ρ, s.Patient a ∧ s.act a ≠ s := by
    rcases Pool.exists_step (fun _ => none) (dispatching s.upcaster s.router) dispatchCost_lt
      h.pool (h.workers_eq ▸ hworkers) hrest with htake | ⟨t, hwork⟩
    · exact ⟨.take, trivial, fun heq => htake (congrArg Serving.pool heq)⟩
    · exact ⟨.work t, trivial, fun heq => hwork (congrArg Serving.pool heq)⟩
  cases hp : s.phase with
  | serving => exact absurd hp hphase
  | draining =>
    by_cases hdrained : s.Drained
    · refine ⟨.drained, trivial, fun heq => ?_⟩
      have hnext := congrArg Serving.phase heq
      rw [Serving.act, if_pos ⟨hp, hdrained⟩, hp] at hnext
      cases hnext
    · by_cases hrest : s.pool.AtRest
      · obtain ⟨call, hmem, hlive⟩ : ∃ call ∈ s.calls, call.isLive = true := by
          simpa [Drained] using hdrained
        exact exists_step_of_live h hp hrest hmem hlive
      · exact hpool hrest
  | joining =>
    by_cases hrest : s.pool.AtRest
    · refine ⟨.joined, trivial, fun heq => ?_⟩
      have hnext := congrArg Serving.phase heq
      rw [Serving.act, if_pos ⟨hp, hrest⟩, hp] at hnext
      cases hnext
    · exact hpool hrest
  | ended cut =>
    refine ⟨.close, trivial, fun heq => ?_⟩
    have hnext := congrArg Serving.phase heq
    rw [Serving.act, Serving.close, hp] at hnext
    cases hnext
  | closed cut =>
    rw [hp] at hopen
    cases hopen

end Ends

/-- **A stop ends.** Once `stop` has come to the server, the steps that do anything are no more
than what is left to do, in whatever order they are made; and where none is left that does
anything, even if no call is aborted but those that wait for what never comes, `stop` has come
to its end. -/
theorem stop_ends (ownsRouter : Bool) (router : Router σ) (upcaster : Upcaster ρ β)
    {maxWorkers : ℕ} (hworkers : 0 < maxWorkers) {actions : List (ServingAction ρ)}
    {s : Serving σ ρ β} (hs : s = Run.run act (new ownsRouter router upcaster maxWorkers) actions)
    (hstop : s.phase ≠ .serving) {steps : List (ServingAction ρ)}
    (hsteps : Run.Along act (fun s a => s.act a ≠ s) s steps) :
    steps.length ≤ s.toDo ∧
      ((∀ a : ServingAction ρ, (Run.run act s steps).Patient a →
          (Run.run act s steps).act a = Run.run act s steps) →
        (Run.run act s steps).phase.isClosed = true) := by
  have hstep (s : Serving σ ρ β) (a : ServingAction ρ)
      (h : s.Sound maxWorkers upcaster router ∧ s.phase ≠ .serving) (_ : s.act a ≠ s) :
      (s.act a).Sound maxWorkers upcaster router ∧ (s.act a).phase ≠ .serving :=
    ⟨h.1.act a, (steps_act s a).phase_ne h.2⟩
  have hstart : s.Sound maxWorkers upcaster router ∧ s.phase ≠ .serving :=
    ⟨hs ▸ sound_run ownsRouter actions, hstop⟩
  have hlower : Run.Along act (fun s a => (s.act a).toDo < s.toDo) s steps := by
    intro pre a post heq
    obtain ⟨⟨hsound, hphase⟩, hne⟩ := Run.along_of_invariant hstep hstart hsteps pre a post heq
    exact ((steps_act _ a).eq_or_lt hsound.pool hphase).resolve_left hne
  refine ⟨Nat.le_of_add_right_le (Run.length_add_le hlower), fun hstuck => ?_⟩
  obtain ⟨hsound, hphase⟩ := Run.invariant_run hstep hstart hsteps
  by_contra hopen
  obtain ⟨a, hpatient, hne⟩ := exists_step hsound hworkers hphase (Bool.eq_false_iff.mpr hopen)
  exact hne (hstuck a hpatient)

end Component

section Raised

open Ledger
open scoped GoogleRpc

/-- A ledger's host with one worker. -/
def ledgerServing : Serving CounterState Unit Unit :=
  new true ⟨some (.aggregate ledgerAggregate)⟩ .ok 1

/-- A call that waits for a worker when it is stopped. -/
def stoppedWaiting : List (ServingAction Unit) :=
  [.arrive (.command (increaseOver none [] 0)), .submit 0, .stop]

/-- What comes after: a worker has taken the dispatch by the time the call is aborted. -/
def abortedLate : List (ServingAction Unit) :=
  [.take, .abort 0, .drained, .work 0, .work 0, .joined, .close]

/-- A stop whose one call is aborted while its dispatch runs takes what it had to do, and comes
to its end. -/
theorem stop_ends_abortedLate :
    abortedLate.length ≤ (Run.run act ledgerServing stoppedWaiting).toDo ∧
      (Run.run act (Run.run act ledgerServing stoppedWaiting) abortedLate).phase.isClosed =
        true := by
  have hne {s : Serving CounterState Unit Unit} {a : ServingAction Unit}
      (h : (s.act a).toDo ≠ s.toDo) : s.act a ≠ s := fun heq => h (congrArg toDo heq)
  have hsteps : Run.Along act (fun s a => s.act a ≠ s)
      (Run.run act ledgerServing stoppedWaiting) abortedLate :=
    .cons (hne (by decide)) (.cons (hne (by decide)) (.cons (hne (by decide))
      (.cons (hne (by decide)) (.cons (hne (by decide)) (.cons (hne (by decide))
        (.cons (hne (by decide)) Run.along_nil))))))
  have hs : Run.run act ledgerServing stoppedWaiting =
      Run.run act (new true ⟨some (.aggregate ledgerAggregate)⟩ .ok 1) stoppedWaiting := rfl
  obtain ⟨hlength, hends⟩ := stop_ends true ⟨some (.aggregate ledgerAggregate)⟩ .ok
    Nat.zero_lt_one hs (by decide) hsteps
  refine ⟨hlength, hends fun a _ => ?_⟩
  have hsound : (Run.run act ledgerServing (stoppedWaiting ++ abortedLate)).Sound 1 .ok
      ⟨some (.aggregate ledgerAggregate)⟩ := sound_run true _
  rw [Run.run_append] at hsound
  exact hsound.act_of_closed (by decide) a

end Raised

end Serving

end AngzarrClient
