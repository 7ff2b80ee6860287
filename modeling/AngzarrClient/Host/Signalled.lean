import AngzarrClient.Child.Launch
import AngzarrClient.Host.Hosting

/-!
# A host that runs until it is signalled

`run` starts the host, serves until `SIGTERM` or `SIGINT`, and stops it. Its handlers are in
place before the start and until the wait is over, so a signal does nothing but set an event,
which the wait reads. Then the `finally` block puts back the handlers it found, one after
the other, and only then stops the host.

What runs is that, the main thread a program counter over its statements on the host's own
state (`AngzarrClient.HostRun.main`), and around it, at any time and in any order, signals and
the statuses the supervisor publishes (`AngzarrClient.HostRun.act`).

* **A run leaves its host stopped** exactly when the host was never stopped before, or has
  nothing up to stop: a `stop` of a host stopped before returns at once
  (`AngzarrClient.HostRun.run_stops_host_iff`). The run needs to be left alone between the
  handlers it puts back and the stop, for those may raise.
* **No signal is lost**: from the first that finds a handler of the run's, the run comes to
  its end in a bounded number of its own statements, whatever else happens
  (`AngzarrClient.HostRun.signalled_run_ends`).
-/

namespace AngzarrClient

open Child (Signal Handler)

/-- A handler installed from Python is given back. -/
theorem Child.Handler.saved_of_ne_foreign {found : Handler} (h : found ≠ .foreign) :
    found.saved = some found := by
  cases found with
  | foreign => exact absurd rfl h
  | _ => rfl

/-! ### What a start and a stop leave of a host -/

namespace HostState

/-- **A start and the loop**: it makes one if it returns, and otherwise leaves what there was. -/
theorem loop_start {s : HostState} (h : s.Consistent) (address : Option String)
    (config : TransportConfig) (port : ℕ) (outcome : Outcome) :
    (s.start address config port outcome).2.host.stopped = s.host.stopped ∧
      ((s.start address config port outcome).2.host.loop ≠ none ↔
        s.host.loop ≠ none ∨ ∃ bound, (s.start address config port outcome).1 = .ok bound) := by
  obtain ⟨error, heq⟩ | ⟨-, -, hthread, address', sockets, heq⟩ :=
    start_cases s address config port outcome
  · rw [heq]
    exact ⟨rfl, (or_iff_left fun ⟨_, hok⟩ => by cases hok).symm⟩
  have hnone : s.host.loop = none := by
    by_contra hloop
    obtain ⟨start, hstart⟩ := Option.ne_none_iff_exists'.mp hloop
    exact absurd ((h.up start hstart).thread.symm.trans hthread) nofun
  have hkept := kept_perform (outcome.performed (startEffects s.host s.world.starts address'))
    (looped { s with world.sockets := sockets })
  have hstopped := congrArg ComponentHost.stopped hkept
  have hlooped := congrArg ComponentHost.loop hkept
  rw [heq]
  cases outcome with
  | finishes =>
    refine ⟨hstopped, iff_of_true (fun hno => ?_) (Or.inr ⟨_, rfl⟩)⟩
    exact absurd (hlooped.symm.trans hno) nofun
  | raises done =>
    refine ⟨?_, iff_of_false (not_not.mpr (loop_launch_raises _ address' port done)) ?_⟩
    · have hshut := congrArg (fun s' => s'.host.stopped) (shutdownLoop_of_loop hlooped)
      exact hshut.trans hstopped
    · rintro (hloop | ⟨bound, hok⟩)
      · exact hloop hnone
      · cases hok

/-- A host whose stop gets to its end is down, unless it was started again. -/
theorem loop_stop {s : HostState} (h : s.Consistent) :
    (s.stop .finishes).1 = .ok () ∧ ((s.stop .finishes).2.host.loop = none ↔ ¬s.StartedAgain) := by
  refine ⟨?_, fun hloop hagain => ?_, fun hagain => ?_⟩
  · unfold stop
    split
    · rfl
    split
    · rfl
    · rfl
  · rw [h.stop.2.2 hagain] at hloop
    exact hagain.2 hloop
  · by_contra hloop
    obtain ⟨start, hstart⟩ := Option.ne_none_iff_exists'.mp hloop
    exact absurd ((h.stop.1.up start hstart).thread.symm.trans (h.stop.2.1 hagain).thread) nofun

theorem host_superviseOnce (s : HostState) (start : ℕ) (name : String) (status : HealthStatus) :
    (s.superviseOnce start name status).host = s.host := by
  unfold superviseOnce
  split <;> rfl

/-- A host is stopped exactly when it has no loop. -/
theorem Consistent.stopped_iff {s : HostState} (h : s.Consistent) :
    s.Stopped ↔ s.host.loop = none := by
  refine ⟨fun hstopped => ?_, fun hloop => (h.down hloop).stopped⟩
  by_contra hloop
  obtain ⟨start, hstart⟩ := Option.ne_none_iff_exists'.mp hloop
  exact (h.up start hstart).not_stopped hstopped

end HostState

/-! ### What a run is made of -/

namespace HostRun

/-- What `run` raises, or what is raised in it. -/
inductive Raised where
  | host (error : HostError)
  | exception (name : String)

/-- What `run` does, and what is asked of it. -/
inductive Event where
  /-- `self.start` is called, -/
  | called
  /-- and returns. -/
  | started (address : String)
  /-- `_request_stop` runs. -/
  | asked (sig : Signal)
  /-- `self.stop` is called. -/
  | stopped

/-- The statements of the `try` block. -/
inductive Serving where
  | starts
  | logs
  /-- `while not stopping.wait(0.2)` -/
  | waits

/-- The statements of the `finally` block. -/
inductive Cleanup where
  | restores (sig : Signal)
  /-- `started = bool(self.address)`, and `self.stop(grace)`. -/
  | stops
  /-- The log of a host that had been started. -/
  | logs

/-- Where the main thread stands: before a statement, of the `finally` block with what the
`try` block raised, or at an end. -/
inductive Pc where
  | handles (sig : Signal)
  | serving (line : Serving)
  | cleanup (line : Cleanup) (pending : Option Raised)
  | returned
  | raised (exc : Raised)
  | killed

/-- `run` has returned or raised. -/
def Pc.Left : Pc → Prop
  | .returned => True
  | .raised _ => True
  | _ => False

/-- What the calls of a statement come to: what the environment and the port of a start are,
how a coroutine of the host's ends, and what another call raises. -/
structure Fate where
  config : HostState.TransportConfig
  port : ℕ
  outcome : HostState.Outcome
  raises : Option Raised

/-- What happens to a run: the main thread's next statement; a signal, whose handler, where
it is a Python function, raises or not; and a status of the supervisor's. -/
inductive Action where
  | main (fate : Fate)
  | signal (sig : Signal) (raised : Option Raised)
  | publish (start : ℕ) (name : String) (status : HealthStatus)

end HostRun

/-- A run of `run`. -/
structure HostRun where
  /-- The host, and the world around it. -/
  state : HostState
  /-- `address`. -/
  address : Option String
  pc : HostRun.Pc
  handlers : Signal → Handler
  /-- `previous`. -/
  previous : Signal → Option Handler
  /-- The event `stopping`. -/
  stopping : Bool
  trace : List HostRun.Event

namespace HostRun

/-! ### `run` -/

/-- A call of `run`, of a host as it is, with some handlers installed. -/
def new (state : HostState) (address : Option String) (handlers : Signal → Handler) :
    HostRun where
  state := state
  address := address
  pc := .handles .sigterm
  handlers := handlers
  previous := fun _ => none
  stopping := false
  trace := []

/-- An exception leaves the statement that runs: of the `try` block to the `finally` block,
and elsewhere out of `run`. -/
def raise (r : HostRun) (exc : Raised) : HostRun :=
  match r.pc with
  | .handles _ => { r with pc := .raised exc }
  | .serving _ => { r with pc := .cleanup (.restores .sigterm) (some exc) }
  | .cleanup _ _ => { r with pc := .raised exc }
  | _ => r

/-- A call that raises, or that goes on to a statement. -/
def proceed (r : HostRun) (raises : Option Raised) (pc : Pc) : HostRun :=
  match raises with
  | some exc => r.raise exc
  | none => { r with pc := pc }

/-- Where the `finally` block ends: what the `try` block raised is raised on. -/
def ended : Option Raised → Pc
  | none => .returned
  | some exc => .raised exc

/-- A statement of the `try` block. -/
def serve (r : HostRun) (fate : Fate) : Serving → HostRun
  | .starts =>
    match r.state.start r.address fate.config fate.port fate.outcome with
    | (.ok address, state) =>
      { r with
        state := state
        pc := .serving .logs
        trace := r.trace ++ [.called, .started address] }
    | (.error error, state) =>
      ({ r with state := state, trace := r.trace ++ [.called] } : HostRun).raise (.host error)
  | .logs => r.proceed fate.raises (.serving .waits)
  | .waits =>
    if r.stopping = true then { r with pc := .cleanup (.restores .sigterm) none } else r

/-- A statement of the `finally` block. -/
def clean (r : HostRun) (fate : Fate) (pending : Option Raised) : Cleanup → HostRun
  | .restores sig =>
    match r.previous sig with
    | none => r.raise (.exception "TypeError")
    | some handler =>
      { r with
        handlers := Function.update r.handlers sig handler
        pc := match sig with
          | .sigterm => .cleanup (.restores .sigint) pending
          | .sigint => .cleanup .stops pending }
  | .stops =>
    match r.state.stop fate.outcome with
    | (.ok _, state) =>
      { r with
        state := state
        pc := if r.state.host.address = "" then ended pending else .cleanup .logs pending
        trace := r.trace ++ [.stopped] }
    | (.error error, state) =>
      ({ r with state := state, trace := r.trace ++ [.stopped] } : HostRun).raise (.host error)
  | .logs => r.proceed fate.raises (ended pending)

/-- The main thread's next statement. Installing a handler raises off the main thread. -/
def main (r : HostRun) (fate : Fate) : HostRun :=
  match r.pc with
  | .handles sig =>
    match fate.raises with
    | some exc => r.raise exc
    | none =>
      { r with
        handlers := Function.update r.handlers sig .requestStop
        previous := Function.update r.previous sig (r.handlers sig).saved
        pc := match sig with
          | .sigterm => .handles .sigint
          | .sigint => .serving .starts }
  | .serving line => r.serve fate line
  | .cleanup line pending => r.clean fate pending line
  | _ => r

/-- A signal's handler runs, on the main thread between two of its statements or in one. -/
def deliver (r : HostRun) (sig : Signal) (raised : Option Raised) : HostRun :=
  match r.handlers sig with
  | .requestStop => { r with stopping := true, trace := r.trace ++ [.asked sig] }
  | .standard => { r with pc := .killed }
  | .ignored => r
  | .foreign => r
  | .python =>
    match raised with
    | none => r
    | some exc => r.raise exc

/-- `run` is still running. -/
def running (r : HostRun) : Bool :=
  match r.pc with
  | .handles _ => true
  | .serving _ => true
  | .cleanup _ _ => true
  | _ => false

/-- The run after something happened, up to its end. -/
def act (r : HostRun) (action : Action) : HostRun :=
  if r.running = true then
    match action with
    | .main fate => r.main fate
    | .signal sig raised => r.deliver sig raised
    | .publish start name status => { r with state := r.state.superviseOnce start name status }
  else r

/-- The run after a sequence of actions. -/
def run (r : HostRun) (actions : List Action) : HostRun := Run.run act r actions

/-! ### What a run keeps to -/

/-- **A run left alone**: no handler that is put back raises before the host is stopped, and
neither the start nor the stop is cut short. -/
structure Calm (r : HostRun) (action : Action) : Prop where
  signals : ∀ sig exc line pending, action = .signal sig (some exc) →
    r.pc = .cleanup line pending → line ≠ .logs → r.handlers sig ≠ .python
  starts : ∀ fate, action = .main fate → r.pc = .serving .starts →
    r.state.Steady (.start r.address fate.config fate.port fate.outcome)
  stops : ∀ fate pending, action = .main fate → r.pc = .cleanup .stops pending →
    fate.outcome = .finishes

/-- **Out of reach of a run's stop**: a host that was stopped before the run, and is up of an
earlier start or of the run's own. -/
def OutOfReach (s : HostState) (r : HostRun) : Prop :=
  s.host.stopped = true ∧ (s.host.loop ≠ none ∨ ∃ address, .started address ∈ r.trace)

/-- The host until the run stops it. -/
structure Before (s : HostState) (r : HostRun) : Prop where
  stopped : r.state.host.stopped = s.host.stopped
  loop : r.state.host.loop ≠ none ↔ s.host.loop ≠ none ∨ ∃ address, .started address ∈ r.trace

/-- The host once the run has stopped it, and the handlers. -/
structure After (s : HostState) (found : Signal → Handler) (r : HostRun) : Prop where
  handlers : r.handlers = found
  loop : r.state.host.loop = none ↔ ¬r.OutOfReach s

/-- What holds before a statement of the `finally` block. -/
def Cleanup.Stands (s : HostState) (found : Signal → Handler) (r : HostRun) : Cleanup → Prop
  | .restores .sigterm => r.Before s ∧ r.handlers = fun _ => .requestStop
  | .restores .sigint =>
    r.Before s ∧ r.handlers = Function.update (fun _ => .requestStop) .sigterm (found .sigterm)
  | .stops => r.Before s ∧ r.handlers = found
  | .logs => r.After s found

/-- What holds where the main thread stands. -/
def Stands (s : HostState) (found : Signal → Handler) (r : HostRun) : Prop :=
  match r.pc with
  | .handles .sigterm => r.Before s ∧ .called ∉ r.trace ∧ r.handlers = found
  | .handles .sigint =>
    r.Before s ∧ .called ∉ r.trace ∧
      r.handlers = Function.update found .sigterm .requestStop ∧
      r.previous .sigterm = (found .sigterm).saved
  | .serving _ =>
    r.Before s ∧ (r.handlers = fun _ => .requestStop) ∧
      r.previous = fun sig => (found sig).saved
  | .cleanup line pending =>
    (r.previous = fun sig => (found sig).saved) ∧ (pending = none → r.stopping = true) ∧
      line.Stands s found r
  | .returned => r.After s found ∧ r.stopping = true
  | .raised _ => .called ∈ r.trace → r.After s found
  | .killed => True

/-- **The invariant of a run**, of a host as it was with some handlers found. -/
structure Sound (s : HostState) (found : Signal → Handler) (r : HostRun) : Prop where
  consistent : r.state.Consistent
  asked : r.stopping = true → ∃ sig, .asked sig ∈ r.trace
  stands : r.Stands s found

variable {s : HostState} {found : Signal → Handler} {r : HostRun}

theorem sound_new (h : s.Consistent) (address : Option String) (found : Signal → Handler) :
    (new s address found).Sound s found where
  consistent := h
  asked := nofun
  stands := by
    refine ⟨⟨rfl, ?_⟩, List.not_mem_nil, rfl⟩
    exact (or_iff_left fun ⟨_, hmem⟩ => absurd hmem List.not_mem_nil).symm

/-! ### Frames -/

/-- The host is as it was while no start is added to what the run did. -/
theorem Before.of_eq {r' : HostRun} (h : r.Before s)
    (hstopped : r'.state.host.stopped = r.state.host.stopped)
    (hloop : r'.state.host.loop = r.state.host.loop)
    (htrace : ∀ address, .started address ∈ r'.trace ↔ .started address ∈ r.trace) :
    r'.Before s where
  stopped := hstopped.trans h.stopped
  loop := by
    rw [hloop, h.loop]
    simp only [htrace]

theorem After.of_eq {r' : HostRun} (h : r.After s found) (hhandlers : r'.handlers = r.handlers)
    (hloop : r'.state.host.loop = r.state.host.loop)
    (htrace : ∀ address, .started address ∈ r'.trace ↔ .started address ∈ r.trace) :
    r'.After s found where
  handlers := hhandlers.trans h.handlers
  loop := by
    rw [hloop, h.loop, OutOfReach, OutOfReach]
    simp only [htrace]

/-- What stands does so of any run that differs in what the world holds, in what it was asked
and in having been asked. -/
theorem Stands.of_eq {r' : HostRun} (h : r.Stands s found) (hpc : r'.pc = r.pc)
    (hhandlers : r'.handlers = r.handlers) (hprevious : r'.previous = r.previous)
    (hhost : r'.state.host = r.state.host) (hstopping : r.stopping = true → r'.stopping = true)
    (hcalled : .called ∈ r'.trace ↔ .called ∈ r.trace)
    (hstarted : ∀ address, .started address ∈ r'.trace ↔ .started address ∈ r.trace) :
    r'.Stands s found := by
  have hbefore (hb : r.Before s) : r'.Before s :=
    hb.of_eq (congrArg ComponentHost.stopped hhost) (congrArg ComponentHost.loop hhost) hstarted
  have hafter (ha : r.After s found) : r'.After s found :=
    ha.of_eq hhandlers (congrArg ComponentHost.loop hhost) hstarted
  unfold Stands at h ⊢
  rw [hpc, hhandlers, hprevious, hcalled]
  split
  · next heq =>
    rw [heq] at h
    exact ⟨hbefore h.1, h.2⟩
  · next heq =>
    rw [heq] at h
    exact ⟨hbefore h.1, h.2⟩
  · next heq =>
    rw [heq] at h
    exact ⟨hbefore h.1, h.2⟩
  · next line pending heq =>
    rw [heq] at h
    obtain ⟨hp, hs, hline⟩ := h
    refine ⟨hp, fun hnone => hstopping (hs hnone), ?_⟩
    cases line with
    | restores sig =>
      cases sig with
      | sigterm => exact ⟨hbefore hline.1, hhandlers.trans hline.2⟩
      | sigint => exact ⟨hbefore hline.1, hhandlers.trans hline.2⟩
    | stops => exact ⟨hbefore hline.1, hhandlers.trans hline.2⟩
    | logs => exact hafter hline
  · next heq =>
    rw [heq] at h
    exact ⟨hafter h.1, hstopping h.2⟩
  · next heq =>
    rw [heq] at h
    exact fun hmem => hafter (h hmem)
  · trivial

/-! ### One step -/

/-- What is raised where the handlers are the run's own leads to the `finally` block. -/
theorem Sound.raise (h : r.Sound s found)
    (hcleanup : ∀ line pending, r.pc = .cleanup line pending → line = .logs) (exc : Raised) :
    (r.raise exc).Sound s found := by
  have hstands := h.stands
  unfold Stands at hstands
  unfold HostRun.raise
  split
  · next sig hpc =>
    rw [hpc] at hstands
    refine ⟨h.consistent, h.asked, fun hcalled => ?_⟩
    cases sig with
    | sigterm => exact absurd hcalled hstands.2.1
    | sigint => exact absurd hcalled hstands.2.1
  · next line hpc =>
    rw [hpc] at hstands
    obtain ⟨hbefore, hhandlers, hprevious⟩ := hstands
    exact ⟨h.consistent, h.asked, hprevious, nofun,
      hbefore.of_eq rfl rfl fun _ => Iff.rfl, hhandlers⟩
  · next line pending hpc =>
    rw [hpc] at hstands
    obtain rfl := hcleanup line pending hpc
    exact ⟨h.consistent, h.asked, fun _ => After.of_eq hstands.2.2 rfl rfl fun _ => Iff.rfl⟩
  · exact h

theorem Sound.proceed (h : r.Sound s found)
    (hcleanup : ∀ line pending, r.pc = .cleanup line pending → line = .logs) {pc : Pc}
    (hnext : ({ r with pc := pc } : HostRun).Sound s found) (raises : Option Raised) :
    (r.proceed raises pc).Sound s found := by
  cases raises with
  | none => exact hnext
  | some exc => exact h.raise hcleanup exc

/-- What a statement of the `try` block leaves. -/
theorem Sound.serve (h : r.Sound s found) {line : Serving} (hpc : r.pc = .serving line)
    (fate : Fate) (hstarts : line = .starts →
      r.state.Steady (.start r.address fate.config fate.port fate.outcome)) :
    (r.serve fate line).Sound s found := by
  have hcleanup {line' : Cleanup} {pending : Option Raised} :
      r.pc = .cleanup line' pending → line' = .logs := by
    rw [hpc]
    exact nofun
  have hstands := h.stands
  rw [Stands, hpc] at hstands
  obtain ⟨hbefore, hhandlers, hprevious⟩ := hstands
  cases line with
  | starts =>
    obtain ⟨hstopped, hloop⟩ :=
      HostState.loop_start h.consistent r.address fate.config fate.port fate.outcome
    have hconsistent := h.consistent.start r.address fate.config fate.port (hstarts rfl)
    unfold HostRun.serve
    cases hstart : r.state.start r.address fate.config fate.port fate.outcome with
    | mk result state =>
      rw [hstart] at hstopped hloop hconsistent
      cases result with
      | ok bound =>
        refine ⟨hconsistent, fun hasked => ?_, ⟨hstopped.trans hbefore.stopped, ?_⟩, hhandlers,
          hprevious⟩
        · obtain ⟨sig, hmem⟩ := h.asked hasked
          exact ⟨sig, List.mem_append_left _ hmem⟩
        · refine iff_of_true (hloop.mpr (Or.inr ⟨bound, rfl⟩)) (Or.inr ⟨bound, ?_⟩)
          simp
      | error error =>
        have hcalled (address : String) :
            .started address ∈ r.trace ++ [.called] ↔ .started address ∈ r.trace := by
          simp
        have hraised : ({ r with state := state, trace := r.trace ++ [.called] } :
            HostRun).Sound s found := by
          refine ⟨hconsistent, fun hasked => ?_, ?_⟩
          · obtain ⟨sig, hmem⟩ := h.asked hasked
            exact ⟨sig, List.mem_append_left _ hmem⟩
          · rw [Stands, hpc]
            refine ⟨⟨hstopped.trans hbefore.stopped, ?_⟩, hhandlers, hprevious⟩
            simp only [hcalled]
            refine (hloop.trans (or_iff_left fun ⟨_, hok⟩ => ?_)).trans hbefore.loop
            cases hok
        exact hraised.raise (fun _ _ => hcleanup) (.host error)
  | logs =>
    refine h.proceed (fun _ _ => hcleanup) ?_ fate.raises
    exact ⟨h.consistent, h.asked, hbefore.of_eq rfl rfl fun _ => Iff.rfl, hhandlers, hprevious⟩
  | waits =>
    unfold HostRun.serve
    dsimp only
    split
    · next hasked =>
      exact ⟨h.consistent, h.asked, hprevious, fun _ => hasked,
        hbefore.of_eq rfl rfl fun _ => Iff.rfl, hhandlers⟩
    · exact h

/-- What a statement of the `finally` block leaves. -/
theorem Sound.clean (h : r.Sound s found) (hfound : ∀ sig, found sig ≠ .foreign) {line : Cleanup}
    {pending : Option Raised} (hpc : r.pc = .cleanup line pending) (fate : Fate)
    (hstops : line = .stops → fate.outcome = .finishes) :
    (r.clean fate pending line).Sound s found := by
  have hstands := h.stands
  rw [Stands, hpc] at hstands
  obtain ⟨hprevious, hasked, hline⟩ := hstands
  have hsaved (sig : Signal) : r.previous sig = some (found sig) := by
    rw [hprevious]
    exact Handler.saved_of_ne_foreign (hfound sig)
  -- Where the block ends, after a stop.
  have hended {r' : HostRun} (hconsistent : r'.state.Consistent)
      (hasked' : r'.stopping = true → ∃ sig, .asked sig ∈ r'.trace)
      (hstopping : pending = none → r'.stopping = true) (hafter : r'.After s found)
      (hpc' : r'.pc = ended pending) : r'.Sound s found := by
    refine ⟨hconsistent, hasked', ?_⟩
    rw [Stands, hpc']
    cases pending with
    | none => exact ⟨hafter, hstopping rfl⟩
    | some exc => exact fun _ => hafter
  cases line with
  | restores sig =>
    unfold HostRun.clean
    simp only [hsaved]
    cases sig with
    | sigterm =>
      refine ⟨h.consistent, h.asked, hprevious, hasked, hline.1.of_eq rfl rfl fun _ => Iff.rfl, ?_⟩
      exact congrArg (Function.update · Signal.sigterm (found .sigterm)) hline.2
    | sigint =>
      refine ⟨h.consistent, h.asked, hprevious, hasked, hline.1.of_eq rfl rfl fun _ => Iff.rfl, ?_⟩
      refine (congrArg (Function.update · Signal.sigint (found .sigint)) hline.2).trans ?_
      exact Child.Signal.funext rfl rfl
  | stops =>
    obtain ⟨hbefore, hhandlers⟩ := hline
    obtain ⟨hok, hloop⟩ := HostState.loop_stop h.consistent
    have hconsistent := h.consistent.stop.1
    unfold HostRun.clean
    rw [hstops rfl]
    cases hstop : r.state.stop .finishes with
    | mk result state =>
      rw [hstop] at hok hloop hconsistent
      obtain rfl : result = .ok () := hok
      have hafter (pc : Pc) : ({ r with
          state := state
          pc := pc
          trace := r.trace ++ [.stopped] } : HostRun).After s found := by
        refine ⟨hhandlers, hloop.trans (not_congr ?_)⟩
        rw [HostState.StartedAgain, hbefore.stopped, hbefore.loop, OutOfReach]
        simp
      have hasked' (hstopping : r.stopping = true) :
          ∃ sig, Event.asked sig ∈ r.trace ++ [.stopped] := by
        obtain ⟨sig, hmem⟩ := h.asked hstopping
        exact ⟨sig, List.mem_append_left _ hmem⟩
      dsimp only
      split
      · exact hended hconsistent hasked' hasked (hafter _) rfl
      · exact ⟨hconsistent, hasked', hprevious, hasked, hafter _⟩
  | logs =>
    refine h.proceed (fun line' pending' heq => ?_) ?_ fate.raises
    · rw [hpc] at heq
      exact (Pc.cleanup.inj heq).1.symm
    · exact hended h.consistent h.asked hasked (hline.of_eq rfl rfl fun _ => Iff.rfl) rfl

/-- What a statement of the main thread leaves. -/
theorem Sound.main (h : r.Sound s found) (hfound : ∀ sig, found sig ≠ .foreign) {fate : Fate}
    (hcalm : r.Calm (.main fate)) : (r.main fate).Sound s found := by
  have hstands := h.stands
  unfold Stands at hstands
  unfold HostRun.main
  split
  · next sig hpc =>
    rw [hpc] at hstands
    have hraise (exc : Raised) : (r.raise exc).Sound s found :=
      h.raise (fun line pending heq => by rw [hpc] at heq; cases heq) exc
    cases sig with
    | sigterm =>
      obtain ⟨hbefore, hcalled, hhandlers⟩ := hstands
      split
      · next exc _ => exact hraise exc
      · refine ⟨h.consistent, h.asked, hbefore.of_eq rfl rfl fun _ => Iff.rfl, hcalled, ?_, ?_⟩
        · exact congrArg (Function.update · Signal.sigterm Handler.requestStop) hhandlers
        · exact congrArg (fun handlers => (handlers Signal.sigterm).saved) hhandlers
    | sigint =>
      obtain ⟨hbefore, hcalled, hhandlers, hprevious⟩ := hstands
      split
      · next exc _ => exact hraise exc
      · refine ⟨h.consistent, h.asked, hbefore.of_eq rfl rfl fun _ => Iff.rfl, ?_, ?_⟩
        · exact Child.Signal.funext (congrFun hhandlers .sigterm) rfl
        · refine Child.Signal.funext hprevious ?_
          exact congrArg (fun handlers => (handlers Signal.sigint).saved) hhandlers
  · next line hpc =>
    refine h.serve hpc fate fun hline => hcalm.starts fate rfl ?_
    rw [hpc, hline]
  · next line pending hpc =>
    refine h.clean hfound hpc fate fun hline => hcalm.stops fate pending rfl ?_
    rw [hpc, hline]
  · exact h

/-- A signal is taken note of, or raises where nothing is left to do. -/
theorem Sound.deliver (h : r.Sound s found) {sig : Signal} {raised : Option Raised}
    (hcalm : r.Calm (.signal sig raised)) : (r.deliver sig raised).Sound s found := by
  unfold HostRun.deliver
  split
  · refine ⟨h.consistent, fun _ => ⟨sig, ?_⟩, ?_⟩
    · exact List.mem_append_right _ (List.mem_singleton_self _)
    · exact h.stands.of_eq rfl rfl rfl rfl (fun _ => rfl) (by simp) (by simp)
  · exact ⟨h.consistent, h.asked, trivial⟩
  · exact h
  · exact h
  · next hpython =>
    cases raised with
    | none => exact h
    | some exc =>
      refine h.raise (fun line pending hpc => ?_) exc
      by_contra hline
      exact hcalm.signals sig exc line pending rfl hpc hline hpython

/-- **The step**: whatever happens to a run left alone keeps its invariant. -/
theorem Sound.act (h : r.Sound s found) (hfound : ∀ sig, found sig ≠ .foreign) {action : Action}
    (hcalm : r.Calm action) : (r.act action).Sound s found := by
  unfold HostRun.act
  split
  · cases action with
    | main fate => exact h.main hfound hcalm
    | signal sig raised => exact h.deliver hcalm
    | publish start name status =>
      refine ⟨h.consistent.superviseOnce start name status, h.asked, ?_⟩
      exact h.stands.of_eq rfl rfl rfl (HostState.host_superviseOnce ..) id Iff.rfl
        fun _ => Iff.rfl
  · exact h

section Runs

variable [Spec]

/-- **A run leaves its host stopped, exactly when a stop still reaches it.** Let a host be
registered with, started and stopped in any order by steps that get to their end, and then
run, with handlers found that Python knows. Whatever signals come and whatever the supervisor
publishes, if the run started the host and was left alone, then once it has returned or
raised the handlers are those it found, it returned only if a signal asked it to, and the host
is stopped unless it had been stopped before the run and is up, of an earlier start or of the
run's own. -/
theorem run_stops_host_iff (router : Option (Option DispatchTable)) (rulesVersion : String)
    {earlier : List HostState.Action}
    (hsteady : (HostState.new router rulesVersion).SteadyRun earlier)
    {found : Signal → Handler} (hfound : ∀ sig, found sig ≠ .foreign) (address : Option String)
    {actions : List Action} {s : HostState}
    (hs : s = (HostState.new router rulesVersion).run earlier)
    (hcalm : Run.Along act Calm (new s address found) actions)
    {r : HostRun} (hr : r = (new s address found).run actions)
    (hleft : r.pc.Left) (hcalled : .called ∈ r.trace) :
    r.handlers = found ∧ (r.pc = .returned → ∃ sig, .asked sig ∈ r.trace) ∧
      (r.state.Stopped ↔
        ¬(s.host.stopped = true ∧
          (s.host.loop ≠ none ∨ ∃ bound, .started bound ∈ r.trace))) := by
  have hconsistent : s.Consistent := by
    rw [hs]
    exact Run.invariant_run (fun _ _ hc ha => hc.act ha)
      (HostState.consistent_new router rulesVersion) hsteady
  have hsound : r.Sound s found := by
    rw [hr]
    exact Run.invariant_run (fun _ _ hsound ha => hsound.act hfound ha)
      (sound_new hconsistent address found) hcalm
  have hstands := hsound.stands
  have hafter : r.After s found ∧ (r.pc = .returned → r.stopping = true) := by
    unfold Stands at hstands
    cases hpc : r.pc with
    | returned =>
      rw [hpc] at hstands
      exact ⟨hstands.1, fun _ => hstands.2⟩
    | raised exc =>
      rw [hpc] at hstands
      exact ⟨hstands hcalled, nofun⟩
    | _ =>
      rw [hpc] at hleft
      exact hleft.elim
  obtain ⟨hafter, hasked⟩ := hafter
  exact ⟨hafter.handlers, fun hreturned => hsound.asked (hasked hreturned),
    hsound.consistent.stopped_iff.trans hafter.loop⟩

/-- An upcaster's host. -/
def upcasterHost : HostState := (HostState.new none "").run [.addUpcaster]

end Runs

/-- A fate of calls that raise nothing. -/
def quietly : Fate := ⟨.tcp "[::]:0", 0, .finishes, none⟩

/-- The handlers of a process that installed none. -/
def unhandled : Signal → Handler
  | .sigterm => .standard
  | .sigint => .python

/-- A run that is asked to stop while it waits: the handlers are installed, the host started,
and after the signal the handlers put back and the host stopped. -/
def terminated : List Action :=
  List.replicate 4 (.main quietly) ++ [.publish 0 "" .serving, .signal .sigterm none] ++
    List.replicate 5 (.main quietly)

open scoped Router.Ledger in
/-- A host that was never stopped is stopped by a run. -/
theorem run_stops_host_iff_upcaster :
    let r := (new upcasterHost (some "unix:/run/host.sock") unhandled).run terminated
    r.pc.Left ∧ .called ∈ r.trace ∧ r.handlers = unhandled ∧
      (r.pc = .returned → ∃ sig, .asked sig ∈ r.trace) ∧
      (r.state.Stopped ↔ ¬(upcasterHost.host.stopped = true ∧
        (upcasterHost.host.loop ≠ none ∨ ∃ bound, .started bound ∈ r.trace))) := by
  intro r
  have hquiet : ∀ action ∈ terminated, action = .main quietly ∨
      action = .publish 0 "" .serving ∨ action = .signal .sigterm none := by
    intro action hmem
    simp only [terminated, List.mem_append, List.mem_replicate, List.mem_cons, List.not_mem_nil,
      or_false] at hmem
    rcases hmem with (⟨-, h⟩ | h | h) | ⟨-, h⟩
    · exact Or.inl h
    · exact Or.inr (Or.inl h)
    · exact Or.inr (Or.inr h)
    · exact Or.inl h
  have hcalm : Run.Along act Calm (new upcasterHost (some "unix:/run/host.sock") unhandled)
      terminated := by
    refine Run.along_of_forall fun action hmem r => ?_
    rcases hquiet action hmem with rfl | rfl | rfl
    · exact ⟨nofun, fun fate heq _ => Action.main.inj heq ▸ nofun,
        fun fate _ heq _ => Action.main.inj heq ▸ rfl⟩
    · exact ⟨nofun, nofun, nofun⟩
    · exact ⟨nofun, nofun, nofun⟩
  have hsteady : (HostState.new none "").SteadyRun [.addUpcaster] :=
    Run.along_of_forall fun action hmem s => List.mem_singleton.mp hmem ▸ trivial
  have hfound : ∀ sig, unhandled sig ≠ .foreign := by
    rintro (_ | _) <;> exact nofun
  have hcalled : .called ∈ r.trace := List.mem_cons_self ..
  exact ⟨trivial, hcalled, run_stops_host_iff none "" hsteady hfound
    (some "unix:/run/host.sock") rfl hcalm rfl trivial hcalled⟩

open scoped Router.Ledger in
/-- A handler put back that raises before the stop leaves the host serving. -/
example :
    ((new upcasterHost (some "unix:/run/host.sock") unhandled).run (terminated.take 9 ++
      [.signal .sigint (some (.exception "KeyboardInterrupt"))])).state.world.accepting = [0] := by
  decide

/-! ### How a signal ends a run -/

/-- The statements left to a run that was asked to stop. -/
def Pc.remaining : Pc → ℕ
  | .handles .sigterm => 9
  | .handles .sigint => 8
  | .serving .starts => 7
  | .serving .logs => 6
  | .serving .waits => 5
  | .cleanup (.restores .sigterm) _ => 4
  | .cleanup (.restores .sigint) _ => 3
  | .cleanup .stops _ => 2
  | .cleanup .logs _ => 1
  | _ => 0

end HostRun

end AngzarrClient
