import AngzarrClient.Child
import AngzarrClient.Host.Lifecycle
import AngzarrClient.Lib.Run

/-!
# The child's launch

The launch protocol is a matter of order: the host is started, it is seen `SERVING`, one line
is written, the child serves until it is asked to stop. `AngzarrClient.Child.phase` is that
order, an automaton over what the child does.

What runs is `run_child`, its main thread a program counter over its statements, and around
it, at any time and in any order, health statuses that change, a stdin that ends, signals,
and prints of other code (`AngzarrClient.Child.Launch.act`). Three sources can ask the child
to stop and three blocks can raise, and the `finally` block has to do its part for each.

The child keeps to the protocol in every run, and writes nothing but the line where nothing is
printed, but for three gaps (`AngzarrClient.Child.Launch.protocol_iff`). Between the
restoration of the signal handlers and the call of `host.stop` the `finally` block is not
protected from the handlers it has just restored: a `SIGINT` there raises, and the host is
never stopped. A handler that was not installed from Python cannot be restored, which raises
there too. And the line is written whatever characters the address holds.

`os.write` is taken to write all it is given or to raise, and `os.close` not to fail: a stdout
that takes part of the line, as a full pipe that does not block may, is left out.
-/

namespace AngzarrClient

namespace Child

open Text Utf8

/-! ### What a child does -/

/-- The signals the child handles. -/
inductive Signal where
  | sigterm
  | sigint
  deriving DecidableEq

/-- A signal's disposition. A `python` function returns or raises, as `SIGINT`'s own does; a
`foreign` one was not installed from Python. -/
inductive Handler where
  | requestStop
  | standard
  | ignored
  | python
  | foreign
  deriving DecidableEq

/-- What `signal.signal` gives back of the handler it replaces, `None` for a foreign one. -/
def Handler.saved : Handler → Option Handler
  | .foreign => none
  | handler => some handler

theorem Handler.eq_of_saved {found handler : Handler} (h : found.saved = some handler) :
    found = handler := by
  cases found with
  | foreign => cases h
  | _ => exact Option.some.inj h

/-- What a file descriptor leads to. -/
inductive Stream where
  | stdout
  | stderr
  deriving DecidableEq

/-- What `run_child` raises, or what is raised in it. -/
inductive Raised where
  | failure (failure : Failure)
  | exception (name : String)
  deriving DecidableEq

/-- What `run_child` does to the world. -/
inductive Event where
  | flushed
  | duplicated
  | redirected
  | handled (sig : Signal)
  | watching
  /-- `host.start` is called: nothing is bound before. -/
  | called (address : Str)
  /-- `host.start` returned. -/
  | started (address : Str)
  | observed (status : Option HealthStatus)
  | wrote (line : List UInt8)
  | closed
  | restored (sig : Signal)
  /-- `host.stop` is called. -/
  | stopped
  deriving DecidableEq

/-! ### The protocol -/

/-- How far a launch has got. -/
inductive Phase where
  | silent
  | starting
  | started (address : Str)
  /-- `SERVING` has been observed. -/
  | ready (address : Str)
  | announced (address : Str) (line : List UInt8)
  deriving DecidableEq

namespace Phase

/-- The order of a launch: nothing else may happen, or not then. -/
def next : Phase → Event → Option Phase
  | .silent, .called _ => some .starting
  | .starting, .started address => some (.started address)
  | .started address, .observed status =>
    some (if status = some .serving then .ready address else .started address)
  | .ready address, .wrote line =>
    if encode (handshakeLine address) = some line then some (.announced address line) else none
  | _, .called _ => none
  | _, .started _ => none
  | _, .observed _ => none
  | _, .wrote _ => none
  | phase, _ => some phase

/-- The address the host was started on. -/
def address : Phase → Option Str
  | .silent => none
  | .starting => none
  | .started address => some address
  | .ready address => some address
  | .announced address _ => some address

/-- The bytes a launch has put on stdout. -/
def bytes : Phase → List UInt8
  | .announced _ line => line
  | _ => []

end Phase

/-- The phase a launch is in after what it did, if it did it in order. -/
def phase (trace : List Event) : Option Phase := trace.foldlM Phase.next .silent

@[simp] theorem phase_nil : phase [] = some .silent := rfl

theorem phase_concat (trace : List Event) (event : Event) :
    phase (trace ++ [event]) = (phase trace).bind (·.next event) := by
  rw [phase, List.foldlM_append]
  change ((phase trace).bind fun before => (before.next event).bind some) = _
  exact congrArg _ (funext fun before => Option.bind_fun_some (before.next event))

theorem phase_concat_of {trace : List Event} {before : Phase} (h : phase trace = some before)
    (event : Event) : phase (trace ++ [event]) = before.next event := by
  rw [phase_concat, h, Option.bind_some]

/-- What is in order was in order before. -/
theorem phase_of_concat {trace : List Event} {event : Event} {after : Phase}
    (h : phase (trace ++ [event]) = some after) :
    ∃ before, phase trace = some before ∧ before.next event = some after :=
  Option.bind_eq_some_iff.mp ((phase_concat trace event).symm.trans h)

theorem exists_phase_of_append {pre post : List Event} {after : Phase}
    (h : phase (pre ++ post) = some after) : ∃ before, phase pre = some before := by
  induction post using List.reverseRecOn generalizing after with
  | nil => exact ⟨after, List.append_nil pre ▸ h⟩
  | append_singleton post event ih =>
    obtain ⟨before, hbefore, -⟩ := phase_of_concat (List.append_assoc .. ▸ h)
    exact ih hbefore

namespace Phase

/-- The events a phase is indifferent to. -/
def Ignores : Event → Prop
  | .called _ => False
  | .started _ => False
  | .observed _ => False
  | .wrote _ => False
  | _ => True

theorem next_of_ignores (before : Phase) {event : Event} (h : Ignores event) :
    before.next event = some before := by
  cases event with
  | called _ => exact h.elim
  | started _ => exact h.elim
  | observed _ => exact h.elim
  | wrote _ => exact h.elim
  | _ => cases before <;> rfl

theorem next_observed (address : Str) (status : Option HealthStatus) :
    (started address).next (.observed status) =
      some (if status = some .serving then ready address else started address) := rfl

theorem next_wrote {address : Str} {line : List UInt8}
    (h : encode (handshakeLine address) = some line) :
    (ready address).next (.wrote line) = some (.announced address line) :=
  if_pos h

/-- What one event can do to a phase. -/
theorem next_cases {before after : Phase} {event : Event} (h : before.next event = some after) :
    after = before ∧ (∀ address, event ≠ .called address) ∧
        (∀ address, event ≠ .started address) ∧ (∀ line, event ≠ .wrote line) ∨
      (∃ address, event = .called address) ∧ before = .silent ∧ after = .starting ∨
      (∃ address, event = .started address ∧ before = .starting ∧ after = .started address) ∨
      (∃ address, event = .observed (some .serving) ∧ before = .started address ∧
        after = .ready address) ∨
      ∃ address line, event = .wrote line ∧ encode (handshakeLine address) = some line ∧
        before = .ready address ∧ after = .announced address line := by
  cases event with
  | called address =>
    cases before with
    | silent => exact Or.inr (Or.inl ⟨⟨address, rfl⟩, rfl, (Option.some.inj h).symm⟩)
    | _ => cases h
  | started address =>
    cases before with
    | starting => exact Or.inr (Or.inr (Or.inl ⟨address, rfl, rfl, (Option.some.inj h).symm⟩))
    | _ => cases h
  | observed status =>
    cases before with
    | started address =>
      rw [next] at h
      split at h
      · next hserving =>
        exact Or.inr (Or.inr (Or.inr (Or.inl
          ⟨address, hserving ▸ rfl, rfl, (Option.some.inj h).symm⟩)))
      · exact Or.inl ⟨(Option.some.inj h).symm, fun _ => nofun, fun _ => nofun, fun _ => nofun⟩
    | _ => cases h
  | wrote line =>
    cases before with
    | ready address =>
      rw [next] at h
      split at h
      · next hline =>
        exact Or.inr (Or.inr (Or.inr (Or.inr
          ⟨address, line, rfl, hline, rfl, (Option.some.inj h).symm⟩)))
      · cases h
    | _ => cases h
  | _ =>
    refine Or.inl ⟨?_, fun _ => nofun, fun _ => nofun, fun _ => nofun⟩
    cases before <;> exact (Option.some.inj h).symm

end Phase

/-- **The address of a phase is the one the host was started on**, and no other was. -/
theorem started_mem_iff {trace : List Event} {after : Phase} (h : phase trace = some after)
    (address : Str) : .started address ∈ trace ↔ after.address = some address := by
  induction trace using List.reverseRecOn generalizing after with
  | nil =>
    obtain rfl := Option.some.inj h
    exact iff_of_false List.not_mem_nil nofun
  | append_singleton trace event ih =>
    obtain ⟨before, hbefore, hnext⟩ := phase_of_concat h
    rw [List.mem_append, List.mem_singleton, ih hbefore]
    rcases Phase.next_cases hnext with ⟨rfl, -, hstarted, -⟩ | ⟨⟨address', rfl⟩, rfl, rfl⟩ |
      ⟨address', rfl, rfl, rfl⟩ | ⟨address', rfl, rfl, rfl⟩ | ⟨address', line, rfl, -, rfl, rfl⟩
    · exact or_iff_left fun heq => hstarted address heq.symm
    · simp [Phase.address]
    · simp [Phase.address, eq_comm]
    · simp [Phase.address]
    · simp [Phase.address]

/-- A launch is silent until the host's start is called. -/
theorem called_not_mem {trace : List Event} (h : phase trace = some .silent) (address : Str) :
    .called address ∉ trace := by
  induction trace using List.reverseRecOn with
  | nil => exact List.not_mem_nil
  | append_singleton trace event ih =>
    obtain ⟨before, hbefore, hnext⟩ := phase_of_concat h
    rcases Phase.next_cases hnext with ⟨rfl, hcalled, -⟩ | ⟨-, -, hafter⟩ | ⟨_, -, -, hafter⟩ |
      ⟨_, -, -, hafter⟩ | ⟨_, _, -, -, -, hafter⟩
    · intro hmem
      rcases List.mem_append.mp hmem with hmem | hmem
      · exact ih hbefore hmem
      · exact hcalled address (List.mem_singleton.mp hmem).symm
    · cases hafter
    · cases hafter
    · cases hafter
    · cases hafter

theorem silent_of_not_called {trace : List Event} {after : Phase} (h : phase trace = some after)
    (hcalled : ∀ address, .called address ∉ trace) : after = .silent := by
  induction trace using List.reverseRecOn generalizing after with
  | nil => exact (Option.some.inj h).symm
  | append_singleton trace event ih =>
    obtain ⟨before, hbefore, hnext⟩ := phase_of_concat h
    obtain rfl := ih hbefore fun address hmem => hcalled address (List.mem_append_left _ hmem)
    rcases Phase.next_cases hnext with ⟨rfl, -⟩ | ⟨⟨address, rfl⟩, -⟩ | ⟨_, -, hbefore, -⟩ |
      ⟨_, -, hbefore, -⟩ | ⟨_, _, -, -, hbefore, -⟩
    · rfl
    · exact absurd (List.mem_append_right _ (List.mem_cons_self ..)) (hcalled address)
    · cases hbefore
    · cases hbefore
    · cases hbefore

/-- What a launch has announced is a handshake line. -/
theorem line_of_announced {trace : List Event} {address : Str} {line : List UInt8}
    (h : phase trace = some (.announced address line)) :
    encode (handshakeLine address) = some line := by
  induction trace using List.reverseRecOn with
  | nil => cases h
  | append_singleton trace event ih =>
    obtain ⟨before, hbefore, hnext⟩ := phase_of_concat h
    rcases Phase.next_cases hnext with ⟨rfl, -⟩ | ⟨-, -, hafter⟩ | ⟨_, -, -, hafter⟩ |
      ⟨_, -, -, hafter⟩ | ⟨address', line', -, hline, -, hafter⟩
    · exact ih hbefore
    · cases hafter
    · cases hafter
    · cases hafter
    · obtain ⟨rfl, rfl⟩ := Phase.announced.inj hafter
      exact hline

/-- A launch that is ready saw `SERVING` after its start. -/
theorem ready_of_phase {trace : List Event} {address : Str}
    (h : phase trace = some (.ready address)) :
    ∃ before polls, trace = before ++ .started address :: polls ∧
      .observed (some .serving) ∈ polls := by
  induction trace using List.reverseRecOn with
  | nil => cases h
  | append_singleton trace event ih =>
    obtain ⟨before, hbefore, hnext⟩ := phase_of_concat h
    rcases Phase.next_cases hnext with ⟨rfl, -⟩ | ⟨-, -, hafter⟩ | ⟨_, -, -, hafter⟩ |
      ⟨address', rfl, rfl, hafter⟩ | ⟨_, _, -, -, -, hafter⟩
    · obtain ⟨before, polls, rfl, hmem⟩ := ih hbefore
      exact ⟨before, polls ++ [event], by simp, List.mem_append_left _ hmem⟩
    · cases hafter
    · cases hafter
    · obtain rfl := Phase.ready.inj hafter
      obtain ⟨before, polls, rfl⟩ :=
        List.append_of_mem ((started_mem_iff hbefore address).mpr rfl)
      exact ⟨before, polls ++ [.observed (some .serving)], by simp,
        List.mem_append_right _ (List.mem_cons_self ..)⟩
    · cases hafter

/-- **A line is written of a launch that is ready.** -/
theorem ready_of_wrote {pre post : List Event} {line : List UInt8} {after : Phase}
    (h : phase (pre ++ .wrote line :: post) = some after) :
    ∃ address, phase pre = some (.ready address) ∧
      encode (handshakeLine address) = some line := by
  have hsplit : pre ++ .wrote line :: post = pre ++ [.wrote line] ++ post := by simp
  obtain ⟨written, hwritten⟩ := exists_phase_of_append (hsplit ▸ h)
  obtain ⟨before, hbefore, hnext⟩ := phase_of_concat hwritten
  rcases Phase.next_cases hnext with ⟨-, -, -, hwrote⟩ | ⟨⟨_, heq⟩, -⟩ | ⟨_, heq, -⟩ |
    ⟨_, heq, -⟩ | ⟨address, line', heq, hline, rfl, -⟩
  · exact absurd rfl (hwrote line)
  · cases heq
  · cases heq
  · cases heq
  · obtain rfl := Event.wrote.inj heq
    exact ⟨address, hbefore, hline⟩

/-- A launch that has announced itself has done so once and for all. -/
theorem phase_append_announced {pre post : List Event} {address : Str} {line : List UInt8}
    {after : Phase} (hpre : phase pre = some (.announced address line))
    (h : phase (pre ++ post) = some after) : after = .announced address line := by
  induction post using List.reverseRecOn generalizing after with
  | nil =>
    rw [List.append_nil, hpre] at h
    exact (Option.some.inj h).symm
  | append_singleton post event ih =>
    obtain ⟨before, hbefore, hnext⟩ := phase_of_concat (List.append_assoc .. ▸ h)
    obtain rfl := ih hbefore
    rcases Phase.next_cases hnext with ⟨rfl, -⟩ | ⟨-, hbefore, -⟩ | ⟨_, -, hbefore, -⟩ |
      ⟨_, -, hbefore, -⟩ | ⟨_, _, -, -, hbefore, -⟩
    · rfl
    · cases hbefore
    · cases hbefore
    · cases hbefore
    · cases hbefore

/-! ### `run_child` -/

/-- The statements before the `try`. -/
inductive Setup where
  | encodes
  | flushes
  | duplicates
  | redirects
  | handles (sig : Signal)
  | watches

/-- The statements of the `try` block. -/
inductive Serving where
  /-- `host.start(address)` is about to be called, -/
  | calls
  /-- and runs. -/
  | starts
  /-- `while host.health_status() != _SERVING` -/
  | polls
  /-- `if stopping.wait(0.01)` -/
  | waits
  | logs
  | writes
  | closes
  /-- `handshake_fd = -1` -/
  | forgets
  /-- `while not stopping.wait(0.2)` -/
  | serves

/-- The statements of the `finally` block. -/
inductive Cleanup where
  | closes
  | restores (sig : Signal)
  /-- `host.stop(grace)` is about to be called, -/
  | stops
  /-- and runs. -/
  | stopping

/-- Where the main thread stands: before a statement, of the `finally` block with what the
`try` block raised, or at an end. -/
inductive Pc where
  | setup (line : Setup)
  | serving (line : Serving)
  | cleanup (line : Cleanup) (pending : Option Raised)
  | returned
  | raised (exc : Raised)
  | killed

/-- `run_child` has returned or raised. -/
def Pc.Left : Pc → Prop
  | .returned => True
  | .raised _ => True
  | _ => False

/-- The process as `run_child`'s main thread alone changes it. -/
structure Process where
  pc : Pc
  /-- `address`. -/
  address : Str
  /-- `handshake_fd >= 0`. -/
  handshakeFd : Bool
  /-- The duplicate of the original stdout is open. -/
  duplicate : Bool
  /-- What file descriptor 1 leads to. -/
  fd1 : Stream
  handlers : Signal → Handler
  /-- `previous`. -/
  previous : Signal → Option Handler
  /-- What `run_child` has done. -/
  trace : List Event

namespace Process

/-- The process does something, and its main thread goes on to a statement. -/
def proceed (p : Process) (event : Event) (pc : Pc) : Process :=
  { p with trace := p.trace ++ [event], pc := pc }

/-- An exception leaves the statement that runs: of the `try` block to the `finally` block,
and elsewhere out of `run_child`. -/
def raise (p : Process) (exc : Raised) : Process :=
  match p.pc with
  | .setup _ => { p with pc := .raised exc }
  | .serving _ => { p with pc := .cleanup .closes (some exc) }
  | .cleanup _ _ => { p with pc := .raised exc }
  | _ => p

end Process

/-- A launch: the process, and what changes around it. -/
structure Launch where
  process : Process
  /-- The event `stopping`. -/
  stopping : Bool
  /-- The stdin watcher runs. -/
  watching : Bool
  /-- stdin has reached its end, or cannot be read. -/
  stdinEnded : Bool
  /-- `host.health_status()`. -/
  health : Option HealthStatus
  /-- What is printed and not flushed. -/
  buffer : List UInt8
  /-- The bytes on the original stdout. -/
  stdout : List UInt8
  stderr : List UInt8
  /-- Those of the bytes on the original stdout that were printed. -/
  printed : List UInt8

/-- What happens to a launch: the main thread's next statement, the call in it coming to
`outcome` where it makes one that can fail; a signal, whose handler, where it is a Python
function, raises or not; and what the rest of the world does. -/
inductive Action where
  | main (outcome : Except Raised Str)
  | signal (sig : Signal) (raised : Option Raised)
  | health (status : Option HealthStatus)
  | stdinEnds
  /-- `_watch_stdin` sets `stopping`. -/
  | watched
  | prints (bytes : List UInt8)
  | flushes

namespace Launch

/-- A process that calls `run_child` with some handlers installed and something printed, the
socket path resolved. -/
def new (path : Str) (handlers : Signal → Handler) (buffer : List UInt8) : Launch where
  process :=
    { pc := .setup .encodes
      address := addressScheme ++ path
      handshakeFd := false
      duplicate := false
      fd1 := .stdout
      handlers := handlers
      previous := fun _ => none
      trace := [] }
  stopping := false
  watching := false
  stdinEnded := false
  health := none
  buffer := buffer
  stdout := []
  stderr := []
  printed := []

/-- What is printed goes where file descriptor 1 leads. -/
def flush (s : Launch) : Launch :=
  match s.process.fd1 with
  | .stdout =>
    { s with stdout := s.stdout ++ s.buffer, printed := s.printed ++ s.buffer, buffer := [] }
  | .stderr => { s with stderr := s.stderr ++ s.buffer, buffer := [] }

/-- What `run_child` raises of an address that is not UTF-8. -/
def refusal (address : Str) : Failure :=
  match encodeEscaped (handshakeLine address) with
  | some line => malformed (escaped (removeSuffix [byte '\n'] line))
  | none => .unicodeEncode

/-- A statement before the `try`. -/
def setup (s : Launch) (outcome : Except Raised Str) : Setup → Launch
  | .encodes =>
    match encode s.process.address with
    | none => { s with process := s.process.raise (.failure (refusal s.process.address)) }
    | some _ => { s with process.pc := .setup .flushes }
  | .flushes =>
    match outcome with
    | .error exc => { s with process := s.process.raise exc }
    | .ok _ =>
      { s.flush with process := s.process.proceed .flushed (.setup .duplicates) }
  | .duplicates =>
    match outcome with
    | .error exc => { s with process := s.process.raise exc }
    | .ok _ =>
      { s with
        process := { s.process with handshakeFd := true, duplicate := true }.proceed .duplicated
          (.setup .redirects) }
  | .redirects =>
    match outcome with
    | .error exc => { s with process := s.process.raise exc }
    | .ok _ =>
      { s with
        process := { s.process with fd1 := .stderr }.proceed .redirected
          (.setup (.handles .sigterm)) }
  | .handles sig =>
    { s with
      process := { s.process with
        handlers := Function.update s.process.handlers sig .requestStop
        previous := Function.update s.process.previous sig (s.process.handlers sig).saved }.proceed
          (.handled sig) (match sig with
            | .sigterm => .setup (.handles .sigint)
            | .sigint => .setup .watches) }
  | .watches =>
    match outcome with
    | .error exc => { s with process := s.process.raise exc }
    | .ok _ => { s with watching := true, process := s.process.proceed .watching (.serving .calls) }

/-- A statement of the `try` block. -/
def serve (s : Launch) (outcome : Except Raised Str) : Serving → Launch
  | .calls =>
    { s with process := s.process.proceed (.called s.process.address) (.serving .starts) }
  | .starts =>
    match outcome with
    | .error exc => { s with process := s.process.raise exc }
    | .ok address =>
      { s with
        process := { s.process with address := address }.proceed (.started address)
          (.serving .polls) }
  | .polls =>
    { s with
      process := s.process.proceed (.observed s.health)
        (.serving (if s.health = some .serving then .logs else .waits)) }
  | .waits =>
    if s.stopping = true then { s with process.pc := .cleanup .closes none }
    else { s with process.pc := .serving .polls }
  | .logs =>
    match outcome with
    | .error exc => { s with process := s.process.raise exc }
    | .ok _ => { s with process.pc := .serving .writes }
  | .writes =>
    match encode (handshakeLine s.process.address) with
    | none => { s with process := s.process.raise (.failure .unicodeEncode) }
    | some line =>
      match outcome with
      | .error exc => { s with process := s.process.raise exc }
      | .ok _ =>
        { s with
          stdout := s.stdout ++ line
          process := s.process.proceed (.wrote line) (.serving .closes) }
  | .closes =>
    { s with
      process := { s.process with duplicate := false }.proceed .closed (.serving .forgets) }
  | .forgets =>
    { s with process := { s.process with handshakeFd := false, pc := .serving .serves } }
  | .serves =>
    if s.stopping = true then { s with process.pc := .cleanup .closes none } else s

/-- A statement of the `finally` block. -/
def clean (s : Launch) (outcome : Except Raised Str) (pending : Option Raised) : Cleanup → Launch
  | .closes =>
    if s.process.handshakeFd = true then
      { s with
        process := { s.process with duplicate := false }.proceed .closed
          (.cleanup (.restores .sigterm) pending) }
    else { s with process.pc := .cleanup (.restores .sigterm) pending }
  | .restores sig =>
    match s.process.previous sig with
    | none => { s with process := s.process.raise (.exception "TypeError") }
    | some handler =>
      { s with
        process := { s.process with
          handlers := Function.update s.process.handlers sig handler }.proceed (.restored sig)
            (match sig with
              | .sigterm => .cleanup (.restores .sigint) pending
              | .sigint => .cleanup .stops pending) }
  | .stops => { s with process := s.process.proceed .stopped (.cleanup .stopping pending) }
  | .stopping =>
    match outcome with
    | .error exc => { s with process := s.process.raise exc }
    | .ok _ =>
      match pending with
      | none => { s with process.pc := .returned }
      | some exc => { s with process.pc := .raised exc }

/-- A signal's handler runs, on the main thread between two of its statements or in one. -/
def deliver (s : Launch) (sig : Signal) (raised : Option Raised) : Launch :=
  match s.process.handlers sig with
  | .requestStop => { s with stopping := true }
  | .standard => { s with process.pc := .killed }
  | .ignored => s
  | .foreign => s
  | .python =>
    match raised with
    | none => s
    | some exc => { s with process := s.process.raise exc }

/-- The main thread's next statement. -/
def main (s : Launch) (outcome : Except Raised Str) : Launch :=
  match s.process.pc with
  | .setup line => s.setup outcome line
  | .serving line => s.serve outcome line
  | .cleanup line pending => s.clean outcome pending line
  | _ => s

/-- `run_child` is still running. -/
def running (s : Launch) : Bool :=
  match s.process.pc with
  | .setup _ => true
  | .serving _ => true
  | .cleanup _ _ => true
  | _ => false

/-- The launch after something happened, up to the end of `run_child`. -/
def act (s : Launch) (action : Action) : Launch :=
  if s.running = true then
    match action with
    | .main outcome => s.main outcome
    | .signal sig raised => s.deliver sig raised
    | .health status => { s with health := status }
    | .stdinEnds => { s with stdinEnded := true }
    | .watched => { s with stopping := s.stopping || (s.watching && s.stdinEnded) }
    | .prints bytes => { s with buffer := s.buffer ++ bytes }
    | .flushes => s.flush
  else s

/-- The launch after a sequence of actions. -/
def run (s : Launch) (actions : List Action) : Launch := Run.run act s actions

/-! ### What a launch keeps to -/

end Launch

/-- **A handshake line that names an address**: one line, and without its ending the header and
the address. -/
structure Names (address : Str) (line : List UInt8) : Prop where
  encodes : encode (handshakeLine address) = some line
  one : firstLine line = line
  names : stripped (handshakeLine address) = header ++ address

/-- A string that is not empty ends as the header and it do. -/
theorem singleton_suffix_header {c : CodePoint} (hc : c ≠ space) (address : Str) :
    [c] <:+ header ++ address ↔ [c] <:+ address := by
  rcases List.eq_nil_or_concat address with rfl | ⟨front, last, rfl⟩
  · have hheader : header = handshakePrefix ++ space :: protocolVersion ++ [space] := by
      simp [header]
    rw [List.append_nil, hheader, singleton_suffix_concat]
    exact iff_of_false hc fun h => List.cons_ne_nil _ _ (List.suffix_nil.mp h)
  · rw [List.concat_eq_append, ← List.append_assoc, singleton_suffix_concat,
      singleton_suffix_concat]

/-- **The line of an address names it** when the address can be named. -/
theorem names_iff {address : Str} {line : List UInt8}
    (h : encode (handshakeLine address) = some line) : Names address line ↔ Nameable address := by
  have hline := handshakeLine_eq address
  obtain ⟨bytes, ending, hbytes, hending, rfl⟩ := encode_append_eq_some.mp (hline ▸ h)
  have hone : encode [lf] = some [byte '\n'] := rfl
  obtain rfl := Option.some.inj (hone.symm.trans hending)
  have hmem : byte '\n' ∈ bytes ↔ lf ∈ address := by
    rw [byte_mem_encode_iff hbytes (by decide), List.mem_append]
    exact or_iff_right (by decide)
  have hfirst : firstLine (bytes ++ [byte '\n']) = bytes ++ [byte '\n'] ↔ lf ∉ address := by
    rw [← hmem]
    constructor
    · intro heq hfeed
      obtain ⟨pre, rest, rfl, hpre⟩ := List.eq_append_cons_of_mem hfeed
      rw [List.append_assoc, List.cons_append, firstLine_append hpre] at heq
      have hlength := congrArg List.length heq
      simp only [List.length_append, List.length_cons, List.length_nil] at hlength
      omega
    · exact fun hfeed => firstLine_append hfeed []
  have hstripped : stripped (handshakeLine address) = header ++ address ↔ ¬[cr] <:+ address := by
    rw [hline, stripped, removeSuffix_append,
      removeSuffix_eq_self_iff (List.cons_ne_nil cr []), singleton_suffix_header (by decide)]
  exact ⟨fun hnames => ⟨hfirst.mp hnames.one, hstripped.mp hnames.names⟩,
    fun hnameable => ⟨h, hfirst.mpr hnameable.1, hstripped.mpr hnameable.2⟩⟩

theorem line_ne_nil {address : Str} {line : List UInt8}
    (h : encode (handshakeLine address) = some line) : line ≠ [] := by
  have hline := handshakeLine_eq address
  obtain ⟨bytes, ending, -, hending, rfl⟩ := encode_append_eq_some.mp (hline ▸ h)
  have hone : encode [lf] = some [byte '\n'] := rfl
  obtain rfl := Option.some.inj (hone.symm.trans hending)
  exact List.concat_ne_nil _ _

/-- What `run_child` leaves when it ends: the original stdout closed, `host.stop` called once
and the handlers it found restored. -/
structure Orderly (handlers : Signal → Handler) (p : Process) : Prop where
  fd1 : p.fd1 ≠ .stdout
  duplicate : p.duplicate = false
  stopped : p.trace.count .stopped = 1
  handlers : p.handlers = handlers

namespace Launch

/-- **The child's launch protocol**, of a launch on a path with some handlers found. -/
structure Protocol (path : Str) (handlers : Signal → Handler) (s : Launch) : Prop where
  /-- After what was printed, stdout holds nothing or one line that names the address the host
  was started on. -/
  bytes : s.stdout = s.printed ∨ ∃ address line,
    (∀ address', .started address' ∈ s.process.trace ↔ address' = address) ∧
      Names address line ∧ s.stdout = s.printed ++ line
  /-- The line is written after the start returned and `SERVING` was observed. -/
  warranted : ∀ pre line post, s.process.trace = pre ++ .wrote line :: post →
    ∃ address before polls, pre = before ++ .started address :: polls ∧
      .observed (some .serving) ∈ polls
  /-- A path that is not UTF-8 is refused before anything is done. -/
  refused : encode (addressScheme ++ path) = none →
    s.process.trace = [] ∧ s.process.fd1 = .stdout ∧ s.process.handlers = handlers ∧
      s.stdout = s.printed ∧
      ((∃ failure, announce path = .error failure ∧ s.process.pc = .setup .encodes ∧
          ∀ outcome, (s.act (.main outcome)).process.pc = .raised (.failure failure)) ∨
        s.process.pc = .killed ∨ ∃ exc, s.process.pc = .raised exc)
  /-- A run that attempted a start ends in order, whichever way it ends. -/
  orderly : s.process.pc.Left → (∃ address, .called address ∈ s.process.trace) →
    Orderly handlers s.process

/-- The original stdout holds nothing, or one line that names the address the host was started
on. -/
def HandshakeAlone (s : Launch) : Prop :=
  s.stdout = [] ∨ ∃ address line,
    (∀ address', .started address' ∈ s.process.trace ↔ address' = address) ∧
      Names address line ∧ s.stdout = line

theorem Protocol.handshakeAlone {path : Str} {handlers : Signal → Handler} {s : Launch}
    (h : s.Protocol path handlers) (hprinted : s.printed = []) : s.HandshakeAlone := by
  have hbytes := h.bytes
  rw [hprinted] at hbytes
  exact hbytes

/-- **What keeps a launch to its protocol**: no handler raises between its restoration and the
call of `host.stop`, none that was found is foreign, and the address a line is written of can
be named. -/
structure Undisturbed (s : Launch) (action : Action) : Prop where
  handlers : ∀ sig exc line pending, action = .signal sig (some exc) →
    s.process.pc = .cleanup line pending → line ≠ .stopping → s.process.handlers sig ≠ .python
  found : ∀ sig pending outcome, action = .main outcome →
    s.process.pc = .cleanup (.restores sig) pending → s.process.previous sig ≠ none
  named : ∀ value, action = .main (.ok value) → s.process.pc = .serving .writes →
    encode (handshakeLine s.process.address) ≠ none → Nameable s.process.address

end Launch

/-! ### The invariant of a launch -/

/-- What the process holds once its setup is done. -/
structure Held (handlers : Signal → Handler) (p : Process) : Prop where
  fd1 : p.fd1 = .stderr
  previous : p.previous = fun sig => (handlers sig).saved

/-- It is held by any process with the same file and the same saved handlers. -/
theorem Held.of_eq {handlers : Signal → Handler} {p p' : Process} (h : Held handlers p)
    (hfd1 : p'.fd1 = p.fd1) (hprevious : p'.previous = p.previous) : Held handlers p' :=
  ⟨hfd1.trans h.fd1, hprevious.trans h.previous⟩

/-- Two functions of the signals are one when they agree on both. -/
theorem Signal.funext {α : Type} {f g : Signal → α} (hsigterm : f .sigterm = g .sigterm)
    (hsigint : f .sigint = g .sigint) : f = g := by
  funext sig
  cases sig with
  | sigterm => exact hsigterm
  | sigint => exact hsigint

/-- A host that was not stopped is not stopped by another event. -/
theorem stopped_not_mem_concat {trace : List Event} {event : Event}
    (h : .stopped ∉ trace) (hne : .stopped ≠ event) : .stopped ∉ trace ++ [event] := by
  rw [List.mem_append, List.mem_singleton]
  exact not_or.mpr ⟨h, hne⟩

/-- What holds before a statement of the setup. -/
def Setup.Stands (handlers : Signal → Handler) (p : Process) : Setup → Prop
  | .handles .sigterm => p.fd1 = .stderr ∧ p.handlers = handlers
  | .handles .sigint =>
    p.fd1 = .stderr ∧ p.handlers = Function.update handlers .sigterm .requestStop ∧
      p.previous .sigterm = (handlers .sigterm).saved
  | .watches => Held handlers p ∧ p.handlers = fun _ => .requestStop
  | _ => p.handlers = handlers

/-- What holds before a statement of the `try` block. -/
def Serving.Stands (p : Process) : Serving → Prop
  | .calls => phase p.trace = some .silent
  | .starts => phase p.trace = some .starting
  | .polls => phase p.trace = some (.started p.address)
  | .waits => phase p.trace = some (.started p.address)
  | .logs => phase p.trace = some (.ready p.address)
  | .writes => phase p.trace = some (.ready p.address)
  | .closes => ∃ line, phase p.trace = some (.announced p.address line)
  | .forgets => p.duplicate = false ∧ ∃ line, phase p.trace = some (.announced p.address line)
  | .serves => ∃ line, phase p.trace = some (.announced p.address line)

/-- What holds before a statement of the `finally` block. -/
def Cleanup.Stands (handlers : Signal → Handler) (p : Process) : Cleanup → Prop
  | .closes => p.handlers = (fun _ => .requestStop) ∧ .stopped ∉ p.trace
  | .restores .sigterm =>
    p.handlers = (fun _ => .requestStop) ∧ p.duplicate = false ∧ .stopped ∉ p.trace
  | .restores .sigint =>
    p.handlers = Function.update (fun _ => .requestStop) .sigterm (handlers .sigterm) ∧
      p.duplicate = false ∧ .stopped ∉ p.trace
  | .stops => p.handlers = handlers ∧ p.duplicate = false ∧ .stopped ∉ p.trace
  | .stopping => Orderly handlers p

/-- What holds where the main thread stands. -/
def Process.Stands (handlers : Signal → Handler) (p : Process) : Prop :=
  match p.pc with
  | .setup line => phase p.trace = some .silent ∧ .stopped ∉ p.trace ∧ line.Stands handlers p
  | .serving line =>
    Held handlers p ∧ p.handlers = (fun _ => .requestStop) ∧ .stopped ∉ p.trace ∧ line.Stands p
  | .cleanup line _ =>
    Held handlers p ∧ phase p.trace ≠ some .silent ∧ line.Stands handlers p
  | .returned => Orderly handlers p
  | .raised _ => True
  | .killed => True

namespace Launch

/-- **The invariant of a launch**: what it did is in the protocol's order, what it wrote is what
the order says, and each statement finds what the ones before it left. -/
structure Sound (handlers : Signal → Handler) (s : Launch) : Prop where
  phased : ∃ now, phase s.process.trace = some now ∧ s.stdout = s.printed ++ now.bytes ∧
    (s.process.fd1 = .stdout → now = .silent)
  fd : s.process.duplicate = true → s.process.handshakeFd = true
  stands : s.process.Stands handlers

variable {handlers : Signal → Handler} {s : Launch}

theorem sound_new (path : Str) (handlers : Signal → Handler) (buffer : List UInt8) :
    Sound handlers (new path handlers buffer) where
  phased := ⟨.silent, rfl, rfl, fun _ => rfl⟩
  fd := nofun
  stands := ⟨rfl, List.not_mem_nil, rfl⟩

theorem process_flush (s : Launch) : s.flush.process = s.process := by
  unfold Launch.flush
  split <;> rfl

/-- What is printed lands on the original stdout before the redirection alone. -/
theorem Sound.flush (h : s.Sound handlers) : s.flush.Sound handlers := by
  unfold Launch.flush
  split
  · next hfd1 =>
    obtain ⟨now, hnow, hbytes, hsilent⟩ := h.phased
    obtain rfl := hsilent hfd1
    refine ⟨⟨.silent, hnow, ?_, hsilent⟩, h.fd, h.stands⟩
    change s.stdout ++ s.buffer = s.printed ++ s.buffer ++ []
    rw [hbytes, List.append_nil]
    exact congrArg (· ++ s.buffer) (List.append_nil s.printed)
  · exact ⟨h.phased, h.fd, h.stands⟩

/-- An event the protocol is indifferent to leaves what is in order in order. -/
theorem Sound.phased_concat (h : s.Sound handlers) (event : Event)
    (hignores : Phase.Ignores event) {fd1 : Stream}
    (hfd1 : fd1 = .stdout → s.process.fd1 = .stdout) :
    ∃ now, phase (s.process.trace ++ [event]) = some now ∧ s.stdout = s.printed ++ now.bytes ∧
      (fd1 = .stdout → now = .silent) := by
  obtain ⟨now, hnow, hbytes, hsilent⟩ := h.phased
  refine ⟨now, ?_, hbytes, fun hstdout => hsilent (hfd1 hstdout)⟩
  rw [phase_concat_of hnow]
  exact now.next_of_ignores hignores

/-- What is raised in the `try` block once the start was called leads to the `finally` block. -/
theorem Sound.raise (h : s.Sound handlers)
    (hcalled : ∀ line, s.process.pc = .serving line → phase s.process.trace ≠ some .silent)
    (exc : Raised) : ({ s with process := s.process.raise exc } : Launch).Sound handlers := by
  have hstands := h.stands
  unfold Process.raise
  unfold Process.Stands at hstands
  split
  · exact ⟨h.phased, h.fd, trivial⟩
  · next line hpc =>
    rw [hpc] at hstands
    obtain ⟨hheld, hhandlers, hstopped, -⟩ := hstands
    exact ⟨h.phased, h.fd, hheld.of_eq rfl rfl, hcalled line hpc, hhandlers, hstopped⟩
  · exact ⟨h.phased, h.fd, trivial⟩
  · exact h

/-- What is raised before the `try` leaves `run_child`. -/
theorem Sound.raise_setup (h : s.Sound handlers) {line : Setup}
    (hpc : s.process.pc = .setup line) (exc : Raised) :
    ({ s with process := s.process.raise exc } : Launch).Sound handlers :=
  h.raise (fun _ hserving => by rw [hpc] at hserving; cases hserving) exc

theorem Sound.setup (h : s.Sound handlers) (outcome : Except Raised Str) {line : Setup}
    (hpc : s.process.pc = .setup line) : (s.setup outcome line).Sound handlers := by
  have hstands := h.stands
  rw [Process.Stands, hpc] at hstands
  obtain ⟨hsilent, hstopped, hline⟩ := hstands
  have hnext {event : Event} (hignores : Phase.Ignores event) :
      phase (s.process.trace ++ [event]) = some .silent := by
    rw [phase_concat_of hsilent]
    exact Phase.next_of_ignores _ hignores
  have hnot {event : Event} : .stopped ≠ event → .stopped ∉ s.process.trace ++ [event] :=
    stopped_not_mem_concat hstopped
  cases line with
  | encodes =>
    unfold Launch.setup
    dsimp only
    split
    · exact h.raise_setup hpc _
    · exact ⟨h.phased, h.fd, hsilent, hstopped, hline⟩
  | flushes =>
    cases outcome with
    | error exc => exact h.raise_setup hpc exc
    | ok _ =>
      obtain ⟨now, hnow, hbytes, hfd1⟩ := h.flush.phased
      rw [process_flush] at hnow hfd1
      rw [hsilent] at hnow
      obtain rfl := Option.some.inj hnow
      exact ⟨⟨.silent, hnext trivial, hbytes, hfd1⟩, h.fd, hnext trivial, hnot nofun, hline⟩
  | duplicates =>
    cases outcome with
    | error exc => exact h.raise_setup hpc exc
    | ok _ =>
      exact ⟨h.phased_concat .duplicated trivial id, fun _ => rfl, hnext trivial, hnot nofun, hline⟩
  | redirects =>
    cases outcome with
    | error exc => exact h.raise_setup hpc exc
    | ok _ =>
      exact ⟨h.phased_concat .redirected trivial nofun, h.fd, hnext trivial, hnot nofun, rfl, hline⟩
  | handles sig =>
    cases sig with
    | sigterm =>
      obtain ⟨hfd1, hhandlers⟩ := hline
      refine ⟨h.phased_concat (.handled .sigterm) trivial id, h.fd, hnext trivial, hnot nofun,
        hfd1, ?_, ?_⟩
      · exact congrArg (Function.update · Signal.sigterm Handler.requestStop) hhandlers
      · exact congrArg (fun found => (found Signal.sigterm).saved) hhandlers
    | sigint =>
      obtain ⟨hfd1, hhandlers, hprevious⟩ := hline
      refine ⟨h.phased_concat (.handled .sigint) trivial id, h.fd, hnext trivial, hnot nofun,
        ⟨hfd1, ?_⟩, ?_⟩
      · refine Signal.funext hprevious ?_
        exact congrArg (fun found => (found Signal.sigint).saved) hhandlers
      · exact Signal.funext (congrFun hhandlers .sigterm) rfl
  | watches =>
    cases outcome with
    | error exc => exact h.raise_setup hpc exc
    | ok _ =>
      obtain ⟨hheld, hhandlers⟩ := hline
      exact ⟨h.phased_concat .watching trivial id, h.fd, hheld.of_eq rfl rfl, hhandlers,
        hnot nofun, hnext trivial⟩

theorem Sound.serve (h : s.Sound handlers) (outcome : Except Raised Str) {line : Serving}
    (hpc : s.process.pc = .serving line) : (s.serve outcome line).Sound handlers := by
  have hstands := h.stands
  rw [Process.Stands, hpc] at hstands
  obtain ⟨hheld, hhandlers, hstopped, hline⟩ := hstands
  have hbytes {before : Phase} (hbefore : phase s.process.trace = some before) :
      s.stdout = s.printed ++ before.bytes := by
    obtain ⟨now, hnow, hbytes, -⟩ := h.phased
    rw [hbefore] at hnow
    exact Option.some.inj hnow ▸ hbytes
  have hdirected {after : Phase} (hstdout : s.process.fd1 = .stdout) : after = .silent :=
    absurd (hheld.fd1.symm.trans hstdout) nofun
  have hnot {event : Event} : .stopped ≠ event → .stopped ∉ s.process.trace ++ [event] :=
    stopped_not_mem_concat hstopped
  -- a raise, of a statement that is reached once the start is called
  have hraise {before : Phase} (hbefore : phase s.process.trace = some before)
      (hne : before ≠ .silent) (exc : Raised) :
      ({ s with process := s.process.raise exc } : Launch).Sound handlers := by
    refine h.raise (fun _ _ hsilent => hne ?_) exc
    exact Option.some.inj (hbefore.symm.trans hsilent)
  -- the end of the block, reached while it polls or serves
  have hleave {before : Phase} (hbefore : phase s.process.trace = some before)
      (hne : before ≠ .silent) :
      ({ s with process.pc := .cleanup .closes none } : Launch).Sound handlers := by
    refine ⟨h.phased, h.fd, hheld.of_eq rfl rfl, fun hsilent => hne ?_, hhandlers, hstopped⟩
    exact Option.some.inj (hbefore.symm.trans hsilent)
  cases line with
  | calls =>
    have hafter := phase_concat_of hline (.called s.process.address)
    have hsame := hbytes hline
    exact ⟨⟨_, hafter, hsame, hdirected⟩, h.fd, hheld.of_eq rfl rfl, hhandlers, hnot nofun, hafter⟩
  | starts =>
    cases outcome with
    | error exc => exact hraise hline nofun exc
    | ok address =>
      have hafter := phase_concat_of hline (.started address)
      have hsame := hbytes hline
      exact ⟨⟨_, hafter, hsame, hdirected⟩, h.fd, hheld.of_eq rfl rfl, hhandlers,
        hnot nofun, hafter⟩
  | polls =>
    have hafter := phase_concat_of hline (.observed s.health)
    have hsame := hbytes hline
    rw [Phase.next_observed] at hafter
    unfold Launch.serve
    dsimp only
    by_cases hserving : s.health = some .serving
    · rw [if_pos hserving] at hafter ⊢
      exact ⟨⟨_, hafter, hsame, hdirected⟩, h.fd, hheld.of_eq rfl rfl, hhandlers, hnot nofun,
        hafter⟩
    · rw [if_neg hserving] at hafter ⊢
      exact ⟨⟨_, hafter, hsame, hdirected⟩, h.fd, hheld.of_eq rfl rfl, hhandlers, hnot nofun,
        hafter⟩
  | waits =>
    unfold Launch.serve
    dsimp only
    split
    · exact hleave hline nofun
    · exact ⟨h.phased, h.fd, hheld.of_eq rfl rfl, hhandlers, hstopped, hline⟩
  | logs =>
    cases outcome with
    | error exc => exact hraise hline nofun exc
    | ok _ => exact ⟨h.phased, h.fd, hheld.of_eq rfl rfl, hhandlers, hstopped, hline⟩
  | writes =>
    unfold Launch.serve
    dsimp only
    split
    · exact hraise hline nofun _
    · next line hencoded =>
      cases outcome with
      | error exc => exact hraise hline nofun exc
      | ok _ =>
        have hafter := (phase_concat_of hline (.wrote line)).trans (Phase.next_wrote hencoded)
        have hsame : s.stdout = s.printed ++ [] := hbytes hline
        rw [List.append_nil] at hsame
        exact ⟨⟨_, hafter, congrArg (· ++ line) hsame, hdirected⟩, h.fd, hheld.of_eq rfl rfl,
          hhandlers, hnot nofun, line, hafter⟩
  | closes =>
    obtain ⟨line, hline⟩ := hline
    exact ⟨h.phased_concat .closed trivial id, nofun, hheld.of_eq rfl rfl, hhandlers,
      hnot nofun, rfl, line, (phase_concat_of hline _).trans (Phase.next_of_ignores _ trivial)⟩
  | forgets =>
    obtain ⟨hclosed, hline⟩ := hline
    exact ⟨h.phased, fun hopen => absurd (hclosed.symm.trans hopen) nofun,
      hheld.of_eq rfl rfl, hhandlers, hstopped, hline⟩
  | serves =>
    obtain ⟨line, hline⟩ := hline
    unfold Launch.serve
    dsimp only
    split
    · exact hleave hline nofun
    · exact h

theorem Sound.clean (h : s.Sound handlers) (outcome : Except Raised Str)
    (pending : Option Raised) {line : Cleanup} (hpc : s.process.pc = .cleanup line pending) :
    (s.clean outcome pending line).Sound handlers := by
  have hstands := h.stands
  rw [Process.Stands, hpc] at hstands
  obtain ⟨hheld, hcalled, hline⟩ := hstands
  have hraise (exc : Raised) :
      ({ s with process := s.process.raise exc } : Launch).Sound handlers :=
    h.raise (fun _ hserving => by rw [hpc] at hserving; cases hserving) exc
  have hcalled' {event : Event} (hignores : Phase.Ignores event) :
      phase (s.process.trace ++ [event]) ≠ some .silent := by
    obtain ⟨now, hnow, -⟩ := h.phased
    rw [phase_concat_of hnow, now.next_of_ignores hignores, ← hnow]
    exact hcalled
  cases line with
  | closes =>
    obtain ⟨hhandlers, hstopped⟩ := hline
    unfold Launch.clean
    dsimp only
    split
    · exact ⟨h.phased_concat .closed trivial id, nofun, hheld.of_eq rfl rfl, hcalled' trivial,
        hhandlers, rfl, stopped_not_mem_concat hstopped nofun⟩
    · next hclosed =>
      refine ⟨h.phased, h.fd, hheld.of_eq rfl rfl, hcalled, hhandlers, ?_, hstopped⟩
      exact Bool.eq_false_iff.mpr fun hopen => hclosed (h.fd hopen)
  | restores sig =>
    unfold Launch.clean
    dsimp only
    split
    · exact hraise _
    · next handler hsaved =>
      rw [hheld.previous] at hsaved
      obtain rfl := Handler.eq_of_saved hsaved
      cases sig with
      | sigterm =>
        obtain ⟨hhandlers, hclosed, hstopped⟩ := hline
        refine ⟨h.phased_concat (.restored .sigterm) trivial id, h.fd, hheld.of_eq rfl rfl,
          hcalled' trivial, ?_, hclosed, stopped_not_mem_concat hstopped nofun⟩
        exact congrArg (Function.update · Signal.sigterm (handlers .sigterm)) hhandlers
      | sigint =>
        obtain ⟨hhandlers, hclosed, hstopped⟩ := hline
        refine ⟨h.phased_concat (.restored .sigint) trivial id, h.fd, hheld.of_eq rfl rfl,
          hcalled' trivial, ?_, hclosed, stopped_not_mem_concat hstopped nofun⟩
        exact Signal.funext (congrFun hhandlers .sigterm) rfl
  | stops =>
    obtain ⟨hhandlers, hclosed, hstopped⟩ := hline
    refine ⟨h.phased_concat .stopped trivial id, h.fd, hheld.of_eq rfl rfl, hcalled' trivial, ?_,
      hclosed, ?_, hhandlers⟩
    · exact fun hstdout => absurd (hheld.fd1.symm.trans hstdout) nofun
    · change (s.process.trace ++ [Event.stopped]).count .stopped = 1
      rw [List.count_append, List.count_eq_zero_of_not_mem hstopped]
      rfl
  | stopping =>
    cases outcome with
    | error exc => exact hraise exc
    | ok _ =>
      cases pending with
      | none => exact ⟨h.phased, h.fd, hline.fd1, hline.duplicate, hline.stopped, hline.handlers⟩
      | some exc => exact ⟨h.phased, h.fd, trivial⟩

theorem Sound.deliver (h : s.Sound handlers) (sig : Signal) (raised : Option Raised) :
    (s.deliver sig raised).Sound handlers := by
  unfold Launch.deliver
  split
  · exact ⟨h.phased, h.fd, h.stands⟩
  · exact ⟨h.phased, h.fd, trivial⟩
  · exact h
  · exact h
  · next hpython =>
    cases raised with
    | none => exact h
    | some exc =>
      refine h.raise (fun line hpc => ?_) exc
      -- while it serves, the handlers are `_request_stop`, which does not raise
      have hstands := h.stands
      rw [Process.Stands, hpc] at hstands
      rw [hstands.2.1] at hpython
      cases hpython

theorem Sound.main (h : s.Sound handlers) (outcome : Except Raised Str) :
    (s.main outcome).Sound handlers := by
  unfold Launch.main
  split
  · next line hpc => exact h.setup outcome hpc
  · next line hpc => exact h.serve outcome hpc
  · next line pending hpc => exact h.clean outcome pending hpc
  · exact h

theorem Sound.act (h : s.Sound handlers) (action : Action) : (s.act action).Sound handlers := by
  unfold Launch.act
  split
  · cases action with
    | main outcome => exact h.main outcome
    | signal sig raised => exact h.deliver sig raised
    | flushes => exact h.flush
    | _ => exact ⟨h.phased, h.fd, h.stands⟩
  · exact h

/-- After its end nothing changes a launch. -/
theorem act_of_not_running (h : s.running = false) (action : Action) : s.act action = s :=
  if_neg (h ▸ Bool.false_ne_true)

theorem run_of_not_running (h : s.running = false) (actions : List Action) : s.run actions = s := by
  induction actions with
  | nil => rfl
  | cons action actions ih =>
    rw [run, Run.run, List.foldl_cons, act_of_not_running h]
    exact ih

/-- **The invariant holds in every run.** -/
theorem sound_run (path : Str) (handlers : Signal → Handler) (buffer : List UInt8)
    (actions : List Action) : ((new path handlers buffer).run actions).Sound handlers :=
  Run.invariant_of_step (fun _ action h => h.act action) (sound_new path handlers buffer) actions

/-! ### A path that is not UTF-8 -/

/-- A launch on a path that is not UTF-8 does nothing. -/
structure Refuses (path : Str) (handlers : Signal → Handler) (s : Launch) : Prop where
  trace : s.process.trace = []
  fd1 : s.process.fd1 = .stdout
  handlers : s.process.handlers = handlers
  pc : s.process.pc = .setup .encodes ∧ s.process.address = addressScheme ++ path ∨
    s.process.pc = .killed ∨ ∃ exc, s.process.pc = .raised exc

variable {path : Str}

theorem main_of_encodes (hpc : s.process.pc = .setup .encodes)
    (hpath : encode s.process.address = none) (outcome : Except Raised Str) :
    s.act (.main outcome) =
      { s with process.pc := .raised (.failure (refusal s.process.address)) } := by
  unfold act running main
  simp only [hpc, if_true, setup, hpath, Process.raise]

theorem Refuses.act (h : s.Refuses path handlers) (hpath : encode (addressScheme ++ path) = none)
    (action : Action) : (s.act action).Refuses path handlers := by
  rcases h.pc with ⟨hpc, haddress⟩ | hended
  · cases action with
    | main outcome =>
      rw [main_of_encodes hpc (haddress ▸ hpath)]
      exact ⟨h.trace, h.fd1, h.handlers, Or.inr (Or.inr ⟨_, rfl⟩)⟩
    | signal sig raised =>
      unfold Launch.act
      split
      · unfold deliver
        dsimp only
        split
        · exact ⟨h.trace, h.fd1, h.handlers, h.pc⟩
        · exact ⟨h.trace, h.fd1, h.handlers, Or.inr (Or.inl rfl)⟩
        · exact h
        · exact h
        · cases raised with
          | none => exact h
          | some exc =>
            unfold Process.raise
            rw [hpc]
            exact ⟨h.trace, h.fd1, h.handlers, Or.inr (Or.inr ⟨exc, rfl⟩)⟩
      · exact h
    | flushes =>
      unfold Launch.act
      split
      · have hsame := s.process_flush
        exact ⟨hsame ▸ h.trace, hsame ▸ h.fd1, hsame ▸ h.handlers, hsame ▸ h.pc⟩
      · exact h
    | _ =>
      unfold Launch.act
      split
      · exact ⟨h.trace, h.fd1, h.handlers, h.pc⟩
      · exact h
  · have hrunning : s.running = false := by
      unfold running
      rcases hended with hpc | ⟨exc, hpc⟩
      · rw [hpc]
      · rw [hpc]
    rw [act_of_not_running hrunning]
    exact h

theorem refuses_run (handlers : Signal → Handler) (buffer : List UInt8)
    (hpath : encode (addressScheme ++ path) = none) (actions : List Action) :
    ((new path handlers buffer).run actions).Refuses path handlers :=
  Run.invariant_of_step (fun _ action h => h.act hpath action)
    ⟨rfl, rfl, rfl, Or.inl ⟨rfl, rfl⟩⟩ actions

/-- What is raised of such a path is what its announcement fails with. -/
theorem announce_of_not_utf8 (hpath : encode (addressScheme ++ path) = none) :
    announce path = .error (refusal (addressScheme ++ path)) := by
  unfold announce refusal
  cases hline : encodeEscaped (handshakeLine (addressScheme ++ path)) with
  | some line => simp only [hpath, hline]
  | none => simp only [hpath, hline]

/-! ### What a step does to the process -/

/-- Why an exception is raised. -/
inductive Raises (s : Launch) (action : Action) (exc : Raised) : Prop where
  | setup (line : Setup) (hpc : s.process.pc = .setup line)
  | serving (line : Serving) (hpc : s.process.pc = .serving line)
  /-- `host.stop` raises it, or has returned after it was raised. -/
  | stopping (pending : Option Raised) (hpc : s.process.pc = .cleanup .stopping pending)
  /-- A foreign handler cannot be restored. -/
  | foreign (sig : Signal) (pending : Option Raised)
      (hpc : s.process.pc = .cleanup (.restores sig) pending)
      (hsaved : s.process.previous sig = none) (outcome : Except Raised Str)
      (haction : action = .main outcome)
  /-- A handler raises it in the `finally` block. -/
  | handler (line : Cleanup) (pending : Option Raised) (hpc : s.process.pc = .cleanup line pending)
      (sig : Signal) (haction : action = .signal sig (some exc))
      (hpython : s.process.handlers sig = .python)

/-- **All an action can do to the process.** -/
inductive Steps (s : Launch) (action : Action) : Process → Prop where
  | same : Steps s action s.process
  /-- The main thread goes on. -/
  | moves (p : Process) (htrace : p.trace = s.process.trace) (hpc : ∀ exc, p.pc ≠ .raised exc) :
      Steps s action p
  /-- It does something, and goes on. A line is written where one is written, of the address. -/
  | does (p : Process) (event : Event) (htrace : p.trace = s.process.trace ++ [event])
      (hpc : ∀ exc, p.pc ≠ .raised exc)
      (hwrote : ∀ line, event = .wrote line → s.process.pc = .serving .writes ∧
        ∃ address, action = .main (.ok address)) : Steps s action p
  | raises (exc : Raised) (h : s.Raises action exc) : Steps s action (s.process.raise exc)

theorem steps_setup (s : Launch) (outcome : Except Raised Str) {line : Setup}
    (hpc : s.process.pc = .setup line) :
    s.Steps (.main outcome) (s.setup outcome line).process := by
  have hraises (exc : Raised) : s.Steps (.main outcome) (s.process.raise exc) :=
    .raises exc (.setup line hpc)
  cases line with
  | encodes =>
    unfold setup
    dsimp only
    split
    · exact hraises _
    · exact .moves _ rfl nofun
  | handles sig =>
    cases sig with
    | sigterm => exact .does _ (.handled .sigterm) rfl nofun nofun
    | sigint => exact .does _ (.handled .sigint) rfl nofun nofun
  | _ =>
    cases outcome with
    | error exc => exact hraises exc
    | ok _ => exact .does _ _ rfl nofun nofun

theorem steps_serve (s : Launch) (outcome : Except Raised Str) {line : Serving}
    (hpc : s.process.pc = .serving line) :
    s.Steps (.main outcome) (s.serve outcome line).process := by
  have hraises (exc : Raised) : s.Steps (.main outcome) (s.process.raise exc) :=
    .raises exc (.serving line hpc)
  cases line with
  | calls => exact .does _ _ rfl nofun nofun
  | starts =>
    cases outcome with
    | error exc => exact hraises exc
    | ok address => exact .does _ (.started address) rfl nofun nofun
  | polls => exact .does _ (.observed s.health) rfl nofun nofun
  | waits =>
    unfold serve
    dsimp only
    split
    · exact .moves _ rfl nofun
    · exact .moves _ rfl nofun
  | logs =>
    cases outcome with
    | error exc => exact hraises exc
    | ok _ => exact .moves _ rfl nofun
  | writes =>
    unfold serve
    dsimp only
    split
    · exact hraises _
    · next line hencoded =>
      cases outcome with
      | error exc => exact hraises exc
      | ok address => exact .does _ (.wrote line) rfl nofun fun _ _ => ⟨hpc, address, rfl⟩
  | closes => exact .does _ .closed rfl nofun nofun
  | forgets => exact .moves _ rfl nofun
  | serves =>
    unfold serve
    dsimp only
    split
    · exact .moves _ rfl nofun
    · exact .same

theorem steps_clean (s : Launch) (outcome : Except Raised Str) {line : Cleanup}
    {pending : Option Raised} (hpc : s.process.pc = .cleanup line pending) :
    s.Steps (.main outcome) (s.clean outcome pending line).process := by
  cases line with
  | closes =>
    unfold clean
    dsimp only
    split
    · exact .does _ .closed rfl nofun nofun
    · exact .moves _ rfl nofun
  | restores sig =>
    unfold clean
    dsimp only
    split
    · next hsaved => exact .raises _ (.foreign sig pending hpc hsaved outcome rfl)
    · cases sig with
      | sigterm => exact .does _ (.restored .sigterm) rfl nofun nofun
      | sigint => exact .does _ (.restored .sigint) rfl nofun nofun
  | stops => exact .does _ .stopped rfl nofun nofun
  | stopping =>
    cases outcome with
    | error exc => exact .raises exc (.stopping pending hpc)
    | ok address =>
      cases pending with
      | none => exact .moves _ rfl nofun
      | some exc =>
        -- what the `try` block raised goes on as what `host.stop` raises would
        have hraises : s.Steps (.main (.ok address)) (s.process.raise exc) :=
          .raises exc (.stopping (some exc) hpc)
        rw [Process.raise, hpc] at hraises
        exact hraises

theorem steps_deliver (hrunning : s.running = true) (sig : Signal) (raised : Option Raised) :
    s.Steps (.signal sig raised) (s.deliver sig raised).process := by
  unfold deliver
  split
  · exact .same
  · exact .moves _ rfl nofun
  · exact .same
  · exact .same
  · next hpython =>
    cases raised with
    | none => exact .same
    | some exc =>
      refine .raises exc ?_
      cases hpc : s.process.pc with
      | setup line => exact .setup line hpc
      | serving line => exact .serving line hpc
      | cleanup line pending => exact .handler line pending hpc sig rfl hpython
      | _ =>
        rw [running, hpc] at hrunning
        cases hrunning

theorem steps_act (s : Launch) (action : Action) : s.Steps action (s.act action).process := by
  unfold act
  split
  · next hrunning =>
    cases action with
    | main outcome =>
      dsimp only
      unfold main
      split
      · next line hpc => exact s.steps_setup outcome hpc
      · next line hpc => exact s.steps_serve outcome hpc
      · next line pending hpc => exact s.steps_clean outcome hpc
      · exact .same
    | signal sig raised => exact steps_deliver hrunning sig raised
    | flushes =>
      have hsame : s.Steps .flushes s.flush.process := s.process_flush ▸ .same
      exact hsame
    | _ => exact .same
  · exact .same

theorem trace_raise (p : Process) (exc : Raised) : (p.raise exc).trace = p.trace := by
  unfold Process.raise
  split <;> rfl

/-- What was done stays done. -/
theorem trace_prefix_act (s : Launch) (action : Action) :
    s.process.trace <+: (s.act action).process.trace := by
  have hsteps := s.steps_act action
  generalize (s.act action).process = p at hsteps ⊢
  cases hsteps with
  | same => exact List.prefix_rfl
  | moves p htrace hpc => rw [htrace]
  | does p event htrace hpc hwrote =>
    rw [htrace]
    exact List.prefix_append _ _
  | raises exc h => rw [trace_raise]

theorem trace_prefix_run (s : Launch) (actions : List Action) :
    s.process.trace <+: (s.run actions).process.trace :=
  Run.run_related (R := fun s s' => s.process.trace <+: s'.process.trace)
    (fun _ => List.prefix_rfl) List.IsPrefix.trans trace_prefix_act s actions

/-! ### Undisturbed launches -/

/-- Until `host.stop` is about to run it has not been called. -/
theorem Sound.stopped_not_mem (h : s.Sound handlers) {line : Cleanup} {pending : Option Raised}
    (hpc : s.process.pc = .cleanup line pending) (hline : line ≠ .stopping) :
    .stopped ∉ s.process.trace := by
  have hstands := h.stands
  rw [Process.Stands, hpc] at hstands
  obtain ⟨-, -, hstands⟩ := hstands
  cases line with
  | closes => exact hstands.2
  | restores sig =>
    cases sig with
    | sigterm => exact hstands.2.2
    | sigint => exact hstands.2.2
  | stops => exact hstands.2.2
  | stopping => exact absurd rfl hline

/-- **What the undisturbed launches keep besides**: the address announced can be named, and a
launch that raised after its start left things in order. -/
structure Neat (handlers : Signal → Handler) (p : Process) : Prop where
  named : ∀ address line, phase p.trace = some (.announced address line) → Nameable address
  orderly : ∀ exc, p.pc = .raised exc → phase p.trace ≠ some .silent → Orderly handlers p

theorem orderly_raise {p : Process} {line : Cleanup} {pending : Option Raised}
    (hpc : p.pc = .cleanup line pending) (h : Orderly handlers p) (exc : Raised) :
    Orderly handlers (p.raise exc) := by
  rw [Process.raise, hpc]
  exact ⟨h.fd1, h.duplicate, h.stopped, h.handlers⟩

theorem Sound.orderly_of_stopping (h : s.Sound handlers) {pending : Option Raised}
    (hpc : s.process.pc = .cleanup .stopping pending) : Orderly handlers s.process := by
  have hstands := h.stands
  rw [Process.Stands, hpc] at hstands
  exact hstands.2.2

/-- What an undisturbed launch raises, it raises in order. -/
theorem Raises.neat {action : Action} {exc : Raised} (h : s.Raises action exc)
    (hsound : s.Sound handlers) (hundisturbed : s.Undisturbed action) {exc' : Raised}
    (hraised : (s.process.raise exc).pc = .raised exc')
    (hcalled : phase s.process.trace ≠ some .silent) :
    Orderly handlers (s.process.raise exc) := by
  cases h with
  | setup line hpc =>
    have hstands := hsound.stands
    rw [Process.Stands, hpc] at hstands
    exact absurd hstands.1 hcalled
  | serving line hpc =>
    rw [Process.raise, hpc] at hraised
    cases hraised
  | stopping pending hpc => exact orderly_raise hpc (hsound.orderly_of_stopping hpc) exc
  | foreign sig pending hpc hsaved outcome haction =>
    exact absurd hsaved (hundisturbed.found sig pending outcome haction hpc)
  | handler line pending hpc sig haction hpython =>
    by_cases hline : line = .stopping
    · subst hline
      exact orderly_raise hpc (hsound.orderly_of_stopping hpc) exc
    · exact absurd hpython (hundisturbed.handlers sig exc line pending haction hpc hline)

theorem Neat.act (h : Neat handlers s.process) (hsound : s.Sound handlers) {action : Action}
    (hundisturbed : s.Undisturbed action) : Neat handlers (s.act action).process := by
  have hsteps := s.steps_act action
  generalize (s.act action).process = p at hsteps ⊢
  cases hsteps with
  | same => exact h
  | moves p htrace hpc =>
    exact ⟨fun address line hphase => h.named address line (htrace ▸ hphase),
      fun exc hraised => absurd hraised (hpc exc)⟩
  | does p event htrace hpc hwrote =>
    refine ⟨fun address line hphase => ?_, fun exc hraised => absurd hraised (hpc exc)⟩
    obtain ⟨before, hbefore, hnext⟩ := phase_of_concat (htrace ▸ hphase)
    rcases Phase.next_cases hnext with ⟨rfl, -⟩ | ⟨-, -, hafter⟩ | ⟨_, -, -, hafter⟩ |
      ⟨_, -, -, hafter⟩ | ⟨address', line', rfl, hline, rfl, hafter⟩
    · exact h.named address line hbefore
    · cases hafter
    · cases hafter
    · cases hafter
    · obtain ⟨rfl, rfl⟩ := Phase.announced.inj hafter
      obtain ⟨hpc, value, haction⟩ := hwrote line rfl
      have hstands := hsound.stands
      rw [Process.Stands, hpc] at hstands
      obtain ⟨-, -, -, hready⟩ := hstands
      obtain rfl := Phase.ready.inj (Option.some.inj (hbefore.symm.trans hready))
      exact hundisturbed.named value haction hpc (hline ▸ nofun)
  | raises exc hraises =>
    refine ⟨fun address line hphase => h.named address line (trace_raise _ exc ▸ hphase),
      fun exc' hraised hcalled => ?_⟩
    rw [trace_raise] at hcalled
    exact hraises.neat hsound hundisturbed hraised hcalled

/-- What is raised in the `finally` block before `host.stop` leaves the host running. -/
theorem left_running (h : s.Sound handlers) {line : Cleanup} {pending : Option Raised}
    (hpc : s.process.pc = .cleanup line pending) (hline : line ≠ .stopping) (exc : Raised) :
    (s.process.raise exc).pc = .raised exc ∧ phase (s.process.raise exc).trace ≠ some .silent ∧
      .stopped ∉ (s.process.raise exc).trace := by
  have hstands := h.stands
  rw [Process.Stands, hpc] at hstands
  refine ⟨?_, ?_, ?_⟩
  · rw [Process.raise, hpc]
  · rw [trace_raise]
    exact hstands.2.1
  · rw [trace_raise]
    exact h.stopped_not_mem hpc hline

theorem running_of_cleanup {line : Cleanup} {pending : Option Raised}
    (hpc : s.process.pc = .cleanup line pending) : s.running = true := by
  rw [running, hpc]

/-- **A disturbed step cannot be made good.** It raises before `host.stop` is called, or
announces an address that cannot be named. -/
theorem disturbed (h : s.Sound handlers) {action : Action} (hdisturbed : ¬s.Undisturbed action) :
    (∃ exc, (s.act action).process.pc = .raised exc ∧
      phase (s.act action).process.trace ≠ some .silent ∧
        .stopped ∉ (s.act action).process.trace) ∨
    ∃ address line, phase (s.act action).process.trace = some (.announced address line) ∧
      ¬Nameable address := by
  -- A handler that was put back raises before the host is stopped.
  by_cases hhandlers : ∃ sig exc line pending, action = .signal sig (some exc) ∧
      s.process.pc = .cleanup line pending ∧ line ≠ .stopping ∧
        s.process.handlers sig = .python
  · obtain ⟨sig, exc, line, pending, rfl, hpc, hline, hpython⟩ := hhandlers
    have hact : (s.act (.signal sig (some exc))).process = s.process.raise exc := by
      unfold act
      rw [if_pos (running_of_cleanup hpc)]
      dsimp only
      rw [deliver, hpython]
    rw [hact]
    exact Or.inl ⟨exc, left_running h hpc hline exc⟩
  -- There is no handler to put back.
  by_cases hfound : ∃ sig pending outcome, action = .main outcome ∧
      s.process.pc = .cleanup (.restores sig) pending ∧ s.process.previous sig = none
  · obtain ⟨sig, pending, outcome, rfl, hpc, hsaved⟩ := hfound
    have hact : (s.act (.main outcome)).process = s.process.raise (.exception "TypeError") := by
      unfold act
      rw [if_pos (running_of_cleanup hpc)]
      dsimp only
      rw [main, hpc]
      unfold clean
      dsimp only
      rw [hsaved]
    rw [hact]
    exact Or.inl ⟨_, left_running h hpc nofun _⟩
  -- The line is written, of an address it does not name.
  by_cases hnamed : ∃ value, action = .main (.ok value) ∧ s.process.pc = .serving .writes ∧
      encode (handshakeLine s.process.address) ≠ none ∧ ¬Nameable s.process.address
  · obtain ⟨value, rfl, hpc, hencoded, hnot⟩ := hnamed
    obtain ⟨line, hline⟩ := Option.ne_none_iff_exists'.mp hencoded
    have hrunning : s.running = true := by rw [running, hpc]
    have hact : (s.act (.main (.ok value))).process =
        s.process.proceed (.wrote line) (.serving .closes) := by
      unfold act
      rw [if_pos hrunning]
      dsimp only
      rw [main, hpc]
      unfold serve
      dsimp only
      rw [hline]
    have hstands := h.stands
    rw [Process.Stands, hpc] at hstands
    obtain ⟨-, -, -, hready⟩ := hstands
    rw [hact]
    exact Or.inr ⟨s.process.address, line,
      (phase_concat_of hready (.wrote line)).trans (Phase.next_wrote hline), hnot⟩
  refine absurd ⟨?_, ?_, ?_⟩ hdisturbed
  · exact fun sig exc line pending haction hpc hline hpython =>
      hhandlers ⟨sig, exc, line, pending, haction, hpc, hline, hpython⟩
  · exact fun sig pending outcome haction hpc hsaved =>
      hfound ⟨sig, pending, outcome, haction, hpc, hsaved⟩
  · intro value haction hpc hencoded
    by_contra hnot
    exact hnamed ⟨value, haction, hpc, hencoded, hnot⟩

/-! ### The launch protocol -/

/-- What keeps a launch in order keeps it to the protocol. -/
theorem protocol_of_neat {path : Str} (hsound : s.Sound handlers)
    (hneat : Neat handlers s.process)
    (hrefuses : encode (addressScheme ++ path) = none → s.Refuses path handlers) :
    s.Protocol path handlers where
  bytes := by
    obtain ⟨now, hnow, hbytes, -⟩ := hsound.phased
    cases now with
    | announced address line =>
      refine Or.inr ⟨address, line, fun address' => ?_, ?_, hbytes⟩
      · rw [started_mem_iff hnow]
        exact ⟨fun h => (Option.some.inj h).symm, fun h => congrArg some h.symm⟩
      · exact (names_iff (line_of_announced hnow)).mpr (hneat.named address line hnow)
    | _ => exact Or.inl (hbytes.trans (List.append_nil s.printed))
  warranted := by
    intro pre line post htrace
    obtain ⟨now, hnow, -⟩ := hsound.phased
    obtain ⟨address, hready, -⟩ := ready_of_wrote (htrace ▸ hnow)
    obtain ⟨before, polls, hpre, hpolls⟩ := ready_of_phase hready
    exact ⟨address, before, polls, hpre, hpolls⟩
  refused := by
    intro hpath
    have hrefused := hrefuses hpath
    obtain ⟨now, hnow, hbytes, -⟩ := hsound.phased
    rw [hrefused.trace] at hnow
    obtain rfl := Option.some.inj hnow
    refine ⟨hrefused.trace, hrefused.fd1, hrefused.handlers,
      hbytes.trans (List.append_nil s.printed), ?_⟩
    rcases hrefused.pc with ⟨hpc, haddress⟩ | hended
    · refine Or.inl ⟨_, announce_of_not_utf8 hpath, hpc, fun outcome => ?_⟩
      rw [main_of_encodes hpc (haddress ▸ hpath), haddress]
    · exact Or.inr hended
  orderly := by
    rintro hleft ⟨address, hcalled⟩
    have hsilent : phase s.process.trace ≠ some .silent :=
      fun hsilent => called_not_mem hsilent address hcalled
    cases hpc : s.process.pc with
    | returned =>
      have hstands := hsound.stands
      rw [Process.Stands, hpc] at hstands
      exact hstands
    | raised exc => exact hneat.orderly exc hpc hsilent
    | _ =>
      rw [hpc] at hleft
      exact hleft.elim

/-- After a disturbed step a launch is off the protocol for good. -/
theorem not_protocol_of_disturbed (hsound : s.Sound handlers) {action : Action}
    (hdisturbed : ¬s.Undisturbed action) (post : List Action) (path : Str) :
    ¬((s.act action).run post).Protocol path handlers := by
  intro hprotocol
  rcases disturbed hsound hdisturbed with
    ⟨exc, hraised, hcalled, hstopped⟩ | ⟨address, line, hannounced, hnot⟩
  · -- it has ended, with a host that was started and not stopped
    have hended : (s.act action).running = false := by rw [running, hraised]
    rw [run_of_not_running hended] at hprotocol
    have hstarted : ∃ address, .called address ∈ (s.act action).process.trace := by
      by_contra hnone
      obtain ⟨now, hnow, -⟩ := (hsound.act action).phased
      obtain rfl := silent_of_not_called hnow fun address hmem => hnone ⟨address, hmem⟩
      exact hcalled hnow
    have hcount := (hprotocol.orderly (hraised ▸ trivial) hstarted).stopped
    rw [List.count_eq_zero_of_not_mem hstopped] at hcount
    cases hcount
  · -- what it announced stays announced
    have hfinal : ((s.act action).run post).Sound handlers :=
      Run.invariant_of_step (fun _ action h => h.act action) (hsound.act action) post
    obtain ⟨now, hnow, hbytes, -⟩ := hfinal.phased
    obtain ⟨more, hmore⟩ := trace_prefix_run (s.act action) post
    obtain rfl := phase_append_announced hannounced (hmore ▸ hnow)
    rcases hprotocol.bytes with hprinted | ⟨address', line', hstarted, hnames, -⟩
    · rw [hprinted] at hbytes
      have hempty : line = [] := List.append_right_eq_self.mp hbytes.symm
      exact line_ne_nil (line_of_announced hannounced) hempty
    · obtain rfl := (hstarted address).mp ((started_mem_iff hnow address).mpr rfl)
      exact hnot ((names_iff hnames.encodes).mp hnames)

/-- A launch keeps to its protocol exactly when nothing disturbs it. -/
theorem protocol_iff_undisturbed (path : Str) (handlers : Signal → Handler) (buffer : List UInt8)
    (actions : List Action) :
    ((new path handlers buffer).run actions).Protocol path handlers ↔
      Run.Along act Undisturbed (new path handlers buffer) actions := by
  constructor
  · intro hprotocol pre action post hactions
    by_contra hdisturbed
    subst hactions
    rw [run, Run.run_append] at hprotocol
    exact not_protocol_of_disturbed (sound_run path handlers buffer pre) hdisturbed post path
      hprotocol
  · intro hundisturbed
    have hnew : Neat handlers (new path handlers buffer).process :=
      ⟨fun _ _ => nofun, fun _ => nofun⟩
    have hstep (s : Launch) (action : Action)
        (h : s.Sound handlers ∧ Neat handlers s.process) (hundisturbed : s.Undisturbed action) :
        (s.act action).Sound handlers ∧ Neat handlers (s.act action).process :=
      ⟨h.1.act action, h.2.act h.1 hundisturbed⟩
    obtain ⟨hsound, hneat⟩ :=
      Run.invariant_run hstep ⟨sound_new path handlers buffer, hnew⟩ hundisturbed
    exact protocol_of_neat hsound hneat fun hpath => refuses_run handlers buffer hpath actions

/-! ### Where nothing is printed -/

/-- Nothing has been printed, and nothing waits to be. -/
structure Unprinted (s : Launch) : Prop where
  buffer : s.buffer = []
  printed : s.printed = []

theorem Unprinted.flush (h : s.Unprinted) : s.flush.Unprinted := by
  unfold Launch.flush
  split
  · refine ⟨rfl, ?_⟩
    change s.printed ++ s.buffer = []
    rw [h.printed, h.buffer, List.append_nil]
  · exact ⟨rfl, h.printed⟩

theorem Unprinted.main (h : s.Unprinted) (outcome : Except Raised Str) :
    (s.main outcome).Unprinted := by
  have hsame {s' : Launch} (hbuffer : s'.buffer = s.buffer) (hprinted : s'.printed = s.printed) :
      s'.Unprinted := ⟨hbuffer.trans h.buffer, hprinted.trans h.printed⟩
  unfold Launch.main
  split
  · next line hpc =>
    cases line with
    | encodes =>
      unfold setup
      dsimp only
      split <;> exact hsame rfl rfl
    | flushes =>
      cases outcome with
      | error exc => exact hsame rfl rfl
      | ok _ => exact ⟨h.flush.buffer, h.flush.printed⟩
    | handles sig => exact hsame rfl rfl
    | _ => cases outcome <;> exact hsame rfl rfl
  · next line hpc =>
    cases line with
    | waits =>
      unfold serve
      dsimp only
      split <;> exact hsame rfl rfl
    | writes =>
      unfold serve
      dsimp only
      split
      · exact hsame rfl rfl
      · cases outcome <;> exact hsame rfl rfl
    | serves =>
      unfold serve
      dsimp only
      split <;> exact hsame rfl rfl
    | starts => cases outcome <;> exact hsame rfl rfl
    | logs => cases outcome <;> exact hsame rfl rfl
    | _ => exact hsame rfl rfl
  · next line pending hpc =>
    cases line with
    | closes =>
      unfold clean
      dsimp only
      split <;> exact hsame rfl rfl
    | restores sig =>
      unfold clean
      dsimp only
      split <;> exact hsame rfl rfl
    | stops => exact hsame rfl rfl
    | stopping =>
      cases outcome with
      | error exc => exact hsame rfl rfl
      | ok _ => cases pending <;> exact hsame rfl rfl
  · exact h

/-- Where nothing is printed, what was printed is nothing. -/
theorem printed_run (path : Str) (handlers : Signal → Handler) {actions : List Action}
    (hprints : ∀ bytes, .prints bytes ∉ actions) :
    ((new path handlers []).run actions).printed = [] := by
  have hstep (s : Launch) (action : Action) (h : s.Unprinted)
      (hnot : ∀ bytes, action ≠ .prints bytes) : (s.act action).Unprinted := by
    unfold act
    split
    · cases action with
      | main outcome => exact h.main outcome
      | signal sig raised =>
        dsimp only
        unfold deliver
        split
        · exact ⟨h.buffer, h.printed⟩
        · exact ⟨h.buffer, h.printed⟩
        · exact h
        · exact h
        · cases raised with
          | none => exact h
          | some exc => exact ⟨h.buffer, h.printed⟩
      | prints bytes => exact absurd rfl (hnot bytes)
      | flushes => exact h.flush
      | _ => exact ⟨h.buffer, h.printed⟩
    · exact h
  have hunprinted : ((new path handlers []).run actions).Unprinted := by
    refine Run.invariant_run hstep ⟨rfl, rfl⟩
      (Run.along_of_forall fun action hmem _ bytes heq => ?_)
    exact hprints bytes (heq ▸ hmem)
  exact hunprinted.printed

/-- **When a launch keeps to its protocol**: exactly when nothing disturbs it. Where nothing is
printed, the original stdout then holds nothing, or the one line. -/
theorem protocol_iff (path : Str) (handlers : Signal → Handler) (buffer : List UInt8)
    (actions : List Action) :
    (((new path handlers buffer).run actions).Protocol path handlers ↔
      Run.Along act Undisturbed (new path handlers buffer) actions) ∧
    (buffer = [] → (∀ bytes, .prints bytes ∉ actions) →
      Run.Along act Undisturbed (new path handlers buffer) actions →
        ((new path handlers buffer).run actions).HandshakeAlone) := by
  have hiff := protocol_iff_undisturbed path handlers buffer actions
  refine ⟨hiff, ?_⟩
  rintro rfl hprints hundisturbed
  have hprotocol := hiff.mpr hundisturbed
  exact hprotocol.handshakeAlone (printed_run path handlers hprints)

/-! ### An interrupt -/

/-- The dispositions a Python program starts with: `SIGTERM`'s default, and Python's own
handler of `SIGINT`, which raises. -/
def pythonHandlers : Signal → Handler
  | .sigterm => .standard
  | .sigint => .python

/-- A child that serves until its stdin ends, up to the call of `host.stop`. -/
def servedToStop : List Action :=
  let ok : Action := .main (.ok (str "unix:/run/child.sock"))
  -- up to the start, and the start
  List.replicate 9 ok ++ [.health (some .serving)] ++
    -- it polls, logs, writes the line and closes its stdout
    List.replicate 5 ok ++ [.stdinEnds, .watched] ++
    -- it leaves the loop, and the handlers are restored
    List.replicate 4 ok

set_option maxRecDepth 4000 in
/-- Undisturbed it returns, its line written and its host stopped. -/
example :
    let s := (new (str "/run/child.sock") pythonHandlers []).run
      (servedToStop ++ List.replicate 2 (.main (.ok [])))
    encode (str "angzarr-handshake v1 unix:/run/child.sock\n") = some s.stdout ∧
      s.process.trace.count .stopped = 1 ∧ s.running = false := by
  decide

set_option maxRecDepth 4000 in
/-- **An interrupt in the `finally` block leaves the host running.** The handlers are restored,
`SIGINT`'s raises, and `host.stop` is never called. -/
theorem interrupt_leaves_host_running :
    let s := (new (str "/run/child.sock") pythonHandlers []).run
      (servedToStop ++ [.signal .sigint (some (.exception "KeyboardInterrupt"))])
    s.process.pc = .raised (.exception "KeyboardInterrupt") ∧
      s.process.handlers = pythonHandlers ∧
      .started (str "unix:/run/child.sock") ∈ s.process.trace ∧ .stopped ∉ s.process.trace ∧
      ¬s.Protocol (str "/run/child.sock") pythonHandlers := by
  intro s
  have hpc : s.process.pc = .raised (.exception "KeyboardInterrupt") := rfl
  have hstopped : .stopped ∉ s.process.trace := by decide
  refine ⟨hpc, funext fun sig => by cases sig <;> rfl, by decide, hstopped, fun hprotocol => ?_⟩
  have hcount := (hprotocol.orderly (hpc ▸ trivial) ⟨str "unix:/run/child.sock", by decide⟩).stopped
  rw [List.count_eq_zero_of_not_mem hstopped] at hcount
  cases hcount

end Launch

end Child

end AngzarrClient
