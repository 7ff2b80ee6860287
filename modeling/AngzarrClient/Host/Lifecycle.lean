import AngzarrClient.Host.Registration
import AngzarrClient.Lib.Run
import AngzarrClient.Router.Ledger

/-!
# A component host's starts and stops

`start` makes an event loop on a thread of its own and runs a coroutine there that makes
the gRPC server, binds its address, starts it and leaves a supervisor that publishes the
host's health. `stop` runs the coroutine that undoes all of it. Either coroutine can raise
on the way, so each is a list of effects on the host's fields and on the world around it
(`AngzarrClient.HostState.startEffects`, `AngzarrClient.HostState.stopEffects`) of which a
run performs all, or those before the one that raised.

A host is down or up: with no loop nothing of it is left in the world, and with one the
world holds exactly what that start made (`AngzarrClient.HostState.Consistent`). That
survives every registration, start, stop and publication.

`stop` returns at once when it was called before, and `start` never takes that back. So a
`stop` really stops exactly when the host was not started since an earlier one
(`AngzarrClient.HostState.stop_really_stops_iff`).
-/

namespace AngzarrClient

open Router

/-! ### The world around a host -/

/-- The statuses a host publishes. -/
inductive HealthStatus where
  | serving
  | notServing
  deriving DecidableEq

/-- What the starts of a host have made outside of it. A server, a thread, a supervisor
and a socket file carry the number of the start that made them. -/
structure World where
  /-- How many loops the host has made. -/
  starts : ℕ
  /-- The servers accepting calls. -/
  accepting : List ℕ
  /-- The servers that accepted calls once. -/
  served : List ℕ
  /-- The event-loop threads running. -/
  threads : List ℕ
  /-- The supervisors running, with the names each publishes. -/
  supervisors : List (ℕ × List String)
  /-- The socket files there are, each with the server bound to it. -/
  sockets : List (ℕ × String)
  /-- Every status published, in order. -/
  published : List (String × HealthStatus)
  deriving DecidableEq

/-- The last status published for a name. -/
def lastPublished (published : List (String × HealthStatus)) (name : String) :
    Option HealthStatus :=
  (published.filter fun p => p.1 = name).getLast?.map Prod.snd

@[simp] theorem lastPublished_nil (name : String) : lastPublished [] name = none := rfl

theorem lastPublished_concat (published : List (String × HealthStatus)) (name' name : String)
    (status : HealthStatus) :
    lastPublished (published ++ [(name', status)]) name =
      if name' = name then some status else lastPublished published name := by
  by_cases h : name' = name <;> simp [lastPublished, h]

/-- A host and the world around it. -/
structure HostState where
  host : ComponentHost
  world : World
  deriving DecidableEq

namespace HostState

/-- A new host, in a world it has done nothing to. -/
def new (router : Option (Option DispatchTable)) (rulesVersion : String) : HostState where
  host := .new router rulesVersion
  world := ⟨0, [], [], [], [], [], []⟩

/-! ### The coroutines' effects -/

/-- One effect of a start or a stop. -/
inductive Effect where
  /-- `self._executor = ThreadPoolExecutor(...)`. -/
  | makeExecutor
  /-- `service.add_to_server(...)`, the application's own code. -/
  | addToServer (name : String)
  /-- `await health.set(name, status)`. -/
  | publish (name : String) (status : HealthStatus)
  /-- `self._health = health`. -/
  | keepHealth
  /-- `server.add_insecure_port(address)`, and the socket path kept. -/
  | bind (start : ℕ) (address : String)
  /-- `await server.start()`. -/
  | serve (start : ℕ)
  /-- `self._server = server`. -/
  | keepServer (start : ℕ)
  /-- `self._supervisor = asyncio.create_task(...)`. -/
  | supervise (start : ℕ) (names : List String)
  /-- `self._supervisor.cancel()`, and the task awaited. -/
  | cancel (start : ℕ)
  /-- `await self._server.stop(grace)`. -/
  | stopServer (start : ℕ)
  /-- `self._executor.shutdown(wait=True)`. -/
  | shutdownExecutor
  /-- `os.remove(self._socket_path)`, where it exists. -/
  | removeSocket (path : String)
  deriving DecidableEq

/-- The path of a Unix socket address. -/
def socketPathOf (address : String) : Option String :=
  if "unix:".toList.isPrefixOf address.toList then
    some (String.ofList (Text.removePrefix "//".toList (address.toList.drop "unix:".length)))
  else none

/-- What an effect does. Binding a Unix address makes its socket file, in place of the one
there was. -/
def Effect.apply : Effect → HostState → HostState
  | .makeExecutor, s => { s with host.executor := true }
  | .addToServer _, s => s
  | .publish name status, s =>
    { s with world.published := s.world.published ++ [(name, status)] }
  | .keepHealth, s => { s with host.health := true }
  | .bind start address, s =>
    match socketPathOf address with
    | none => s
    | some path =>
      { s with
        host.socketPath := some path
        world.sockets :=
          if path = "" then s.world.sockets
          else (start, path) :: s.world.sockets.filter fun p => p.2 ≠ path }
  | .serve start, s =>
    { s with
      world.accepting := start :: s.world.accepting
      world.served := start :: s.world.served }
  | .keepServer start, s => { s with host.server := some start }
  | .supervise start names, s =>
    { s with
      host.supervisor := some start
      world.supervisors := (start, names) :: s.world.supervisors }
  | .cancel start, s =>
    { s with world.supervisors := s.world.supervisors.filter fun p => p.1 ≠ start }
  | .stopServer start, s =>
    { s with world.accepting := s.world.accepting.filter fun k => k ≠ start }
  | .shutdownExecutor, s => s
  | .removeSocket path, s =>
    { s with world.sockets := s.world.sockets.filter fun p => p.2 ≠ path }

/-- Effects one after another. -/
def perform (effects : List Effect) (s : HostState) : HostState :=
  effects.foldl (fun s effect => effect.apply s) s

/-- How a coroutine ends: at its end, or raising once it has performed so many of its
effects. -/
inductive Outcome where
  | finishes
  | raises (done : ℕ)
  deriving DecidableEq

/-- The effects a coroutine performs. -/
def Outcome.performed : Outcome → List Effect → List Effect
  | .finishes, effects => effects
  | .raises done, effects => effects.take done

/-- `_start`, up to the server's own start: the application's services are added, every
name published `NOT_SERVING`, the address bound. -/
def preparation (host : ComponentHost) (start : ℕ) (address : String) : List Effect :=
  .makeExecutor :: host.appServices.map .addToServer ++
    host.names.map (.publish · .notServing) ++ [.keepHealth, .bind start address]

/-- `_start`. -/
def startEffects (host : ComponentHost) (start : ℕ) (address : String) : List Effect :=
  preparation host start address ++
    [.serve start, .keepServer start, .supervise start host.names]

/-- `_stop`: each part where a start has made it. -/
def stopEffects (host : ComponentHost) : List Effect :=
  (host.supervisor.map .cancel).toList ++
    (if host.health then host.names.map (.publish · .notServing) else []) ++
    (host.server.map .stopServer).toList ++
    (if host.executor then [.shutdownExecutor] else []) ++
    ((host.socketPath.filter (· ≠ "")).map .removeSocket).toList

/-! ### Starting and stopping -/

/-- `_shutdown_loop`: the loop is stopped, with what runs on it, and its thread joined. -/
def shutdownLoop (s : HostState) : HostState :=
  match s.host.loop with
  | none => s
  | some loop =>
    { s with
      host.loop := none
      host.thread := none
      world.threads := s.world.threads.filter fun thread => some thread ≠ s.host.thread
      world.supervisors := s.world.supervisors.filter fun p => p.1 ≠ loop }

/-- What `get_transport_config` reads off the environment, or that it raises. -/
inductive TransportConfig where
  | tcp (address : String)
  | uds (socketPath : String)
  | raises
  deriving DecidableEq

/-- `get_transport_config`: the address; a stale socket file at a Unix one is removed. -/
def getTransportConfig (s : HostState) : TransportConfig → Option (String × HostState)
  | .tcp address => some (address, s)
  | .uds path => some ("unix:" ++ path, (Effect.removeSocket path).apply s)
  | .raises => none

/-- The bound address: a Unix one as given, a TCP one with the port bound. -/
def boundAddress (address : String) (port : ℕ) : String :=
  match socketPathOf address with
  | some _ => address
  | none => String.ofList (Text.rpartition ':' address.toList).1 ++ ":" ++ toString port

/-- The rest of `start`, once nothing refuses it: the loop and its thread, and `_start` on
them. -/
def launch (s : HostState) (address : String) (port : ℕ) (outcome : Outcome) :
    Except HostError String × HostState :=
  let start := s.world.starts
  let looped : HostState :=
    { s with
      host.loop := some start
      host.thread := some start
      world.starts := start + 1
      world.threads := start :: s.world.threads }
  let s' := perform (outcome.performed (startEffects s.host start address)) looped
  match outcome with
  | .finishes =>
    let bound := boundAddress address port
    (.ok bound, { s' with host.address := bound })
  | .raises _ => (.error .runtime, s'.shutdownLoop)

/-- `start`: with an address or the environment's, the port the operating system binds,
and how its coroutine ends. -/
def start (s : HostState) (address : Option String) (config : TransportConfig) (port : ℕ)
    (outcome : Outcome) : Except HostError String × HostState :=
  if s.host.kind ≠ none ∧ s.host.upcaster = true then
    (.error (.configuration "HOST_REASON_UPCASTER_WITH_COMPONENT"
      [("component", s.host.componentName.getD "")]), s)
  else if s.host.kind = none ∧ s.host.upcaster = false then
    (.error (.configuration "HOST_REASON_NO_COMPONENTS_REGISTERED" []), s)
  else if s.host.refused ≠ [] then
    (.error (.configuration "ROUTER_REASON_DUPLICATE_COMPONENT"
      [("registered", s.host.componentName.getD ""),
        ("refused", ", ".intercalate s.host.refused)]), s)
  else if s.host.thread ≠ none then (.error (.configuration "HOST_ALREADY_STARTED" []), s)
  else
    match address with
    | some address => s.launch address port outcome
    | none =>
      match s.getTransportConfig config with
      | some (address, s) => s.launch address port outcome
      | none => (.error .runtime, s)

/-- The end of `stop`: an owned router is closed, and the host is stopped for good. -/
def closed (s : HostState) : HostState :=
  { s with
    host.component := if s.host.ownsRouter then none else s.host.component
    host.stopped := true }

/-- `stop`. What raises on the way is raised once the loop is down. -/
def stop (s : HostState) (outcome : Outcome) : Except HostError Unit × HostState :=
  if s.host.stopped then (.ok (), s)
  else if s.host.loop = none then (.ok (), s.closed)
  else
    let s' := (perform (outcome.performed (stopEffects s.host)) s).shutdownLoop.closed
    match outcome with
    | .finishes => (.ok (), s')
    | .raises _ => (.error .runtime, s')

/-! ### Runs -/

/-- What happens to a host: a registration, a start, a stop, or a status its supervisor
publishes. -/
inductive Action where
  | add (dispatch : DispatchTable) (descriptor : ComponentDescriptor) (kind : ComponentKind)
  | addUpcaster
  | addService (name : String)
  | start (address : Option String) (config : TransportConfig) (port : ℕ) (outcome : Outcome)
  | stop (outcome : Outcome)
  | publish (start : ℕ) (name : String) (status : HealthStatus)
  deriving DecidableEq

/-- A round of `run_supervisor`: a status for one of its names, while it runs. -/
def superviseOnce (s : HostState) (start : ℕ) (name : String) (status : HealthStatus) :
    HostState :=
  if s.world.supervisors.any fun p => p.1 = start ∧ name ∈ p.2 then
    (Effect.publish name status).apply s
  else s

/-- The state an action leaves. -/
def act [Spec] (s : HostState) : Action → HostState
  | .add dispatch descriptor kind => { s with host := (s.host.add dispatch descriptor kind).2 }
  | .addUpcaster => { s with host := s.host.addUpcaster }
  | .addService name => { s with host := (s.host.addService name).2 }
  | .start address config port outcome => (s.start address config port outcome).2
  | .stop outcome => (s.stop outcome).2
  | .publish start name status => s.superviseOnce start name status

/-- The state a sequence of actions leaves. -/
def run [Spec] (s : HostState) (actions : List Action) : HostState := Run.run act s actions

/-- **A host that is stopped**: no server of it accepts calls, its event-loop thread is
gone, the last status published for every name is `NOT_SERVING`, and no socket file of a
server it started is left. -/
structure Stopped (s : HostState) : Prop where
  accepting : s.world.accepting = []
  threads : s.world.threads = []
  status : ∀ name status, lastPublished s.world.published name = some status →
    status = .notServing
  sockets : ∀ p ∈ s.world.sockets, p.1 ∉ s.world.served

/-! ### What preparing a start leaves alone -/

theorem perform_append (effects effects' : List Effect) (s : HostState) :
    perform (effects ++ effects') s = perform effects' (perform effects s) :=
  List.foldl_append ..

theorem perform_singleton (effect : Effect) (s : HostState) :
    perform [effect] s = effect.apply s :=
  rfl

/-- The part of a host that preparing a start leaves alone. -/
def hostCore (host : ComponentHost) : ComponentHost :=
  { host with executor := false, health := false, socketPath := none }

/-- The part of the world that preparing a start leaves alone. -/
def worldCore (world : World) : World :=
  { world with sockets := [], published := [] }

/-- **What preparing a start does**: it makes no server accept, binds its own address at
most, and reports nobody serving who was not. -/
structure Prepared (start : ℕ) (address : String) (s s' : HostState) : Prop where
  host : hostCore s'.host = hostCore s.host
  world : worldCore s'.world = worldCore s.world
  sockets : ∀ p ∈ s'.world.sockets, p ∈ s.world.sockets ∨
    p.1 = start ∧ p.2 ≠ "" ∧ socketPathOf address = some p.2
  serving : ∀ name, lastPublished s'.world.published name = some .serving →
    lastPublished s.world.published name = some .serving

/-- The effects of a start's preparation. -/
def Effect.Prepares (start : ℕ) (address : String) : Effect → Prop
  | .makeExecutor => True
  | .addToServer _ => True
  | .publish _ status => status = .notServing
  | .keepHealth => True
  | .bind start' address' => start' = start ∧ address' = address
  | _ => False

theorem Prepared.refl (start : ℕ) (address : String) (s : HostState) :
    Prepared start address s s :=
  ⟨rfl, rfl, fun _ hp => Or.inl hp, fun _ h => h⟩

theorem Prepared.trans {start : ℕ} {address : String} {s s' s'' : HostState}
    (h : Prepared start address s s') (h' : Prepared start address s' s'') :
    Prepared start address s s'' where
  host := h'.host.trans h.host
  world := h'.world.trans h.world
  sockets := fun p hp => (h'.sockets p hp).elim (h.sockets p) Or.inr
  serving := fun name hname => h.serving name (h'.serving name hname)

theorem prepared_apply {start : ℕ} {address : String} {effect : Effect}
    (h : effect.Prepares start address) (s : HostState) :
    Prepared start address s (effect.apply s) := by
  cases effect with
  | makeExecutor => exact ⟨rfl, rfl, fun _ hp => Or.inl hp, fun _ h => h⟩
  | addToServer name => exact .refl start address s
  | publish name status =>
    obtain rfl : status = .notServing := h
    refine ⟨rfl, rfl, fun _ hp => Or.inl hp, fun name' hserving => ?_⟩
    rw [Effect.apply, lastPublished_concat] at hserving
    split at hserving
    · cases hserving
    · exact hserving
  | keepHealth => exact ⟨rfl, rfl, fun _ hp => Or.inl hp, fun _ h => h⟩
  | bind start' address' =>
    obtain ⟨rfl, rfl⟩ := h
    rw [Effect.apply]
    split
    · exact .refl start' address' s
    · next path hpath =>
      refine ⟨rfl, rfl, fun p hp => ?_, fun _ h => h⟩
      -- The one new socket file is the address's own.
      dsimp only at hp
      split at hp
      · exact Or.inl hp
      · next hne =>
        rcases List.mem_cons.mp hp with rfl | hp
        · exact Or.inr ⟨rfl, hne, hpath⟩
        · exact Or.inl (List.mem_of_mem_filter hp)
  | serve _ => exact h.elim
  | keepServer _ => exact h.elim
  | supervise _ _ => exact h.elim
  | cancel _ => exact h.elim
  | stopServer _ => exact h.elim
  | shutdownExecutor => exact h.elim
  | removeSocket _ => exact h.elim

theorem prepared_perform {start : ℕ} {address : String} {effects : List Effect}
    (h : ∀ effect ∈ effects, effect.Prepares start address) (s : HostState) :
    Prepared start address s (perform effects s) := by
  induction effects generalizing s with
  | nil => exact .refl start address s
  | cons effect effects ih =>
    refine (prepared_apply (h effect (List.mem_cons_self ..)) s).trans ?_
    exact ih (fun effect' hmem => h effect' (List.mem_cons_of_mem _ hmem)) _

theorem prepares_of_mem_preparation {host : ComponentHost} {start : ℕ} {address : String}
    {effect : Effect} (h : effect ∈ preparation host start address) :
    effect.Prepares start address := by
  simp only [preparation, List.mem_append, List.mem_cons, List.mem_map, List.not_mem_nil,
    or_false] at h
  rcases h with ((rfl | ⟨name, -, rfl⟩) | ⟨name, -, rfl⟩) | rfl | rfl
  · trivial
  · trivial
  · rfl
  · trivial
  · exact ⟨rfl, rfl⟩

/-- A preparation performed keeps the health servicer, and the path of a Unix address. -/
theorem perform_preparation (host : ComponentHost) (start : ℕ) (address : String)
    (s : HostState) :
    (perform (preparation host start address) s).host.health = true ∧
      ∀ path, socketPathOf address = some path →
        (perform (preparation host start address) s).host.socketPath = some path := by
  rw [preparation, perform_append]
  simp only [perform, List.foldl_cons, List.foldl_nil, Effect.apply]
  cases socketPathOf address with
  | none => exact ⟨rfl, nofun⟩
  | some path => exact ⟨rfl, fun path' h => h⟩

/-! ### The invariant -/

/-- **A host that is down**: nothing it made is left, and nobody is reported serving. -/
structure Down (s : HostState) : Prop where
  thread : s.host.thread = none
  accepting : s.world.accepting = []
  threads : s.world.threads = []
  supervisors : s.world.supervisors = []
  serving : ∀ name, lastPublished s.world.published name ≠ some .serving
  sockets : ∀ p ∈ s.world.sockets, p.1 ∉ s.world.served

/-- **A host that is up**: the world holds what its last start made, the host's fields say
what that is, and whoever is reported serving is among the names `stop` goes through. -/
structure Up (s : HostState) (start : ℕ) : Prop where
  thread : s.host.thread = some start
  server : s.host.server = some start
  health : s.host.health = true
  supervisor : s.host.supervisor = some start
  accepting : s.world.accepting = [start]
  threads : s.world.threads = [start]
  supervisors : ∀ p ∈ s.world.supervisors, p.1 = start ∧ p.2 ⊆ s.host.names
  serving : ∀ name, lastPublished s.world.published name = some .serving →
    name ∈ s.host.names
  sockets : ∀ p ∈ s.world.sockets, p.1 ∈ s.world.served → s.host.socketPath = some p.2

/-- **The invariant**: the host is down when it has no loop and up when it has one. -/
structure Consistent (s : HostState) : Prop where
  claimed : s.host.componentName = none → s.host.kind = none
  served : ∀ start ∈ s.world.served, start < s.world.starts
  sockets : ∀ p ∈ s.world.sockets, p.1 < s.world.starts ∧ p.2 ≠ ""
  down : s.host.loop = none → s.Down
  up : ∀ start, s.host.loop = some start → s.Up start

theorem Down.stopped {s : HostState} (h : s.Down) : s.Stopped where
  accepting := h.accepting
  threads := h.threads
  status := by
    intro name status hlast
    cases status with
    | serving => exact absurd hlast (h.serving name)
    | notServing => rfl
  sockets := h.sockets

/-- A host that is up is not stopped: its server accepts calls. -/
theorem Up.not_stopped {s : HostState} {start : ℕ} (h : s.Up start) : ¬s.Stopped := by
  intro hstopped
  have hnil := hstopped.accepting
  rw [h.accepting] at hnil
  cases hnil

theorem consistent_new (router : Option (Option DispatchTable)) (rulesVersion : String) :
    (new router rulesVersion).Consistent where
  claimed := fun _ => rfl
  served := nofun
  sockets := nofun
  down := fun _ => ⟨rfl, rfl, rfl, rfl, nofun, nofun⟩
  up := nofun

/-! ### Registrations and publications -/

/-- Registering keeps a consistent state consistent, up or down. -/
theorem Consistent.registered {s : HostState} (h : s.Consistent) {host : ComponentHost}
    (hregistered : s.host.Registered host) : ({ s with host := host } : HostState).Consistent where
  claimed := hregistered.claimed h.claimed
  served := h.served
  sockets := h.sockets
  down := by
    intro hloop
    have hdown := h.down (hregistered.loop.symm.trans hloop)
    exact { hdown with thread := hregistered.thread.trans hdown.thread }
  up := by
    intro start hloop
    have hup := h.up start (hregistered.loop.symm.trans hloop)
    exact
      { hup with
        thread := hregistered.thread.trans hup.thread
        server := hregistered.server.trans hup.server
        health := hregistered.health.trans hup.health
        supervisor := hregistered.supervisor.trans hup.supervisor
        supervisors := fun p hp =>
          ⟨(hup.supervisors p hp).1, List.Subset.trans (hup.supervisors p hp).2 hregistered.names⟩
        serving := fun name hname => hregistered.names (hup.serving name hname)
        sockets := fun p hp hserved => hregistered.socketPath.trans (hup.sockets p hp hserved) }

/-- A supervisor publishes only names that `stop` goes through. -/
theorem Consistent.superviseOnce {s : HostState} (h : s.Consistent) (start : ℕ) (name : String)
    (status : HealthStatus) : (s.superviseOnce start name status).Consistent := by
  unfold HostState.superviseOnce
  split
  · next hany =>
    obtain ⟨p, hp, hmatch⟩ := List.any_eq_true.mp hany
    have hname : name ∈ p.2 := (of_decide_eq_true hmatch).2
    refine ⟨h.claimed, h.served, h.sockets, fun hloop => ?_, fun start' hloop => ?_⟩
    · rw [(h.down hloop).supervisors] at hp
      cases hp
    · have hup := h.up start' hloop
      refine { hup with serving := fun name' hlast => ?_ }
      rw [Effect.apply, lastPublished_concat] at hlast
      split at hlast
      · next heq =>
        subst heq
        exact (hup.supervisors p hp).2 hname
      · exact hup.serving name' hlast
  · exact h

/-! ### Starting -/

/-- The state once `start` has made its loop. -/
def looped (s : HostState) : HostState :=
  { s with
    host.loop := some s.world.starts
    host.thread := some s.world.starts
    world.starts := s.world.starts + 1
    world.threads := s.world.starts :: s.world.threads }

/-- The number of the next start is no server's that served. -/
theorem Consistent.fresh {s : HostState} (h : s.Consistent) : s.world.starts ∉ s.world.served :=
  fun hmem => Nat.lt_irrefl _ (h.served _ hmem)

theorem shutdownLoop_of_loop {s : HostState} {loop : ℕ} (h : s.host.loop = some loop) :
    s.shutdownLoop =
      { s with
        host.loop := none
        host.thread := none
        world.threads := s.world.threads.filter fun thread => some thread ≠ s.host.thread
        world.supervisors := s.world.supervisors.filter fun p => p.1 ≠ loop } := by
  unfold shutdownLoop
  rw [h]

section Launch

variable {s s' : HostState} {address : String}

/-- The socket files after a preparation are numbered below the next start, and named. -/
theorem Consistent.sockets_prepared (h : s.Consistent)
    (hprepared : Prepared s.world.starts address s.looped s') :
    ∀ p ∈ s'.world.sockets, p.1 < s.world.starts + 1 ∧ p.2 ≠ "" := by
  intro p hp
  rcases hprepared.sockets p hp with hold | ⟨hstart, hne, -⟩
  · obtain ⟨hlt, hne⟩ := h.sockets p hold
    exact ⟨Nat.lt_succ_of_lt hlt, hne⟩
  · exact ⟨hstart ▸ Nat.lt_succ_self _, hne⟩

/-- The state of a start while it prepares, of a host that was down. -/
structure Launching (s s' : HostState) : Prop where
  loop : s'.host.loop = some s.world.starts
  thread : s'.host.thread = some s.world.starts
  componentName : s'.host.componentName = s.host.componentName
  kind : s'.host.kind = s.host.kind
  names : s'.host.names = s.host.names
  starts : s'.world.starts = s.world.starts + 1
  served : s'.world.served = s.world.served
  accepting : s'.world.accepting = []
  threads : s'.world.threads = [s.world.starts]
  supervisors : s'.world.supervisors = []

theorem Down.launching (hdown : s.Down)
    (hprepared : Prepared s.world.starts address s.looped s') : Launching s s' := by
  have hhost {α : Type} (field : ComponentHost → α) :
      field (hostCore s'.host) = field (hostCore s.looped.host) :=
    congrArg field hprepared.host
  have hworld {α : Type} (field : World → α) :
      field (worldCore s'.world) = field (worldCore s.looped.world) :=
    congrArg field hprepared.world
  exact
    { loop := hhost ComponentHost.loop
      thread := hhost ComponentHost.thread
      componentName := hhost ComponentHost.componentName
      kind := hhost ComponentHost.kind
      names := hhost ComponentHost.names
      starts := hworld World.starts
      served := hworld World.served
      accepting := (hworld World.accepting).trans hdown.accepting
      threads := (hworld World.threads).trans (congrArg (List.cons _) hdown.threads)
      supervisors := (hworld World.supervisors).trans hdown.supervisors }

/-- **A start that raises while it prepares leaves the host down.** -/
theorem Consistent.shutdown_prepared (h : s.Consistent) (hloop : s.host.loop = none)
    (hprepared : Prepared s.world.starts address s.looped s') : s'.shutdownLoop.Consistent := by
  have hdown := h.down hloop
  have hlaunching := hdown.launching hprepared
  rw [shutdownLoop_of_loop hlaunching.loop]
  refine ⟨?_, ?_, ?_, fun _ => ⟨rfl, hlaunching.accepting, ?_, ?_, ?_, ?_⟩, nofun⟩
  · intro hname
    exact hlaunching.kind.trans (h.claimed (hlaunching.componentName.symm.trans hname))
  · intro start hmem
    simp only [hlaunching.served, hlaunching.starts] at hmem ⊢
    exact Nat.lt_succ_of_lt (h.served start hmem)
  · simp only [hlaunching.starts]
    exact h.sockets_prepared hprepared
  · simp [hlaunching.threads, hlaunching.thread]
  · simp [hlaunching.supervisors]
  · intro name hlast
    exact hdown.serving name (hprepared.serving name hlast)
  · intro p hp
    simp only [hlaunching.served]
    rcases hprepared.sockets p hp with hold | ⟨hstart, -, -⟩
    · exact hdown.sockets p hold
    · rw [hstart]
      exact h.fresh

/-- **A start that gets to its end leaves the host up.** -/
theorem Consistent.served_prepared (h : s.Consistent) (hloop : s.host.loop = none)
    (hprepared : Prepared s.world.starts address s.looped s') (hhealth : s'.host.health = true)
    (hsocket : ∀ path, socketPathOf address = some path → s'.host.socketPath = some path)
    (bound : String) :
    ({ perform [.serve s.world.starts, .keepServer s.world.starts,
        .supervise s.world.starts s.host.names] s' with host.address := bound } :
      HostState).Consistent := by
  have hdown := h.down hloop
  have hlaunching := hdown.launching hprepared
  refine ⟨?_, ?_, ?_, fun hnone => ?_, fun start hstart => ?_⟩
  · intro hname
    exact hlaunching.kind.trans (h.claimed (hlaunching.componentName.symm.trans hname))
  · intro start hmem
    simp only [perform, List.foldl_cons, List.foldl_nil, Effect.apply, hlaunching.served,
      hlaunching.starts, List.mem_cons] at hmem ⊢
    rcases hmem with rfl | hmem
    · exact Nat.lt_succ_self _
    · exact Nat.lt_succ_of_lt (h.served start hmem)
  · simp only [perform, List.foldl_cons, List.foldl_nil, Effect.apply, hlaunching.starts]
    exact h.sockets_prepared hprepared
  · exact absurd (hlaunching.loop.symm.trans hnone) nofun
  · obtain rfl : s.world.starts = start := Option.some.inj (hlaunching.loop.symm.trans hstart)
    refine ⟨hlaunching.thread, rfl, hhealth, rfl, ?_, hlaunching.threads, ?_, ?_, ?_⟩
    · exact congrArg (List.cons _) hlaunching.accepting
    · intro p hp
      simp only [perform, List.foldl_cons, List.foldl_nil, Effect.apply, hlaunching.supervisors,
        List.mem_singleton] at hp
      subst hp
      exact ⟨rfl, hlaunching.names ▸ List.Subset.refl _⟩
    · intro name hlast
      exact absurd (hprepared.serving name hlast) (hdown.serving name)
    · intro p hp hserved
      -- A socket file of a server that served is the one just bound.
      rcases hprepared.sockets p hp with hold | ⟨-, -, hpath⟩
      · have hnew : p.1 ∈ s.world.starts :: s'.world.served := hserved
        rw [hlaunching.served] at hnew
        rcases List.mem_cons.mp hnew with heq | hmem
        · exact absurd heq (Nat.ne_of_lt (h.sockets p hold).1)
        · exact absurd hmem (hdown.sockets p hold)
      · exact hsocket p.2 hpath

end Launch

/-! ### Stopping -/

/-- Publishing `NOT_SERVING` for names. -/
theorem perform_publish (names : List String) (s : HostState) :
    perform (names.map (.publish · .notServing)) s =
      { s with world.published := s.world.published ++ names.map (·, .notServing) } := by
  induction names generalizing s with
  | nil => simp [perform]
  | cons name names ih =>
    rw [List.map_cons, perform, List.foldl_cons, ← perform, ih]
    simp [Effect.apply]

/-- After that, no name among them is reported serving, and the others are as before. -/
theorem serving_published {names : List String} {published : List (String × HealthStatus)}
    {name : String}
    (h : lastPublished (published ++ names.map (·, .notServing)) name = some .serving) :
    lastPublished published name = some .serving ∧ name ∉ names := by
  induction names using List.reverseRecOn with
  | nil => exact ⟨by simpa using h, List.not_mem_nil⟩
  | append_singleton names name' ih =>
    rw [List.map_append, List.map_singleton, ← List.append_assoc, lastPublished_concat] at h
    split at h
    · cases h
    · next hne =>
      obtain ⟨hlast, hnot⟩ := ih h
      refine ⟨hlast, fun hmem => ?_⟩
      rcases List.mem_append.mp hmem with hmem | hmem
      · exact hnot hmem
      · exact hne (List.mem_singleton.mp hmem).symm

/-- The socket file a stop removes. -/
theorem perform_removeSocket (path : Option String) (s : HostState) :
    perform (path.map .removeSocket).toList s =
      { s with world.sockets := s.world.sockets.filter fun p => some p.2 ≠ path } := by
  cases path with
  | none => simp [perform]
  | some path => simp [perform, Effect.apply]

/-- **What a stop does to a host that is up**: its supervisor, its server and its socket
file are gone, and every name it serves is published `NOT_SERVING`. -/
theorem Up.perform_stopEffects {s : HostState} {start : ℕ} (h : s.Up start) :
    perform (stopEffects s.host) s =
      { s with
        world.supervisors := s.world.supervisors.filter fun p => p.1 ≠ start
        world.published := s.world.published ++ s.host.names.map (·, .notServing)
        world.accepting := s.world.accepting.filter fun k => k ≠ start
        world.sockets := s.world.sockets.filter fun p =>
          some p.2 ≠ s.host.socketPath.filter (· ≠ "") } := by
  have hexecutor : ∀ s' : HostState,
      perform (if s.host.executor then [.shutdownExecutor] else []) s' = s' := by
    intro s'
    split <;> rfl
  rw [stopEffects, h.supervisor, h.server, if_pos h.health]
  simp only [perform_append, hexecutor, perform_removeSocket, perform_publish,
    perform_singleton, Option.map_some, Option.toList_some]
  rfl

/-- The same, once the loop is shut down. -/
theorem Up.shutdownLoop_perform {s : HostState} {start : ℕ} (h : s.Up start)
    (hloop : s.host.loop = some start) :
    (perform (stopEffects s.host) s).shutdownLoop =
      { s with
        host.loop := none
        host.thread := none
        world.threads := s.world.threads.filter fun thread => some thread ≠ s.host.thread
        world.supervisors := (s.world.supervisors.filter fun p => p.1 ≠ start).filter
          fun p => p.1 ≠ start
        world.published := s.world.published ++ s.host.names.map (·, .notServing)
        world.accepting := s.world.accepting.filter fun k => k ≠ start
        world.sockets := s.world.sockets.filter fun p =>
          some p.2 ≠ s.host.socketPath.filter (· ≠ "") } := by
  rw [h.perform_stopEffects]
  exact shutdownLoop_of_loop hloop

/-- **A stop that gets to its end leaves the host down.** -/
theorem Consistent.stopped_up {s : HostState} (h : s.Consistent) {start : ℕ}
    (hloop : s.host.loop = some start) :
    (perform (stopEffects s.host) s).shutdownLoop.closed.Consistent := by
  have hup := h.up start hloop
  rw [hup.shutdownLoop_perform hloop]
  refine ⟨h.claimed, h.served, fun p hp => h.sockets p (List.mem_of_mem_filter hp),
    fun _ => ⟨rfl, ?_, ?_, ?_, ?_, ?_⟩, nofun⟩
  · simp [closed, hup.accepting]
  · simp [closed, hup.threads, hup.thread]
  · refine List.filter_eq_nil_iff.mpr fun p hp => ?_
    simpa using (hup.supervisors p (List.mem_of_mem_filter hp)).1
  · intro name hlast
    obtain ⟨hbefore, hnot⟩ := serving_published hlast
    exact hnot (hup.serving name hbefore)
  · intro p hp hserved
    obtain ⟨hmem, hne⟩ := List.mem_filter.mp hp
    rw [decide_eq_true_eq, hup.sockets p hmem hserved] at hne
    refine hne ?_
    simp [Option.filter, (h.sockets p hmem).2]

/-- Closing the host's router leaves a host that is down as it was. -/
theorem Consistent.closed_down {s : HostState} (h : s.Consistent) (hloop : s.host.loop = none) :
    s.closed.Consistent where
  claimed := h.claimed
  served := h.served
  sockets := h.sockets
  down := fun _ => { h.down hloop with }
  up := fun _ hsome => absurd (hloop.symm.trans hsome) nofun

/-! ### Runs -/

/-- **An action nothing interrupts**: a start raises, if it does, before its server is
started, and a stop's teardown gets to its end. -/
def Steady (s : HostState) : Action → Prop
  | .start _ _ _ outcome => ∀ done, outcome = .raises done →
      ∀ start address, done ≤ (preparation s.host start address).length
  | .stop outcome => outcome = .finishes
  | _ => True

/-- **A host started since it was stopped**: `stop` was called, and the host has a loop. -/
def StartedAgain (s : HostState) : Prop := s.host.stopped = true ∧ s.host.loop ≠ none

/-- A launched start leaves a consistent state. -/
theorem Consistent.launch {s : HostState} (h : s.Consistent) (hthread : s.host.thread = none)
    (address : String) (port : ℕ) {outcome : Outcome}
    (hsteady : ∀ done, outcome = .raises done →
      ∀ start address, done ≤ (preparation s.host start address).length) :
    (s.launch address port outcome).2.Consistent := by
  -- A host whose thread is none has no loop.
  have hloop : s.host.loop = none := by
    cases hsome : s.host.loop with
    | none => rfl
    | some start => exact absurd ((h.up start hsome).thread.symm.trans hthread) nofun
  have hall : ∀ effect ∈ preparation s.host s.world.starts address,
      effect.Prepares s.world.starts address := fun _ => prepares_of_mem_preparation
  cases outcome with
  | finishes =>
    have hkept := perform_preparation s.host s.world.starts address s.looped
    have hfinal := h.served_prepared hloop (prepared_perform hall s.looped) hkept.1 hkept.2
      (boundAddress address port)
    rw [← perform_append] at hfinal
    exact hfinal
  | raises done =>
    have htake : (startEffects s.host s.world.starts address).take done =
        (preparation s.host s.world.starts address).take done :=
      List.take_append_of_le_length (hsteady done rfl _ _)
    have hprepared : Prepared s.world.starts address s.looped
        (perform ((preparation s.host s.world.starts address).take done) s.looped) :=
      prepared_perform (fun effect hmem => hall effect (List.mem_of_mem_take hmem)) s.looped
    have hfinal := h.shutdown_prepared hloop hprepared
    rw [← htake] at hfinal
    exact hfinal

/-- Reading the transport off the environment removes a stale socket file at most. -/
theorem Consistent.getTransportConfig {s s' : HostState} (h : s.Consistent)
    {config : TransportConfig} {address : String}
    (hconfig : s.getTransportConfig config = some (address, s')) :
    s'.Consistent ∧ s'.host = s.host := by
  cases config with
  | tcp _ =>
    obtain ⟨-, rfl⟩ := Prod.mk.inj (Option.some.inj hconfig)
    exact ⟨h, rfl⟩
  | uds path =>
    obtain ⟨-, rfl⟩ := Prod.mk.inj (Option.some.inj hconfig)
    refine ⟨⟨h.claimed, h.served, fun p hp => h.sockets p (List.mem_of_mem_filter hp),
      fun hloop => ?_, fun start hloop => ?_⟩, rfl⟩
    · have hdown := h.down hloop
      exact { hdown with sockets := fun p hp => hdown.sockets p (List.mem_of_mem_filter hp) }
    · have hup := h.up start hloop
      exact { hup with sockets := fun p hp => hup.sockets p (List.mem_of_mem_filter hp) }
  | raises => cases hconfig

theorem Consistent.start {s : HostState} (h : s.Consistent) (address : Option String)
    (config : TransportConfig) (port : ℕ) {outcome : Outcome}
    (hsteady : s.Steady (.start address config port outcome)) :
    (s.start address config port outcome).2.Consistent := by
  unfold HostState.start
  split
  · exact h
  split
  · exact h
  split
  · exact h
  split
  · exact h
  next hthread =>
  rw [not_not] at hthread
  cases address with
  | some address => exact h.launch hthread address port hsteady
  | none =>
    cases hconfig : s.getTransportConfig config with
    | none => exact h
    | some found =>
      obtain ⟨address, s'⟩ := found
      obtain ⟨hs', hhost⟩ := h.getTransportConfig hconfig
      refine hs'.launch (hhost ▸ hthread) address port ?_
      rw [hhost]
      exact hsteady

/-- **What a stop leaves**: a consistent state, and down unless the host was started since
an earlier stop, when it is left as it was. -/
theorem Consistent.stop {s : HostState} (h : s.Consistent) :
    (s.stop .finishes).2.Consistent ∧
      (¬s.StartedAgain → (s.stop .finishes).2.Down) ∧
      (s.StartedAgain → (s.stop .finishes).2 = s) := by
  unfold HostState.stop
  split
  · next hstopped =>
    refine ⟨h, fun hagain => h.down ?_, fun _ => rfl⟩
    by_contra hloop
    exact hagain ⟨hstopped, hloop⟩
  · next hstopped =>
    split
    · next hloop =>
      refine ⟨h.closed_down hloop, fun _ => (h.closed_down hloop).down hloop, fun hagain => ?_⟩
      exact absurd hagain.1 hstopped
    · next hloop =>
      obtain ⟨start, hstart⟩ := Option.ne_none_iff_exists'.mp hloop
      have hfinal := h.stopped_up hstart
      refine ⟨hfinal, fun _ => hfinal.down ?_, fun hagain => absurd hagain.1 hstopped⟩
      rw [(h.up start hstart).shutdownLoop_perform hstart]
      rfl

section Runs

variable [Spec]

/-- **The step**: an action nothing interrupts leaves a consistent state. -/
theorem Consistent.act {s : HostState} (h : s.Consistent) {action : Action}
    (hsteady : s.Steady action) : (s.act action).Consistent := by
  cases action with
  | add dispatch descriptor kind =>
    exact h.registered (ComponentHost.registered_add h.claimed dispatch descriptor kind)
  | addUpcaster => exact h.registered (ComponentHost.registered_addUpcaster s.host)
  | addService name => exact h.registered (ComponentHost.registered_addService s.host name)
  | start address config port outcome => exact h.start address config port hsteady
  | stop outcome =>
    obtain rfl : outcome = .finishes := hsteady
    exact h.stop.1
  | publish start name status => exact h.superviseOnce start name status

/-- A run nothing interrupts, each action seen on the state it happens to. -/
def SteadyRun (s : HostState) (actions : List Action) : Prop := Run.Along act Steady s actions

/-- **`stop` really stops exactly when the host was not started since an earlier one.**
Over a run of registrations, starts and stops in any order that nothing interrupts, every
stop leaves the host stopped if and only if none is called on a host that was started
after an earlier stop. -/
theorem stop_really_stops_iff (router : Option (Option DispatchTable)) (rulesVersion : String)
    (actions : List Action) (hsteady : (new router rulesVersion).SteadyRun actions) :
    (∀ pre outcome post, actions = pre ++ .stop outcome :: post →
      (((new router rulesVersion).run pre).stop outcome).1 = .ok () →
        (((new router rulesVersion).run pre).stop outcome).2.Stopped) ↔
    ∀ pre outcome post, actions = pre ++ .stop outcome :: post →
      ¬((new router rulesVersion).run pre).StartedAgain := by
  -- The invariant, wherever an action of the run happens.
  have hstep : ∀ s action, Consistent s → Steady s action → Consistent (s.act action) :=
    fun _ _ hs ha => hs.act ha
  have hconsistent := Run.along_of_invariant hstep (consistent_new router rulesVersion) hsteady
  constructor
  · intro h pre outcome post hsplit hagain
    obtain ⟨hstate, hfinishes⟩ := hconsistent pre _ post hsplit
    change ((new router rulesVersion).run pre).Consistent at hstate
    obtain rfl : outcome = .finishes := hfinishes
    -- The stop returned at once, and the host is as up as it was.
    have hreturns : (((new router rulesVersion).run pre).stop .finishes).1 = .ok () := by
      rw [stop, if_pos hagain.1]
    have hstopped := h pre .finishes post hsplit hreturns
    rw [hstate.stop.2.2 hagain] at hstopped
    obtain ⟨start, hstart⟩ := Option.ne_none_iff_exists'.mp hagain.2
    exact (hstate.up start hstart).not_stopped hstopped
  · intro h pre outcome post hsplit _
    obtain ⟨hstate, hfinishes⟩ := hconsistent pre _ post hsplit
    change ((new router rulesVersion).run pre).Consistent at hstate
    obtain rfl : outcome = .finishes := hfinishes
    exact (hstate.stop.2.1 (h pre .finishes post hsplit)).stopped

end Runs

/-- A start of a host on a Unix socket, which gets to its end. -/
def startOnSocket : Action :=
  .start (some "unix:/run/host.sock") (.tcp "[::]:0") 0 .finishes

open scoped Ledger in
/-- An upcaster's host, started once and stopped: every stop stops it. -/
theorem stop_really_stops_iff_upcaster :
    (new none "").SteadyRun [.addUpcaster, startOnSocket, .stop .finishes] ∧
    ((∀ pre outcome post, [.addUpcaster, startOnSocket, .stop .finishes] =
        pre ++ Action.stop outcome :: post →
      (((new none "").run pre).stop outcome).1 = .ok () →
        (((new none "").run pre).stop outcome).2.Stopped) ↔
    ∀ pre outcome post, [.addUpcaster, startOnSocket, .stop .finishes] =
        pre ++ Action.stop outcome :: post → ¬((new none "").run pre).StartedAgain) := by
  have hsteady : (new none "").SteadyRun [.addUpcaster, startOnSocket, .stop .finishes] := by
    refine Run.along_of_forall fun action hmem s => ?_
    rcases List.mem_cons.mp hmem with rfl | hmem
    · trivial
    rcases List.mem_pair.mp hmem with rfl | rfl
    · exact nofun
    · rfl
  exact ⟨hsteady, stop_really_stops_iff none "" _ hsteady⟩

open scoped Ledger in
/-- **A stop before the start makes the stop after it do nothing**: it returns, and the
server accepts calls, its thread runs, its health says `SERVING` and its socket file is
there. -/
theorem stop_returns_while_serving :
    let s := (new none "").run [.addUpcaster, .stop .finishes, startOnSocket,
      .publish 0 "" .serving]
    (s.stop .finishes).1 = .ok () ∧ (s.stop .finishes).2.world.accepting = [0] ∧
      (s.stop .finishes).2.world.threads = [0] ∧
      lastPublished (s.stop .finishes).2.world.published "" = some .serving ∧
      (s.stop .finishes).2.world.sockets = [(0, "/run/host.sock")] ∧
      ¬(s.stop .finishes).2.Stopped := by
  refine ⟨by decide, by decide, by decide, by decide, by decide, fun h => ?_⟩
  exact absurd h.accepting (by decide)

end HostState

end AngzarrClient
