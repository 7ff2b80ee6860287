import AngzarrClient.Host.Lifecycle
import AngzarrClient.Router.Router
import AngzarrClient.Router.Stages

/-!
# What a host says it hosts, and what its router holds

A host and its router keep one registration between them. The host keeps the component's
name, its kind service and its descriptor, and the names of those it refused; the router
keeps the table, stamped with the host's version unless it declares its own. They are
written one after another by a registration (`AngzarrClient.Hosting.add`), and a stop empties
an owned router and leaves the host's half as it is. What calls reach is a third thing: a
start puts the servicers on its server that the host's half asks for then
(`AngzarrClient.Servicers`), and the server keeps those.

Two things follow. A registration that the host's own checks refuse leaves nothing behind;
one that the router refuses leaves the claim and the stamp, since both are made before the
router is asked (`AngzarrClient.Hosting.refused_leaves_nothing_iff`). And a host that owns
its router and reports `SERVING` hosts the component it describes, as long as it is not
started on a router that a stop has emptied, nor given its component while it is up as an
upcaster's (`AngzarrClient.Hosting.serving_hosts`).
-/

namespace AngzarrClient

open Router

variable {σ : Type}

/-! ### What a host reads of a table -/

namespace Router.Component

/-- The domains of a projector's table. -/
def domains : Component σ → List String
  | .projector table => table.domains
  | _ => []

/-- What a host reads of a table. -/
def table (dispatch : Component σ) : DispatchTable where
  name := dispatch.name
  kind := dispatch.kind
  rulesVersion := dispatch.rulesVersion
  domains := dispatch.domains

/-- `dispatch.rules_version = version`. -/
def withRulesVersion (version : String) : Component σ → Component σ
  | .aggregate table => .aggregate (table.withRulesVersion version)
  | .processManager table => .processManager (table.withRulesVersion version)
  | .policy table => .policy (table.withRulesVersion version)
  | .projector table => .projector (table.withRulesVersion version)

@[simp] theorem kind_withRulesVersion (version : String) (dispatch : Component σ) :
    (dispatch.withRulesVersion version).kind = dispatch.kind := by
  cases dispatch <;> rfl

@[simp] theorem rulesVersion_withRulesVersion (version : String) (dispatch : Component σ) :
    (dispatch.withRulesVersion version).rulesVersion = version := by
  cases dispatch <;> rfl

@[simp] theorem table_withRulesVersion (version : String) (dispatch : Component σ) :
    (dispatch.withRulesVersion version).table =
      { dispatch.table with rulesVersion := version } := by
  cases dispatch <;> rfl

end Router.Component

namespace Router.Component

/-- `_versioned`, on the table itself: it is stamped with the host's version, unless it
declares its own. -/
def stamped (rulesVersion : String) (dispatch : Component σ) : Component σ :=
  if rulesVersion ≠ "" ∧ dispatch.rulesVersion = "" then dispatch.withRulesVersion rulesVersion
  else dispatch

theorem table_stamped (host : ComponentHost) (dispatch : Component σ) :
    (dispatch.stamped host.rulesVersion).table = host.versioned dispatch.table := by
  unfold stamped ComponentHost.versioned
  change _ = if host.rulesVersion ≠ "" ∧ dispatch.rulesVersion = "" then _ else _
  by_cases h : host.rulesVersion ≠ "" ∧ dispatch.rulesVersion = ""
  · rw [if_pos h, if_pos h, table_withRulesVersion]
  · rw [if_neg h, if_neg h]

theorem kind_stamped (rulesVersion : String) (dispatch : Component σ) :
    (dispatch.stamped rulesVersion).kind = dispatch.kind := by
  unfold stamped
  split
  · exact kind_withRulesVersion _ dispatch
  · rfl

/-- A stamped table declares the version the host reported for it. -/
theorem rulesVersion_stamped (host : ComponentHost) (dispatch : Component σ) :
    (dispatch.stamped host.rulesVersion).rulesVersion = host.reported dispatch.table := by
  unfold stamped ComponentHost.reported
  change _ = if dispatch.rulesVersion = "" then _ else dispatch.rulesVersion
  by_cases hdeclared : dispatch.rulesVersion = ""
  · by_cases hversion : host.rulesVersion = ""
    · rw [if_neg fun h => h.1 hversion, if_pos hdeclared, hdeclared, hversion]
    · rw [if_pos ⟨hversion, hdeclared⟩, if_pos hdeclared]
      exact rulesVersion_withRulesVersion _ dispatch
  · rw [if_neg fun h => hdeclared h.2, if_neg hdeclared]

end Router.Component

/-! ### A host with its router -/

/-- The servicers a server was given of what registrations write: the component's kind
service, over the host's router, and `ComponentService`, over a descriptor. -/
structure Servicers where
  kind : Option String
  descriptor : Option ComponentDescriptor
  deriving DecidableEq

/-- `_start`, its `add_*Servicer_to_server` calls: the host as it is then is read, and what is
registered later is on no server. -/
def ComponentHost.servicers (host : ComponentHost) : Servicers where
  kind := host.kind
  descriptor := if host.kind = none then none else host.descriptor

/-- A host and the world around it, with the router it hands its table to and what its last
start put on its server. -/
structure Hosting (σ : Type) where
  state : HostState
  router : Router σ
  servicers : Servicers

namespace Hosting

/-- `ComponentHost(router, rules_version=)`: the router given, or one of the host's own. -/
def new (router : Option (Router σ)) (rulesVersion : String) : Hosting σ where
  state := .new (router.map fun router => router.component.map Component.table) rulesVersion
  router := router.getD ⟨none⟩
  servicers := ⟨none, none⟩

variable [Spec]

/-- `_add`, of a table of its kind: what it returns or raises, what it leaves, and the table
as it is then. -/
def add (s : Hosting σ) (dispatch : Component σ) (descriptor : ComponentDescriptor) :
    Except HostError Unit × Hosting σ × Component σ :=
  let reported := s.state.host.reported dispatch.table
  if descriptor.rulesVersion ≠ reported then
    (.error (.configuration "HOST_REASON_DESCRIPTOR_RULES_VERSION_MISMATCH"
      [("component", dispatch.name), ("described", descriptor.rulesVersion),
        ("reported", reported)]), s, dispatch)
  else if dispatch.kind = .projector ∧ (dispatch.domains = [] ∨ descriptor.inputs = []) then
    (.error (.configuration "HOST_REASON_PROJECTOR_NO_INPUT_DOMAIN"
      [("component", dispatch.name)]), s, dispatch)
  else
    match s.state.host.claim dispatch.table with
    | (false, host) => (.ok (), { s with state.host := host }, dispatch)
    | (true, host) =>
      let dispatch := dispatch.stamped host.rulesVersion
      match s.router.register dispatch with
      | .error error => (.error (.router error), { s with state.host := host }, dispatch)
      | .ok router =>
        (.ok (),
          { s with
            state := { s.state with
              host := { host with
                component := router.component.map Component.table
                kind := some dispatch.kind.service
                descriptor := some descriptor } }
            router := router }, dispatch)

/-- `start`: what it returns or raises, and the servicers of the server it has started. -/
def start (s : Hosting σ) (address : Option String) (config : HostState.TransportConfig)
    (port : ℕ) (outcome : HostState.Outcome) : Except HostError String × Hosting σ :=
  ((s.state.start address config port outcome).1,
    { s with
      state := (s.state.start address config port outcome).2
      servicers :=
        if (s.state.start address config port outcome).1.isOk then s.state.host.servicers
        else s.servicers })

/-- `stop`: an owned router is closed, unless `stop` was called before. -/
def stop (s : Hosting σ) (outcome : HostState.Outcome) : Except HostError Unit × Hosting σ :=
  ((s.state.stop outcome).1,
    { s with
      state := (s.state.stop outcome).2
      router :=
        if s.state.host.stopped = false ∧ s.state.host.ownsRouter = true then s.router.close
        else s.router })

/-- What happens to a host: a registration, a start, a stop, or a status its supervisor
publishes. -/
inductive Action (σ : Type) where
  | add (dispatch : Component σ) (descriptor : ComponentDescriptor)
  | addUpcaster
  | addService (name : String)
  | start (address : Option String) (config : HostState.TransportConfig) (port : ℕ)
      (outcome : HostState.Outcome)
  | stop (outcome : HostState.Outcome)
  | publish (start : ℕ) (name : String) (status : HealthStatus)

/-- The state an action leaves. -/
def act (s : Hosting σ) : Action σ → Hosting σ
  | .add dispatch descriptor => (s.add dispatch descriptor).2.1
  | .addUpcaster => { s with state.host := s.state.host.addUpcaster }
  | .addService name => { s with state.host := (s.state.host.addService name).2 }
  | .start address config port outcome => (s.start address config port outcome).2
  | .stop outcome => (s.stop outcome).2
  | .publish start name status => { s with state := s.state.superviseOnce start name status }

/-- The state a sequence of actions leaves. -/
def run (s : Hosting σ) (actions : List (Action σ)) : Hosting σ := Run.run act s actions

/-- What an action returns, its value where it has one, or what it raises. -/
def outcome (s : Hosting σ) : Action σ → Except HostError String
  | .add dispatch descriptor => (s.add dispatch descriptor).1.map fun _ => ""
  | .addUpcaster => .ok ""
  | .addService name => (s.state.host.addService name).1.map fun _ => ""
  | .start address config port outcome => (s.start address config port outcome).1
  | .stop outcome => (s.stop outcome).1.map fun _ => ""
  | .publish _ _ _ => .ok ""

/-- Whether the server answers calls of a kind service, by dispatching them through the
router. -/
def Serves (s : Hosting σ) (service : String) : Prop := s.servicers.kind = some service

/-- `Describe`: the descriptor it answers, where `ComponentService` is served. -/
def describe (s : Hosting σ) : Option ComponentDescriptor := s.servicers.descriptor

/-! ### What a registration can do -/

/-- The host's own checks refuse a registration: the descriptor describes another version, or
a projector names no domain it reads. -/
def Refuses (s : Hosting σ) (dispatch : Component σ) (descriptor : ComponentDescriptor) : Prop :=
  descriptor.rulesVersion ≠ s.state.host.reported dispatch.table ∨
    dispatch.kind = .projector ∧ (dispatch.domains = [] ∨ descriptor.inputs = [])

/-- The host that claimed a component. -/
def claimed (s : Hosting σ) (dispatch : Component σ) : ComponentHost :=
  { s.state.host with componentName := some dispatch.name }

/-- The host and the router that hold a component. -/
def hosted (s : Hosting σ) (dispatch : Component σ) (descriptor : ComponentDescriptor) :
    Hosting σ where
  state := { s.state with
    host := { s.claimed dispatch with
      component := some (dispatch.stamped s.state.host.rulesVersion).table
      kind := some dispatch.kind.service
      descriptor := some descriptor } }
  router := ⟨some (dispatch.stamped s.state.host.rulesVersion)⟩
  servicers := s.servicers

/-- **All a registration can do.** -/
inductive Added (s : Hosting σ) (dispatch : Component σ) (descriptor : ComponentDescriptor) :
    Except HostError Unit × Hosting σ × Component σ → Prop where
  /-- The host's own checks refuse it. -/
  | checked (error : HostError) (h : s.Refuses dispatch descriptor) :
      Added s dispatch descriptor (.error error, s, dispatch)
  /-- The host has a component: the name of this one is remembered. -/
  | second (h : ¬s.Refuses dispatch descriptor) (hname : s.state.host.componentName ≠ none) :
      Added s dispatch descriptor
        (.ok (), { s with state.host.refused := s.state.host.refused ++ [dispatch.name] },
          dispatch)
  /-- The router has a component: it refuses, once the host has claimed and stamped. -/
  | duplicate (error : HostError) (h : ¬s.Refuses dispatch descriptor)
      (hname : s.state.host.componentName = none) (hheld : s.router.component ≠ none) :
      Added s dispatch descriptor
        (.error error, { s with state.host := s.claimed dispatch },
          dispatch.stamped s.state.host.rulesVersion)
  /-- It is hosted. -/
  | hosted (h : ¬s.Refuses dispatch descriptor) (hname : s.state.host.componentName = none)
      (hempty : s.router.component = none) :
      Added s dispatch descriptor
        (.ok (), s.hosted dispatch descriptor, dispatch.stamped s.state.host.rulesVersion)

theorem added_add (s : Hosting σ) (dispatch : Component σ) (descriptor : ComponentDescriptor) :
    s.Added dispatch descriptor (s.add dispatch descriptor) := by
  unfold add
  dsimp only
  split
  · next hversion => exact .checked _ (Or.inl hversion)
  split
  · next hdomain => exact .checked _ (Or.inr hdomain)
  next hversion hdomain =>
  have haccepts : ¬s.Refuses dispatch descriptor := by
    rintro (h | h)
    · exact hversion h
    · exact hdomain h
  by_cases hname : s.state.host.componentName = none
  · rw [ComponentHost.claim_of_none hname]
    dsimp only
    unfold Router.register
    cases hheld : s.router.component with
    | some held => exact .duplicate _ haccepts hname (hheld ▸ nofun)
    | none =>
      have hhosted := Added.hosted haccepts hname hheld
      rw [Hosting.hosted, ← dispatch.kind_stamped s.state.host.rulesVersion] at hhosted
      exact hhosted
  · rw [ComponentHost.claim_of_ne_none hname]
    exact .second haccepts hname

end Hosting

/-! ### What the coroutines leave alone -/

namespace HostState

/-- The part of a host that no effect of a start or a stop changes. -/
def kept (host : ComponentHost) : ComponentHost :=
  { host with server := none, health := false, supervisor := none, executor := false,
              socketPath := none }

theorem kept_apply (effect : Effect) (s : HostState) :
    kept (effect.apply s).host = kept s.host := by
  cases effect with
  | bind start address =>
    rw [Effect.apply]
    split <;> rfl
  | _ => rfl

theorem kept_perform (effects : List Effect) (s : HostState) :
    kept (perform effects s).host = kept s.host := by
  induction effects generalizing s with
  | nil => rfl
  | cons effect effects ih => exact (ih (effect.apply s)).trans (kept_apply effect s)

/-- No other status than `NOT_SERVING` is published. -/
def Effect.Lowers : Effect → Prop
  | .publish _ status => status = .notServing
  | _ => True

/-- Effects that lower at most say `SERVING` of nobody new, and of nobody they lower. -/
theorem serving_perform {effects : List Effect} (hlowers : ∀ effect ∈ effects, effect.Lowers)
    {s : HostState} {name : String}
    (h : lastPublished (perform effects s).world.published name = some .serving) :
    lastPublished s.world.published name = some .serving ∧
      .publish name .notServing ∉ effects := by
  induction effects generalizing s with
  | nil => exact ⟨h, List.not_mem_nil⟩
  | cons effect effects ih =>
    obtain ⟨hserving, hnot⟩ :=
      ih (fun e he => hlowers e (List.mem_cons_of_mem _ he)) (s := effect.apply s) h
    have hlower := hlowers effect (List.mem_cons_self ..)
    cases effect with
    | publish name' status =>
      obtain rfl : status = .notServing := hlower
      rw [Effect.apply, lastPublished_concat] at hserving
      split at hserving
      · cases hserving
      · next hne =>
        refine ⟨hserving, fun hmem => ?_⟩
        rcases List.mem_cons.mp hmem with heq | hmem
        · cases heq
          exact hne rfl
        · exact hnot hmem
    | bind start address =>
      rw [Effect.apply] at hserving
      refine ⟨?_, List.not_mem_cons_of_ne_of_not_mem (by rintro ⟨⟩) hnot⟩
      split at hserving <;> exact hserving
    | _ => exact ⟨hserving, List.not_mem_cons_of_ne_of_not_mem (by rintro ⟨⟩) hnot⟩

/-- A supervisor after some effects was there before them, or is one they made. -/
theorem mem_supervisors_perform {effects : List Effect} {s : HostState}
    {p : ℕ × List String} (h : p ∈ (perform effects s).world.supervisors) :
    p ∈ s.world.supervisors ∨ .supervise p.1 p.2 ∈ effects := by
  induction effects generalizing s with
  | nil => exact Or.inl h
  | cons effect effects ih =>
    refine (ih (s := effect.apply s) h).elim (fun hmem => ?_)
      fun hmem => Or.inr (List.mem_cons_of_mem _ hmem)
    cases effect with
    | supervise start names =>
      rcases List.mem_cons.mp hmem with rfl | hmem
      · exact Or.inr (List.mem_cons_self ..)
      · exact Or.inl hmem
    | cancel start => exact Or.inl (List.mem_of_mem_filter hmem)
    | bind start address =>
      rw [Effect.apply] at hmem
      refine Or.inl ?_
      split at hmem <;> exact hmem
    | _ => exact Or.inl hmem

theorem lowers_of_mem_startEffects {host : ComponentHost} {start : ℕ} {address : String}
    {effect : Effect} (h : effect ∈ startEffects host start address) : effect.Lowers := by
  rcases List.mem_append.mp h with hmem | hmem
  · have hprepares := prepares_of_mem_preparation hmem
    cases effect with
    | publish name status => exact hprepares
    | _ => trivial
  · simp only [List.mem_cons, List.not_mem_nil, or_false] at hmem
    rcases hmem with rfl | rfl | rfl <;> trivial

/-- What a stop does: it publishes `NOT_SERVING`, or takes down a part. -/
theorem mem_stopEffects {host : ComponentHost} {effect : Effect} (h : effect ∈ stopEffects host) :
    (∃ name, effect = .publish name .notServing) ∨ (∃ start, effect = .cancel start) ∨
      (∃ start, effect = .stopServer start) ∨ effect = .shutdownExecutor ∨
        ∃ path, effect = .removeSocket path := by
  simp only [stopEffects, List.mem_append, Option.mem_toList, Option.map_eq_some_iff] at h
  rcases h with (((⟨start, -, rfl⟩ | h) | ⟨start, -, rfl⟩) | h) | ⟨path, -, rfl⟩
  · exact Or.inr (Or.inl ⟨start, rfl⟩)
  · split at h
    · obtain ⟨name, -, rfl⟩ := List.mem_map.mp h
      exact Or.inl ⟨name, rfl⟩
    · cases h
  · exact Or.inr (Or.inr (Or.inl ⟨start, rfl⟩))
  · split at h
    · exact Or.inr (Or.inr (Or.inr (Or.inl (List.mem_singleton.mp h))))
    · cases h
  · exact Or.inr (Or.inr (Or.inr (Or.inr ⟨path, rfl⟩)))

theorem lowers_of_mem_stopEffects {host : ComponentHost} {effect : Effect}
    (h : effect ∈ stopEffects host) : effect.Lowers := by
  rcases mem_stopEffects h with ⟨name, rfl⟩ | ⟨start, rfl⟩ | ⟨start, rfl⟩ | rfl | ⟨path, rfl⟩
  · exact rfl
  all_goals trivial

/-- A start makes no supervisor but its own. -/
theorem supervise_mem_startEffects {host : ComponentHost} {start start' : ℕ}
    {address : String} {names : List String}
    (h : .supervise start' names ∈ startEffects host start address) :
    start' = start ∧ names = host.names := by
  rcases List.mem_append.mp h with hmem | hmem
  · exact (prepares_of_mem_preparation hmem).elim
  · simpa using hmem

/-- A stop makes none. -/
theorem supervise_not_mem_stopEffects {host : ComponentHost} {start : ℕ}
    {names : List String} : .supervise start names ∉ stopEffects host := by
  intro h
  rcases mem_stopEffects h with ⟨_, h⟩ | ⟨_, h⟩ | ⟨_, h⟩ | h | ⟨_, h⟩ <;> cases h

/-- The part of a host that registrations write, its router's table apart. -/
def registration (host : ComponentHost) : ComponentHost :=
  { kept host with component := none, loop := none, thread := none, stopped := false,
                   address := "" }

theorem registration_of_kept {host host' : ComponentHost} (h : kept host' = kept host) :
    registration host' = registration host := by
  rw [registration, registration, h]

theorem registration_shutdownLoop (s : HostState) :
    registration s.shutdownLoop.host = registration s.host := by
  unfold shutdownLoop
  split <;> rfl

/-- **A start, refused or launched.** Reading the transport touches socket files at most. -/
theorem start_cases (s : HostState) (address : Option String) (config : TransportConfig)
    (port : ℕ) (outcome : Outcome) :
    (∃ error, s.start address config port outcome = (.error error, s)) ∨
    (s.host.refused = [] ∧ ¬(s.host.kind ≠ none ∧ s.host.upcaster = true) ∧
      s.host.thread = none ∧ ∃ address' sockets, s.start address config port outcome =
        launch { s with world.sockets := sockets } address' port outcome) := by
  unfold start
  split
  · exact Or.inl ⟨_, rfl⟩
  next hboth =>
  split
  · exact Or.inl ⟨_, rfl⟩
  split
  · exact Or.inl ⟨_, rfl⟩
  next hrefused =>
  split
  · exact Or.inl ⟨_, rfl⟩
  next hthread =>
  rw [not_not] at hrefused hthread
  cases address with
  | some address => exact Or.inr ⟨hrefused, hboth, hthread, address, s.world.sockets, rfl⟩
  | none =>
    cases config with
    | tcp address => exact Or.inr ⟨hrefused, hboth, hthread, address, s.world.sockets, rfl⟩
    | uds path => exact Or.inr ⟨hrefused, hboth, hthread, _, _, rfl⟩
    | raises => exact Or.inl ⟨_, rfl⟩

/-- **What a launch does to a host**: it leaves what was registered, says `SERVING` of nobody
new, and the host is up, with the supervisor of that launch, or down again, with none. -/
structure Launched (s s' : HostState) : Prop where
  registration : registration s'.host = registration s.host
  component : s'.host.component = s.host.component
  serving : ∀ name, lastPublished s'.world.published name = some .serving →
    lastPublished s.world.published name = some .serving
  up : s'.host.loop ≠ none → s'.host.loop = some s.world.starts ∧ s'.host.health = true
  thread : s'.host.thread = s'.host.loop
  supervisors : ∀ p ∈ s'.world.supervisors, p ∈ s.world.supervisors ∨
    s'.host.loop = some p.1

section Launch

variable {s s' : HostState} (hkept : kept s'.host = kept s.looped.host)
  (hserving : ∀ name, lastPublished s'.world.published name = some .serving →
    lastPublished s.world.published name = some .serving)
  (hsupervisors : ∀ p ∈ s'.world.supervisors, p ∈ s.world.supervisors ∨ p.1 = s.world.starts)

include hkept hserving hsupervisors

/-- `_start` got to its end. -/
theorem launched_up (hhealth : s'.host.health = true) (bound : String) :
    Launched s { s' with host.address := bound } := by
  have hloop : s'.host.loop = some s.world.starts := congrArg ComponentHost.loop hkept
  have hthread : s'.host.thread = some s.world.starts := congrArg ComponentHost.thread hkept
  have hcomponent : s'.host.component = s.host.component := by
    have h := congrArg ComponentHost.component hkept
    exact h
  have hregistration : registration s'.host = registration s.looped.host :=
    registration_of_kept hkept
  refine ⟨hregistration, hcomponent, hserving, fun _ => ⟨hloop, hhealth⟩,
    hthread.trans hloop.symm, fun p hp => ?_⟩
  refine (hsupervisors p hp).imp_right fun heq => ?_
  rw [heq]
  exact hloop

/-- `_start` raised. -/
theorem launched_down : Launched s s'.shutdownLoop := by
  have hloop : s'.host.loop = some s.world.starts := congrArg ComponentHost.loop hkept
  have hcomponent : s'.host.component = s.host.component := by
    have h := congrArg ComponentHost.component hkept
    exact h
  have hregistration :=
    (registration_shutdownLoop s').trans (registration_of_kept hkept)
  rw [shutdownLoop_of_loop hloop] at hregistration ⊢
  refine ⟨hregistration, hcomponent, hserving,
    fun h => absurd rfl h, rfl, fun p hp => ?_⟩
  obtain ⟨hp, hne⟩ := List.mem_filter.mp hp
  exact Or.inl ((hsupervisors p hp).resolve_right (of_decide_eq_true hne))

end Launch

theorem launched_launch (s : HostState) (address : String) (port : ℕ) (outcome : Outcome) :
    Launched s (s.launch address port outcome).2 := by
  have hmem : ∀ effect ∈ outcome.performed (startEffects s.host s.world.starts address),
      effect ∈ startEffects s.host s.world.starts address := by
    intro effect heffect
    cases outcome with
    | finishes => exact heffect
    | raises done => exact List.mem_of_mem_take heffect
  have hkept := kept_perform (outcome.performed (startEffects s.host s.world.starts address))
    s.looped
  have hlowers : ∀ effect ∈ outcome.performed (startEffects s.host s.world.starts address),
      effect.Lowers := fun effect heffect => lowers_of_mem_startEffects (hmem effect heffect)
  have hserving (name : String)
      (h : lastPublished (perform _ s.looped).world.published name = some .serving) :=
    (serving_perform hlowers h).1
  have hsupervisors := fun p hp => (mem_supervisors_perform (s := s.looped) (p := p) hp).imp_right
    fun heffect => (supervise_mem_startEffects (hmem _ heffect)).1
  cases outcome with
  | finishes =>
    refine launched_up hkept hserving hsupervisors ?_ (boundAddress address port)
    have hhealth := (perform_preparation s.host s.world.starts address s.looped).1
    change (perform (startEffects s.host s.world.starts address) s.looped).host.health = true
    rw [startEffects, perform_append]
    exact hhealth
  | raises done => exact launched_down hkept hserving hsupervisors

/-- A launch that raises leaves no loop. -/
theorem loop_launch_raises (s : HostState) (address : String) (port done : ℕ) :
    (s.launch address port (.raises done)).2.host.loop = none := by
  have hkept := kept_perform ((Outcome.raises done).performed
    (startEffects s.host s.world.starts address)) s.looped
  have hloop := congrArg ComponentHost.loop hkept
  exact congrArg (fun s' => s'.host.loop) (shutdownLoop_of_loop hloop)

theorem registration_closed (s : HostState) :
    registration s.closed.host = registration s.host := by
  unfold closed
  split <;> rfl

/-- **What a stop does to a host that is up**: it leaves what was registered, and the host is
down, with no supervisor, saying `SERVING` of nobody it did not lower. -/
structure TornDown (s s' : HostState) (effects : List Effect) : Prop where
  registration : registration s'.host = registration s.host
  loop : s'.host.loop = none
  thread : s'.host.thread = none
  serving : ∀ name, lastPublished s'.world.published name = some .serving →
    lastPublished s.world.published name = some .serving ∧ .publish name .notServing ∉ effects
  supervisors : ∀ p ∈ s'.world.supervisors, p ∈ s.world.supervisors ∧ s.host.loop ≠ some p.1

/-- **A stop, at once or tearing down.** -/
theorem stop_cases (s : HostState) (outcome : Outcome) :
    s.host.stopped = true ∧ (s.stop outcome).2 = s ∨
    s.host.stopped = false ∧ s.host.loop = none ∧ (s.stop outcome).2 = s.closed ∨
    s.host.stopped = false ∧ s.host.loop ≠ none ∧
      TornDown s (s.stop outcome).2 (outcome.performed (stopEffects s.host)) := by
  have hmem : ∀ effect ∈ outcome.performed (stopEffects s.host), effect ∈ stopEffects s.host := by
    intro effect heffect
    cases outcome with
    | finishes => exact heffect
    | raises done => exact List.mem_of_mem_take heffect
  unfold stop
  split
  · next hstopped => exact Or.inl ⟨hstopped, rfl⟩
  next hstopped =>
  rw [Bool.not_eq_true] at hstopped
  split
  · next hloop => exact Or.inr (Or.inl ⟨hstopped, hloop, rfl⟩)
  next hloop =>
  refine Or.inr (Or.inr ⟨hstopped, hloop, ?_⟩)
  have hdown : TornDown s (perform (outcome.performed (stopEffects s.host)) s).shutdownLoop.closed
      (outcome.performed (stopEffects s.host)) := by
    obtain ⟨loop, hsome⟩ := Option.ne_none_iff_exists'.mp hloop
    have hkept := kept_perform (outcome.performed (stopEffects s.host)) s
    have hlowers : ∀ effect ∈ outcome.performed (stopEffects s.host), effect.Lowers :=
      fun effect heffect => lowers_of_mem_stopEffects (hmem effect heffect)
    have hserving (name : String)
        (h : lastPublished (perform _ s).world.published name = some .serving) :=
      serving_perform hlowers h
    have hsupervisors := fun p hp => (mem_supervisors_perform (s := s) (p := p) hp).resolve_right
      fun heffect => supervise_not_mem_stopEffects (hmem _ heffect)
    revert hkept hserving hsupervisors
    generalize perform (outcome.performed (stopEffects s.host)) s = s'
    intro hkept hserving hsupervisors
    have hloop' : s'.host.loop = some loop := by
      have h := congrArg ComponentHost.loop hkept
      exact h.trans hsome
    refine ⟨(registration_closed _).trans ((registration_shutdownLoop s').trans
      (registration_of_kept hkept)), ?_, ?_, ?_, ?_⟩ <;>
      rw [shutdownLoop_of_loop hloop']
    · rfl
    · rfl
    · exact hserving
    · intro p hp
      obtain ⟨hp, hne⟩ := List.mem_filter.mp hp
      refine ⟨hsupervisors p hp, fun heq => of_decide_eq_true hne ?_⟩
      exact Option.some.inj (heq.symm.trans hsome)
  cases outcome with
  | finishes => exact hdown
  | raises done => exact hdown

/-- A stop empties an owned router, unless it returns at once. -/
theorem component_stop (s : HostState) (outcome : Outcome) :
    (s.stop outcome).2.host.component =
      if s.host.stopped = false ∧ s.host.ownsRouter = true then none else s.host.component := by
  unfold stop
  split
  · next hstopped => rw [if_neg fun h => absurd (h.1.symm.trans hstopped) nofun]
  next hstopped =>
  rw [Bool.not_eq_true] at hstopped
  simp only [hstopped, true_and]
  split
  · rfl
  next hloop =>
  obtain ⟨loop, hsome⟩ := Option.ne_none_iff_exists'.mp hloop
  have hkept := kept_perform (outcome.performed (stopEffects s.host)) s
  have hloop' := (congrArg ComponentHost.loop hkept).trans hsome
  have howns := congrArg ComponentHost.ownsRouter hkept
  have hcomponent := congrArg ComponentHost.component hkept
  have hclosed :
      (perform (outcome.performed (stopEffects s.host)) s).shutdownLoop.closed.host.component =
        if s.host.ownsRouter = true then none else s.host.component := by
    rw [shutdownLoop_of_loop hloop', closed]
    change (if (perform _ s).host.ownsRouter = true then none else (perform _ s).host.component) = _
    rw [show (perform _ s).host.ownsRouter = s.host.ownsRouter from howns,
      show (perform _ s).host.component = s.host.component from hcomponent]
  cases outcome with
  | finishes => exact hclosed
  | raises done => exact hclosed

end HostState

namespace Hosting

variable [Spec]

/-! ### A registration that raises -/

/-- Two hosts from which every later registration, start and stop comes to the same. -/
def Indistinguishable (s s' : Hosting σ) : Prop :=
  ∀ actions action, (s'.run actions).outcome action = (s.run actions).outcome action

/-- **When a refused registration leaves nothing behind**: when the host's own checks refuse it.
Only then are the host, its router and the table as they were, and only then does everything
after come to what it would have without the call. -/
theorem refused_leaves_nothing_iff (s : Hosting σ) (dispatch : Component σ)
    (descriptor : ComponentDescriptor) (error : HostError)
    (hraises : (s.add dispatch descriptor).1 = .error error) :
    ((s.add dispatch descriptor).2 = (s, dispatch) ↔ s.Refuses dispatch descriptor) ∧
    (s.Indistinguishable (s.add dispatch descriptor).2.1 ↔ s.Refuses dispatch descriptor) := by
  have hadded := s.added_add dispatch descriptor
  generalize hcall : s.add dispatch descriptor = call at hadded hraises ⊢
  cases hadded with
  | checked error' h => exact ⟨iff_of_true rfl h, iff_of_true (fun _ _ => rfl) h⟩
  | second h hname => cases hraises
  | hosted h hname hempty => cases hraises
  | duplicate error' h hname hheld =>
    refine ⟨iff_of_false (fun hsame => ?_) h, iff_of_false (fun hsame => ?_) h⟩
    · -- The claim stays.
      have hclaim := congrArg (fun left => left.1.state.host.componentName) hsame
      exact absurd (hclaim.trans hname) nofun
    · -- Made once more, the call is refused by the router, and remembered after the claim.
      have hagain := hsame [] (.add dispatch descriptor)
      change ((({ s with state.host := s.claimed dispatch } : Hosting σ).add dispatch
        descriptor).1.map fun _ => "") = ((s.add dispatch descriptor).1.map fun _ => "") at hagain
      have hsecond :=
        ({ s with state.host := s.claimed dispatch } : Hosting σ).added_add dispatch descriptor
      rw [hcall] at hagain
      generalize ({ s with state.host := s.claimed dispatch } : Hosting σ).add dispatch
        descriptor = again at hagain hsecond
      cases hsecond with
      | checked _ h' => exact h h'
      | second _ _ => cases hagain
      | duplicate _ _ hname' _ => cases hname'
      | hosted _ hname' _ => cases hname'

/-! ### The component a host was given -/

/-- The component an action registers: one added without being refused. -/
def registeredBy (s : Hosting σ) : Action σ → Option (Component σ × ComponentDescriptor)
  | .add dispatch descriptor =>
    match (s.add dispatch descriptor).1 with
    | .ok () => some (dispatch, descriptor)
    | .error _ => none
  | _ => none

/-- The components a run registers, in order. -/
def registered (s : Hosting σ) : List (Action σ) → List (Component σ × ComponentDescriptor)
  | [] => []
  | action :: actions => (s.registeredBy action).toList ++ (s.act action).registered actions

theorem registered_concat (s : Hosting σ) (actions : List (Action σ)) (action : Action σ) :
    s.registered (actions ++ [action]) =
      s.registered actions ++ ((s.run actions).registeredBy action).toList := by
  induction actions generalizing s with
  | nil => exact List.append_nil _
  | cons first actions ih =>
    rw [List.cons_append, registered, ih, registered, List.append_assoc]
    rfl

/-- **One registration, kept in two halves**: what the host says of its component is what it
was given first, and the router holds that or nothing. -/
structure Registry (rulesVersion : String) (first : Option (Component σ × ComponentDescriptor))
    (host : ComponentHost) (held : Option (Component σ)) : Prop where
  owns : host.ownsRouter = true
  version : host.rulesVersion = rulesVersion
  unclaimed : first = none → host.componentName = none ∧ host.kind = none ∧ held = none
  claimed : ∀ dispatch descriptor, first = some (dispatch, descriptor) →
    host.componentName = some dispatch.name ∧ host.kind = some dispatch.kind.service ∧
      host.descriptor = some descriptor ∧
      (dispatch.stamped rulesVersion).rulesVersion = descriptor.rulesVersion
  holds : ∀ dispatch, held = some dispatch → ∃ given descriptor,
    first = some (given, descriptor) ∧ dispatch = given.stamped rulesVersion

variable {rulesVersion : String} {first : Option (Component σ × ComponentDescriptor)}
  {held : Option (Component σ)}

omit [Spec] in
/-- What no registration writes does not matter to it. -/
theorem Registry.congr {host host' : ComponentHost} (h : Registry rulesVersion first host held)
    (hsame : HostState.registration host' = HostState.registration host) :
    Registry rulesVersion first host' held := by
  have hfield {α : Type} (field : ComponentHost → α) :
      field (HostState.registration host') = field (HostState.registration host) :=
    congrArg field hsame
  have hname : host'.componentName = host.componentName := hfield ComponentHost.componentName
  have hkind : host'.kind = host.kind := hfield ComponentHost.kind
  have hdescriptor : host'.descriptor = host.descriptor := hfield ComponentHost.descriptor
  refine ⟨(hfield ComponentHost.ownsRouter).trans h.owns,
    (hfield ComponentHost.rulesVersion).trans h.version, ?_, ?_, h.holds⟩
  · rw [hname, hkind]
    exact h.unclaimed
  · rw [hname, hkind, hdescriptor]
    exact h.claimed

omit [Spec] in
/-- A router that was closed holds nothing. -/
theorem Registry.closed {host : ComponentHost} (h : Registry rulesVersion first host held) :
    Registry rulesVersion first host none :=
  ⟨h.owns, h.version, fun hfirst => ⟨(h.unclaimed hfirst).1, (h.unclaimed hfirst).2.1, rfl⟩,
    h.claimed, nofun⟩

omit [Spec] in
theorem Registry.componentName_eq_none {host : ComponentHost}
    (h : Registry rulesVersion first host held) : host.componentName = none ↔ first = none := by
  constructor
  · intro hname
    cases first with
    | none => rfl
    | some given => exact absurd ((h.claimed given.1 given.2 rfl).1.symm.trans hname) nofun
  · exact fun hfirst => (h.unclaimed hfirst).1

/-- **The invariant.** A host that is up and has a component has a router that holds one, and its
server was given the servicers of what it has; and one that is down reports nobody serving. -/
structure Sound (rulesVersion : String) (first : Option (Component σ × ComponentDescriptor))
    (s : Hosting σ) : Prop where
  registry : Registry rulesVersion first s.state.host s.router.component
  thread : s.state.host.thread = s.state.host.loop
  health : s.state.host.loop ≠ none → s.state.host.health = true
  supervisors : ∀ p ∈ s.state.world.supervisors, s.state.host.loop = some p.1
  down : s.state.host.loop = none → lastPublished s.state.world.published "" ≠ some .serving
  held : s.state.host.loop ≠ none → s.state.host.kind ≠ none → s.router.component ≠ none
  serves : s.state.host.loop ≠ none → s.servicers = s.state.host.servicers

omit [Spec] in
theorem sound_new (rulesVersion : String) :
    (new none rulesVersion : Hosting σ).Sound rulesVersion none where
  registry := ⟨rfl, rfl, fun _ => ⟨rfl, rfl, rfl⟩, nofun, nofun⟩
  thread := rfl
  health := fun h => absurd rfl h
  supervisors := nofun
  down := fun _ => nofun
  held := fun h => absurd rfl h
  serves := fun h => absurd rfl h

variable {s : Hosting σ}

/-- **What keeps a host's report true**: no component is given to a host that is up without one,
no start gets to its end on a host whose component the router no longer holds, and no stop's
teardown is interrupted before it has published the overall `NOT_SERVING`. -/
def Candid (s : Hosting σ) : Action σ → Prop
  | .add dispatch descriptor => ¬s.Refuses dispatch descriptor →
    s.state.host.componentName = none → s.state.host.loop = none
  | .start _ _ _ outcome => outcome = .finishes → s.state.host.kind ≠ none →
    s.router.component ≠ none
  | .stop outcome => ∀ done, outcome = .raises done → s.state.host.stopped = false →
    s.state.host.loop ≠ none →
      .publish "" .notServing ∈ (HostState.stopEffects s.state.host).take done
  | _ => True

omit [Spec] in
/-- What a host is given beside its component is not in the invariant. -/
theorem Sound.given (h : s.Sound rulesVersion first) (refused : List String) (upcaster : Bool)
    (appServices : List String) :
    ({ s with
      state.host := { s.state.host with
        refused := refused
        upcaster := upcaster
        appServices := appServices } } : Hosting σ).Sound rulesVersion first where
  registry := ⟨h.registry.owns, h.registry.version, h.registry.unclaimed,
    h.registry.claimed, h.registry.holds⟩
  thread := h.thread
  health := h.health
  supervisors := h.supervisors
  down := h.down
  held := h.held
  serves := h.serves

/-- A registration keeps the invariant, and registers the first component or another. -/
theorem Sound.add (h : s.Sound rulesVersion first) {dispatch : Component σ}
    {descriptor : ComponentDescriptor} (hcandid : s.Candid (.add dispatch descriptor)) :
    (s.add dispatch descriptor).2.1.Sound rulesVersion
      (first.or (s.registeredBy (.add dispatch descriptor))) := by
  have hadded := s.added_add dispatch descriptor
  rw [registeredBy]
  generalize s.add dispatch descriptor = call at hadded ⊢
  cases hadded with
  | checked error hrefuses =>
    rw [Option.or_none]
    exact h
  | second haccepts hname =>
    have hsome : first ≠ none := fun hfirst => hname (h.registry.componentName_eq_none.mpr hfirst)
    obtain ⟨given, rfl⟩ := Option.ne_none_iff_exists'.mp hsome
    exact h.given _ s.state.host.upcaster s.state.host.appServices
  | duplicate error haccepts hname hheld =>
    -- An owned router holds nothing before the claim.
    have hfirst := h.registry.componentName_eq_none.mp hname
    exact absurd (h.registry.unclaimed hfirst).2.2 hheld
  | hosted haccepts hname hempty =>
    obtain rfl := h.registry.componentName_eq_none.mp hname
    have hversion := h.registry.version
    have hreports : (dispatch.stamped rulesVersion).rulesVersion = descriptor.rulesVersion := by
      rw [← hversion, Router.Component.rulesVersion_stamped]
      by_contra hne
      exact haccepts (Or.inl fun heq => hne heq.symm)
    refine
      { registry := ⟨h.registry.owns, hversion, nofun, ?_, ?_⟩
        thread := h.thread
        health := h.health
        supervisors := h.supervisors
        down := h.down
        held := fun _ _ => nofun
        serves := fun hup => absurd (hcandid haccepts hname) hup }
    · rintro dispatch' descriptor' hfirst
      obtain ⟨rfl, rfl⟩ := Prod.mk.inj (Option.some.inj hfirst)
      exact ⟨rfl, rfl, rfl, hreports⟩
    · rintro dispatch' hdispatch
      refine ⟨dispatch, descriptor, rfl, ?_⟩
      rw [← hversion]
      exact (Option.some.inj hdispatch).symm

omit [Spec] in
theorem Sound.start (h : s.Sound rulesVersion first) (address : Option String)
    (config : HostState.TransportConfig) (port : ℕ) {outcome : HostState.Outcome}
    (hcandid : s.Candid (.start address config port outcome)) :
    (s.start address config port outcome).2.Sound rulesVersion first := by
  rw [Hosting.start]
  rcases s.state.start_cases address config port outcome with
    ⟨error, hsame⟩ | ⟨-, -, hthread, address', sockets, hlaunch⟩
  · rw [hsame]
    exact h
  have hloop : s.state.host.loop = none := h.thread.symm.trans hthread
  have hlaunched := HostState.launched_launch { s.state with world.sockets := sockets } address'
    port outcome
  rw [hlaunch]
  -- the state is named, so that its fields are compared without the launch being run
  generalize hafter : (HostState.launch _ address' port outcome).2 = after at hlaunched ⊢
  have hkind : after.host.kind = s.state.host.kind := by
    have hsame := congrArg ComponentHost.kind hlaunched.registration
    exact hsame
  have hdescriptor : after.host.descriptor = s.state.host.descriptor := by
    have hsame := congrArg ComponentHost.descriptor hlaunched.registration
    exact hsame
  refine
    { registry := h.registry.congr hlaunched.registration
      thread := hlaunched.thread
      health := fun hup => (hlaunched.up hup).2
      supervisors := fun p hp => (hlaunched.supervisors p hp).resolve_left fun hold =>
        absurd (hloop.symm.trans (h.supervisors p hold)) nofun
      down := fun _ hserving => h.down hloop (hlaunched.serving "" hserving)
      held := fun hup hgiven => ?_
      serves := fun hup => ?_ }
  · cases outcome with
    | finishes => exact hcandid rfl (hkind ▸ hgiven)
    | raises done => exact absurd (hafter ▸ HostState.loop_launch_raises _ address' port done) hup
  · cases outcome with
    | finishes =>
      change s.state.host.servicers = after.host.servicers
      rw [ComponentHost.servicers, ComponentHost.servicers, hkind, hdescriptor]
    | raises done => exact absurd (hafter ▸ HostState.loop_launch_raises _ address' port done) hup

omit [Spec] in
/-- A stop that gets to its end lowers the overall status, of a host that is up. -/
theorem Sound.publish_mem_stopEffects (h : s.Sound rulesVersion first)
    (hloop : s.state.host.loop ≠ none) :
    .publish "" .notServing ∈ HostState.stopEffects s.state.host := by
  rw [HostState.stopEffects, if_pos (h.health hloop)]
  simp [ComponentHost.names]

omit [Spec] in
theorem Sound.stop (h : s.Sound rulesVersion first) {outcome : HostState.Outcome}
    (hcandid : s.Candid (.stop outcome)) : (s.stop outcome).2.Sound rulesVersion first := by
  unfold Hosting.stop
  rcases s.state.stop_cases outcome with
    ⟨hstopped, hsame⟩ | ⟨hstopped, hloop, hsame⟩ | ⟨hstopped, hloop, hdown⟩
  · rw [hsame, if_neg fun hopen => absurd (hopen.1.symm.trans hstopped) nofun]
    exact h
  · rw [hsame, if_pos ⟨hstopped, h.registry.owns⟩]
    exact
      { registry := h.registry.closed.congr (HostState.registration_closed s.state)
        thread := h.thread
        health := h.health
        supervisors := h.supervisors
        down := h.down
        held := fun hup => absurd hloop hup
        serves := fun hup => absurd hloop hup }
  · rw [if_pos ⟨hstopped, h.registry.owns⟩]
    refine
      { registry := h.registry.closed.congr hdown.registration
        thread := hdown.thread.trans hdown.loop.symm
        health := fun hup => absurd hdown.loop hup
        supervisors := fun p hp => absurd (h.supervisors p (hdown.supervisors p hp).1)
          (hdown.supervisors p hp).2
        down := fun _ hserving => (hdown.serving "" hserving).2 ?_
        held := fun hup => absurd hdown.loop hup
        serves := fun hup => absurd hdown.loop hup }
    cases outcome with
    | finishes => exact h.publish_mem_stopEffects hloop
    | raises done => exact hcandid done rfl hstopped hloop

omit [Spec] in
/-- A supervisor that publishes runs on a host that is up. -/
theorem Sound.publish (h : s.Sound rulesVersion first) (start : ℕ) (name : String)
    (status : HealthStatus) :
    ({ s with state := s.state.superviseOnce start name status } : Hosting σ).Sound rulesVersion
      first := by
  unfold HostState.superviseOnce
  split
  · next hany =>
    obtain ⟨p, hp, -⟩ := List.any_eq_true.mp hany
    exact
      { registry := h.registry
        thread := h.thread
        health := h.health
        supervisors := h.supervisors
        down := fun hloop => absurd (hloop.symm.trans (h.supervisors p hp)) nofun
        held := h.held
        serves := h.serves }
  · exact h

/-- **The step.** -/
theorem Sound.act (h : s.Sound rulesVersion first) {action : Action σ} (hcandid : s.Candid action) :
    (s.act action).Sound rulesVersion (first.or (s.registeredBy action)) := by
  cases action with
  | add dispatch descriptor => exact h.add hcandid
  | addUpcaster =>
    change Sound rulesVersion (first.or none) _
    rw [Option.or_none]
    exact h.given s.state.host.refused true s.state.host.appServices
  | addService name =>
    change Sound rulesVersion (first.or none) _
    rw [Option.or_none, Hosting.act, ComponentHost.addService]
    split
    · exact h
    · exact h.given s.state.host.refused s.state.host.upcaster _
  | start address config port outcome =>
    change Sound rulesVersion (first.or none) _
    rw [Option.or_none]
    exact h.start address config port hcandid
  | stop outcome =>
    change Sound rulesVersion (first.or none) _
    rw [Option.or_none]
    exact h.stop hcandid
  | publish start name status =>
    change Sound rulesVersion (first.or none) _
    rw [Option.or_none]
    exact h.publish start name status

theorem run_concat (s : Hosting σ) (actions : List (Action σ)) (action : Action σ) :
    s.run (actions ++ [action]) = (s.run actions).act action :=
  Run.run_concat actions action

/-- **The run**: the host and its router agree on the first component registered. -/
theorem sound_run (rulesVersion : String) {actions : List (Action σ)}
    (hcandid : Run.Along act Candid (new none rulesVersion) actions) :
    ((new none rulesVersion : Hosting σ).run actions).Sound rulesVersion
      ((new none rulesVersion).registered actions).head? := by
  induction actions using List.reverseRecOn with
  | nil => exact sound_new rulesVersion
  | append_singleton actions action ih =>
    rw [registered_concat, run_concat, List.head?_append, Option.head?_toList]
    exact (ih hcandid.of_append).act hcandid.last

/-! ### Dispatching through the router -/

section Reached

variable [Message σ] [Message CommandRefused]

/-- **Every delivery through the router reaches a component**: its own table answers those of
its kind's service. -/
def Reaches (router : Router σ) : Component σ → Prop
  | .aggregate table => ∀ request, router.dispatch request = table.handle request
  | .processManager table => ∀ request, router.dispatch request = table.handle request
  | .policy table => (∀ source, router.dispatchPolicy source = table.handle source) ∧
      ∀ refusal, router.dispatchRefusal refusal = table.onRefusal refusal
  | .projector table => ∀ book, router.dispatchProjector book = table.handle book

theorem reaches_of_holds (dispatch : Component σ) : Reaches ⟨some dispatch⟩ dispatch := by
  cases dispatch with
  | aggregate table => exact fun request => pure_bind table _
  | processManager table => exact fun request => pure_bind table _
  | policy table => exact ⟨fun source => pure_bind table _, fun refusal => pure_bind table _⟩
  | projector table => exact fun book => pure_bind table _

/-- What a router that holds a component answers reports the component's version. -/
theorem rulesVersion_of_dispatch {dispatch : Component σ} {request : ContextualCommand}
    {response : CommandHandlerResponse}
    (h : ((⟨some dispatch⟩ : Router σ).dispatch request).result = .ok response) :
    response.rulesVersion = dispatch.rulesVersion := by
  obtain ⟨table, hhosted, hhandle⟩ := Traced.result_bind_eq_ok.mp h
  rw [AggregateDispatch.handle_rulesVersion hhandle]
  cases dispatch with
  | aggregate table' => exact congrArg _ (Except.ok.inj hhosted).symm
  | processManager table' => exact congrArg _ (Except.ok.inj hhosted).symm
  | policy table' => cases hhosted
  | projector table' => cases hhosted

/-- **A host that hosts what it describes.** -/
structure Hosts (s : Hosting σ) (dispatch : Component σ) (descriptor : ComponentDescriptor) :
    Prop where
  router : s.router.component = some dispatch
  kind : s.state.host.kind = some dispatch.kind.service
  serves : s.Serves dispatch.kind.service
  describes : s.describe = some descriptor
  reaches : Reaches s.router dispatch
  version : dispatch.rulesVersion = descriptor.rulesVersion
  reports : ∀ request response, (s.router.dispatch request).result = .ok response →
    response.rulesVersion = descriptor.rulesVersion

/-- A host that is up and was given a component hosts the first it was given. -/
theorem Sound.hosts (h : s.Sound rulesVersion first)
    (hserving : lastPublished s.state.world.published "" = some .serving)
    (hname : s.state.host.componentName ≠ none) :
    ∃ dispatch descriptor, first = some (dispatch, descriptor) ∧
      s.Hosts (dispatch.stamped rulesVersion) descriptor := by
  have hup : s.state.host.loop ≠ none := fun hloop => h.down hloop hserving
  have hsome : first ≠ none := fun hfirst => hname (h.registry.componentName_eq_none.mpr hfirst)
  obtain ⟨⟨dispatch, descriptor⟩, rfl⟩ := Option.ne_none_iff_exists'.mp hsome
  obtain ⟨-, hkind, hdescriptor, hversion⟩ := h.registry.claimed dispatch descriptor rfl
  obtain ⟨held, hheld⟩ := Option.ne_none_iff_exists'.mp (h.held hup (hkind ▸ nofun))
  obtain ⟨given, descriptor', hfirst, rfl⟩ := h.registry.holds held hheld
  obtain ⟨rfl, rfl⟩ := Prod.mk.inj (Option.some.inj hfirst)
  have hrouter : s.router = ⟨some (dispatch.stamped rulesVersion)⟩ := congrArg Router.mk hheld
  have hservicers : s.servicers = ⟨some dispatch.kind.service, some descriptor⟩ := by
    rw [h.serves hup, ComponentHost.servicers, hkind, hdescriptor]
    rfl
  refine ⟨dispatch, descriptor, rfl, hheld, ?_, ?_, ?_, ?_, hversion, ?_⟩
  · rw [Router.Component.kind_stamped]
    exact hkind
  · rw [Router.Component.kind_stamped]
    exact congrArg Servicers.kind hservicers
  · exact congrArg Servicers.descriptor hservicers
  · rw [hrouter]
    exact reaches_of_holds _
  · intro request response hresponse
    rw [hrouter] at hresponse
    exact (rulesVersion_of_dispatch hresponse).trans hversion

end Reached

/-! ### The host's own view -/

/-- An action as the host's lifecycle sees it: of a table, what the host reads. -/
def Action.view : Action σ → HostState.Action
  | .add dispatch descriptor => .add dispatch.table descriptor dispatch.kind
  | .addUpcaster => .addUpcaster
  | .addService name => .addService name
  | .start address config port outcome => .start address config port outcome
  | .stop outcome => .stop outcome
  | .publish k name status => .publish k name status

/-- The host's view of its router is its router's. -/
def Coherent (s : Hosting σ) : Prop :=
  s.state.host.component = s.router.component.map Component.table

/-- A registration does to the host what the lifecycle's does. -/
theorem Coherent.add {s : Hosting σ} (h : s.Coherent) (dispatch : Component σ)
    (descriptor : ComponentDescriptor) :
    (s.add dispatch descriptor).2.1.state =
        { s.state with host := (s.state.host.add dispatch.table descriptor dispatch.kind).2 } ∧
      (s.add dispatch descriptor).2.1.Coherent := by
  have hadded := s.added_add dispatch descriptor
  generalize s.add dispatch descriptor = call at hadded ⊢
  cases hadded with
  | checked error hrefuses =>
    refine ⟨?_, h⟩
    by_cases hversion : descriptor.rulesVersion ≠ s.state.host.reported dispatch.table
    · rw [ComponentHost.add, if_pos hversion]
    · have hdomain : dispatch.kind = .projector ∧
          (dispatch.table.domains = [] ∨ descriptor.inputs = []) := hrefuses.resolve_left hversion
      rw [ComponentHost.add, if_neg hversion, if_pos hdomain]
  | second haccepts hname =>
    refine ⟨?_, h⟩
    rw [ComponentHost.add_of_second (fun hversion => haccepts (Or.inl hversion))
      (fun hdomain => haccepts (Or.inr hdomain)) hname]
    rfl
  | duplicate error haccepts hname hheld =>
    refine ⟨?_, h⟩
    obtain ⟨held, hheld⟩ := Option.ne_none_iff_exists'.mp hheld
    have hcomponent : s.state.host.component = some held.table := by
      rw [h, hheld]
      rfl
    rw [ComponentHost.add_of_held (fun hversion => haccepts (Or.inl hversion))
      (fun hdomain => haccepts (Or.inr hdomain)) hname hcomponent]
    rfl
  | hosted haccepts hname hempty =>
    have hcomponent : s.state.host.component = none := by
      rw [h, hempty]
      rfl
    rw [ComponentHost.add_of_empty (fun hversion => haccepts (Or.inl hversion))
      (fun hdomain => haccepts (Or.inr hdomain)) hname hcomponent]
    refine ⟨?_, rfl⟩
    rw [hosted, Router.Component.table_stamped]
    rfl

omit [Spec] in
theorem component_start (s : HostState) (address : Option String)
    (config : HostState.TransportConfig) (port : ℕ) (outcome : HostState.Outcome) :
    (s.start address config port outcome).2.host.component = s.host.component := by
  rcases s.start_cases address config port outcome with
    ⟨error, hsame⟩ | ⟨-, -, -, address', sockets, hlaunch⟩
  · rw [hsame]
  · rw [hlaunch]
    exact (HostState.launched_launch _ address' port outcome).component

omit [Spec] in
theorem Coherent.stop {s : Hosting σ} (h : s.Coherent) (outcome : HostState.Outcome) :
    (s.stop outcome).2.Coherent := by
  rw [Coherent, Hosting.stop, HostState.component_stop]
  dsimp only
  split
  · rfl
  · exact h

/-- **The refinement**: what happens to the host, its router looked through, is a step of the
lifecycle. -/
theorem Coherent.act {s : Hosting σ} (h : s.Coherent) (action : Action σ) :
    (s.act action).state = s.state.act action.view ∧ (s.act action).Coherent := by
  cases action with
  | add dispatch descriptor => exact h.add dispatch descriptor
  | addUpcaster => exact ⟨rfl, h⟩
  | addService name =>
    refine ⟨rfl, ?_⟩
    rw [Hosting.act, ComponentHost.addService]
    split <;> exact h
  | start address config port outcome =>
    exact ⟨rfl, (component_start s.state address config port outcome).trans h⟩
  | stop outcome => exact ⟨rfl, h.stop outcome⟩
  | publish start name status =>
    refine ⟨rfl, ?_⟩
    rw [Hosting.act, HostState.superviseOnce]
    split <;> exact h

/-- A run of a host with its router is a run of the lifecycle. -/
theorem state_run (router : Option (Router σ)) (rulesVersion : String)
    (actions : List (Action σ)) :
    ((new router rulesVersion).run actions).state =
      (HostState.new (router.map fun router => router.component.map Component.table)
        rulesVersion).run (actions.map Action.view) ∧
      ((new router rulesVersion).run actions).Coherent := by
  induction actions using List.reverseRecOn with
  | nil =>
    refine ⟨rfl, ?_⟩
    cases router <;> rfl
  | append_singleton actions action ih =>
    obtain ⟨hstate, hcoherent⟩ := ih
    obtain ⟨hact, hcoherent'⟩ := hcoherent.act action
    rw [run_concat]
    refine ⟨?_, hcoherent'⟩
    rw [hact, hstate, List.map_append, List.map_singleton]
    exact (Run.run_concat _ _).symm

/-! ### Two components, or a component and an upcaster -/

/-- What was given to a host stays given. -/
structure Grown (host host' : ComponentHost) : Prop where
  componentName : host.componentName ≠ none → host'.componentName ≠ none
  kind : host.kind ≠ none → host'.kind ≠ none
  refused : host.refused ≠ [] → host'.refused ≠ []
  upcaster : host.upcaster = true → host'.upcaster = true

omit [Spec] in
theorem grown_of_registration {host host' : ComponentHost}
    (hsame : HostState.registration host' = HostState.registration host) :
    Grown host host' := by
  have hfield {α : Type} (field : ComponentHost → α) :
      field (HostState.registration host') = field (HostState.registration host) :=
    congrArg field hsame
  have hname : host'.componentName = host.componentName := hfield ComponentHost.componentName
  have hkind : host'.kind = host.kind := hfield ComponentHost.kind
  have hrefused : host'.refused = host.refused := hfield ComponentHost.refused
  have hupcaster : host'.upcaster = host.upcaster := hfield ComponentHost.upcaster
  exact ⟨fun h => hname ▸ h, fun h => hkind ▸ h, fun h => hrefused ▸ h, fun h => hupcaster ▸ h⟩

omit [Spec] in
theorem registration_start (s : HostState) (address : Option String)
    (config : HostState.TransportConfig) (port : ℕ) (outcome : HostState.Outcome) :
    HostState.registration (s.start address config port outcome).2.host =
      HostState.registration s.host := by
  rcases s.start_cases address config port outcome with
    ⟨error, hsame⟩ | ⟨-, -, -, address', sockets, hlaunch⟩
  · rw [hsame]
  · rw [hlaunch]
    exact (HostState.launched_launch _ address' port outcome).registration

omit [Spec] in
theorem registration_stop (s : HostState) (outcome : HostState.Outcome) :
    HostState.registration (s.stop outcome).2.host = HostState.registration s.host := by
  rcases s.stop_cases outcome with ⟨-, hsame⟩ | ⟨-, -, hsame⟩ | ⟨-, -, hdown⟩
  · rw [hsame]
  · rw [hsame]
    exact HostState.registration_closed s
  · exact hdown.registration

theorem grown_act (s : Hosting σ) (action : Action σ) :
    Grown s.state.host (s.act action).state.host := by
  cases action with
  | add dispatch descriptor =>
    have hadded := s.added_add dispatch descriptor
    rw [act]
    generalize s.add dispatch descriptor = call at hadded ⊢
    cases hadded with
    | checked error h => exact ⟨fun h => h, fun h => h, fun h => h, fun h => h⟩
    | second h hname =>
      exact ⟨fun h => h, fun h => h, fun _ => List.concat_ne_nil _ _, fun h => h⟩
    | duplicate error h hname hheld => exact ⟨fun _ => nofun, fun h => h, fun h => h, fun h => h⟩
    | hosted h hname hempty => exact ⟨fun _ => nofun, fun _ => nofun, fun h => h, fun h => h⟩
  | addUpcaster => exact ⟨fun h => h, fun h => h, fun h => h, fun _ => rfl⟩
  | addService name =>
    rw [act, ComponentHost.addService]
    split <;> exact ⟨fun h => h, fun h => h, fun h => h, fun h => h⟩
  | start address config port outcome =>
    exact grown_of_registration (registration_start s.state address config port outcome)
  | stop outcome => exact grown_of_registration (registration_stop s.state outcome)
  | publish start name status =>
    refine grown_of_registration ?_
    rw [act, HostState.superviseOnce]
    split <;> rfl

/-- A component registered is the host's own, or one it remembers beside its own. -/
theorem registered_act {s : Hosting σ} {action : Action σ}
    (h : s.registeredBy action ≠ none) :
    (s.act action).state.host.componentName ≠ none ∧
      ((s.act action).state.host.kind ≠ none ∨ (s.act action).state.host.refused ≠ []) ∧
      (s.state.host.componentName ≠ none → (s.act action).state.host.refused ≠ []) := by
  cases action with
  | add dispatch descriptor =>
    have hadded := s.added_add dispatch descriptor
    rw [act]
    rw [registeredBy] at h
    generalize s.add dispatch descriptor = call at hadded h ⊢
    cases hadded with
    | checked error hrefuses => exact absurd rfl h
    | second haccepts hname =>
      exact ⟨hname, Or.inr (List.concat_ne_nil _ _), fun _ => List.concat_ne_nil _ _⟩
    | duplicate error haccepts hname hheld => exact absurd rfl h
    | hosted haccepts hname hempty => exact ⟨nofun, Or.inl nofun, fun hne => absurd hname hne⟩
  | _ => exact absurd rfl h

/-- **What a host remembers of what it was given.** -/
structure Counted (given : List (Component σ × ComponentDescriptor)) (upcaster : Prop)
    (host : ComponentHost) : Prop where
  one : given ≠ [] → host.componentName ≠ none ∧ (host.kind ≠ none ∨ host.refused ≠ [])
  two : 2 ≤ given.length → host.refused ≠ []
  upcaster : upcaster → host.upcaster = true

theorem counted_run (s : Hosting σ) (actions : List (Action σ)) :
    Counted (s.registered actions) (.addUpcaster ∈ actions) (s.run actions).state.host := by
  induction actions using List.reverseRecOn with
  | nil => exact ⟨fun h => absurd rfl h, nofun, nofun⟩
  | append_singleton actions action ih =>
    rw [registered_concat, run_concat]
    have hgrown := (s.run actions).grown_act action
    have hupcaster : .addUpcaster ∈ actions ++ [action] →
        ((s.run actions).act action).state.host.upcaster = true := by
      intro hmem
      rcases List.mem_append.mp hmem with hmem | hmem
      · exact hgrown.upcaster (ih.upcaster hmem)
      · obtain rfl := List.mem_singleton.mp hmem
        rfl
    cases hnew : (s.run actions).registeredBy action with
    | none =>
      rw [Option.toList_none, List.append_nil]
      refine ⟨fun hne => ?_, fun htwo => hgrown.refused (ih.two htwo), hupcaster⟩
      obtain ⟨hname, hkept⟩ := ih.one hne
      exact ⟨hgrown.componentName hname, hkept.imp hgrown.kind hgrown.refused⟩
    | some given =>
      have hne : (s.run actions).registeredBy action ≠ none := hnew ▸ nofun
      obtain ⟨hname, hkept, hsecond⟩ := registered_act hne
      refine ⟨fun _ => ⟨hname, hkept⟩, fun htwo => hsecond (ih.one fun hnil => ?_).1, hupcaster⟩
      rw [hnil] at htwo
      exact Nat.not_succ_le_self 1 htwo

/-- **A host that no start serves**: it was given what a start refuses, and nobody publishes. -/
structure Barred (s : Hosting σ) : Prop where
  refuses : s.state.host.refused ≠ [] ∨
    s.state.host.kind ≠ none ∧ s.state.host.upcaster = true
  supervisors : s.state.world.supervisors = []
  serving : lastPublished s.state.world.published "" ≠ some .serving

/-- Without a supervisor, no action but a start changes what is published, but to lower it. -/
theorem unserved_act {s : Hosting σ} (hsupervisors : s.state.world.supervisors = [])
    (hserving : lastPublished s.state.world.published "" ≠ some .serving) {action : Action σ}
    (hstart : ∀ address config port outcome, action = .start address config port outcome →
      (s.state.start address config port outcome).2 = s.state) :
    (s.act action).state.world.supervisors = [] ∧
      lastPublished (s.act action).state.world.published "" ≠ some .serving := by
  cases action with
  | add dispatch descriptor =>
    have hadded := s.added_add dispatch descriptor
    rw [act]
    generalize s.add dispatch descriptor = call at hadded ⊢
    cases hadded with
    | checked error h => exact ⟨hsupervisors, hserving⟩
    | second h hname => exact ⟨hsupervisors, hserving⟩
    | duplicate error h hname hheld => exact ⟨hsupervisors, hserving⟩
    | hosted h hname hempty => exact ⟨hsupervisors, hserving⟩
  | addUpcaster => exact ⟨hsupervisors, hserving⟩
  | addService name => exact ⟨hsupervisors, hserving⟩
  | start address config port outcome =>
    rw [act, Hosting.start, hstart address config port outcome rfl]
    exact ⟨hsupervisors, hserving⟩
  | stop outcome =>
    rw [act, stop]
    rcases s.state.stop_cases outcome with ⟨-, hsame⟩ | ⟨-, -, hsame⟩ | ⟨-, -, hdown⟩
    · rw [hsame]
      exact ⟨hsupervisors, hserving⟩
    · rw [hsame]
      exact ⟨hsupervisors, hserving⟩
    · refine ⟨List.eq_nil_iff_forall_not_mem.mpr fun p hp => ?_,
        fun hlast => hserving (hdown.serving "" hlast).1⟩
      have hmem := (hdown.supervisors p hp).1
      rw [hsupervisors] at hmem
      cases hmem
  | publish start name status =>
    rw [act, HostState.superviseOnce, hsupervisors]
    exact ⟨hsupervisors, hserving⟩

omit [Spec] in
/-- A start refuses such a host. -/
theorem Barred.start {s : Hosting σ} (h : s.Barred) (address : Option String)
    (config : HostState.TransportConfig) (port : ℕ) (outcome : HostState.Outcome) :
    (s.state.start address config port outcome).2 = s.state := by
  rcases s.state.start_cases address config port outcome with
    ⟨error, hsame⟩ | ⟨hrefused, hboth, -, -⟩
  · rw [hsame]
  · exact (h.refuses.elim (fun hne => hne hrefused) hboth).elim

theorem Barred.act {s : Hosting σ} (h : s.Barred) (action : Action σ) :
    (s.act action).Barred := by
  have hgrown := s.grown_act action
  have hstart : ∀ address config port outcome, action = .start address config port outcome →
      (s.state.start address config port outcome).2 = s.state :=
    fun address config port outcome _ => h.start address config port outcome
  obtain ⟨hsupervisors, hserving⟩ := unserved_act h.supervisors h.serving hstart
  refine ⟨h.refuses.imp hgrown.refused ?_, hsupervisors, hserving⟩
  exact fun hgiven => ⟨hgrown.kind hgiven.1, hgrown.upcaster hgiven.2⟩

/-- Before its first start a host has no supervisor, and reports nobody serving. -/
theorem unserved_run (router : Option (Router σ)) (rulesVersion : String)
    {actions : List (Action σ)}
    (hstart : ∀ address config port outcome, .start address config port outcome ∉ actions) :
    ((new router rulesVersion).run actions).state.world.supervisors = [] ∧
      lastPublished ((new router rulesVersion).run actions).state.world.published "" ≠
        some .serving := by
  induction actions using List.reverseRecOn with
  | nil => exact ⟨rfl, nofun⟩
  | append_singleton actions action ih =>
    obtain ⟨hsupervisors, hserving⟩ := ih fun address config port outcome hmem =>
      hstart address config port outcome (List.mem_append_left _ hmem)
    rw [run_concat]
    refine unserved_act hsupervisors hserving fun address config port outcome heq => ?_
    exact absurd (List.mem_append_right _ (List.mem_singleton.mpr heq.symm))
      (hstart address config port outcome)

/-- **Two components, or one and an upcaster, bar a host from serving.** -/
theorem never_serving (router : Option (Router σ)) (rulesVersion : String)
    {pre post : List (Action σ)}
    (hstart : ∀ address config port outcome, .start address config port outcome ∉ pre)
    (hgiven : 2 ≤ ((new router rulesVersion).registered pre).length ∨
      (new router rulesVersion).registered pre ≠ [] ∧ .addUpcaster ∈ pre) :
    lastPublished ((new router rulesVersion).run (pre ++ post)).state.world.published "" ≠
      some .serving := by
  obtain ⟨hsupervisors, hserving⟩ := unserved_run router rulesVersion hstart
  have hcounted := counted_run (new router rulesVersion) pre
  have hrefuses : ((new router rulesVersion).run pre).state.host.refused ≠ [] ∨
      ((new router rulesVersion).run pre).state.host.kind ≠ none ∧
        ((new router rulesVersion).run pre).state.host.upcaster = true := by
    rcases hgiven with htwo | ⟨hone, hupcaster⟩
    · exact Or.inl (hcounted.two htwo)
    · rcases (hcounted.one hone).2 with hkind | hrefused
      · exact Or.inr ⟨hkind, hcounted.upcaster hupcaster⟩
      · exact Or.inl hrefused
  have hbarred : ((new router rulesVersion).run (pre ++ post)).Barred := by
    rw [run, Run.run_append]
    exact Run.invariant_of_step (fun _ action hs => hs.act action)
      ⟨hrefuses, hsupervisors, hserving⟩ post
  exact hbarred.serving

/-! ### Reporting and hosting -/

section Serving

variable [Message σ] [Message CommandRefused]

/-- **A host that reports `SERVING` hosts what it describes**, in every run of registrations,
starts and stops of a host that owns its router whose every action is candid; and a host given
two components, or a component and an upcaster, before it is started never reports it. -/
theorem serving_hosts (rulesVersion : String) (actions : List (Action σ)) :
    (Run.Along act Candid (new none rulesVersion) actions →
      let s := (new none rulesVersion : Hosting σ).run actions
      lastPublished s.state.world.published "" = some .serving →
        s.state.host.componentName ≠ none →
          ∃ dispatch descriptor, ((new none rulesVersion).registered actions).head? =
            some (dispatch, descriptor) ∧ s.Hosts (dispatch.stamped rulesVersion) descriptor) ∧
    ∀ pre post, actions = pre ++ post →
      (∀ address config port outcome, .start address config port outcome ∉ pre) →
      (2 ≤ ((new none rulesVersion : Hosting σ).registered pre).length ∨
        (new none rulesVersion : Hosting σ).registered pre ≠ [] ∧ .addUpcaster ∈ pre) →
      lastPublished ((new none rulesVersion).run actions).state.world.published "" ≠
        some .serving := by
  refine ⟨fun hcandid hserving hname => (sound_run rulesVersion hcandid).hosts hserving hname, ?_⟩
  rintro pre post rfl hstart hgiven
  exact never_serving none rulesVersion hstart hgiven

/-- **A start on an emptied router breaks it**: once it has got to its end, the supervisor's
first `SERVING` is of a host whose router hosts nothing. -/
theorem serving_on_emptied_router {s : Hosting σ} (hempty : s.router.component = none)
    {address : Option String} {config : HostState.TransportConfig} {port : ℕ} {bound : String}
    (hstart : (s.state.start address config port .finishes).1 = .ok bound) :
    let s' := (s.act (.start address config port .finishes)).act
      (.publish s.state.world.starts "" .serving)
    lastPublished s'.state.world.published "" = some .serving ∧
      ∀ request, (s'.router.dispatch request).result =
        .error (.coded (CodedError.new noHandlersRegistered none ∅ none)) := by
  intro s'
  have hrouter : s'.router = ⟨none⟩ := congrArg Router.mk hempty
  refine ⟨?_, fun request => by rw [hrouter]; rfl⟩
  rcases s.state.start_cases address config port .finishes with
    ⟨error, hsame⟩ | ⟨-, -, -, address', sockets, hlaunch⟩
  · rw [hsame] at hstart
    cases hstart
  have hany : ((s.state.start address config port .finishes).2.world.supervisors.any fun p =>
      p.1 = s.state.world.starts ∧ "" ∈ p.2) = true := by
    rw [hlaunch, HostState.launch]
    refine List.any_eq_true.mpr ⟨(s.state.world.starts, s.state.host.names), ?_, ?_⟩
    · change _ ∈ (HostState.perform (HostState.startEffects s.state.host s.state.world.starts
        address') _).world.supervisors
      rw [HostState.startEffects, HostState.perform_append]
      exact List.mem_cons_self ..
    · simp [ComponentHost.names]
  change lastPublished (HostState.superviseOnce
    (s.state.start address config port .finishes).2 _ _ _).world.published "" = _
  rw [HostState.superviseOnce, if_pos hany, HostState.Effect.apply, lastPublished_concat,
    if_pos rfl]

end Serving

/-- **A component given to a host that is up breaks it too**: what reports `SERVING` then is the
server of an upcaster alone, which serves no component and describes none. -/
theorem serving_without_late_component {s : Hosting σ} (hservicers : s.servicers = ⟨none, none⟩)
    (hname : s.state.host.componentName = none) {dispatch : Component σ}
    {descriptor : ComponentDescriptor} (hadd : (s.add dispatch descriptor).1 = .ok ()) :
    let s' := s.act (.add dispatch descriptor)
    lastPublished s'.state.world.published "" = lastPublished s.state.world.published "" ∧
      s'.state.host.componentName = some dispatch.name ∧ s'.describe = none ∧
      ∀ service, ¬s'.Serves service := by
  have hadded := s.added_add dispatch descriptor
  intro s'
  change lastPublished (s.add dispatch descriptor).2.1.state.world.published "" = _ ∧
    (s.add dispatch descriptor).2.1.state.host.componentName = _ ∧
      (s.add dispatch descriptor).2.1.describe = none ∧
        ∀ service, ¬(s.add dispatch descriptor).2.1.Serves service
  generalize s.add dispatch descriptor = call at hadded hadd ⊢
  cases hadded with
  | checked error hrefuses => cases hadd
  | second haccepts hsecond => exact absurd hname hsecond
  | duplicate error haccepts _ hheld => cases hadd
  | hosted haccepts _ hempty =>
    refine ⟨rfl, rfl, congrArg Servicers.descriptor hservicers, fun service hserves => ?_⟩
    exact absurd ((congrArg Servicers.kind hservicers).symm.trans hserves) nofun

end Hosting

/-! ### A ledger's host -/

namespace Hosting

open scoped Ledger

/-- The descriptor of a component that declares a version. -/
def describedAs (rulesVersion : String) : ComponentDescriptor := ⟨rulesVersion, []⟩

/-- A start on a Unix socket, which gets to its end. -/
def startOnSocket {σ : Type} : Action σ :=
  .start (some "unix:/run/host.sock") (.tcp "[::]:0") 0 .finishes

/-- The ledger given to a host. -/
def addLedger : Action Ledger.CounterState :=
  .add (.aggregate Ledger.ledgerAggregate) (describedAs "1.0")

/-- A ledger's host, once it reports `SERVING`, hosts the ledger. -/
theorem serving_hosts_ledger :
    ∃ dispatch descriptor, ((new none "1.0").registered
        [addLedger, startOnSocket, .publish 0 "" .serving]).head? = some (dispatch, descriptor) ∧
      ((new none "1.0").run [addLedger, startOnSocket, .publish 0 "" .serving]).Hosts
        (dispatch.stamped "1.0") descriptor := by
  have hcandid : Run.Along act Candid (new none "1.0")
      [addLedger, startOnSocket, .publish 0 "" .serving] :=
    .cons (fun _ _ => rfl) (.cons (fun _ _ => nofun) (.cons trivial Run.along_nil))
  exact (serving_hosts "1.0" [addLedger, startOnSocket, .publish 0 "" .serving]).1 hcandid
    (by decide) (by decide)

/-- **A host stopped and started again hosts nothing**, and reports `SERVING`. -/
theorem serving_without_component :
    let s := (new none "1.0").run [addLedger, startOnSocket, .stop .finishes, startOnSocket,
      .publish 1 "" .serving]
    lastPublished s.state.world.published "" = some .serving ∧
      s.state.host.componentName = some "Ledger" ∧ s.router.component = none ∧
      (∀ request, (s.router.dispatch request).result =
        .error (.coded (CodedError.new noHandlersRegistered none ∅ none))) ∧
      ¬∃ dispatch descriptor, s.Hosts dispatch descriptor := by
  refine ⟨by decide, by decide, rfl, fun request => rfl, ?_⟩
  rintro ⟨dispatch, descriptor, hhosts⟩
  cases hhosts.router

/-- A mismatch of versions leaves nothing behind. -/
theorem refused_leaves_nothing_iff_mismatch :
    let s : Hosting Ledger.CounterState := new none "1.0"
    s.add (.aggregate Ledger.ledgerAggregate) (describedAs "0.0.1") =
        ((s.add (.aggregate Ledger.ledgerAggregate) (describedAs "0.0.1")).1, s,
          .aggregate Ledger.ledgerAggregate) ∧
      s.Indistinguishable
        (s.add (.aggregate Ledger.ledgerAggregate) (describedAs "0.0.1")).2.1 := by
  intro s
  have hrefuses : s.Refuses (.aggregate Ledger.ledgerAggregate) (describedAs "0.0.1") :=
    Or.inl (by decide)
  have hiff := refused_leaves_nothing_iff s (.aggregate Ledger.ledgerAggregate)
    (describedAs "0.0.1") _ rfl
  exact ⟨Prod.ext rfl (hiff.1.mpr hrefuses), hiff.2.mpr hrefuses⟩

/-- **A registration its router refuses leaves a claim and a stamp**: made once more, it is
taken for a second component's. -/
theorem refused_by_router_leaves_claim :
    let s : Hosting Ledger.CounterState :=
      new (some ⟨some (.aggregate Ledger.ledgerAggregate)⟩) "1.0"
    let dispatch : Component Ledger.CounterState := .policy (.new "Alarm" "ledger" "alarm")
    let call := s.add dispatch (describedAs "1.0")
    (∃ error, call.1 = .error error) ∧
      s.state.host.componentName = none ∧ dispatch.rulesVersion = "" ∧
      call.2.1.state.host.componentName = some "Alarm" ∧ call.2.2.rulesVersion = "1.0" ∧
      (s.add dispatch (describedAs "1.0")).1 ≠ .ok () ∧
      (call.2.1.add dispatch (describedAs "1.0")).1 = .ok () := by
  exact ⟨⟨_, rfl⟩, rfl, rfl, rfl, rfl, nofun, rfl⟩

end Hosting

end AngzarrClient
