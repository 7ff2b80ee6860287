import AngzarrClient.Router.Errors

/-!
# What a component host is given

A component host serves one component over gRPC, or the upcaster of one, and any number
of application services. Registering a component hands its dispatch table to the host's
router; a second component is not hosted but remembered, for `start` to refuse.

The services a host serves (`AngzarrClient.ComponentHost.services`) are what its health
is reported under. They only grow with what is registered
(`AngzarrClient.ComponentHost.Registered`), so that `stop` finds the names again that
`start` published.
-/

namespace AngzarrClient

open Router

/-! ### What is registered -/

/-- `COMPONENT_SERVICE`. -/
def componentService : String := "io.angzarr.component.v1.ComponentService"

/-- `COMMAND_HANDLER_SERVICE`. -/
def commandHandlerService : String := "io.angzarr.component.v1.CommandHandlerService"

/-- `POLICY_SERVICE`. -/
def policyService : String := "io.angzarr.component.v1.PolicyService"

/-- `PROJECTOR_SERVICE`. -/
def projectorService : String := "io.angzarr.component.v1.ProjectorService"

/-- `UPCASTER_SERVICE`. -/
def upcasterService : String := "io.angzarr.component.v1.UpcasterService"

/-- `FRAMEWORK_SERVICES`. -/
def frameworkServices : List String :=
  [componentService, commandHandlerService, policyService, projectorService, upcasterService]

/-- The service the `add_*` of a kind registers a component under. -/
def ComponentKind.service : ComponentKind → String
  | .aggregate => commandHandlerService
  | .processManager => commandHandlerService
  | .policy => policyService
  | .projector => projectorService

/-- What a host and its router read of a dispatch table. -/
structure DispatchTable where
  name : String
  kind : ComponentKind
  rulesVersion : String
  domains : List String
  deriving DecidableEq

/-- What a host reads of a `ComponentDescriptor`: the version it describes, and the
domains of its inputs. -/
structure ComponentDescriptor where
  rulesVersion : String
  inputs : List String
  deriving DecidableEq

/-! ### Failures -/

/-- What a host's methods raise: a `ConfigurationError`, what the router raises, or what
the runtime does: gRPC, the event loop, the file system, an interrupt. -/
inductive HostError where
  | configuration (code : String) (details : List (String × String))
  | router (error : CodedError)
  | runtime
  deriving DecidableEq

/-! ### The host -/

/-- `ComponentHost`: what it was given, and what its last start made. A loop, its thread,
a server and a supervisor each carry the number of the start that made them. -/
structure ComponentHost where
  ownsRouter : Bool
  /-- The table the router holds. -/
  component : Option DispatchTable
  rulesVersion : String
  /-- The component's kind service. -/
  kind : Option String
  descriptor : Option ComponentDescriptor
  componentName : Option String
  refused : List String
  /-- Whether it was given an upcaster. -/
  upcaster : Bool
  /-- The names of the application services. -/
  appServices : List String
  loop : Option ℕ
  thread : Option ℕ
  server : Option ℕ
  /-- Whether a start has set its health servicer. -/
  health : Bool
  supervisor : Option ℕ
  /-- Whether a start has set its executor. -/
  executor : Bool
  socketPath : Option String
  stopped : Bool
  address : String
  deriving DecidableEq

namespace ComponentHost

/-- `ComponentHost(router, rules_version=)`: the router given, by the table it holds, or
an empty one of the host's own. -/
def new (router : Option (Option DispatchTable)) (rulesVersion : String) : ComponentHost where
  ownsRouter := router.isNone
  component := router.getD none
  rulesVersion := rulesVersion
  kind := none
  descriptor := none
  componentName := none
  refused := []
  upcaster := false
  appServices := []
  loop := none
  thread := none
  server := none
  health := false
  supervisor := none
  executor := false
  socketPath := none
  stopped := false
  address := ""

/-- `_claim`: whether the table is the host's one component; a second is remembered. -/
def claim (host : ComponentHost) (dispatch : DispatchTable) : Bool × ComponentHost :=
  match host.componentName with
  | none => (true, { host with componentName := some dispatch.name })
  | some _ => (false, { host with refused := host.refused ++ [dispatch.name] })

/-- `_versioned`: the table with the host's version, unless it declares its own. -/
def versioned (host : ComponentHost) (dispatch : DispatchTable) : DispatchTable :=
  if host.rulesVersion ≠ "" ∧ dispatch.rulesVersion = "" then
    { dispatch with rulesVersion := host.rulesVersion }
  else dispatch

/-- `Router._register`, on the host's router: it holds one component. -/
def register [Spec] (host : ComponentHost) (dispatch : DispatchTable) :
    Except HostError ComponentHost :=
  match host.component with
  | some held => .error (.router (CodedError.new "ROUTER_REASON_DUPLICATE_COMPONENT" none
      (Dict.ofList [("component", held.name), ("component_kind", held.kind.name)]) none))
  | none => .ok { host with component := some dispatch }

/-- The version a component's answers report: the table's own, else the host's. -/
def reported (host : ComponentHost) (dispatch : DispatchTable) : String :=
  if dispatch.rulesVersion = "" then host.rulesVersion else dispatch.rulesVersion

/-- `_add`: what it returns or raises, and the host it leaves. -/
def add [Spec] (host : ComponentHost) (dispatch : DispatchTable)
    (descriptor : ComponentDescriptor) (kind : ComponentKind) :
    Except HostError Unit × ComponentHost :=
  if descriptor.rulesVersion ≠ host.reported dispatch then
    (.error (.configuration "HOST_REASON_DESCRIPTOR_RULES_VERSION_MISMATCH"
      [("component", dispatch.name), ("described", descriptor.rulesVersion),
        ("reported", host.reported dispatch)]), host)
  else if kind = .projector ∧ (dispatch.domains = [] ∨ descriptor.inputs = []) then
    (.error (.configuration "HOST_REASON_PROJECTOR_NO_INPUT_DOMAIN"
      [("component", dispatch.name)]), host)
  else
    match host.claim dispatch with
    | (false, host) => (.ok (), host)
    | (true, host) =>
      match host.register (host.versioned dispatch) with
      | .error error => (.error error, host)
      | .ok host => (.ok (), { host with kind := some kind.service, descriptor := some descriptor })

/-- `add_upcaster`. -/
def addUpcaster (host : ComponentHost) : ComponentHost := { host with upcaster := true }

/-- `add_service`. -/
def addService (host : ComponentHost) (name : String) :
    Except HostError Unit × ComponentHost :=
  if name = "" then (.error (.configuration "HOST_SERVICE_UNNAMED" []), host)
  else (.ok (), { host with appServices := host.appServices ++ [name] })

/-- The framework services a host serves. -/
def served (host : ComponentHost) : List String :=
  (match host.kind with
    | some kind => [componentService, kind]
    | none => []) ++
  if host.upcaster then [upcasterService] else []

/-- `services`: the full names of every service the host serves, health excepted. -/
def services (host : ComponentHost) : List String :=
  frameworkServices.filter (· ∈ host.served) ++ host.appServices

/-- The names a host's health is published under: the overall server's and its
services'. -/
def names (host : ComponentHost) : List String := "" :: host.services

/-- The first component is claimed. -/
theorem claim_of_none {host : ComponentHost} (h : host.componentName = none)
    (dispatch : DispatchTable) :
    host.claim dispatch = (true, { host with componentName := some dispatch.name }) := by
  unfold ComponentHost.claim
  rw [h]

/-- A second one is remembered. -/
theorem claim_of_ne_none {host : ComponentHost} (h : host.componentName ≠ none)
    (dispatch : DispatchTable) :
    host.claim dispatch = (false, { host with refused := host.refused ++ [dispatch.name] }) := by
  obtain ⟨name, hname⟩ := Option.ne_none_iff_exists'.mp h
  unfold ComponentHost.claim
  rw [hname]

section Accepted

variable [Spec] {host : ComponentHost} {dispatch : DispatchTable}
  {descriptor : ComponentDescriptor} {kind : ComponentKind}
  (hversion : ¬descriptor.rulesVersion ≠ host.reported dispatch)
  (hdomain : ¬(kind = .projector ∧ (dispatch.domains = [] ∨ descriptor.inputs = [])))

include hversion hdomain

/-- A registration of a second component, once the host's checks accept it. -/
theorem add_of_second (hname : host.componentName ≠ none) :
    (host.add dispatch descriptor kind).2 =
      { host with refused := host.refused ++ [dispatch.name] } := by
  rw [add, if_neg hversion, if_neg hdomain, claim_of_ne_none hname]

/-- One that a router with a component refuses. -/
theorem add_of_held (hname : host.componentName = none) {held : DispatchTable}
    (hheld : host.component = some held) :
    (host.add dispatch descriptor kind).2 =
      { host with componentName := some dispatch.name } := by
  rw [add, if_neg hversion, if_neg hdomain, claim_of_none hname]
  simp only [register, hheld]

/-- One that is hosted. -/
theorem add_of_empty (hname : host.componentName = none) (hempty : host.component = none) :
    (host.add dispatch descriptor kind).2 =
      { host with
        componentName := some dispatch.name
        component := some (host.versioned dispatch)
        kind := some kind.service
        descriptor := some descriptor } := by
  rw [add, if_neg hversion, if_neg hdomain, claim_of_none hname]
  simp only [register, hempty]
  rfl

end Accepted

/-! ### What registering leaves alone -/

/-- **What a registration can have done to a host**: given it more to serve. What its
starts made stands as it was. -/
structure Registered (host host' : ComponentHost) : Prop where
  loop : host'.loop = host.loop
  thread : host'.thread = host.thread
  server : host'.server = host.server
  health : host'.health = host.health
  supervisor : host'.supervisor = host.supervisor
  socketPath : host'.socketPath = host.socketPath
  stopped : host'.stopped = host.stopped
  names : host.names ⊆ host'.names
  /-- A kind is served only of a component claimed. -/
  claimed : (host.componentName = none → host.kind = none) →
    host'.componentName = none → host'.kind = none

theorem names_subset {host host' : ComponentHost} (hserved : host.served ⊆ host'.served)
    (happ : host.appServices ⊆ host'.appServices) : host.names ⊆ host'.names := by
  unfold names services
  refine List.cons_subset_cons _ (List.append_subset.mpr ⟨?_, ?_⟩)
  · intro name hname
    obtain ⟨hframework, hin⟩ := List.mem_filter.mp hname
    refine List.mem_append_left _ (List.mem_filter.mpr ⟨hframework, ?_⟩)
    simpa using hserved (by simpa using hin)
  · exact fun name hname => List.mem_append_right _ (happ hname)

theorem Registered.refl (host : ComponentHost) : host.Registered host :=
  ⟨rfl, rfl, rfl, rfl, rfl, rfl, rfl, List.Subset.refl _, fun h => h⟩

/-- A component's registration only adds to what the host serves: its first component
was claimed with no kind served before. -/
theorem registered_add [Spec] {host : ComponentHost}
    (hclaimed : host.componentName = none → host.kind = none) (dispatch : DispatchTable)
    (descriptor : ComponentDescriptor) (kind : ComponentKind) :
    host.Registered (host.add dispatch descriptor kind).2 := by
  unfold add
  split
  · exact .refl host
  split
  · exact .refl host
  unfold claim
  cases hname : host.componentName with
  | some name =>
    -- A second component: only remembered.
    refine ⟨rfl, rfl, rfl, rfl, rfl, rfl, rfl, List.Subset.refl _, fun _ h => ?_⟩
    cases h
  | none =>
    simp only [register]
    cases host.component with
    | some held =>
      refine ⟨rfl, rfl, rfl, rfl, rfl, rfl, rfl, List.Subset.refl _, fun _ h => ?_⟩
      cases h
    | none =>
      refine ⟨rfl, rfl, rfl, rfl, rfl, rfl, rfl, names_subset ?_ (List.Subset.refl _),
        fun _ h => ?_⟩
      · unfold served
        rw [hclaimed hname]
        exact List.subset_append_right _ _
      · cases h

theorem registered_addUpcaster (host : ComponentHost) : host.Registered host.addUpcaster := by
  refine ⟨rfl, rfl, rfl, rfl, rfl, rfl, rfl, names_subset ?_ (List.Subset.refl _), fun h => h⟩
  unfold served
  refine List.append_subset.mpr ⟨List.subset_append_left _ _, ?_⟩
  split
  · exact List.subset_append_right _ _
  · exact List.nil_subset _

theorem registered_addService (host : ComponentHost) (name : String) :
    host.Registered (host.addService name).2 := by
  unfold addService
  split
  · exact .refl host
  · exact ⟨rfl, rfl, rfl, rfl, rfl, rfl, rfl,
      names_subset (List.Subset.refl _) (List.subset_append_left _ _), fun h => h⟩

/-! ### Any registration -/

/-- A call that registers something. -/
inductive Registration where
  | add (dispatch : DispatchTable) (descriptor : ComponentDescriptor) (kind : ComponentKind)
  | addUpcaster
  | addService (name : String)
  deriving DecidableEq

/-- The host a registration leaves. -/
def give [Spec] (host : ComponentHost) : Registration → ComponentHost
  | .add dispatch descriptor kind => (host.add dispatch descriptor kind).2
  | .addUpcaster => host.addUpcaster
  | .addService name => (host.addService name).2

/-- A kind is served only of a component claimed. -/
def Claimed (host : ComponentHost) : Prop := host.componentName = none → host.kind = none

theorem registered_give [Spec] {host : ComponentHost}
    (hclaimed : host.componentName = none → host.kind = none) (registration : Registration) :
    host.Registered (host.give registration) := by
  cases registration with
  | add dispatch descriptor kind => exact registered_add hclaimed dispatch descriptor kind
  | addUpcaster => exact registered_addUpcaster host
  | addService name => exact registered_addService host name

theorem Claimed.give [Spec] {host : ComponentHost} (h : host.Claimed)
    (registration : Registration) : (host.give registration).Claimed :=
  (registered_give h registration).claimed h

end ComponentHost

end AngzarrClient
