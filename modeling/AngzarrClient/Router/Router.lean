import AngzarrClient.Router.Aggregate
import AngzarrClient.Router.Policy
import AngzarrClient.Router.Projector

/-!
# The router

One business process hosts one component, and its router hands each delivery to it. A
delivery for a kind it does not host is refused, and so is every delivery when it hosts
nothing (`AngzarrClient.Router.hosted`).
-/

namespace AngzarrClient

namespace Router

variable {σ : Type}

/-! ### Components -/

/-- A component, by its dispatch table. -/
inductive Component (σ : Type) where
  | aggregate (table : AggregateDispatch σ)
  | processManager (table : AggregateDispatch σ)
  | policy (table : PolicyDispatch)
  | projector (table : ProjectorDispatch σ)

namespace Component

/-- A table's `kind`. -/
def kind : Component σ → ComponentKind
  | .aggregate _ => .aggregate
  | .processManager _ => .processManager
  | .policy _ => .policy
  | .projector _ => .projector

/-- A table's `name`. -/
def name : Component σ → String
  | .aggregate table => table.name
  | .processManager table => table.name
  | .policy table => table.name
  | .projector table => table.name

/-- A table's `rules_version`. -/
def rulesVersion : Component σ → String
  | .aggregate table => table.rulesVersion
  | .processManager table => table.rulesVersion
  | .policy table => table.rulesVersion
  | .projector table => table.rulesVersion

/-- The table of a component of `CommandHandlerService`: an aggregate or a process
manager. -/
def commandHandler? : Component σ → Option (AggregateDispatch σ)
  | .aggregate table => some table
  | .processManager table => some table
  | _ => none

/-- The table of a policy. -/
def policy? : Component σ → Option PolicyDispatch
  | .policy table => some table
  | _ => none

/-- The table of a projector. -/
def projector? : Component σ → Option (ProjectorDispatch σ)
  | .projector table => some table
  | _ => none

end Component

end Router

/-! ### Hosting -/

/-- `Router`: the component it hosts, if any. -/
structure Router (σ : Type) where
  component : Option (Router.Component σ)

namespace Router

variable {σ : Type}

/-- `Router()`: it hosts nothing. -/
def new : Router σ := ⟨none⟩

/-- `close`: a closed router hosts nothing. -/
def close (_ : Router σ) : Router σ := ⟨none⟩

variable [Spec]

/-- `_register`: it hosts one component, and refuses a second. -/
def register (router : Router σ) (dispatch : Component σ) : Except CodedError (Router σ) :=
  match router.component with
  | some held => .error (CodedError.new duplicateComponent none
      (Dict.ofList [("component", held.name), ("component_kind", held.kind.name)]) none)
  | none => .ok ⟨some dispatch⟩

/-- `_hosted`: the hosted component's table, of the kinds a delivery is for. -/
def hosted {τ : Type} (router : Router σ) (ofKinds : Component σ → Option τ) : Except Exc τ :=
  match router.component with
  | none => .error (.coded (CodedError.new noHandlersRegistered none ∅ none))
  | some component =>
    match ofKinds component with
    | none => .error (.coded (CodedError.new noComponentOfKind none ∅ none))
    | some table => .ok table

/-! ### Deliveries -/

variable [Message σ] [Message CommandRefused]

/-- `dispatch`: `CommandHandlerService.Handle`. -/
def dispatch (router : Router σ) (request : ContextualCommand) :
    Traced (Call σ) Exc CommandHandlerResponse := do
  let table ← Traced.ofExcept (router.hosted Component.commandHandler?)
  table.handle request

omit [Message σ] [Message CommandRefused] in
/-- `dispatch_policy`: `PolicyService.Handle`. -/
def dispatchPolicy (router : Router σ) (source : EventBook) :
    Traced PolicyCall Exc PolicyResponse := do
  let table ← Traced.ofExcept (router.hosted Component.policy?)
  table.handle source

omit [Message σ] [Message CommandRefused] in
/-- `dispatch_refusal`: `PolicyService.OnRefused`. -/
def dispatchRefusal (router : Router σ) (refusal : Refusal) :
    Traced PolicyCall Exc OnRefusedResponse := do
  let table ← Traced.ofExcept (router.hosted Component.policy?)
  table.onRefusal refusal

omit [Message CommandRefused] in
/-- `dispatch_projector`: `ProjectorService.Handle`. -/
def dispatchProjector (router : Router σ) (book : EventBook) :
    Traced (Call σ) Exc Projection := do
  let table ← Traced.ofExcept (router.hosted Component.projector?)
  table.handle book

end Router

end AngzarrClient
