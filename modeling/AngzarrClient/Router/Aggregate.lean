import AngzarrClient.Router.Context

/-!
# An aggregate's dispatch

`CommandHandlerService.Handle` over one `ContextualCommand`
(`AngzarrClient.Router.AggregateDispatch.handle`), for an aggregate and for a
process manager alike. The stages, in the order they run and fail:

| stage | definition |
|---|---|
| the input is routed by its type | `AngzarrClient.Router.AggregateDispatch.route` |
| the state is started and the delivered pages folded | `AngzarrClient.Router.AggregateDispatch.deliver` |
| the decision is made | `AngzarrClient.Router.AggregateDispatch.handle` |
| its own events are stamped and folded | `AngzarrClient.Router.AggregateDispatch.emit` |
| the answer is built, conflict report and all | `AngzarrClient.Router.AggregateDispatch.respond` |

A handler is handed the one mutable state object, so what it returns with is more
than its answer: the value it leaves in that object, and the nonces it settled its
conflict with, in order (`AngzarrClient.Router.Handled`). The object is read again
after the call – by the copy called `head`, by the fold of the emitted pages and by
the snapshot – and each of them reads what the handler left there.
-/

namespace AngzarrClient

namespace Router

/-! ### Business code's shapes -/

/-- What a handler that returned came to: what it returned, the value it left in the
state object, and the nonces it settled its conflict with, in order. -/
structure Handled (σ ρ : Type) where
  returned : ρ
  state : σ
  settled : List Bytes
  deriving DecidableEq

variable {σ : Type}

/-- A handler's outcome, with what it returned read as `f` reads it. -/
def Handled.map {ρ ρ' : Type} (f : ρ → ρ') (handled : Handled σ ρ) : Handled σ ρ' where
  returned := f handled.returned
  state := handled.state
  settled := handled.settled

/-- `CommandThunk`: a command's handler, which may return no book. -/
abbrev CommandThunk (σ : Type) :=
  Any → σ → CommandContext → Except Exc (Handled σ (Option EventBook))

/-- `FactThunk`: a fact's handler. -/
abbrev FactThunk (σ : Type) := Any → σ → CommandContext → Except Exc (Handled σ FactRecord)

/-- `RefusedThunk`: the handler of a refusal of a command this component sent. -/
abbrev RefusedThunk (σ : Type) :=
  CommandRefused → σ → CommandContext → Except Exc (Handled σ FactRecord)

/-- `ChangedThunk`: the conflict units whose values differ between two states. -/
abbrev ChangedThunk (σ : Type) := σ → σ → Except Exc (List String)

/-- The decision an input is routed to, ready to run on a state. -/
abbrev Decide (σ : Type) := σ → CommandContext → Except Exc (Handled σ EventBook)

/-- `Rebuilder`: how events fold into a component's state. Its factory is business
code and may raise. -/
structure Rebuilder (σ : Type) where
  factory : Except Exc σ
  appliers : Dict String (Applier σ)

/-- `Rebuilder.apply`: an applier that reads no context. -/
def Rebuilder.apply (rebuilder : Rebuilder σ) (fullName : String)
    (thunk : σ → Any → Except Exc σ) : Rebuilder σ :=
  { rebuilder with
    appliers := rebuilder.appliers.set fullName fun state event _ => thunk state event }

/-- `Rebuilder.apply_with_context`. -/
def Rebuilder.applyWithContext (rebuilder : Rebuilder σ) (fullName : String)
    (thunk : Applier σ) : Rebuilder σ :=
  { rebuilder with appliers := rebuilder.appliers.set fullName thunk }

/-- `AggregateDispatch`: an aggregate's dispatch table, or a process manager's. -/
structure AggregateDispatch (σ : Type) where
  name : String
  domain : String
  rebuilder : Rebuilder σ
  commands : Dict String (CommandThunk σ)
  facts : Dict String (FactThunk σ)
  refusals : Dict String (RefusedThunk σ)
  rulesVersion : String
  changed : Option (ChangedThunk σ)

namespace AggregateDispatch

/-! ### Registration -/

/-- `AggregateDispatch(name, domain, rebuilder)`: a table with no handler yet. -/
def new (name domain : String) (rebuilder : Rebuilder σ) : AggregateDispatch σ where
  name := name
  domain := domain
  rebuilder := rebuilder
  commands := ∅
  facts := ∅
  refusals := ∅
  rulesVersion := ""
  changed := none

/-- `on_command`. -/
def onCommand (table : AggregateDispatch σ) (fullName : String) (thunk : CommandThunk σ) :
    AggregateDispatch σ :=
  { table with commands := table.commands.set fullName thunk }

/-- `on_fact`. -/
def onFact (table : AggregateDispatch σ) (fullName : String) (thunk : FactThunk σ) :
    AggregateDispatch σ :=
  { table with facts := table.facts.set fullName thunk }

/-- `on_refused`. -/
def onRefused (table : AggregateDispatch σ) (command : String) (thunk : RefusedThunk σ) :
    AggregateDispatch σ :=
  { table with refusals := table.refusals.set command thunk }

/-- `with_commutative`. -/
def withCommutative (table : AggregateDispatch σ) (changed : ChangedThunk σ) :
    AggregateDispatch σ :=
  { table with changed := some changed }

/-- `with_rules_version`. -/
def withRulesVersion (table : AggregateDispatch σ) (version : String) : AggregateDispatch σ :=
  { table with rulesVersion := version }

/-! ### Routing -/

/-- `_book`: a handler's book, an empty one when it returned none. -/
def book (events : Option EventBook) : EventBook := events.getD default

variable [Spec]

/-- `_decide`: the decision on a command. -/
def decide (table : AggregateDispatch σ) (payload : Any) : Except Exc (Decide σ) :=
  match table.commands.get? (typeName payload.typeUrl) with
  | none => .error (.coded (unknownType unknownCommandType payload.typeUrl))
  | some thunk => .ok fun state ctx => (thunk payload state ctx).map (Handled.map book)

variable [Message CommandRefused]

/-- `_ingest`: the decision on a fact, or on a refusal of a command this component
sent. -/
def ingest (table : AggregateDispatch σ) (payload : Any) : Except Exc (Decide σ) :=
  let fq := typeName payload.typeUrl
  match table.facts.get? fq with
  | some thunk => .ok fun state ctx => (thunk payload state ctx).map (Handled.map FactRecord.book)
  | none =>
    if fq ≠ Message.fullName CommandRefused then
      .error (.coded (unknownType noFactHandler payload.typeUrl))
    else do
      let refused ← decode CommandRefused payload.value
      let commandType := refused.command.getPage.commandPayload.typeUrl
      match table.refusals.get? (typeName commandType) with
      | none =>
        .error (.coded (CodedError.new noRefusalHandler none
          (Dict.ofList [(ReasonArg.commandType.name, commandType)]) none))
      | some onRefused =>
        .ok fun state ctx => (onRefused refused state ctx).map (Handled.map FactRecord.book)

/-- The arm of the input's body picks the decision. Only a command – or a page with no
body, which is read as one – is refused a COMMUTATIVE handling no resolver serves. -/
def route (table : AggregateDispatch σ) (request : ContextualCommand) : Except Exc (Decide σ) :=
  match request.command.getPage.body with
  | some (.fact payload) => table.ingest (payload.getD default)
  | _ => do
    let decide ← table.decide request.command.getPage.commandPayload
    if request.command.getHandling.conflictResolution = .commutative ∧ table.changed.isNone then
      throw (.coded (CodedError.new conflictResolutionUnsupported none ∅ none))
    return decide

end AggregateDispatch

/-! ### The context of an input -/

/-- The context of the input, before its conflict is known: the book's, with the
evidence of a history and the instant the input was accepted at. -/
def context (request : ContextualCommand) : CommandContext :=
  { bookContext request.command request.events.nextSequence with
    hadPriorEvents := !request.events.pages.isEmpty || request.events.snapshot.isSome
    recordedAt := request.recordedAt }

/-- `seen`: how many delivered pages lie below the expected sequence, wherever they
stand. -/
def seen (request : ContextualCommand) : ℕ :=
  request.events.pages.countP fun page => page.sequence < (context request).expectedSequence

/-- The context the handler is handed: under AGGREGATE_HANDLES its conflict is the
delivered pages from `seen` on, with the delivered nonce. -/
def handed (request : ContextualCommand) : CommandContext :=
  if request.command.getHandling.conflictResolution = .aggregateHandles then
    { context request with
      conflict := some
        (Conflict.new (request.events.pages.drop (seen request)) request.conflictNonce) }
  else context request

/-- The context after the handler: each nonce it settled with was written to the
conflict it was handed. -/
def CommandContext.settle (ctx : CommandContext) (nonces : List Bytes) : CommandContext :=
  { ctx with conflict := ctx.conflict.map fun c => nonces.foldl Conflict.resolveConflicts c }

/-- `_copy`: a new object with the state's value. -/
def copy (state : σ) : σ := state

/-- An emitted page as it will be persisted: at its sequence, under the decision's
metadata. A number outside the field is the runtime's `ValueError`. -/
def stamp [Spec] (metadata : EventMeta) (sequence : ℕ) (page : EventPage) :
    Except Exc EventPage :=
  if sequence < Spec.sequenceLimit then
    .ok { page with sequence := sequence, metadata := some metadata }
  else .error (.other "ValueError" ("Value out of range: " ++ toString sequence))

/-- The emitted pages, stamped from `sequence` on. -/
def stampAll [Spec] (metadata : EventMeta) : ℕ → List EventPage → Except Exc (List EventPage)
  | _, [] => .ok []
  | sequence, page :: rest => do
    let stamped ← stamp metadata sequence page
    let more ← stampAll metadata (sequence + 1) rest
    return stamped :: more

namespace AggregateDispatch

variable [Spec] [Message σ]

/-! ### The stages of an answer -/

/-- The starting state and the delivered pages, folded in two: below the expected
sequence, and from it on. Under COMMUTATIVE the state between the two is copied. -/
def deliver (table : AggregateDispatch σ) (request : ContextualCommand) :
    Traced (Call σ) Exc (Option σ × σ) := do
  let events := request.events
  let appliers := table.rebuilder.appliers
  let state ← Traced.ofExcept (startState table.rebuilder.factory events)
  let state ← fold state (events.pages.take (seen request)) events.cover appliers foldFailed
  let before :=
    if request.command.getHandling.conflictResolution = .commutative then some (copy state)
    else none
  let state ← fold state (events.pages.drop (seen request)) events.cover appliers foldFailed
  return (before, state)

/-- The decision's own events, folded as they will be persisted. -/
def emit (table : AggregateDispatch σ) (request : ContextualCommand) (ctx : CommandContext)
    (state : σ) (out : EventBook) : Traced (Call σ) Exc σ := do
  let emitted ← Traced.ofExcept
    (stampAll (ctx.eventMeta table.rulesVersion) request.events.nextSequence out.pages)
  fold state emitted request.events.cover table.rebuilder.appliers foldFailedEmitted

/-- `self.changed(before, after)`: a table without a resolver has `None` there, and
calling it is a `TypeError`. -/
def callChanged (table : AggregateDispatch σ) (before after : σ) :
    Traced (Call σ) Exc (List String) :=
  call (.changed PageContext.empty before after)
    (match table.changed with
      | some changed => changed before after
      | none => .error (.other "TypeError" "'NoneType' object is not callable"))

/-- The answer: the handler's book with the state packed as its snapshot, the build
version, and the conflict report. `copies` are the two copies COMMUTATIVE took. -/
def respond (table : AggregateDispatch σ) (ctx : CommandContext) (out : EventBook)
    (copies : Option (σ × σ)) (state : σ) :
    Traced (Call σ) Exc CommandHandlerResponse := do
  let resp : CommandHandlerResponse :=
    { events := { out with snapshot := some { out.getSnapshot with state := some (pack state) } }
      rulesVersion := table.rulesVersion
      conflict := ctx.conflict.map fun c => ⟨c.resolved, [], []⟩ }
  match copies with
  | none => return resp
  | some (before, head) =>
    let window ← table.callChanged before head
    let mine ← table.callChanged head state
    let report := resp.conflict.getD default
    return { resp with
      conflict := some { report with windowUnits := window, commandUnits := mine } }

/-- What follows the decision: `head` is copied, the emitted pages are folded on, and
the answer is built. -/
def conclude (table : AggregateDispatch σ) (request : ContextualCommand) (before : Option σ)
    (handled : Handled σ EventBook) : Traced (Call σ) Exc CommandHandlerResponse := do
  let ctx := (handed request).settle handled.settled
  let copies := before.map fun before => (before, copy handled.state)
  let state ← table.emit request ctx handled.state handled.returned
  table.respond ctx handled.returned copies state

variable [Message CommandRefused]

/-- **`handle`**: one `ContextualCommand` in, its answer out, or the exception that
refuses it. -/
def handle (table : AggregateDispatch σ) (request : ContextualCommand) :
    Traced (Call σ) Exc CommandHandlerResponse := do
  let decide ← Traced.ofExcept (table.route request)
  let (before, state) ← table.deliver request
  let ctx := handed request
  let handled ← call (.handler (PageContext.ofCover ctx.cover) state ctx) (decide state ctx)
  table.conclude request before handled

end AggregateDispatch

end Router

end AngzarrClient
