import AngzarrClient.Lib.Scoped
import AngzarrClient.Router.Router

/-!
# The page business code runs under

Business code can ask for the page context it runs under (`AngzarrClient.Pages.currentPage`)
from wherever it is, without being handed it: the router keeps it in a context variable, which
`handling` sets before business code runs and puts back after it
(`AngzarrClient.Pages.handling`). The two places that run business code under a page are
`call` and `fold`.

Business code is code here, not a function: it may ask for its page, do anything to what is
its own, catch what is raised, and dispatch on a router itself, inside the dispatch that runs
it. The tables, the four methods and the router are those of the source once more, with code
for handlers; on tables of functions they come to what the methods over functions come to
(`AngzarrClient.Pages.AggregateDispatch.agrees_handle`).

Each piece of code runs as the piece it was called for (`AngzarrClient.Pages.Piece`),
which is nothing the program has: it is there to say, of each time a page was asked for, whose
it was (`AngzarrClient.Pages.Sighting`).
-/

namespace AngzarrClient

namespace Pages

open AngzarrClient.Router Store

/-! ### Code -/

/-- A piece of business code, by what it was called for. -/
inductive Piece where
  /-- What runs outside every dispatch. -/
  | outside
  /-- An applier, or a projector's fold, on a page of a book. -/
  | applier (cover : Option Cover) (page : EventPage)
  /-- A policy's handler, on a page of a book. -/
  | trigger (cover : Option Cover) (page : EventPage)
  /-- The decision on a command, a fact or a refusal. -/
  | decision (command : CommandBook)
  /-- The callback that translates a refusal. -/
  | translation (refusal : Refusal)
  /-- The resolver. -/
  | resolver

/-- **A piece's own page**: the context its caller sets for it. -/
def Piece.page : Piece → Option PageContext
  | .outside => none
  | .applier cover page => some ⟨cover, page.sequence, page.metadata⟩
  | .trigger cover page => some ⟨cover, page.sequence, page.metadata⟩
  | .decision command => some (PageContext.ofCover command.cover)
  | .translation refusal => some (PageContext.ofCover refusal.command.cover)
  | .resolver => some PageContext.empty

/-- What is raised: an `Exception`, or a `BaseException` that is none, which
`except Exception` lets through. -/
inductive Thrown where
  | exception (exc : Exc)
  | base (name : String)
  deriving DecidableEq

/-- One call of `current_page()`: the piece that made it, and what the variable held. -/
structure Sighting where
  piece : Piece
  page : Option PageContext

/-- The world of one context: the variable `_CURRENT_PAGE`, what business code has of its own,
and the calls of `current_page()` so far. -/
structure World (ω : Type) where
  page : Option PageContext
  store : ω
  sightings : List Sighting

/-- Code, run as a piece. -/
abbrev Code (ω α : Type) := ReaderT Piece (Statements (World ω) Thrown) α

variable {ω σ α : Type}

/-- A result that took no code to get. -/
def ofExcept : Except Exc α → Code ω α
  | .ok a => pure a
  | .error exc => throw (.exception exc)

/-- What business code does that has nothing to do with its page. -/
def elsewhere (act : ω → Except Thrown α × ω) : Code ω α := do
  let done := act (← get).store
  modify fun w => { w with store := done.2 }
  match done.1 with
  | .ok a => return a
  | .error thrown => throw thrown

/-- `current_page`: the page context of the code that runs; a `RuntimeError` outside a
dispatch. -/
def currentPage : Code ω PageContext := do
  let piece ← read
  let ctx := (← get).page
  modify fun w => { w with sightings := w.sightings ++ [⟨piece, ctx⟩] }
  match ctx with
  | some ctx => return ctx
  | none => throw (.exception (.other "RuntimeError" "no angzarr dispatch is being handled here"))

/-- `current_cover`: the cover of the book that is handled. -/
def currentCover : Code ω Cover := do
  match (← currentPage).cover with
  | some cover => return cover
  | none => throw (.exception (.other "RuntimeError" "the book being handled carries no cover"))

/-! ### Running business code under a page -/

/-- `_CURRENT_PAGE`. -/
def currentPageVar : Variable (World ω) (Option PageContext) where
  read := World.page
  write page w := { w with page := page }
  read_write _ _ := rfl

/-- `handling`: a context as the running code's, until that code is over. -/
def handling (ctx : PageContext) (body : Code ω α) : Code ω α := fun piece =>
  during currentPageVar (some ctx) (body piece)

/-- Code, run as a piece of its own. -/
def runAs (piece : Piece) (body : Code ω α) : Code ω α := fun _ => body piece

/-- `except Exception as exc: raise … from None`. -/
def answering (answer : Exc → CodedError) (body : Code ω α) : Code ω α :=
  tryCatch body fun
    | .exception exc => throw (.exception (.coded (answer exc)))
    | .base name => throw (.base name)

/-- `Applier`: a state and an event under its page context, to the state after it. -/
abbrev Applier (ω σ : Type) := σ → Any → PageContext → Code ω σ

/-- `call`: business code run under a page context, what escapes it coded. -/
def call [Spec] (piece : Piece) (ctx : PageContext) (handler : Code ω α) : Code ω α :=
  answering escaped (handling ctx (runAs piece handler))

/-- `start_state`. The factory runs under the page of the code around it. -/
def startState [Spec] [Message σ] (factory : Code ω σ) (book : EventBook) : Code ω σ := do
  let state ← factory
  ofExcept (Router.startState (.ok state) book)

/-- One turn of the fold: the page's applier, if its type has one. -/
def foldPage [Spec] [Message σ] (cover : Option Cover) (appliers : Dict String (Applier ω σ))
    (code : String) (state : σ) (page : EventPage) : Code ω σ :=
  match appliers.get? (typeName page.getPayload.typeUrl) with
  | none => pure state
  | some applier =>
    let ctx : PageContext := ⟨cover, page.sequence, page.metadata⟩
    answering (foldError σ code page)
      (handling ctx (runAs (.applier cover page) (applier state page.getPayload ctx)))

/-- `fold`: every page whose type has an applier, in order. -/
def fold [Spec] [Message σ] (state : σ) (pages : List EventPage) (cover : Option Cover)
    (appliers : Dict String (Applier ω σ)) (code : String) : Code ω σ :=
  pages.foldlM (foldPage cover appliers code) state

/-! ### An aggregate's dispatch -/

/-- `CommandThunk`. -/
abbrev CommandThunk (ω σ : Type) :=
  Any → σ → CommandContext → Code ω (Handled σ (Option EventBook))

/-- `FactThunk`. -/
abbrev FactThunk (ω σ : Type) := Any → σ → CommandContext → Code ω (Handled σ FactRecord)

/-- `RefusedThunk`. -/
abbrev RefusedThunk (ω σ : Type) :=
  CommandRefused → σ → CommandContext → Code ω (Handled σ FactRecord)

/-- `ChangedThunk`. -/
abbrev ChangedThunk (ω σ : Type) := σ → σ → Code ω (List String)

/-- The decision an input is routed to. -/
abbrev Decide (ω σ : Type) := σ → CommandContext → Code ω (Handled σ EventBook)

/-- `Rebuilder`. -/
structure Rebuilder (ω σ : Type) where
  factory : Code ω σ
  appliers : Dict String (Applier ω σ)

/-- `AggregateDispatch`, as far as a dispatch reads it. -/
structure AggregateDispatch (ω σ : Type) where
  rebuilder : Rebuilder ω σ
  commands : Dict String (CommandThunk ω σ)
  facts : Dict String (FactThunk ω σ)
  refusals : Dict String (RefusedThunk ω σ)
  rulesVersion : String
  changed : Option (ChangedThunk ω σ)

namespace AggregateDispatch

variable [Spec]

/-- `_decide`. -/
def decide (table : AggregateDispatch ω σ) (payload : Any) : Except Exc (Decide ω σ) :=
  match table.commands.get? (typeName payload.typeUrl) with
  | none => .error (.coded (unknownType unknownCommandType payload.typeUrl))
  | some thunk => .ok fun state ctx =>
    Handled.map Router.AggregateDispatch.book <$> thunk payload state ctx

variable [Message CommandRefused]

/-- `_ingest`. -/
def ingest (table : AggregateDispatch ω σ) (payload : Any) : Except Exc (Decide ω σ) :=
  let fq := typeName payload.typeUrl
  match table.facts.get? fq with
  | some thunk => .ok fun state ctx => Handled.map FactRecord.book <$> thunk payload state ctx
  | none =>
    if fq ≠ Message.fullName CommandRefused then
      .error (.coded (unknownType noFactHandler payload.typeUrl))
    else do
      let refused ← decode CommandRefused payload.value
      let commandType := refused.command.getPage.commandPayload.typeUrl
      match table.refusals.get? (typeName commandType) with
      | none =>
        .error (.coded (CodedError.new noRefusalHandler none
          (Dict.ofList [(ReasonArg.commandType.name, commandType)]) none))
      | some onRefused =>
        .ok fun state ctx => Handled.map FactRecord.book <$> onRefused refused state ctx

/-- The arm of the input's body picks the decision. -/
def route (table : AggregateDispatch ω σ) (request : ContextualCommand) :
    Except Exc (Decide ω σ) :=
  match request.command.getPage.body with
  | some (.fact payload) => table.ingest (payload.getD default)
  | _ => do
    let decide ← table.decide request.command.getPage.commandPayload
    if request.command.getHandling.conflictResolution = .commutative ∧ table.changed.isNone then
      throw (.coded (CodedError.new conflictResolutionUnsupported none ∅ none))
    return decide

variable [Message σ]

omit [Message CommandRefused] in
/-- The starting state and the delivered pages, folded in two, with the copy between the two
that COMMUTATIVE takes. -/
def deliver (table : AggregateDispatch ω σ) (request : ContextualCommand) :
    Code ω (Option σ × σ) := do
  let events := request.events
  let appliers := table.rebuilder.appliers
  let state ← startState table.rebuilder.factory events
  let state ← fold state (events.pages.take (seen request)) events.cover appliers foldFailed
  let before :=
    if request.command.getHandling.conflictResolution = .commutative then some (copy state)
    else none
  let state ← fold state (events.pages.drop (seen request)) events.cover appliers foldFailed
  return (before, state)

omit [Message CommandRefused] in
/-- The decision's own events, folded as they will be persisted. -/
def emit (table : AggregateDispatch ω σ) (request : ContextualCommand) (ctx : CommandContext)
    (state : σ) (out : EventBook) : Code ω σ := do
  let emitted ← ofExcept
    (stampAll (ctx.eventMeta table.rulesVersion) request.events.nextSequence out.pages)
  fold state emitted request.events.cover table.rebuilder.appliers foldFailedEmitted

omit [Message CommandRefused] [Message σ] in
/-- `self.changed(before, after)`, which is `None` in a table without a resolver. -/
def callChanged (table : AggregateDispatch ω σ) (before after : σ) : Code ω (List String) :=
  call .resolver PageContext.empty
    (match table.changed with
      | some changed => changed before after
      | none => throw (.exception (.other "TypeError" "'NoneType' object is not callable")))

omit [Message CommandRefused] in
/-- The answer. `copies` are the two copies COMMUTATIVE took. -/
def respond (table : AggregateDispatch ω σ) (ctx : CommandContext) (out : EventBook)
    (copies : Option (σ × σ)) (state : σ) : Code ω CommandHandlerResponse := do
  let resp : CommandHandlerResponse :=
    { events := { out with snapshot := some { out.getSnapshot with state := some (pack state) } }
      rulesVersion := table.rulesVersion
      conflict := ctx.conflict.map fun c => ⟨c.resolved, [], []⟩ }
  match copies with
  | none => return resp
  | some (before, head) =>
    let window ← table.callChanged before head
    let mine ← table.callChanged head state
    let report := resp.conflict.getD default
    return { resp with
      conflict := some { report with windowUnits := window, commandUnits := mine } }

omit [Message CommandRefused] in
/-- What follows the decision. -/
def conclude (table : AggregateDispatch ω σ) (request : ContextualCommand) (before : Option σ)
    (handled : Handled σ EventBook) : Code ω CommandHandlerResponse := do
  let ctx := (handed request).settle handled.settled
  let copies := before.map fun before => (before, copy handled.state)
  let state ← table.emit request ctx handled.state handled.returned
  table.respond ctx handled.returned copies state

/-- **`handle`**: the decision is called under the cover of its context, the input's. -/
def handle (table : AggregateDispatch ω σ) (request : ContextualCommand) :
    Code ω CommandHandlerResponse := do
  let decide ← ofExcept (table.route request)
  let (before, state) ← table.deliver request
  let ctx := handed request
  let handled ← call (.decision request.command) (PageContext.ofCover ctx.cover) (decide state ctx)
  table.conclude request before handled

end AggregateDispatch

/-! ### A policy's dispatch -/

/-- `PolicyEventThunk`. -/
abbrev PolicyEventThunk (ω : Type) := Any → PageContext → Code ω (Option (List CommandBook))

/-- `RefusalThunk`. -/
abbrev RefusalThunk (ω : Type) := Refusal → CommandContext → Code ω Payload

/-- `PolicyDispatch`, as far as a dispatch reads it. -/
structure PolicyDispatch (ω : Type) where
  events : Dict String (PolicyEventThunk ω)
  refusals : Dict String (RefusalThunk ω)

namespace PolicyDispatch

variable [Spec]

/-- One turn of the loop: a page's handler, if its type has one, and its reaction. -/
def handlePage (table : PolicyDispatch ω) (cover : Option Cover) (resp : PolicyResponse)
    (page : EventPage) : Code ω PolicyResponse :=
  match table.events.get? (typeName page.getPayload.typeUrl) with
  | none => pure resp
  | some thunk => do
    let ctx : PageContext := ⟨cover, page.sequence, page.metadata⟩
    let outputs ← call (.trigger cover page) ctx (thunk page.getPayload ctx)
    return Router.PolicyDispatch.addReaction resp ⟨page.sequence, outputs.getD []⟩

/-- `PolicyService.Handle`. -/
def handle (table : PolicyDispatch ω) (source : EventBook) : Code ω PolicyResponse :=
  source.pages.foldlM (table.handlePage source.cover) ⟨[]⟩

/-- `PolicyService.OnRefused`. -/
def onRefusal (table : PolicyDispatch ω) (refusal : Refusal) : Code ω OnRefusedResponse :=
  let command := refusal.command
  match table.refusals.get? (typeName command.getPage.commandPayload.typeUrl) with
  | none => pure ⟨none⟩
  | some thunk => do
    let ctx := bookContext command 0
    let payload ← call (.translation refusal) (PageContext.ofCover ctx.cover) (thunk refusal ctx)
    let page : CommandPage := ⟨some (.fact (some (asAny payload))), none, none, none⟩
    return ⟨some ⟨none, none, some page⟩⟩

end PolicyDispatch

/-! ### A projector's dispatch -/

/-- `ProjectorDispatch`, as far as a dispatch reads it. -/
structure ProjectorDispatch (ω σ : Type) where
  name : String
  factory : Code ω σ
  domains : List String
  events : Dict String (Applier ω σ)

namespace ProjectorDispatch

variable [Spec] [Message σ]

/-- The delivered pages, folded into the projection where the book is consumed. -/
def project (table : ProjectorDispatch ω σ) (book : EventBook) (projection : σ) : Code ω σ :=
  if table.domains.isEmpty || table.domains.contains (book.cover.getD default).domain then
    fold projection book.pages book.cover table.events foldFailed
  else pure projection

/-- The answer, with the position after the book. -/
def respond (table : ProjectorDispatch ω σ) (book : EventBook) (projection : σ) :
    Except Exc Projection :=
  let after := Router.ProjectorDispatch.after book
  if after < Spec.sequenceLimit then
    .ok ⟨some (book.cover.getD default), table.name, after, some (pack projection)⟩
  else .error (.other "ValueError" ("Value out of range: " ++ toString after))

/-- `ProjectorService.Handle`. The factory runs under the page of the code around it. -/
def handle (table : ProjectorDispatch ω σ) (book : EventBook) : Code ω Projection := do
  let projection ← table.factory
  let projection ← table.project book projection
  ofExcept (table.respond book projection)

end ProjectorDispatch

/-! ### The router -/

/-- A component, by its dispatch table. -/
inductive Component (ω σ : Type) where
  | aggregate (table : AggregateDispatch ω σ)
  | processManager (table : AggregateDispatch ω σ)
  | policy (table : PolicyDispatch ω)
  | projector (table : ProjectorDispatch ω σ)

namespace Component

/-- The table of a component of `CommandHandlerService`. -/
def commandHandler? : Component ω σ → Option (AggregateDispatch ω σ)
  | .aggregate table => some table
  | .processManager table => some table
  | _ => none

/-- The table of a policy. -/
def policy? : Component ω σ → Option (PolicyDispatch ω)
  | .policy table => some table
  | _ => none

/-- The table of a projector. -/
def projector? : Component ω σ → Option (ProjectorDispatch ω σ)
  | .projector table => some table
  | _ => none

end Component

/-- `Router`: the component it hosts, if any. -/
structure Router (ω σ : Type) where
  component : Option (Component ω σ)

namespace Router

variable [Spec]

/-- `_hosted`. -/
def hosted {τ : Type} (router : Router ω σ) (ofKinds : Component ω σ → Option τ) :
    Except Exc τ :=
  match router.component with
  | none => .error (.coded (CodedError.new noHandlersRegistered none ∅ none))
  | some component =>
    match ofKinds component with
    | none => .error (.coded (CodedError.new noComponentOfKind none ∅ none))
    | some table => .ok table

variable [Message σ] [Message CommandRefused]

/-- `dispatch`. -/
def dispatch (router : Router ω σ) (request : ContextualCommand) :
    Code ω CommandHandlerResponse := do
  let table ← ofExcept (router.hosted Component.commandHandler?)
  table.handle request

omit [Message σ] [Message CommandRefused] in
/-- `dispatch_policy`. -/
def dispatchPolicy (router : Router ω σ) (source : EventBook) : Code ω PolicyResponse := do
  let table ← ofExcept (router.hosted Component.policy?)
  table.handle source

omit [Message σ] [Message CommandRefused] in
/-- `dispatch_refusal`. -/
def dispatchRefusal (router : Router ω σ) (refusal : Refusal) : Code ω OnRefusedResponse := do
  let table ← ofExcept (router.hosted Component.policy?)
  table.onRefusal refusal

omit [Message CommandRefused] in
/-- `dispatch_projector`. -/
def dispatchProjector (router : Router ω σ) (book : EventBook) : Code ω Projection := do
  let table ← ofExcept (router.hosted Component.projector?)
  table.handle book

end Router

end Pages

end AngzarrClient
