import AngzarrClient.Lib.Traced
import AngzarrClient.Router.Errors

/-!
# What business code is handed, and the fold every component shares

Business code runs in three places here: an applier on a page, a decision on a
state, a resolver on two states. Each is a function that may raise
(`Except AngzarrClient.Router.Exc`), and each call of one is an event of the run it
belongs to (`AngzarrClient.Router.Call`), with the page context it runs under, so a
statement can say which calls were made and in what order as well as what they came
to.

The state object is mutable and there is one of it: a fold writes to it, and the
handler that is handed it may write to it too. Its value is threaded, so every place
that reads it reads the value it has *then* – which is what makes where a copy is
taken visible.
-/

namespace AngzarrClient

namespace Router

/-! ### Contexts -/

/-- `PageContext`: where the input business code handles sits. -/
structure PageContext where
  cover : Option Cover
  sequence : ℕ
  metadata : Option EventMeta
  deriving DecidableEq, Inhabited

/-- `PageContext()`. -/
def PageContext.empty : PageContext := ⟨none, 0, none⟩

/-- `PageContext(cover)`. -/
def PageContext.ofCover (cover : Option Cover) : PageContext := ⟨cover, 0, none⟩

/-- `Conflict`: a stale command's window, the nonce delivered with it, and the one
the handler settled with. -/
structure Conflict where
  window : List EventPage
  nonce : Bytes
  resolved : Bytes
  deriving DecidableEq

/-- `Conflict(window, nonce)`: not settled. -/
def Conflict.new (window : List EventPage) (nonce : Bytes) : Conflict := ⟨window, nonce, []⟩

/-- `resolve_conflicts`: the window declared settled with `nonce`. -/
def Conflict.resolveConflicts (conflict : Conflict) (nonce : Bytes) : Conflict :=
  { conflict with resolved := nonce }

/-- `CommandContext`: what a command, fact or refusal handler is handed beside its
input. -/
structure CommandContext where
  nextSequence : ℕ
  hadPriorEvents : Bool
  cover : Option Cover
  expectedSequence : ℕ
  conflictResolution : ConflictResolution
  conflict : Option Conflict
  commandId : Option UUID
  correlationId : Option UUID
  factOrigin : Option FactOrigin
  recordedAt : Option Timestamp
  deriving DecidableEq

/-- `event_meta`: the metadata every event of the decision is stamped with. -/
def CommandContext.eventMeta (ctx : CommandContext) (rulesVersion : String) : EventMeta where
  rulesVersion := rulesVersion
  commandId := ctx.commandId
  fact := ctx.factOrigin
  correlationId := ctx.correlationId
  recordedAt := ctx.recordedAt

/-- `book_context`: the context of an input's book; the expected sequence defaults
to `next_sequence`. -/
def bookContext (book : CommandBook) (nextSequence : ℕ) : CommandContext :=
  let handling := book.getHandling
  let page := book.getPage
  { nextSequence := nextSequence
    hadPriorEvents := false
    cover := book.cover
    expectedSequence := handling.expectedSequence.getD nextSequence
    conflictResolution := handling.conflictResolution
    conflict := none
    commandId := page.commandId
    correlationId := page.correlationId
    factOrigin := page.factOrigin
    recordedAt := none }

/-! ### Facts -/

/-- A message, or an `Any` that holds one. -/
inductive Payload where
  | any (packed : Any)
  | message (fullName : String) (serialized : Bytes)
  deriving DecidableEq

/-- `as_any`. -/
def asAny : Payload → Any
  | .any packed => packed
  | .message fullName serialized => ⟨"/" ++ fullName, serialized⟩

/-- `FactRecord`: the fact a handler records, then the events that flag it. -/
structure FactRecord where
  fact : Payload
  flags : List Payload
  deriving DecidableEq

/-- `FactRecord.book`. -/
def FactRecord.book (record : FactRecord) : EventBook where
  cover := none
  pages := (record.fact :: record.flags).map fun p => ⟨0, some (asAny p), none⟩
  snapshot := none
  nextSequence := 0

/-! ### Calls of business code -/

/-- `Applier`: a state and an event under its page context, to the state after it. -/
abbrev Applier (σ : Type) := σ → Any → PageContext → Except Exc σ

/-- A call of business code, under its page context. -/
inductive Call (σ : Type) where
  /-- An applier, on an event. -/
  | applier (event : Any) (page : PageContext)
  /-- The decision's handler, on the state it is handed. -/
  | handler (page : PageContext) (state : σ) (ctx : CommandContext)
  /-- The resolver, on two states. -/
  | changed (page : PageContext) (before after : σ)
  deriving DecidableEq

/-- Whether a call is an applier's. -/
def Call.isApplier {σ : Type} : Call σ → Bool
  | .applier _ _ => true
  | _ => false

/-- Whether a call is the handler's. -/
def Call.isHandler {σ : Type} : Call σ → Bool
  | .handler _ _ _ => true
  | _ => false

/-- Whether a call is the resolver's. -/
def Call.isChanged {σ : Type} : Call σ → Bool
  | .changed _ _ _ => true
  | _ => false

/-- `decode`: bytes as a message, or `ROUTER_REASON_ANY_DECODE_FAILED`. -/
def decode [Spec] (μ : Type) [Message μ] (data : Bytes) : Except Exc μ :=
  match Message.parse data with
  | .ok msg => .ok msg
  | .error text => .error (.coded (anyDecodeError (Message.fullName μ) text))

variable {σ α : Type}

/-- `call`: business code run under a page context, what escapes it coded. -/
def call [Spec] (event : Call σ) (result : Except Exc α) : Traced (Call σ) Exc α :=
  Traced.call event (result.mapError fun exc => .coded (escaped exc))

/-! ### The starting state and the fold -/

/-- `state_type_url`. -/
def stateTypeUrl (σ : Type) [Message σ] : String := "/" ++ Message.fullName σ

/-- `start_state`: a fresh state, holding the delivered starting state when the book
carries one. The factory is business code, and runs unguarded. -/
def startState [Spec] [Message σ] (factory : Except Exc σ) (book : EventBook) :
    Except Exc σ := do
  let state ← factory
  match book.getSnapshot.state with
  | none => return state
  | some encoded =>
    match Message.parse encoded.value with
    | .ok delivered => return delivered
    | .error _ =>
      throw (.coded (CodedError.new persistedEventCorrupt none
        (Dict.ofList [(ReasonArg.typeUrl.name, encoded.typeUrl)]) none))

/-- The error a fold raises for a failing applier: it names the page, the state's
type and the cause. -/
def foldError [Spec] (σ : Type) [Message σ] (code : String) (page : EventPage) (exc : Exc) :
    CodedError :=
  let args := Dict.ofList
    [(ReasonArg.sequence.name, toString page.sequence),
      (ReasonArg.typeUrl.name, page.getPayload.typeUrl),
      (ReasonArg.stateTypeUrl.name, stateTypeUrl σ)]
  CodedError.new code none (args.update (asCause exc)) none

/-- One turn of the fold: the page's applier, if its type has one. -/
def foldPage [Spec] [Message σ] (cover : Option Cover) (appliers : Dict String (Applier σ))
    (code : String) (state : σ) (page : EventPage) : Traced (Call σ) Exc σ :=
  match appliers.get? (typeName page.getPayload.typeUrl) with
  | none => pure state
  | some applier =>
    let ctx : PageContext := ⟨cover, page.sequence, page.metadata⟩
    Traced.call (.applier page.getPayload ctx)
      ((applier state page.getPayload ctx).mapError fun exc => .coded (foldError σ code page exc))

/-- `fold`: every page whose type has an applier, in order. -/
def fold [Spec] [Message σ] (state : σ) (pages : List EventPage) (cover : Option Cover)
    (appliers : Dict String (Applier σ)) (code : String) : Traced (Call σ) Exc σ :=
  pages.foldlM (foldPage cover appliers code) state

end Router

end AngzarrClient
