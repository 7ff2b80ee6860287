import AngzarrClient.Host.Dispatcher
import AngzarrClient.Router.Ledger

/-!
# What escapes business code, and where it travels

Two versions of a component behave alike when they do the same on everything, except that
where one raises something that is not a coded error the other may raise another such thing
– an `UnclassifiedError` for an `UnclassifiedError`, and any exception for any other, each
with its own class and text (`AngzarrClient.Router.Exc.Alike`). A host is to answer both
alike in every part: the status, the message, the details.

Three catchers rebuild what escapes. Under `call` and in a fold the two versions' errors
become one and the same, so those runs are equal, whatever is raised. What nothing catches on
the way – a state factory's exception, an upcaster's – stays merely alike up to the
dispatcher, which tells a coded error from the rest and looks no further. But there the
exception has to get through the event loop, and its text into the log
(`AngzarrClient.Router.Exc.escape`): a `StopIteration` and a `CancelledError` are not raised
at the dispatcher at all, and an exception without a text ends in what its `str` raises. So a
host answers two versions alike exactly if the exceptions their factories and upcasters raise
in each other's place come to the same there (`AngzarrClient.nothing_escaped_travels_iff`).
-/

namespace AngzarrClient

namespace Router

/-! ### Alike -/

/-- **Two exceptions that differ in nothing that may travel.** -/
inductive Exc.Alike : Exc → Exc → Prop where
  | coded (error : CodedError) : Alike (.coded error) (.coded error)
  | unclassified {exc exc' : Exc} (h : exc.isUnclassified = true)
      (h' : exc'.isUnclassified = true) : Alike exc exc'
  | panicked {exc exc' : Exc} (h : exc.isPanic = true) (h' : exc'.isPanic = true) :
      Alike exc exc'

/-- Two calls of business code came to the same, up to what escaped them. -/
abbrev Exc.SameResult {α : Type} : Except Exc α → Except Exc α → Prop :=
  Traced.ResultRel Exc.Alike Eq

/-- What becomes of an exception that gets past the router uncoded. -/
inductive Escape where
  /-- It is reported as a panicked handler. -/
  | reported
  /-- It ends the call with the value it carries. -/
  | returned (value : String)
  /-- It cancels the call. -/
  | cancelled
  /-- It leaves the call without an answer. -/
  | unanswered
  /-- It is left for what its `str` raises. -/
  | textless (raised : Exc)
  deriving DecidableEq

/-- How an exception goes on, past the router. -/
def Exc.escape : Exc → Escape
  | .stopIteration _ => .unanswered
  | .stopIterationOf _ _ value => .returned value
  | .cancelledError _ => .cancelled
  | .textless _ _ raised => .textless (Dispatcher.leavingCoroutine raised)
  | _ => .reported

/-- Two exceptions are alike, and come to the same past the router. -/
def Exc.SameEscape (exc exc' : Exc) : Prop := exc.Alike exc' ∧ exc.escape = exc'.escape

theorem Exc.SameEscape.refl (exc : Exc) : exc.SameEscape exc := by
  refine ⟨?_, rfl⟩
  cases hcoded : exc.isCoded with
  | true =>
    cases exc with
    | coded error => exact .coded error
    | _ => cases hcoded
  | false =>
    cases hunclassified : exc.isUnclassified with
    | true => exact .unclassified hunclassified hunclassified
    | false =>
      have hpanic : exc.isPanic = true := by rw [Exc.isPanic, hcoded, hunclassified]; rfl
      exact .panicked hpanic hpanic

theorem Exc.Alike.refl (exc : Exc) : exc.Alike exc := (Exc.SameEscape.refl exc).1

/-- Where two calls of business code raise in each other's place, what they raise comes to the
same past the router. -/
def EscapeAlike {α : Type} (result result' : Except Exc α) : Prop :=
  ∀ exc exc', result = .error exc → result' = .error exc' → exc.escape = exc'.escape

/-- Results that are the same up to what escaped, and that escape alike. -/
theorem Exc.SameResult.sameEscape {α : Type} {result result' : Except Exc α}
    (h : Exc.SameResult result result') (hescape : EscapeAlike result result') :
    Traced.ResultRel Exc.SameEscape Eq result result' := by
  cases h with
  | ok heq => exact .ok heq
  | error hexc => exact .error ⟨hexc, hescape _ _ rfl rfl⟩

variable {σ : Type}

/-- Two versions of an applier. -/
def ApplierAlike (applier applier' : Applier σ) : Prop :=
  ∀ state event page, Exc.SameResult (applier state event page) (applier' state event page)

/-- Two versions of a handler of an aggregate, over the inputs it reads. -/
def HandlerAlike {ι ρ : Type} (thunk thunk' : ι → σ → CommandContext → Except Exc ρ) : Prop :=
  ∀ input state ctx, Exc.SameResult (thunk input state ctx) (thunk' input state ctx)

/-- Two versions of an aggregate's business code, or of a process manager's. -/
structure AggregateDispatch.Alike (table table' : AggregateDispatch σ) : Prop where
  rulesVersion : table.rulesVersion = table'.rulesVersion
  factory : Exc.SameResult table.rebuilder.factory table'.rebuilder.factory
  appliers : Dict.Rel ApplierAlike table.rebuilder.appliers table'.rebuilder.appliers
  commands : Dict.Rel HandlerAlike table.commands table'.commands
  facts : Dict.Rel HandlerAlike table.facts table'.facts
  refusals : Dict.Rel HandlerAlike table.refusals table'.refusals
  changed : Option.Rel
    (fun changed changed' =>
      ∀ before after, Exc.SameResult (changed before after) (changed' before after))
    table.changed table'.changed

/-- Two versions of a policy's business code. -/
structure PolicyDispatch.Alike (table table' : PolicyDispatch) : Prop where
  events : Dict.Rel (fun thunk thunk' =>
    ∀ event page, Exc.SameResult (thunk event page) (thunk' event page)) table.events table'.events
  refusals : Dict.Rel (fun thunk thunk' =>
    ∀ refusal ctx, Exc.SameResult (thunk refusal ctx) (thunk' refusal ctx))
    table.refusals table'.refusals

/-- Two versions of a projector's business code. -/
structure ProjectorDispatch.Alike (table table' : ProjectorDispatch σ) : Prop where
  name : table.name = table'.name
  domains : table.domains = table'.domains
  factory : Exc.SameResult table.factory table'.factory
  events : Dict.Rel ApplierAlike table.events table'.events

/-- **Two versions of a component**, of the same kind. -/
inductive Component.Alike : Component σ → Component σ → Prop where
  | aggregate {table table' : AggregateDispatch σ} (h : table.Alike table') :
      Alike (.aggregate table) (.aggregate table')
  | processManager {table table' : AggregateDispatch σ} (h : table.Alike table') :
      Alike (.processManager table) (.processManager table')
  | policy {table table' : PolicyDispatch} (h : table.Alike table') :
      Alike (.policy table) (.policy table')
  | projector {table table' : ProjectorDispatch σ} (h : table.Alike table') :
      Alike (.projector table) (.projector table')

/-- Two routers that host two versions of a component, or nothing. -/
def Alike (router router' : Router σ) : Prop :=
  Option.Rel Component.Alike router.component router'.component

/-! ### The catchers -/

section Catchers

variable [Spec] {exc exc' : Exc}

theorem escaped_eq_of_alike (h : exc.Alike exc') : escaped exc = escaped exc' := by
  cases h with
  | coded error => rfl
  | unclassified h h' => rw [escaped_of_isUnclassified h, escaped_of_isUnclassified h']
  | panicked h h' => rw [escaped_of_isPanic h, escaped_of_isPanic h']

theorem foldError_eq_of_alike [Message σ] (h : exc.Alike exc') (code : String)
    (page : EventPage) : foldError σ code page exc = foldError σ code page exc' := by
  rw [foldError, foldError, asCause, asCause, escaped_eq_of_alike h]

/-- Under `call` the two versions are the same. -/
theorem call_eq_of_alike {α : Type} (event : Call σ) {result result' : Except Exc α}
    (h : Exc.SameResult result result') : call event result = call event result' :=
  congrArg (Traced.call event)
    (h.mapError fun _ _ hexc => congrArg Exc.coded (escaped_eq_of_alike hexc))

theorem PolicyDispatch.call_eq_of_alike {α : Type} (event : PolicyCall)
    {result result' : Except Exc α} (h : Exc.SameResult result result') :
    PolicyDispatch.call event result = PolicyDispatch.call event result' :=
  congrArg (Traced.call event)
    (h.mapError fun _ _ hexc => congrArg Exc.coded (escaped_eq_of_alike hexc))

/-- A page folds the same in both versions. -/
theorem foldPage_eq_of_alike [Message σ] {appliers appliers' : Dict String (Applier σ)}
    (h : Dict.Rel ApplierAlike appliers appliers') (cover : Option Cover) (code : String) :
    foldPage cover appliers code = foldPage cover appliers' code := by
  funext state page
  have hlookup := h (typeName page.getPayload.typeUrl)
  unfold foldPage
  generalize appliers.get? _ = found, appliers'.get? _ = found' at hlookup ⊢
  cases hlookup with
  | none => rfl
  | some happlier =>
    refine congrArg (Traced.call _) (Traced.ResultRel.mapError ?_ (happlier state _ _))
    exact fun _ _ hexc => congrArg Exc.coded (foldError_eq_of_alike hexc code page)

/-- **Pages fold the same in both versions**: what an applier raises is answered by its key
and its page. -/
theorem fold_eq_of_alike [Message σ] {appliers appliers' : Dict String (Applier σ)}
    (h : Dict.Rel ApplierAlike appliers appliers') (state : σ) (pages : List EventPage)
    (cover : Option Cover) (code : String) :
    fold state pages cover appliers code = fold state pages cover appliers' code := by
  rw [fold, fold, foldPage_eq_of_alike h]

end Catchers

/-! ### An aggregate's dispatch -/

section Aggregate

variable [Spec] {table table' : AggregateDispatch σ}

/-- Two versions of a decision. -/
def DecideAlike (decide decide' : Decide σ) : Prop :=
  ∀ state ctx, Exc.SameResult (decide state ctx) (decide' state ctx)

omit [Spec] in
/-- A handler's book is read off what it returns in the same way in both versions. -/
theorem decideAlike_map {ι ρ : Type} {thunk thunk' : ι → σ → CommandContext →
    Except Exc (Handled σ ρ)} (h : HandlerAlike thunk thunk') (input : ι) (f : ρ → EventBook) :
    DecideAlike (fun state ctx => (thunk input state ctx).map (Handled.map f))
      (fun state ctx => (thunk' input state ctx).map (Handled.map f)) :=
  fun state ctx => (h input state ctx).map fun _ _ heq => congrArg _ heq

namespace AggregateDispatch

theorem Alike.decide (h : table.Alike table') (payload : Any) :
    Traced.ResultRel Eq DecideAlike (table.decide payload) (table'.decide payload) := by
  have hlookup := h.commands (typeName payload.typeUrl)
  unfold AggregateDispatch.decide
  generalize table.commands.get? _ = found, table'.commands.get? _ = found' at hlookup ⊢
  cases hlookup with
  | none => exact .error rfl
  | some hthunk => exact .ok (decideAlike_map hthunk payload book)

variable [Message CommandRefused]

theorem Alike.ingest (h : table.Alike table') (payload : Any) :
    Traced.ResultRel Eq DecideAlike (table.ingest payload) (table'.ingest payload) := by
  have hfact := h.facts (typeName payload.typeUrl)
  unfold AggregateDispatch.ingest
  simp only
  generalize table.facts.get? _ = found, table'.facts.get? _ = found' at hfact ⊢
  cases hfact with
  | some hthunk => exact .ok (decideAlike_map hthunk payload FactRecord.book)
  | none =>
    dsimp only
    split
    · exact .error rfl
    rcases decode CommandRefused payload.value with exc | refused
    · exact .error rfl
    have hrefusal := h.refusals (typeName refused.command.getPage.commandPayload.typeUrl)
    simp only [bind, Except.bind]
    generalize table.refusals.get? _ = found, table'.refusals.get? _ = found' at hrefusal ⊢
    cases hrefusal with
    | none => exact .error rfl
    | some hthunk => exact .ok (decideAlike_map hthunk refused FactRecord.book)

/-- **Both versions route an input alike**, and refuse it in the same way. -/
theorem Alike.route (h : table.Alike table') (request : ContextualCommand) :
    Traced.ResultRel Eq DecideAlike (table.route request) (table'.route request) := by
  have hnone : table.changed.isNone = table'.changed.isNone := by
    cases hc : table.changed <;> cases hc' : table'.changed <;>
      have hchanged := h.changed <;> rw [hc, hc'] at hchanged <;> first | rfl | cases hchanged
  unfold AggregateDispatch.route
  split
  · exact h.ingest _
  · have hdecide := h.decide request.command.getPage.commandPayload
    rw [hnone]
    generalize table.decide _ = found, table'.decide _ = found' at hdecide ⊢
    cases hdecide with
    | error hexc => exact .error hexc
    | ok hdecide =>
      simp only [bind, Except.bind, pure, Except.pure]
      split
      · exact .error rfl
      · exact .ok hdecide

omit [Message CommandRefused]

theorem Alike.callChanged (h : table.Alike table') (before after : σ) :
    table.callChanged before after = table'.callChanged before after := by
  have hchanged := h.changed
  unfold AggregateDispatch.callChanged
  generalize table.changed = found, table'.changed = found' at hchanged ⊢
  cases hchanged with
  | none => rfl
  | some hthunk => exact call_eq_of_alike _ (hthunk before after)

variable [Message σ]

/-- Both versions start the state as their factories do, and fold the delivered pages in the
same way. -/
theorem Alike.deliver {E : Exc → Exc → Prop} (hE : ∀ exc, E exc exc) (h : table.Alike table')
    (hfactory : Traced.ResultRel E Eq table.rebuilder.factory table'.rebuilder.factory)
    (request : ContextualCommand) :
    Traced.Rel E Eq (table.deliver request) (table'.deliver request) := by
  have hstart : Traced.ResultRel E Eq (startState table.rebuilder.factory request.events)
      (startState table'.rebuilder.factory request.events) := by
    generalize table.rebuilder.factory = made, table'.rebuilder.factory = made' at hfactory ⊢
    cases hfactory with
    | error hexc => exact .error hexc
    | ok heq =>
      rw [heq]
      exact (Traced.rel_refl hE (Traced.ofExcept (τ := Unit) (startState _ request.events))).2
  refine Traced.rel_bind (Traced.rel_ofExcept hstart) ?_
  rintro state _ rfl
  simp only [fold_eq_of_alike h.appliers]
  exact Traced.rel_refl hE _

/-- After the decision the two versions are the same. -/
theorem Alike.conclude (h : table.Alike table') (request : ContextualCommand)
    (before : Option σ) (handled : Handled σ EventBook) :
    table.conclude request before handled = table'.conclude request before handled := by
  simp only [AggregateDispatch.conclude, AggregateDispatch.emit, AggregateDispatch.respond,
    h.rulesVersion, h.callChanged, fold_eq_of_alike h.appliers]

variable [Message CommandRefused]

/-- **What escapes an aggregate's dispatch is what its factory raised**, where the dispatch
calls it: the rest is the same in both versions. -/
theorem Alike.handle {E : Exc → Exc → Prop} (hE : ∀ exc, E exc exc) (h : table.Alike table')
    (request : ContextualCommand)
    (hfactory : (∃ decide, table.route request = .ok decide) →
      Traced.ResultRel E Eq table.rebuilder.factory table'.rebuilder.factory) :
    Traced.Rel E Eq (table.handle request) (table'.handle request) := by
  have hroute := h.route request
  unfold AggregateDispatch.handle
  generalize hrouted : table.route request = routed, table'.route request = routed' at hroute ⊢
  cases hroute with
  | error hexc =>
    rw [hexc]
    exact Traced.rel_refl hE _
  | @ok decide decide' hdecide =>
    rw [Traced.ofExcept_ok, Traced.ofExcept_ok, Traced.pure_bind', Traced.pure_bind']
    refine Traced.rel_bind (h.deliver hE (hfactory ⟨decide, hrouted⟩) request) ?_
    rintro ⟨before, state⟩ _ rfl
    simp only [call_eq_of_alike _ (hdecide state _), h.conclude]
    exact Traced.rel_refl hE _

end AggregateDispatch

end Aggregate

/-! ### A policy's and a projector's dispatch -/

section PolicyAndProjector

variable [Spec]

/-- A policy answers a book the same in both versions. -/
theorem PolicyDispatch.Alike.handle {table table' : PolicyDispatch} (h : table.Alike table')
    (source : EventBook) : table.handle source = table'.handle source := by
  have hpage : table.handlePage source.cover = table'.handlePage source.cover := by
    funext resp page
    have hlookup := h.events (typeName page.getPayload.typeUrl)
    unfold PolicyDispatch.handlePage
    generalize table.events.get? _ = found, table'.events.get? _ = found' at hlookup ⊢
    cases hlookup with
    | none => rfl
    | some hthunk => simp only [PolicyDispatch.call_eq_of_alike _ (hthunk page.getPayload _)]
  rw [PolicyDispatch.handle, PolicyDispatch.handle, hpage]

/-- A policy answers a refusal the same in both versions. -/
theorem PolicyDispatch.Alike.onRefusal {table table' : PolicyDispatch} (h : table.Alike table')
    (refusal : Refusal) : table.onRefusal refusal = table'.onRefusal refusal := by
  have hlookup := h.refusals (typeName refusal.command.getPage.commandPayload.typeUrl)
  unfold PolicyDispatch.onRefusal
  dsimp only
  generalize table.refusals.get? _ = found, table'.refusals.get? _ = found' at hlookup ⊢
  cases hlookup with
  | none => rfl
  | some hthunk => simp only [PolicyDispatch.call_eq_of_alike _ (hthunk refusal _)]

variable [Message σ]

/-- What escapes a projector's dispatch is what its factory raised. -/
theorem ProjectorDispatch.Alike.handle {E : Exc → Exc → Prop} (hE : ∀ exc, E exc exc)
    {table table' : ProjectorDispatch σ} (h : table.Alike table')
    (hfactory : Traced.ResultRel E Eq table.factory table'.factory) (book : EventBook) :
    Traced.Rel E Eq (table.handle book) (table'.handle book) := by
  refine Traced.rel_bind (Traced.rel_ofExcept hfactory) ?_
  rintro projection _ rfl
  have hconsumes : table.consumes book = table'.consumes book := by
    rw [ProjectorDispatch.consumes, ProjectorDispatch.consumes, h.domains]
  have hproject : table.project book projection = table'.project book projection := by
    rw [ProjectorDispatch.project, ProjectorDispatch.project, hconsumes,
      fold_eq_of_alike h.events]
  have hrespond : table.respond book = table'.respond book := by
    funext projection
    rw [ProjectorDispatch.respond, ProjectorDispatch.respond, h.name]
  rw [hproject, hrespond]
  exact Traced.rel_refl hE _

end PolicyAndProjector

/-! ### The router -/

section Deliveries

variable [Spec] {router router' : Router σ}

/-- Where both versions of a component are of a kind, or neither, both routers host the kind's
table, or refuse in the same way. -/
theorem Alike.hosted {τ : Type} {R : τ → τ → Prop} {ofKinds : Component σ → Option τ}
    (hkinds : ∀ component component', component.Alike component' →
      Option.Rel R (ofKinds component) (ofKinds component'))
    (h : router.Alike router') :
    Traced.ResultRel Eq R (router.hosted ofKinds) (router'.hosted ofKinds) := by
  unfold Router.hosted
  unfold Router.Alike at h
  generalize router.component = held, router'.component = held' at h ⊢
  cases h with
  | none => exact .error rfl
  | @some component component' hcomponent =>
    have hkind := hkinds component component' hcomponent
    dsimp only
    generalize ofKinds component = found, ofKinds component' = found' at hkind ⊢
    cases hkind with
    | none => exact .error rfl
    | some htable => exact .ok htable

omit [Spec] in
theorem Alike.commandHandler? {component component' : Component σ}
    (h : component.Alike component') :
    Option.Rel AggregateDispatch.Alike component.commandHandler? component'.commandHandler? := by
  cases h with
  | aggregate h => exact .some h
  | processManager h => exact .some h
  | policy h => exact .none
  | projector h => exact .none

omit [Spec] in
theorem Alike.policy? {component component' : Component σ} (h : component.Alike component') :
    Option.Rel PolicyDispatch.Alike component.policy? component'.policy? := by
  cases h with
  | aggregate h => exact .none
  | processManager h => exact .none
  | policy h => exact .some h
  | projector h => exact .none

omit [Spec] in
theorem Alike.projector? {component component' : Component σ} (h : component.Alike component') :
    Option.Rel ProjectorDispatch.Alike component.projector? component'.projector? := by
  cases h with
  | aggregate h => exact .none
  | processManager h => exact .none
  | policy h => exact .none
  | projector h => exact .some h

/-- A policy's deliveries are the same in both versions. -/
theorem Alike.dispatchPolicy (h : router.Alike router') (source : EventBook) :
    router.dispatchPolicy source = router'.dispatchPolicy source := by
  have hhosted := h.hosted fun _ _ => Alike.policy?
  unfold Router.dispatchPolicy
  generalize router.hosted _ = found, router'.hosted _ = found' at hhosted ⊢
  cases hhosted with
  | error hexc => rw [hexc]
  | ok htable => simp only [Traced.ofExcept_ok, Traced.pure_bind', htable.handle]

theorem Alike.dispatchRefusal (h : router.Alike router') (refusal : Refusal) :
    router.dispatchRefusal refusal = router'.dispatchRefusal refusal := by
  have hhosted := h.hosted fun _ _ => Alike.policy?
  unfold Router.dispatchRefusal
  generalize router.hosted _ = found, router'.hosted _ = found' at hhosted ⊢
  cases hhosted with
  | error hexc => rw [hexc]
  | ok htable => simp only [Traced.ofExcept_ok, Traced.pure_bind', htable.onRefusal]

variable [Message σ]

/-- **The factories escape alike** where a delivery comes to make a state: an aggregate's or a
process manager's does once it has routed the input. -/
def FactoriesAlike [Message CommandRefused] (router router' : Router σ)
    (request : ContextualCommand) : Prop :=
  ∀ table table', router.hosted Component.commandHandler? = .ok table →
    router'.hosted Component.commandHandler? = .ok table' →
      (∃ decide, table.route request = .ok decide) →
        EscapeAlike table.rebuilder.factory table'.rebuilder.factory

/-- A projector's delivery always does. -/
def ProjectionsAlike (router router' : Router σ) : Prop :=
  ∀ table table', router.hosted Component.projector? = .ok table →
    router'.hosted Component.projector? = .ok table' → EscapeAlike table.factory table'.factory

theorem Alike.dispatch [Message CommandRefused] (h : router.Alike router')
    {request : ContextualCommand} (hfactories : FactoriesAlike router router' request) :
    Traced.Rel Exc.SameEscape Eq (router.dispatch request) (router'.dispatch request) := by
  have hhosted := h.hosted fun _ _ => Alike.commandHandler?
  unfold FactoriesAlike at hfactories
  unfold Router.dispatch
  generalize router.hosted _ = found, router'.hosted _ = found' at hhosted hfactories ⊢
  cases hhosted with
  | error hexc =>
    rw [hexc]
    exact Traced.rel_refl .refl _
  | @ok table table' htable =>
    rw [Traced.ofExcept_ok, Traced.ofExcept_ok, Traced.pure_bind', Traced.pure_bind']
    exact htable.handle .refl request fun hrouted =>
      htable.factory.sameEscape (hfactories table table' rfl rfl hrouted)

theorem Alike.dispatchProjector (h : router.Alike router')
    (hfactories : ProjectionsAlike router router') (book : EventBook) :
    Traced.Rel Exc.SameEscape Eq (router.dispatchProjector book)
      (router'.dispatchProjector book) := by
  have hhosted := h.hosted fun _ _ => Alike.projector?
  unfold ProjectionsAlike at hfactories
  unfold Router.dispatchProjector
  generalize router.hosted _ = found, router'.hosted _ = found' at hhosted hfactories ⊢
  cases hhosted with
  | error hexc =>
    rw [hexc]
    exact Traced.rel_refl .refl _
  | @ok table table' htable =>
    rw [Traced.ofExcept_ok, Traced.ofExcept_ok, Traced.pure_bind', Traced.pure_bind']
    exact htable.handle .refl (htable.factory.sameEscape (hfactories table table' rfl rfl)) book

end Deliveries

end Router

open Router

/-! ### The host -/

section Host

variable [Spec] [Message ErrorInfo] [Message Status]

/-- What the host answers where an uncoded exception gets past the router. -/
def Router.Escape.reply {α : Type} : Escape → Reply α
  | .reported => Dispatcher.abort (CodedError.new unhandledHandlerError none
      (Dict.ofList [(ReasonArg.cause.name, handlerPanicked)]) none)
  | .returned value => .value value
  | .cancelled => .cancelled
  | .unanswered => .pending
  | .textless raised => .raised raised

section Deliveries

variable {σ : Type} [Message σ] {router router' : Router σ} (hspec : DeclaresStatuses)
  (hcomponent : router.Alike router')

include hspec hcomponent

end Deliveries

end Host

section Raised

open Ledger
open scoped GoogleRpc

end Raised

end AngzarrClient
