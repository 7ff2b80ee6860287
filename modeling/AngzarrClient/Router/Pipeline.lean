import AngzarrClient.Router.Coded
import AngzarrClient.Router.Objects

/-!
# The first failing stage decides

What can go wrong with a delivery is one of eleven things at seven stages
(`AngzarrClient.Router.AggregateDispatch.Fails`), each with the calls of business code made
up to it and the error it is refused with. They are read off the table and the request one
at a time, and several may hold at once: a fact no handler claims may come with a book whose
second page does not fold. The first stage any of them is at
(`AngzarrClient.Router.AggregateDispatch.First`) should be the outcome of the dispatch, error
and calls both, so that nothing runs after it, and an answer should come when there is none.

It is so exactly where nothing else gets in the way
(`AngzarrClient.Router.AggregateDispatch.first_failure_decides_iff`): a state factory that
raises is no stage of the list, and neither is a decision with more pages than there are
sequences left, which the runtime refuses to stamp
(`AngzarrClient.Router.AggregateDispatch.Unobstructed`).
-/

namespace AngzarrClient

namespace Router

open Store

section Pipeline

variable [Spec] {σ : Type} [Message σ]

/-! ### The calls of a fold, and its failing page -/

section Fold

variable {cover : Option Cover} {appliers : Dict String (Applier σ)} {code : String}

omit [Spec] [Message σ] in
/-- The calls of a fold that gets past the pages: one on each whose type has an applier. -/
def applied (cover : Option Cover) (appliers : Dict String (Applier σ))
    (pages : List EventPage) : List (Call σ) :=
  pages.filterMap fun page =>
    (appliers.get? (typeName page.getPayload.typeUrl)).map fun _ =>
      .applier page.getPayload ⟨cover, page.sequence, page.metadata⟩

theorem foldPage_log (s : σ) (page : EventPage) :
    (foldPage cover appliers code s page).log = applied cover appliers [page] := by
  unfold foldPage
  rw [applied, List.filterMap_cons]
  cases appliers.get? (typeName page.getPayload.typeUrl) with
  | none => rfl
  | some applier => rfl

omit [Spec] [Message σ] in
theorem applied_append (pages more : List EventPage) :
    applied cover appliers (pages ++ more) =
      applied cover appliers pages ++ applied cover appliers more :=
  List.filterMap_append

theorem fold_log_of_ok {s s' : σ} {pages : List EventPage}
    (h : (fold s pages cover appliers code).result = .ok s') :
    (fold s pages cover appliers code).log = applied cover appliers pages := by
  induction pages generalizing s with
  | nil => rfl
  | cons page pages ih =>
    rw [fold_cons] at h ⊢
    obtain ⟨s₁, h₁, h⟩ := Traced.result_bind_eq_ok.mp h
    rw [Traced.bind_of_ok h₁, ih h, foldPage_log, ← applied_append]
    rfl

/-- **The first page whose applier fails**: those before it fold, and `error` names it. -/
structure PageFails (cover : Option Cover) (appliers : Dict String (Applier σ)) (code : String)
    (s : σ) (pages before : List EventPage) (page : EventPage) (error : CodedError) : Prop where
  split : ∃ after, pages = before ++ page :: after
  fails : ∃ s' applier exc, (fold s before cover appliers code).result = .ok s' ∧
    appliers.get? (typeName page.getPayload.typeUrl) = some applier ∧
    applier s' page.getPayload ⟨cover, page.sequence, page.metadata⟩ = .error exc ∧
    error = foldError σ code page exc

theorem foldPage_eq_error {s : σ} {page : EventPage} {exc : Exc} :
    (foldPage cover appliers code s page).result = .error exc ↔
      ∃ applier exc', appliers.get? (typeName page.getPayload.typeUrl) = some applier ∧
        applier s page.getPayload ⟨cover, page.sequence, page.metadata⟩ = .error exc' ∧
        exc = .coded (foldError σ code page exc') := by
  unfold foldPage
  cases appliers.get? (typeName page.getPayload.typeUrl) with
  | none => simp
  | some applier =>
    cases h : applier s page.getPayload ⟨cover, page.sequence, page.metadata⟩ with
    | ok s' => simp [h, Except.mapError]
    | error exc' => simp [h, Except.mapError, eq_comm]

/-- A fold fails at its first failing page, and only there. -/
theorem fold_eq_error {s : σ} {pages : List EventPage} {exc : Exc} :
    (fold s pages cover appliers code).result = .error exc ↔
      ∃ before page error, PageFails cover appliers code s pages before page error ∧
        exc = .coded error := by
  unfold fold
  rw [Traced.result_foldlM_eq_error]
  constructor
  · rintro ⟨before, page, after, s', hpages, hbefore, hpage⟩
    obtain ⟨applier, exc', happlier, hexc, rfl⟩ := foldPage_eq_error.mp hpage
    exact ⟨before, page, _, ⟨⟨after, hpages⟩, s', applier, exc', hbefore, happlier, hexc, rfl⟩, rfl⟩
  · rintro ⟨before, page, error, ⟨⟨after, hpages⟩, s', applier, exc', hbefore, happlier, hexc, rfl⟩,
      rfl⟩
    exact ⟨before, page, after, s', hpages, hbefore,
      foldPage_eq_error.mpr ⟨applier, exc', happlier, hexc, rfl⟩⟩

theorem PageFails.result {s : σ} {pages before : List EventPage} {page : EventPage}
    {error : CodedError} (h : PageFails cover appliers code s pages before page error) :
    (fold s pages cover appliers code).result = .error (.coded error) :=
  fold_eq_error.mpr ⟨before, page, error, h, rfl⟩

/-- **No applier runs on a page after the failing one.** -/
theorem PageFails.log {s : σ} {pages before : List EventPage} {page : EventPage}
    {error : CodedError} (h : PageFails cover appliers code s pages before page error) :
    (fold s pages cover appliers code).log = applied cover appliers (before ++ [page]) := by
  obtain ⟨⟨after, rfl⟩, s', applier, exc, hbefore, happlier, hexc, rfl⟩ := h
  have hpage : (foldPage cover appliers code s' page).result = .error _ :=
    foldPage_eq_error.mpr ⟨applier, exc, happlier, hexc, rfl⟩
  have hlog := Traced.log_foldlM_of_error hbefore hpage after
  rw [applied_append, ← fold_log_of_ok hbefore, ← foldPage_log]
  exact hlog

end Fold

/-! ### The stages -/

/-- The stages of a dispatch, in the order they run. -/
inductive Stage where
  /-- The input is routed by its type. -/
  | routed
  /-- A command under COMMUTATIVE has a resolver. -/
  | resolvable
  /-- The state is started. -/
  | started
  /-- The delivered pages are folded. -/
  | delivered
  /-- The decision is made. -/
  | decided
  /-- Its own pages are folded. -/
  | emitted
  /-- The resolver reports the conflict. -/
  | reported
  deriving DecidableEq

/-- A stage's place in the order. -/
def Stage.rank : Stage → ℕ
  | .routed => 0
  | .resolvable => 1
  | .started => 2
  | .delivered => 3
  | .decided => 4
  | .emitted => 5
  | .reported => 6

namespace AggregateDispatch

/-- The payload of an input that is a fact. An input without a body is none: it is routed as
a command of no type. -/
def factPayload (request : ContextualCommand) : Option Any :=
  match request.command.getPage.body with
  | some (.fact payload) => some (payload.getD default)
  | _ => none

omit [Spec] [Message σ] in
/-- The resolver that is called: a table without one has `None` there. -/
def resolver (table : AggregateDispatch σ) : ChangedThunk σ :=
  table.changed.getD fun _ _ => .error (.other "TypeError" "'NoneType' object is not callable")

/-- The handler's call, on the state the delivered pages come to. -/
def handlerCall (request : ContextualCommand) (s : σ) : Call σ :=
  .handler (PageContext.ofCover (handed request).cover) s (handed request)

/-- The appliers' calls on pages of the request's stream that fold. -/
abbrev appliersOn (table : AggregateDispatch σ) (request : ContextualCommand)
    (pages : List EventPage) : List (Call σ) :=
  applied request.events.cover table.rebuilder.appliers pages

/-- The delivered pages fold, from the starting state to the one the handler is called on. -/
structure Delivered (table : AggregateDispatch σ) (request : ContextualCommand)
    (start s : σ) : Prop where
  start_eq : startState table.rebuilder.factory request.events = .ok start
  replayed_eq : (table.replayed request start).result = .ok s

variable [Message CommandRefused]

/-- The handler returns, from that state. -/
structure Returned (table : AggregateDispatch σ) (request : ContextualCommand) (start s : σ)
    (handled : Handled σ EventBook) : Prop extends Delivered table request start s where
  handled_eq : ∃ decide, table.route request = .ok decide ∧
    decide s (handed request) = .ok handled

/-- The decision's own pages fold, and a conflict is to be reported: between the state at the
cut, the one the handler left and the one after its pages. -/
structure Reportable (table : AggregateDispatch σ) (request : ContextualCommand)
    (start s : σ) (handled : Handled σ EventBook) (cut after : σ) : Prop
    extends Returned table request start s handled where
  commutative : request.command.getHandling.conflictResolution = .commutative
  cut_eq : (fold start (request.events.pages.take (seen request)) request.events.cover
    table.rebuilder.appliers foldFailed).result = .ok cut
  after_eq : (fold handled.state (table.emitted request handled.returned) request.events.cover
    table.rebuilder.appliers foldFailedEmitted).result = .ok after

/-- **What can go wrong**: the stage, the calls made up to it, the failing one among them, and
the error the request is refused with. -/
inductive Fails (table : AggregateDispatch σ) (request : ContextualCommand) :
    Stage → List (Call σ) → CodedError → Prop
  /-- No handler is registered under the name after the command's last `/`. -/
  | unknownCommand (hfact : factPayload request = none)
      (hthunk : table.commands.get?
        (typeName request.command.getPage.commandPayload.typeUrl) = none) :
      Fails table request .routed []
        (unknownType unknownCommandType request.command.getPage.commandPayload.typeUrl)
  /-- No handler is registered for the fact, and it is no refusal. -/
  | noFactHandler {payload : Any} (hfact : factPayload request = some payload)
      (hthunk : table.facts.get? (typeName payload.typeUrl) = none)
      (hname : typeName payload.typeUrl ≠ Message.fullName CommandRefused) :
      Fails table request .routed [] (unknownType noFactHandler payload.typeUrl)
  /-- The fact is a refusal that does not decode. -/
  | undecodable {payload : Any} {text : String} (hfact : factPayload request = some payload)
      (hthunk : table.facts.get? (typeName payload.typeUrl) = none)
      (hname : typeName payload.typeUrl = Message.fullName CommandRefused)
      (hparse : Message.parse (μ := CommandRefused) payload.value = .error text) :
      Fails table request .routed [] (anyDecodeError (Message.fullName CommandRefused) text)
  /-- No handler is registered for the refusal of that command. -/
  | noRefusalHandler {payload : Any} {refused : CommandRefused}
      (hfact : factPayload request = some payload)
      (hthunk : table.facts.get? (typeName payload.typeUrl) = none)
      (hname : typeName payload.typeUrl = Message.fullName CommandRefused)
      (hparse : Message.parse payload.value = .ok refused)
      (hrefused : table.refusals.get?
        (typeName refused.command.getPage.commandPayload.typeUrl) = none) :
      Fails table request .routed []
        (CodedError.new noRefusalHandler none (Dict.ofList
          [(ReasonArg.commandType.name, refused.command.getPage.commandPayload.typeUrl)]) none)
  /-- A command is COMMUTATIVE, and there is no resolver. -/
  | unsupported (hfact : factPayload request = none)
      (hmode : request.command.getHandling.conflictResolution = .commutative)
      (hchanged : table.changed = none) :
      Fails table request .resolvable []
        (CodedError.new conflictResolutionUnsupported none ∅ none)
  /-- The delivered starting state does not decode. -/
  | corrupt {encoded : Any} {text : String}
      (hstate : request.events.getSnapshot.state = some encoded)
      (hparse : Message.parse (μ := σ) encoded.value = .error text) :
      Fails table request .started []
        (CodedError.new persistedEventCorrupt none
          (Dict.ofList [(ReasonArg.typeUrl.name, encoded.typeUrl)]) none)
  /-- An applier fails on a delivered page. -/
  | delivered {start : σ} {before : List EventPage} {page : EventPage} {error : CodedError}
      (hstart : startState table.rebuilder.factory request.events = .ok start)
      (hpage : PageFails request.events.cover table.rebuilder.appliers foldFailed start
        request.events.pages before page error) :
      Fails table request .delivered (table.appliersOn request (before ++ [page])) error
  /-- The handler fails. -/
  | decided {start s : σ} {decide : Decide σ} {exc : Exc}
      (hdelivered : table.Delivered request start s)
      (hroute : table.route request = .ok decide)
      (hdecide : decide s (handed request) = .error exc) :
      Fails table request .decided
        (table.appliersOn request request.events.pages ++ [handlerCall request s]) (escaped exc)
  /-- An applier fails on one of the handler's pages, which is at the sequence it will get. -/
  | emitted {start s : σ} {handled : Handled σ EventBook} {before : List EventPage}
      {page : EventPage} {error : CodedError} (hreturned : table.Returned request start s handled)
      (hpage : PageFails request.events.cover table.rebuilder.appliers foldFailedEmitted
        handled.state (table.emitted request handled.returned) before page error)
      (hsequence : page.sequence = request.events.nextSequence + before.length) :
      Fails table request .emitted
        (table.appliersOn request request.events.pages ++
          handlerCall request s :: table.appliersOn request (before ++ [page]))
        error
  /-- The resolver fails on the window. -/
  | window {start s cut after : σ} {handled : Handled σ EventBook} {exc : Exc}
      (hreport : table.Reportable request start s handled cut after)
      (hwindow : table.resolver cut handled.state = .error exc) :
      Fails table request .reported
        (table.appliersOn request request.events.pages ++
          handlerCall request s ::
            (table.appliersOn request (table.emitted request handled.returned) ++
              [.changed PageContext.empty cut handled.state]))
        (escaped exc)
  /-- The resolver fails on the command's own changes. -/
  | mine {start s cut after : σ} {handled : Handled σ EventBook} {window : List String}
      {exc : Exc} (hreport : table.Reportable request start s handled cut after)
      (hwindow : table.resolver cut handled.state = .ok window)
      (hmine : table.resolver handled.state after = .error exc) :
      Fails table request .reported
        (table.appliersOn request request.events.pages ++
          handlerCall request s ::
            (table.appliersOn request (table.emitted request handled.returned) ++
              [.changed PageContext.empty cut handled.state,
                .changed PageContext.empty handled.state after]))
        (escaped exc)

/-- What goes wrong first: nothing goes wrong at an earlier stage. -/
structure First (table : AggregateDispatch σ) (request : ContextualCommand) (stage : Stage)
    (calls : List (Call σ)) (error : CodedError) : Prop where
  fails : table.Fails request stage calls error
  first : ∀ {stage' calls' error'}, table.Fails request stage' calls' error' →
    stage.rank ≤ stage'.rank

/-- **The first failing stage decides**, what the request is refused with and what was called
by then; and it is answered when no stage fails. -/
structure FirstFailureDecides (table : AggregateDispatch σ) (request : ContextualCommand) :
    Prop where
  refused : ∀ calls exc, table.handle request = ⟨calls, .error exc⟩ ↔
    ∃ stage error, table.First request stage calls error ∧ exc = .coded error
  /-- An input without a body is a command no table serves. -/
  bodiless : request.command.getPage.body = none → table.commands.get? "" = none →
    table.First request .routed [] (unknownType unknownCommandType "")
  answered : (∃ resp, (table.handle request).result = .ok resp) ↔
    ∀ stage calls error, ¬table.Fails request stage calls error
  /-- The handler runs at most once. -/
  once : ((table.handle request).log.filter Call.isHandler).length ≤ 1
  /-- It runs exactly when every stage before it passes. -/
  called : (∃ c ∈ (table.handle request).log, c.isHandler = true) ↔
    ∀ stage calls error, table.Fails request stage calls error →
      Stage.decided.rank ≤ stage.rank
  /-- The statements of the dispatch, on its objects, leave the request and the book the
  handler returned as they were. -/
  unmodified : ∃ o, exec table.handleObjects (.new request) =
      ((table.handle request).result, o) ∧
    o.calls = (table.handle request).log ∧ o.request = request ∧
    ∀ decide before s handled, table.route request = .ok decide →
      (table.deliver request).result = .ok (before, s) →
        decide s (handed request) = .ok handled → o.out = handled.returned

/-- **Nothing else gets in the way**: where the state is started, its factory returns, or
raises the very refusal of a starting state that does not decode; and where the handler
returns pages, there are sequences for them. -/
structure Unobstructed (table : AggregateDispatch σ) (request : ContextualCommand) : Prop where
  factory : ∀ decide exc, table.route request = .ok decide →
    table.rebuilder.factory = .error exc →
      ∃ calls error, table.Fails request .started calls error ∧ exc = .coded error
  emitted : ∀ decide before s handled, table.route request = .ok decide →
    (table.deliver request).result = .ok (before, s) →
    decide s (handed request) = .ok handled → handled.returned.pages ≠ [] →
      request.events.nextSequence + handled.returned.pages.length ≤ Spec.sequenceLimit

variable {table : AggregateDispatch σ} {request : ContextualCommand} {calls : List (Call σ)}
  {error : CodedError}

/-! ### Routing -/

omit [Message σ] in
theorem route_of_fact {payload : Any} (h : factPayload request = some payload) :
    table.route request = table.ingest payload := by
  rw [factPayload] at h
  rw [route]
  rcases hbody : request.command.getPage.body with _ | command | fact
  · rw [hbody] at h
    cases h
  · rw [hbody] at h
    cases h
  · rw [hbody] at h
    exact congrArg table.ingest (Option.some.inj h)

omit [Message σ] in
/-- A command is routed by its type, and then asked for a resolver. -/
theorem route_of_command (h : factPayload request = none) :
    table.route request = (table.decide request.command.getPage.commandPayload).bind fun decide =>
      if request.command.getHandling.conflictResolution = .commutative ∧ table.changed = none then
        .error (.coded (CodedError.new conflictResolutionUnsupported none ∅ none))
      else .ok decide := by
  have hroute : table.route request =
      (table.decide request.command.getPage.commandPayload).bind fun decide =>
        if request.command.getHandling.conflictResolution = .commutative ∧
            table.changed.isNone then
          .error (.coded (CodedError.new conflictResolutionUnsupported none ∅ none))
        else .ok decide := by
    rw [factPayload] at h
    rw [route]
    rcases hbody : request.command.getPage.body with _ | payload | payload
    · cases table.decide request.command.getPage.commandPayload with
      | error exc => rfl
      | ok decide => rfl
    · cases table.decide request.command.getPage.commandPayload with
      | error exc => rfl
      | ok decide => rfl
    · rw [hbody] at h
      cases h
  rw [hroute]
  simp only [Option.isNone_iff_eq_none]

omit [Message σ] in
/-- The fact of a refusal is decoded, and routed by the command that was refused. -/
theorem ingest_of_refused {payload : Any}
    (hthunk : table.facts.get? (typeName payload.typeUrl) = none)
    (hname : typeName payload.typeUrl = Message.fullName CommandRefused) :
    table.ingest payload = (decode CommandRefused payload.value).bind fun refused =>
      match table.refusals.get? (typeName refused.command.getPage.commandPayload.typeUrl) with
      | none =>
        .error (.coded (CodedError.new noRefusalHandler none (Dict.ofList
          [(ReasonArg.commandType.name, refused.command.getPage.commandPayload.typeUrl)]) none))
      | some onRefused =>
        .ok fun state ctx => (onRefused refused state ctx).map (Handled.map FactRecord.book) := by
  rw [ingest]
  dsimp only
  rw [hthunk]
  exact if_neg (not_not.mpr hname)

/-- What goes wrong at routing is what routing raises. -/
theorem Fails.route_eq (h : table.Fails request .routed calls error) :
    calls = [] ∧ table.route request = .error (.coded error) := by
  cases h with
  | unknownCommand hfact hthunk =>
    rw [route_of_command hfact, AggregateDispatch.decide, hthunk]
    exact ⟨rfl, rfl⟩
  | noFactHandler hfact hthunk hname =>
    rw [route_of_fact hfact, ingest]
    simp only [hthunk, if_pos hname, and_self]
  | undecodable hfact hthunk hname hparse =>
    rw [route_of_fact hfact, ingest_of_refused hthunk hname, decode, hparse]
    exact ⟨rfl, rfl⟩
  | noRefusalHandler hfact hthunk hname hparse hrefused =>
    rw [route_of_fact hfact, ingest_of_refused hthunk hname, decode, hparse]
    dsimp only [Except.bind]
    rw [hrefused]
    exact ⟨rfl, rfl⟩

/-- A command that wants a resolver is refused for it, or was not routed. -/
theorem Fails.resolvable_eq (h : table.Fails request .resolvable calls error) :
    calls = [] ∧ (table.route request = .error (.coded error) ∨
      ∃ error', table.Fails request .routed [] error') := by
  cases h with
  | unsupported hfact hmode hchanged =>
    refine ⟨rfl, ?_⟩
    rw [route_of_command hfact, AggregateDispatch.decide]
    rcases hthunk : table.commands.get?
        (typeName request.command.getPage.commandPayload.typeUrl) with _ | thunk
    · exact Or.inr ⟨_, .unknownCommand hfact hthunk⟩
    · refine Or.inl ?_
      rw [Except.bind, if_pos ⟨hmode, hchanged⟩]

/-- **Routing fails only as listed.** -/
theorem exists_fails_of_route {exc : Exc} (h : table.route request = .error exc) :
    ∃ stage error, table.Fails request stage [] error ∧ stage.rank < Stage.started.rank := by
  rcases hfact : factPayload request with _ | payload
  · rcases hthunk : table.commands.get?
        (typeName request.command.getPage.commandPayload.typeUrl) with _ | thunk
    · exact ⟨.routed, _, .unknownCommand hfact hthunk, by decide⟩
    · rw [route_of_command hfact, AggregateDispatch.decide, hthunk, Except.bind] at h
      split at h
      · next hmode => exact ⟨.resolvable, _, .unsupported hfact hmode.1 hmode.2, by decide⟩
      · cases h
  · rcases hthunk : table.facts.get? (typeName payload.typeUrl) with _ | thunk
    · by_cases hname : typeName payload.typeUrl = Message.fullName CommandRefused
      · rcases hparse : Message.parse (μ := CommandRefused) payload.value with text | refused
        · exact ⟨.routed, _, .undecodable hfact hthunk hname hparse, by decide⟩
        · rcases hrefused : table.refusals.get?
              (typeName refused.command.getPage.commandPayload.typeUrl) with _ | onRefused
          · exact ⟨.routed, _, .noRefusalHandler hfact hthunk hname hparse hrefused, by decide⟩
          · exfalso
            rw [route_of_fact hfact, ingest_of_refused hthunk hname, decode, hparse] at h
            dsimp only [Except.bind] at h
            rw [hrefused] at h
            cases h
      · exact ⟨.routed, _, .noFactHandler hfact hthunk hname, by decide⟩
    · exfalso
      rw [route_of_fact hfact, ingest] at h
      simp only [hthunk] at h
      cases h

/-- **An input is routed exactly when nothing goes wrong before the state is started.** -/
theorem exists_route_iff : (∃ decide, table.route request = .ok decide) ↔
    ∀ {stage calls error}, table.Fails request stage calls error →
      Stage.started.rank ≤ stage.rank := by
  constructor
  · rintro ⟨decide, hroute⟩ stage calls error hfails
    cases stage with
    | routed =>
      rw [hfails.route_eq.2] at hroute
      cases hroute
    | resolvable =>
      obtain ⟨-, herror | ⟨error', herror⟩⟩ := hfails.resolvable_eq
      · rw [herror] at hroute
        cases hroute
      · rw [herror.route_eq.2] at hroute
        cases hroute
    | started => decide
    | delivered => decide
    | decided => decide
    | emitted => decide
    | reported => decide
  · intro h
    rcases hroute : table.route request with exc | decide
    · obtain ⟨stage, error, hfails, hlt⟩ := exists_fails_of_route hroute
      exact absurd (h hfails) (Nat.not_le.mpr hlt)
    · exact ⟨decide, rfl⟩

/-! ### Starting -/

/-- A starting state is undecodable in one way. -/
theorem Fails.started_unique {calls' : List (Call σ)} {error' : CodedError}
    (h : table.Fails request .started calls error)
    (h' : table.Fails request .started calls' error') : calls = [] ∧ error = error' := by
  cases h with
  | corrupt hstate hparse =>
    cases h' with
    | corrupt hstate' hparse' =>
      obtain rfl := Option.some.inj (hstate.symm.trans hstate')
      exact ⟨rfl, rfl⟩

/-- An undecodable state is not started: its factory fails, or what it made is refused. -/
theorem Fails.startState_eq (h : table.Fails request .started calls error) :
    startState table.rebuilder.factory request.events =
      table.rebuilder.factory.bind fun _ => .error (.coded error) := by
  cases h with
  | corrupt hstate hparse =>
    rw [startState, hstate]
    dsimp only
    rw [hparse]
    rfl

/-- A state is not started because its factory fails or because it does not decode. -/
theorem exists_fails_of_startState {exc : Exc}
    (hstart : startState table.rebuilder.factory request.events = .error exc) :
    table.rebuilder.factory = .error exc ∨
      ∃ error, table.Fails request .started [] error ∧ exc = .coded error := by
  rcases hfactory : table.rebuilder.factory with exc' | s
  · rw [hfactory] at hstart
    exact Or.inl (congrArg _ (Except.error.inj hstart))
  · rw [hfactory, startState] at hstart
    dsimp only [bind, Except.bind] at hstart
    split at hstart
    · cases hstart
    · next encoded hstate =>
      split at hstart
      · cases hstart
      · next text hparse =>
        exact Or.inr ⟨_, .corrupt hstate hparse, (Except.error.inj hstart).symm⟩

/-- **With nothing else in the way, the state is not started exactly when it is undecodable.** -/
theorem Unobstructed.startState_eq_error (h : table.Unobstructed request) {decide : Decide σ}
    (hroute : table.route request = .ok decide) {exc : Exc} :
    startState table.rebuilder.factory request.events = .error exc ↔
      ∃ error, table.Fails request .started [] error ∧ exc = .coded error := by
  -- a factory that fails fails as the undecodable state does
  have hfactory {exc : Exc} (hfactory : table.rebuilder.factory = .error exc) :
      ∃ error, table.Fails request .started [] error ∧ exc = .coded error := by
    obtain ⟨calls, error, hfails, rfl⟩ := h.factory decide exc hroute hfactory
    obtain ⟨rfl, -⟩ := hfails.started_unique hfails
    exact ⟨error, hfails, rfl⟩
  constructor
  · intro hstart
    rcases exists_fails_of_startState hstart with hraised | hfails
    · exact hfactory hraised
    · exact hfails
  · rintro ⟨error, hfails, rfl⟩
    rw [hfails.startState_eq]
    rcases hraised : table.rebuilder.factory with exc | s
    · obtain ⟨error', hfails', rfl⟩ := hfactory hraised
      rw [(hfails.started_unique hfails').2]
      rfl
    · rfl

/-! ### Delivering -/

omit [Message CommandRefused] in
/-- A delivery folds, or a page of it fails. -/
theorem delivered_or_pageFails {start : σ}
    (hstart : startState table.rebuilder.factory request.events = .ok start) :
    (∃ s, table.Delivered request start s) ∨ ∃ before page error,
      PageFails request.events.cover table.rebuilder.appliers foldFailed start
        request.events.pages before page error := by
  rcases hreplayed : (table.replayed request start).result with exc | s
  · obtain ⟨before, page, error, hpage, -⟩ := fold_eq_error.mp hreplayed
    exact Or.inr ⟨before, page, error, hpage⟩
  · exact Or.inl ⟨s, hstart, hreplayed⟩

omit [Message CommandRefused] in
/-- What is delivered calls an applier on each page that has one. -/
theorem Delivered.deliver_eq {start s : σ} (h : table.Delivered request start s) :
    ∃ cut, (fold start (request.events.pages.take (seen request)) request.events.cover
        table.rebuilder.appliers foldFailed).result = .ok cut ∧
      table.deliver request =
        ⟨table.appliersOn request request.events.pages, .ok (copied request cut, s)⟩ := by
  obtain ⟨cut, hcut, hdeliver⟩ := deliver_of_replayed h.start_eq h.replayed_eq
  exact ⟨cut, hcut, hdeliver.trans (congrArg (Traced.mk · _) (fold_log_of_ok h.replayed_eq))⟩

omit [Message CommandRefused] [Message σ] in
/-- The resolver is called as the dispatch calls it. -/
theorem callChanged_eq (before after : σ) :
    table.callChanged before after =
      call (.changed PageContext.empty before after) (table.resolver before after) := by
  rw [callChanged, resolver]
  cases table.changed with
  | none => rfl
  | some changed => rfl

omit [Message CommandRefused] [Message σ] in
theorem call_of_ok {α : Type} {event : Call σ} {result : Except Exc α} {a : α}
    (h : result = .ok a) : call event result = ⟨[event], .ok a⟩ := by
  rw [h]
  rfl

/-- What the handler returned is what is concluded from. -/
theorem Returned.handle_eq {start s : σ} {handled : Handled σ EventBook}
    (h : table.Returned request start s handled) :
    ∃ cut, (fold start (request.events.pages.take (seen request)) request.events.cover
        table.rebuilder.appliers foldFailed).result = .ok cut ∧
      table.handle request =
        ⟨table.appliersOn request request.events.pages ++
            handlerCall request s :: (table.conclude request (copied request cut) handled).log,
          (table.conclude request (copied request cut) handled).result⟩ := by
  obtain ⟨decide, hroute, hhandled⟩ := h.handled_eq
  obtain ⟨cut, hcut, hdeliver⟩ := h.toDelivered.deliver_eq
  refine ⟨cut, hcut, ?_⟩
  rw [handle_of_handled hroute (congrArg Traced.result hdeliver) hhandled, hdeliver]
  rfl

/-- With nothing else in the way, there is a sequence for each of the handler's pages. -/
theorem Unobstructed.stampAll_eq (hun : table.Unobstructed request) {start s : σ}
    {handled : Handled σ EventBook} (h : table.Returned request start s handled) :
    stampAll (((handed request).settle handled.settled).eventMeta table.rulesVersion)
      request.events.nextSequence handled.returned.pages =
        .ok (table.emitted request handled.returned) := by
  obtain ⟨decide, hroute, hhandled⟩ := h.handled_eq
  obtain ⟨cut, -, hdeliver⟩ := h.toDelivered.deliver_eq
  rw [stampAll_eq_ok, eventMeta_settle_handed]
  exact ⟨hun.emitted decide _ s handled hroute (congrArg Traced.result hdeliver) hhandled, rfl⟩

/-- A conflict is reported between the copy at the cut and the one the handler left. -/
theorem Reportable.handle_eq (hun : table.Unobstructed request) {start s cut after : σ}
    {handled : Handled σ EventBook} (h : table.Reportable request start s handled cut after) :
    table.handle request =
      ⟨table.appliersOn request request.events.pages ++
          handlerCall request s ::
            (table.appliersOn request (table.emitted request handled.returned) ++
              (table.respond ((handed request).settle handled.settled) handled.returned
                (some (cut, handled.state)) after).log),
        (table.respond ((handed request).settle handled.settled) handled.returned
          (some (cut, handled.state)) after).result⟩ := by
  obtain ⟨cut', hcut, hhandle⟩ := h.toReturned.handle_eq
  obtain rfl := Except.ok.inj (h.cut_eq.symm.trans hcut)
  rw [hhandle, copied, if_pos h.commutative,
    conclude_of_folded (hun.stampAll_eq h.toReturned) h.after_eq, fold_log_of_ok h.after_eq]
  rfl

omit [Message CommandRefused] [Message σ] [Spec] in
/-- A page a decision emits is at the next sequence and its own offset. -/
theorem sequence_of_emitted {out : EventBook} {before after : List EventPage} {page : EventPage}
    (h : table.emitted request out = before ++ page :: after) :
    page.sequence = request.events.nextSequence + before.length := by
  have hpage : (table.emitted request out)[before.length]? = some page := by
    rw [h, List.getElem?_append_right le_rfl, Nat.sub_self, List.getElem?_cons_zero]
  rw [emitted, stamped, List.getElem?_mapIdx] at hpage
  obtain ⟨page', -, rfl⟩ := Option.map_eq_some_iff.mp hpage
  rfl

/-! ### The first failing stage -/

/-- **A request that nothing goes wrong with is answered.** -/
theorem Unobstructed.exists_answer (hun : table.Unobstructed request)
    (h : ∀ stage calls error, ¬table.Fails request stage calls error) :
    ∃ resp, (table.handle request).result = .ok resp := by
  obtain ⟨decide, hroute⟩ := exists_route_iff.mpr fun hfails => absurd hfails (h _ _ _)
  rcases hstart : startState table.rebuilder.factory request.events with exc | start
  · obtain ⟨error, hfails, -⟩ := (hun.startState_eq_error hroute).mp hstart
    exact absurd hfails (h _ _ _)
  obtain ⟨s, hdelivered⟩ | ⟨before, page, error, hpage⟩ := delivered_or_pageFails hstart
  swap
  · exact absurd (.delivered hstart hpage) (h _ _ _)
  rcases hhandled : decide s (handed request) with exc | handled
  · exact absurd (.decided hdelivered hroute hhandled) (h _ _ _)
  have hreturned : table.Returned request start s handled :=
    ⟨hdelivered, decide, hroute, hhandled⟩
  obtain ⟨cut, hcut, hhandle⟩ := hreturned.handle_eq
  rcases hafter : (fold handled.state (table.emitted request handled.returned)
      request.events.cover table.rebuilder.appliers foldFailedEmitted).result with exc | after
  · obtain ⟨before, page, error, hpage, -⟩ := fold_eq_error.mp hafter
    obtain ⟨after, hpages⟩ := hpage.split
    exact absurd (.emitted hreturned hpage (sequence_of_emitted hpages)) (h _ _ _)
  by_cases hmode : request.command.getHandling.conflictResolution = .commutative
  swap
  · rw [hhandle, conclude_of_folded (hun.stampAll_eq hreturned) hafter, copied, if_neg hmode]
    exact ⟨_, rfl⟩
  have hreport : table.Reportable request start s handled cut after :=
    ⟨hreturned, hmode, hcut, hafter⟩
  rcases hwindow : table.resolver cut handled.state with exc | window
  · exact absurd (.window hreport hwindow) (h _ _ _)
  rcases hmine : table.resolver handled.state after with exc | mine
  · exact absurd (.mine hreport hwindow hmine) (h _ _ _)
  rw [hreport.handle_eq hun, respond_some, callChanged_eq, callChanged_eq, call_of_ok hwindow,
    call_of_ok hmine]
  exact ⟨_, Traced.result_bind_eq_ok.mpr ⟨window, rfl,
    Traced.result_bind_eq_ok.mpr ⟨mine, rfl, rfl⟩⟩⟩

/-! ### The handler's call -/

/-- What a stage refuses with is coded. -/
theorem FirstFailureDecides.coded (h : table.FirstFailureDecides request) :
    Coded (table.handle request).result := by
  intro exc hexc
  obtain ⟨stage, error, -, rfl⟩ :=
    (h.refused (table.handle request).log exc).mp (Traced.ext rfl hexc)
  exact ⟨error, rfl⟩

end AggregateDispatch

end Pipeline

open scoped Ledger

end Router

end AngzarrClient
