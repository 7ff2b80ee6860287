import AngzarrClient.Router.Pages
import AngzarrClient.Router.Stages

/-!
# The pages a run's calls name are those the code sees

A dispatch on a table of functions leaves a log of the calls it made, each with the page it
was made under (`AngzarrClient.Router.Call`). Here the functions are made code that asks for
its page before it does what the function does, and the dispatch on that code comes to what
the dispatch on the functions comes to: the same answer or error, and what the code was told,
call by call, are the pages in the log
(`AngzarrClient.Pages.AggregateDispatch.agrees_handle` and its companions).

A table without a resolver that is asked for one logs a call that no code makes, so an
aggregate is given a resolver.
-/

namespace AngzarrClient

namespace Pages

open AngzarrClient.Router Store

variable {ω σ τ α β : Type}

/-! ### Code and runs -/

/-- **The code agrees with the run**: it ends as the run does, was told the pages of its calls,
in order, and left everything else as it was. -/
def Agrees (page : τ → PageContext) (code : Code ω α) (run : Traced τ Exc α) : Prop :=
  ∀ piece w, ∃ sightings,
    exec (code piece) w = (run.result.mapError Thrown.exception,
      { w with sightings := w.sightings ++ sightings }) ∧
    sightings.map Sighting.page = run.log.map fun call => some (page call)

variable {page : τ → PageContext}

theorem agrees_ofExcept (result : Except Exc α) :
    Agrees page (ofExcept result : Code ω α) (Traced.ofExcept result) := by
  intro piece w
  refine ⟨[], ?_, rfl⟩
  rw [List.append_nil]
  cases result with
  | ok a => rfl
  | error exc => rfl

theorem agrees_pure (a : α) : Agrees page (pure a : Code ω α) (pure a) :=
  agrees_ofExcept (.ok a)

theorem agrees_bind {code : Code ω α} {run : Traced τ Exc α} {next : α → Code ω β}
    {after : α → Traced τ Exc β} (h : Agrees page code run)
    (hnext : ∀ a, Agrees page (next a) (after a)) :
    Agrees page (code >>= next) (run >>= after) := by
  intro piece w
  obtain ⟨first, hexec, hfirst⟩ := h piece w
  rcases hresult : run.result with exc | a
  · rw [hresult] at hexec
    refine ⟨first, ?_, ?_⟩
    · rw [Traced.bind_of_error hresult]
      exact exec_bind_error hexec fun a => next a piece
    · rw [Traced.bind_of_error hresult]
      exact hfirst
  · rw [hresult] at hexec
    obtain ⟨rest, hrest, hpages⟩ := hnext a piece { w with sightings := w.sightings ++ first }
    refine ⟨first ++ rest, ?_, ?_⟩
    · rw [Traced.bind_of_ok hresult]
      refine (exec_bind_ok hexec fun a => next a piece).trans (hrest.trans ?_)
      rw [List.append_assoc]
    · rw [Traced.bind_of_ok hresult, List.map_append, List.map_append, hfirst, hpages]

theorem agrees_foldlM {step : β → α → Code ω β} {step' : β → α → Traced τ Exc β}
    (h : ∀ b a, Agrees page (step b a) (step' b a)) (b : β) (l : List α) :
    Agrees page (l.foldlM step b) (l.foldlM step' b) := by
  induction l generalizing b with
  | nil => exact agrees_pure b
  | cons a l ih =>
    rw [List.foldlM_cons, List.foldlM_cons]
    exact agrees_bind (h b a) ih

/-! ### Watched functions -/

/-- What a function comes to, by code that asks for its page first. -/
def watch (result : Except Exc α) : Code ω α := do
  let _ ← currentPage
  ofExcept result

theorem exec_watch (result : Except Exc α) (piece : Piece) {w : World ω} {ctx : PageContext}
    (h : w.page = some ctx) :
    exec (watch result piece) w = (result.mapError Thrown.exception,
      { w with sightings := w.sightings ++ [⟨piece, some ctx⟩] }) := by
  obtain ⟨_, store, sightings⟩ := w
  obtain rfl : _ = some ctx := h
  cases result with
  | ok a => rfl
  | error exc => rfl

/-- A watched function, read, is the function read and watched. -/
theorem map_watch (f : α → β) (result : Except Exc α) :
    f <$> (watch result : Code ω α) = watch (result.map f) := by
  rw [watch, watch, map_bind]
  refine bind_congr fun _ => ?_
  cases result with
  | ok a => exact map_pure f a
  | error exc => rfl

/-- **A watched function under a page is told that page.** -/
theorem agrees_answering {event : τ} {ctx : PageContext} (hpage : page event = ctx)
    (answer : Exc → CodedError) (piece : Piece) (result : Except Exc α) :
    Agrees page (answering answer (handling ctx (runAs piece (watch result))) : Code ω α)
      (Traced.call event (result.mapError fun exc => .coded (answer exc))) := by
  intro outer w
  refine ⟨[⟨piece, some ctx⟩], ?_, by rw [← hpage]; rfl⟩
  have hhandling : exec (handling ctx (runAs piece (watch result)) outer) w =
      (result.mapError Thrown.exception,
        { w with sightings := w.sightings ++ [⟨piece, some ctx⟩] }) := by
    refine (exec_during currentPageVar (some ctx) w).trans ?_
    change ((exec (watch result piece) { w with page := some ctx }).1,
      { (exec (watch result piece) { w with page := some ctx }).2 with page := w.page }) = _
    rw [exec_watch result piece rfl]
  cases result with
  | ok a => exact exec_tryCatch_ok hhandling _
  | error exc => exact exec_tryCatch_error hhandling _

variable [Spec]

/-- A function under `call`. -/
theorem agrees_call {event : Call σ} {page : Call σ → PageContext} {ctx : PageContext}
    (hpage : page event = ctx) (piece : Piece) (result : Except Exc α) :
    Agrees page (call piece ctx (watch result) : Code ω α) (Router.call event result) :=
  agrees_answering hpage escaped piece result

/-- The page of a call. -/
def callPage : Call σ → PageContext
  | .applier _ page => page
  | .handler page _ _ => page
  | .changed page _ _ => page

/-- Watched appliers. -/
def watchAppliers (appliers : Dict String (Router.Applier σ)) : Dict String (Applier ω σ) :=
  appliers.mapValues fun applier state event ctx => watch (applier state event ctx)

section Fold

variable [Message σ]

/-- A factory that is a function starts the state as it does in a run. -/
theorem startState_ofExcept (factory : Except Exc σ) (book : EventBook) :
    (startState (ofExcept factory) book : Code ω σ) =
      ofExcept (Router.startState factory book) := by
  cases factory with
  | ok state =>
    exact pure_bind state fun state =>
      (ofExcept (Router.startState (.ok state) book) : Code ω σ)
  | error exc => rfl

/-- **The fold of watched appliers.** -/
theorem agrees_fold (appliers : Dict String (Router.Applier σ)) (state : σ)
    (pages : List EventPage) (cover : Option Cover) (code : String) :
    Agrees callPage (fold state pages cover (watchAppliers appliers) code : Code ω σ)
      (Router.fold state pages cover appliers code) := by
  refine agrees_foldlM (fun state page => ?_) state pages
  unfold foldPage Router.foldPage watchAppliers
  rw [Dict.get?_mapValues]
  cases appliers.get? (typeName page.getPayload.typeUrl) with
  | none => exact agrees_pure state
  | some applier =>
    simp only [Option.map_some]
    let ctx : PageContext := ⟨cover, page.sequence, page.metadata⟩
    have hpage : callPage (.applier page.getPayload ctx : Call σ) = ctx := rfl
    exact agrees_answering hpage (foldError σ code page) (.applier cover page)
      (applier state page.getPayload ctx)

end Fold

/-! ### An aggregate's dispatch -/

namespace AggregateDispatch

omit [Spec] in
/-- A table of functions, watched. -/
def watched (table : Router.AggregateDispatch σ) : AggregateDispatch ω σ where
  rebuilder := ⟨ofExcept table.rebuilder.factory, watchAppliers table.rebuilder.appliers⟩
  commands := table.commands.mapValues fun thunk payload state ctx =>
    watch (thunk payload state ctx)
  facts := table.facts.mapValues fun thunk payload state ctx => watch (thunk payload state ctx)
  refusals := table.refusals.mapValues fun thunk refused state ctx =>
    watch (thunk refused state ctx)
  rulesVersion := table.rulesVersion
  changed := table.changed.map fun changed before after => watch (changed before after)

/-- A decision, watched. -/
def watchDecide (decide : Router.Decide σ) : Decide ω σ := fun state ctx =>
  watch (decide state ctx)

variable (table : Router.AggregateDispatch σ)

theorem decide_watched (payload : Any) :
    (watched table : AggregateDispatch ω σ).decide payload =
      (table.decide payload).map watchDecide := by
  unfold AggregateDispatch.decide Router.AggregateDispatch.decide watched
  simp only [Dict.get?_mapValues]
  cases table.commands.get? (typeName payload.typeUrl) with
  | none => rfl
  | some thunk =>
    refine congrArg Except.ok ?_
    funext state ctx
    exact map_watch _ _

section Route

variable [Message CommandRefused]

theorem ingest_watched (payload : Any) :
    (watched table : AggregateDispatch ω σ).ingest payload =
      (table.ingest payload).map watchDecide := by
  unfold ingest Router.AggregateDispatch.ingest watched
  simp only [Dict.get?_mapValues]
  cases table.facts.get? (typeName payload.typeUrl) with
  | some thunk =>
    refine congrArg Except.ok ?_
    funext state ctx
    exact map_watch _ _
  | none =>
    simp only [Option.map_none]
    split
    · rfl
    · cases Router.decode CommandRefused payload.value with
      | error exc => rfl
      | ok refused =>
        simp only [bind, Except.bind]
        cases table.refusals.get?
            (typeName refused.command.getPage.commandPayload.typeUrl) with
        | none => rfl
        | some onRefused =>
          refine congrArg Except.ok ?_
          funext state ctx
          exact map_watch _ _

/-- A watched table routes as the table does. -/
theorem route_watched (request : ContextualCommand) :
    (watched table : AggregateDispatch ω σ).route request =
      (table.route request).map watchDecide := by
  have hresolver : (watched table : AggregateDispatch ω σ).changed.isNone =
      table.changed.isNone := Option.isNone_map
  have hcommand : (do
        let decide ← (table.decide request.command.getPage.commandPayload).map watchDecide
        if request.command.getHandling.conflictResolution = .commutative ∧
            table.changed.isNone then
          throw (.coded (CodedError.new conflictResolutionUnsupported none ∅ none))
        return decide : Except Exc (Decide ω σ)) =
      (do
        let decide ← table.decide request.command.getPage.commandPayload
        if request.command.getHandling.conflictResolution = .commutative ∧
            table.changed.isNone then
          throw (.coded (CodedError.new conflictResolutionUnsupported none ∅ none))
        return decide : Except Exc (Router.Decide σ)).map watchDecide := by
    simp only [bind, Except.bind, pure, Except.pure]
    cases table.decide request.command.getPage.commandPayload with
    | error exc => rfl
    | ok decide =>
      simp only [Except.map]
      split
      · rfl
      · rfl
  unfold route Router.AggregateDispatch.route
  rw [decide_watched, hresolver]
  cases request.command.getPage.body with
  | none => exact hcommand
  | some body =>
    cases body with
    | fact payload => exact ingest_watched table _
    | command payload => exact hcommand

end Route

variable [Message σ]

theorem agrees_deliver (request : ContextualCommand) :
    Agrees callPage ((watched table : AggregateDispatch ω σ).deliver request)
      (table.deliver request) := by
  unfold deliver Router.AggregateDispatch.deliver
  simp only [watched, startState_ofExcept]
  refine agrees_bind (agrees_ofExcept _) fun state => ?_
  refine agrees_bind (agrees_fold _ _ _ _ _) fun state => ?_
  exact agrees_bind (agrees_fold _ _ _ _ _) fun state => agrees_pure _

theorem agrees_emit (request : ContextualCommand) (ctx : CommandContext) (state : σ)
    (out : EventBook) :
    Agrees callPage ((watched table : AggregateDispatch ω σ).emit request ctx state out)
      (table.emit request ctx state out) :=
  agrees_bind (agrees_ofExcept _) fun _ => agrees_fold _ _ _ _ _

variable {table} (hresolver : table.changed.isSome = true)
include hresolver

omit [Message σ] in
theorem agrees_callChanged (before after : σ) :
    Agrees callPage ((watched table : AggregateDispatch ω σ).callChanged before after)
      (table.callChanged before after) := by
  obtain ⟨changed, hchanged⟩ := Option.isSome_iff_exists.mp hresolver
  unfold callChanged Router.AggregateDispatch.callChanged watched
  simp only [hchanged, Option.map_some]
  have hpage : callPage (.changed PageContext.empty before after) = PageContext.empty := rfl
  exact agrees_call hpage .resolver (changed before after)

theorem agrees_respond (ctx : CommandContext) (out : EventBook) (copies : Option (σ × σ))
    (state : σ) :
    Agrees callPage ((watched table : AggregateDispatch ω σ).respond ctx out copies state)
      (table.respond ctx out copies state) := by
  unfold respond Router.AggregateDispatch.respond
  rcases copies with _ | ⟨before, head⟩
  · exact agrees_pure _
  · refine agrees_bind (agrees_callChanged hresolver before head) fun window => ?_
    exact agrees_bind (agrees_callChanged hresolver head state) fun mine => agrees_pure _

/-- **A watched aggregate's dispatch comes to the aggregate's**, and its code is told the pages
the aggregate's calls name. -/
theorem agrees_handle [Message CommandRefused] (request : ContextualCommand) :
    Agrees callPage ((watched table : AggregateDispatch ω σ).handle request)
      (table.handle request) := by
  unfold handle Router.AggregateDispatch.handle
  rw [route_watched]
  cases table.route request with
  | error exc => exact agrees_ofExcept (.error exc)
  | ok decide =>
    have hpage : ∀ state : σ, callPage (.handler (PageContext.ofCover (handed request).cover) state
        (handed request)) = PageContext.ofCover (handed request).cover := fun _ => rfl
    change Agrees callPage (pure (watchDecide decide) >>= _) (pure decide >>= _)
    rw [pure_bind, pure_bind]
    refine agrees_bind (agrees_deliver table request) ?_
    rintro ⟨before, state⟩
    refine agrees_bind (agrees_call (hpage state) (.decision request.command) _) fun handled => ?_
    exact agrees_bind (agrees_emit table request _ _ _) fun state =>
      agrees_respond hresolver _ _ _ state

end AggregateDispatch

/-! ### A policy's dispatch, and a projector's -/

namespace PolicyDispatch

/-- The page of a policy's call. -/
def callPage : PolicyCall → PageContext
  | .event _ page => page
  | .refused page _ _ => page

omit [Spec] in
/-- A table of functions, watched. -/
def watched (table : Router.PolicyDispatch) : PolicyDispatch ω where
  events := table.events.mapValues fun thunk payload ctx => watch (thunk payload ctx)
  refusals := table.refusals.mapValues fun thunk refusal ctx => watch (thunk refusal ctx)

variable (table : Router.PolicyDispatch)

/-- **A watched policy's dispatch comes to the policy's.** -/
theorem agrees_handle (source : EventBook) :
    Agrees callPage ((watched table : PolicyDispatch ω).handle source) (table.handle source) := by
  refine agrees_foldlM (fun resp page => ?_) _ _
  unfold handlePage Router.PolicyDispatch.handlePage watched
  simp only [Dict.get?_mapValues]
  cases table.events.get? (typeName page.getPayload.typeUrl) with
  | none => exact agrees_pure resp
  | some thunk =>
    simp only [Option.map_some]
    let ctx : PageContext := ⟨source.cover, page.sequence, page.metadata⟩
    have hpage : callPage (.event page.getPayload ctx) = ctx := rfl
    refine agrees_bind ?_ fun outputs => agrees_pure _
    exact agrees_answering hpage escaped (.trigger source.cover page) (thunk page.getPayload ctx)

/-- **A watched policy's translation comes to the policy's.** -/
theorem agrees_onRefusal (refusal : Refusal) :
    Agrees callPage ((watched table : PolicyDispatch ω).onRefusal refusal)
      (table.onRefusal refusal) := by
  unfold onRefusal Router.PolicyDispatch.onRefusal watched
  simp only [Dict.get?_mapValues]
  cases table.refusals.get? (typeName refusal.command.getPage.commandPayload.typeUrl) with
  | none => exact agrees_pure _
  | some thunk =>
    simp only [Option.map_some]
    let ctx := bookContext refusal.command 0
    have hpage : callPage (.refused (PageContext.ofCover ctx.cover) refusal ctx) =
        PageContext.ofCover ctx.cover := rfl
    refine agrees_bind ?_ fun payload => agrees_pure _
    exact agrees_answering hpage escaped (.translation refusal) (thunk refusal ctx)

end PolicyDispatch

namespace ProjectorDispatch

variable [Message σ]

omit [Spec] [Message σ] in
/-- A table of functions, watched. -/
def watched (table : Router.ProjectorDispatch σ) : ProjectorDispatch ω σ where
  name := table.name
  factory := ofExcept table.factory
  domains := table.domains
  events := watchAppliers table.events

/-- **A watched projector's dispatch comes to the projector's.** -/
theorem agrees_handle (table : Router.ProjectorDispatch σ) (book : EventBook) :
    Agrees Pages.callPage ((watched table : ProjectorDispatch ω σ).handle book)
      (table.handle book) := by
  refine agrees_bind (agrees_ofExcept _) fun projection => agrees_bind ?_ fun projection => ?_
  · unfold project Router.ProjectorDispatch.project
    by_cases hconsumes : table.consumes book = true
    · rw [if_pos hconsumes]
      exact (if_pos hconsumes).symm ▸ agrees_fold _ _ _ _ _
    · rw [if_neg hconsumes]
      exact (if_neg hconsumes).symm ▸ agrees_pure projection
  · exact agrees_ofExcept _

end ProjectorDispatch

end Pages

end AngzarrClient
