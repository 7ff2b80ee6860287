import AngzarrClient.Router.Pages
import AngzarrClient.Router.Ledger

/-!
# Each piece of business code sees its own page

A tree of dispatches is a program: business code that asks for its page, does what is its
own, raises and catches, and dispatches on routers whose business code is of that kind again
(`AngzarrClient.Pages.Business`). Nothing else is asked of it.

The invariant is that the context variable holds the page of the piece that runs
(`AngzarrClient.Pages.Held`). Inside `handling` another piece runs, under its own page, and
the variable is put back however it ends, so a dispatch keeps the invariant of the code around
it where its business code keeps its own; an induction over the program does the rest
(`AngzarrClient.Pages.Business.minds`).

| what runs business code | its rule |
|---|---|
| `handling` | `AngzarrClient.Pages.minds_handling` |
| `call` | `AngzarrClient.Pages.minds_call` |
| `fold` | `AngzarrClient.Pages.minds_fold` |
| an aggregate's `handle` | `AngzarrClient.Pages.AggregateDispatch.minds_handle` |
| a policy's `handle` and `refused` | `AngzarrClient.Pages.PolicyDispatch.minds_handle` |
| a projector's `handle` | `AngzarrClient.Pages.ProjectorDispatch.minds_handle` |
-/

namespace AngzarrClient

namespace Pages

open AngzarrClient.Router Store

variable {ω σ α β : Type}

/-! ### The invariant -/

/-- Each piece that asked for its page was told its own. -/
def Told (w : World ω) : Prop := ∀ sighting ∈ w.sightings, sighting.page = sighting.piece.page

/-- **The variable holds the running piece's page**, and so it did each time a piece asked. -/
def Held (piece : Piece) (w : World ω) : Prop := w.page = piece.page ∧ Told w

/-- **Code minds its page**: run as whatever piece, under that piece's page, it leaves the
variable as it was, and was told the right page each time it asked. -/
def Minds (code : Code ω α) : Prop := ∀ piece, Maintains (Held piece) (code piece)

theorem minds_pure (a : α) : Minds (pure a : Code ω α) := fun _ => maintains_pure a

theorem minds_throw (thrown : Thrown) : Minds (throw thrown : Code ω α) := fun _ =>
  maintains_throw thrown

theorem minds_bind {code : Code ω α} {next : α → Code ω β} (h : Minds code)
    (hnext : ∀ a, Minds (next a)) : Minds (code >>= next) := fun piece =>
  maintains_bind (h piece) fun a => hnext a piece

theorem minds_map {code : Code ω α} (f : α → β) (h : Minds code) : Minds (f <$> code) := by
  rw [← bind_pure_comp]
  exact minds_bind h fun a => minds_pure (f a)

theorem minds_tryCatch {code : Code ω α} {rescue : Thrown → Code ω α} (h : Minds code)
    (hrescue : ∀ thrown, Minds (rescue thrown)) : Minds (tryCatch code rescue) := fun piece =>
  maintains_tryCatch (h piece) fun thrown => hrescue thrown piece

theorem minds_foldlM {step : β → α → Code ω β} (h : ∀ b a, Minds (step b a)) (b : β)
    (l : List α) : Minds (l.foldlM step b) := by
  induction l generalizing b with
  | nil => exact minds_pure b
  | cons a l ih => exact minds_bind (h b a) ih

theorem minds_ofExcept (result : Except Exc α) : Minds (ofExcept result : Code ω α) := by
  cases result with
  | ok a => exact minds_pure a
  | error exc => exact minds_throw _

/-- What follows a result need mind only what the result can be. -/
theorem minds_ofExcept_bind {result : Except Exc α} {next : α → Code ω β}
    (h : ∀ a, result = .ok a → Minds (next a)) : Minds (ofExcept result >>= next) := by
  intro piece w hw
  cases result with
  | ok a => exact h a rfl piece w hw
  | error exc => exact hw

/-! ### Asking, and what is business code's own -/

/-- **Where the variable holds the running piece's page, asking tells it.** -/
theorem minds_currentPage : Minds (currentPage : Code ω PageContext) := by
  rintro piece ⟨page, store, sightings⟩ ⟨hpage, hsightings⟩
  have hasked : Held piece ⟨page, store, sightings ++ [⟨piece, page⟩]⟩ := by
    refine ⟨hpage, fun sighting hmem => ?_⟩
    rcases List.mem_append.mp hmem with hmem | hmem
    · exact hsightings sighting hmem
    · obtain rfl := List.mem_singleton.mp hmem
      exact hpage
  cases page with
  | none => exact hasked
  | some ctx => exact hasked

theorem minds_elsewhere (act : ω → Except Thrown α × ω) : Minds (elsewhere act) := by
  rintro piece w ⟨hpage, hsightings⟩
  have hdone : ∀ store : ω, Held piece { w with store := store } := fun _ => ⟨hpage, hsightings⟩
  -- it acts on the store it finds, and on no other
  change Held piece (exec (elsewhere (fun _ => act w.store) piece) w).2
  rcases act w.store with ⟨result, store⟩
  cases result with
  | ok a => exact hdone store
  | error thrown => exact hdone store

/-! ### Running under a page -/

/-- **The rule of `handling`**: code that runs as a piece under that piece's page is no concern
of the code around it. -/
theorem minds_handling {piece : Piece} {ctx : PageContext} {body : Code ω α}
    (hpage : piece.page = some ctx) (h : Minds body) :
    Minds (handling ctx (runAs piece body)) := by
  intro outer
  have hbody := h piece
  unfold Held at hbody
  rw [hpage] at hbody
  exact maintains_during currentPageVar (some ctx) (R := Told) (fun _ _ => Iff.rfl) hbody

theorem minds_answering {answer : Exc → CodedError} {body : Code ω α} (h : Minds body) :
    Minds (answering answer body) := by
  refine minds_tryCatch h fun thrown => ?_
  cases thrown with
  | exception exc => exact minds_throw _
  | base name => exact minds_throw _

variable [Spec]

/-- **The rule of `call`.** -/
theorem minds_call {piece : Piece} {ctx : PageContext} {handler : Code ω α}
    (hpage : piece.page = some ctx) (h : Minds handler) : Minds (call piece ctx handler) :=
  minds_answering (minds_handling hpage h)

section Fold

variable [Message σ]

theorem minds_startState {factory : Code ω σ} (h : Minds factory) (book : EventBook) :
    Minds (startState factory book) :=
  minds_bind h fun _ => minds_ofExcept _

/-- **The rule of `fold`**: each applier runs under the page it is called on. -/
theorem minds_fold {appliers : Dict String (Applier ω σ)}
    (h : ∀ fq applier, appliers.get? fq = some applier →
      ∀ state event ctx, Minds (applier state event ctx))
    (state : σ) (pages : List EventPage) (cover : Option Cover) (code : String) :
    Minds (fold state pages cover appliers code) := by
  refine minds_foldlM (fun state page => ?_) state pages
  unfold foldPage
  split
  · exact minds_pure state
  · next applier happlier =>
    exact minds_answering (minds_handling rfl (h _ applier happlier _ _ _))

end Fold

/-! ### The business code of a component -/

/-- A table's business code, on whatever it is called with. -/
inductive AggregateDispatch.Runs (table : AggregateDispatch ω σ) : {β : Type} → Code ω β → Prop
  | factory : table.Runs table.rebuilder.factory
  | applier {fq : String} {applier : Applier ω σ}
      (h : table.rebuilder.appliers.get? fq = some applier) (state : σ) (event : Any)
      (ctx : PageContext) : table.Runs (applier state event ctx)
  | command {fq : String} {thunk : CommandThunk ω σ} (h : table.commands.get? fq = some thunk)
      (payload : Any) (state : σ) (ctx : CommandContext) : table.Runs (thunk payload state ctx)
  | fact {fq : String} {thunk : FactThunk ω σ} (h : table.facts.get? fq = some thunk)
      (payload : Any) (state : σ) (ctx : CommandContext) : table.Runs (thunk payload state ctx)
  | refusal {fq : String} {thunk : RefusedThunk ω σ} (h : table.refusals.get? fq = some thunk)
      (refused : CommandRefused) (state : σ) (ctx : CommandContext) :
      table.Runs (thunk refused state ctx)
  | changed {changed : ChangedThunk ω σ} (h : table.changed = some changed) (before after : σ) :
      table.Runs (changed before after)

/-- A policy's business code. -/
inductive PolicyDispatch.Runs (table : PolicyDispatch ω) : {β : Type} → Code ω β → Prop
  | event {fq : String} {thunk : PolicyEventThunk ω} (h : table.events.get? fq = some thunk)
      (payload : Any) (ctx : PageContext) : table.Runs (thunk payload ctx)
  | refusal {fq : String} {thunk : RefusalThunk ω} (h : table.refusals.get? fq = some thunk)
      (refusal : Refusal) (ctx : CommandContext) : table.Runs (thunk refusal ctx)

/-- A projector's business code. -/
inductive ProjectorDispatch.Runs (table : ProjectorDispatch ω σ) : {β : Type} → Code ω β → Prop
  | factory : table.Runs table.factory
  | event {fq : String} {applier : Applier ω σ} (h : table.events.get? fq = some applier)
      (projection : σ) (event : Any) (ctx : PageContext) : table.Runs (applier projection event ctx)

/-- The business code of the component a router hosts. -/
inductive Router.Runs (router : Router ω σ) : {β : Type} → Code ω β → Prop
  | aggregate {β : Type} {table : AggregateDispatch ω σ} {code : Code ω β}
      (h : router.component = some (.aggregate table)) (hcode : table.Runs code) :
      router.Runs code
  | processManager {β : Type} {table : AggregateDispatch ω σ} {code : Code ω β}
      (h : router.component = some (.processManager table)) (hcode : table.Runs code) :
      router.Runs code
  | policy {β : Type} {table : PolicyDispatch ω} {code : Code ω β}
      (h : router.component = some (.policy table)) (hcode : table.Runs code) : router.Runs code
  | projector {β : Type} {table : ProjectorDispatch ω σ} {code : Code ω β}
      (h : router.component = some (.projector table)) (hcode : table.Runs code) :
      router.Runs code

/-! ### The dispatches -/

namespace AggregateDispatch

variable [Message CommandRefused] {table : AggregateDispatch ω σ}
  (h : ∀ {β : Type} (code : Code ω β), table.Runs code → Minds code)
include h

omit [Message CommandRefused] in
theorem minds_decide {payload : Any} {decide : Decide ω σ}
    (hdecide : table.decide payload = .ok decide) (state : σ) (ctx : CommandContext) :
    Minds (decide state ctx) := by
  unfold AggregateDispatch.decide at hdecide
  split at hdecide
  · cases hdecide
  · next thunk hthunk =>
    obtain rfl := Except.ok.inj hdecide
    exact minds_map _ (h _ (.command hthunk payload state ctx))

theorem minds_ingest {payload : Any} {decide : Decide ω σ}
    (hdecide : table.ingest payload = .ok decide) (state : σ) (ctx : CommandContext) :
    Minds (decide state ctx) := by
  unfold ingest at hdecide
  simp only at hdecide
  split at hdecide
  · next thunk hthunk =>
    obtain rfl := Except.ok.inj hdecide
    exact minds_map _ (h _ (.fact hthunk payload state ctx))
  · split at hdecide
    · cases hdecide
    · obtain ⟨refused, -, hdecide⟩ := Traced.except_bind_eq_ok.mp hdecide
      split at hdecide
      · cases hdecide
      · next onRefused honRefused =>
        obtain rfl := Except.ok.inj hdecide
        exact minds_map _ (h _ (.refusal honRefused refused state ctx))

/-- Whatever an input is routed to, it is the table's business code. -/
theorem minds_route {request : ContextualCommand} {decide : Decide ω σ}
    (hroute : table.route request = .ok decide) (state : σ) (ctx : CommandContext) :
    Minds (decide state ctx) := by
  unfold route at hroute
  split at hroute
  · exact minds_ingest h hroute state ctx
  · obtain ⟨decide', hdecide, hroute⟩ := Traced.except_bind_eq_ok.mp hroute
    simp only at hroute
    split at hroute
    · cases hroute
    · obtain rfl := Except.ok.inj hroute
      exact minds_decide h hdecide state ctx

variable [Message σ]

omit [Spec] [Message CommandRefused] [Message σ] in
/-- The table's appliers, as a fold asks for them. -/
theorem minds_appliers (fq : String) (applier : Applier ω σ)
    (happlier : table.rebuilder.appliers.get? fq = some applier) (state : σ) (event : Any)
    (ctx : PageContext) : Minds (applier state event ctx) :=
  h _ (.applier happlier state event ctx)

omit [Message CommandRefused] in
theorem minds_deliver (request : ContextualCommand) : Minds (table.deliver request) := by
  unfold deliver
  refine minds_bind (minds_startState (h _ .factory) _) fun state => ?_
  refine minds_bind (minds_fold (minds_appliers h) _ _ _ _) fun state => ?_
  exact minds_bind (minds_fold (minds_appliers h) _ _ _ _) fun state => minds_pure _

omit [Message CommandRefused] in
theorem minds_emit (request : ContextualCommand) (ctx : CommandContext) (state : σ)
    (out : EventBook) : Minds (table.emit request ctx state out) :=
  minds_bind (minds_ofExcept _) fun _ => minds_fold (minds_appliers h) _ _ _ _

omit [Message CommandRefused] [Message σ] in
theorem minds_callChanged (before after : σ) : Minds (table.callChanged before after) := by
  refine minds_call rfl ?_
  split
  · next changed hchanged => exact h _ (.changed hchanged before after)
  · exact minds_throw _

omit [Message CommandRefused] in
theorem minds_respond (ctx : CommandContext) (out : EventBook) (copies : Option (σ × σ))
    (state : σ) : Minds (table.respond ctx out copies state) := by
  unfold respond
  rcases copies with _ | ⟨before, head⟩
  · exact minds_pure _
  · refine minds_bind (minds_callChanged h before head) fun window => ?_
    exact minds_bind (minds_callChanged h head state) fun mine => minds_pure _

omit [Message CommandRefused] in
theorem minds_conclude (request : ContextualCommand) (before : Option σ)
    (handled : Handled σ EventBook) : Minds (table.conclude request before handled) :=
  minds_bind (minds_emit h request _ _ _) fun state => minds_respond h _ _ _ state

/-- **The rule of an aggregate's dispatch.** -/
theorem minds_handle (request : ContextualCommand) : Minds (table.handle request) := by
  have hcover : (Piece.decision request.command).page =
      some (PageContext.ofCover (handed request).cover) := by
    rw [handed_cover]
    rfl
  refine minds_ofExcept_bind fun decide hroute => ?_
  refine minds_bind (minds_deliver h request) ?_
  rintro ⟨before, state⟩
  refine minds_bind (minds_call hcover (minds_route h hroute state _)) fun handled => ?_
  exact minds_conclude h request before handled

end AggregateDispatch

namespace PolicyDispatch

variable {table : PolicyDispatch ω}
  (h : ∀ {β : Type} (code : Code ω β), table.Runs code → Minds code)
include h

/-- **The rule of a policy's dispatch.** -/
theorem minds_handle (source : EventBook) : Minds (table.handle source) := by
  refine minds_foldlM (fun resp page => ?_) _ _
  unfold handlePage
  split
  · exact minds_pure resp
  · next thunk hthunk =>
    exact minds_bind (minds_call rfl (h _ (.event hthunk _ _))) fun outputs => minds_pure _

/-- **The rule of a refusal's translation.** -/
theorem minds_onRefusal (refusal : Refusal) : Minds (table.onRefusal refusal) := by
  unfold onRefusal
  simp only
  split
  · exact minds_pure _
  · next thunk hthunk =>
    exact minds_bind (minds_call rfl (h _ (.refusal hthunk refusal _))) fun payload =>
      minds_pure _

end PolicyDispatch

namespace ProjectorDispatch

variable [Message σ] {table : ProjectorDispatch ω σ}
  (h : ∀ {β : Type} (code : Code ω β), table.Runs code → Minds code)
include h

/-- **The rule of a projector's dispatch.** -/
theorem minds_handle (book : EventBook) : Minds (table.handle book) := by
  have hevents : ∀ fq applier, table.events.get? fq = some applier →
      ∀ projection event ctx, Minds (applier projection event ctx) :=
    fun _ _ happlier _ _ _ => h _ (.event happlier _ _ _)
  refine minds_bind (h _ .factory) fun projection => minds_bind ?_ fun projection => ?_
  · unfold project
    split
    · exact minds_fold hevents _ _ _ _
    · exact minds_pure projection
  · exact minds_ofExcept _

end ProjectorDispatch

namespace Router

variable {router : Router ω σ}

/-- What a hosted component's method is found in. -/
theorem hosted_eq_ok {τ : Type} {ofKinds : Component ω σ → Option τ} {table : τ}
    (hhosted : router.hosted ofKinds = .ok table) :
    ∃ component, router.component = some component ∧ ofKinds component = some table := by
  unfold hosted at hhosted
  split at hhosted
  · cases hhosted
  · next component hcomponent =>
    split at hhosted
    · cases hhosted
    · next table' htable =>
      obtain rfl := Except.ok.inj hhosted
      exact ⟨component, hcomponent, htable⟩

/-- The business code of the table a method is found in is the router's. -/
theorem runs_of_commandHandler {table : AggregateDispatch ω σ}
    (hhosted : router.hosted Component.commandHandler? = .ok table) {β : Type} {code : Code ω β}
    (hcode : table.Runs code) : router.Runs code := by
  obtain ⟨component, hcomponent, htable⟩ := hosted_eq_ok hhosted
  cases component with
  | aggregate table' =>
    obtain rfl := Option.some.inj htable
    exact .aggregate hcomponent hcode
  | processManager table' =>
    obtain rfl := Option.some.inj htable
    exact .processManager hcomponent hcode
  | policy table' => cases htable
  | projector table' => cases htable

theorem runs_of_policy {table : PolicyDispatch ω}
    (hhosted : router.hosted Component.policy? = .ok table) {β : Type} {code : Code ω β}
    (hcode : table.Runs code) : router.Runs code := by
  obtain ⟨component, hcomponent, htable⟩ := hosted_eq_ok hhosted
  cases component with
  | aggregate table' => cases htable
  | processManager table' => cases htable
  | policy table' =>
    obtain rfl := Option.some.inj htable
    exact .policy hcomponent hcode
  | projector table' => cases htable

theorem runs_of_projector {table : ProjectorDispatch ω σ}
    (hhosted : router.hosted Component.projector? = .ok table) {β : Type} {code : Code ω β}
    (hcode : table.Runs code) : router.Runs code := by
  obtain ⟨component, hcomponent, htable⟩ := hosted_eq_ok hhosted
  cases component with
  | aggregate table' => cases htable
  | processManager table' => cases htable
  | policy table' => cases htable
  | projector table' =>
    obtain rfl := Option.some.inj htable
    exact .projector hcomponent hcode

section Minds

variable (h : ∀ {β : Type} (code : Code ω β), router.Runs code → Minds code)
include h

theorem minds_dispatch [Message σ] [Message CommandRefused] (request : ContextualCommand) :
    Minds (router.dispatch request) := by
  refine minds_ofExcept_bind fun table hhosted => AggregateDispatch.minds_handle ?_ request
  exact fun code hcode => h code (runs_of_commandHandler hhosted hcode)

theorem minds_dispatchPolicy (source : EventBook) : Minds (router.dispatchPolicy source) :=
  minds_ofExcept_bind fun _ hhosted =>
    PolicyDispatch.minds_handle (fun code hcode => h code (runs_of_policy hhosted hcode)) source

theorem minds_dispatchRefusal (refusal : Refusal) : Minds (router.dispatchRefusal refusal) :=
  minds_ofExcept_bind fun _ hhosted =>
    PolicyDispatch.minds_onRefusal (fun code hcode => h code (runs_of_policy hhosted hcode)) refusal

theorem minds_dispatchProjector [Message σ] (book : EventBook) :
    Minds (router.dispatchProjector book) := by
  refine minds_ofExcept_bind fun table hhosted => ProjectorDispatch.minds_handle ?_ book
  exact fun code hcode => h code (runs_of_projector hhosted hcode)

end Minds

end Router

/-! ### Trees of dispatches -/

/-- **Business code, and the trees of dispatches it makes.** It may end, raise, go on with what
it has, catch what is raised, do what is its own, ask for its page, and dispatch on any router
whose business code is business code again. -/
inductive Business [Message CommandRefused] : {α : Type} → Code ω α → Prop
  | pure {α : Type} (a : α) : Business (pure a : Code ω α)
  | raise {α : Type} (thrown : Thrown) : Business (throw thrown : Code ω α)
  | bind {α β : Type} {code : Code ω α} {next : α → Code ω β} (h : Business code)
      (hnext : ∀ a, Business (next a)) : Business (code >>= next)
  | catch {α : Type} {code : Code ω α} {rescue : Thrown → Code ω α} (h : Business code)
      (hrescue : ∀ thrown, Business (rescue thrown)) : Business (tryCatch code rescue)
  | elsewhere {α : Type} (act : ω → Except Thrown α × ω) : Business (elsewhere act)
  | currentPage : Business currentPage
  | dispatch {σ : Type} [Message σ] (router : Router ω σ) (request : ContextualCommand)
      (h : ∀ {β : Type} (code : Code ω β), router.Runs code → Business code) :
      Business (router.dispatch request)
  | dispatchPolicy {σ : Type} (router : Router ω σ) (source : EventBook)
      (h : ∀ {β : Type} (code : Code ω β), router.Runs code → Business code) :
      Business (router.dispatchPolicy source)
  | dispatchRefusal {σ : Type} (router : Router ω σ) (refusal : Refusal)
      (h : ∀ {β : Type} (code : Code ω β), router.Runs code → Business code) :
      Business (router.dispatchRefusal refusal)
  | dispatchProjector {σ : Type} [Message σ] (router : Router ω σ) (book : EventBook)
      (h : ∀ {β : Type} (code : Code ω β), router.Runs code → Business code) :
      Business (router.dispatchProjector book)

variable [Message CommandRefused]

/-- `current_cover` is business code. -/
theorem business_currentCover : Business (currentCover : Code ω Cover) := by
  refine .bind .currentPage fun page => ?_
  split
  · exact .pure _
  · exact .raise _

/-- **Business code minds its page**, whatever tree of dispatches it makes. -/
theorem Business.minds {code : Code ω α} (h : Business code) : Minds code := by
  induction h with
  | pure a => exact minds_pure a
  | raise thrown => exact minds_throw thrown
  | bind _ _ ih ihnext => exact minds_bind ih ihnext
  | «catch» _ _ ih ihrescue => exact minds_tryCatch ih ihrescue
  | elsewhere act => exact minds_elsewhere act
  | currentPage => exact minds_currentPage
  | dispatch router request _ ih => exact Router.minds_dispatch ih request
  | dispatchPolicy router source _ ih => exact Router.minds_dispatchPolicy ih source
  | dispatchRefusal router refusal _ ih => exact Router.minds_dispatchRefusal ih refusal
  | dispatchProjector router book _ ih => exact Router.minds_dispatchProjector ih book

/-- The world a tree of dispatches leaves, run in a context in which nothing is dispatched. -/
def outcome (code : Code ω α) (store : ω) : World ω :=
  (exec (code .outside) ⟨none, store, []⟩).2

/-- **Each piece of business code sees its own page**: in every tree of dispatches, whatever
returns or raises in it, each call of `current_page()` is told the page of the piece that made
it, and when the tree is over there is no page. -/
theorem business_sees_its_own_page {code : Code ω α} (h : Business code) (store : ω) :
    (∀ sighting ∈ (outcome code store).sightings, sighting.page = sighting.piece.page) ∧
      (outcome code store).page = none := by
  have hstart : Held (.outside : Piece) (⟨none, store, []⟩ : World ω) :=
    ⟨rfl, fun _ hmem => absurd hmem List.not_mem_nil⟩
  obtain ⟨hpage, hsightings⟩ := h.minds .outside _ hstart
  exact ⟨hsightings, hpage⟩

end Pages

/-! ### A ledger that reports to a policy -/

namespace Pages

open AngzarrClient.Router Store Ledger

/-- A policy whose handler asks for its page and fails. -/
def failingPolicy : Router Unit CounterState where
  component := some (.policy
    { events := (∅ : Dict String _).set increasedName fun _ _ => do
        let _ ← currentPage
        throw (.exception (.other "RuntimeError" "no stock"))
      refusals := ∅ })

/-- A ledger whose applier asks for its page, and whose handler asks before and after it
delivers a page to that policy, whose failure it drops. -/
def reportingLedger : Router Unit CounterState where
  component := some (.aggregate
    { rebuilder :=
        { factory := pure ⟨0⟩
          appliers := (∅ : Dict String _).set increasedName fun state _ _ => do
            let _ ← currentPage
            return ⟨state.count + 1⟩ }
      commands := (∅ : Dict String _).set "test.counter.IncreaseBy" fun _ state _ => do
        let _ ← currentPage
        tryCatch (failingPolicy.dispatchPolicy ⟨none, [increasedPage 5], none, 6⟩ >>= fun _ =>
          pure ()) fun _ => pure ()
        let _ ← currentPage
        return ⟨some ⟨none, [increasedPage 0], none, 0⟩, state, []⟩
      facts := ∅
      refusals := ∅
      rulesVersion := ""
      changed := none })

theorem eq_of_get?_set_empty {κ ν : Type} [DecidableEq κ] {k k' : κ} {v v' : ν}
    (h : ((∅ : Dict κ ν).set k v).get? k' = some v') : v' = v := by
  rw [Dict.get?_set] at h
  split at h
  · exact (Option.some.inj h).symm
  · cases h

theorem business_failingPolicy (source : EventBook) :
    Business (failingPolicy.dispatchPolicy source) := by
  refine .dispatchPolicy failingPolicy source fun code hcode => ?_
  cases hcode with
  | policy h hcode =>
    obtain rfl := Component.policy.inj (Option.some.inj h)
    cases hcode with
    | event hthunk payload ctx =>
      obtain rfl := eq_of_get?_set_empty hthunk
      exact .bind .currentPage fun _ => .raise _
    | refusal hthunk refusal ctx => cases hthunk
  | aggregate h => cases h
  | processManager h => cases h
  | projector h => cases h

theorem business_reportingLedger (request : ContextualCommand) :
    Business (reportingLedger.dispatch request) := by
  refine .dispatch reportingLedger request fun code hcode => ?_
  cases hcode with
  | aggregate h hcode =>
    obtain rfl := Component.aggregate.inj (Option.some.inj h)
    cases hcode with
    | factory => exact .pure _
    | applier happlier state event ctx =>
      obtain rfl := eq_of_get?_set_empty happlier
      exact .bind .currentPage fun _ => .pure _
    | command hthunk payload state ctx =>
      obtain rfl := eq_of_get?_set_empty hthunk
      refine .bind .currentPage fun _ => .bind ?_ fun _ => .bind .currentPage fun _ => .pure _
      exact .catch (.bind (business_failingPolicy _) fun _ => .pure _) fun _ => .pure _
    | fact hthunk payload state ctx => cases hthunk
    | refusal hthunk refused state ctx => cases hthunk
    | changed hchanged before after => cases hchanged
  | processManager h => cases h
  | policy h => cases h
  | projector h => cases h

/-- The applier asks on the delivered page, the handler around the policy's, and the applier
again on the emitted page. -/
theorem business_sees_its_own_page_ledger :
    (outcome (reportingLedger.dispatch (increaseOver none [increasedPage 3] 4)) ()).sightings.map
        Sighting.page =
      [some ⟨some cover, 3, none⟩, some ⟨some cover, 0, none⟩, some ⟨none, 5, none⟩,
        some ⟨some cover, 0, none⟩,
        some ⟨some cover, 4, (storedPage 4).metadata⟩] ∧
    (∀ sighting ∈ (outcome (reportingLedger.dispatch
        (increaseOver none [increasedPage 3] 4)) ()).sightings,
      sighting.page = sighting.piece.page) ∧
    (outcome (reportingLedger.dispatch (increaseOver none [increasedPage 3] 4)) ()).page =
      none := by
  refine ⟨by decide +kernel, ?_⟩
  exact business_sees_its_own_page (business_reportingLedger _) ()

end Pages

end AngzarrClient
