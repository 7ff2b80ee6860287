import AngzarrClient.Router.Context

/-!
# A policy's dispatch

A policy keeps no state. `PolicyService.Handle` goes through a book's pages and runs the
handler of each page whose type has one, under the page's own context; the commands it
returns are one reaction of the answer (`AngzarrClient.Router.PolicyDispatch.handle`).
`PolicyService.OnRefused` runs the callback of a refused command's type, and answers what
it returns as a bare fact (`AngzarrClient.Router.PolicyDispatch.onRefusal`).

A book's answer is its pages' answers in a row
(`AngzarrClient.Router.PolicyDispatch.handle_eq`), from which the rest follows: there is
one reaction for each declared page, in order, and a page whose handler fails ends the
book (`AngzarrClient.Router.PolicyDispatch.reacts_once`).
-/

namespace AngzarrClient

namespace Router

/-! ### The table -/

/-- `PolicyEventThunk`: a trigger's handler, which may return no list. -/
abbrev PolicyEventThunk := Any → PageContext → Except Exc (Option (List CommandBook))

/-- `RefusalThunk`: the callback that translates a refusal. -/
abbrev RefusalThunk := Refusal → CommandContext → Except Exc Payload

/-- A call of a policy's business code, under its page context. -/
inductive PolicyCall where
  /-- A trigger's handler. -/
  | event (event : Any) (page : PageContext)
  /-- A refusal's callback. -/
  | refused (page : PageContext) (refusal : Refusal) (ctx : CommandContext)
  deriving DecidableEq

/-- `PolicyDispatch`: a policy's dispatch table. -/
structure PolicyDispatch where
  name : String
  inputDomain : String
  outputDomain : String
  events : Dict String PolicyEventThunk
  refusals : Dict String RefusalThunk
  rulesVersion : String

namespace PolicyDispatch

/-- `PolicyDispatch(name, input_domain, output_domain)`: a table with no handler yet. -/
def new (name inputDomain outputDomain : String) : PolicyDispatch where
  name := name
  inputDomain := inputDomain
  outputDomain := outputDomain
  events := ∅
  refusals := ∅
  rulesVersion := ""

/-- `on_event`. -/
def onEvent (table : PolicyDispatch) (fullName : String) (thunk : PolicyEventThunk) :
    PolicyDispatch :=
  { table with events := table.events.set fullName thunk }

/-- `on_refused`. -/
def onRefused (table : PolicyDispatch) (command : String) (thunk : RefusalThunk) :
    PolicyDispatch :=
  { table with refusals := table.refusals.set command thunk }

/-- `with_rules_version`. -/
def withRulesVersion (table : PolicyDispatch) (version : String) : PolicyDispatch :=
  { table with rulesVersion := version }

variable [Spec]

/-- `call`, of a policy's business code. -/
def call {α : Type} (event : PolicyCall) (result : Except Exc α) : Traced PolicyCall Exc α :=
  Traced.call event (result.mapError fun exc => .coded (escaped exc))

/-! ### The two methods -/

/-- `resp.reactions.add(trigger_sequence, outputs)`. -/
def addReaction (resp : PolicyResponse) (reaction : Reaction) : PolicyResponse :=
  { resp with reactions := resp.reactions ++ [reaction] }

/-- One turn of the loop: a page's handler, if its type has one, and its reaction. A number
read off a page's sequence fits the reaction's. -/
def handlePage (table : PolicyDispatch) (cover : Option Cover) (resp : PolicyResponse)
    (page : EventPage) : Traced PolicyCall Exc PolicyResponse :=
  match table.events.get? (typeName page.getPayload.typeUrl) with
  | none => pure resp
  | some thunk => do
    let ctx : PageContext := ⟨cover, page.sequence, page.metadata⟩
    let outputs ← call (.event page.getPayload ctx) (thunk page.getPayload ctx)
    return addReaction resp ⟨page.sequence, outputs.getD []⟩

/-- `PolicyService.Handle`: one reaction for each handled page. -/
def handle (table : PolicyDispatch) (source : EventBook) :
    Traced PolicyCall Exc PolicyResponse :=
  source.pages.foldlM (table.handlePage source.cover) ⟨[]⟩

/-- `PolicyService.OnRefused`: the translated fact's payload, alone, or none when nothing
translates the refused command's type. -/
def onRefusal (table : PolicyDispatch) (refusal : Refusal) :
    Traced PolicyCall Exc OnRefusedResponse :=
  let command := refusal.command
  match table.refusals.get? (typeName command.getPage.commandPayload.typeUrl) with
  | none => pure ⟨none⟩
  | some thunk => do
    let ctx := bookContext command 0
    let payload ← call (.refused (PageContext.ofCover ctx.cover) refusal ctx) (thunk refusal ctx)
    let page : CommandPage := ⟨some (.fact (some (asAny payload))), none, none, none⟩
    return ⟨some ⟨none, none, some page⟩⟩

/-! ### What a page comes to -/

variable (table : PolicyDispatch) (cover : Option Cover)

/-- The context a page's handler runs under. -/
def pageContext (page : EventPage) : PageContext := ⟨cover, page.sequence, page.metadata⟩

omit [Spec] in
/-- Whether a page's type has a handler. -/
def declares (page : EventPage) : Bool :=
  (table.events.get? (typeName page.getPayload.typeUrl)).isSome

omit [Spec] in
/-- What a page's handler returns or raises, if its type has one. -/
def outcome (page : EventPage) : Option (Except Exc (Option (List CommandBook))) :=
  (table.events.get? (typeName page.getPayload.typeUrl)).map fun thunk =>
    thunk page.getPayload (pageContext cover page)

/-- The reactions to one page: its own, or none. -/
def react (page : EventPage) : Traced PolicyCall Exc (List Reaction) :=
  match table.outcome cover page with
  | none => pure []
  | some outputs => do
    let outputs ← call (.event page.getPayload (pageContext cover page)) outputs
    return [⟨page.sequence, outputs.getD []⟩]

variable {table cover}

/-- **A book's reactions are its pages'**, in order. -/
theorem handle_eq (source : EventBook) :
    table.handle source = PolicyResponse.mk <$> Traced.collect (table.react source.cover)
      source.pages := by
  have hpage : table.handlePage source.cover = fun resp page =>
      (fun more => PolicyResponse.mk (resp.reactions ++ more)) <$>
        table.react source.cover page := by
    funext resp page
    unfold handlePage react outcome
    cases table.events.get? (typeName page.getPayload.typeUrl) with
    | none => simp
    | some thunk => simp [addReaction, pageContext]
  let add (resp : PolicyResponse) (more : List Reaction) : PolicyResponse :=
    ⟨resp.reactions ++ more⟩
  have hnil : ∀ resp, add resp [] = resp := fun resp => by simp only [add, List.append_nil]
  have hadd : ∀ resp more more', add (add resp more) more' = add resp (more ++ more') :=
    fun resp more more' => by simp only [add, List.append_assoc]
  rw [handle, hpage]
  exact Traced.foldlM_eq_collect hnil hadd ⟨[]⟩ source.pages

omit [Spec] in
theorem declares_of_outcome {page : EventPage}
    {outputs : Except Exc (Option (List CommandBook))}
    (h : table.outcome cover page = some outputs) : table.declares page = true := by
  rw [declares, ← Option.isSome_map, ← outcome, h]
  rfl

omit [Spec] in
theorem outcome_of_not_declares {page : EventPage} (h : table.declares page = false) :
    table.outcome cover page = none := by
  rw [outcome, Option.map_eq_none_iff]
  exact Option.isSome_eq_false_iff.mp h |> Option.isNone_iff_eq_none.mp

/-- An undeclared page is passed over. -/
theorem react_of_not_declares {page : EventPage} (h : table.declares page = false) :
    table.react cover page = pure [] := by
  rw [react, outcome_of_not_declares h]

omit [Spec] in
/-- The reactions to a page whose handler does not fail. -/
def reactions (table : PolicyDispatch) (cover : Option Cover) (page : EventPage) :
    List Reaction :=
  match table.outcome cover page with
  | some (.ok outputs) => [⟨page.sequence, outputs.getD []⟩]
  | _ => []

omit [Spec] in
/-- The calls one page makes. -/
def calls (table : PolicyDispatch) (cover : Option Cover) (page : EventPage) :
    List PolicyCall :=
  if table.declares page then [.event page.getPayload (pageContext cover page)] else []

/-- A page whose handler does not fail is passed over or reacted to, once. -/
theorem react_of_ok {page : EventPage} (h : ∀ exc, table.outcome cover page ≠ some (.error exc)) :
    table.react cover page = ⟨table.calls cover page, .ok (table.reactions cover page)⟩ := by
  rcases ho : table.outcome cover page with _ | exc | outputs
  · have hd : table.declares page = false := by
      rw [declares, ← Option.isSome_map, ← outcome, ho]
      rfl
    rw [react, calls, reactions, ho, hd]
    rfl
  · exact absurd ho (h exc)
  · rw [react, calls, reactions, ho, declares_of_outcome ho]
    rfl

/-- A page whose handler fails is called, and answered coded. -/
theorem react_of_error {page : EventPage} {exc : Exc}
    (h : table.outcome cover page = some (.error exc)) :
    table.react cover page =
      ⟨[.event page.getPayload (pageContext cover page)], .error (.coded (escaped exc))⟩ := by
  rw [react, h]
  rfl

/-! ### Once per declared page -/

omit [Spec] in
/-- **A reaction to a page**: its sequence, and the commands its handler returned, none where
it returned nothing. -/
def Reacts (table : PolicyDispatch) (cover : Option Cover) (page : EventPage)
    (reaction : Reaction) : Prop :=
  ∃ outputs, table.outcome cover page = some (.ok outputs) ∧
    reaction = ⟨page.sequence, outputs.getD []⟩

omit [Spec] in
/-- The reactions of pages none of which fails are the declared ones', one each. -/
theorem forall₂_reactions {pages : List EventPage}
    (h : ∀ page ∈ pages, ∀ exc, table.outcome cover page ≠ some (.error exc)) :
    List.Forall₂ (table.Reacts cover) (pages.filter table.declares)
      (pages.flatMap (table.reactions cover)) := by
  induction pages with
  | nil => exact .nil
  | cons page pages ih =>
    have hrest := ih fun p hp => h p (List.mem_cons_of_mem _ hp)
    rw [List.flatMap_cons, reactions]
    rcases ho : table.outcome cover page with _ | exc | outputs
    · have hd : ¬table.declares page = true := by
        rw [declares, ← Option.isSome_map, ← outcome, ho]
        exact Bool.false_ne_true
      rw [List.filter_cons_of_neg hd]
      exact hrest
    · exact absurd ho (h page (List.mem_cons_self ..) exc)
    · rw [List.filter_cons_of_pos (declares_of_outcome ho)]
      exact .cons ⟨outputs, ho, rfl⟩ hrest

omit [Spec] in
/-- The calls of some pages are the declared ones', one each. -/
theorem flatMap_calls (pages : List EventPage) :
    pages.flatMap (table.calls cover) = (pages.filter table.declares).map fun page =>
      .event page.getPayload (pageContext cover page) := by
  induction pages with
  | nil => rfl
  | cons page pages ih =>
    rw [List.flatMap_cons, ih, calls]
    split
    · next hd => rw [List.filter_cons_of_pos hd, List.map_cons, List.singleton_append]
    · next hd => rw [List.filter_cons_of_neg hd, List.nil_append]

/-- **How a policy answers a book.** -/
structure ReactsOnce (table : PolicyDispatch) (source : EventBook) : Prop where
  /-- Where no handler fails there is one reaction for each declared page, in order, and
  each handler was called under its own page's context. -/
  answered : (∀ page ∈ source.pages, ∀ exc,
      table.outcome source.cover page ≠ some (.error exc)) →
    ∃ reactions, table.handle source =
        ⟨(source.pages.filter table.declares).map fun page =>
          .event page.getPayload ⟨source.cover, page.sequence, page.metadata⟩, .ok ⟨reactions⟩⟩ ∧
      List.Forall₂ (table.Reacts source.cover) (source.pages.filter table.declares) reactions
  /-- The first page whose handler fails fails the book: no later handler is called. -/
  refused : ∀ pre page post exc, source.pages = pre ++ page :: post →
    (∀ p ∈ pre, ∀ exc, table.outcome source.cover p ≠ some (.error exc)) →
    table.outcome source.cover page = some (.error exc) →
    table.handle source =
      ⟨((pre.filter table.declares) ++ [page]).map fun page =>
        .event page.getPayload ⟨source.cover, page.sequence, page.metadata⟩,
        .error (.coded (escaped exc))⟩
  /-- A book of more pages is answered as the book and then the pages. -/
  append : ∀ more, table.handle { source with pages := source.pages ++ more } = do
    let first ← table.handle source
    let rest ← table.handle { source with pages := more }
    return ⟨first.reactions ++ rest.reactions⟩
  /-- Undeclared pages make no difference. -/
  undeclared : table.handle { source with pages := source.pages.filter table.declares } =
    table.handle source

/-- **A policy reacts once to each declared page, in order, all or nothing.** -/
theorem reacts_once (table : PolicyDispatch) (source : EventBook) : table.ReactsOnce source where
  answered := by
    intro h
    refine ⟨_, ?_, forall₂_reactions h⟩
    have hall : ∀ page ∈ source.pages, table.react source.cover page =
        ⟨table.calls source.cover page, .ok (table.reactions source.cover page)⟩ :=
      fun page hp => react_of_ok (h page hp)
    rw [handle_eq, Traced.collect_of_ok hall, flatMap_calls]
    exact Traced.ext (List.append_nil _) rfl
  refused := by
    rintro pre page post exc hpages hpre hpage
    have hall : ∀ p ∈ pre, table.react source.cover p =
        ⟨table.calls source.cover p, .ok (table.reactions source.cover p)⟩ :=
      fun p hp => react_of_ok (hpre p hp)
    have hfail := react_of_error hpage
    rw [handle_eq, hpages, Traced.collect_of_error hall (congrArg Traced.result hfail) post,
      hfail, flatMap_calls, List.map_append]
    rfl
  append := by
    intro more
    simp only [handle_eq, Traced.collect_append, map_bind, bind_map_left, map_pure]
  undeclared := by
    rw [handle_eq, handle_eq]
    exact congrArg _ (Traced.collect_filter (fun page hd => react_of_not_declares hd) _)

end PolicyDispatch

end Router

end AngzarrClient
