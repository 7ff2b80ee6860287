import AngzarrClient.Router.Aggregate

/-!
# What each stage of a dispatch does

One lemma for each stage of `AngzarrClient.Router.AggregateDispatch.handle`, so that
nothing after this file unfolds it.

The fold comes first. It is one pass over a list of pages whatever the list is cut
into (`AngzarrClient.Router.fold_append`), and the code it fails under shows only
when it fails (`AngzarrClient.Router.fold_eq_of_ok`). That settles the delivery: the
two folds around the copy are one fold of the delivered pages
(`AngzarrClient.Router.AggregateDispatch.deliver_of_ok`,
`AngzarrClient.Router.AggregateDispatch.deliver_of_error`), wherever the cut falls.

The dispatch is then read in two directions. Forwards, stage by stage: a failing
stage ends the run and leaves the calls made before it
(`AngzarrClient.Router.AggregateDispatch.handle_of_route_error` and its like).
Backwards, from an answer: every stage answered, and each gave what the next was
given (`AngzarrClient.Router.AggregateDispatch.handle_eq_ok`).
-/

namespace AngzarrClient

namespace Router

variable [Spec] {σ : Type} [Message σ]

/-! ### The fold -/

section Fold

variable {cover : Option Cover} {appliers : Dict String (Applier σ)} {code : String}

@[simp] theorem fold_nil (s : σ) : fold s [] cover appliers code = pure s := rfl

theorem fold_cons (s : σ) (page : EventPage) (pages : List EventPage) :
    fold s (page :: pages) cover appliers code =
      foldPage cover appliers code s page >>= fun s' => fold s' pages cover appliers code :=
  List.foldlM_cons

/-- **A fold cut in two is one fold**: its calls and its outcome are those of the
two parts in a row. -/
theorem fold_append (s : σ) (pages more : List EventPage) :
    fold s (pages ++ more) cover appliers code =
      fold s pages cover appliers code >>= fun s' => fold s' more cover appliers code :=
  List.foldlM_append

/-- A turn that succeeds is the same turn under any code. -/
theorem foldPage_eq_of_ok {s s' : σ} {page : EventPage}
    (h : (foldPage cover appliers code s page).result = .ok s') (code' : String) :
    foldPage cover appliers code' s page = foldPage cover appliers code s page := by
  unfold foldPage at h ⊢
  split
  · rfl
  · next applier ha =>
    rw [ha] at h
    cases hr : applier s page.getPayload ⟨cover, page.sequence, page.metadata⟩ with
    | ok s₁ => simp only [hr, Except.mapError]
    | error e => simp [hr, Except.mapError] at h

/-- **The code a fold fails under shows only when it fails.** -/
theorem fold_eq_of_ok {s s' : σ} {pages : List EventPage}
    (h : (fold s pages cover appliers code).result = .ok s') (code' : String) :
    fold s pages cover appliers code' = fold s pages cover appliers code := by
  induction pages generalizing s with
  | nil => rfl
  | cons page pages ih =>
    rw [fold_cons] at h
    obtain ⟨s₁, h₁, h₂⟩ := Traced.result_bind_eq_ok.mp h
    have hpage := foldPage_eq_of_ok h₁ code'
    rw [fold_cons, fold_cons, hpage, Traced.bind_of_ok h₁, Traced.bind_of_ok h₁, ih h₂]

/-- A fold that succeeds succeeds on each of its two parts. -/
theorem fold_split {s s' : σ} {pages : List EventPage}
    (h : (fold s pages cover appliers code).result = .ok s') (k : ℕ) :
    ∃ s₁, (fold s (pages.take k) cover appliers code).result = .ok s₁ ∧
      (fold s₁ (pages.drop k) cover appliers code).result = .ok s' := by
  rw [← List.take_append_drop k pages, fold_append] at h
  exact Traced.result_bind_eq_ok.mp h

/-- The calls of a fold whose first part succeeds. -/
theorem fold_append_log {s s₁ : σ} {pages : List EventPage}
    (h : (fold s pages cover appliers code).result = .ok s₁) (more : List EventPage) :
    (fold s (pages ++ more) cover appliers code).log =
      (fold s pages cover appliers code).log ++ (fold s₁ more cover appliers code).log := by
  rw [fold_append, Traced.bind_of_ok h]

/-- The outcome of a fold whose first part succeeds. -/
theorem fold_append_result {s s₁ : σ} {pages : List EventPage}
    (h : (fold s pages cover appliers code).result = .ok s₁) (more : List EventPage) :
    (fold s (pages ++ more) cover appliers code).result =
      (fold s₁ more cover appliers code).result := by
  rw [fold_append, Traced.bind_of_ok h]

/-- Every call a fold makes is an applier's. -/
theorem isApplier_of_mem_fold {s : σ} {pages : List EventPage} {c : Call σ}
    (h : c ∈ (fold s pages cover appliers code).log) :
    ∃ event page, c = .applier event page := by
  induction pages generalizing s with
  | nil => simp at h
  | cons page pages ih =>
    have hpage : ∀ c ∈ (foldPage cover appliers code s page).log,
        ∃ event page, c = .applier event page := by
      intro c hc
      unfold foldPage at hc
      split at hc
      · simp at hc
      · simp only [Traced.call_log, List.mem_singleton] at hc
        exact ⟨_, _, hc⟩
    rw [fold_cons] at h
    rcases hr : (foldPage cover appliers code s page).result with e | s₁
    · rw [Traced.bind_of_error hr] at h
      exact hpage c h
    · rw [Traced.bind_of_ok hr] at h
      rcases List.mem_append.mp h with h | h
      · exact hpage c h
      · exact ih h

omit [Spec] [Message σ] in
/-- A run of applier calls is kept whole by the filter of applier calls. -/
theorem filter_isApplier_of_all {log : List (Call σ)}
    (h : ∀ c ∈ log, ∃ event page, c = .applier event page) :
    log.filter Call.isApplier = log := by
  refine List.filter_eq_self.mpr fun c hc => ?_
  obtain ⟨event, page, rfl⟩ := h c hc
  rfl

theorem fold_filter_isApplier (s : σ) (pages : List EventPage) :
    (fold s pages cover appliers code).log.filter Call.isApplier =
      (fold s pages cover appliers code).log :=
  filter_isApplier_of_all fun _ hc => isApplier_of_mem_fold hc

/-- No call of a fold is the resolver's. -/
theorem fold_filter_isChanged (s : σ) (pages : List EventPage) :
    (fold s pages cover appliers code).log.filter Call.isChanged = [] := by
  refine List.filter_eq_nil_iff.mpr fun c hc => ?_
  obtain ⟨event, page, rfl⟩ := isApplier_of_mem_fold hc
  exact Bool.false_ne_true

end Fold

/-! ### The starting state -/

/-- A book starts a state by its snapshot alone. -/
theorem startState_congr (factory : Except Exc σ) {book book' : EventBook}
    (h : book.snapshot = book'.snapshot) : startState factory book = startState factory book' := by
  unfold startState EventBook.getSnapshot
  rw [h]

/-! ### Stamping -/

/-- The emitted pages as they will be persisted, from `sequence` on. -/
def stamped (metadata : EventMeta) (sequence : ℕ) (pages : List EventPage) : List EventPage :=
  pages.mapIdx fun i page =>
    { page with sequence := sequence + i, metadata := some metadata }

omit [Spec] in
theorem stamped_cons (metadata : EventMeta) (sequence : ℕ) (page : EventPage)
    (pages : List EventPage) :
    stamped metadata sequence (page :: pages) =
      { page with sequence := sequence, metadata := some metadata } ::
        stamped metadata (sequence + 1) pages := by
  simp only [stamped, List.mapIdx_cons, Nat.add_zero, List.cons.injEq, true_and]
  refine List.mapIdx_eq_mapIdx_iff.mpr fun i _ => ?_
  rw [Nat.add_assoc, Nat.add_comm 1 i]

/-- **Stamping succeeds exactly inside the sequence field**, and then gives every
page its own sequence and the decision's metadata. -/
theorem stampAll_eq_ok {metadata : EventMeta} {sequence : ℕ} {pages emitted : List EventPage} :
    stampAll metadata sequence pages = .ok emitted ↔
      (pages ≠ [] → sequence + pages.length ≤ Spec.sequenceLimit) ∧
        emitted = stamped metadata sequence pages := by
  induction pages generalizing sequence emitted with
  | nil => simp [stampAll, stamped, eq_comm]
  | cons page pages ih =>
    rw [stamped_cons, stampAll, stamp]
    split
    · next hlt =>
      rcases hr : stampAll metadata (sequence + 1) pages with e | more
      · have hno : ¬(pages ≠ [] → sequence + 1 + pages.length ≤ Spec.sequenceLimit) := by
          intro hin
          have := ih.mpr ⟨hin, rfl⟩
          rw [hr] at this
          cases this
        have hlen : pages ≠ [] ∧ ¬sequence + 1 + pages.length ≤ Spec.sequenceLimit := by
          tauto
        simp only [bind, Except.bind, reduceCtorEq, List.length_cons, false_iff]
        rintro ⟨hin, -⟩
        have := hin (List.cons_ne_nil _ _)
        omega
      · obtain ⟨hin, rfl⟩ := ih.mp hr
        have hfit : sequence + (pages.length + 1) ≤ Spec.sequenceLimit := by
          cases pages with
          | nil =>
            rw [List.length_nil]
            omega
          | cons p ps =>
            have := hin (List.cons_ne_nil _ _)
            omega
        simp only [bind, Except.bind, pure, Except.pure, Except.ok.injEq, List.length_cons]
        constructor
        · rintro rfl
          exact ⟨fun _ => hfit, rfl⟩
        · rintro ⟨-, rfl⟩
          rfl
    · next hge =>
      simp only [bind, Except.bind, reduceCtorEq, List.length_cons, false_iff]
      rintro ⟨hin, -⟩
      have := hin (List.cons_ne_nil _ _)
      omega

omit [Spec] in
/-- Whatever its conflict, a handler runs under its input's cover. -/
theorem handed_cover (request : ContextualCommand) :
    (handed request).cover = request.command.cover := by
  unfold handed
  split <;> rfl

namespace AggregateDispatch

variable (table : AggregateDispatch σ) (request : ContextualCommand)

/-! ### The delivery -/

/-- The copy COMMUTATIVE takes between the two folds. -/
def copied (request : ContextualCommand) (s : σ) : Option σ :=
  if request.command.getHandling.conflictResolution = .commutative then some s else none

/-- The delivered pages, folded in one pass. -/
def replayed (s : σ) : Traced (Call σ) Exc σ :=
  fold s request.events.pages request.events.cover table.rebuilder.appliers foldFailed

variable {table request}

theorem deliver_of_start_error {e : Exc}
    (h : startState table.rebuilder.factory request.events = .error e) :
    table.deliver request = ⟨[], .error e⟩ := by
  simp only [deliver, h, Traced.ofExcept_error, Traced.raise_bind]
  rfl

theorem deliver_of_start {s₀ : σ}
    (h : startState table.rebuilder.factory request.events = .ok s₀) :
    table.deliver request =
      (fold s₀ (request.events.pages.take (seen request)) request.events.cover
        table.rebuilder.appliers foldFailed >>= fun s₁ =>
      fold s₁ (request.events.pages.drop (seen request)) request.events.cover
        table.rebuilder.appliers foldFailed >>= fun s =>
      pure (copied request s₁, s)) := by
  simp only [deliver, h, Traced.ofExcept_ok, pure_bind]
  rfl

/-- **The delivered pages fold as one pass**, wherever the expected sequence cuts
them, and the copy is the state at the cut. -/
theorem deliver_of_ok {s₀ s₁ s : σ}
    (h : startState table.rebuilder.factory request.events = .ok s₀)
    (h₁ : (fold s₀ (request.events.pages.take (seen request)) request.events.cover
      table.rebuilder.appliers foldFailed).result = .ok s₁)
    (h₂ : (fold s₁ (request.events.pages.drop (seen request)) request.events.cover
      table.rebuilder.appliers foldFailed).result = .ok s) :
    table.deliver request = ⟨(table.replayed request s₀).log, .ok (copied request s₁, s)⟩ := by
  have hlog := fold_append_log h₁ (request.events.pages.drop (seen request))
  rw [List.take_append_drop] at hlog
  rw [deliver_of_start h, Traced.bind_of_ok h₁, Traced.bind_of_ok h₂, replayed, hlog]
  simp

/-- **The delivered pages fail as one pass**, wherever the expected sequence cuts
them. -/
theorem deliver_of_error {s₀ : σ} {e : Exc}
    (h : startState table.rebuilder.factory request.events = .ok s₀)
    (he : (table.replayed request s₀).result = .error e) :
    table.deliver request = ⟨(table.replayed request s₀).log, .error e⟩ := by
  have hcut : table.replayed request s₀ =
      fold s₀ (request.events.pages.take (seen request)) request.events.cover
        table.rebuilder.appliers foldFailed >>= fun s₁ =>
      fold s₁ (request.events.pages.drop (seen request)) request.events.cover
        table.rebuilder.appliers foldFailed := by
    rw [← fold_append, List.take_append_drop, replayed]
  rw [hcut] at he
  rw [deliver_of_start h, hcut]
  rcases Traced.result_bind_eq_error.mp he with he | ⟨s₁, h₁, he⟩
  · rw [Traced.bind_of_error he, Traced.bind_of_error he]
  · rw [Traced.bind_of_ok h₁, Traced.bind_of_ok h₁, Traced.bind_of_error he]

/-- A delivery that folds was started, folded to the cut and folded on from it. -/
theorem deliver_eq_ok {before : Option σ} {s : σ}
    (h : (table.deliver request).result = .ok (before, s)) :
    ∃ s₀ s₁, startState table.rebuilder.factory request.events = .ok s₀ ∧
      (fold s₀ (request.events.pages.take (seen request)) request.events.cover
        table.rebuilder.appliers foldFailed).result = .ok s₁ ∧
      (fold s₁ (request.events.pages.drop (seen request)) request.events.cover
        table.rebuilder.appliers foldFailed).result = .ok s ∧
      (table.replayed request s₀).result = .ok s ∧ before = copied request s₁ := by
  rcases hs : startState table.rebuilder.factory request.events with e | s₀
  · rw [deliver_of_start_error hs] at h
    cases h
  · rw [deliver_of_start hs] at h
    obtain ⟨s₁, h₁, h⟩ := Traced.result_bind_eq_ok.mp h
    obtain ⟨s₂, h₂, h⟩ := Traced.result_bind_eq_ok.mp h
    obtain ⟨rfl, rfl⟩ := Prod.mk.inj (Except.ok.inj h)
    refine ⟨s₀, s₁, rfl, h₁, h₂, ?_, rfl⟩
    have hcut := fold_append_result h₁ (request.events.pages.drop (seen request))
    rw [List.take_append_drop] at hcut
    rw [replayed, hcut, h₂]

/-- A started delivery that folds in one pass is delivered. -/
theorem deliver_of_replayed {s₀ s : σ}
    (h : startState table.rebuilder.factory request.events = .ok s₀)
    (hs : (table.replayed request s₀).result = .ok s) :
    ∃ s₁, (fold s₀ (request.events.pages.take (seen request)) request.events.cover
        table.rebuilder.appliers foldFailed).result = .ok s₁ ∧
      table.deliver request = ⟨(table.replayed request s₀).log, .ok (copied request s₁, s)⟩ := by
  obtain ⟨s₁, h₁, h₂⟩ := fold_split hs (seen request)
  exact ⟨s₁, h₁, deliver_of_ok h h₁ h₂⟩

/-! ### The dispatch, forwards -/

section Handle

variable [Message CommandRefused]

theorem handle_of_route_error {e : Exc} (h : table.route request = .error e) :
    table.handle request = ⟨[], .error e⟩ := by
  simp only [handle, h, Traced.ofExcept_error, Traced.raise_bind]
  rfl

theorem handle_of_route {decide : Decide σ} (h : table.route request = .ok decide) :
    table.handle request =
      (table.deliver request >>= fun delivered =>
        call (.handler (PageContext.ofCover (handed request).cover) delivered.2 (handed request))
          (decide delivered.2 (handed request)) >>= fun handled =>
        table.conclude request delivered.1 handled) := by
  simp only [handle, h, Traced.ofExcept_ok, pure_bind]

theorem handle_of_deliver_error {decide : Decide σ} {e : Exc}
    (h : table.route request = .ok decide)
    (he : (table.deliver request).result = .error e) :
    table.handle request = ⟨(table.deliver request).log, .error e⟩ := by
  rw [handle_of_route h, Traced.bind_of_error he]

theorem handle_of_handler_error {decide : Decide σ} {before : Option σ} {s : σ} {e : Exc}
    (h : table.route request = .ok decide)
    (hd : (table.deliver request).result = .ok (before, s))
    (he : decide s (handed request) = .error e) :
    table.handle request =
      ⟨(table.deliver request).log ++
          [.handler (PageContext.ofCover (handed request).cover) s (handed request)],
        .error (.coded (escaped e))⟩ := by
  rw [handle_of_route h, Traced.bind_of_ok hd]
  simp only
  rw [he]
  have hcall : (call (.handler (PageContext.ofCover (handed request).cover) s (handed request))
      (.error e : Except Exc (Handled σ EventBook))).result = .error (.coded (escaped e)) := rfl
  rw [Traced.bind_of_error hcall]
  rfl

theorem handle_of_handled {decide : Decide σ} {before : Option σ} {s : σ}
    {handled : Handled σ EventBook} (h : table.route request = .ok decide)
    (hd : (table.deliver request).result = .ok (before, s))
    (hh : decide s (handed request) = .ok handled) :
    table.handle request =
      ⟨(table.deliver request).log ++
          .handler (PageContext.ofCover (handed request).cover) s (handed request) ::
            (table.conclude request before handled).log,
        (table.conclude request before handled).result⟩ := by
  rw [handle_of_route h, Traced.bind_of_ok hd]
  simp only
  rw [hh]
  have hcall : (call (.handler (PageContext.ofCover (handed request).cover) s (handed request))
      (.ok handled : Except Exc (Handled σ EventBook))).result = .ok handled := rfl
  rw [Traced.bind_of_ok hcall]
  rfl

/-! ### The dispatch, backwards -/

/-- **An answer went through every stage**: the input was routed, the delivery
folded, the handler returned, and what followed it answered. -/
theorem handle_eq_ok {resp : CommandHandlerResponse}
    (h : (table.handle request).result = .ok resp) :
    ∃ decide before s handled, table.route request = .ok decide ∧
      (table.deliver request).result = .ok (before, s) ∧
      decide s (handed request) = .ok handled ∧
      (table.conclude request before handled).result = .ok resp := by
  rcases hr : table.route request with e | decide
  · rw [handle_of_route_error hr] at h
    cases h
  rcases hd : (table.deliver request).result with e | ⟨before, s⟩
  · rw [handle_of_deliver_error hr hd] at h
    cases h
  rcases hh : decide s (handed request) with e | handled
  · rw [handle_of_handler_error hr hd hh] at h
    cases h
  · rw [handle_of_handled hr hd hh] at h
    exact ⟨decide, before, s, handled, rfl, rfl, hh, h⟩

end Handle

/-! ### What follows the decision -/

/-- What follows the decision answers exactly when its own pages are inside the
sequence field and fold, and the answer is built from the state they fold to. -/
theorem conclude_eq_ok {before : Option σ} {handled : Handled σ EventBook}
    {resp : CommandHandlerResponse} :
    (table.conclude request before handled).result = .ok resp ↔
      ∃ emitted s, stampAll (((handed request).settle handled.settled).eventMeta
            table.rulesVersion) request.events.nextSequence handled.returned.pages = .ok emitted ∧
        (fold handled.state emitted request.events.cover table.rebuilder.appliers
          foldFailedEmitted).result = .ok s ∧
        (table.respond ((handed request).settle handled.settled) handled.returned
          (before.map fun before => (before, copy handled.state)) s).result = .ok resp := by
  rw [conclude, Traced.result_bind_eq_ok]
  constructor
  · rintro ⟨s, hs, hresp⟩
    obtain ⟨emitted, he, hs⟩ := Traced.result_bind_eq_ok.mp hs
    exact ⟨emitted, s, he, hs, hresp⟩
  · rintro ⟨emitted, s, he, hs, hresp⟩
    exact ⟨s, Traced.result_bind_eq_ok.mpr ⟨emitted, he, hs⟩, hresp⟩

omit [Message σ] in
/-- The resolver answers when there is one and it returns. -/
theorem callChanged_eq_ok {before after : σ} {units : List String} :
    (table.callChanged before after).result = .ok units ↔
      ∃ changed, table.changed = some changed ∧ changed before after = .ok units := by
  rw [callChanged]
  rcases hc : table.changed with _ | changed
  · simp [call, Except.mapError]
  · rcases hu : changed before after with e | u
    · simp [call, Except.mapError, hu]
    · simp [call, Except.mapError, hu]

/-- The answer before the resolver: the handler's book with the state packed, the
build version, and the nonce of a conflict that was handed. -/
def answered (table : AggregateDispatch σ) (ctx : CommandContext) (out : EventBook) (s : σ) :
    CommandHandlerResponse where
  events := { out with snapshot := some { out.getSnapshot with state := some (pack s) } }
  rulesVersion := table.rulesVersion
  conflict := ctx.conflict.map fun c => ⟨c.resolved, [], []⟩

theorem respond_none (ctx : CommandContext) (out : EventBook) (s : σ) :
    table.respond ctx out none s = pure (table.answered ctx out s) := rfl

/-- With two copies the answer waits for the resolver on both pairs of states. -/
theorem respond_some (ctx : CommandContext) (out : EventBook) (before head s : σ) :
    table.respond ctx out (some (before, head)) s =
      (table.callChanged before head >>= fun window =>
        table.callChanged head s >>= fun mine =>
        pure { table.answered ctx out s with
          conflict := some
            { ((table.answered ctx out s).conflict.getD default) with
              windowUnits := window
              commandUnits := mine } }) := rfl

theorem respond_some_eq_ok {ctx : CommandContext} {out : EventBook} {before head s : σ}
    {resp : CommandHandlerResponse} :
    (table.respond ctx out (some (before, head)) s).result = .ok resp ↔
      ∃ changed window mine, table.changed = some changed ∧ changed before head = .ok window ∧
        changed head s = .ok mine ∧
        resp = { table.answered ctx out s with
          conflict := some
            { ((table.answered ctx out s).conflict.getD default) with
              windowUnits := window
              commandUnits := mine } } := by
  rw [respond_some]
  constructor
  · intro h
    obtain ⟨window, hw, h⟩ := Traced.result_bind_eq_ok.mp h
    obtain ⟨mine, hm, h⟩ := Traced.result_bind_eq_ok.mp h
    obtain ⟨changed, hc, hw⟩ := callChanged_eq_ok.mp hw
    obtain ⟨changed', hc', hm⟩ := callChanged_eq_ok.mp hm
    obtain rfl : changed = changed' := Option.some.inj (hc.symm.trans hc')
    exact ⟨changed, window, mine, hc, hw, hm, (Except.ok.inj h).symm⟩
  · rintro ⟨changed, window, mine, hc, hw, hm, rfl⟩
    exact Traced.result_bind_eq_ok.mpr ⟨window, callChanged_eq_ok.mpr ⟨changed, hc, hw⟩,
      Traced.result_bind_eq_ok.mpr ⟨mine, callChanged_eq_ok.mpr ⟨changed, hc, hm⟩, rfl⟩⟩

/-- An answer is the one before the resolver, its conflict report apart. -/
theorem respond_eq_answered {ctx : CommandContext} {out : EventBook} {copies : Option (σ × σ)}
    {s : σ} {resp : CommandHandlerResponse}
    (h : (table.respond ctx out copies s).result = .ok resp) :
    resp = { table.answered ctx out s with conflict := resp.conflict } := by
  rcases copies with _ | ⟨before, head⟩
  · rw [respond_none] at h
    rw [← Except.ok.inj h]
  · obtain ⟨-, window, mine, -, -, -, rfl⟩ := respond_some_eq_ok.mp h
    rfl

/-- The events of an answer: the handler's book, with the state packed. -/
theorem respond_events {ctx : CommandContext} {out : EventBook} {copies : Option (σ × σ)}
    {s : σ} {resp : CommandHandlerResponse}
    (h : (table.respond ctx out copies s).result = .ok resp) :
    resp.events = (table.answered ctx out s).events := by
  rw [respond_eq_answered h]

/-! ### Handlers that read the state and leave it alone -/

/-- The table's handlers do not write to the state object they are handed. -/
structure ReadOnly (table : AggregateDispatch σ) : Prop where
  /-- Its command handlers leave the state as they found it. -/
  commands : ∀ {name thunk}, table.commands.get? name = some thunk →
    ∀ {payload s ctx handled}, thunk payload s ctx = .ok handled → handled.state = s
  /-- Its fact handlers do. -/
  facts : ∀ {name thunk}, table.facts.get? name = some thunk →
    ∀ {payload s ctx handled}, thunk payload s ctx = .ok handled → handled.state = s
  /-- Its refusal handlers do. -/
  refusals : ∀ {name thunk}, table.refusals.get? name = some thunk →
    ∀ {refused s ctx handled}, thunk refused s ctx = .ok handled → handled.state = s

omit [Spec] [Message σ] in
private theorem map_handled_eq_ok {ρ ρ' : Type} {f : ρ → ρ'} {r : Except Exc (Handled σ ρ)}
    {handled : Handled σ ρ'} (h : r.map (Handled.map f) = .ok handled) :
    ∃ h₀, r = .ok h₀ ∧ handled = h₀.map f := by
  rcases r with e | h₀
  · cases h
  · exact ⟨h₀, rfl, (Except.ok.inj h).symm⟩

section Routed

variable [Message CommandRefused]

omit [Message σ] in
/-- The decision on a fact runs one of the table's fact or refusal handlers. -/
theorem ingest_eq_ok {payload : Any} {decide : Decide σ}
    (h : table.ingest payload = .ok decide) :
    (∃ thunk, table.facts.get? (typeName payload.typeUrl) = some thunk ∧
        decide = fun s ctx => (thunk payload s ctx).map (Handled.map FactRecord.book)) ∨
      ∃ name thunk refused, table.refusals.get? name = some thunk ∧
        decide = fun s ctx => (thunk refused s ctx).map (Handled.map FactRecord.book) := by
  rw [ingest] at h
  simp only at h
  split at h
  · next thunk ht => exact Or.inl ⟨thunk, ht, (Except.ok.inj h).symm⟩
  · split at h
    · cases h
    · obtain ⟨refused, -, h⟩ := Traced.except_bind_eq_ok.mp h
      split at h
      · cases h
      · next thunk ht => exact Or.inr ⟨_, thunk, refused, ht, (Except.ok.inj h).symm⟩

omit [Message σ] in
/-- A command is routed to the handler of its type, past the guard on COMMUTATIVE; a
fact is ingested. -/
theorem route_eq_ok {decide : Decide σ} (h : table.route request = .ok decide) :
    (∃ payload, request.command.getPage.body = some (.fact payload) ∧
        table.ingest (payload.getD default) = .ok decide) ∨
      table.decide request.command.getPage.commandPayload = .ok decide := by
  rw [route] at h
  split at h
  · next payload hb => exact Or.inl ⟨payload, hb, h⟩
  · obtain ⟨d, hd, h⟩ := Traced.except_bind_eq_ok.mp h
    simp only at h
    split at h
    · cases h
    · exact Or.inr (hd.trans h)

omit [Message σ] in
/-- The decision of a read-only table leaves the state as it found it. -/
theorem ReadOnly.state_eq (hro : table.ReadOnly) {decide : Decide σ} {s : σ}
    {ctx : CommandContext} {handled : Handled σ EventBook}
    (h : table.route request = .ok decide) (hh : decide s ctx = .ok handled) :
    handled.state = s := by
  rcases route_eq_ok h with ⟨payload, -, hi⟩ | hd
  · rcases ingest_eq_ok hi with ⟨thunk, ht, rfl⟩ | ⟨name, thunk, refused, ht, rfl⟩
    · obtain ⟨h₀, hr, rfl⟩ := map_handled_eq_ok hh
      exact hro.facts ht hr
    · obtain ⟨h₀, hr, rfl⟩ := map_handled_eq_ok hh
      exact hro.refusals ht hr
  · rw [AggregateDispatch.decide] at hd
    split at hd
    · cases hd
    · next thunk ht =>
      obtain rfl := Except.ok.inj hd
      obtain ⟨h₀, hr, rfl⟩ := map_handled_eq_ok hh
      exact hro.commands ht hr

end Routed

/-! ### The calls of an answer -/

/-- Building an answer calls the resolver at most. -/
theorem isChanged_of_mem_respond {ctx : CommandContext} {out : EventBook}
    {copies : Option (σ × σ)} {s : σ} {c : Call σ}
    (hc : c ∈ (table.respond ctx out copies s).log) : c.isChanged = true := by
  have hcall : ∀ {before after : σ}, ∀ c ∈ (table.callChanged before after).log,
      c.isChanged = true := by
    intro before after c hc
    obtain rfl := List.mem_singleton.mp hc
    rfl
  rcases copies with _ | ⟨before, head⟩
  · cases hc
  · rw [respond_some] at hc
    rcases hw : (table.callChanged before head).result with e | window
    · rw [Traced.bind_of_error hw] at hc
      exact hcall c hc
    · rw [Traced.bind_of_ok hw] at hc
      rcases List.mem_append.mp hc with hc | hc
      · exact hcall c hc
      · rcases hm : (table.callChanged head s).result with e | mine
        · rw [Traced.bind_of_error hm] at hc
          exact hcall c hc
        · rw [Traced.bind_of_ok hm, Traced.pure_log, List.append_nil] at hc
          exact hcall c hc

theorem filter_isChanged_respond (ctx : CommandContext) (out : EventBook)
    (copies : Option (σ × σ)) (s : σ) :
    (table.respond ctx out copies s).log.filter Call.isChanged =
      (table.respond ctx out copies s).log :=
  List.filter_eq_self.mpr fun _ hc => isChanged_of_mem_respond hc

/-- The first thing asked of the resolver is what changed between the two copies. -/
theorem respond_some_log (ctx : CommandContext) (out : EventBook) (before head s : σ) :
    ∃ rest, (table.respond ctx out (some (before, head)) s).log =
      .changed PageContext.empty before head :: rest := by
  rw [respond_some]
  rcases hw : (table.callChanged before head).result with e | window
  · rw [Traced.bind_of_error hw]
    exact ⟨[], rfl⟩
  · rw [Traced.bind_of_ok hw]
    exact ⟨_, rfl⟩

/-- The calls that build an answer: the resolver's on the state before the cut and the
one after it, then on that one and the state the answer packs. -/
theorem respond_log {ctx : CommandContext} {out : EventBook} {copies : Option (σ × σ)} {s : σ}
    {resp : CommandHandlerResponse} (h : (table.respond ctx out copies s).result = .ok resp) :
    (table.respond ctx out copies s).log =
      copies.elim [] fun c =>
        [.changed PageContext.empty c.1 c.2, .changed PageContext.empty c.2 s] := by
  rcases copies with _ | ⟨before, head⟩
  · rfl
  · rw [respond_some] at h ⊢
    obtain ⟨window, hw, h⟩ := Traced.result_bind_eq_ok.mp h
    obtain ⟨mine, hm, -⟩ := Traced.result_bind_eq_ok.mp h
    rw [Traced.bind_of_ok hw, Traced.bind_of_ok hm]
    rfl

section Conclude

variable {before : Option σ} {handled : Handled σ EventBook}

theorem conclude_of_stamp_error {e : Exc}
    (he : stampAll (((handed request).settle handled.settled).eventMeta table.rulesVersion)
      request.events.nextSequence handled.returned.pages = .error e) :
    table.conclude request before handled = ⟨[], .error e⟩ := by
  rw [conclude, emit, he, Traced.ofExcept_error, Traced.raise_bind]
  rfl

/-- Stamped pages are folded from the value the handler left in the state object. -/
theorem emit_of_stamped {emitted : List EventPage}
    (he : stampAll (((handed request).settle handled.settled).eventMeta table.rulesVersion)
      request.events.nextSequence handled.returned.pages = .ok emitted) :
    table.emit request ((handed request).settle handled.settled) handled.state
      handled.returned = fold handled.state emitted request.events.cover
        table.rebuilder.appliers foldFailedEmitted := by
  rw [emit, he, Traced.ofExcept_ok, pure_bind]

theorem conclude_of_fold_error {emitted : List EventPage} {e : Exc}
    (he : stampAll (((handed request).settle handled.settled).eventMeta table.rulesVersion)
      request.events.nextSequence handled.returned.pages = .ok emitted)
    (hs : (fold handled.state emitted request.events.cover table.rebuilder.appliers
      foldFailedEmitted).result = .error e) :
    table.conclude request before handled =
      ⟨(fold handled.state emitted request.events.cover table.rebuilder.appliers
        foldFailedEmitted).log, .error e⟩ := by
  rw [conclude, emit_of_stamped he, Traced.bind_of_error hs]

theorem conclude_of_folded {emitted : List EventPage} {s : σ}
    (he : stampAll (((handed request).settle handled.settled).eventMeta table.rulesVersion)
      request.events.nextSequence handled.returned.pages = .ok emitted)
    (hs : (fold handled.state emitted request.events.cover table.rebuilder.appliers
      foldFailedEmitted).result = .ok s) :
    table.conclude request before handled =
      ⟨(fold handled.state emitted request.events.cover table.rebuilder.appliers
          foldFailedEmitted).log ++
        (table.respond ((handed request).settle handled.settled) handled.returned
          (before.map fun before => (before, copy handled.state)) s).log,
        (table.respond ((handed request).settle handled.settled) handled.returned
          (before.map fun before => (before, copy handled.state)) s).result⟩ := by
  rw [conclude, emit_of_stamped he, Traced.bind_of_ok hs]

/-- What follows the decision never calls the handler again. -/
theorem isHandler_conclude {c : Call σ}
    (hc : c ∈ (table.conclude request before handled).log) : c.isHandler = false := by
  rcases he : stampAll (((handed request).settle handled.settled).eventMeta table.rulesVersion)
      request.events.nextSequence handled.returned.pages with e | emitted
  · rw [conclude_of_stamp_error he] at hc
    cases hc
  · rcases hs : (fold handled.state emitted request.events.cover table.rebuilder.appliers
        foldFailedEmitted).result with e | s
    · rw [conclude_of_fold_error he hs] at hc
      obtain ⟨event, page, rfl⟩ := isApplier_of_mem_fold hc
      rfl
    · rw [conclude_of_folded he hs] at hc
      rcases List.mem_append.mp hc with hc | hc
      · obtain ⟨event, page, rfl⟩ := isApplier_of_mem_fold hc
        rfl
      · have hch := isChanged_of_mem_respond hc
        cases c with
        | changed page before after => rfl
        | applier event page => cases hch
        | handler page s ctx => cases hch

end Conclude

section Routed

variable [Message CommandRefused] {decide : Decide σ} {start : σ}

/-- A routed delivery that does not fold fails as one pass over its pages does. -/
theorem handle_of_replayed_error {e : Exc} (hr : table.route request = .ok decide)
    (hstart : startState table.rebuilder.factory request.events = .ok start)
    (he : (table.replayed request start).result = .error e) :
    table.handle request = ⟨(table.replayed request start).log, .error e⟩ := by
  have hdel := deliver_of_error hstart he
  rw [handle_of_deliver_error hr (congrArg Traced.result hdel), hdel]

/-- One that folds has its handler called, once, on the state that pass comes to. -/
theorem handle_log_of_replayed {s : σ} (hr : table.route request = .ok decide)
    (hstart : startState table.rebuilder.factory request.events = .ok start)
    (hs : (table.replayed request start).result = .ok s) :
    ∃ rest, (table.handle request).log = (table.replayed request start).log ++
        .handler (PageContext.ofCover (handed request).cover) s (handed request) :: rest ∧
      ∀ c ∈ rest, c.isHandler = false := by
  obtain ⟨cut, -, hdel⟩ := deliver_of_replayed hstart hs
  rcases hh : decide s (handed request) with e | handled
  · refine ⟨[], ?_, fun c hc => absurd hc List.not_mem_nil⟩
    rw [handle_of_handler_error hr (congrArg Traced.result hdel) hh, hdel]
  · refine ⟨(table.conclude request (copied request cut) handled).log, ?_,
      fun c hc => isHandler_conclude hc⟩
    rw [handle_of_handled hr (congrArg Traced.result hdel) hh, hdel]

end Routed

/-! ### An answer's stages -/

/-- The metadata a decision's events are stamped with. -/
def decisionMeta (table : AggregateDispatch σ) (request : ContextualCommand) : EventMeta where
  rulesVersion := table.rulesVersion
  commandId := request.command.getPage.commandId
  fact := request.command.getPage.factOrigin
  correlationId := request.command.getPage.correlationId
  recordedAt := request.recordedAt

omit [Spec] [Message σ] in
/-- The context a decision is stamped from is its input's, however it was handed and
settled. -/
theorem eventMeta_settle_handed (table : AggregateDispatch σ) (request : ContextualCommand)
    (nonces : List Bytes) :
    ((handed request).settle nonces).eventMeta table.rulesVersion =
      table.decisionMeta request := by
  unfold handed
  split <;> rfl

/-- A decision's pages as they will be persisted. -/
def emitted (table : AggregateDispatch σ) (request : ContextualCommand) (out : EventBook) :
    List EventPage :=
  stamped (table.decisionMeta request) request.events.nextSequence out.pages

/-- What each stage of an answered request gave the next. -/
structure Answer [Message CommandRefused] (table : AggregateDispatch σ)
    (request : ContextualCommand) (resp : CommandHandlerResponse) where
  /-- The decision the input was routed to. -/
  decide : Decide σ
  /-- The starting state. -/
  start : σ
  /-- The state after the pages before the cut. -/
  cut : σ
  /-- The state after all delivered pages. -/
  delivered : σ
  /-- What the handler came to. -/
  handled : Handled σ EventBook
  /-- The state after the emitted pages too. -/
  after : σ
  route_eq : table.route request = .ok decide
  start_eq : startState table.rebuilder.factory request.events = .ok start
  cut_eq : (fold start (request.events.pages.take (seen request)) request.events.cover
    table.rebuilder.appliers foldFailed).result = .ok cut
  delivered_eq : (fold cut (request.events.pages.drop (seen request)) request.events.cover
    table.rebuilder.appliers foldFailed).result = .ok delivered
  handled_eq : decide delivered (handed request) = .ok handled
  stamp_eq : stampAll (((handed request).settle handled.settled).eventMeta table.rulesVersion)
    request.events.nextSequence handled.returned.pages =
      .ok (table.emitted request handled.returned)
  after_eq : (fold handled.state (table.emitted request handled.returned) request.events.cover
    table.rebuilder.appliers foldFailedEmitted).result = .ok after
  respond_eq : (table.respond ((handed request).settle handled.settled) handled.returned
    ((copied request cut).map fun before => (before, copy handled.state)) after).result = .ok resp

section Answer

variable [Message CommandRefused] {resp : CommandHandlerResponse}

/-- **An answer went through every stage.** -/
theorem exists_answer (h : (table.handle request).result = .ok resp) :
    Nonempty (table.Answer request resp) := by
  obtain ⟨decide, before, s, handled, hr, hd, hh, hc⟩ := handle_eq_ok h
  obtain ⟨pages, s', hpages, hs', hresp⟩ := conclude_eq_ok.mp hc
  obtain ⟨s₀, s₁, hstart, hcut, hdel, -, rfl⟩ := deliver_eq_ok hd
  obtain rfl : pages = table.emitted request handled.returned := by
    rw [(stampAll_eq_ok.mp hpages).2, eventMeta_settle_handed, emitted]
  exact ⟨⟨decide, s₀, s₁, s, handled, s', hr, hstart, hcut, hdel, hh, hpages, hs', hresp⟩⟩

/-- An answer reports the table's version. -/
theorem handle_rulesVersion (h : (table.handle request).result = .ok resp) :
    resp.rulesVersion = table.rulesVersion := by
  obtain ⟨a⟩ := exists_answer h
  rw [respond_eq_answered a.respond_eq]
  rfl

variable (a : table.Answer request resp)

theorem Answer.replayed_eq : (table.replayed request a.start).result = .ok a.delivered := by
  have h := fold_append_result a.cut_eq (request.events.pages.drop (seen request))
  rw [List.take_append_drop] at h
  rw [replayed, h, a.delivered_eq]

theorem Answer.deliver_eq :
    table.deliver request =
      ⟨(table.replayed request a.start).log, .ok (copied request a.cut, a.delivered)⟩ :=
  deliver_of_ok a.start_eq a.cut_eq a.delivered_eq

/-- The calls of an answered request, in order: the delivered pages' appliers, the
handler, the emitted pages' appliers, the resolver. -/
theorem Answer.log_eq :
    (table.handle request).log = (table.replayed request a.start).log ++
      .handler (PageContext.ofCover (handed request).cover) a.delivered (handed request) ::
        ((fold a.handled.state (table.emitted request a.handled.returned) request.events.cover
            table.rebuilder.appliers foldFailedEmitted).log ++
          (table.respond ((handed request).settle a.handled.settled) a.handled.returned
            ((copied request a.cut).map fun before => (before, copy a.handled.state))
            a.after).log) := by
  rw [handle_of_handled a.route_eq (congrArg Traced.result a.deliver_eq) a.handled_eq,
    a.deliver_eq, conclude_of_folded a.stamp_eq a.after_eq]

theorem Answer.events_eq :
    resp.events = { a.handled.returned with
      snapshot := some { a.handled.returned.getSnapshot with state := some (pack a.after) } } :=
  respond_events a.respond_eq

/-- The appliers are called on the delivered pages and then on the emitted ones. -/
theorem Answer.filter_isApplier :
    (table.handle request).log.filter Call.isApplier =
      (table.replayed request a.start).log ++
        (fold a.handled.state (table.emitted request a.handled.returned) request.events.cover
          table.rebuilder.appliers foldFailedEmitted).log := by
  have hnone : ∀ c ∈ (table.respond ((handed request).settle a.handled.settled)
      a.handled.returned ((copied request a.cut).map fun before =>
        (before, copy a.handled.state)) a.after).log, ¬c.isApplier = true := by
    intro c hc
    have hch := isChanged_of_mem_respond hc
    cases c with
    | changed page before after => exact Bool.false_ne_true
    | applier event page => cases hch
    | handler page s ctx => cases hch
  simp only [a.log_eq, List.filter_append, List.filter_cons, replayed, fold_filter_isApplier,
    Call.isApplier, Bool.false_eq_true, if_false, List.filter_eq_nil_iff.mpr hnone,
    List.append_nil]

/-- The resolver is asked under COMMUTATIVE alone: about the state before the cut and
the one the handler left, then about that one and the state the answer packs. -/
theorem Answer.filter_isChanged :
    (table.handle request).log.filter Call.isChanged =
      if request.command.getHandling.conflictResolution = .commutative then
        [.changed PageContext.empty a.cut a.handled.state,
          .changed PageContext.empty a.handled.state a.after]
      else [] := by
  simp only [a.log_eq, List.filter_append, List.filter_cons, replayed, fold_filter_isChanged,
    List.nil_append, Call.isChanged, Bool.false_eq_true, if_false]
  rw [respond_log a.respond_eq, copied]
  split
  · rfl
  · rfl

/-- A read-only table's handler leaves the state after the delivered pages. -/
theorem Answer.state_eq (hro : table.ReadOnly) : a.handled.state = a.delivered :=
  hro.state_eq a.route_eq a.handled_eq

end Answer

end AggregateDispatch

end Router

end AngzarrClient
