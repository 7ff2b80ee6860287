import AngzarrClient.Router.Ledger

/-!
# What was decided is what is replayed

A decision's own events are folded when it is made and again on every later
delivery, and a delivery starts from a fresh state or from a stored one. Two laws say
that none of this can be told apart by business code.

* **The decide-time fold is replay.** Once the coordinator has stamped and stored an
  answer's pages, the next delivery hands its handler the state the answer packed,
  and the appliers are called on the way as they were called at decide time, event,
  cover, sequence and metadata alike
  (`AngzarrClient.Router.AggregateDispatch.decide_time_fold_is_replay`).
* **A snapshot is transparent.** Folding a stretch of history and starting from the
  state it folds to are one and the same
  (`AngzarrClient.Router.AggregateDispatch.snapshot_transparent`).

The first assumes that a handler does not write to the state object it is handed
(`AngzarrClient.Router.AggregateDispatch.ReadOnly`). The second does not need to: what
a handler writes, it writes on both sides.
-/

namespace AngzarrClient

namespace Router

/-! ### The decide-time fold is replay -/

namespace AggregateDispatch

section DecideTime

variable [Spec] {σ : Type} [Message σ] [Message CommandRefused] {table : AggregateDispatch σ}
  {request : ContextualCommand}

/-- An answer's pages as the coordinator stores them: in order from the next
sequence, each under the metadata of the decision. -/
def persisted (table : AggregateDispatch σ) (request : ContextualCommand)
    (resp : CommandHandlerResponse) : List EventPage :=
  resp.events.pages.mapIdx fun i page =>
    { page with
      sequence := request.events.nextSequence + i
      metadata := some
        { rulesVersion := table.rulesVersion
          commandId := request.command.getPage.commandId
          fact := request.command.getPage.factOrigin
          correlationId := request.command.getPage.correlationId
          recordedAt := request.recordedAt } }

/-- A delivery of the same stream once an answer's pages are stored: the same cover,
the same starting state, and the delivered pages followed by the stored ones. What it
asks, and everything else it carries, is its own. -/
structure FollowedBy (table : AggregateDispatch σ) (request : ContextualCommand)
    (resp : CommandHandlerResponse) (later : ContextualCommand) : Prop where
  cover : later.events.cover = request.events.cover
  snapshot : later.events.snapshot = request.events.snapshot
  pages : later.events.pages = request.events.pages ++ table.persisted request resp

/-- **The decide-time fold is replay.** Whatever a later delivery of the stream asks,
once it is routed its handler is called, once, on the state the answer packed, and
before that the appliers are called as they were called at decide time: event, cover,
sequence and metadata, in the same order. -/
theorem decide_time_fold_is_replay (hro : table.ReadOnly) {resp : CommandHandlerResponse}
    (h : (table.handle request).result = .ok resp) {later : ContextualCommand}
    (hl : table.FollowedBy request resp later) {decide : Decide σ}
    (hr : table.route later = .ok decide) :
    ∃ page s ctx rest, (table.handle later).log =
        (table.handle request).log.filter Call.isApplier ++ .handler page s ctx :: rest ∧
      (∀ c ∈ rest, c.isHandler = false) ∧
      resp.events.getSnapshot.state = some (pack s) := by
  obtain ⟨a⟩ := exists_answer h
  have hleft : a.handled.state = a.delivered := a.state_eq hro
  have hafter := a.after_eq
  rw [hleft] at hafter
  -- the stored pages are the stamped ones
  have hemitted : table.persisted request resp = table.emitted request a.handled.returned := by
    rw [persisted, a.events_eq, emitted, stamped]
    rfl
  -- so the later delivery folds on from where the decision stood
  have hstart : startState table.rebuilder.factory later.events = .ok a.start := by
    rw [startState_congr _ hl.snapshot, a.start_eq]
  have hfold : table.replayed later a.start =
      ⟨(table.replayed request a.start).log ++ (fold a.delivered
          (table.emitted request a.handled.returned) request.events.cover
          table.rebuilder.appliers foldFailedEmitted).log, .ok a.after⟩ := by
    have hreplayed := a.replayed_eq
    rw [replayed] at hreplayed
    rw [replayed, hl.pages, hl.cover, hemitted, fold_append, Traced.bind_of_ok hreplayed,
      fold_eq_of_ok hafter foldFailed, hafter, replayed]
  have happliers : (table.handle request).log.filter Call.isApplier =
      (table.replayed later a.start).log := by
    rw [a.filter_isApplier, hleft, hfold]
  have hstate : resp.events.getSnapshot.state = some (pack a.after) := by
    rw [a.events_eq]
    rfl
  obtain ⟨rest, hlog, hrest⟩ := handle_log_of_replayed hr hstart (congrArg Traced.result hfold)
  rw [happliers]
  exact ⟨PageContext.ofCover (handed later).cover, a.after, handed later, rest, hlog, hrest,
    hstate⟩

end DecideTime

section Raised

open Ledger

/-- A ledger raised over one event hands its next command the count it answered. -/
theorem decide_time_fold_is_replay_ledger :
    ∃ page s ctx rest,
      (ledgerAggregate.handle (increaseOver none [increasedPage 0, storedPage 1] 2)).log =
        (ledgerAggregate.handle (increaseOver none [increasedPage 0] 1)).log.filter
          Call.isApplier ++ .handler page s ctx :: rest ∧
      (∀ c ∈ rest, c.isHandler = false) ∧
      (raisedTo 2 none).events.getSnapshot.state = some (pack s) := by
  have h : (ledgerAggregate.handle (increaseOver none [increasedPage 0] 1)).result =
      .ok (raisedTo 2 none) := rfl
  exact decide_time_fold_is_replay readOnly_ledgerAggregate h ⟨rfl, rfl, rfl⟩ rfl

end Raised

end AggregateDispatch

/-! ### A snapshot is transparent -/

/-- The request over another history: other pages, and another snapshot or none. -/
def withHistory (request : ContextualCommand) (pages : List EventPage)
    (snapshot : Option Snapshot) : ContextualCommand :=
  { request with events := { request.events with pages := pages, snapshot := snapshot } }

section Resumed

variable {request : ContextualCommand} {folded rest : List EventPage} {snapshot : Snapshot}

/-- Either history is evidence of one: a page of it, or the snapshot. -/
theorem context_resumed (hne : folded ≠ []) :
    context (withHistory request (folded ++ rest) none) =
      context (withHistory request rest (some snapshot)) := by
  have hpages : (folded ++ rest).isEmpty = false := by
    rw [List.isEmpty_eq_false_iff]
    exact List.append_ne_nil_of_left_ne_nil hne rest
  simp only [context, withHistory, hpages, Option.isSome_some, Bool.or_true, Bool.not_false,
    Bool.true_or]

/-- Pages below the expected sequence all count. -/
theorem seen_resumed (hne : folded ≠ [])
    (hbelow : ∀ page ∈ folded, page.sequence < (context request).expectedSequence)
    (snapshot : Snapshot) :
    seen (withHistory request (folded ++ rest) none) =
      folded.length + seen (withHistory request rest (some snapshot)) := by
  have hall : (folded.countP fun page =>
      page.sequence < (context (withHistory request rest (some snapshot))).expectedSequence) =
      folded.length :=
    List.countP_eq_length.mpr fun page hp => decide_eq_true (hbelow page hp)
  rw [seen, context_resumed hne]
  change List.countP _ (folded ++ rest) = _
  rw [List.countP_append, hall]
  rfl

/-- The folded pages lie before the cut. -/
theorem take_seen_resumed (hne : folded ≠ [])
    (hbelow : ∀ page ∈ folded, page.sequence < (context request).expectedSequence)
    (snapshot : Snapshot) :
    (folded ++ rest).take (seen (withHistory request (folded ++ rest) none)) =
      folded ++ rest.take (seen (withHistory request rest (some snapshot))) := by
  rw [seen_resumed hne hbelow snapshot, List.take_append, List.take_of_length_le (by omega)]
  congr 2
  omega

/-- What lies past the cut is the same either way. -/
theorem drop_seen_resumed (hne : folded ≠ [])
    (hbelow : ∀ page ∈ folded, page.sequence < (context request).expectedSequence)
    (snapshot : Snapshot) :
    (folded ++ rest).drop (seen (withHistory request (folded ++ rest) none)) =
      rest.drop (seen (withHistory request rest (some snapshot))) := by
  rw [seen_resumed hne hbelow snapshot, List.drop_append, List.drop_of_length_le (by omega),
    List.nil_append]
  congr 1
  omega

/-- The handler is handed one context: the window starts past the folded pages. -/
theorem handed_resumed (hne : folded ≠ [])
    (hbelow : ∀ page ∈ folded, page.sequence < (context request).expectedSequence)
    (snapshot : Snapshot) :
    handed (withHistory request (folded ++ rest) none) =
      handed (withHistory request rest (some snapshot)) := by
  rw [handed, handed, context_resumed hne]
  change (if _ then
    { context _ with conflict := some (Conflict.new (List.drop _ (folded ++ rest)) _) }
    else _) = _
  rw [drop_seen_resumed hne hbelow snapshot]
  rfl

end Resumed

namespace AggregateDispatch

section Resumed

variable [Spec] {σ : Type} [Message σ] {table : AggregateDispatch σ}
  {request : ContextualCommand} {folded rest : List EventPage} {snapshot : Snapshot}

/-- What follows the decision reads of the request its context, its cover and its next
sequence. -/
theorem conclude_congr {request' : ContextualCommand} (hh : handed request = handed request')
    (hc : request.events.cover = request'.events.cover)
    (hn : request.events.nextSequence = request'.events.nextSequence) (before : Option σ)
    (handled : Handled σ EventBook) :
    table.conclude request before handled = table.conclude request' before handled := by
  simp only [conclude, emit, hh, hc, hn]

/-- A delivery over the whole history folds the folded pages, and then is the delivery
resumed from the state they fold to. -/
theorem deliver_resumed {fresh t : σ} {typeUrl : String} (hne : folded ≠ [])
    (hbelow : ∀ page ∈ folded, page.sequence < (context request).expectedSequence)
    (hfresh : table.rebuilder.factory = .ok fresh)
    (ht : (fold fresh folded request.events.cover table.rebuilder.appliers foldFailed).result =
      .ok t)
    (hsnap : snapshot.state = some ⟨typeUrl, Message.serialize t⟩) :
    table.deliver (withHistory request (folded ++ rest) none) =
      ⟨(fold fresh folded request.events.cover table.rebuilder.appliers foldFailed).log ++
          (table.deliver (withHistory request rest (some snapshot))).log,
        (table.deliver (withHistory request rest (some snapshot))).result⟩ := by
  have hwhole : startState table.rebuilder.factory
      (withHistory request (folded ++ rest) none).events = .ok fresh := by
    rw [hfresh]
    rfl
  have hresumed : startState table.rebuilder.factory
      (withHistory request rest (some snapshot)).events = .ok t := by
    simp only [startState, hfresh, EventBook.getSnapshot, withHistory, Option.getD_some, hsnap,
      Message.parse_serialize]
    rfl
  rw [deliver_of_start hwhole, deliver_of_start hresumed]
  change (fold fresh (List.take _ (folded ++ rest)) request.events.cover _ _ >>= fun s₁ =>
    fold s₁ (List.drop _ (folded ++ rest)) request.events.cover _ _ >>= fun s =>
      pure (copied request s₁, s)) = _
  rw [take_seen_resumed hne hbelow snapshot, drop_seen_resumed hne hbelow snapshot, fold_append,
    bind_assoc, Traced.bind_of_ok ht]
  rfl

variable [Message CommandRefused]

/-- **A snapshot is transparent.** Over a history whose first pages all lie below the
expected sequence and fold, and over the rest of it with the state they fold to as its
snapshot, a request comes to the same answer or the same error. The calls of business
code are the same ones too – the handler's on the same state and the same context –
after those that fold the first pages. -/
theorem snapshot_transparent {fresh t : σ} {typeUrl : String} (hne : folded ≠ [])
    (hbelow : ∀ page ∈ folded, page.sequence < (context request).expectedSequence)
    (hfresh : table.rebuilder.factory = .ok fresh)
    (ht : (fold fresh folded request.events.cover table.rebuilder.appliers foldFailed).result =
      .ok t)
    (hsnap : snapshot.state = some ⟨typeUrl, Message.serialize t⟩) :
    ∃ first : List (Call σ), (∀ c ∈ first, c.isApplier = true) ∧
      (table.handle (withHistory request (folded ++ rest) none)).log =
        first ++ (table.handle (withHistory request rest (some snapshot))).log ∧
      (table.handle (withHistory request (folded ++ rest) none)).result =
        (table.handle (withHistory request rest (some snapshot))).result := by
  have hroute : table.route (withHistory request (folded ++ rest) none) =
      table.route (withHistory request rest (some snapshot)) := rfl
  rcases hr : table.route (withHistory request rest (some snapshot)) with e | decide
  · refine ⟨[], fun c hc => absurd hc List.not_mem_nil, ?_, ?_⟩
    · rw [handle_of_route_error (hroute.trans hr), handle_of_route_error hr]
      rfl
    · rw [handle_of_route_error (hroute.trans hr), handle_of_route_error hr]
  · refine ⟨(fold fresh folded request.events.cover table.rebuilder.appliers foldFailed).log,
      fun c hc => ?_, ?_⟩
    · obtain ⟨event, page, rfl⟩ := isApplier_of_mem_fold hc
      rfl
    · have hhand : handed (withHistory request (folded ++ rest) none) =
          handed (withHistory request rest (some snapshot)) :=
        handed_resumed hne hbelow snapshot
      rw [handle_of_route (hroute.trans hr), handle_of_route hr,
        deliver_resumed hne hbelow hfresh ht hsnap, hhand]
      rcases hd : (table.deliver (withHistory request rest (some snapshot))).result with e | d
      · rw [Traced.bind_of_error hd, Traced.bind_of_error rfl]
        exact ⟨rfl, rfl⟩
      · rw [Traced.bind_of_ok hd, Traced.bind_of_ok rfl]
        have hconc : ∀ handled,
            table.conclude (withHistory request (folded ++ rest) none) d.1 handled =
              table.conclude (withHistory request rest (some snapshot)) d.1 handled :=
          conclude_congr hhand rfl rfl d.1
        simp only [hconc]
        exact ⟨List.append_assoc _ _ _, trivial⟩

end Resumed

section Raised

open Ledger

/-- A ledger of one event past a stored count of two is a ledger of three. -/
theorem snapshot_transparent_ledger :
    ∃ first : List (Call CounterState), (∀ c ∈ first, c.isApplier = true) ∧
      (ledgerAggregate.handle (withHistory (increaseOver none [] 3)
        ([increasedPage 0, increasedPage 1] ++ [increasedPage 2]) none)).log =
        first ++ (ledgerAggregate.handle (withHistory (increaseOver none [] 3) [increasedPage 2]
          (some ⟨some (pack (⟨2⟩ : CounterState)), 1, ""⟩))).log ∧
      (ledgerAggregate.handle (withHistory (increaseOver none [] 3)
        ([increasedPage 0, increasedPage 1] ++ [increasedPage 2]) none)).result =
        (ledgerAggregate.handle (withHistory (increaseOver none [] 3) [increasedPage 2]
          (some ⟨some (pack (⟨2⟩ : CounterState)), 1, ""⟩))).result := by
  have ht : (fold (⟨0⟩ : CounterState) [increasedPage 0, increasedPage 1] (some cover)
      ledgerAggregate.rebuilder.appliers foldFailed).result = .ok ⟨2⟩ :=
    fold_ledgerAggregate _ _ _ _
  exact snapshot_transparent (List.cons_ne_nil _ _) (by decide) rfl ht rfl

end Raised

end AggregateDispatch

end Router

end AngzarrClient
