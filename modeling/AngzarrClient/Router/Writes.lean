import AngzarrClient.Router.Ledger

/-!
# What a handler writes to the state it is handed

The state object is folded into, handed to business code, copied and folded into
again, and it is one object throughout. A handler that writes to it changes what is
copied as `head` and what the emitted pages fold from, and so the snapshot the answer
carries: not the state after the delivered and the emitted pages, but the state after
what the handler left there.

`AngzarrClient.Router.AggregateDispatch.untouched` is a table with its handlers' writes
undone: each returns and settles as before, and leaves the object as it found it. What
such a table answers is what the pages fold to
(`AngzarrClient.Router.AggregateDispatch.untouched_answer`). A table answers a delivery
as its untouched version does exactly when the handler's write does not show there:
when the emitted pages fold from what it left as they do from what it was handed, and,
under COMMUTATIVE, when it left what it was handed
(`AngzarrClient.Router.AggregateDispatch.acts_through_return_iff`). A handler that raises
the state itself, and then emits the event that raises it, is answered a state raised
twice.
-/

namespace AngzarrClient

namespace Router

/-- A handler's outcome with the state as it was handed. -/
def Handled.restored {σ ρ : Type} (s : σ) (handled : Handled σ ρ) : Handled σ ρ :=
  { handled with state := s }

namespace AggregateDispatch

variable {σ : Type}

/-- The table whose handlers return and settle as this one's do, and write nothing to
the state they are handed. -/
def untouched (table : AggregateDispatch σ) : AggregateDispatch σ :=
  { table with
    commands := table.commands.mapValues fun thunk payload s ctx =>
      (thunk payload s ctx).map (Handled.restored s)
    facts := table.facts.mapValues fun thunk payload s ctx =>
      (thunk payload s ctx).map (Handled.restored s)
    refusals := table.refusals.mapValues fun thunk refused s ctx =>
      (thunk refused s ctx).map (Handled.restored s) }

section Untouched

variable [Spec] [Message σ] [Message CommandRefused] {table : AggregateDispatch σ}
  {request : ContextualCommand}

/-! ### The untouched table -/

omit [Spec] [Message σ] [Message CommandRefused] in
private theorem restored_eq_ok {ρ : Type} {r : Except Exc (Handled σ ρ)} {s : σ}
    {handled : Handled σ ρ} (h : r.map (Handled.restored s) = .ok handled) :
    handled.state = s := by
  rcases r with e | h₀
  · cases h
  · rw [← Except.ok.inj h]
    rfl

omit [Spec] [Message σ] [Message CommandRefused] in
theorem readOnly_untouched (table : AggregateDispatch σ) : table.untouched.ReadOnly where
  commands := by
    intro name thunk h payload s ctx handled hh
    obtain ⟨thunk, -, rfl⟩ := Option.map_eq_some_iff.mp ((Dict.get?_mapValues _ _ _).symm.trans h)
    exact restored_eq_ok hh
  facts := by
    intro name thunk h payload s ctx handled hh
    obtain ⟨thunk, -, rfl⟩ := Option.map_eq_some_iff.mp ((Dict.get?_mapValues _ _ _).symm.trans h)
    exact restored_eq_ok hh
  refusals := by
    intro name thunk h refused s ctx handled hh
    obtain ⟨thunk, -, rfl⟩ := Option.map_eq_some_iff.mp ((Dict.get?_mapValues _ _ _).symm.trans h)
    exact restored_eq_ok hh

omit [Spec] [Message σ] [Message CommandRefused] in
/-- Reading a book off an outcome and undoing its write are independent. -/
private theorem map_restored_comm {ρ ρ' : Type} (f : ρ → ρ') (s : σ)
    (r : Except Exc (Handled σ ρ)) :
    (r.map (Handled.restored s)).map (Handled.map f) =
      (r.map (Handled.map f)).map (Handled.restored s) := by
  rcases r with e | h₀
  · rfl
  · rfl

omit [Message σ] [Message CommandRefused] in
theorem decide_untouched (payload : Any) :
    table.untouched.decide payload =
      (table.decide payload).map fun d s ctx => (d s ctx).map (Handled.restored s) := by
  simp only [decide, untouched, Dict.get?_mapValues]
  rcases table.commands.get? (typeName payload.typeUrl) with _ | thunk
  · rfl
  · exact congrArg Except.ok (funext fun s => funext fun ctx => map_restored_comm _ _ _)

omit [Message σ] in
theorem ingest_untouched (payload : Any) :
    table.untouched.ingest payload =
      (table.ingest payload).map fun d s ctx => (d s ctx).map (Handled.restored s) := by
  simp only [ingest, untouched, Dict.get?_mapValues]
  rcases table.facts.get? (typeName payload.typeUrl) with _ | thunk
  · simp only [Option.map_none]
    split
    · rfl
    · rcases decode CommandRefused payload.value with e | refused
      · rfl
      · simp only [bind, Except.bind]
        rcases table.refusals.get? (typeName refused.command.getPage.commandPayload.typeUrl)
          with _ | thunk
        · rfl
        · exact congrArg Except.ok (funext fun s => funext fun ctx => map_restored_comm _ _ _)
  · exact congrArg Except.ok (funext fun s => funext fun ctx => map_restored_comm _ _ _)

omit [Message σ] in
/-- The untouched table routes alike, to the decision with its write undone. -/
theorem route_untouched :
    table.untouched.route request =
      (table.route request).map fun d s ctx => (d s ctx).map (Handled.restored s) := by
  unfold route
  split
  · exact ingest_untouched _
  · rw [decide_untouched]
    rcases table.decide request.command.getPage.commandPayload with e | d
    · rfl
    · simp only [bind, Except.bind, Except.map]
      by_cases h : request.command.getHandling.conflictResolution = .commutative ∧
          table.changed.isNone
      · refine (if_pos h).trans ?_
        rw [if_pos h]
        rfl
      · refine (if_neg h).trans ?_
        rw [if_neg h]
        rfl

/-- **An untouched table's answer is its pages'**: the snapshot holds the fold of the
delivered and then of the emitted pages from the starting state, and under COMMUTATIVE
the resolver compares the state after the delivered pages alone. -/
theorem untouched_answer {resp : CommandHandlerResponse}
    (h : (table.untouched.handle request).result = .ok resp) :
    ∃ start cut delivered after,
      startState table.rebuilder.factory request.events = .ok start ∧
      (table.replayed request start).result = .ok delivered ∧
      (fold delivered (table.emitted request resp.events) request.events.cover
        table.rebuilder.appliers foldFailedEmitted).result = .ok after ∧
      resp.events.getSnapshot.state = some (pack after) ∧
      (table.untouched.handle request).log.filter Call.isChanged =
        if request.command.getHandling.conflictResolution = .commutative then
          [.changed PageContext.empty cut delivered, .changed PageContext.empty delivered after]
        else [] := by
  obtain ⟨a⟩ := exists_answer h
  have hleft : a.handled.state = a.delivered := a.state_eq (readOnly_untouched table)
  have hafter := a.after_eq
  have hchanged := a.filter_isChanged
  rw [hleft] at hafter hchanged
  refine ⟨a.start, a.cut, a.delivered, a.after, a.start_eq, a.replayed_eq, ?_, ?_, hchanged⟩
  · rw [a.events_eq]
    exact hafter
  · rw [a.events_eq]
    rfl

/-! ### When a write shows -/

/-- Nothing the handler writes shows in the answer to a request: when it returns, and
its pages are inside the sequence field, they fold from the value it leaves in the
state object as they do from the one it was handed; and under COMMUTATIVE, where they
fold, it leaves the one it was handed. -/
def WritesUnseen (table : AggregateDispatch σ) (request : ContextualCommand) : Prop :=
  ∀ decide before s handled emitted, table.route request = .ok decide →
    (table.deliver request).result = .ok (before, s) →
    decide s (handed request) = .ok handled →
    stampAll (((handed request).settle handled.settled).eventMeta table.rulesVersion)
      request.events.nextSequence handled.returned.pages = .ok emitted →
    (fold handled.state emitted request.events.cover table.rebuilder.appliers
        foldFailedEmitted).result =
      (fold s emitted request.events.cover table.rebuilder.appliers foldFailedEmitted).result ∧
    (before.isSome →
      ∀ s', (fold s emitted request.events.cover table.rebuilder.appliers
        foldFailedEmitted).result = .ok s' → handled.state = s)

/-- Two runs past the decision end alike, and ask the resolver alike. -/
def EndAlike (run run' : Traced (Call σ) Exc CommandHandlerResponse) : Prop :=
  run.result = run'.result ∧ run.log.filter Call.isChanged = run'.log.filter Call.isChanged

omit [Message CommandRefused] in
/-- Without copies nothing is asked, and the answer shows the state alone. -/
theorem endAlike_respond_none {ctx : CommandContext} {out : EventBook} {s s' : σ} :
    EndAlike (table.respond ctx out none s) (table.respond ctx out none s') ↔ s = s' := by
  constructor
  · rintro ⟨hresult, -⟩
    have hevents := congrArg CommandHandlerResponse.events (Except.ok.inj hresult)
    have hsnap := congrArg (fun book => (EventBook.getSnapshot book).state) hevents
    have hpack : pack s = pack s' := Option.some.inj hsnap
    exact Message.serialize_injective (congrArg Any.value hpack)
  · rintro rfl
    exact ⟨rfl, rfl⟩

omit [Message CommandRefused] in
/-- With copies, what is asked first shows the copy that was taken of the state. -/
theorem not_endAlike_respond_some {ctx : CommandContext} {out : EventBook}
    {before head head' s s' : σ} (hne : head ≠ head') :
    ¬EndAlike (table.respond ctx out (some (before, head)) s)
      (table.respond ctx out (some (before, head')) s') := by
  rintro ⟨-, hlog⟩
  obtain ⟨rest, hrest⟩ := table.respond_some_log ctx out before head s
  obtain ⟨rest', hrest'⟩ := table.respond_some_log ctx out before head' s'
  rw [filter_isChanged_respond, filter_isChanged_respond, hrest, hrest'] at hlog
  have hcall := (List.cons.inj hlog).1
  injection hcall with _ _ hhead
  exact hne hhead

omit [Message CommandRefused] in
/-- A run that builds its answer is told from one that failed before that. -/
theorem not_endAlike_respond_error {ctx : CommandContext} {out : EventBook}
    {copies : Option (σ × σ)} {s : σ} {log : List (Call σ)} {e : Exc}
    (hlog : log.filter Call.isChanged = []) :
    ¬EndAlike (table.respond ctx out copies s) ⟨log, .error e⟩ := by
  rintro ⟨hresult, hasked⟩
  rcases copies with _ | ⟨before, head⟩
  · cases hresult
  · obtain ⟨rest, hrest⟩ := table.respond_some_log ctx out before head s
    rw [filter_isChanged_respond, hrest] at hasked
    exact List.cons_ne_nil _ _ (hasked.trans hlog)

omit [Spec] [Message σ] [Message CommandRefused] in
/-- Calls that are not the resolver's do not tell a run from another. -/
theorem endAlike_append_left {run run' : Traced (Call σ) Exc CommandHandlerResponse}
    {log : List (Call σ)} (h : log.filter Call.isChanged = []) :
    EndAlike ⟨log ++ run.log, run.result⟩ run' ↔ EndAlike run run' := by
  simp only [EndAlike, List.filter_append, h, List.nil_append]

omit [Spec] [Message σ] [Message CommandRefused] in
theorem endAlike_comm {run run' : Traced (Call σ) Exc CommandHandlerResponse} :
    EndAlike run run' ↔ EndAlike run' run :=
  ⟨fun h => ⟨h.1.symm, h.2.symm⟩, fun h => ⟨h.1.symm, h.2.symm⟩⟩

omit [Message CommandRefused] in
/-- What follows a decision shows its write exactly when the emitted pages tell what it
left from what it was handed, or when a copy is taken of what it left. -/
theorem endAlike_conclude_iff {before : Option σ} {handled : Handled σ EventBook} {s : σ}
    {emitted : List EventPage}
    (he : stampAll (((handed request).settle handled.settled).eventMeta table.rulesVersion)
      request.events.nextSequence handled.returned.pages = .ok emitted) :
    EndAlike (table.conclude request before handled)
        (table.conclude request before (handled.restored s)) ↔
      (fold handled.state emitted request.events.cover table.rebuilder.appliers
          foldFailedEmitted).result =
        (fold s emitted request.events.cover table.rebuilder.appliers foldFailedEmitted).result ∧
      (before.isSome →
        ∀ s', (fold s emitted request.events.cover table.rebuilder.appliers
          foldFailedEmitted).result = .ok s' → handled.state = s) := by
  by_cases hw : handled.state = s
  · subst hw
    exact ⟨fun _ => ⟨rfl, fun _ _ _ => rfl⟩, fun _ => ⟨rfl, rfl⟩⟩
  have he' : stampAll (((handed request).settle (handled.restored s).settled).eventMeta
      table.rulesVersion) request.events.nextSequence (handled.restored s).returned.pages =
        .ok emitted := he
  have hfolded : ∀ {s₂}, (fold s emitted request.events.cover table.rebuilder.appliers
      foldFailedEmitted).result = .ok s₂ → table.conclude request before (handled.restored s) =
        ⟨(fold s emitted request.events.cover table.rebuilder.appliers foldFailedEmitted).log ++
            (table.respond ((handed request).settle handled.settled) handled.returned
              (before.map fun before => (before, copy s)) s₂).log,
          (table.respond ((handed request).settle handled.settled) handled.returned
            (before.map fun before => (before, copy s)) s₂).result⟩ :=
    fun h => conclude_of_folded he' h
  have hnone : ∀ s : σ, (fold s emitted request.events.cover table.rebuilder.appliers
      foldFailedEmitted).log.filter Call.isChanged = [] := fun s => fold_filter_isChanged s _
  rcases hf : (fold handled.state emitted request.events.cover table.rebuilder.appliers
      foldFailedEmitted).result with e | s₁
  · rw [conclude_of_fold_error he hf]
    rcases hf' : (fold s emitted request.events.cover table.rebuilder.appliers
        foldFailedEmitted).result with e' | s₂
    · -- both folds fail, before anything is asked
      rw [conclude_of_fold_error he' hf']
      refine ⟨fun h => ⟨?_, fun _ s' h' => nomatch h'⟩, fun h => ⟨?_, ?_⟩⟩
      · rw [Except.error.inj h.1]
      · rw [Except.error.inj h.1]
      · exact (hnone _).trans (hnone s).symm
    · rw [hfolded hf', endAlike_comm, endAlike_append_left (hnone s)]
      exact ⟨fun h => absurd h (not_endAlike_respond_error (hnone _)), fun h => nomatch h.1⟩
  · rw [conclude_of_folded he hf, endAlike_append_left (hnone _)]
    rcases hf' : (fold s emitted request.events.cover table.rebuilder.appliers
        foldFailedEmitted).result with e' | s₂
    · rw [conclude_of_fold_error he' hf']
      exact ⟨fun h => absurd h (not_endAlike_respond_error (hnone s)), fun h => nomatch h.1⟩
    · rw [hfolded hf', endAlike_comm, endAlike_append_left (hnone s)]
      rcases before with _ | before
      · -- nothing is copied: the write shows in the snapshot or not at all
        change EndAlike (table.respond _ _ none s₂) (table.respond _ _ none s₁) ↔ _
        rw [endAlike_respond_none]
        constructor
        · rintro rfl
          exact ⟨rfl, fun h => nomatch h⟩
        · rintro ⟨h, -⟩
          exact (Except.ok.inj h).symm
      · exact ⟨fun h => absurd h (not_endAlike_respond_some (Ne.symm hw)),
          fun h => absurd (h.2 rfl s₂ rfl) hw⟩

/-- A request is answered, and the resolver asked, as if the handler had not written to
the state, exactly when its write is not seen. -/
theorem endAlike_untouched_iff :
    EndAlike (table.handle request) (table.untouched.handle request) ↔
      table.WritesUnseen request := by
  have hroute : table.untouched.route request =
      (table.route request).map fun d s ctx => (d s ctx).map (Handled.restored s) :=
    route_untouched
  rcases hr : table.route request with e | decide
  · rw [hr] at hroute
    rw [handle_of_route_error hr, handle_of_route_error hroute]
    refine ⟨fun _ => ?_, fun _ => ⟨rfl, rfl⟩⟩
    intro decide' before' s' handled' emitted hr'
    cases hr.symm.trans hr'
  rw [hr] at hroute
  rcases hd : (table.deliver request).result with e | ⟨before, s⟩
  · have hd' : (table.untouched.deliver request).result = .error e := hd
    rw [handle_of_deliver_error hr hd, handle_of_deliver_error hroute hd']
    refine ⟨fun _ => ?_, fun _ => ⟨rfl, rfl⟩⟩
    intro decide' before' s' handled' emitted hr' hd''
    cases hd.symm.trans hd''
  have hd' : (table.untouched.deliver request).result = .ok (before, s) := hd
  rcases hh : decide s (handed request) with e | handled
  · have hh' : (decide s (handed request)).map (Handled.restored s) = .error e := by
      rw [hh]
      rfl
    rw [handle_of_handler_error hr hd hh, handle_of_handler_error hroute hd' hh']
    refine ⟨fun _ => ?_, fun _ => ⟨rfl, rfl⟩⟩
    intro decide' before' s' handled' emitted hr' hd'' hh''
    obtain rfl := Except.ok.inj (hr.symm.trans hr')
    obtain ⟨-, rfl⟩ := Prod.mk.inj (Except.ok.inj (hd.symm.trans hd''))
    cases hh.symm.trans hh''
  have hh' : (decide s (handed request)).map (Handled.restored s) =
      .ok (handled.restored s) := by
    rw [hh]
    rfl
  -- the calls before the decision's end are the same two runs', and none the resolver's
  have hpre : ∀ run run' : Traced (Call σ) Exc CommandHandlerResponse,
      EndAlike ⟨(table.deliver request).log ++
            .handler (PageContext.ofCover (handed request).cover) s (handed request) :: run.log,
          run.result⟩
        ⟨(table.deliver request).log ++
            .handler (PageContext.ofCover (handed request).cover) s (handed request) :: run'.log,
          run'.result⟩ ↔ EndAlike run run' := by
    intro run run'
    simp only [EndAlike, List.filter_append, List.filter_cons, Call.isChanged,
      Bool.false_eq_true, if_false, List.append_cancel_left_eq]
  rw [handle_of_handled hr hd hh, handle_of_handled hroute hd' hh']
  refine (hpre _ _).trans ?_
  change EndAlike (table.conclude request before handled)
    (table.conclude request before (handled.restored s)) ↔ _
  rcases he : stampAll (((handed request).settle handled.settled).eventMeta table.rulesVersion)
      request.events.nextSequence handled.returned.pages with e | emitted
  · have he' : stampAll (((handed request).settle (handled.restored s).settled).eventMeta
        table.rulesVersion) request.events.nextSequence (handled.restored s).returned.pages =
          .error e := he
    rw [conclude_of_stamp_error he, conclude_of_stamp_error he']
    refine ⟨fun _ => ?_, fun _ => ⟨rfl, rfl⟩⟩
    intro decide' before' s' handled' emitted hr' hd'' hh'' he''
    obtain rfl := Except.ok.inj (hr.symm.trans hr')
    obtain ⟨-, rfl⟩ := Prod.mk.inj (Except.ok.inj (hd.symm.trans hd''))
    obtain rfl := Except.ok.inj (hh.symm.trans hh'')
    cases he.symm.trans he''
  · rw [endAlike_conclude_iff he]
    constructor
    · intro h decide' before' s' handled' emitted' hr' hd'' hh'' he''
      obtain rfl := Except.ok.inj (hr.symm.trans hr')
      obtain ⟨rfl, rfl⟩ := Prod.mk.inj (Except.ok.inj (hd.symm.trans hd''))
      obtain rfl := Except.ok.inj (hh.symm.trans hh'')
      obtain rfl := Except.ok.inj (he.symm.trans he'')
      exact h
    · intro h
      exact h decide before s handled emitted hr hd hh he

/-- **When a handler acts on the answer only through what it returns.** A request is
answered, and the resolver asked, as with the handler's writes undone exactly when they
are not seen; then any other handler that returns and settles the same, and whose writes
are not seen either, is answered alike. With its writes undone, the snapshot of an answer
is the fold of the delivered and then the emitted pages from the starting state, and under
COMMUTATIVE the state compared with it is the fold of the delivered pages. -/
theorem acts_through_return_iff :
    (EndAlike (table.handle request) (table.untouched.handle request) ↔
      table.WritesUnseen request) ∧
    (∀ other : AggregateDispatch σ, other.untouched = table.untouched →
      table.WritesUnseen request → other.WritesUnseen request →
      EndAlike (table.handle request) (other.handle request)) ∧
    ∀ resp, (table.untouched.handle request).result = .ok resp →
      ∃ start cut delivered after,
        startState table.rebuilder.factory request.events = .ok start ∧
        (table.replayed request start).result = .ok delivered ∧
        (fold delivered (table.emitted request resp.events) request.events.cover
          table.rebuilder.appliers foldFailedEmitted).result = .ok after ∧
        resp.events.getSnapshot.state = some (pack after) ∧
        (table.untouched.handle request).log.filter Call.isChanged =
          if request.command.getHandling.conflictResolution = .commutative then
            [.changed PageContext.empty cut delivered,
              .changed PageContext.empty delivered after]
          else [] := by
  refine ⟨endAlike_untouched_iff, ?_, fun resp h => untouched_answer h⟩
  intro other hsame hseen hseen'
  obtain ⟨hresult, hasked⟩ := endAlike_untouched_iff.mpr hseen
  obtain ⟨hresult', hasked'⟩ := endAlike_untouched_iff.mpr hseen'
  rw [hsame] at hresult' hasked'
  exact ⟨hresult.trans hresult'.symm, hasked.trans hasked'.symm⟩

end Untouched

section CountingAhead

open Ledger

/-- The ledger with a handler that counts ahead: it raises the state it is handed, and
returns the event that raises it. -/
def countingAhead : AggregateDispatch CounterState :=
  ledgerAggregate.onCommand "test.counter.IncreaseBy" fun payload s ctx =>
    (increaseBy payload s ctx).map fun handled => { handled with state := ⟨s.count + 1⟩ }

/-- Two ledgers whose handlers return the same event answer one command differently:
over one event the one is raised to two, the other to three. -/
theorem write_shows_in_snapshot :
    countingAhead.untouched = ledgerAggregate.untouched ∧
      (ledgerAggregate.handle (increaseOver none [increasedPage 0] 1)).result =
        .ok (raisedTo 2 none) ∧
      (countingAhead.handle (increaseOver none [increasedPage 0] 1)).result =
        .ok (raisedTo 3 none) ∧
      ¬EndAlike (countingAhead.handle (increaseOver none [increasedPage 0] 1))
        (ledgerAggregate.handle (increaseOver none [increasedPage 0] 1)) := by
  refine ⟨rfl, rfl, rfl, ?_⟩
  rintro ⟨h, -⟩
  have hsnap := congrArg (fun resp => resp.events.getSnapshot.state) (Except.ok.inj h)
  have hstate : (⟨3⟩ : CounterState) = ⟨2⟩ :=
    Message.serialize_injective (congrArg Any.value (Option.some.inj hsnap))
  exact absurd hstate (by decide)

end CountingAhead

end AggregateDispatch

end Router

end AngzarrClient
