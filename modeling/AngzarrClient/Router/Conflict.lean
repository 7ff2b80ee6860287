import AngzarrClient.Router.Ledger

/-!
# A stale command's conflict

A command may say which sequence it expected the stream to be at, and what to do when
the stream is past it. The router does not judge the conflict: it collects the evidence
the coordinator judges it by. Under AGGREGATE_HANDLES that is the window of pages the
command did not see, handed to business code, and the nonce business code settles it
with; under COMMUTATIVE it is what changed over the window and what the command
changes, asked of the table's resolver.

The window starts at a position – the number of delivered pages below the expected
sequence – and that position is a cut of the pages by their sequences because a stream's
sequences increase (`AngzarrClient.Router.drop_seen`). From there the evidence is exact,
and neutral: nothing about a conflict changes what the pages fold to
(`AngzarrClient.Router.AggregateDispatch.conflict_evidence`).

A fact is recorded and not judged, yet what it carries for a handling is read like a
command's. A COMMUTATIVE one asks the resolver, and the guard that refuses a command
where there is none is the command's alone; so a fact that folds is answered exactly
when no resolver is asked, or there is one and it returns
(`AngzarrClient.Router.AggregateDispatch.fact_answered_iff`).
-/

namespace AngzarrClient

namespace Router

/-! ### The cut -/

section Cut

variable {α : Type} {P : α → Bool} {l : List α}

/-- Where what holds of an element holds of those before it, as many elements as
satisfy it are those that do. -/
theorem take_countP (h : l.Pairwise fun a b => P b = true → P a = true) :
    l.take (l.countP P) = l.filter P := by
  induction l with
  | nil => rfl
  | cons a l ih =>
    obtain ⟨ha, hl⟩ := List.pairwise_cons.mp h
    by_cases hP : P a = true
    · rw [List.countP_cons_of_pos hP, List.take_succ_cons, ih hl, List.filter_cons_of_pos hP]
    · have hnone : ∀ b ∈ l, ¬P b = true := fun b hb hPb => hP (ha b hb hPb)
      rw [List.countP_cons_of_neg hP, List.countP_eq_zero.mpr hnone, List.filter_cons_of_neg hP,
        List.filter_eq_nil_iff.mpr hnone, List.take_zero]

/-- The rest are those that do not. -/
theorem drop_countP (h : l.Pairwise fun a b => P b = true → P a = true) :
    l.drop (l.countP P) = l.filter fun a => !P a := by
  induction l with
  | nil => rfl
  | cons a l ih =>
    obtain ⟨ha, hl⟩ := List.pairwise_cons.mp h
    by_cases hP : P a = true
    · rw [List.countP_cons_of_pos hP, List.drop_succ_cons, ih hl,
        List.filter_cons_of_neg (by rw [hP]; exact Bool.false_ne_true)]
    · have hnone : ∀ b ∈ a :: l, ¬P b = true := by
        intro b hb
        rcases List.mem_cons.mp hb with rfl | hb
        · exact hP
        · exact fun hPb => hP (ha b hb hPb)
      rw [List.countP_eq_zero.mpr hnone, List.drop_zero]
      exact (List.filter_eq_self.mpr fun b hb => by simp [hnone b hb]).symm

end Cut

/-- The sequence an input expected: the one its handling gives, or the next one. -/
def expected (request : ContextualCommand) : ℕ :=
  request.command.getHandling.expectedSequence.getD request.events.nextSequence

/-- A stream's pages have increasing sequences. -/
def Increasing (request : ContextualCommand) : Prop :=
  request.events.pages.Pairwise fun p q => p.sequence < q.sequence

instance (request : ContextualCommand) : Decidable (Increasing request) :=
  inferInstanceAs (Decidable (List.Pairwise _ _))

section Seen

variable {request : ContextualCommand}

private theorem below_of_increasing (h : Increasing request) :
    request.events.pages.Pairwise fun p q =>
      decide (q.sequence < expected request) = true →
        decide (p.sequence < expected request) = true := by
  refine h.imp fun {p q} hpq hq => ?_
  rw [decide_eq_true_eq] at hq ⊢
  omega

/-- The pages before the cut are those below the expected sequence. -/
theorem take_seen (h : Increasing request) :
    request.events.pages.take (seen request) =
      request.events.pages.filter fun p => p.sequence < expected request :=
  take_countP (below_of_increasing h)

/-- **The window is the pages from the expected sequence on.** -/
theorem drop_seen (h : Increasing request) :
    request.events.pages.drop (seen request) =
      request.events.pages.filter fun p => expected request ≤ p.sequence := by
  refine (drop_countP (below_of_increasing h)).trans (List.filter_congr fun p _ => ?_)
  rw [← decide_not]
  exact decide_eq_decide.mpr Nat.not_lt

/-- The conflict a handler is handed: under AGGREGATE_HANDLES the window with the
delivered nonce, and otherwise none. -/
theorem handed_conflict (h : Increasing request) :
    (handed request).conflict =
      if request.command.getHandling.conflictResolution = .aggregateHandles then
        some ⟨request.events.pages.filter fun p => expected request ≤ p.sequence,
          request.conflictNonce, []⟩
      else none := by
  rw [handed]
  split
  · rw [drop_seen h]
    rfl
  · rfl

/-- A conflict settled any number of times is settled with the last nonce. -/
theorem resolved_foldl (conflict : Conflict) (nonces : List Bytes) :
    (nonces.foldl Conflict.resolveConflicts conflict).resolved =
      nonces.getLastD conflict.resolved := by
  induction nonces generalizing conflict with
  | nil => rfl
  | cons nonce nonces ih =>
    rw [List.foldl_cons, ih, List.getLastD_cons]
    rfl

end Seen

namespace AggregateDispatch

section Evidence

variable [Spec] {σ : Type} [Message σ] {table : AggregateDispatch σ}
  {request : ContextualCommand}

/-! ### The evidence -/

/-- What the delivered pages fold to does not depend on what the input asks: only where
the copy is taken does. -/
theorem deliver_congr (table : AggregateDispatch σ) (request request' : ContextualCommand)
    (h : request'.events = request.events) :
    (table.deliver request').log = (table.deliver request).log ∧
      (table.deliver request').result.map Prod.snd =
        (table.deliver request).result.map Prod.snd := by
  have hreplayed : ∀ s, table.replayed request' s = table.replayed request s := fun s => by
    rw [replayed, replayed, h]
  rcases hstart : startState table.rebuilder.factory request.events with e | start
  · have hstart' : startState table.rebuilder.factory request'.events = .error e := by
      rw [h, hstart]
    rw [deliver_of_start_error hstart, deliver_of_start_error hstart']
    exact ⟨rfl, rfl⟩
  have hstart' : startState table.rebuilder.factory request'.events = .ok start := by
    rw [h, hstart]
  rcases hfold : (table.replayed request start).result with e | s
  · have hfold' : (table.replayed request' start).result = .error e := by rw [hreplayed, hfold]
    rw [deliver_of_error hstart hfold, deliver_of_error hstart' hfold', hreplayed]
    exact ⟨rfl, rfl⟩
  · have hfold' : (table.replayed request' start).result = .ok s := by rw [hreplayed, hfold]
    obtain ⟨cut, -, hdel⟩ := deliver_of_replayed hstart hfold
    obtain ⟨cut', -, hdel'⟩ := deliver_of_replayed hstart' hfold'
    rw [hdel, hdel', hreplayed]
    exact ⟨rfl, rfl⟩

variable [Message CommandRefused]

variable {resp : CommandHandlerResponse}

/-- Under AGGREGATE_HANDLES the answer reports the nonce the handler settled with last. -/
theorem Answer.conflict_aggregateHandles (a : table.Answer request resp)
    (hm : request.command.getHandling.conflictResolution = .aggregateHandles) :
    resp.conflict = some ⟨a.handled.settled.getLastD [], [], []⟩ := by
  have hresp := a.respond_eq
  have hcopied : copied request a.cut = none := by
    rw [copied, hm]
    rfl
  have hconf : (handed request).conflict = some
      (Conflict.new (request.events.pages.drop (seen request)) request.conflictNonce) := by
    rw [handed, if_pos hm]
  rw [hcopied, Option.map_none, respond_none] at hresp
  refine (congrArg CommandHandlerResponse.conflict (Except.ok.inj hresp)).symm.trans ?_
  simp only [answered, CommandContext.settle, hconf, Option.map_some, resolved_foldl]
  rfl

/-- Under COMMUTATIVE it reports what changed before the handler, and what it changed. -/
theorem Answer.conflict_commutative (a : table.Answer request resp)
    (hm : request.command.getHandling.conflictResolution = .commutative) :
    ∃ changed window mine, table.changed = some changed ∧
      changed a.cut a.handled.state = .ok window ∧
      changed a.handled.state a.after = .ok mine ∧
      resp.conflict = some ⟨[], window, mine⟩ := by
  have hresp := a.respond_eq
  have hcopied : copied request a.cut = some a.cut := by rw [copied, if_pos hm]
  have hconf : ((handed request).settle a.handled.settled).conflict = none := by
    rw [handed, if_neg (by rw [hm]; decide)]
    rfl
  rw [hcopied] at hresp
  obtain ⟨changed, window, mine, hc, hw, hmine, hresp⟩ := respond_some_eq_ok.mp hresp
  refine ⟨changed, window, mine, hc, hw, hmine, ?_⟩
  refine (congrArg CommandHandlerResponse.conflict hresp).trans ?_
  simp only [answered, hconf, Option.map_none, Option.getD_none]
  rfl

/-- Under any other handling it reports none. -/
theorem Answer.conflict_other (a : table.Answer request resp)
    (hm : request.command.getHandling.conflictResolution ≠ .aggregateHandles)
    (hm' : request.command.getHandling.conflictResolution ≠ .commutative) :
    resp.conflict = none := by
  have hresp := a.respond_eq
  have hconf : ((handed request).settle a.handled.settled).conflict = none := by
    rw [handed, if_neg hm]
    rfl
  rw [copied, if_neg hm', Option.map_none, respond_none] at hresp
  refine (congrArg CommandHandlerResponse.conflict (Except.ok.inj hresp)).symm.trans ?_
  rw [answered, hconf]
  rfl

/-- The evidence of a conflict is exact, and collecting it changes nothing. -/
structure ConflictEvidence (table : AggregateDispatch σ) (request : ContextualCommand) :
    Prop where
  /-- Under AGGREGATE_HANDLES the handler is handed the pages from the expected sequence
  on, with the delivered nonce; otherwise it is handed no conflict. -/
  window : (handed request).conflict =
    if request.command.getHandling.conflictResolution = .aggregateHandles then
      some ⟨request.events.pages.filter fun p => expected request ≤ p.sequence,
        request.conflictNonce, []⟩
    else none
  /-- A delivery that does not fold fails as one pass over its pages does. -/
  fails : ∀ decide start e, table.route request = .ok decide →
    startState table.rebuilder.factory request.events = .ok start →
    (table.replayed request start).result = .error e →
    table.handle request = ⟨(table.replayed request start).log, .error e⟩
  /-- One that folds has its handler called, once, on the state that pass comes to. -/
  folds : ∀ decide start s, table.route request = .ok decide →
    startState table.rebuilder.factory request.events = .ok start →
    (table.replayed request start).result = .ok s →
    ∃ rest, (table.handle request).log = (table.replayed request start).log ++
        .handler (PageContext.ofCover request.command.cover) s (handed request) :: rest ∧
      ∀ c ∈ rest, c.isHandler = false
  /-- Two deliveries of the same book fold alike, to the same state or the same failure,
  whatever each expected and however each is to be handled. -/
  neutral : ∀ request' : ContextualCommand, request'.events = request.events →
    (table.deliver request').log = (table.deliver request).log ∧
    (table.deliver request').result.map Prod.snd = (table.deliver request).result.map Prod.snd
  /-- Under AGGREGATE_HANDLES an answer reports the last nonce the handler settled with,
  and an empty one when it did not. -/
  settled : request.command.getHandling.conflictResolution = .aggregateHandles →
    ∀ resp, (table.handle request).result = .ok resp →
      ∃ decide start s handled, table.route request = .ok decide ∧
        startState table.rebuilder.factory request.events = .ok start ∧
        (table.replayed request start).result = .ok s ∧
        decide s (handed request) = .ok handled ∧
        resp.conflict = some ⟨handled.settled.getLastD [], [], []⟩
  /-- Under COMMUTATIVE it reports what changed from the pages below the expected sequence
  to all of them, and from there to the emitted pages too. -/
  units : request.command.getHandling.conflictResolution = .commutative →
    ∀ resp, (table.handle request).result = .ok resp →
      ∃ start below s after changed window mine,
        startState table.rebuilder.factory request.events = .ok start ∧
        (fold start (request.events.pages.filter fun p => p.sequence < expected request)
          request.events.cover table.rebuilder.appliers foldFailed).result = .ok below ∧
        (table.replayed request start).result = .ok s ∧
        (fold s (table.emitted request resp.events) request.events.cover
          table.rebuilder.appliers foldFailedEmitted).result = .ok after ∧
        table.changed = some changed ∧ changed below s = .ok window ∧
        changed s after = .ok mine ∧ resp.conflict = some ⟨[], window, mine⟩
  /-- Under any other handling it reports no conflict. -/
  other : request.command.getHandling.conflictResolution ≠ .aggregateHandles →
    request.command.getHandling.conflictResolution ≠ .commutative →
    ∀ resp, (table.handle request).result = .ok resp → resp.conflict = none

/-- **Conflict evidence is exact and neutral**, of a table whose handlers leave the state
alone and on pages of increasing sequences. -/
theorem conflict_evidence (hro : table.ReadOnly) (hinc : Increasing request) :
    table.ConflictEvidence request where
  window := handed_conflict hinc
  fails _ _ _ hr hstart he := handle_of_replayed_error hr hstart he
  folds _ _ _ hr hstart hs := by
    rw [← handed_cover]
    exact handle_log_of_replayed hr hstart hs
  neutral _ h := deliver_congr table request _ h
  settled hm resp h := by
    obtain ⟨a⟩ := exists_answer h
    exact ⟨a.decide, a.start, a.delivered, a.handled, a.route_eq, a.start_eq, a.replayed_eq,
      a.handled_eq, a.conflict_aggregateHandles hm⟩
  units hm resp h := by
    obtain ⟨a⟩ := exists_answer h
    have hleft : a.handled.state = a.delivered := a.state_eq hro
    have hafter := a.after_eq
    have hcut := a.cut_eq
    obtain ⟨changed, window, mine, hc, hw, hmine, hreport⟩ := a.conflict_commutative hm
    rw [hleft] at hafter hw hmine
    rw [take_seen hinc] at hcut
    refine ⟨a.start, a.cut, a.delivered, a.after, changed, window, mine, a.start_eq, hcut,
      a.replayed_eq, ?_, hc, hw, hmine, hreport⟩
    rw [a.events_eq]
    exact hafter
  other hm hm' resp h := by
    obtain ⟨a⟩ := exists_answer h
    exact a.conflict_other hm hm'

end Evidence

section Counted

open Ledger

/-- The ledger with a resolver: its one conflict unit is its count. -/
def countedLedger : AggregateDispatch CounterState :=
  ledgerAggregate.withCommutative fun before after =>
    .ok (if before = after then [] else ["count"])

theorem readOnly_countedLedger : countedLedger.ReadOnly :=
  ⟨readOnly_ledgerAggregate.commands, readOnly_ledgerAggregate.facts,
    readOnly_ledgerAggregate.refusals⟩

/-- A command that expected a ledger of one event and finds one of two. -/
theorem conflict_evidence_ledger :
    countedLedger.ConflictEvidence
      (increaseOver (some ⟨some 1, .commutative⟩) [increasedPage 0, increasedPage 1] 2) :=
  conflict_evidence readOnly_countedLedger (by decide)

example : (countedLedger.handle (increaseOver (some ⟨some 1, .commutative⟩)
    [increasedPage 0, increasedPage 1] 2)).result =
      .ok (raisedTo 3 (some ⟨[], ["count"], ["count"]⟩)) := rfl

end Counted

end AggregateDispatch

/-! ### A fact and its handling -/

/-- The request with no handling. -/
def withoutHandling (request : ContextualCommand) : ContextualCommand :=
  { request with command := { request.command with handling := none } }

/-- The context of an input with no handling. -/
def CommandContext.withoutHandling (ctx : CommandContext) : CommandContext :=
  { ctx with
    expectedSequence := ctx.nextSequence
    conflictResolution := .unspecified
    conflict := none }

theorem handed_withoutHandling (request : ContextualCommand) :
    handed (withoutHandling request) = (handed request).withoutHandling := by
  have hnone : handed (withoutHandling request) = context (withoutHandling request) :=
    if_neg nofun
  rw [hnone]
  unfold handed
  split
  · rfl
  · rfl

/-- The decision does not depend on its context's handling, nor on the conflict it
makes. -/
def IgnoresHandling {σ : Type} (decide : Decide σ) : Prop :=
  ∀ s ctx, decide s ctx.withoutHandling = decide s ctx

namespace AggregateDispatch

section Fact

variable [Spec] {σ : Type} [Message σ] {table : AggregateDispatch σ}
  {request : ContextualCommand}

/-- Where COMMUTATIVE took a copy, there is a resolver, and it returns on both pairs of
states. -/
def ResolverAnswers (table : AggregateDispatch σ) (before : Option σ) (head after : σ) : Prop :=
  ∀ cut, before = some cut → ∃ changed window mine, table.changed = some changed ∧
    changed cut head = .ok window ∧ changed head after = .ok mine

/-- An answer is built exactly when the resolver is not asked, or answers. -/
theorem respond_ok_iff {ctx : CommandContext} {out : EventBook} {before : Option σ}
    {head after : σ} :
    (∃ resp, (table.respond ctx out (before.map fun before => (before, head)) after).result =
      .ok resp) ↔ table.ResolverAnswers before head after := by
  rcases before with _ | cut
  · exact ⟨fun _ _ h => (nomatch h), fun _ => ⟨_, rfl⟩⟩
  · constructor
    · rintro ⟨resp, h⟩ cut' hcut
      obtain rfl := Option.some.inj hcut
      obtain ⟨changed, window, mine, hc, hw, hm, -⟩ := respond_some_eq_ok.mp h
      exact ⟨changed, window, mine, hc, hw, hm⟩
    · intro h
      obtain ⟨changed, window, mine, hc, hw, hm⟩ := h cut rfl
      exact ⟨_, respond_some_eq_ok.mpr ⟨changed, window, mine, hc, hw, hm, rfl⟩⟩

variable [Message CommandRefused] {payload : Option Any} {decide : Decide σ}
  {before : Option σ} {s after : σ} {handled : Handled σ EventBook} {pages : List EventPage}

/-- Past the decision a request whose pages are stamped and fold is answered, with the
handler's book and the state they fold to, exactly when its answer can be built. -/
theorem handle_ok_iff (hr : table.route request = .ok decide)
    (hd : (table.deliver request).result = .ok (before, s))
    (hh : decide s (handed request) = .ok handled)
    (he : stampAll (((handed request).settle handled.settled).eventMeta table.rulesVersion)
      request.events.nextSequence handled.returned.pages = .ok pages)
    (hafter : (fold handled.state pages request.events.cover table.rebuilder.appliers
      foldFailedEmitted).result = .ok after) {events : EventBook} :
    (∃ resp, (table.handle request).result = .ok resp ∧ resp.events = events) ↔
      table.ResolverAnswers before handled.state after ∧
        events = { handled.returned with
          snapshot := some { handled.returned.getSnapshot with state := some (pack after) } } := by
  rw [handle_of_handled hr hd hh, conclude_of_folded he hafter]
  constructor
  · rintro ⟨resp, hresp, rfl⟩
    exact ⟨respond_ok_iff.mp ⟨resp, hresp⟩, respond_events hresp⟩
  · rintro ⟨hans, rfl⟩
    obtain ⟨resp, hresp⟩ := respond_ok_iff.mpr hans
    exact ⟨resp, hresp, respond_events hresp⟩

/-- **When a fact is answered, whatever its handling**: a fact whose delivery folds, whose
handler returns and whose recorded pages fold is answered as without a handling exactly
when no resolver is asked, or there is one and it returns. -/
theorem fact_answered_iff (hfact : request.command.getPage.body = some (.fact payload))
    (hr : table.route request = .ok decide) (hignores : IgnoresHandling decide)
    (hd : (table.deliver request).result = .ok (before, s))
    (hh : decide s (handed request) = .ok handled)
    (he : stampAll (((handed request).settle handled.settled).eventMeta table.rulesVersion)
      request.events.nextSequence handled.returned.pages = .ok pages)
    (hafter : (fold handled.state pages request.events.cover table.rebuilder.appliers
      foldFailedEmitted).result = .ok after) :
    (∃ resp plain, (table.handle request).result = .ok resp ∧
      (table.handle (withoutHandling request)).result = .ok plain ∧
      resp.events = plain.events) ↔
    (request.command.getHandling.conflictResolution = .commutative →
      table.ResolverAnswers before handled.state after) := by
  have hr' : table.route (withoutHandling request) = .ok decide := by
    have hfact' : (withoutHandling request).command.getPage.body = some (.fact payload) := hfact
    rw [route, hfact] at hr
    rw [route, hfact', hr]
  have hd' : (table.deliver (withoutHandling request)).result = .ok (none, s) := by
    have hsnd : (table.deliver (withoutHandling request)).result.map Prod.snd = .ok s := by
      rw [(deliver_congr table request (withoutHandling request) rfl).2, hd]
      rfl
    rcases h : (table.deliver (withoutHandling request)).result with e | ⟨before', s'⟩
    · rw [h] at hsnd
      cases hsnd
    · rw [h] at hsnd
      obtain rfl := Except.ok.inj hsnd
      obtain ⟨-, cut, -, -, -, -, rfl⟩ := deliver_eq_ok h
      rfl
  have hh' : decide s (handed (withoutHandling request)) = .ok handled := by
    rw [handed_withoutHandling, hignores, hh]
  have he' : stampAll (((handed (withoutHandling request)).settle handled.settled).eventMeta
      table.rulesVersion) (withoutHandling request).events.nextSequence
        handled.returned.pages = .ok pages := by
    rw [eventMeta_settle_handed] at he ⊢
    exact he
  have hplain : table.ResolverAnswers none handled.state after := by rintro cut ⟨⟩
  constructor
  · rintro ⟨resp, plain, hresp, -, -⟩ -
    exact ((handle_ok_iff hr hd hh he hafter).mp ⟨resp, hresp, rfl⟩).1
  · intro hans
    have hans' : table.ResolverAnswers before handled.state after := by
      by_cases hm : request.command.getHandling.conflictResolution = .commutative
      · exact hans hm
      · obtain ⟨-, cut, -, -, -, -, rfl⟩ := deliver_eq_ok hd
        rw [copied, if_neg hm]
        exact hplain
    obtain ⟨resp, hresp, hev⟩ := (handle_ok_iff hr hd hh he hafter).mpr ⟨hans', rfl⟩
    obtain ⟨plain, hpl, hev'⟩ := (handle_ok_iff hr' hd' hh' he' hafter).mpr ⟨hplain, rfl⟩
    exact ⟨resp, plain, hresp, hpl, hev.trans hev'.symm⟩

end Fact

section Recorded

open Ledger

/-- A fact that expected an empty ledger and finds one of one event. -/
def staleFact : ContextualCommand :=
  recordOver (some ⟨some 0, .commutative⟩) [increasedPage 0] 1

/-- What its handler records: the fact, flagged by the count it brings the ledger to. -/
def flagged : EventBook where
  cover := none
  pages := [⟨0, some increasedEvent, none⟩, ⟨0, some (pack (⟨2⟩ : CounterState)), none⟩]
  snapshot := none
  nextSequence := 0

/-- A ledger with a resolver records it. -/
theorem fact_answered_iff_ledger :
    (∃ resp plain, (countedLedger.handle staleFact).result = .ok resp ∧
      (countedLedger.handle (withoutHandling staleFact)).result = .ok plain ∧
      resp.events = plain.events) ↔
    (staleFact.command.getHandling.conflictResolution = .commutative →
      countedLedger.ResolverAnswers (some ⟨0⟩) ⟨1⟩ ⟨2⟩) := by
  have hr : countedLedger.route staleFact =
      .ok fun s ctx => (record increasedEvent s ctx).map (Handled.map FactRecord.book) := rfl
  have hd : (countedLedger.deliver staleFact).result = .ok (some ⟨0⟩, ⟨1⟩) := rfl
  have hh : (record increasedEvent ⟨1⟩ (handed staleFact)).map (Handled.map FactRecord.book) =
      .ok ⟨flagged, ⟨1⟩, []⟩ := rfl
  have hafter : (fold (⟨1⟩ : CounterState) (countedLedger.emitted staleFact flagged)
      staleFact.events.cover countedLedger.rebuilder.appliers foldFailedEmitted).result =
        .ok ⟨2⟩ := rfl
  exact fact_answered_iff rfl hr (fun _ _ => rfl) hd hh rfl hafter

/-- A ledger without one refuses it for its handling: the fact is declared, its delivery
folds, its handler returns without reading the handling and what it records folds, and
still the answer is the error of a handler that panicked. -/
theorem fact_refused_for_handling :
    (∃ decide, ledgerAggregate.route staleFact = .ok decide ∧ IgnoresHandling decide ∧
      (ledgerAggregate.deliver staleFact).result = .ok (some ⟨0⟩, ⟨1⟩) ∧
      ∃ handled, decide ⟨1⟩ (handed staleFact) = .ok handled ∧
        (ledgerAggregate.emit staleFact ((handed staleFact).settle handled.settled)
          handled.state handled.returned).result = .ok ⟨2⟩) ∧
    (ledgerAggregate.handle staleFact).result = .error (.coded
      ⟨unhandledHandlerError, GrpcCode.internal.number,
        Dict.ofList [(ReasonArg.cause.name, handlerPanicked)], none⟩) ∧
    ∃ plain, (ledgerAggregate.handle (withoutHandling staleFact)).result = .ok plain := by
  refine ⟨⟨fun s ctx => (record increasedEvent s ctx).map (Handled.map FactRecord.book), rfl,
    fun _ _ => rfl, rfl, ⟨_, rfl, rfl⟩⟩, rfl, _, rfl⟩

end Recorded

end AggregateDispatch

end Router

end AngzarrClient
