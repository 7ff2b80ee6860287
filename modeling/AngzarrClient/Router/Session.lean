import AngzarrClient.Lib.EventSourced
import AngzarrClient.Lib.Run
import AngzarrClient.Router.Replay

/-!
# A stream over many deliveries

One answer is not what an aggregate is for: its pages are stored, and every later input of
the stream is delivered over them. Here a stream lives through any number of deliveries
(`AngzarrClient.Router.Delivery.act`), each answered by a table of its own – the component
is rebuilt and released meanwhile – and each delivered over the whole journal or over what
lies past a state stored on the way.

A stream so built keeps a sound store of the folded states
(`AngzarrClient.Router.Stream.Keeps`, `EventSourced.Store.Sound`), as long as its tables
share the rebuilder, whose state factory returns, and their handlers leave the state alone.
Two results about every run follow.

* **No stored page is ever refused.** The journal folds, whatever was decided, and each
  routed input has its handler called on the state it folds to
  (`AngzarrClient.Router.Delivery.stream_folds`).
* **Where a delivery resumes is never seen.** A run comes to the same stream, and each of
  its inputs to the same answer, as the run that starts every delivery from scratch
  (`AngzarrClient.Router.Delivery.resuming_is_unseen`). Deliveries have to fit
  (`AngzarrClient.Router.Delivery.Fits`): none resumes from a stream without pages, whose
  stored state would be the only evidence of a history, and none past the sequence its input
  expects, where its handling reads the cut there; a stored state past it hides the events
  the input has not seen.
-/

namespace AngzarrClient

namespace Router

open EventSourced (Machine Checkpoint Store)

/-! ### The stream -/

/-- A stored state: an answer's snapshot, and how many pages of the stream it is after. -/
structure Stored where
  count : ℕ
  snapshot : Snapshot
  deriving DecidableEq

/-- A stream as the coordinator keeps it. -/
structure Stream where
  journal : List EventPage
  stored : List Stored
  deriving DecidableEq

/-- The stream with nothing in it. -/
def Stream.empty : Stream := ⟨[], []⟩

/-- An input of a stream: the table that answers it, the command or fact as it is
delivered, and the stored state it resumes from, if any. -/
structure Delivery (σ : Type) where
  table : AggregateDispatch σ
  command : CommandBook
  recordedAt : Option Timestamp
  conflictNonce : Bytes
  resume : Option ℕ

namespace Delivery

section Step

variable {σ : Type}

/-- The stored state a delivery resumes from. -/
def resumed (d : Delivery σ) (stream : Stream) : Option Stored :=
  d.resume.bind fun i => stream.stored[i]?

/-- The delivery without a stored state. -/
def scratch (d : Delivery σ) : Delivery σ := { d with resume := none }

/-- The input over pages of its stream, and a snapshot or none. -/
def contextual (cover : Option Cover) (stream : Stream) (d : Delivery σ) (pages : List EventPage)
    (snapshot : Option Snapshot) : ContextualCommand where
  command := d.command
  events := ⟨cover, pages, snapshot, stream.journal.length⟩
  recordedAt := d.recordedAt
  conflictNonce := d.conflictNonce

/-- The input over its history: the whole journal, or a stored state and the pages past
it. -/
def request (cover : Option Cover) (stream : Stream) (d : Delivery σ) : ContextualCommand :=
  match d.resumed stream with
  | none => d.contextual cover stream stream.journal none
  | some stored =>
    d.contextual cover stream (stream.journal.drop stored.count) (some stored.snapshot)

theorem request_of_none {cover : Option Cover} {stream : Stream} {d : Delivery σ}
    (h : d.resumed stream = none) :
    d.request cover stream = d.contextual cover stream stream.journal none := by
  rw [request, h]

theorem request_of_some {cover : Option Cover} {stream : Stream} {d : Delivery σ}
    {stored : Stored} (h : d.resumed stream = some stored) :
    d.request cover stream =
      d.contextual cover stream (stream.journal.drop stored.count) (some stored.snapshot) := by
  rw [request, h]

/-! Resumed or not, the rest of the input is its own. -/

section Request

variable (cover : Option Cover) (stream : Stream) (d : Delivery σ)

@[simp] theorem request_command : (d.request cover stream).command = d.command := by
  unfold request
  split <;> rfl

@[simp] theorem request_recordedAt : (d.request cover stream).recordedAt = d.recordedAt := by
  unfold request
  split <;> rfl

@[simp] theorem request_conflictNonce :
    (d.request cover stream).conflictNonce = d.conflictNonce := by
  unfold request
  split <;> rfl

@[simp] theorem request_cover : (d.request cover stream).events.cover = cover := by
  unfold request
  split <;> rfl

@[simp] theorem request_nextSequence :
    (d.request cover stream).events.nextSequence = stream.journal.length := by
  unfold request
  split <;> rfl

end Request

variable [Spec] [Message σ] [Message CommandRefused]

/-- What the input comes to. -/
def answer (cover : Option Cover) (stream : Stream) (d : Delivery σ) :
    Traced (Call σ) Exc CommandHandlerResponse :=
  d.table.handle (d.request cover stream)

/-- **One delivery**: an answer's pages are stored, and its state with them; an error
leaves the stream as it was. -/
def act (cover : Option Cover) (stream : Stream) (d : Delivery σ) : Stream :=
  match (d.answer cover stream).result with
  | .ok resp =>
    let journal := stream.journal ++ d.table.persisted (d.request cover stream) resp
    ⟨journal, stream.stored ++ [⟨journal.length, resp.events.getSnapshot⟩]⟩
  | .error _ => stream

end Step

end Delivery

/-! ### The fold of a stream -/

/-- The state a stream's pages fold to. -/
def machine [Spec] {σ : Type} [Message σ] (rebuilder : Rebuilder σ) (fresh : σ)
    (cover : Option Cover) : Machine σ EventPage where
  start := fresh
  evolve s page := (foldPage cover rebuilder.appliers foldFailed s page).result.toOption

/-- A stream keeps a store: its journal, and each stored state is a checkpoint of it, as an
answer packed that. -/
structure Stream.Keeps {σ : Type} [Message σ] (stream : Stream) (store : Store σ EventPage) :
    Prop where
  journal_eq : store.journal = stream.journal
  stored : ∀ stored ∈ stream.stored, ∃ c ∈ store.checkpoints,
    stored.count = c.count ∧ stored.snapshot.state = some (pack c.state)

/-- The pages of a stream are numbered from nought. -/
def Stream.Numbered (stream : Stream) : Prop :=
  stream.journal.map EventPage.sequence = List.range stream.journal.length

/-- **A sound stream**: its pages are numbered from nought, and it keeps a sound store of
what they fold to. -/
structure Stream.Sound [Spec] {σ : Type} [Message σ] (rebuilder : Rebuilder σ) (fresh : σ)
    (cover : Option Cover) (stream : Stream) : Prop where
  numbered : stream.Numbered
  keeps : ∃ store : Store σ EventPage, stream.Keeps store ∧
    store.Sound (machine rebuilder fresh cover)

private theorem toOption_eq_some {ε α : Type} {r : Except ε α} {a : α} :
    r.toOption = some a ↔ r = .ok a := by
  cases r <;> simp [Except.toOption]

section Fold

variable [Spec] {σ : Type} [Message σ] {rebuilder : Rebuilder σ} {fresh : σ}
  {cover : Option Cover}

/-- The machine folds as the component does. -/
theorem foldlM_evolve_eq_some {s s' : σ} {pages : List EventPage} :
    pages.foldlM (machine rebuilder fresh cover).evolve s = some s' ↔
      (fold s pages cover rebuilder.appliers foldFailed).result = .ok s' := by
  induction pages generalizing s with
  | nil => simp [fold_nil, pure]
  | cons page pages ih =>
    rw [fold_cons, Traced.result_bind_eq_ok, List.foldlM_cons, Option.bind_eq_bind,
      Option.bind_eq_some_iff]
    simp only [machine, toOption_eq_some] at ih ⊢
    exact exists_congr fun s₁ => and_congr_right fun _ => ih

/-- The starting state of a book that resumes nowhere is a fresh one. -/
theorem startState_of_none {factory : Except Exc σ} {book : EventBook}
    (hfresh : factory = .ok fresh) (h : book.snapshot = none) :
    startState factory book = .ok fresh := by
  simp only [startState, hfresh, EventBook.getSnapshot, h]
  rfl

/-- The starting state of a book that carries a packed state is that state. -/
theorem startState_of_packed {factory : Except Exc σ} {book : EventBook} {s : σ}
    (hfresh : factory = .ok fresh) (h : book.getSnapshot.state = some (pack s)) :
    startState factory book = .ok s := by
  simp only [startState, hfresh, h, pack, Message.parse_serialize]
  rfl

end Fold

/-! ### One delivery -/

section Answered

variable [Spec] {σ : Type} [Message σ] [Message CommandRefused] {table : AggregateDispatch σ}
  {request : ContextualCommand} {resp : CommandHandlerResponse}

/-- An answer's pages, as the coordinator stores them, are the ones folded at decide
time. -/
theorem AggregateDispatch.Answer.persisted_eq (a : table.Answer request resp) :
    table.persisted request resp = table.emitted request a.handled.returned := by
  rw [AggregateDispatch.persisted, a.events_eq, AggregateDispatch.emitted, stamped]
  rfl

omit [Spec] [Message σ] [Message CommandRefused] in
/-- Stored pages are numbered on from the delivered next sequence. -/
theorem AggregateDispatch.map_sequence_persisted (table : AggregateDispatch σ)
    (request : ContextualCommand) (resp : CommandHandlerResponse) :
    (table.persisted request resp).map EventPage.sequence =
      List.range' request.events.nextSequence resp.events.pages.length := by
  refine List.ext_getElem (by simp [AggregateDispatch.persisted]) fun i h₁ h₂ => ?_
  simp [AggregateDispatch.persisted]

end Answered

namespace Delivery

section Delivered

variable [Spec] {σ : Type} [Message σ] [Message CommandRefused] {rebuilder : Rebuilder σ}
  {fresh : σ} {cover : Option Cover} {stream : Stream} {store : Store σ EventPage}
  {d : Delivery σ} {resp : CommandHandlerResponse}

theorem act_of_ok (h : (d.answer cover stream).result = .ok resp) :
    d.act cover stream =
      ⟨stream.journal ++ d.table.persisted (d.request cover stream) resp,
        stream.stored ++ [⟨(stream.journal ++
          d.table.persisted (d.request cover stream) resp).length,
            resp.events.getSnapshot⟩]⟩ := by
  rw [act, h]

theorem act_of_error {e : Exc} (h : (d.answer cover stream).result = .error e) :
    d.act cover stream = stream := by
  rw [act, h]

omit [Spec] [Message σ] [Message CommandRefused] in
theorem resumed_mem {stored : Stored} (h : d.resumed stream = some stored) :
    stored ∈ stream.stored := by
  rw [resumed, Option.bind_eq_some_iff] at h
  obtain ⟨i, -, hi⟩ := h
  exact List.mem_of_getElem? hi

omit [Message CommandRefused] in
/-- A stored state is what the pages before it fold to. -/
theorem exists_checkpoint {stored : Stored} (h : d.resumed stream = some stored)
    (hk : stream.Keeps store) (hs : store.Sound (machine rebuilder fresh cover)) :
    ∃ c : Checkpoint σ, stored.count = c.count ∧ stored.snapshot.state = some (pack c.state) ∧
      c.Valid (machine rebuilder fresh cover) stream.journal := by
  obtain ⟨c, hmem, hcount, hstate⟩ := hk.stored stored (resumed_mem h)
  refine ⟨c, hcount, hstate, ?_⟩
  rw [← hk.journal_eq]
  exact hs.checkpoints c hmem

omit [Message CommandRefused] in
/-- **A delivery over a sound store folds to the state of the whole journal**, wherever it
resumes. -/
theorem exists_start (hfresh : rebuilder.factory = .ok fresh) (hd : d.table.rebuilder = rebuilder)
    (hk : stream.Keeps store) (hs : store.Sound (machine rebuilder fresh cover)) {s : σ}
    (hstate : (machine rebuilder fresh cover).state stream.journal = some s) :
    ∃ start, startState d.table.rebuilder.factory (d.request cover stream).events = .ok start ∧
      (d.table.replayed (d.request cover stream) start).result = .ok s := by
  subst hd
  cases hres : d.resumed stream with
  | none =>
    rw [request_of_none hres]
    exact ⟨fresh, startState_of_none hfresh rfl, foldlM_evolve_eq_some.mp hstate⟩
  | some stored =>
    obtain ⟨c, hcount, hpacked, hvalid⟩ := exists_checkpoint hres hk hs
    rw [request_of_some hres]
    refine ⟨c.state, startState_of_packed hfresh hpacked, ?_⟩
    rw [hcount]
    exact foldlM_evolve_eq_some.mp (hvalid.resume.trans hstate)

/-- **One delivery keeps a sound store.** An answer records the pages it stores, with the
state after them; an error records nothing. -/
theorem exists_store_act (hfresh : rebuilder.factory = .ok fresh)
    (hd : d.table.rebuilder = rebuilder) (hro : d.table.ReadOnly) (hk : stream.Keeps store)
    (hs : store.Sound (machine rebuilder fresh cover)) :
    ∃ store' : Store σ EventPage, (d.act cover stream).Keeps store' ∧
      store'.Sound (machine rebuilder fresh cover) := by
  subst hd
  cases h : (d.answer cover stream).result with
  | error e => exact ⟨store, by rwa [act_of_error h], hs⟩
  | ok resp =>
    obtain ⟨s, hstate⟩ := hs.folds
    have hjournal := hstate
    rw [hk.journal_eq] at hjournal
    obtain ⟨start, hstart, hreplayed⟩ := exists_start hfresh rfl hk hs hjournal
    obtain ⟨a⟩ := AggregateDispatch.exists_answer h
    -- the answer's stages are those of this delivery: it was made on the journal's state
    obtain rfl : start = a.start := Except.ok.inj (hstart.symm.trans a.start_eq)
    obtain rfl : s = a.delivered := Except.ok.inj (hreplayed.symm.trans a.replayed_eq)
    have hafter : (d.table.persisted (d.request cover stream) resp).foldlM
        (machine d.table.rebuilder fresh cover).evolve a.delivered = some a.after := by
      have hfold := a.after_eq
      rw [a.state_eq hro, request_cover] at hfold
      rw [a.persisted_eq]
      exact foldlM_evolve_eq_some.mpr ((congrArg Traced.result (fold_eq_of_ok hfold _)).trans
        hfold)
    refine ⟨store.record (d.table.persisted (d.request cover stream) resp) a.after, ?_,
      hs.record hstate hafter⟩
    rw [act_of_ok h]
    refine ⟨congrArg (· ++ _) hk.journal_eq, fun stored hmem => ?_⟩
    rcases List.mem_append.mp hmem with hmem | hmem
    · obtain ⟨c, hc, heq⟩ := hk.stored stored hmem
      exact ⟨c, List.mem_append_left _ hc, heq⟩
    · obtain rfl := List.mem_singleton.mp hmem
      refine ⟨_, List.mem_append_right _ (List.mem_singleton_self _), ?_, ?_⟩
      · rw [hk.journal_eq]
      · rw [a.events_eq]
        rfl

/-- A delivery keeps a stream numbered. -/
theorem numbered_act (h : stream.Numbered) (d : Delivery σ) : (d.act cover stream).Numbered := by
  cases hr : (d.answer cover stream).result with
  | error e => rwa [act_of_error hr]
  | ok resp =>
    rw [Stream.Numbered] at h
    rw [act_of_ok hr, Stream.Numbered, List.map_append, h,
      AggregateDispatch.map_sequence_persisted, List.length_append, List.range_eq_range',
      List.range_eq_range', ← List.range'_append_1]
    simp [AggregateDispatch.persisted]

/-- **A run keeps its stream sound.** -/
theorem sound_run (hfresh : rebuilder.factory = .ok fresh) {deliveries : List (Delivery σ)}
    (h : ∀ d ∈ deliveries, d.table.rebuilder = rebuilder ∧ d.table.ReadOnly) :
    (Run.run (act cover) .empty deliveries).Sound rebuilder fresh cover := by
  refine Run.invariant_run (P := fun _ d => d.table.rebuilder = rebuilder ∧ d.table.ReadOnly)
    (fun stream d hinv hd => ?_) ?_ (Run.along_of_forall fun d hmem _ => h d hmem)
  · obtain ⟨store, hk, hs⟩ := hinv.keeps
    exact ⟨numbered_act hinv.numbered d, exists_store_act hfresh hd.1 hd.2 hk hs⟩
  · exact ⟨rfl, .empty, ⟨rfl, fun _ hmem => absurd hmem List.not_mem_nil⟩,
      EventSourced.Store.sound_empty _⟩

omit [Message CommandRefused] in
/-- A sound stream folds. -/
theorem exists_fold (h : stream.Sound rebuilder fresh cover) :
    ∃ s, (fold fresh stream.journal cover rebuilder.appliers foldFailed).result = .ok s := by
  obtain ⟨-, store, hk, hs⟩ := h
  obtain ⟨s, hstate⟩ := hs.folds
  rw [hk.journal_eq] at hstate
  exact ⟨s, foldlM_evolve_eq_some.mp hstate⟩

/-- **An input of a sound stream has its handler called on what the stream folds to**, once,
wherever it resumes. -/
theorem handler_on_fold (hfresh : rebuilder.factory = .ok fresh)
    (h : stream.Sound rebuilder fresh cover) {s : σ}
    (hfold : (fold fresh stream.journal cover rebuilder.appliers foldFailed).result = .ok s)
    (hd : d.table.rebuilder = rebuilder) {decide : Decide σ}
    (hr : d.table.route (d.request cover stream) = .ok decide) :
    ∃ first rest, (d.answer cover stream).log =
        first ++ .handler (PageContext.ofCover d.command.cover) s
          (handed (d.request cover stream)) :: rest ∧
      (∀ c ∈ first, c.isApplier = true) ∧ ∀ c ∈ rest, c.isHandler = false := by
  obtain ⟨-, store, hk, hs⟩ := h
  obtain ⟨start, hstart, hreplayed⟩ :=
    exists_start hfresh hd hk hs (foldlM_evolve_eq_some.mpr hfold)
  obtain ⟨rest, hlog, hrest⟩ := AggregateDispatch.handle_log_of_replayed hr hstart hreplayed
  rw [handed_cover, request_command] at hlog
  refine ⟨_, rest, hlog, fun c hc => ?_, hrest⟩
  obtain ⟨event, page, rfl⟩ := isApplier_of_mem_fold hc
  rfl

/-- **No stored page is ever refused.** After any deliveries the stream's pages are numbered
from nought and fold; and whatever is delivered next, wherever it resumes, once it is routed
its handler is called, once, on the state they fold to. -/
theorem stream_folds (cover : Option Cover) (hfresh : rebuilder.factory = .ok fresh)
    {deliveries : List (Delivery σ)}
    (h : ∀ d ∈ deliveries, d.table.rebuilder = rebuilder ∧ d.table.ReadOnly) :
    (Run.run (act cover) .empty deliveries).Numbered ∧
      ∃ s, (fold fresh (Run.run (act cover) .empty deliveries).journal cover rebuilder.appliers
          foldFailed).result = .ok s ∧
        ∀ d : Delivery σ, d.table.rebuilder = rebuilder → ∀ decide,
          d.table.route (d.request cover (Run.run (act cover) .empty deliveries)) = .ok decide →
          ∃ first rest, (d.answer cover (Run.run (act cover) .empty deliveries)).log =
              first ++ .handler (PageContext.ofCover d.command.cover) s
                (handed (d.request cover (Run.run (act cover) .empty deliveries))) :: rest ∧
            (∀ c ∈ first, c.isApplier = true) ∧ ∀ c ∈ rest, c.isHandler = false := by
  have hsound : (Run.run (act cover) .empty deliveries).Sound rebuilder fresh cover :=
    sound_run hfresh h
  obtain ⟨s, hfold⟩ := exists_fold hsound
  exact ⟨hsound.numbered, s, hfold, fun d hd decide hr => handler_on_fold hfresh hsound hfold hd hr⟩

end Delivered

/-! ### Where a delivery resumes -/

section Resumed

variable {σ : Type} {cover : Option Cover} {stream : Stream} {d : Delivery σ}

/-- The sequence an input expects: the one its handling gives, or the stream's next. -/
def expected (stream : Stream) (d : Delivery σ) : ℕ :=
  d.command.getHandling.expectedSequence.getD stream.journal.length

/-- Whether an input's handling reads the history at the expected sequence. -/
def ReadsCut (d : Delivery σ) : Prop :=
  d.command.getHandling.conflictResolution = .commutative ∨
    d.command.getHandling.conflictResolution = .aggregateHandles

/-- A delivery resumes from a stream that has pages, and not past the sequence its input
expects where its handling reads the cut there. -/
structure Fits (stream : Stream) (d : Delivery σ) : Prop where
  started : ∀ stored, d.resumed stream = some stored → stream.journal ≠ []
  within : d.ReadsCut → ∀ stored, d.resumed stream = some stored →
    stored.count ≤ d.expected stream

@[simp] theorem scratch_command : d.scratch.command = d.command := rfl

@[simp] theorem scratch_conflictNonce : d.scratch.conflictNonce = d.conflictNonce := rfl

theorem request_scratch : d.scratch.request cover stream =
    d.contextual cover stream stream.journal none := rfl

/-- A stream with pages is evidence of a history, and so is a stored state of it. -/
theorem context_scratch (h : d.Fits stream) :
    context (d.scratch.request cover stream) = context (d.request cover stream) := by
  rw [request_scratch]
  cases hres : d.resumed stream with
  | none => rw [request_of_none hres]
  | some stored =>
    have hpages : stream.journal.isEmpty = false :=
      List.isEmpty_eq_false_iff.mpr (h.started stored hres)
    rw [request_of_some hres]
    simp [context, contextual, hpages]

/-- What a delivery resumes past lies before the sequence its input expects: the whole
journal is cut that much further on. -/
theorem seen_scratch (cover : Option Cover) (h : d.Fits stream) (hnum : stream.Numbered)
    (hcut : d.ReadsCut) {stored : Stored} (hres : d.resumed stream = some stored)
    (hle : stored.count ≤ stream.journal.length) :
    seen (d.scratch.request cover stream) = stored.count + seen (d.request cover stream) := by
  have hbelow : ∀ page ∈ stream.journal.take stored.count, page.sequence < d.expected stream := by
    intro page hmem
    have hmap : page.sequence ∈ (stream.journal.take stored.count).map EventPage.sequence :=
      List.mem_map_of_mem hmem
    rw [List.map_take, hnum, List.take_range, List.mem_range] at hmap
    have := h.within hcut stored hres
    omega
  have hexp : (context (d.request cover stream)).expectedSequence = d.expected stream := by
    rw [request_of_some hres]
    rfl
  have hall : ((stream.journal.take stored.count).countP fun page =>
      page.sequence < d.expected stream) = stored.count := by
    rw [List.countP_eq_length.mpr fun page hp => decide_eq_true (hbelow page hp),
      List.length_take, Nat.min_eq_left hle]
  rw [seen, seen, context_scratch h, hexp, request_of_some hres, request_scratch]
  change stream.journal.countP _ = stored.count + (stream.journal.drop stored.count).countP _
  conv_lhs => rw [← List.take_append_drop stored.count stream.journal, List.countP_append, hall]

/-- So the cut leaves the same pages past it. -/
theorem drop_seen_scratch (cover : Option Cover) (h : d.Fits stream) (hnum : stream.Numbered)
    (hcut : d.ReadsCut)
    (hle : ∀ stored, d.resumed stream = some stored → stored.count ≤ stream.journal.length) :
    (d.scratch.request cover stream).events.pages.drop (seen (d.scratch.request cover stream)) =
      (d.request cover stream).events.pages.drop (seen (d.request cover stream)) := by
  cases hres : d.resumed stream with
  | none => rw [request_scratch, request_of_none hres]
  | some stored =>
    have hpages : (d.request cover stream).events.pages = stream.journal.drop stored.count := by
      rw [request_of_some hres]
      rfl
    rw [seen_scratch cover h hnum hcut hres (hle stored hres), hpages, List.drop_drop]
    rfl

/-- And the handler is handed one context. -/
theorem handed_scratch (h : d.Fits stream) (hnum : stream.Numbered)
    (hle : ∀ stored, d.resumed stream = some stored → stored.count ≤ stream.journal.length) :
    handed (d.scratch.request cover stream) = handed (d.request cover stream) := by
  by_cases hag : d.command.getHandling.conflictResolution = .aggregateHandles
  · have hdrop := drop_seen_scratch cover h hnum (Or.inr hag) hle
    simp only [handed, hdrop, context_scratch h, request_command, request_conflictNonce,
      scratch_command, scratch_conflictNonce]
  · simp only [handed, context_scratch h, request_command, scratch_command, if_neg hag]

variable [Spec] [Message σ] {rebuilder : Rebuilder σ} {fresh : σ} {store : Store σ EventPage}

/-- Where the cut is read, either way it lies at the same state. -/
theorem cut_scratch (h : d.Fits stream) (hnum : stream.Numbered) (hcut : d.ReadsCut)
    {stored : Stored} (hres : d.resumed stream = some stored) {c : Checkpoint σ}
    (hcount : stored.count = c.count)
    (hvalid : c.Valid (machine d.table.rebuilder fresh cover) stream.journal) {cut cut' : σ}
    (hresumed : (fold c.state ((d.request cover stream).events.pages.take
        (seen (d.request cover stream))) (d.request cover stream).events.cover
      d.table.rebuilder.appliers foldFailed).result = .ok cut)
    (hwhole : (fold fresh ((d.scratch.request cover stream).events.pages.take
        (seen (d.scratch.request cover stream))) (d.scratch.request cover stream).events.cover
      d.table.rebuilder.appliers foldFailed).result = .ok cut') : cut = cut' := by
  have hpages : (d.request cover stream).events.pages = stream.journal.drop stored.count := by
    rw [request_of_some hres]
    rfl
  have hfolded : (fold fresh (stream.journal.take stored.count) cover d.table.rebuilder.appliers
      foldFailed).result = .ok c.state := by
    rw [hcount]
    exact foldlM_evolve_eq_some.mp hvalid.state_eq
  have hle : stored.count ≤ stream.journal.length := hcount ▸ hvalid.le
  rw [seen_scratch cover h hnum hcut hres hle, request_scratch] at hwhole
  change (fold fresh (stream.journal.take (stored.count + seen (d.request cover stream))) cover
    d.table.rebuilder.appliers foldFailed).result = .ok cut' at hwhole
  rw [List.take_add, fold_append_result hfolded, ← hpages] at hwhole
  rw [request_cover] at hresumed
  exact Except.ok.inj (hresumed.symm.trans hwhole)

/-- **Either way the delivery comes to the same state**, and the same copy of it at the
cut. -/
theorem deliver_scratch (hfresh : rebuilder.factory = .ok fresh)
    (hd : d.table.rebuilder = rebuilder) (hnum : stream.Numbered) (hk : stream.Keeps store)
    (hs : store.Sound (machine rebuilder fresh cover)) (h : d.Fits stream) :
    ∃ delivered, (d.table.deliver (d.scratch.request cover stream)).result = .ok delivered ∧
      (d.table.deliver (d.request cover stream)).result = .ok delivered := by
  subst hd
  obtain ⟨s, hstate⟩ := hs.folds
  rw [hk.journal_eq] at hstate
  obtain ⟨start, hstart, hreplayed⟩ := exists_start hfresh rfl hk hs hstate
  obtain ⟨cut, hcut, hdel⟩ := AggregateDispatch.deliver_of_replayed hstart hreplayed
  cases hres : d.resumed stream with
  | none =>
    rw [request_scratch, ← request_of_none hres]
    exact ⟨_, congrArg Traced.result hdel, congrArg Traced.result hdel⟩
  | some stored =>
    obtain ⟨c, hcount, hpacked, hvalid⟩ := exists_checkpoint hres hk hs
    obtain rfl : start = c.state := by
      rw [request_of_some hres] at hstart
      exact Except.ok.inj (hstart.symm.trans (startState_of_packed hfresh hpacked))
    have hfromFresh : startState d.table.rebuilder.factory
        (d.scratch.request cover stream).events = .ok fresh := startState_of_none hfresh rfl
    have hwhole : (d.table.replayed (d.scratch.request cover stream) fresh).result = .ok s :=
      foldlM_evolve_eq_some.mp hstate
    obtain ⟨cut', hcut', hdel'⟩ := AggregateDispatch.deliver_of_replayed hfromFresh hwhole
    have hcopied : AggregateDispatch.copied (d.request cover stream) cut =
        AggregateDispatch.copied (d.scratch.request cover stream) cut' := by
      by_cases hcom : d.command.getHandling.conflictResolution = .commutative
      · rw [cut_scratch h hnum (Or.inl hcom) hres hcount hvalid hcut hcut']
        simp only [AggregateDispatch.copied, request_command, scratch_command]
      · simp only [AggregateDispatch.copied, request_command, scratch_command, if_neg hcom]
    refine ⟨_, congrArg Traced.result hdel', ?_⟩
    rw [hdel, hcopied]

variable [Message CommandRefused]

/-- **Either way the input comes to the same answer**, or the same error. -/
theorem answer_scratch (hfresh : rebuilder.factory = .ok fresh)
    (hd : d.table.rebuilder = rebuilder) (hsound : stream.Sound rebuilder fresh cover)
    (h : d.Fits stream) :
    (d.scratch.answer cover stream).result = (d.answer cover stream).result := by
  obtain ⟨store, hk, hs⟩ := hsound.keeps
  obtain ⟨delivered, hwhole, hresumed⟩ := deliver_scratch hfresh hd hsound.numbered hk hs h
  have hroute : d.table.route (d.scratch.request cover stream) =
      d.table.route (d.request cover stream) := by
    rw [AggregateDispatch.route, AggregateDispatch.route, request_command, request_command,
      scratch_command]
  have hhanded : handed (d.scratch.request cover stream) = handed (d.request cover stream) := by
    refine handed_scratch h hsound.numbered fun stored hres => ?_
    obtain ⟨c, hcount, -, hvalid⟩ := exists_checkpoint hres hk hs
    rw [hcount]
    exact hvalid.le
  rw [answer, answer]
  change (d.table.handle (d.scratch.request cover stream)).result = _
  cases hr : d.table.route (d.request cover stream) with
  | error e =>
    rw [AggregateDispatch.handle_of_route_error (hroute.trans hr),
      AggregateDispatch.handle_of_route_error hr]
  | ok decide =>
    have hconclude : ∀ handled,
        d.table.conclude (d.scratch.request cover stream) delivered.1 handled =
          d.table.conclude (d.request cover stream) delivered.1 handled :=
      AggregateDispatch.conclude_congr hhanded (by simp) (by simp) delivered.1
    rw [AggregateDispatch.handle_of_route (hroute.trans hr), AggregateDispatch.handle_of_route hr,
      Traced.bind_of_ok hwhole, Traced.bind_of_ok hresumed, hhanded]
    simp only [hconclude]

/-- **Either way the delivery leaves the same stream.** -/
theorem act_scratch (hfresh : rebuilder.factory = .ok fresh)
    (hd : d.table.rebuilder = rebuilder) (hsound : stream.Sound rebuilder fresh cover)
    (h : d.Fits stream) : d.scratch.act cover stream = d.act cover stream := by
  have hsame := answer_scratch hfresh hd hsound h
  cases hr : (d.answer cover stream).result with
  | error e => rw [act_of_error hr, act_of_error (hsame.trans hr)]
  | ok resp =>
    have hpersisted : d.scratch.table.persisted (d.scratch.request cover stream) resp =
        d.table.persisted (d.request cover stream) resp := by
      simp only [AggregateDispatch.persisted, request_command, request_recordedAt,
        request_nextSequence]
      rfl
    rw [act_of_ok hr, act_of_ok (hsame.trans hr), hpersisted]

/-- A run that starts every delivery from scratch comes to the same stream. -/
theorem run_scratch (hfresh : rebuilder.factory = .ok fresh) {deliveries : List (Delivery σ)}
    (h : ∀ d ∈ deliveries, d.table.rebuilder = rebuilder ∧ d.table.ReadOnly)
    (hfits : Run.Along (act cover) (fun stream d => d.Fits stream) .empty deliveries) :
    Run.run (act cover) .empty (deliveries.map scratch) =
      Run.run (act cover) .empty deliveries := by
  induction deliveries using List.reverseRecOn with
  | nil => rfl
  | append_singleton deliveries d ih =>
    have hpre : ∀ d ∈ deliveries, d.table.rebuilder = rebuilder ∧ d.table.ReadOnly :=
      fun d hmem => h d (List.mem_append_left _ hmem)
    have hd := h d (List.mem_append_right _ (List.mem_singleton_self d))
    rw [List.map_append, List.map_singleton, Run.run_concat, Run.run_concat,
      ih hpre hfits.of_append]
    exact act_scratch hfresh hd.1 (sound_run hfresh hpre) hfits.last

/-- **Where a delivery resumes is never seen.** A run whose deliveries fit comes to the same
stream, and each of its inputs to the same answer or the same error, as the run that starts
every delivery from scratch. -/
theorem resuming_is_unseen (cover : Option Cover) (hfresh : rebuilder.factory = .ok fresh)
    {deliveries : List (Delivery σ)}
    (h : ∀ d ∈ deliveries, d.table.rebuilder = rebuilder ∧ d.table.ReadOnly)
    (hfits : Run.Along (act cover) (fun stream d => d.Fits stream) .empty deliveries) :
    Run.run (act cover) .empty (deliveries.map scratch) = Run.run (act cover) .empty deliveries ∧
      ∀ pre d post, deliveries = pre ++ d :: post →
        (d.scratch.answer cover (Run.run (act cover) .empty (pre.map scratch))).result =
          (d.answer cover (Run.run (act cover) .empty pre)).result := by
  refine ⟨run_scratch hfresh h hfits, ?_⟩
  rintro pre d post rfl
  have hpre : ∀ d ∈ pre, d.table.rebuilder = rebuilder ∧ d.table.ReadOnly :=
    fun d hmem => h d (List.mem_append_left _ hmem)
  have hd := h d (List.mem_append_right _ (List.mem_cons_self ..))
  rw [run_scratch hfresh hpre hfits.of_append]
  exact answer_scratch hfresh hd.1 (sound_run hfresh hpre) (hfits pre d post rfl)

end Resumed

section Raised

open Ledger

/-- An `IncreaseBy` of the ledger's stream, under the build it is answered by. -/
def increase (version : String) (handling : Option Handling) (resume : Option ℕ) :
    Delivery CounterState where
  table := ledgerAggregate.withRulesVersion version
  command := (increaseOver handling [] 0).command
  recordedAt := none
  conflictNonce := [9]
  resume := resume

/-- Two builds of a ledger: the second answers from the state the first one stored, a
command that has seen the first event. -/
def twoIncreases : List (Delivery CounterState) :=
  [increase "v1" none none, increase "v2" (some ⟨some 1, .aggregateHandles⟩) (some 0)]

theorem twoIncreases_rebuilder :
    ∀ d ∈ twoIncreases, d.table.rebuilder = ledgerAggregate.rebuilder ∧ d.table.ReadOnly := by
  have hro (version : String) : (ledgerAggregate.withRulesVersion version).ReadOnly :=
    ⟨readOnly_ledgerAggregate.commands, readOnly_ledgerAggregate.facts,
      readOnly_ledgerAggregate.refusals⟩
  intro d hmem
  rcases List.mem_cons.mp hmem with rfl | hmem
  · exact ⟨rfl, hro "v1"⟩
  · obtain rfl := List.mem_singleton.mp hmem
    exact ⟨rfl, hro "v2"⟩

/-- After the two, a third build hands its handler the count of two. -/
theorem stream_folds_twoIncreases :
    ∃ s, (fold (⟨0⟩ : CounterState) (Run.run (act (some cover)) .empty twoIncreases).journal
        (some cover) ledgerAggregate.rebuilder.appliers foldFailed).result = .ok s ∧
      ∃ first rest, ((increase "v3" none (some 1)).answer (some cover)
          (Run.run (act (some cover)) .empty twoIncreases)).log =
        first ++ .handler (PageContext.ofCover (some cover)) s (handed ((increase "v3" none
          (some 1)).request (some cover) (Run.run (act (some cover)) .empty twoIncreases))) ::
            rest ∧
        (∀ c ∈ first, c.isApplier = true) ∧ ∀ c ∈ rest, c.isHandler = false := by
  obtain ⟨-, s, hs, hnext⟩ := stream_folds (some cover) rfl twoIncreases_rebuilder
  exact ⟨s, hs, hnext (increase "v3" none (some 1)) rfl _ rfl⟩

/-- The first increase leaves a page and a state after it. -/
theorem act_increase :
    (increase "v1" none none).act (some cover) .empty =
      ⟨[⟨0, some increasedEvent, some ⟨"v1", some ⟨[1]⟩, none, some ⟨[2]⟩, none⟩⟩],
        [⟨1, ⟨some (pack (⟨1⟩ : CounterState)), 0, ""⟩⟩]⟩ := rfl

theorem along_fits_twoIncreases :
    Run.Along (act (some cover)) (fun stream d => d.Fits stream) .empty twoIncreases := by
  refine .cons ⟨?_, ?_⟩ (.cons ⟨?_, ?_⟩ Run.along_nil)
  · rintro stored ⟨⟩
  · rintro - stored ⟨⟩
  · rw [act_increase]
    rintro stored -
    exact List.cons_ne_nil _ _
  · rw [act_increase]
    rintro - stored ⟨⟩
    exact Nat.le_refl 1

/-- The second increase, resumed from the stored count or over the first one's page, is
one answer. -/
theorem resuming_is_unseen_twoIncreases :
    Run.run (act (some cover)) .empty (twoIncreases.map scratch) =
        Run.run (act (some cover)) .empty twoIncreases ∧
      ∀ pre d post, twoIncreases = pre ++ d :: post →
        (d.scratch.answer (some cover)
            (Run.run (act (some cover)) .empty (pre.map scratch))).result =
          (d.answer (some cover) (Run.run (act (some cover)) .empty pre)).result :=
  resuming_is_unseen (some cover) rfl twoIncreases_rebuilder along_fits_twoIncreases

end Raised

end Delivery

end Router

end AngzarrClient
