import AngzarrClient.Compensation
import AngzarrClient.Router.Session

/-!
# A process manager's stream

A process manager is answered for by an aggregate's table, and its journal is its own
stream: what `AngzarrClient.Compensation` appends to a journal, one handling returns in a
book, which the dispatch folds and the coordinator stores. Here the two meet.

The tables fold the manager's events to the state its compensation reads
(`AngzarrClient.Router.Manager.Rebuilds`), and a routed input returns the events of one
operation on the state it is handed, or raises (`AngzarrClient.Router.Manager.Does`).

* **The stored stream is a run of the compensation**: over any deliveries, the journal holds
  the events of the operations that were answered, each on the state of those before it
  (`AngzarrClient.Router.Manager.keeps_run`).
* A compensation does not ask whether it rolled back before, or has a reply already; a
  handler may, and refuse (`AngzarrClient.Router.Manager.Due`). Then whatever is delivered,
  in any order and any number of times, **a stream's steps are undone as its state records
  them**: none before the rollback, and after it each step done once
  (`AngzarrClient.Router.Manager.undone_as_recorded`).
-/

namespace AngzarrClient

namespace Router

open Compensation (Operation Entry replies rollbacks undosOf)

/-- A process manager: its compensation, how its events are typed and packed, what they fold
to, and how its tables rebuild that. -/
structure Manager (σ ρ ε τ : Type) where
  compensation : Compensation σ ρ ε τ
  typeOf : ε → τ
  packed : ε → Any
  state : List ε → σ
  rebuilder : Rebuilder σ

namespace Manager

variable {σ ρ ε τ : Type} [DecidableEq τ]

/-! ### What is asked of its tables -/

/-- Pages hold events: each its own, packed. -/
def Holds (M : Manager σ ρ ε τ) (pages : List EventPage) (events : List ε) : Prop :=
  pages.map EventPage.payload = events.map fun event => some (M.packed event)

/-- **Its rebuilder folds its events**, whatever pages hold them. -/
structure Rebuilds [Spec] [Message σ] (M : Manager σ ρ ε τ) : Prop where
  fresh : M.rebuilder.factory = .ok (M.state [])
  page : ∀ cover code events event (page : EventPage), page.payload = some (M.packed event) →
    (foldPage cover M.rebuilder.appliers code (M.state events) page).result =
      .ok (M.state (events ++ [event]))

/-- **An input does an operation**: what its handler returns, if it returns, is the
operation's events on the state it is handed. -/
structure Does [Spec] [Message CommandRefused] (M : Manager σ ρ ε τ) (d : Delivery σ)
    (op : Operation ρ ε) : Prop where
  rebuilder : d.table.rebuilder = M.rebuilder
  readOnly : d.table.ReadOnly
  returned : ∀ {cover stream decide s ctx handled},
    d.table.route (d.request cover stream) = .ok decide → decide s ctx = .ok handled →
      M.Holds handled.returned.pages (M.compensation.events M.typeOf s op)

omit [DecidableEq τ] in
/-- **An operation is due**: a rollback where there was none, a reply where its step has
none. -/
def Due (M : Manager σ ρ ε τ) (s : σ) : Operation ρ ε → Prop
  | .reply event => ∃ step ∈ M.compensation.steps,
      M.typeOf event = step.completedBy ∧ step.recorded s = none
  | .rollback _ => M.compensation.rolledBack s = false

/-- **A guarded input**: its handler raises where the operation is not due. -/
structure Guards [Spec] [Message CommandRefused] (M : Manager σ ρ ε τ) (d : Delivery σ)
    (op : Operation ρ ε) : Prop extends M.Does d op where
  due : ∀ {cover stream decide s ctx handled},
    d.table.route (d.request cover stream) = .ok decide → decide s ctx = .ok handled → M.Due s op

/-! ### Deliveries and what was answered of them -/

section Taken

variable [Spec] [Message σ] [Message CommandRefused]

/-- One delivery of an operation, beside the operations answered so far. -/
def take (cover : Option Cover) (taken : Stream × List (Operation ρ ε))
    (input : Delivery σ × Operation ρ ε) : Stream × List (Operation ρ ε) :=
  (input.1.act cover taken.1,
    match (input.1.answer cover taken.1).result with
    | .ok _ => taken.2 ++ [input.2]
    | .error _ => taken.2)

/-- The operations of some deliveries that were answered, in order. -/
def answered (cover : Option Cover) (inputs : List (Delivery σ × Operation ρ ε)) :
    List (Operation ρ ε) :=
  (Run.run (take cover) (.empty, []) inputs).2

/-- The stream is the deliveries' own. -/
theorem run_take_fst (cover : Option Cover) (inputs : List (Delivery σ × Operation ρ ε)) :
    (Run.run (take cover) (.empty, []) inputs).1 =
      Run.run (Delivery.act cover) .empty (inputs.map Prod.fst) := by
  induction inputs using List.reverseRecOn with
  | nil => rfl
  | append_singleton inputs input ih =>
    rw [Run.run_concat, List.map_append, List.map_singleton, Run.run_concat, ← ih]
    rfl

end Taken

/-! ### The stream is a run -/

section Held

variable [Spec] [Message σ] {M : Manager σ ρ ε τ}

omit [DecidableEq τ] [Spec] [Message σ] in
theorem Holds.append {pages pages' : List EventPage} {events events' : List ε}
    (h : M.Holds pages events) (h' : M.Holds pages' events') :
    M.Holds (pages ++ pages') (events ++ events') := by
  rw [Holds, List.map_append, List.map_append, h, h']

omit [DecidableEq τ] in
/-- **Pages fold to the state of their events.** -/
theorem fold_of_holds (hM : M.Rebuilds) {pages : List EventPage} {events : List ε}
    (h : M.Holds pages events) (before : List ε) (cover : Option Cover) (code : String) :
    (fold (M.state before) pages cover M.rebuilder.appliers code).result =
      .ok (M.state (before ++ events)) := by
  induction pages generalizing before events with
  | nil =>
    obtain rfl : events = [] := List.map_eq_nil_iff.mp h.symm
    rw [List.append_nil]
    rfl
  | cons page pages ih =>
    cases events with
    | nil => cases h
    | cons event events =>
      obtain ⟨hpage, hpages⟩ := List.cons.inj h
      have hrest := ih hpages (before ++ [event])
      rw [List.append_assoc, List.singleton_append] at hrest
      rw [fold_cons, Traced.bind_of_ok (hM.page cover code before event page hpage), hrest]

omit [DecidableEq τ] [Spec] [Message σ] in
/-- Stamped pages hold what the handler's did. -/
theorem Holds.stamped {pages : List EventPage} {events : List ε} (h : M.Holds pages events)
    (metadata : EventMeta) (sequence : ℕ) :
    M.Holds (AngzarrClient.Router.stamped metadata sequence pages) events := by
  rw [Holds, ← h, AngzarrClient.Router.stamped]
  refine List.ext_getElem (by simp) fun i h₁ h₂ => ?_
  simp

end Held

section Keeps

variable [Spec] [Message σ] [Message CommandRefused] {M : Manager σ ρ ε τ}
  {cover : Option Cover}

/-- **A stream and the operations it answered**: it is sound, and holds their run. -/
structure Keeps (M : Manager σ ρ ε τ) (cover : Option Cover)
    (taken : Stream × List (Operation ρ ε)) : Prop where
  sound : taken.1.Sound M.rebuilder (M.state []) cover
  holds : M.Holds taken.1.journal (M.compensation.run M.typeOf M.state taken.2)

omit [Message CommandRefused] in
theorem keeps_empty : M.Keeps cover (.empty, []) :=
  ⟨⟨rfl, .empty, ⟨rfl, fun _ hmem => absurd hmem List.not_mem_nil⟩,
    EventSourced.Store.sound_empty _⟩, rfl⟩

/-- **An answer was given on the state of the operations before it**, and stores the events
of its own there. -/
theorem exists_handled (hM : M.Rebuilds) {taken : Stream × List (Operation ρ ε)}
    (h : M.Keeps cover taken) {d : Delivery σ} {op : Operation ρ ε} (hd : M.Does d op)
    {resp : CommandHandlerResponse} (hresp : (d.answer cover taken.1).result = .ok resp) :
    ∃ decide ctx handled, d.table.route (d.request cover taken.1) = .ok decide ∧
      decide (M.state (M.compensation.run M.typeOf M.state taken.2)) ctx = .ok handled ∧
        (d.act cover taken.1).journal = taken.1.journal ++
          AngzarrClient.Router.stamped (d.table.decisionMeta (d.request cover taken.1))
            taken.1.journal.length handled.returned.pages := by
  obtain ⟨stream, ops⟩ := taken
  obtain ⟨⟨-, store, hk, hs⟩, hholds⟩ := h
  have hstate : (machine M.rebuilder (M.state []) cover).state stream.journal =
      some (M.state (M.compensation.run M.typeOf M.state ops)) :=
    foldlM_evolve_eq_some.mpr (fold_of_holds hM hholds [] cover foldFailed)
  obtain ⟨start, hstart, hreplayed⟩ := Delivery.exists_start hM.fresh hd.rebuilder hk hs hstate
  obtain ⟨a⟩ := AggregateDispatch.exists_answer hresp
  obtain rfl : start = a.start := Except.ok.inj (hstart.symm.trans a.start_eq)
  have hdelivered := Except.ok.inj (hreplayed.symm.trans a.replayed_eq)
  refine ⟨a.decide, handed (d.request cover stream), a.handled, a.route_eq, ?_, ?_⟩
  · exact (congrArg (a.decide · _) hdelivered).trans a.handled_eq
  · rw [Delivery.act_of_ok hresp, a.persisted_eq, AggregateDispatch.emitted,
      Delivery.request_nextSequence]

/-- **One delivery keeps the stream a run**: of one operation more where it was answered. -/
theorem keeps_take (hM : M.Rebuilds) {taken : Stream × List (Operation ρ ε)}
    (h : M.Keeps cover taken) {input : Delivery σ × Operation ρ ε}
    (hd : M.Does input.1 input.2) : M.Keeps cover (take cover taken input) := by
  obtain ⟨d, op⟩ := input
  obtain ⟨stream, ops⟩ := taken
  obtain ⟨store, hk, hs⟩ := h.sound.keeps
  refine ⟨⟨Delivery.numbered_act h.sound.numbered d,
    Delivery.exists_store_act hM.fresh hd.rebuilder hd.readOnly hk hs⟩, ?_⟩
  cases hr : (d.answer cover stream).result with
  | error e =>
    simp only [take, hr, Delivery.act_of_error hr]
    exact h.holds
  | ok resp =>
    obtain ⟨decide, ctx, handled, hroute, hhandled, hjournal⟩ := exists_handled hM h hd hr
    simp only [take, hr, hjournal, Compensation.run_concat]
    exact h.holds.append ((hd.returned hroute hhandled).stamped _ _)

/-- **The stored stream is a run of the compensation.** -/
theorem keeps_run (hM : M.Rebuilds) {inputs : List (Delivery σ × Operation ρ ε)}
    (h : ∀ input ∈ inputs, M.Does input.1 input.2) :
    M.Keeps cover (Run.run (take cover) (.empty, []) inputs) := by
  have hstep : ∀ (taken : Stream × List (Operation ρ ε)) (input : Delivery σ × Operation ρ ε),
      M.Keeps cover taken → M.Does input.1 input.2 → M.Keeps cover (take cover taken input) :=
    fun taken input htaken hinput => keeps_take hM htaken hinput
  exact Run.invariant_run hstep keeps_empty (Run.along_of_forall fun input hmem _ => h input hmem)

/-! ### Guarded inputs -/

section Guarded

variable (hC : M.compensation.Folds M.typeOf M.state)
include hC

omit [Spec] [Message σ] [Message CommandRefused] in
/-- An operation that is due is the first of its kind. -/
theorem oncePerStep_concat {ops : List (Operation ρ ε)}
    (h : M.compensation.OncePerStep M.typeOf ops) {op : Operation ρ ε}
    (hdue : M.Due (M.state (M.compensation.run M.typeOf M.state ops)) op) :
    M.compensation.OncePerStep M.typeOf (ops ++ [op]) := by
  cases op with
  | reply event =>
    obtain ⟨step, hstep, htype, hnone⟩ := hdue
    refine ⟨?_, ?_, ?_⟩
    · intro e he
      rw [Compensation.replies_concat_reply] at he
      rcases List.mem_append.mp he with he | he
      · exact h.reply_type e he
      · exact ⟨step, hstep, List.mem_singleton.mp he ▸ htype⟩
    · -- Its step is recorded by no earlier reply.
      rw [Compensation.replies_concat_reply, List.map_append, List.map_singleton,
        List.nodup_append]
      refine ⟨h.one_reply, List.nodup_singleton _, ?_⟩
      rintro type hmem type' htype' rfl
      obtain ⟨e, he, heq⟩ := List.mem_map.mp hmem
      have hsome := (Compensation.isSome_recorded_iff hC hstep ops).mpr
        ⟨e, he, heq.trans ((List.mem_singleton.mp htype').trans htype)⟩
      rw [hnone] at hsome
      cases hsome
    · rw [Compensation.rollbacks_concat_reply]
      exact h.one_rollback
  | rollback reason =>
    have hnone : rollbacks ops = [] := by
      by_contra hsome
      have hrolled := (Compensation.rolledBack_run hC (h.ne_failed hC)).mpr hsome
      rw [show M.compensation.rolledBack _ = false from hdue] at hrolled
      cases hrolled
    refine ⟨?_, ?_, ?_⟩
    · rw [Compensation.replies_concat_rollback]
      exact h.reply_type
    · rw [Compensation.replies_concat_rollback]
      exact h.one_reply
    · rw [Compensation.rollbacks_concat_rollback, hnone]
      exact Nat.le_refl 1

/-- **Whatever is delivered, no step is replied to twice** and there is one rollback at most,
of the operations answered. -/
theorem oncePerStep_answered (hM : M.Rebuilds) {inputs : List (Delivery σ × Operation ρ ε)}
    (h : ∀ input ∈ inputs, M.Guards input.1 input.2) :
    M.compensation.OncePerStep M.typeOf (answered cover inputs) := by
  have hdoes : ∀ input ∈ inputs, M.Does input.1 input.2 := fun input hmem => (h input hmem).toDoes
  induction inputs using List.reverseRecOn with
  | nil => exact ⟨fun _ he => absurd he List.not_mem_nil, List.nodup_nil, Nat.zero_le _⟩
  | append_singleton inputs input ih =>
    have hpre : ∀ i ∈ inputs, M.Guards i.1 i.2 := fun i hmem => h i (List.mem_append_left _ hmem)
    have hlast := h input (List.mem_append_right _ (List.mem_singleton_self input))
    have hkeeps : M.Keeps cover (Run.run (take cover) (.empty, []) inputs) :=
      keeps_run hM fun i hmem => (hpre i hmem).toDoes
    have hbefore := ih hpre fun i hmem => (hpre i hmem).toDoes
    rw [answered, Run.run_concat]
    cases hr : (input.1.answer cover (Run.run (take cover) (.empty, []) inputs).1).result with
    | error e =>
      simp only [take, hr]
      exact hbefore
    | ok resp =>
      obtain ⟨decide, ctx, handled, hroute, hhandled, -⟩ :=
        exists_handled hM hkeeps hlast.toDoes hr
      simp only [take, hr]
      exact oncePerStep_concat hC hbefore (hlast.due hroute hhandled)

/-- **A stream's steps are undone as its state records them**, whatever was delivered to a
guarded manager, in whatever order and however often: the stored pages hold the run of the
operations answered, and of each step its undo, once, from the event its state records it
done by, if the state has rolled back; and none if it has not. -/
theorem undone_as_recorded (hM : M.Rebuilds)
    (hsteps : (M.compensation.steps.map (·.completedBy)).Nodup)
    {inputs : List (Delivery σ × Operation ρ ε)} (h : ∀ input ∈ inputs, M.Guards input.1 input.2)
    (cover : Option Cover) :
    M.Holds (Run.run (Delivery.act cover) .empty (inputs.map Prod.fst)).journal
        (M.compensation.run M.typeOf M.state (answered cover inputs)) ∧
      ∃ s, (fold (M.state []) (Run.run (Delivery.act cover) .empty (inputs.map Prod.fst)).journal
          cover M.rebuilder.appliers foldFailed).result = .ok s ∧
        ∀ i step, M.compensation.steps[i]? = some step →
          undosOf i (M.compensation.trace M.typeOf M.state (answered cover inputs)) =
            if M.compensation.rolledBack s = true then
              ((step.recorded s).map fun done => ⟨step.undo done, some i⟩).toList
            else [] := by
  have hkeeps : M.Keeps cover (Run.run (take cover) (.empty, []) inputs) :=
    keeps_run hM fun input hmem => (h input hmem).toDoes
  have honce : M.compensation.OncePerStep M.typeOf (answered cover inputs) :=
    oncePerStep_answered hC hM h
  have hholds := hkeeps.holds
  rw [run_take_fst] at hholds
  have hfold := fold_of_holds hM hholds [] cover foldFailed
  rw [List.nil_append] at hfold
  refine ⟨hholds, M.state (M.compensation.run M.typeOf M.state (answered cover inputs)), hfold,
    fun i step hi => ?_⟩
  have hrolled := Compensation.rolledBack_run hC (honce.ne_failed hC)
  have hrecorded := Compensation.recorded_run hC honce (List.mem_of_getElem? hi)
  rw [Compensation.undosOf_trace hsteps hC honce hi, ← hrecorded, Option.toList_map]
  by_cases hnone : rollbacks (answered cover inputs) = []
  · rw [if_pos hnone, if_neg fun hrolled' => (hrolled.mp hrolled') hnone]
  · rw [if_neg hnone]
    exact (if_pos (hrolled.mpr hnone)).symm

end Guarded

end Keeps

/-! ### A trip -/

section Trip

open Ledger

/-- The events of a trip of one booking. -/
inductive TripEvent where
  | booked
  | cancelled
  | refundDue
  deriving DecidableEq

namespace TripEvent

/-- The full name of an event. -/
def fullName : TripEvent → String
  | .booked => "test.trip.Booked"
  | .cancelled => "test.trip.Cancelled"
  | .refundDue => "test.trip.RefundDue"

/-- An event, packed. -/
def packed (event : TripEvent) : Any := ⟨"/" ++ event.fullName, []⟩

/-- A page of an event as a handler returns it. -/
def page (event : TripEvent) : EventPage := ⟨0, some event.packed, none⟩

end TripEvent

/-- A trip's state: one for its booking, and two for its cancellation. -/
def tripState (events : List TripEvent) : CounterState :=
  ⟨(if .booked ∈ events then 1 else 0) + if .cancelled ∈ events then 2 else 0⟩

/-- A trip: its booking is undone by a refund. -/
def trip : Manager CounterState Unit TripEvent TripEvent where
  compensation := {
    failed := fun _ _ => .cancelled
    rolledBack := fun s => 2 ≤ s.count
    compensationFailed := fun _ _ => .refundDue
    steps := [⟨"book", .booked, "test.trip.Refund",
      fun s => if s.count % 2 = 1 then some .booked else none, fun _ => .refundDue⟩] }
  typeOf := id
  packed := TripEvent.packed
  state := tripState
  rebuilder :=
    ((Rebuilder.mk (.ok ⟨0⟩) ∅).apply TripEvent.booked.fullName fun s _ =>
      .ok ⟨if s.count % 2 = 1 then s.count else s.count + 1⟩).apply
        TripEvent.cancelled.fullName fun s _ => .ok ⟨if 2 ≤ s.count then s.count else s.count + 2⟩

/-- What a trip's handler comes to: the operation's events, if it is due. -/
def tripHandled (op : Operation Unit TripEvent) (due : Bool) (s : CounterState) :
    Except Exc (List TripEvent) :=
  if due then .ok (trip.compensation.events id s op) else .error (.unclassified "")

/-- The trip's table: a cancellation asked for, and a booking reported. -/
def tripTable : AggregateDispatch CounterState :=
  ((AggregateDispatch.new "Trip" "trip" trip.rebuilder).onCommand "test.trip.Cancel" fun _ s _ =>
    (tripHandled (.rollback ()) (s.count < 2) s).map fun events =>
      ⟨some { (default : EventBook) with pages := events.map TripEvent.page }, s, []⟩).onFact
    TripEvent.booked.fullName fun _ s _ =>
      (tripHandled (.reply .booked) (s.count % 2 ≠ 1) s).map fun events =>
        ⟨⟨.any TripEvent.booked.packed, events.tail.map fun event => .any event.packed⟩, s, []⟩

/-- A delivery of an input to the trip. -/
def toTrip (body : Body) : Delivery CounterState where
  table := tripTable
  command := ⟨none, none, some ⟨some body, none, none, none⟩⟩
  recordedAt := none
  conflictNonce := []
  resume := none

/-- The report of the booking. -/
def booked : Delivery CounterState × Operation Unit TripEvent :=
  (toTrip (.fact (some TripEvent.booked.packed)), .reply .booked)

/-- The cancellation. -/
def cancel : Delivery CounterState × Operation Unit TripEvent :=
  (toTrip (.command (some ⟨"/test.trip.Cancel", []⟩)), .rollback ())

/-- An event's type is its name. -/
theorem typeName_packed (event : TripEvent) : typeName event.packed.typeUrl = event.fullName := by
  cases event <;> decide

theorem trip_rebuilds : trip.Rebuilds where
  fresh := rfl
  page := by
    intro cover code events event page hpage
    have hpayload : page.getPayload = event.packed := by
      rw [EventPage.getPayload, hpage]
      rfl
    have hlookup : trip.rebuilder.appliers.get? (typeName page.getPayload.typeUrl) =
        trip.rebuilder.appliers.get? event.fullName := by
      rw [hpayload, typeName_packed]
    have hcount : (trip.state events).count =
        (if .booked ∈ events then 1 else 0) + if .cancelled ∈ events then 2 else 0 := rfl
    rw [foldPage, hlookup]
    cases event with
    | booked =>
      refine congrArg Except.ok (congrArg CounterState.mk ?_)
      rw [hcount]
      by_cases hb : TripEvent.booked ∈ events <;> by_cases hc : TripEvent.cancelled ∈ events <;>
        simp [hb, hc]
    | cancelled =>
      refine congrArg Except.ok (congrArg CounterState.mk ?_)
      rw [hcount]
      by_cases hb : TripEvent.booked ∈ events <;> by_cases hc : TripEvent.cancelled ∈ events <;>
        simp [hb, hc]
    | refundDue =>
      refine congrArg Except.ok (congrArg CounterState.mk ?_)
      simp

/-- What a trip's count says of its events. -/
theorem tripState_count (events : List TripEvent) :
    ((tripState events).count % 2 = 1 ↔ .booked ∈ events) ∧
      (2 ≤ (tripState events).count ↔ .cancelled ∈ events) := by
  by_cases hb : TripEvent.booked ∈ events <;> by_cases hc : TripEvent.cancelled ∈ events <;>
    simp [tripState, hb, hc]

theorem trip_folds : trip.compensation.Folds trip.typeOf trip.state where
  rolledBack_iff := by
    intro events
    have hiff : trip.compensation.rolledBack (trip.state events) = true ↔ .cancelled ∈ events :=
      decide_eq_true_iff.trans (tripState_count events).2
    rw [hiff]
    exact ⟨fun h => ⟨trip.state events, (), h⟩, fun ⟨_, _, h⟩ => h⟩
  mem_of_recorded := by
    intro step hstep events e h
    obtain rfl := List.mem_singleton.mp hstep
    obtain ⟨hodd, hbooked⟩ := Option.ite_none_right_eq_some.mp h
    obtain rfl := Option.some.inj hbooked
    exact ⟨(tripState_count events).1.mp hodd, rfl⟩
  isSome_recorded := by
    intro step hstep events e he htype
    obtain rfl := List.mem_singleton.mp hstep
    obtain rfl : e = .booked := htype
    exact Option.isSome_iff_exists.mpr ⟨_, if_pos ((tripState_count events).1.mpr he)⟩
  failed_type := by
    intro step hstep state reason
    obtain rfl := List.mem_singleton.mp hstep
    exact TripEvent.noConfusion
  undo_type := by
    intro step hstep undone hundone e
    obtain rfl := List.mem_singleton.mp hstep
    obtain rfl := List.mem_singleton.mp hundone
    exact TripEvent.noConfusion

private theorem exists_of_map_eq_ok {α β : Type} {f : α → β} {r : Except Exc α} {b : β}
    (h : r.map f = .ok b) : ∃ a, r = .ok a ∧ b = f a := by
  cases r with
  | error e => cases h
  | ok a => exact ⟨a, rfl, (Except.ok.inj h).symm⟩

/-- A trip's handler that returned was due, and left the state alone. -/
theorem tripHandled_eq_ok {op : Operation Unit TripEvent} {due : Bool} {s : CounterState}
    {events : List TripEvent} (h : tripHandled op due s = .ok events) :
    due = true ∧ events = trip.compensation.events id s op := by
  unfold tripHandled at h
  split at h
  · next hdue => exact ⟨hdue, (Except.ok.inj h).symm⟩
  · cases h

theorem readOnly_tripTable : tripTable.ReadOnly where
  commands := by
    intro name thunk h payload s ctx handled hh
    rw [tripTable, AggregateDispatch.onFact, AggregateDispatch.onCommand, Dict.get?_set] at h
    split at h
    · obtain rfl := Option.some.inj h
      obtain ⟨events, -, rfl⟩ := exists_of_map_eq_ok hh
      rfl
    · cases h
  facts := by
    intro name thunk h payload s ctx handled hh
    rw [tripTable, AggregateDispatch.onFact, Dict.get?_set] at h
    split at h
    · obtain rfl := Option.some.inj h
      obtain ⟨events, -, rfl⟩ := exists_of_map_eq_ok hh
      rfl
    · cases h
  refusals := by
    intro name thunk h
    cases h

/-- A reported booking is recorded where there is none. -/
theorem booked_handled {cover : Option Cover} {stream : Stream} {decide : Decide CounterState}
    (h : tripTable.route (booked.1.request cover stream) = .ok decide) {s : CounterState}
    {ctx : CommandContext} {handled : Handled CounterState EventBook}
    (hh : decide s ctx = .ok handled) :
    s.count % 2 ≠ 1 ∧ handled.returned.pages =
      (trip.compensation.events id s (.reply .booked)).map TripEvent.page := by
  rw [AggregateDispatch.route, Delivery.request_command] at h
  obtain rfl := Except.ok.inj h
  obtain ⟨recorded, hrecorded, rfl⟩ := exists_of_map_eq_ok hh
  obtain ⟨events, hevents, rfl⟩ := exists_of_map_eq_ok hrecorded
  obtain ⟨hdue, rfl⟩ := tripHandled_eq_ok hevents
  refine ⟨of_decide_eq_true hdue, ?_⟩
  obtain ⟨late, hlate⟩ :
      ∃ late, trip.compensation.events id s (.reply .booked) = .booked :: late := ⟨_, rfl⟩
  rw [hlate]
  show TripEvent.booked.page :: List.map _ (List.map _ late) = _
  rw [List.map_map]
  rfl

/-- A trip is cancelled where it was not. -/
theorem cancel_handled {cover : Option Cover} {stream : Stream} {decide : Decide CounterState}
    (h : tripTable.route (cancel.1.request cover stream) = .ok decide) {s : CounterState}
    {ctx : CommandContext} {handled : Handled CounterState EventBook}
    (hh : decide s ctx = .ok handled) :
    s.count < 2 ∧ handled.returned.pages =
      (trip.compensation.events id s (.rollback ())).map TripEvent.page := by
  rw [AggregateDispatch.route, Delivery.request_command] at h
  obtain rfl := Except.ok.inj h
  obtain ⟨returned, hreturned, rfl⟩ := exists_of_map_eq_ok hh
  obtain ⟨events, hevents, rfl⟩ := exists_of_map_eq_ok hreturned
  obtain ⟨hdue, rfl⟩ := tripHandled_eq_ok hevents
  exact ⟨of_decide_eq_true hdue, rfl⟩

theorem guards_booked : trip.Guards booked.1 booked.2 where
  rebuilder := rfl
  readOnly := readOnly_tripTable
  returned := by
    intro cover stream decide s ctx handled hroute hhandled
    rw [Holds, (booked_handled hroute hhandled).2, List.map_map]
    rfl
  due := by
    intro cover stream decide s ctx handled hroute hhandled
    exact ⟨_, List.mem_singleton_self _, rfl, if_neg (booked_handled hroute hhandled).1⟩

theorem guards_cancel : trip.Guards cancel.1 cancel.2 where
  rebuilder := rfl
  readOnly := readOnly_tripTable
  returned := by
    intro cover stream decide s ctx handled hroute hhandled
    rw [Holds, (cancel_handled hroute hhandled).2, List.map_map]
    rfl
  due := by
    intro cover stream decide s ctx handled hroute hhandled
    exact decide_eq_false (Nat.not_le_of_lt (cancel_handled hroute hhandled).1)

/-- A booking reported twice, around a cancellation asked for twice. -/
theorem undone_as_recorded_trip :
    trip.Holds (Run.run (Delivery.act none) .empty
        ([booked, cancel, booked, cancel].map Prod.fst)).journal
        (trip.compensation.run trip.typeOf trip.state
          (answered none [booked, cancel, booked, cancel])) ∧
      ∃ s, (fold (trip.state []) (Run.run (Delivery.act none) .empty
          ([booked, cancel, booked, cancel].map Prod.fst)).journal
          none trip.rebuilder.appliers foldFailed).result = .ok s ∧
        ∀ i step, trip.compensation.steps[i]? = some step →
          undosOf i (trip.compensation.trace trip.typeOf trip.state
            (answered none [booked, cancel, booked, cancel])) =
            if trip.compensation.rolledBack s = true then
              ((step.recorded s).map fun done => ⟨step.undo done, some i⟩).toList
            else [] := by
  have hinputs : ∀ input ∈ [booked, cancel, booked, cancel], trip.Guards input.1 input.2 := by
    intro input hmem
    simp only [List.mem_cons, List.not_mem_nil, or_false] at hmem
    rcases hmem with rfl | rfl | rfl | rfl
    · exact guards_booked
    · exact guards_cancel
    · exact guards_booked
    · exact guards_cancel
  exact undone_as_recorded trip_folds trip_rebuilds (List.nodup_singleton _) hinputs none

end Trip

end Manager

end Router

end AngzarrClient
