import AngzarrClient.Lib.Wire
import AngzarrClient.Router.Stages
import Mathlib.Algebra.Group.Nat.Defs
import Mathlib.Logic.Equiv.List
import Mathlib.Tactic.DeriveEncodable

/-!
# The ledger

The ledger of the handler-contract tests, the smallest component that meets every
stage of a dispatch: a count, which an `Increased` event raises by one; a command that
emits one such event; and a fact that is recorded with the count it brings the ledger
to. What the general theorems say is shown on it.

Its state travels in the wire format, so that nothing about it is assumed
(`AngzarrClient.Router.Ledger.message`). A refusal is decoded by the ledger's table
only when one is delivered, and none is here: its message needs a codec and no
particular one (`AngzarrClient.Router.Ledger.refusalMessage`).
-/

namespace AngzarrClient

namespace Router

namespace Ledger

/-! ### The runtime -/

/-- The spec's generated part, as far as the ledger meets it: sequences are 32 bits
wide, and no key declares a status. -/
@[reducible] def spec : Spec where
  sequenceLimit := 2 ^ 32
  statuses := fun _ => none

/-- `test.counter.CounterState`. -/
structure CounterState where
  count : ℕ
  deriving DecidableEq

/-- The state's fields; one at its default is not written. -/
def CounterState.fields (s : CounterState) : List Wire.Field :=
  if s.count = 0 then [] else [⟨1, .int s.count⟩]

/-- The state with one field read. -/
def CounterState.read (s : CounterState) : Wire.Field → CounterState
  | ⟨1, .int n⟩ => ⟨n⟩
  | _ => s

theorem CounterState.foldl_read_fields (s : CounterState) :
    s.fields.foldl CounterState.read ⟨0⟩ = s := by
  unfold CounterState.fields
  split
  · next h => exact congrArg CounterState.mk h.symm
  · rfl

/-- The state on the wire. -/
@[reducible] def message : Message CounterState where
  fullName := "test.counter.CounterState"
  serialize s := Wire.writeFields s.fields
  parse bytes :=
    match Wire.readFields bytes with
    | some fields => .ok (fields.foldl CounterState.read ⟨0⟩)
    | none => .error "Error parsing message"
  parse_serialize s := by
    rw [Wire.readFields_writeFields]
    exact congrArg Except.ok s.foldl_read_fields

section Refusal

instance encodableUInt8 : Encodable UInt8 :=
  Encodable.ofLeftInverse UInt8.toNat UInt8.ofNat fun _ => UInt8.ofNat_toNat

instance encodableChar : Encodable Char :=
  Encodable.ofLeftInverse Char.toNat Char.ofNat Char.ofNat_toNat

instance encodableString : Encodable String :=
  Encodable.ofLeftInverse String.toList String.ofList fun _ => String.ofList_toList

deriving instance Encodable for Any, UUID, Cover, FactOrigin, ConflictResolution, Handling,
  Body, CommandPage, CommandBook, CommandRefused

end Refusal

/-- A refusal on the wire: its number among the refusals. -/
@[reducible] def refusalMessage : Message CommandRefused where
  fullName := "io.angzarr.v1.CommandRefused"
  serialize refused := Wire.varint (Encodable.encode refused)
  parse bytes :=
    match (Wire.readVarint bytes).bind fun r => Encodable.decode r.1 with
    | some refused => .ok refused
    | none => .error "Error parsing message"
  parse_serialize refused := by
    have h := Wire.readVarint_varint (Encodable.encode refused) []
    rw [List.append_nil] at h
    rw [h, Option.bind_some, Encodable.encodek]

scoped instance : Spec := spec

scoped instance : Message CounterState := message

scoped instance : Message CommandRefused := refusalMessage

/-! ### The component -/

/-- The full name of the event. -/
def increasedName : String := "test.counter.Increased"

/-- An `Increased`, packed. -/
def increasedEvent : Any := ⟨"/" ++ increasedName, []⟩

/-- `increased`: the event's applier. -/
def increased : Applier CounterState := fun s _ _ => .ok ⟨s.count + 1⟩

/-- `increase_by`: the command's handler, which emits one event. -/
def increaseBy : CommandThunk CounterState := fun _ s _ =>
  .ok ⟨some { (default : EventBook) with pages := [⟨0, some increasedEvent, none⟩] }, s, []⟩

/-- `record`: the fact's handler, which flags the fact with the count it brings the
ledger to. -/
def record : FactThunk CounterState := fun fact s _ =>
  .ok ⟨⟨.any fact, [.message (Message.fullName CounterState)
    (Message.serialize (⟨s.count + 1⟩ : CounterState))]⟩, s, []⟩

/-- `ledger_aggregate`. -/
def ledgerAggregate : AggregateDispatch CounterState :=
  ((AggregateDispatch.new "Ledger" "ledger"
      ((Rebuilder.mk (.ok ⟨0⟩) ∅).applyWithContext increasedName increased)).onCommand
    "test.counter.IncreaseBy" increaseBy).onFact increasedName record

/-! ### What it does -/

/-- The ledger's handlers read its state and leave it alone. -/
theorem readOnly_ledgerAggregate : ledgerAggregate.ReadOnly where
  commands := by
    intro name thunk h payload s ctx handled hh
    rw [ledgerAggregate, AggregateDispatch.onFact, AggregateDispatch.onCommand] at h
    rw [Dict.get?_set] at h
    split at h
    · obtain rfl := Option.some.inj h
      obtain rfl := Except.ok.inj hh
      rfl
    · cases h
  facts := by
    intro name thunk h payload s ctx handled hh
    rw [ledgerAggregate, AggregateDispatch.onFact, Dict.get?_set] at h
    split at h
    · obtain rfl := Option.some.inj h
      obtain rfl := Except.ok.inj hh
      rfl
    · cases h
  refusals := by
    intro name thunk h
    cases h

/-- Whether a page holds an `Increased`. -/
def isIncreased (page : EventPage) : Bool := typeName page.getPayload.typeUrl = increasedName

/-- **The ledger counts**: a fold of any pages adds the number of `Increased` events
among them, and never fails. -/
theorem fold_ledgerAggregate (s : CounterState) (pages : List EventPage) (cover : Option Cover)
    (code : String) :
    (fold s pages cover ledgerAggregate.rebuilder.appliers code).result =
      .ok ⟨s.count + pages.countP isIncreased⟩ := by
  induction pages generalizing s with
  | nil => rfl
  | cons page pages ih =>
    have happlier : ledgerAggregate.rebuilder.appliers.get? (typeName page.getPayload.typeUrl) =
        if isIncreased page then some increased else none := by
      change (Dict.set ∅ increasedName increased).get? _ = _
      rw [Dict.get?_set]
      by_cases h : typeName page.getPayload.typeUrl = increasedName
      · simp [h, isIncreased]
      · simp [h, isIncreased]
    have hpage : (foldPage cover ledgerAggregate.rebuilder.appliers code s page).result =
        .ok ⟨s.count + if isIncreased page then 1 else 0⟩ := by
      rw [foldPage, happlier]
      by_cases h : isIncreased page = true
      · rw [if_pos h, if_pos h]
        rfl
      · rw [if_neg h, if_neg h]
        rfl
    rw [fold_cons, Traced.bind_of_ok hpage, ih, List.countP_cons]
    simp only [Except.ok.injEq, CounterState.mk.injEq]
    omega

/-! ### Requests -/

/-- An `IncreaseBy`, packed; the ledger does not read its value. -/
def increaseByCommand : Any := ⟨"/test.counter.IncreaseBy", []⟩

/-- An `Increased` page at a sequence. -/
def increasedPage (sequence : ℕ) : EventPage := ⟨sequence, some increasedEvent, none⟩

/-- The cover of a ledger. -/
def cover : Cover := ⟨"ledger", some ⟨[7]⟩, none⟩

/-- An input over a history, with a handling or none. -/
def asked (body : Body) (handling : Option Handling) (pages : List EventPage)
    (nextSequence : ℕ) : ContextualCommand where
  command := ⟨some cover, handling, some ⟨some body, some ⟨[1]⟩, some ⟨[2]⟩, none⟩⟩
  events := ⟨some cover, pages, none, nextSequence⟩
  recordedAt := some ⟨60, 0⟩
  conflictNonce := [9]

/-- An `IncreaseBy` over a history. -/
def increaseOver (handling : Option Handling) (pages : List EventPage) (nextSequence : ℕ) :
    ContextualCommand :=
  asked (.command (some increaseByCommand)) handling pages nextSequence

/-- The fact of an `Increased` over a history. -/
def recordOver (handling : Option Handling) (pages : List EventPage) (nextSequence : ℕ) :
    ContextualCommand :=
  asked (.fact (some increasedEvent)) handling pages nextSequence

/-- A page of an `increaseOver` as the coordinator stores it. -/
def storedPage (sequence : ℕ) : EventPage :=
  ⟨sequence, some increasedEvent, some ⟨"", some ⟨[1]⟩, none, some ⟨[2]⟩, some ⟨60, 0⟩⟩⟩

/-- A ledger's answer: the one event, the count after it, and the conflict report. -/
def raisedTo (count : ℕ) (conflict : Option ConflictReport) : CommandHandlerResponse where
  events := ⟨none, [⟨0, some increasedEvent, none⟩],
    some ⟨some (pack (⟨count⟩ : CounterState)), 0, ""⟩, 0⟩
  rulesVersion := ""
  conflict := conflict

end Ledger

end Router

end AngzarrClient
