import Mathlib.Data.Int.Notation
import Mathlib.Data.List.Basic
import Mathlib.Data.Nat.Notation

/-!
# The framework's messages

The protobuf messages the router and the host hand around, with the fields their
code reads or copies. A singular message field, and a scalar one declared
`optional`, has presence: it is an `Option` here, and reading it when it is unset
gives the default instance, as the runtime does (`EventPage.getPayload` and its
like). Every other scalar has a default and no presence.

Two things are not in the repository, and stand here as parameters.

* `AngzarrClient.Spec` is what the build generates from the spec's protos and no
  file of the repository repeats: the width of a sequence field, and the status each
  reason key declares.
* `AngzarrClient.Message` is the protobuf runtime at one message type: its full
  name, its serializer and its parser. The parser takes bytes to the message they
  hold or to the text of the runtime's `DecodeError`, and it undoes the serializer;
  that law is a field, so it is never assumed a second time.
-/

namespace AngzarrClient

/-- A byte string. -/
abbrev Bytes := List UInt8

/-! ### What is generated or linked -/

/-- What the spec's generated modules say and the repository does not: the first
number a sequence field cannot hold, and `reason_args.STATUSES`. -/
class Spec where
  /-- Sequence fields are unsigned and of a fixed width: they hold the numbers below
  this one, and assigning any other raises `ValueError`. -/
  sequenceLimit : ℕ
  /-- `reason_args.STATUSES`: the status a reason key declares (`0` and nothing both
  stand for none). -/
  statuses : String → Option ℤ

/-- The protobuf runtime at a message type. -/
class Message (μ : Type) where
  /-- `DESCRIPTOR.full_name`. -/
  fullName : String
  /-- `SerializeToString()`. -/
  serialize : μ → Bytes
  /-- `ParseFromString()` on a fresh message: the message, or the text of the
  `DecodeError` the runtime raises. -/
  parse : Bytes → Except String μ
  /-- Parsing undoes serializing. -/
  parse_serialize : ∀ m, parse (serialize m) = .ok m

attribute [simp] Message.parse_serialize

/-- Two messages with the same bytes are the same message. -/
theorem Message.serialize_injective {μ : Type} [Message μ] :
    Function.Injective (Message.serialize : μ → Bytes) := by
  intro a b h
  have hb : Message.parse (Message.serialize a) = .ok b := by rw [h, Message.parse_serialize]
  rw [Message.parse_serialize] at hb
  exact Except.ok.inj hb

/-! ### Common messages -/

/-- `google.protobuf.Any`. -/
structure Any where
  typeUrl : String
  value : Bytes
  deriving DecidableEq, Inhabited

/-- `UUID`. -/
structure UUID where
  value : Bytes
  deriving DecidableEq, Inhabited

/-- `google.protobuf.Timestamp`. -/
structure Timestamp where
  seconds : ℤ
  nanos : ℤ
  deriving DecidableEq, Inhabited

/-- `Cover`: the stream a book belongs to. -/
structure Cover where
  domain : String
  root : Option UUID
  edition : Option String
  deriving DecidableEq, Inhabited

/-- `FactOrigin`: where a fact came from. The library only copies it, so its fields
stay encoded. -/
structure FactOrigin where
  encoded : Bytes
  deriving DecidableEq, Inhabited

/-- `EventMeta`: what the coordinator stamps an event with. -/
structure EventMeta where
  rulesVersion : String
  commandId : Option UUID
  fact : Option FactOrigin
  correlationId : Option UUID
  recordedAt : Option Timestamp
  deriving DecidableEq, Inhabited

/-! ### Events -/

/-- `EventPage`; its `meta` field is `metadata` here. -/
structure EventPage where
  sequence : ℕ
  payload : Option Any
  metadata : Option EventMeta
  deriving DecidableEq, Inhabited

/-- `page.payload`: the default `Any` when the page carries none. -/
def EventPage.getPayload (page : EventPage) : Any := page.payload.getD default

/-- `Snapshot`: a stored state. -/
structure Snapshot where
  state : Option Any
  sequence : ℕ
  rulesVersion : String
  deriving DecidableEq, Inhabited

/-- `EventBook`: a stream's pages, with the state they start from. -/
structure EventBook where
  cover : Option Cover
  pages : List EventPage
  snapshot : Option Snapshot
  nextSequence : ℕ
  deriving DecidableEq, Inhabited

/-- `book.snapshot`: the default `Snapshot` when the book carries none. -/
def EventBook.getSnapshot (book : EventBook) : Snapshot := book.snapshot.getD default

/-! ### Commands -/

/-- `ConflictResolution`. The enumeration is open: a number the spec does not name
travels as itself. -/
inductive ConflictResolution where
  | unspecified
  | commutative
  | strict
  | aggregateHandles
  | unrecognized (number : ℤ)
  deriving DecidableEq, Inhabited

/-- `Handling`: what to do with a stale command. -/
structure Handling where
  expectedSequence : Option ℕ
  conflictResolution : ConflictResolution
  deriving DecidableEq, Inhabited

/-- The `body` oneof of a `CommandPage`: the payload of its `Command` or of its
`Fact`. -/
inductive Body where
  | command (payload : Option Any)
  | fact (payload : Option Any)
  deriving DecidableEq, Inhabited

/-- `CommandPage`. -/
structure CommandPage where
  body : Option Body
  commandId : Option UUID
  correlationId : Option UUID
  factOrigin : Option FactOrigin
  deriving DecidableEq, Inhabited

/-- `page.command.payload`: the default `Any` when the page carries no `Command` arm,
or an arm without a payload. -/
def CommandPage.commandPayload (page : CommandPage) : Any :=
  match page.body with
  | some (.command payload) => payload.getD default
  | _ => default

/-- `CommandBook`. -/
structure CommandBook where
  cover : Option Cover
  handling : Option Handling
  page : Option CommandPage
  deriving DecidableEq, Inhabited

/-- `book.handling`: the default `Handling` when the book carries none. -/
def CommandBook.getHandling (book : CommandBook) : Handling := book.handling.getD default

/-- `book.page`: the default `CommandPage` when the book carries none. -/
def CommandBook.getPage (book : CommandBook) : CommandPage := book.page.getD default

/-- `ContextualCommand`: an input, and the history it is decided on. -/
structure ContextualCommand where
  command : CommandBook
  events : EventBook
  recordedAt : Option Timestamp
  conflictNonce : Bytes
  deriving DecidableEq, Inhabited

/-- `CommandRefused`: the fact of a command the component sent being refused. The
router reads the refused command; the rest is the handler's, and stays encoded. -/
structure CommandRefused where
  command : CommandBook
  encoded : Bytes
  deriving DecidableEq, Inhabited

/-- `ConflictReport`: what the coordinator judges a stale command by. -/
structure ConflictReport where
  resolvedNonce : Bytes
  windowUnits : List String
  commandUnits : List String
  deriving DecidableEq, Inhabited

/-- `CommandHandlerResponse`. -/
structure CommandHandlerResponse where
  events : EventBook
  rulesVersion : String
  conflict : Option ConflictReport
  deriving DecidableEq, Inhabited

/-! ### Components -/

/-- `ComponentKind`, as far as a host can be given one. -/
inductive ComponentKind where
  | aggregate
  | processManager
  | policy
  | projector
  deriving DecidableEq

/-- `_kind_name`: the kind's name, its prefix removed. -/
def ComponentKind.name : ComponentKind → String
  | .aggregate => "AGGREGATE"
  | .processManager => "PROCESS_MANAGER"
  | .policy => "POLICY"
  | .projector => "PROJECTOR"

/-! ### Policies and projectors -/

/-- `Reaction`: the commands a policy answers one triggering page with. -/
structure Reaction where
  triggerSequence : ℕ
  outputs : List CommandBook
  deriving DecidableEq, Inhabited

/-- `PolicyResponse`. -/
structure PolicyResponse where
  reactions : List Reaction
  deriving DecidableEq, Inhabited

/-- `Refusal`: a refusal of a command a policy sent. The router reads the refused command;
the rest is the callback's, and stays encoded. -/
structure Refusal where
  command : CommandBook
  encoded : Bytes
  deriving DecidableEq, Inhabited

/-- `OnRefusedResponse`. -/
structure OnRefusedResponse where
  fact : Option CommandBook
  deriving DecidableEq, Inhabited

/-- `Projection`. -/
structure Projection where
  cover : Option Cover
  projector : String
  nextSequence : ℕ
  projection : Option Any
  deriving DecidableEq, Inhabited

/-! ### Queries -/

/-- `SequenceRange`: a stream's events from `lower` on, up to `upper` where it is set. -/
structure SequenceRange where
  lower : ℕ
  upper : Option ℕ
  deriving DecidableEq, Inhabited

/-- `TemporalQuery`: a stream as it stood at a sequence or at a time. -/
structure TemporalQuery where
  asOfSequence : Option ℕ
  asOfTime : Option Timestamp
  deriving DecidableEq, Inhabited

/-- `Query`: the stream asked for, and which of its events. -/
structure Query where
  cover : Option Cover
  correlationId : Option UUID
  range : Option SequenceRange
  temporal : Option TemporalQuery
  deriving DecidableEq, Inhabited

end AngzarrClient
