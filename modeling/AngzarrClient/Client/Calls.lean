import AngzarrClient.Builder
import AngzarrClient.Client.Endpoint
import AngzarrClient.Client.Metadata
import AngzarrClient.Errors

/-!
# A client's calls

A client is a stub and, where it was made over one, a channel it may own. Its methods name
the correlation of their request in a header and hand both to the stub
(`AngzarrClient.Client.rpc`); what the stub raises is read into a client's error
(`AngzarrClient.invoke`), and a stream is read to its end before it is answered, so its
status is never met half-way through (`AngzarrClient.Streamed.drain`).

Channels and clients are objects that others hold on to, and stand in a table
(`AngzarrClient.Connections`). The servers behind the channels are not part of it: what a
method of theirs comes to is given with the call (`AngzarrClient.Net`), and so is the text
grpc-python raises on a closed channel, of which the client knows one.
-/

namespace AngzarrClient

open Utf8

/-! ### What a stub answers -/

/-- What a stub's method raises. -/
inductive CallError where
  /-- `grpc.RpcError`. -/
  | rpcError (error : RpcError)
  /-- `ValueError`. -/
  | valueError (text : String)
  /-- Any other exception. -/
  | other (name text : String)
  deriving DecidableEq

/-- A stream's answers, and how it ends. -/
structure Streamed (α : Type) where
  items : List α
  ending : Except CallError Unit

/-- `list(response)`: the answers of a stream that ends, or what it raised on the way. -/
def Streamed.drain {α : Type} (stream : Streamed α) : Except CallError (List α) :=
  stream.ending.map fun _ => stream.items

/-- `CorrelationQuery`. -/
structure CorrelationQuery where
  correlationId : Option UUID
  deriving DecidableEq, Inhabited

/-- What is sent: one of six methods, on its request. -/
inductive Request where
  | getEventBook (query : Query)
  | getEvents (query : Query)
  | getCorrelatedEvents (query : CorrelationQuery)
  | handle (command : CommandBook)
  | handleAsync (command : CommandBook)
  | handleSync (command : CommandBook)
  deriving DecidableEq

/-- Metadata of a call. -/
abbrev Metadata := List (String × String)

/-- A request and the metadata it was sent with. -/
structure Sent where
  request : Request
  metadata : Metadata
  deriving DecidableEq

/-- What the six methods come to at the other end, with `ρ` for a `CommandResponse`. -/
structure Peer (ρ : Type) where
  getEventBook : Query → Metadata → Except CallError EventBook
  getEvents : Query → Metadata → Except CallError (Streamed EventBook)
  getCorrelatedEvents : CorrelationQuery → Metadata → Except CallError (Streamed EventBook)
  handle : CommandBook → Metadata → Except CallError ρ
  handleAsync : CommandBook → Metadata → Except CallError Unit
  handleSync : CommandBook → Metadata → Except CallError ρ

/-- A server that is not there. -/
instance {ρ : Type} : Inhabited (Peer ρ) :=
  let unavailable : CallError := .rpcError ⟨.unavailable, none, none⟩
  ⟨⟨fun _ _ => .error unavailable, fun _ _ => .error unavailable, fun _ _ => .error unavailable,
    fun _ _ => .error unavailable, fun _ _ => .error unavailable, fun _ _ => .error unavailable⟩⟩

/-! ### Objects -/

/-- `grpc.Channel`. -/
structure Channel where
  target : Target
  closed : Bool
  deriving DecidableEq

/-- A stub: over a channel, or handed to `from_stub` as it is. -/
inductive Stub where
  | bound (channel : ℕ)
  | given (stub : ℕ)
  deriving DecidableEq

/-- A client's service: `QueryClient` and `CommandHandlerClient` are otherwise alike. -/
inductive ClientKind where
  | query
  | commandHandler
  deriving DecidableEq

/-- `QueryClient`, `CommandHandlerClient`: its stub is over its channel, if it has one. -/
structure Client where
  kind : ClientKind
  stub : Stub
  channel : Option ℕ
  ownsChannel : Bool
  bound : ∀ ch, stub = .bound ch ↔ channel = some ch
  owned : ownsChannel = true → channel.isSome = true
  deriving DecidableEq

/-- `DomainClient`: the clients it delegates to, and a channel it may own. -/
structure DomainClient where
  commandHandler : ℕ
  query : ℕ
  channel : Option ℕ
  ownsChannel : Bool
  owned : ownsChannel = true → channel.isSome = true
  deriving DecidableEq

/-- The objects that exist, each known by its place. -/
structure Connections where
  channels : List Channel
  clients : List Client
  domains : List DomainClient
  deriving DecidableEq

/-- The servers at the channels' targets, the stubs handed in, and the text of the `ValueError`
grpc-python raises where a method is called on a closed channel. -/
structure Net (ρ : Type) where
  server : Target → Peer ρ
  given : ℕ → Peer ρ
  closedText : Request → String

/-! ### A call -/

/-- `_CLOSED_CHANNEL_MESSAGE`. -/
def closedChannelMessage : String := "Cannot invoke RPC on closed channel!"

/-- What a client's method raises. -/
inductive ClientFailure where
  /-- `GRPCError`. -/
  | grpc (error : GRPCError)
  /-- The `DecodeError` of a status detail that only claims to be an `ErrorInfo`. -/
  | decodeError (text : String)
  /-- `TransportError`. -/
  | transport (code : String) (details : List (String × String)) (cause : String)
  /-- What the stub raised, as it is. -/
  | raised (error : CallError)
  /-- `InvalidArgumentError`. -/
  | argument (error : BuilderError)

/-- `is_connection_error`. -/
def ClientFailure.isConnectionError : ClientFailure → Bool
  | .grpc error => error.isConnectionError
  | .transport _ _ _ => true
  | _ => false

/-- How `_invoke` reads what a stub raised. -/
def readError [Message Status] [Message ErrorInfo] : CallError → ClientFailure
  | .rpcError error =>
    match GRPCError.new error none none with
    | .ok error => .grpc error
    | .error text => .decodeError text
  | .valueError text =>
    if text = closedChannelMessage then
      .transport "TRANSPORT_ERROR" [("reason", "channel closed")] text
    else .raised (.valueError text)
  | .other name text => .raised (.other name text)

/-- `_invoke`. -/
def invoke [Message Status] [Message ErrorInfo] {α : Type} (rpc : Traced Sent CallError α) :
    Traced Sent ClientFailure α :=
  ⟨rpc.log, rpc.result.mapError readError⟩

namespace Connections

variable {ρ : Type}

/-- Whether a stub's channel has been closed. -/
def closed (w : Connections) : Stub → Bool
  | .bound channel => (w.channels[channel]?).any Channel.closed
  | .given _ => false

/-- What a stub reaches. -/
def peer (w : Connections) (net : Net ρ) : Stub → Peer ρ
  | .bound channel => net.server ((w.channels[channel]?).elim ⟨false, []⟩ Channel.target)
  | .given stub => net.given stub

/-- A stub's method, called: it sends its request, or raises what grpc-python does on a
closed channel. -/
def perform {α : Type} (w : Connections) (net : Net ρ) (stub : Stub) (request : Request)
    (metadata : Metadata) (answer : Except CallError α) : Traced Sent CallError α :=
  if w.closed stub then Traced.raise (.valueError (net.closedText request))
  else Traced.call ⟨request, metadata⟩ answer

end Connections

/-! ### The methods -/

namespace Client

variable [Message Status] [Message ErrorInfo] {ρ : Type} (w : Connections) (net : Net ρ)
  (c : Client)

/-- A method of the client's stub on a request, invoked under the metadata of the request's
correlation. -/
def rpc {α : Type} (request : Request) (correlationId : Option UUID)
    (answer : Peer ρ → Metadata → Except CallError α) : Traced Sent ClientFailure α :=
  let md := correlatedMetadata (some (.uuid (correlationId.getD default)))
  invoke (w.perform net c.stub request md (answer (w.peer net c.stub) md))

/-- `QueryClient.get_event_book`. -/
def getEventBook (query : Query) : Traced Sent ClientFailure EventBook :=
  c.rpc w net (.getEventBook query) query.correlationId fun peer md => peer.getEventBook query md

/-- `QueryClient.get_events`. -/
def getEvents (query : Query) : Traced Sent ClientFailure (List EventBook) :=
  c.rpc w net (.getEvents query) query.correlationId fun peer md => do
    let response ← peer.getEvents query md
    response.drain

/-- `QueryClient.get_correlated_events`. -/
def getCorrelatedEvents [Parsing] (correlationId : UUIDArg) :
    Traced Sent ClientFailure (List EventBook) := do
  let id ← Traced.ofExcept
    ((asUUID correlationId "correlation_id").mapError ClientFailure.argument)
  let request : CorrelationQuery := ⟨some (uuidToProto id)⟩
  c.rpc w net (.getCorrelatedEvents request) request.correlationId fun peer md => do
    let response ← peer.getCorrelatedEvents request md
    response.drain

/-- `CommandHandlerClient.handle`. -/
def handle (command : CommandBook) : Traced Sent ClientFailure ρ :=
  c.rpc w net (.handle command) command.getPage.correlationId fun peer md =>
    peer.handle command md

/-- `CommandHandlerClient.handle_async`. -/
def handleAsync (command : CommandBook) : Traced Sent ClientFailure Unit :=
  c.rpc w net (.handleAsync command) command.getPage.correlationId fun peer md =>
    peer.handleAsync command md

/-- `CommandHandlerClient.handle_sync`. -/
def handleSync (command : CommandBook) : Traced Sent ClientFailure ρ :=
  c.rpc w net (.handleSync command) command.getPage.correlationId fun peer md =>
    peer.handleSync command md

/-! ### What a call comes to -/

variable {w net c} {α : Type} {request : Request} {correlationId : Option UUID}
  {answer : Peer ρ → Metadata → Except CallError α}

/-- On an open one the request is sent, once, under its correlation. -/
theorem rpc_open (h : w.closed c.stub = false) :
    c.rpc w net request correlationId answer =
      Traced.call ⟨request, correlatedMetadata (some (.uuid (correlationId.getD default)))⟩
        ((answer (w.peer net c.stub)
          (correlatedMetadata (some (.uuid (correlationId.getD default))))).mapError
            readError) := by
  rw [rpc, Connections.perform, if_neg (by simp [h])]
  rfl

end Client

end AngzarrClient
