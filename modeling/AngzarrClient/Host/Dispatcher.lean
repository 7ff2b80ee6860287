import AngzarrClient.GoogleRpc
import AngzarrClient.Router.Router

/-!
# How a component's failure leaves the host

A coded error travels as a `google.rpc.Status`: its key is the status's message and the
reason of an `ErrorInfo`, which stands first among the details with the args as its
metadata; the object of a typed refusal follows it
(`AngzarrClient.Router.CodedError.status`). The host's dispatcher aborts the call with that
status in a trailer, under the gRPC status and the key
(`AngzarrClient.Dispatcher.call`). So the key goes out three times, and the gRPC status
twice. Each servicer is the dispatcher over one of the router's deliveries.

What a dispatch raises gets to the dispatcher through two futures, the worker's and the
event loop's, and the loop's takes some exceptions for something else
(`AngzarrClient.Dispatcher.runInExecutor`). The loop is that of Python 3.10 and 3.11, the
first the client runs on; later ones hold a `RuntimeError` in a `StopIteration`'s place.
-/

namespace AngzarrClient

open Router

/-! ### The status of a coded error -/

/-- `CodedError.status`: the status a coded error travels as, or the `ValueError` of a
number an `int32` field does not hold. -/
def Router.CodedError.status [Message ErrorInfo] (error : CodedError) : Except Exc Status :=
  let info := Any.packed (⟨error.code, errorInfoDomain, error.extras.toStringMap⟩ : ErrorInfo)
  let details :=
    match error.refusal with
    | none => [info]
    | some refusal => [info, refusal]
  if h : -2 ^ 31 ≤ error.grpc ∧ error.grpc < 2 ^ 31 then
    .ok ⟨⟨error.grpc, h⟩, error.code, details⟩
  else .error (.other "ValueError" "Value out of range")

/-! ### Statuses of gRPC -/

/-- `grpc.StatusCode`. -/
inductive StatusCode where
  | ok
  | cancelled
  | unknown
  | invalidArgument
  | deadlineExceeded
  | notFound
  | alreadyExists
  | permissionDenied
  | resourceExhausted
  | failedPrecondition
  | aborted
  | outOfRange
  | unimplemented
  | internal
  | unavailable
  | dataLoss
  | unauthenticated
  deriving DecidableEq

namespace StatusCode

/-- A status's number, `value[0]`. -/
def value : StatusCode → ℤ
  | .ok => 0
  | .cancelled => 1
  | .unknown => 2
  | .invalidArgument => 3
  | .deadlineExceeded => 4
  | .notFound => 5
  | .alreadyExists => 6
  | .permissionDenied => 7
  | .resourceExhausted => 8
  | .failedPrecondition => 9
  | .aborted => 10
  | .outOfRange => 11
  | .unimplemented => 12
  | .internal => 13
  | .unavailable => 14
  | .dataLoss => 15
  | .unauthenticated => 16

/-- Every status, in the order of their numbers. -/
def all : List StatusCode :=
  [.ok, .cancelled, .unknown, .invalidArgument, .deadlineExceeded, .notFound, .alreadyExists,
    .permissionDenied, .resourceExhausted, .failedPrecondition, .aborted, .outOfRange,
    .unimplemented, .internal, .unavailable, .dataLoss, .unauthenticated]

theorem value_injective : Function.Injective value := by
  intro a b h
  cases a <;> cases b <;> first | rfl | exact absurd h (by decide)

/-- A status's number fits an `int32` field. -/
theorem value_range (code : StatusCode) : -2 ^ 31 ≤ code.value ∧ code.value < 2 ^ 31 := by
  cases code <;> decide

end StatusCode

/-- `grpc_status_code`: the status of a number, `INTERNAL` when it is none's. -/
def grpcStatusCode (code : ℤ) : StatusCode :=
  (StatusCode.all.find? fun status => status.value = code).getD .internal

/-- A coded error's own status is known to gRPC. -/
theorem value_grpcStatusCode (code : GrpcCode) :
    (grpcStatusCode code.number).value = code.number := by
  cases code <;> rfl

/-! ### The dispatcher -/

/-- `_STATUS_DETAILS_KEY`. -/
def statusDetailsKey : String := "grpc-status-details-bin"

/-- What a servicer aborts a call with. -/
structure Abort where
  trailingMetadata : List (String × Bytes)
  code : StatusCode
  details : String
  deriving DecidableEq

/-- How a servicer's method ends, if it does: with its response or another object, aborting,
raising, or cancelled. -/
inductive Reply (α : Type) where
  | response (answer : α)
  | value (object : String)
  | aborted (abort : Abort)
  | raised (exc : Exc)
  | cancelled
  /-- It never ends of itself. -/
  | pending

/-- Whether it never ends of itself. -/
def Reply.isPending {α : Type} : Reply α → Bool
  | .pending => true
  | _ => false

/-- What awaiting a dispatch on the pool comes to. -/
inductive Awaited (α : Type) where
  | returned (answer : α)
  | value (object : String)
  | raised (exc : Exc)
  | cancelled
  | pending

namespace Dispatcher

/-- `await loop.run_in_executor(executor, fn, request)`, of what `fn` returned or raised. The
loop's future holds no `StopIteration`, so its result never comes; one of a class made from it
ends the await with the value it carries; and `concurrent.futures.CancelledError` becomes the
loop's own, which is no `Exception`. -/
def runInExecutor {α : Type} : Except Exc α → Awaited α
  | .ok answer => .returned answer
  | .error (.stopIteration _) => .pending
  | .error (.stopIterationOf _ _ value) => .value value
  | .error (.cancelledError _) => .cancelled
  | .error exc => .raised exc

/-- What leaves a coroutine that raises: a `StopIteration` as a `RuntimeError`. -/
def leavingCoroutine : Exc → Exc
  | .stopIteration _ => .other "RuntimeError" "coroutine raised StopIteration"
  | .stopIterationOf _ _ _ => .other "RuntimeError" "coroutine raised StopIteration"
  | exc => exc

/-- The failure the dispatcher reports: a coded error as it is, and any other exception as a
panicked handler, once `str(exc)` was logged; what that raises leaves `call`. -/
def failureOf [Spec] : Exc → Except Exc CodedError
  | .coded error => .ok error
  | .textless _ _ raised => .error (leavingCoroutine raised)
  | _ => .ok (CodedError.new unhandledHandlerError none
      (Dict.ofList [(ReasonArg.cause.name, handlerPanicked)]) none)

/-- `context.abort(...)` with a failure, its status in the trailer. -/
def abort [Message ErrorInfo] [Message Status] {α : Type} (failure : CodedError) : Reply α :=
  match failure.status with
  | .error exc => .raised exc
  | .ok status => .aborted
      { trailingMetadata := [(statusDetailsKey, Message.serialize status)]
        code := grpcStatusCode failure.grpc
        details := failure.code }

/-- `_Dispatcher.call`, on what the router's dispatch returned or raised. -/
def call [Spec] [Message ErrorInfo] [Message Status] {α : Type} (dispatched : Except Exc α) :
    Reply α :=
  match runInExecutor dispatched with
  | .returned answer => .response answer
  | .value object => .value object
  | .cancelled => .cancelled
  | .pending => .pending
  | .raised exc =>
    match failureOf exc with
    | .error exc => .raised exc
    | .ok failure => abort failure

end Dispatcher

/-! ### The servicers -/

section Servicers

variable [Spec] [Message ErrorInfo] [Message Status] {σ : Type}

/-- `_CommandHandlerServicer.Handle`. -/
def CommandHandlerServicer.handle [Message σ] [Message CommandRefused] (router : Router σ)
    (request : ContextualCommand) : Reply CommandHandlerResponse :=
  Dispatcher.call (router.dispatch request).result

/-- `_PolicyServicer.Handle`. -/
def PolicyServicer.handle (router : Router σ) (request : EventBook) : Reply PolicyResponse :=
  Dispatcher.call (router.dispatchPolicy request).result

/-- `_PolicyServicer.OnRefused`. -/
def PolicyServicer.onRefused (router : Router σ) (request : Refusal) : Reply OnRefusedResponse :=
  Dispatcher.call (router.dispatchRefusal request).result

/-- `_ProjectorServicer.Handle`. -/
def ProjectorServicer.handle [Message σ] (router : Router σ) (request : EventBook) :
    Reply Projection :=
  Dispatcher.call (router.dispatchProjector request).result

/-- `Upcaster`: an application's upcaster, which the host only calls, so its messages are
any. -/
abbrev Upcaster (ρ α : Type) := ρ → Except Exc α

/-- `_UpcasterServicer.Upcast`. -/
def UpcasterServicer.upcast {ρ α : Type} (upcaster : Upcaster ρ α) (request : ρ) : Reply α :=
  Dispatcher.call (upcaster request)

end Servicers

/-! ### Where coded errors come from -/

/-- What the spec's generated part promises: a key's declared status is a gRPC one, or
none. -/
def DeclaresStatuses [Spec] : Prop :=
  ∀ key status, Spec.statuses key = some status → status = 0 ∨ ∃ code : GrpcCode,
    status = code.number

/-- **The coded errors of a component**: one made under any key, any status of `GrpcCode`
or the key's declared one, any args and any refusal, or by any of the five classes a
handler fails with. -/
inductive Raised [Spec] : CodedError → Prop where
  | coded (key : String) (code : Option GrpcCode) (args : Dict String String)
      (refusal : Option Any) :
      Raised (CodedError.new key (code.map GrpcCode.number) args refusal)
  | rejection {key : String} {status : ℤ} {args : Dict String String} {error : CodedError}
      (h : Router.rejection key status args = .ok error) : Raised error
  | refused {packed : Any} {status : ℤ} {error : CodedError}
      (h : Router.refused packed status = .ok error) : Raised error
  | immediate (key : String) (args : Dict String String) : Raised (Router.immediate key args)
  | bug (key : String) (args : Dict String String) : Raised (Router.bug key args)
  | retryableBug {key : String} {status : ℤ} {args : Dict String String} {error : CodedError}
      (h : Router.retryableBug key status args = .ok error) : Raised error

theorem exists_declaredStatus [Spec] (hspec : DeclaresStatuses) (key : String) :
    ∃ code : GrpcCode, declaredStatus key = code.number := by
  unfold declaredStatus
  cases hstatus : Spec.statuses key with
  | none => exact ⟨.internal, rfl⟩
  | some status =>
    by_cases hzero : status = 0
    · exact ⟨.internal, if_pos hzero⟩
    · obtain ⟨code, hcode⟩ := (hspec key status hstatus).resolve_left hzero
      exact ⟨code, (if_neg hzero).trans hcode⟩

/-- An error made under a status that passed its check carries one of those allowed. -/
theorem exists_of_checked {status : ℤ} {allowed : List GrpcCode} {what : String}
    {make : ℤ → CodedError} (hmake : ∀ status, (make status).grpc = status) {error : CodedError}
    (h : (do let status ← check status allowed what; return make status) = .ok error) :
    ∃ code : GrpcCode, error.grpc = code.number := by
  unfold check at h
  split at h
  · next hmem =>
    obtain ⟨code, -, hcode⟩ := List.mem_map.mp hmem
    obtain rfl : make status = error := Except.ok.inj h
    exact ⟨code, (hmake status).trans hcode.symm⟩
  · cases h

/-- **Every coded error of a component carries a status of `GrpcCode`.** -/
theorem Raised.exists_grpc [Spec] (hspec : DeclaresStatuses) {error : CodedError}
    (h : Raised error) : ∃ code : GrpcCode, error.grpc = code.number := by
  cases h with
  | coded key code args refusal =>
    cases code with
    | none => exact exists_declaredStatus hspec key
    | some code => exact ⟨code, rfl⟩
  | rejection h => exact exists_of_checked (fun _ => rfl) h
  | refused h => exact exists_of_checked (fun _ => rfl) h
  | immediate key args => exact ⟨.aborted, rfl⟩
  | bug key args => exact exists_declaredStatus hspec unhandledHandlerError
  | retryableBug h => exact exists_of_checked (fun _ => rfl) h

end AngzarrClient
