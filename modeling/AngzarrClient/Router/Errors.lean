import AngzarrClient.Lib.Dict
import AngzarrClient.Lib.Text
import AngzarrClient.Proto

/-!
# The router's errors

A coded error is a key, a gRPC status and an argument map, never text
(`AngzarrClient.Router.CodedError`). Business code fails with one, with an
`UnclassifiedError`, or with any other exception; the last two are what
`AngzarrClient.Router.escaped` answers as
`ROUTER_REASON_UNHANDLED_HANDLER_ERROR`, and a failing applier's error becomes the
`cause` args of the fold failure it makes (`AngzarrClient.Router.asCause`).

Of the other exceptions those are kept apart that the event loop takes for something
else, and those that have no text: the router answers them like the rest, and the host,
where they come past the router, does not.

The five classes a handler fails with differ only in how they shape those three
parts, so each is a function to `CodedError`; where the class checks its status it
may raise `ValueError` instead.
-/

namespace AngzarrClient

namespace Router

/-! ### Keys and arg names -/

/-- `ERROR_INFO_DOMAIN`. -/
def errorInfoDomain : String := "angzarr.io"

/-- `UNHANDLED_HANDLER_ERROR`. -/
def unhandledHandlerError : String := "ROUTER_REASON_UNHANDLED_HANDLER_ERROR"

/-- `HANDLER_PANICKED`. -/
def handlerPanicked : String := "ROUTER_REASON_HANDLER_PANICKED"

/-- `COMMAND_REFUSED`. -/
def commandRefused : String := "ROUTER_REASON_COMMAND_REFUSED"

/-- `FOLD_FAILED`. -/
def foldFailed : String := "ROUTER_REASON_FOLD_FAILED"

/-- `FOLD_FAILED_EMITTED`. -/
def foldFailedEmitted : String := "ROUTER_REASON_FOLD_FAILED_EMITTED"

/-- `PERSISTED_EVENT_CORRUPT`. -/
def persistedEventCorrupt : String := "ROUTER_REASON_PERSISTED_EVENT_CORRUPT"

/-- `ANY_DECODE_FAILED`. -/
def anyDecodeFailed : String := "ROUTER_REASON_ANY_DECODE_FAILED"

/-- `UNKNOWN_COMMAND_TYPE`. -/
def unknownCommandType : String := "ROUTER_REASON_UNKNOWN_COMMAND_TYPE"

/-- `NO_FACT_HANDLER`. -/
def noFactHandler : String := "ROUTER_REASON_NO_FACT_HANDLER"

/-- `NO_REFUSAL_HANDLER`. -/
def noRefusalHandler : String := "ROUTER_REASON_NO_REFUSAL_HANDLER"

/-- `CONFLICT_RESOLUTION_UNSUPPORTED`. -/
def conflictResolutionUnsupported : String := "ROUTER_REASON_CONFLICT_RESOLUTION_UNSUPPORTED"

/-- `NO_COMPONENT_OF_KIND`. -/
def noComponentOfKind : String := "ROUTER_REASON_NO_COMPONENT_OF_KIND"

/-- `NO_HANDLERS_REGISTERED`. -/
def noHandlersRegistered : String := "ROUTER_REASON_NO_HANDLERS_REGISTERED"

/-- `DUPLICATE_COMPONENT`. -/
def duplicateComponent : String := "ROUTER_REASON_DUPLICATE_COMPONENT"

/-- The arg names of `reason_args` the router's errors use. -/
inductive ReasonArg where
  | cause
  | sequence
  | typeUrl
  | stateTypeUrl
  | messageType
  | extErrTxt
  | refusalType
  | commandType
  deriving DecidableEq

/-- An arg's name on the wire. -/
def ReasonArg.name : ReasonArg → String
  | .cause => "cause"
  | .sequence => "sequence"
  | .typeUrl => "type_url"
  | .stateTypeUrl => "state_type_url"
  | .messageType => "message_type"
  | .extErrTxt => "ext_err_txt"
  | .refusalType => "refusal_type"
  | .commandType => "command_type"

/-! ### Statuses -/

/-- `GrpcCode`: the statuses a coded error travels with. -/
inductive GrpcCode where
  | unknown
  | invalidArgument
  | deadlineExceeded
  | notFound
  | alreadyExists
  | permissionDenied
  | resourceExhausted
  | failedPrecondition
  | aborted
  | outOfRange
  | unimplemented
  | internal
  | unavailable
  | dataLoss
  deriving DecidableEq

/-- The number of a status on the wire. -/
def GrpcCode.number : GrpcCode → ℤ
  | .unknown => 2
  | .invalidArgument => 3
  | .deadlineExceeded => 4
  | .notFound => 5
  | .alreadyExists => 6
  | .permissionDenied => 7
  | .resourceExhausted => 8
  | .failedPrecondition => 9
  | .aborted => 10
  | .outOfRange => 11
  | .unimplemented => 12
  | .internal => 13
  | .unavailable => 14
  | .dataLoss => 15

/-- `_BUSINESS`: the statuses a business rejection may carry. -/
def business : List GrpcCode :=
  [.failedPrecondition, .invalidArgument, .notFound, .alreadyExists, .outOfRange,
    .permissionDenied]

/-- `_RETRYABLE`: the statuses of a bug marked retryable. -/
def retryable : List GrpcCode := [.unavailable, .deadlineExceeded, .resourceExhausted]

/-! ### Coded errors -/

/-- `CodedError`: a key, a gRPC status, an argument map, and for a typed refusal its
object. -/
structure CodedError where
  code : String
  grpc : ℤ
  extras : Dict String String
  refusal : Option Any
  deriving DecidableEq

/-- What business code can raise, interrupts left out: a coded error, the
`UnclassifiedError`, or any other exception, with its class and its text. -/
inductive Exc where
  | coded (error : CodedError)
  | unclassified (text : String)
  | other (type text : String)
  /-- `StopIteration` itself. -/
  | stopIteration (text : String)
  /-- An exception of a class made from `StopIteration`, with the value it carries. -/
  | stopIterationOf (type text value : String)
  /-- `concurrent.futures.CancelledError`. -/
  | cancelledError (text : String)
  /-- An exception whose `str` raises in turn, marked where it is an `UnclassifiedError`. -/
  | textless (marked : Bool) (type : String) (raised : Exc)
  deriving DecidableEq

/-- `isinstance(exc, CodedError)`. -/
def Exc.isCoded : Exc → Bool
  | .coded _ => true
  | _ => false

/-- `isinstance(exc, UnclassifiedError)`. -/
def Exc.isUnclassified : Exc → Bool
  | .unclassified _ => true
  | .textless marked _ _ => marked
  | _ => false

/-- Whether an exception is neither: a panic. -/
def Exc.isPanic (exc : Exc) : Bool := !exc.isCoded && !exc.isUnclassified

/-- `declared_status`: the status a key travels with, `INTERNAL` where it declares
none. -/
def declaredStatus [Spec] (code : String) : ℤ :=
  match Spec.statuses code with
  | some status => if status = 0 then GrpcCode.internal.number else status
  | none => GrpcCode.internal.number

/-- `CodedError(code, grpc, extras, refusal)`: the status, unless given, is the
code's declared one. -/
def CodedError.new [Spec] (code : String) (grpc : Option ℤ) (extras : Dict String String)
    (refusal : Option Any) : CodedError where
  code := code
  grpc := grpc.getD (declaredStatus code)
  extras := extras
  refusal := refusal

/-- `flatten`: a key and its args as a wrapped cause, the key under `name` and each
arg under `<name>.<arg>`. -/
def flatten (name key : String) (args : Dict String String) : Dict String String :=
  (Dict.ofList [(name, key)]).update
    (Dict.ofList (args.entries.map fun e => (name ++ "." ++ e.1, e.2)))

/-- `_check`: the status, or the `ValueError` of one not allowed. -/
def check (status : ℤ) (allowed : List GrpcCode) (what : String) : Except Exc ℤ :=
  if status ∈ allowed.map GrpcCode.number then .ok status
  else .error (.other "ValueError" what)

/-- `type_name`: the full name a type URL names, whatever stands before its last
`/`. -/
def typeName (typeUrl : String) : String :=
  String.ofList (Text.rpartition '/' typeUrl.toList).2.2

/-- `pack`: a message in an `Any`, under the bare `/` type URL. -/
def pack {μ : Type} [Message μ] (msg : μ) : Any where
  typeUrl := "/" ++ Message.fullName μ
  value := Message.serialize msg

/-! ### The classes a handler fails with -/

/-- `Rejection(key, status, **args)`. -/
def rejection [Spec] (key : String) (status : ℤ) (args : Dict String String) :
    Except Exc CodedError := do
  let status ← check status business "a rejection"
  return CodedError.new key (some status) args none

/-- `Refused(refusal, status)`, its object packed. -/
def refused [Spec] (packed : Any) (status : ℤ) : Except Exc CodedError := do
  let status ← check status business "a typed refusal"
  return CodedError.new commandRefused (some status)
    (Dict.ofList [(ReasonArg.refusalType.name, typeName packed.typeUrl)]) (some packed)

/-- `Immediate(key, **args)`. -/
def immediate [Spec] (key : String) (args : Dict String String) : CodedError :=
  CodedError.new key (some GrpcCode.aborted.number) args none

/-- `Bug(key, **args)`. -/
def bug [Spec] (key : String) (args : Dict String String) : CodedError :=
  CodedError.new unhandledHandlerError none (flatten ReasonArg.cause.name key args) none

/-- `RetryableBug(key, status, **args)`. -/
def retryableBug [Spec] (key : String) (status : ℤ) (args : Dict String String) :
    Except Exc CodedError := do
  let status ← check status retryable "a retryable bug"
  return CodedError.new unhandledHandlerError (some status)
    (flatten ReasonArg.cause.name key args) none

/-! ### What the router raises -/

/-- `any_decode_error`: bytes that do not decode, under the runtime's own text. -/
def anyDecodeError [Spec] (typeUrl text : String) : CodedError :=
  CodedError.new anyDecodeFailed none
    (Dict.ofList [(ReasonArg.messageType.name, typeName typeUrl),
      (ReasonArg.extErrTxt.name, text)]) none

/-- `unknown_type`: a type no handler claims, named as it was given. -/
def unknownType [Spec] (code typeUrl : String) : CodedError :=
  CodedError.new code none (Dict.ofList [(ReasonArg.typeUrl.name, typeUrl)]) none

/-- `escaped`: what an exception escaping business code is answered as. -/
def escaped [Spec] : Exc → CodedError
  | .coded error => error
  | exc =>
    if exc.isUnclassified then CodedError.new unhandledHandlerError none ∅ none
    else CodedError.new unhandledHandlerError none
      (Dict.ofList [(ReasonArg.cause.name, handlerPanicked)]) none

/-- An unclassified error is answered with no cause, whatever it says. -/
theorem escaped_of_isUnclassified [Spec] {exc : Exc} (h : exc.isUnclassified = true) :
    escaped exc = CodedError.new unhandledHandlerError none ∅ none := by
  cases exc with
  | unclassified text => rfl
  | textless marked type raised => exact if_pos h
  | _ => cases h

/-- So is a panic, with the cause that it is one. -/
theorem escaped_of_isPanic [Spec] {exc : Exc} (h : exc.isPanic = true) :
    escaped exc = CodedError.new unhandledHandlerError none
      (Dict.ofList [(ReasonArg.cause.name, handlerPanicked)]) none := by
  obtain ⟨hcoded, hunclassified⟩ := Bool.and_eq_true_iff.mp h
  rw [Bool.not_eq_true'] at hcoded hunclassified
  cases exc with
  | coded error => cases hcoded
  | _ => simp [escaped, hunclassified]

/-- `as_cause`: a failing applier's failure as the `cause` args of the fold failure
it makes. -/
def asCause [Spec] (exc : Exc) : Dict String String :=
  let coded := escaped exc
  if coded.code = unhandledHandlerError then coded.extras
  else flatten ReasonArg.cause.name coded.code coded.extras

end Router

end AngzarrClient
