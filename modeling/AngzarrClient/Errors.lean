import AngzarrClient.Host.Dispatcher
import AngzarrClient.Router.Ledger

/-!
# How a failure is read by a client

The client reads a failed call's `google.rpc.Status` off its trailer, or makes one of the
call's own code and message where there is none that decodes. The first detail that
unpacks as an `ErrorInfo` names the failure (`AngzarrClient.GRPCError.new`).

The host puts the key and the args there, first of the details, so what the client reads
is what the component failed with, whatever the refusal that follows: it may be an
`ErrorInfo` itself (`AngzarrClient.coded_failure_survives`).
-/

namespace AngzarrClient

open Router

/-! ### The client's error -/

/-- What the client reads of a `grpc.RpcError`. -/
structure RpcError where
  code : StatusCode
  details : Option String
  /-- The trailing metadata, where the error has any. -/
  trailingMetadata : Option (List (String × Bytes))
  deriving DecidableEq

/-- `_rpc_status`: the status the trailer carries, else one of the error's own code and
message. -/
def rpcStatus [Message Status] (error : RpcError) : Status :=
  let bare : Status := ⟨⟨error.code.value, error.code.value_range⟩, error.details.getD "", []⟩
  match (error.trailingMetadata.getD []).find? fun entry => entry.1 = statusDetailsKey with
  | none => bare
  | some (_, value) =>
    match Message.parse value with
    | .ok status => status
    | .error _ => bare

/-- `_error_info`: the first detail that unpacks as an `ErrorInfo`, or the text of the
`DecodeError` of one that only claims to. -/
def errorInfo [Message ErrorInfo] : List Any → Except String (Option ErrorInfo)
  | [] => .ok none
  | detail :: rest =>
    match detail.unpack ErrorInfo with
    | .error text => .error text
    | .ok (some info) => .ok (some info)
    | .ok none => errorInfo rest

/-- `GRPCError`: the failed call, its status, and the key and the args it is read as. -/
structure GRPCError where
  rpcError : RpcError
  status : Status
  code : String
  details : StringMap

namespace GRPCError

/-- `GRPCError(cause, code=, details=)`. -/
def new [Message Status] [Message ErrorInfo] (cause : RpcError) (code : Option String)
    (details : Option StringMap) : Except String GRPCError := do
  let status := rpcStatus cause
  let info ← errorInfo status.details
  return {
    rpcError := cause
    status := status
    code := code.getD <|
      match info with
      | some info => info.reason
      | none => "GRPC_ERROR"
    details :=
      match details, info with
      | some details, _ => details
      | none, some info => info.metadata
      | none, none => ∅ }

/-- `grpc_code`. -/
def grpcCode (error : GRPCError) : StatusCode := error.rpcError.code

/-- `is_not_found`. -/
def isNotFound (error : GRPCError) : Bool := error.grpcCode = .notFound

/-- `is_precondition_failed`. -/
def isPreconditionFailed (error : GRPCError) : Bool := error.grpcCode = .failedPrecondition

/-- `is_invalid_argument`. -/
def isInvalidArgument (error : GRPCError) : Bool := error.grpcCode = .invalidArgument

/-- `is_aborted`. -/
def isAborted (error : GRPCError) : Bool := error.grpcCode = .aborted

/-- `is_connection_error`. -/
def isConnectionError (error : GRPCError) : Bool := error.grpcCode = .unavailable

/-- What a client can tell failures apart by: the key, the args, the gRPC status and the
second of the status's details. -/
def reading (error : GRPCError) : String × StringMap × StatusCode × Option Any :=
  (error.code, error.details, error.grpcCode, error.status.details[1]?)

end GRPCError

/-! ### Across the wire -/

/-- **What gRPC delivers of an aborted call**: the code, the message and the trailer as
they were sent, among other metadata perhaps, none before it under its key. -/
structure Delivered (abort : Abort) (error : RpcError) : Prop where
  code : error.code = abort.code
  details : error.details = some abort.details
  trailer : ∃ before after, error.trailingMetadata =
      some (before ++ abort.trailingMetadata ++ after) ∧
    ∀ entry ∈ before, entry.1 ≠ statusDetailsKey

/-- **A coded error read as what it was**: its key, its args, its status – each predicate
of the client's holds exactly for its own – and its refusal, the second detail. -/
structure ReadAs (failure : CodedError) (error : GRPCError) : Prop where
  code : error.code = failure.code
  details : error.details = failure.extras.toStringMap
  grpcCode : error.grpcCode.value = failure.grpc
  notFound : error.isNotFound = true ↔ failure.grpc = GrpcCode.notFound.number
  preconditionFailed : error.isPreconditionFailed = true ↔
    failure.grpc = GrpcCode.failedPrecondition.number
  invalidArgument : error.isInvalidArgument = true ↔
    failure.grpc = GrpcCode.invalidArgument.number
  aborted : error.isAborted = true ↔ failure.grpc = GrpcCode.aborted.number
  connectionError : error.isConnectionError = true ↔
    failure.grpc = GrpcCode.unavailable.number
  refusal : error.status.details[1]? = failure.refusal

/-- Two coded errors of one key, one status, the same args and the same refusal. -/
structure SameFailure (failure failure' : CodedError) : Prop where
  code : failure.code = failure'.code
  grpc : failure.grpc = failure'.grpc
  args : ∀ name, failure.extras.get? name = failure'.extras.get? name
  refusal : failure.refusal = failure'.refusal

/-- **What is read the same was the same failure.** -/
theorem ReadAs.sameFailure {failure failure' : CodedError} {error error' : GRPCError}
    (h : ReadAs failure error) (h' : ReadAs failure' error')
    (hreading : error.reading = error'.reading) : SameFailure failure failure' := by
  obtain ⟨hcode, hrest⟩ := Prod.mk.inj hreading
  obtain ⟨hdetails, hrest⟩ := Prod.mk.inj hrest
  obtain ⟨hgrpc, hrefusal⟩ := Prod.mk.inj hrest
  refine ⟨?_, ?_, fun name => ?_, ?_⟩
  · exact h.code.symm.trans (hcode.trans h'.code)
  · rw [← h.grpcCode, ← h'.grpcCode, hgrpc]
  · rw [← Dict.lookup_toStringMap, ← Dict.lookup_toStringMap, ← h.details, ← h'.details, hdetails]
  · exact h.refusal.symm.trans (hrefusal.trans h'.refusal)

/-- A client's predicate of a status holds exactly for that status's number. -/
theorem grpcCode_eq_iff {error : GRPCError} {failure : CodedError} {status : StatusCode}
    {code : GrpcCode} (hcode : error.grpcCode.value = failure.grpc)
    (hstatus : status.value = code.number) :
    decide (error.grpcCode = status) = true ↔ failure.grpc = code.number := by
  rw [decide_eq_true_eq, ← hcode, ← hstatus]
  exact StatusCode.value_injective.eq_iff.symm

section Wire

variable [Message Status] [Message ErrorInfo]

omit [Message ErrorInfo] in
/-- The status of a delivered trailer is the one that was sent. -/
theorem rpcStatus_delivered {abort : Abort} {error : RpcError} {status : Status}
    (h : Delivered abort error)
    (habort : abort.trailingMetadata = [(statusDetailsKey, Message.serialize status)]) :
    rpcStatus error = status := by
  obtain ⟨before, after, htrailing, hbefore⟩ := h.trailer
  have hfind : (error.trailingMetadata.getD []).find? (fun entry => entry.1 = statusDetailsKey) =
      some (statusDetailsKey, Message.serialize status) := by
    have hnone : before.find? (fun entry => entry.1 = statusDetailsKey) = none :=
      List.find?_eq_none.mpr fun entry hmem => by simpa using hbefore entry hmem
    rw [htrailing, habort]
    simp [hnone]
  rw [rpcStatus, hfind]
  simp

omit [Message Status] in
/-- The `ErrorInfo` that stands first names the failure, whatever follows it. -/
theorem errorInfo_packed (hname : '/' ∉ (Message.fullName ErrorInfo).toList) (info : ErrorInfo)
    (rest : List Any) : errorInfo (Any.packed info :: rest) = .ok (some info) := by
  rw [errorInfo, Any.unpack_packed hname]

variable [Spec]

/-- **A coded error aborts its call** under its status and its key, its whole status in the
trailer. -/
theorem call_coded {α : Type} {failure : CodedError} {code : GrpcCode}
    (hgrpc : failure.grpc = code.number) :
    ∃ (status : Status) (abort : Abort),
      (Dispatcher.call (.error (.coded failure)) : Reply α) = .aborted abort ∧
      abort.code.value = failure.grpc ∧
      abort.trailingMetadata = [(statusDetailsKey, Message.serialize status)] ∧
      status.details = Any.packed (⟨failure.code, errorInfoDomain, failure.extras.toStringMap⟩ :
        ErrorInfo) :: failure.refusal.toList := by
  have hrange : -2 ^ 31 ≤ failure.grpc ∧ failure.grpc < 2 ^ 31 := by
    rw [hgrpc, ← value_grpcStatusCode]
    exact StatusCode.value_range _
  obtain ⟨status, hstatus, hdetails⟩ : ∃ status, failure.status = .ok status ∧
      status.details = Any.packed (⟨failure.code, errorInfoDomain, failure.extras.toStringMap⟩ :
        ErrorInfo) :: failure.refusal.toList := by
    refine ⟨_, dif_pos hrange, ?_⟩
    cases failure.refusal <;> rfl
  refine ⟨status, ⟨[(statusDetailsKey, Message.serialize status)], grpcStatusCode failure.grpc,
    failure.code⟩, ?_, ?_, rfl, hdetails⟩
  · simp only [Dispatcher.call, Dispatcher.runInExecutor, Dispatcher.failureOf, Dispatcher.abort,
      hstatus]
  · rw [hgrpc]
    exact value_grpcStatusCode code

/-- The host aborts the call of a component's failure, and read back by the client the
failure is what it was. -/
theorem Raised.exists_readAs (hspec : DeclaresStatuses)
    (hname : Message.fullName ErrorInfo = "google.rpc.ErrorInfo") {failure : CodedError}
    (hraised : Raised failure) (α : Type) :
    ∃ abort, (Dispatcher.call (.error (.coded failure)) : Reply α) = .aborted abort ∧
      ∀ rpcError, Delivered abort rpcError →
        ∃ error, GRPCError.new rpcError none none = .ok error ∧ ReadAs failure error := by
  have hslash : '/' ∉ (Message.fullName ErrorInfo).toList := by
    rw [hname]
    decide
  obtain ⟨code, hgrpc⟩ := hraised.exists_grpc hspec
  obtain ⟨status, abort, hcall, hcode, htrailer, hdetails⟩ := call_coded (α := α) hgrpc
  refine ⟨abort, hcall, fun rpcError hdelivered => ?_⟩
  have hstatus := rpcStatus_delivered hdelivered htrailer
  have hinfo := errorInfo_packed hslash
    ⟨failure.code, errorInfoDomain, failure.extras.toStringMap⟩ failure.refusal.toList
  rw [← hdetails, ← hstatus] at hinfo
  refine ⟨_, by rw [GRPCError.new, hinfo]; rfl, ?_⟩
  have hvalue : rpcError.code.value = failure.grpc := by rw [hdelivered.code, hcode]
  refine ⟨rfl, rfl, hvalue, grpcCode_eq_iff hvalue rfl, grpcCode_eq_iff hvalue rfl,
    grpcCode_eq_iff hvalue rfl, grpcCode_eq_iff hvalue rfl, grpcCode_eq_iff hvalue rfl, ?_⟩
  show (rpcStatus rpcError).details[1]? = failure.refusal
  rw [hstatus, hdetails]
  cases failure.refusal <;> rfl

/-- **A component's coded failure survives the wire.** The host aborts the call; read back
by the client the failure is what it was; and whatever is read the same was the same. -/
theorem coded_failure_survives (hspec : DeclaresStatuses)
    (hname : Message.fullName ErrorInfo = "google.rpc.ErrorInfo") {failure : CodedError}
    (hraised : Raised failure) (α : Type) :
    ∃ abort, (Dispatcher.call (.error (.coded failure)) : Reply α) = .aborted abort ∧
      ∀ rpcError, Delivered abort rpcError →
        ∃ error, GRPCError.new rpcError none none = .ok error ∧ ReadAs failure error ∧
          ∀ failure', Raised failure' → ∀ abort' rpcError' error',
            (Dispatcher.call (.error (.coded failure')) : Reply α) = .aborted abort' →
            Delivered abort' rpcError' → GRPCError.new rpcError' none none = .ok error' →
            error.reading = error'.reading → SameFailure failure failure' := by
  obtain ⟨abort, hcall, hread⟩ := hraised.exists_readAs hspec hname α
  refine ⟨abort, hcall, fun rpcError hdelivered => ?_⟩
  obtain ⟨error, hnew, hreadAs⟩ := hread rpcError hdelivered
  refine ⟨error, hnew, hreadAs, ?_⟩
  intro failure' hraised' abort' rpcError' error' hcall' hdelivered' hnew' hreading
  -- The other failure's reading is the one its own call gives.
  obtain ⟨sent, hsent, hread'⟩ := hraised'.exists_readAs hspec hname α
  obtain rfl : sent = abort' := Reply.aborted.inj (hsent.symm.trans hcall')
  obtain ⟨found, hfound, hreadAs'⟩ := hread' rpcError' hdelivered'
  obtain rfl : found = error' := Except.ok.inj (hfound.symm.trans hnew')
  exact hreadAs.sameFailure hreadAs' hreading

end Wire

open scoped Ledger GoogleRpc in
/-- A typed refusal whose object is an `ErrorInfo` of its own is read as the refusal. -/
theorem coded_failure_survives_refused :
    ∃ failure, Router.refused (Any.packed (⟨"OTHER", "elsewhere", ∅⟩ : ErrorInfo))
        GrpcCode.failedPrecondition.number = .ok failure ∧
      ∃ rpcError error, GRPCError.new rpcError none none = .ok error ∧ ReadAs failure error := by
  have hspec : DeclaresStatuses := by
    intro key status h
    cases h
  obtain ⟨failure, hfailure⟩ :
      ∃ failure, Router.refused (Any.packed (⟨"OTHER", "elsewhere", ∅⟩ : ErrorInfo))
        GrpcCode.failedPrecondition.number = .ok failure := ⟨_, rfl⟩
  refine ⟨failure, hfailure, ?_⟩
  obtain ⟨abort, -, hread⟩ := coded_failure_survives hspec rfl (.refused hfailure) Unit
  obtain ⟨error, hnew, hreadAs, -⟩ := hread
    ⟨abort.code, some abort.details, some abort.trailingMetadata⟩
    ⟨rfl, rfl, [], [], by simp, nofun⟩
  exact ⟨_, error, hnew, hreadAs⟩

end AngzarrClient
