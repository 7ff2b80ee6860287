import AngzarrClient.Errors
import AngzarrClient.Router.Ledger
import AngzarrClient.Router.Pipeline
import Mathlib.Algebra.GroupWithZero.Nat

/-!
# What a handler requires

A handler opens with what it requires of its input and of the state: each helper returns, or
raises the rejection it stands for (`AngzarrClient.Validation.require`). The helpers are one
check over their own values (`AngzarrClient.Validation.Helper`), whose status is one a
business rejection may carry, so none is refused by the rejection's own check.

A command handler that opens with some checks has one of two outcomes. Where all hold it is
the handler without them; otherwise the first that does not hold is what the caller's client
reads, by its key, its status and its args, whatever comes after it
(`AngzarrClient.Validation.first_failing_check_is_read`).
-/

namespace AngzarrClient

open Router
open Router.AggregateDispatch (book factPayload)

namespace Validation

/-! ### The helpers -/

/-- What a helper requires, and the rejection it raises. -/
structure Check where
  holds : Bool
  status : GrpcCode
  code : String
  args : Dict String String
  business : status ∈ Router.business

section Helpers

variable [Spec]

/-- The rejection of a check. -/
def Check.rejection (check : Check) : CodedError :=
  CodedError.new check.code (some check.status.number) check.args none

/-- `_reject`, where a check does not hold. -/
def require (check : Check) : Except Exc Unit :=
  if check.holds = true then .ok ()
  else (Router.rejection check.code check.status.number check.args).bind fun error =>
    .error (.coded error)

/-- `require_exists`. -/
def requireExists (present : Bool) (context : String) : Except Exc Unit :=
  require ⟨present, .notFound, "ENTITY_NOT_FOUND", Dict.ofList [("context", context)], by decide⟩

/-- `require_not_exists`. -/
def requireNotExists (present : Bool) (context : String) : Except Exc Unit :=
  require ⟨!present, .failedPrecondition, "ENTITY_ALREADY_EXISTS",
    Dict.ofList [("context", context)], by decide⟩

section Numeric

variable {ν : Type} [Zero ν]

/-- `require_positive`. A value that is not comparable with zero passes, as a `float` that is
no number does. Where the comparison itself raises, as of a `Decimal` that is none, it is no
value here. -/
def requirePositive [LE ν] [DecidableLE ν] (value : ν) (fieldName : String) : Except Exc Unit :=
  require ⟨!decide (value ≤ 0), .invalidArgument, "VALUE_NOT_POSITIVE",
    Dict.ofList [("field", fieldName)], by decide⟩

/-- `require_non_negative`. -/
def requireNonNegative [LT ν] [DecidableLT ν] (value : ν) (fieldName : String) :
    Except Exc Unit :=
  require ⟨!decide (value < 0), .invalidArgument, "VALUE_NOT_NON_NEGATIVE",
    Dict.ofList [("field", fieldName)], by decide⟩

end Numeric

/-- `require_not_empty`. -/
def requireNotEmpty {α : Type} (items : List α) (fieldName : String) : Except Exc Unit :=
  require ⟨!items.isEmpty, .invalidArgument, "COLLECTION_EMPTY",
    Dict.ofList [("field", fieldName)], by decide⟩

/-- `require_not_empty_str`. -/
def requireNotEmptyStr (value fieldName : String) : Except Exc Unit :=
  require ⟨!value.isEmpty, .invalidArgument, "VALUE_EMPTY", Dict.ofList [("field", fieldName)],
    by decide⟩

/-- `require_status`. -/
def requireStatus (actual expected context : String) : Except Exc Unit :=
  require ⟨actual = expected, .failedPrecondition, "STATUS_MISMATCH",
    Dict.ofList [("context", context)], by decide⟩

/-- `require_status_not`. -/
def requireStatusNot (actual forbidden context : String) : Except Exc Unit :=
  require ⟨actual ≠ forbidden, .failedPrecondition, "STATUS_FORBIDDEN",
    Dict.ofList [("context", context)], by decide⟩

/-! ### The helpers as checks -/

/-- **What the helpers check**: a call of each, beside its condition and the rejection it
raises. -/
inductive Helper : Except Exc Unit → Check → Prop where
  | requireExists (present : Bool) (context : String) :
      Helper (requireExists present context)
        ⟨present, .notFound, "ENTITY_NOT_FOUND", Dict.ofList [("context", context)], by decide⟩
  | requireNotExists (present : Bool) (context : String) :
      Helper (requireNotExists present context)
        ⟨!present, .failedPrecondition, "ENTITY_ALREADY_EXISTS",
          Dict.ofList [("context", context)], by decide⟩
  | requirePositive {ν : Type} [Zero ν] [LE ν] [DecidableLE ν] (value : ν) (fieldName : String) :
      Helper (requirePositive value fieldName)
        ⟨!decide (value ≤ 0), .invalidArgument, "VALUE_NOT_POSITIVE",
          Dict.ofList [("field", fieldName)], by decide⟩
  | requireNonNegative {ν : Type} [Zero ν] [LT ν] [DecidableLT ν] (value : ν)
      (fieldName : String) :
      Helper (requireNonNegative value fieldName)
        ⟨!decide (value < 0), .invalidArgument, "VALUE_NOT_NON_NEGATIVE",
          Dict.ofList [("field", fieldName)], by decide⟩
  | requireNotEmpty {α : Type} (items : List α) (fieldName : String) :
      Helper (requireNotEmpty items fieldName)
        ⟨!items.isEmpty, .invalidArgument, "COLLECTION_EMPTY",
          Dict.ofList [("field", fieldName)], by decide⟩
  | requireNotEmptyStr (value fieldName : String) :
      Helper (requireNotEmptyStr value fieldName)
        ⟨!value.isEmpty, .invalidArgument, "VALUE_EMPTY", Dict.ofList [("field", fieldName)],
          by decide⟩
  | requireStatus (actual expected context : String) :
      Helper (requireStatus actual expected context)
        ⟨actual = expected, .failedPrecondition, "STATUS_MISMATCH",
          Dict.ofList [("context", context)], by decide⟩
  | requireStatusNot (actual forbidden context : String) :
      Helper (requireStatusNot actual forbidden context)
        ⟨actual ≠ forbidden, .failedPrecondition, "STATUS_FORBIDDEN",
          Dict.ofList [("context", context)], by decide⟩

theorem Helper.eq_require {call : Except Exc Unit} {check : Check} (h : Helper call check) :
    call = require check := by
  cases h <;> rfl

/-- **Helpers called in a row are their checks in a row.** -/
theorem forM_helpers {calls : List (Except Exc Unit)} {checks : List Check}
    (h : List.Forall₂ Helper calls checks) : forM calls id = forM checks require := by
  induction h with
  | nil => rfl
  | cons hcall _ ih => rw [List.forM_cons, List.forM_cons, ih, id, hcall.eq_require]

/-! ### Checks in a row -/

/-- A check that does not hold raises its rejection, and no `ValueError`. -/
theorem require_of_not_holds {check : Check} (h : check.holds = false) :
    require check = .error (.coded check.rejection) := by
  have hstatus : check.status.number ∈ Router.business.map GrpcCode.number :=
    List.mem_map_of_mem check.business
  rw [require, if_neg (by rw [h]; exact Bool.false_ne_true), Router.rejection, Router.check,
    if_pos hstatus]
  rfl

/-- **The first check that does not hold raises.** -/
theorem forM_require (checks : List Check) :
    forM checks require = match checks.find? (!·.holds) with
      | none => .ok ()
      | some check => .error (.coded check.rejection) := by
  induction checks with
  | nil => rfl
  | cons check checks ih =>
    cases hholds : check.holds with
    | true =>
      rw [List.forM_cons, List.find?_cons_of_neg (by simp [hholds]), ← ih, require, if_pos hholds]
      rfl
    | false =>
      rw [List.forM_cons, List.find?_cons_of_pos (by simp [hholds]),
        require_of_not_holds hholds]
      rfl

end Helpers

/-! ### A handler that opens with checks -/

section Handler

variable [Spec] {σ : Type}

/-- A command's handler that opens with some checks of its input and the state. -/
def guarded (checks : Any → σ → CommandContext → List Check) (rest : CommandThunk σ) :
    CommandThunk σ := fun payload state ctx => do
  forM (checks payload state ctx) require
  rest payload state ctx

/-- A command's handler that opens with some calls of the helpers. -/
def opening (calls : Any → σ → CommandContext → List (Except Exc Unit)) (rest : CommandThunk σ) :
    CommandThunk σ := fun payload state ctx => do
  forM (calls payload state ctx) id
  rest payload state ctx

/-- **A handler that opens with calls of the helpers is guarded by their checks.** -/
theorem opening_eq_guarded {calls : Any → σ → CommandContext → List (Except Exc Unit)}
    {checks : Any → σ → CommandContext → List Check}
    (h : ∀ payload state ctx,
      List.Forall₂ Helper (calls payload state ctx) (checks payload state ctx))
    (rest : CommandThunk σ) : opening calls rest = guarded checks rest := by
  funext payload state ctx
  rw [opening, guarded, forM_helpers (h payload state ctx)]

variable [Message σ] [Message CommandRefused] {table : AggregateDispatch σ} {name : String}
  {checks : Any → σ → CommandContext → List Check} {rest : CommandThunk σ}
  {request : ContextualCommand}

omit [Message σ] in
/-- A routed command of a handler's type is that handler's. -/
theorem route_onCommand (thunk : CommandThunk σ) (hfact : factPayload request = none)
    (hname : typeName request.command.getPage.commandPayload.typeUrl = name)
    (hresolver : ¬(request.command.getHandling.conflictResolution = .commutative ∧
      table.changed = none)) :
    (table.onCommand name thunk).route request = .ok fun state ctx =>
      (thunk request.command.getPage.commandPayload state ctx).map (Handled.map book) := by
  have hget : (table.onCommand name thunk).commands.get? name = some thunk := by
    rw [AggregateDispatch.onCommand, Dict.get?_set, if_pos rfl]
  rw [AggregateDispatch.route_of_command hfact, AggregateDispatch.decide, hname, hget]
  exact if_neg hresolver

/-- **The first check that fails is what the client reads.** Let a command be routed to a
handler that opens with some checks, over a history that folds. Where all its checks hold on
the state that comes to, the answer is that of the handler without them. Otherwise the call is
aborted, whatever comes after the checks, and read back by the client the failure is the first
check's that does not hold: its key, its args and its status. -/
theorem first_failing_check_is_read [Message Status] [Message ErrorInfo]
    (hspec : DeclaresStatuses) (hinfo : Message.fullName ErrorInfo = "google.rpc.ErrorInfo")
    (table : AggregateDispatch σ) (name : String)
    (checks : Any → σ → CommandContext → List Check) (rest : CommandThunk σ)
    (request : ContextualCommand) (hfact : factPayload request = none)
    (hname : typeName request.command.getPage.commandPayload.typeUrl = name)
    (hresolver : ¬(request.command.getHandling.conflictResolution = .commutative ∧
      table.changed = none))
    {before : Option σ} {state : σ} (hfold : (table.deliver request).result = .ok (before, state)) :
    match (checks request.command.getPage.commandPayload state (handed request)).find?
        (!·.holds) with
    | none => (table.onCommand name (guarded checks rest)).handle request =
        (table.onCommand name rest).handle request
    | some check => ∃ abort,
        Dispatcher.call ((table.onCommand name (guarded checks rest)).handle request).result =
          .aborted abort ∧
        ∀ rpcError, Delivered abort rpcError →
          ∃ error, GRPCError.new rpcError none none = .ok error ∧ error.code = check.code ∧
            error.details = check.args.toStringMap ∧
            error.grpcCode.value = check.status.number := by
  have hroute (thunk : CommandThunk σ) := route_onCommand thunk hfact hname hresolver
  have hfold' (thunk : CommandThunk σ) :
      ((table.onCommand name thunk).deliver request).result = .ok (before, state) := hfold
  have hopens := forM_require
    (checks request.command.getPage.commandPayload state (handed request))
  split
  · next hnone =>
    rw [hnone] at hopens
    have hsame : guarded checks rest request.command.getPage.commandPayload state (handed request) =
        rest request.command.getPage.commandPayload state (handed request) := by
      rw [guarded, hopens]
      rfl
    rw [AggregateDispatch.handle_of_route (hroute _), AggregateDispatch.handle_of_route (hroute _),
      Traced.bind_of_ok (hfold' _), Traced.bind_of_ok (hfold' _)]
    simp only [hsame]
    rfl
  · next check hcheck =>
    rw [hcheck] at hopens
    have hraises : (guarded checks rest request.command.getPage.commandPayload state
        (handed request)).map (Handled.map book) = .error (.coded check.rejection) := by
      rw [guarded, hopens]
      rfl
    have hanswer := AggregateDispatch.handle_of_handler_error (hroute _) (hfold' _) hraises
    have hraised : Raised check.rejection :=
      .coded check.code (some check.status) check.args none
    obtain ⟨abort, habort, hread⟩ :=
      hraised.exists_readAs hspec hinfo CommandHandlerResponse
    rw [hanswer]
    refine ⟨abort, habort, fun rpcError hdelivered => ?_⟩
    obtain ⟨error, hnew, hreadAs⟩ := hread rpcError hdelivered
    exact ⟨error, hnew, hreadAs.code, hreadAs.details, hreadAs.grpcCode⟩

end Handler

section Raised

open Ledger
open scoped GoogleRpc

/-- What a withdrawal requires of a ledger: a name, and a count to take from. -/
def withdrawalCalls (_ : Any) (state : CounterState) (_ : CommandContext) :
    List (Except Exc Unit) :=
  [requireNotEmptyStr "ledger" "name", requirePositive state.count "count"]

/-- The checks of a withdrawal. -/
def withdrawalChecks (_ : Any) (state : CounterState) (_ : CommandContext) : List Check :=
  [⟨!"ledger".isEmpty, .invalidArgument, "VALUE_EMPTY", Dict.ofList [("field", "name")],
      by decide⟩,
    ⟨!decide (state.count ≤ 0), .invalidArgument, "VALUE_NOT_POSITIVE",
      Dict.ofList [("field", "count")], by decide⟩]

/-- A withdrawal from an empty ledger: its client reads which number is not positive. -/
theorem first_failing_check_is_read_withdrawal :
    ∃ abort, Dispatcher.call ((ledgerAggregate.onCommand "test.counter.IncreaseBy"
        (opening withdrawalCalls increaseBy)).handle (increaseOver none [] 0)).result =
          .aborted abort ∧
      ∀ rpcError, Delivered abort rpcError →
        ∃ error, GRPCError.new rpcError none none = .ok error ∧
          error.code = "VALUE_NOT_POSITIVE" ∧
          error.details = (Dict.ofList [("field", "count")]).toStringMap ∧
          error.grpcCode.value = 3 := by
  have hspec : DeclaresStatuses := by
    intro key status h
    cases h
  have hfold : (ledgerAggregate.deliver (increaseOver none [] 0)).result = .ok (none, ⟨0⟩) := rfl
  have hhelpers (payload state ctx) :
      List.Forall₂ Helper (withdrawalCalls payload state ctx)
        (withdrawalChecks payload state ctx) :=
    .cons (.requireNotEmptyStr _ _) (.cons (.requirePositive _ _) .nil)
  rw [opening_eq_guarded hhelpers]
  exact first_failing_check_is_read hspec rfl ledgerAggregate "test.counter.IncreaseBy"
    withdrawalChecks increaseBy (increaseOver none [] 0) rfl (by decide) (by decide) hfold

end Raised

end Validation

end AngzarrClient
