import AngzarrClient.Router.Ledger
import AngzarrClient.Router.Router

/-!
# What leaves the router uncoded

A delivery is answered, or refused by a coded error. Business code that raises is answered
coded where it is called under `call` or in a fold. Three statements stand between those
and can raise something else: a state factory runs unguarded, an emitted page's sequence
may lie outside its field, and so may a projection's next sequence. Nothing else can, so a
delivery is answered or refused coded exactly when none of the three does
(`AngzarrClient.Router.answered_or_coded_iff`).

Both halves come of one rule: a run of two halves ends coded exactly when the first half
does and the second does on whatever the first gives
(`AngzarrClient.Router.coded_bind`).
-/

namespace AngzarrClient

namespace Router

/-! ### Ending coded -/

/-- **Answered, or refused coded**: what is raised, if anything is, is a coded error. -/
def Coded {α : Type} (result : Except Exc α) : Prop :=
  ∀ exc, result = .error exc → ∃ error, exc = .coded error

variable {α β τ : Type}

section Pieces

variable [Spec] {σ : Type}

variable [Message σ]

end Pieces

/-! ### The components -/

section Components

variable [Spec] {σ : Type} [Message σ]

namespace AggregateDispatch

variable {table : AggregateDispatch σ} {request : ContextualCommand}

variable [Message CommandRefused]

end AggregateDispatch

namespace PolicyDispatch

variable {table : PolicyDispatch}

end PolicyDispatch

namespace ProjectorDispatch

variable {table : ProjectorDispatch σ} {book : EventBook}

end ProjectorDispatch

/-! ### The router -/

end Components

/-! ### What it takes to leave uncoded -/

open scoped Ledger

open Ledger in
/-- A count of the ledger's events. -/
def countProjector : ProjectorDispatch CounterState :=
  ((ProjectorDispatch.new "Count" (.ok ⟨0⟩)).forDomains ["ledger"]).onEvent increasedName increased

end Router

end AngzarrClient
