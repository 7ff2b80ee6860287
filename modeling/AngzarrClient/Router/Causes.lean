import AngzarrClient.Router.Pipeline

/-!
# What a failed fold says

A fold that fails names the page its applier failed on, the state's type, and the cause,
all in one map of args. The three names of the page are its own and every name of a cause
is `cause` or begins with `cause.`, so neither overwrites the other
(`AngzarrClient.Router.foldError_entries`), whatever names the failing code chose for its
args.

An applier may make a dispatch of its own, and fail with the failure of that dispatch's
fold; its page and its cause are then args of the cause, each name once more under
`cause.`. So a cause is a tree of one branch (`AngzarrClient.Router.Cause`), the args spell
it out (`AngzarrClient.Router.Cause.args`), and it is read back from them
(`AngzarrClient.Router.Cause.read_args`).
-/

namespace AngzarrClient

namespace Router

/-! ### Causes -/

/-- A key that is not one of those a cause is told by. -/
def Plain (key : String) : Prop := key ∉ [handlerPanicked, foldFailed, foldFailedEmitted]

instance (key : String) : Decidable (Plain key) :=
  inferInstanceAs (Decidable (key ∉ [handlerPanicked, foldFailed, foldFailedEmitted]))

/-- Which fold of a dispatch failed: that of the events delivered, or of those emitted. -/
inductive FoldKey where
  | delivered
  | emitted
  deriving DecidableEq

/-- The key the failed fold is answered under. -/
def FoldKey.key : FoldKey → String
  | .delivered => foldFailed
  | .emitted => foldFailedEmitted

/-- Why an applier failed. -/
inductive Cause where
  /-- An error its code does not classify: no cause. -/
  | unclassified
  /-- Any exception that is not coded. -/
  | panicked
  /-- A failure under a key, with its args. -/
  | coded (key : String) (plain : Plain key) (args : List (String × String))
  /-- The failed fold of a dispatch of its own, with the page, the state's type and the
  cause. -/
  | folded (key : FoldKey) (sequence typeUrl stateTypeUrl : String) (cause : Cause)
  deriving DecidableEq

/-- An arg's name under the cause. -/
def under (arg : String × String) : String × String :=
  (ReasonArg.cause.name ++ "." ++ arg.1, arg.2)

/-- The name of an arg of the cause, the cause's own name taken off. -/
def ownName (name : String) : Option String :=
  if (ReasonArg.cause.name ++ ".").toList <+: name.toList then
    some (String.ofList (name.toList.drop (ReasonArg.cause.name ++ ".").length))
  else none

/-- The args that name a page and a state. -/
def pageArgs (sequence typeUrl stateTypeUrl : String) : List (String × String) :=
  [(ReasonArg.sequence.name, sequence), (ReasonArg.typeUrl.name, typeUrl),
    (ReasonArg.stateTypeUrl.name, stateTypeUrl)]

namespace Cause

/-- A cause as args. -/
def args : Cause → List (String × String)
  | unclassified => []
  | panicked => [(ReasonArg.cause.name, handlerPanicked)]
  | coded key _ args => (ReasonArg.cause.name, key) :: args.map under
  | folded key sequence typeUrl stateTypeUrl cause =>
    (ReasonArg.cause.name, key.key) ::
      (pageArgs sequence typeUrl stateTypeUrl ++ cause.args).map under

/-- How many folds a cause is under. -/
def depth : Cause → ℕ
  | folded _ _ _ _ cause => cause.depth + 1
  | _ => 0

/-- The cause some args spell out, under as many folds as `fuel` at most. -/
def readFrom : ℕ → List (String × String) → Cause
  | 0, _ => unclassified
  | fuel + 1, args =>
    match args.lookup ReasonArg.cause.name with
    | none => unclassified
    | some key =>
      let own := args.filterMap fun arg => (ownName arg.1).map fun name => (name, arg.2)
      if plain : Plain key then coded key plain own
      else if key = handlerPanicked then panicked
      else
        folded (if key = foldFailed then .delivered else .emitted)
          ((own.lookup ReasonArg.sequence.name).getD "")
          ((own.lookup ReasonArg.typeUrl.name).getD "")
          ((own.lookup ReasonArg.stateTypeUrl.name).getD "") (readFrom fuel own)

/-- The cause some args spell out: each fold takes an arg of its own. -/
def read (args : List (String × String)) : Cause := readFrom (args.length + 1) args

end Cause

/-! ### Names -/

section Failing

variable [Spec]

/-- The names that tell a page apart from a cause. -/
def pageNames : List String :=
  [ReasonArg.sequence.name, ReasonArg.typeUrl.name, ReasonArg.stateTypeUrl.name]

/-- The args of an error that are not its page's. -/
def remaining (error : CodedError) : List (String × String) :=
  error.extras.entries.filter fun arg => arg.1 ∉ pageNames

/-- **An error that names a page and a cause**: the page's sequence, its type and the
state's, and for the rest the cause's args and no other, from which it is read back. -/
structure Names (σ : Type) [Message σ] (page : EventPage) (cause : Cause) (error : CodedError) :
    Prop where
  sequence : error.extras.get? ReasonArg.sequence.name = some (toString page.sequence)
  typeUrl : error.extras.get? ReasonArg.typeUrl.name = some page.getPayload.typeUrl
  stateTypeUrl : error.extras.get? ReasonArg.stateTypeUrl.name = some (stateTypeUrl σ)
  remaining : remaining error = cause.args
  recovered : Cause.read (Router.remaining error) = cause

end Failing

end Router

end AngzarrClient
