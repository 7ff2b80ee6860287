import AngzarrClient.Router.Context

/-!
# A projector's dispatch

`ProjectorService.Handle` folds one book into a fresh projection, when the book's domain is
one the projector consumes, and answers the projection with the position after the book
(`AngzarrClient.Router.ProjectorDispatch.handle`).

The factory of the projection is business code that nothing guards, and the position is
one past the last page's, a number its field may not hold.
-/

namespace AngzarrClient

namespace Router

variable {σ : Type}

/-- `ProjectorDispatch`: a projector's dispatch table. Its factory is business code and may
raise. -/
structure ProjectorDispatch (σ : Type) where
  name : String
  factory : Except Exc σ
  domains : List String
  events : Dict String (Applier σ)
  rulesVersion : String

namespace ProjectorDispatch

/-- `ProjectorDispatch(name, factory)`: a table with no domain and no fold yet. -/
def new (name : String) (factory : Except Exc σ) : ProjectorDispatch σ where
  name := name
  factory := factory
  domains := []
  events := ∅
  rulesVersion := ""

/-- `for_domains`. -/
def forDomains (table : ProjectorDispatch σ) (domains : List String) : ProjectorDispatch σ :=
  { table with domains := domains }

/-- `on_event`. -/
def onEvent (table : ProjectorDispatch σ) (fullName : String) (thunk : Applier σ) :
    ProjectorDispatch σ :=
  { table with events := table.events.set fullName thunk }

/-- `with_rules_version`. -/
def withRulesVersion (table : ProjectorDispatch σ) (version : String) : ProjectorDispatch σ :=
  { table with rulesVersion := version }

/-- Whether the projector consumes a book: every book, when it names no domain. -/
def consumes (table : ProjectorDispatch σ) (book : EventBook) : Bool :=
  table.domains.isEmpty || table.domains.contains (book.cover.getD default).domain

/-- The position after a book: one past its last page, or the next sequence of a book
without pages. -/
def after (book : EventBook) : ℕ :=
  match book.pages.getLast? with
  | some page => page.sequence + 1
  | none => book.nextSequence

variable [Spec] [Message σ]

/-- The delivered pages, folded into the projection where the book is consumed. -/
def project (table : ProjectorDispatch σ) (book : EventBook) (projection : σ) :
    Traced (Call σ) Exc σ :=
  if table.consumes book then fold projection book.pages book.cover table.events foldFailed
  else pure projection

/-- The answer. A position outside the field is the runtime's `ValueError`. -/
def respond (table : ProjectorDispatch σ) (book : EventBook) (projection : σ) :
    Except Exc Projection :=
  if after book < Spec.sequenceLimit then
    .ok
      { cover := some (book.cover.getD default)
        projector := table.name
        nextSequence := after book
        projection := some (pack projection) }
  else .error (.other "ValueError" ("Value out of range: " ++ toString (after book)))

/-- `ProjectorService.Handle`. -/
def handle (table : ProjectorDispatch σ) (book : EventBook) : Traced (Call σ) Exc Projection := do
  let projection ← Traced.ofExcept table.factory
  let projection ← table.project book projection
  Traced.ofExcept (table.respond book projection)

end ProjectorDispatch

end Router

end AngzarrClient
