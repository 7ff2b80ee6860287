import AngzarrClient.Lib.Store

/-!
# Variables with a dynamic scope

A variable of the store can be given a value for the time a body runs: it is set before, and
put back to what it was when the body is over, with a value or with a failure
(`Store.during`). What the body sets it to on the way makes no difference afterwards
(`Store.keeps_during`), so such scopes nest to any depth: each body sees the value its own
scope set, and the code around it the value from before.

So a scope is no concern of the code around it: what holds there besides the variable's value
holds throughout, if the body maintains it under the scope's value
(`Store.maintains_during`).
-/

namespace Store

/-- A variable of a store: how it is read and written. -/
structure Variable (ω ν : Type) where
  read : ω → ν
  write : ν → ω → ω
  /-- What was written is read. -/
  read_write : ∀ v store, read (write v store) = v

variable {ω ε α ν : Type}

/-- A body and a last write, which is made however the body ends. -/
def ensuring (body : Statements ω ε α) (last : ω → ω) : Statements ω ε α :=
  ExceptT.mk fun store => ((exec body store).1, last (exec body store).2)

variable (x : Variable ω ν) (v : ν) {body : Statements ω ε α}

/-- **A body run while a variable has a value.** The value from before is kept in a token, and
written back however the body ends. -/
def during (body : Statements ω ε α) : Statements ω ε α := do
  let token := x.read (← get)
  modify (x.write v)
  ensuring body (x.write token)

/-- What such a body comes to. -/
theorem exec_during (store : ω) :
    exec (during x v body) store =
      ((exec body (x.write v store)).1,
        x.write (x.read store) (exec body (x.write v store)).2) := by
  unfold during
  rw [exec_bind_ok (exec_get store), exec_bind_ok (exec_modify _ store)]
  rfl

/-- **The variable is put back**, whatever the body did. -/
theorem keeps_during : Keeps x.read (during x v body) := by
  intro store
  rw [exec_during]
  exact x.read_write _ _

/-- **The rule of a scope.** What else holds, as far as the variable is no part of it, holds in
the scope and after it; there the variable has the value of the scope, here the one from
before. -/
theorem maintains_during {R : ω → Prop} (hR : ∀ v store, R (x.write v store) ↔ R store) {u : ν}
    (hbody : Maintains (fun store => x.read store = v ∧ R store) body) :
    Maintains (fun store => x.read store = u ∧ R store) (during x v body) := by
  rintro store ⟨hread, hrest⟩
  have hinside := hbody (x.write v store) ⟨x.read_write v store, (hR v store).mpr hrest⟩
  refine ⟨(keeps_during x v store).trans hread, ?_⟩
  rw [exec_during]
  exact (hR _ _).mpr hinside.2

end Store
