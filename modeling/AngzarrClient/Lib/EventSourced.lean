import Mathlib.Data.List.Basic

/-!
# Event-sourced state

State that is not kept but folded from a journal of events
(`EventSourced.Machine.state`). A fold may fail, and then there is no state. Beside the
journal stand checkpoints, states that a start of it folds to, so that a fold can resume
from one in place of the beginning.

A store is sound when its journal folds and its checkpoints are what they say
(`EventSourced.Store.Sound`). Recording events that fold on keeps it sound
(`EventSourced.Store.Sound.record`), whatever the events, since nothing before them
changes; and from a sound store a fold resumed at any checkpoint is the fold of the whole
journal (`EventSourced.Checkpoint.Valid.resume`).
-/

namespace EventSourced

/-- A state to start from, and how an event changes a state, if it can. -/
structure Machine (σ η : Type) where
  start : σ
  evolve : σ → η → Option σ

/-- A state that the first events of a journal folded to. -/
structure Checkpoint (σ : Type) where
  count : ℕ
  state : σ

/-- A journal, and the checkpoints taken on the way. -/
structure Store (σ η : Type) where
  journal : List η
  checkpoints : List (Checkpoint σ)

variable {σ η : Type} (M : Machine σ η)

namespace Machine

/-- **The state of a journal.** -/
def state (journal : List η) : Option σ := journal.foldlM M.evolve M.start

@[simp] theorem state_nil : M.state [] = some M.start := rfl

/-- A longer journal folds on from what its start folds to. -/
theorem state_append {journal : List η} {s : σ} (h : M.state journal = some s) (more : List η) :
    M.state (journal ++ more) = more.foldlM M.evolve s := by
  rw [state, List.foldlM_append]
  rw [state] at h
  rw [h]
  rfl

end Machine

/-- A checkpoint of a journal: what its first events fold to. -/
structure Checkpoint.Valid (c : Checkpoint σ) (journal : List η) : Prop where
  le : c.count ≤ journal.length
  state_eq : M.state (journal.take c.count) = some c.state

namespace Checkpoint

variable {M} {c : Checkpoint σ} {journal : List η}

/-- **A fold resumed at a checkpoint is the fold of the whole journal.** -/
theorem Valid.resume (h : c.Valid M journal) :
    (journal.drop c.count).foldlM M.evolve c.state = M.state journal := by
  rw [← M.state_append h.state_eq, List.take_append_drop]

/-- A checkpoint of a journal is one of every longer journal. -/
theorem Valid.append (h : c.Valid M journal) (more : List η) : c.Valid M (journal ++ more) where
  le := by
    rw [List.length_append]
    exact Nat.le_add_right_of_le h.le
  state_eq := by
    rw [List.take_append_of_le_length h.le]
    exact h.state_eq

/-- The state of a journal is a checkpoint at its end. -/
theorem valid_of_state {s : σ} (h : M.state journal = some s) :
    (⟨journal.length, s⟩ : Checkpoint σ).Valid M journal where
  le := Nat.le_refl _
  state_eq := by
    rw [List.take_length]
    exact h

end Checkpoint

namespace Store

/-- The store with nothing in it. -/
def empty : Store σ η := ⟨[], []⟩

/-- Events recorded, with the state after them as a checkpoint. -/
def record (store : Store σ η) (events : List η) (after : σ) : Store σ η where
  journal := store.journal ++ events
  checkpoints := store.checkpoints ++ [⟨(store.journal ++ events).length, after⟩]

/-- **A sound store**: its journal folds, and its checkpoints are of its journal. -/
structure Sound (store : Store σ η) : Prop where
  folds : ∃ s, M.state store.journal = some s
  checkpoints : ∀ c ∈ store.checkpoints, c.Valid M store.journal

theorem sound_empty : (empty : Store σ η).Sound M where
  folds := ⟨M.start, rfl⟩
  checkpoints := fun _ hmem => absurd hmem List.not_mem_nil

variable {M} {store : Store σ η} {s after : σ} {events : List η}

/-- **Recording events that fold on keeps a store sound.** -/
theorem Sound.record (h : store.Sound M) (hs : M.state store.journal = some s)
    (hafter : events.foldlM M.evolve s = some after) : (store.record events after).Sound M := by
  have hstate : M.state (store.journal ++ events) = some after := by
    rw [M.state_append hs, hafter]
  refine ⟨⟨after, hstate⟩, fun c hmem => ?_⟩
  rcases List.mem_append.mp hmem with hmem | hmem
  · exact (h.checkpoints c hmem).append events
  · obtain rfl := List.mem_singleton.mp hmem
    exact Checkpoint.valid_of_state hstate

end Store

end EventSourced
