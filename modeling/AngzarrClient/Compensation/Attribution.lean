import AngzarrClient.Compensation

/-!
# Which step a reply and a refusal belong to

A compensation looks for a step in three places. A rollback reads each step's record off
the state, so what it undoes is that step's. A late reply is looked up by its type and a
refused undo by its target's name, and both take the first step that fits: nothing keeps
two steps from sharing a type or a target.

So a late reply gets its own step's undo, and a refusal its own step's name, exactly when
the first step that fits does as its own would (`AngzarrClient.Compensation.findsOwn_iff`).
That is so where the steps differ in both (`AngzarrClient.Compensation.findsOwn_of_nodup`),
and not where a second step is registered for the same reply
(`AngzarrClient.not_findsOwn_sharedSteps`).
-/

namespace AngzarrClient

namespace Compensation

variable {σ ρ ε τ : Type}

/-- The first of the steps that fits. -/
def IsFirst (steps : List (CompensationStep σ ε τ)) (fits : CompensationStep σ ε τ → Prop)
    (step : CompensationStep σ ε τ) : Prop :=
  ∃ pre post, steps = pre ++ step :: post ∧ fits step ∧ ∀ other ∈ pre, ¬fits other

/-- The step a search finds is the first that fits. -/
theorem find?_eq_some_iff_isFirst {steps : List (CompensationStep σ ε τ)}
    {fits : CompensationStep σ ε τ → Prop} [DecidablePred fits]
    {step : CompensationStep σ ε τ} :
    steps.find? (fun s => decide (fits s)) = some step ↔ IsFirst steps fits step := by
  rw [List.find?_eq_some_iff_append]
  constructor
  · rintro ⟨hfits, pre, post, rfl, hpre⟩
    exact ⟨pre, post, rfl, of_decide_eq_true hfits, fun other hmem => by
      simpa using hpre other hmem⟩
  · rintro ⟨pre, post, rfl, hfits, hpre⟩
    exact ⟨decide_eq_true hfits, pre, post, rfl, fun other hmem => by
      simpa using hpre other hmem⟩

/-- Some step is the first that fits, where one does. -/
theorem exists_isFirst {steps : List (CompensationStep σ ε τ)}
    (fits : CompensationStep σ ε τ → Prop) {step : CompensationStep σ ε τ}
    (hmem : step ∈ steps) (hfits : fits step) : ∃ first, IsFirst steps fits first := by
  classical
  cases hfind : steps.find? (fun s => decide (fits s)) with
  | none => exact absurd (decide_eq_true hfits) (List.find?_eq_none.mp hfind step hmem)
  | some first => exact ⟨first, find?_eq_some_iff_isFirst.mp hfind⟩

/-- Where no two steps share what is looked for, the first that fits is the step itself. -/
theorem IsFirst.eq_of_nodup {κ : Type} (key : CompensationStep σ ε τ → κ)
    {steps : List (CompensationStep σ ε τ)} (hnodup : (steps.map key).Nodup)
    {step first : CompensationStep σ ε τ} (hmem : step ∈ steps)
    (h : IsFirst steps (fun s => key s = key step) first) : first = step := by
  obtain ⟨pre, post, rfl, hfits, -⟩ := h
  exact List.inj_on_of_nodup_map hnodup (List.mem_append_right _ List.mem_cons_self) hmem hfits

variable [DecidableEq τ] (C : Compensation σ ρ ε τ) (typeOf : ε → τ)

/-! ### Finding one's own step -/

/-- **Late replies and refusals find their own step.** An event a step reads back from a
state gets, as a reply to a rolled-back state, the undo a rollback builds for that step;
and the refusal of a step's undo is recorded as that step's failure. -/
structure FindsOwn (state late : σ) : Prop where
  reply : ∀ step ∈ C.steps, ∀ e, step.recorded state = some e → C.rolledBack late = true →
    C.reply typeOf late e = [e, step.undo e] ∧ ∀ reason, step.undo e ∈ C.rollback state reason
  refusal : ∀ step ∈ C.steps,
    C.undoRefused state step.target = some (C.compensationFailed state step.name)

/-- The first step that fits does as the step itself would: the first that an event's type
completes undoes it alike, and the first of a target is recorded as failed alike. -/
structure FirstServes (state late : σ) : Prop where
  reply : C.rolledBack late = true → ∀ step ∈ C.steps, ∀ e, step.recorded state = some e →
    ∃ first, IsFirst C.steps (fun s => typeOf e = s.completedBy) first ∧
      first.undo e = step.undo e
  refusal : ∀ step ∈ C.steps, ∀ first, IsFirst C.steps (fun s => s.target = step.target) first →
    C.compensationFailed state first.name = C.compensationFailed state step.name

variable {C typeOf}

omit [DecidableEq τ] in
/-- What a step reads back, a rollback undoes. -/
theorem undo_mem_rollback {step : CompensationStep σ ε τ} (hstep : step ∈ C.steps) {state : σ}
    {e : ε} (he : step.recorded state = some e) (reason : ρ) :
    step.undo e ∈ C.rollback state reason := by
  refine List.mem_cons_of_mem _ (List.mem_filterMap.mpr ⟨step, List.mem_reverse.mpr hstep, ?_⟩)
  rw [he, Option.map_some]

/-- What a late reply's undo is: that of the first step its type completes. -/
theorem reply_eq_pair_iff {late : σ} (hlate : C.rolledBack late = true) {e u : ε} :
    C.reply typeOf late e = [e, u] ↔
      ∃ first, IsFirst C.steps (fun s => typeOf e = s.completedBy) first ∧ first.undo e = u := by
  unfold reply
  rw [if_pos hlate]
  constructor
  · intro h
    cases hfind : C.steps.find? (fun s => decide (typeOf e = s.completedBy)) with
    | none =>
      rw [hfind] at h
      cases h
    | some first =>
      rw [hfind] at h
      exact ⟨first, find?_eq_some_iff_isFirst.mp hfind, by simpa using h⟩
  · rintro ⟨first, hfirst, rfl⟩
    rw [find?_eq_some_iff_isFirst.mpr hfirst]

omit [DecidableEq τ] in
/-- What a refusal is recorded as: the failure of the first step of its target. -/
theorem undoRefused_eq {state : σ} {target : String} {first : CompensationStep σ ε τ}
    (hfirst : IsFirst C.steps (fun s => s.target = target) first) :
    C.undoRefused state target = some (C.compensationFailed state first.name) := by
  rw [undoRefused, find?_eq_some_iff_isFirst.mpr hfirst, Option.map_some]

/-- **Exactly where the first step that fits serves as well does each find its own.** -/
theorem findsOwn_iff (state late : σ) :
    C.FindsOwn typeOf state late ↔ C.FirstServes typeOf state late := by
  constructor
  · intro h
    refine ⟨fun hlate step hstep e he => ?_, fun step hstep first hfirst => ?_⟩
    · exact (reply_eq_pair_iff hlate).mp (h.reply step hstep e he hlate).1
    · have hown := h.refusal step hstep
      rw [undoRefused_eq hfirst] at hown
      exact Option.some.inj hown
  · intro h
    refine ⟨fun step hstep e he hlate => ?_, fun step hstep => ?_⟩
    · exact ⟨(reply_eq_pair_iff hlate).mpr (h.reply hlate step hstep e he),
        undo_mem_rollback hstep he⟩
    · obtain ⟨first, hfirst⟩ := exists_isFirst (fun s => s.target = step.target) hstep rfl
      rw [undoRefused_eq hfirst, h.refusal step hstep first hfirst]

/-- Where no two steps share a reply's type or a target, and each reads back events of its
own type, every reply and every refusal finds its own step. -/
theorem findsOwn_of_nodup (htypes : (C.steps.map (·.completedBy)).Nodup)
    (htargets : (C.steps.map (·.target)).Nodup)
    (hrecorded : ∀ step ∈ C.steps, ∀ state e, step.recorded state = some e →
      typeOf e = step.completedBy) (state late : σ) : C.FindsOwn typeOf state late := by
  refine (findsOwn_iff state late).mpr ⟨fun _ step hstep e he => ?_, fun step hstep first h => ?_⟩
  · have htype := hrecorded step hstep state e he
    obtain ⟨first, hfirst⟩ := exists_isFirst (fun s => typeOf e = s.completedBy) hstep htype
    refine ⟨first, hfirst, ?_⟩
    obtain rfl := IsFirst.eq_of_nodup (fun s => s.completedBy) htypes hstep
      (by simpa only [htype, eq_comm] using hfirst)
    rfl
  · rw [h.eq_of_nodup (fun s => s.target) htargets hstep]

end Compensation

/-! ### Two steps of one reply -/

/-- The shipment with a second step of the reservation's reply and of its undo's target. -/
def sharedSteps : Compensation ShipmentState String ShipmentEvent String :=
  shipment.step "hold stock" "StockReserved" ⟨"test.compensation.ReleaseStock", some ⟨true⟩⟩
    ShipmentState.reserved fun _ => .compensationFailed "hold"

/-- A late reservation gets the first step's undo where a rollback builds the second's too,
and the refusal of the second's undo names the first. -/
theorem not_findsOwn_sharedSteps :
    ¬sharedSteps.FindsOwn ShipmentEvent.typeOf ⟨some (.stockReserved 1), none, true⟩
      ⟨some (.stockReserved 1), none, true⟩ := by
  intro h
  have hmem : (⟨"hold stock", "StockReserved", "test.compensation.ReleaseStock",
      ShipmentState.reserved, fun _ => .compensationFailed "hold"⟩ :
      CompensationStep ShipmentState ShipmentEvent String) ∈ sharedSteps.steps :=
    List.mem_append_right _ List.mem_cons_self
  have hundone := (h.reply _ hmem (.stockReserved 1) rfl rfl).1
  exact absurd hundone (by decide)

example : sharedSteps.undoRefused ⟨none, none, true⟩ "test.compensation.ReleaseStock" =
    some (.compensationFailed "reserve stock") := rfl

end AngzarrClient
