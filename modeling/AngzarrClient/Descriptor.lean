import AngzarrClient.Host.Hosting
import Mathlib.Algebra.Group.Int.Defs
import Mathlib.Data.List.Dedup
import Mathlib.Data.List.Sort

/-!
# Describing a component

A component's descriptor is what the coordinator knows of it. `AngzarrClient.describe`
builds one from the dispatch table a component registers, for code written without the
command line tool, and it answers to three judges: its own checks, the coordinator's ordered
refusals (`AngzarrClient.Descriptor.refusal`), and the host's checks when the component is
registered with it (`AngzarrClient.Hosting.add`).

What is built is accepted by all three (`AngzarrClient.describe_accepted`). The coordinator's
refusals come to five rules (`AngzarrClient.Descriptor.refusal_eq_none_iff`), and the
resolutions of a state are a sorted set (`AngzarrClient.resolved`), so that what is read from
a descriptor describes the component again.
-/

namespace AngzarrClient

open Router

variable {σ : Type}

/-! ### Types as they are given -/

/-- A generated message class, as far as a description reads one. -/
structure MessageClass where
  /-- `DESCRIPTOR.full_name`. -/
  fullName : String
  /-- What the `(io.angzarr.v1.state)` option lists, where the message has it. -/
  stateOption : Option (List ℤ)
  /-- A full name is identifiers between dots. -/
  slash_not_mem : '/' ∉ fullName.toList

/-- The class of a value. -/
class Classed (σ : Type) where
  /-- `type(value)`. -/
  messageClass : σ → MessageClass

/-- A type as `describe` is given it: by its class, or by its full name or a type URL. -/
inductive GivenType where
  | byClass (message : MessageClass)
  | byText (text : String)

namespace GivenType

/-- `_full_name`. -/
def fullName : GivenType → String
  | .byClass message => message.fullName
  | .byText text => String.ofList (Text.rpartition '/' text.toList).2.2

/-- `_declared_resolutions`. -/
def declaredResolutions : GivenType → List ℤ
  | .byClass message => message.stateOption.getD []
  | .byText _ => []

/-- **A type is named without a slash**, however it is given. -/
theorem slash_not_mem_fullName (given : GivenType) : '/' ∉ given.fullName.toList := by
  cases given with
  | byClass message => exact message.slash_not_mem
  | byText text =>
    rw [fullName, String.toList_ofList]
    exact Text.not_mem_rpartition '/' text.toList

end GivenType

/-! ### Conflict resolutions -/

/-- A resolution's number in its enumeration, which is generated from a schema outside the
repository. What is proved here takes of the numbers that they are distinct, and no more. -/
def ConflictResolution.number : ConflictResolution → ℤ
  | .unspecified => 0
  | .commutative => 1
  | .strict => 2
  | .aggregateHandles => 3
  | .unrecognized number => number

/-- `BASE_RESOLUTIONS`. -/
def baseResolutions : List ℤ :=
  [ConflictResolution.strict.number, ConflictResolution.aggregateHandles.number]

/-- `sorted(set(BASE_RESOLUTIONS) | set(listed))`. -/
def resolved (listed : List ℤ) : List ℤ :=
  (baseResolutions ++ listed).dedup.insertionSort (· ≤ ·)

theorem mem_resolved {listed : List ℤ} {resolution : ℤ} :
    resolution ∈ resolved listed ↔ resolution ∈ baseResolutions ∨ resolution ∈ listed := by
  rw [resolved, List.mem_insertionSort, List.mem_dedup, List.mem_append]

theorem pairwise_resolved (listed : List ℤ) : (resolved listed).Pairwise (· < ·) := by
  have hsorted := List.sortedLE_insertionSort (l := (baseResolutions ++ listed).dedup)
  have hnodup := ((baseResolutions ++ listed).dedup.perm_insertionSort (· ≤ ·)).nodup_iff.mpr
    (List.nodup_dedup _)
  exact (hsorted.sortedLT_of_nodup hnodup).pairwise

/-- **Resolutions are a set**: a list that says the same, the base aside, resolves to the
same. -/
theorem resolved_congr {listed listed' : List ℤ}
    (h : ∀ resolution, resolution ∈ baseResolutions ∨ resolution ∈ listed' ↔
      resolution ∈ baseResolutions ∨ resolution ∈ listed) :
    resolved listed' = resolved listed := by
  have hsorted (listed : List ℤ) : (resolved listed).SortedLT :=
    (pairwise_resolved listed).sortedLT
  refine (hsorted listed').eq_of_mem_iff (hsorted listed) fun resolution => ?_
  rw [mem_resolved, mem_resolved]
  exact h resolution

/-! ### The descriptor -/

/-- `kind in _STATEFUL`. -/
def ComponentKind.Stateful (kind : ComponentKind) : Prop :=
  kind = .aggregate ∨ kind = .processManager

instance : DecidablePred ComponentKind.Stateful :=
  fun kind => inferInstanceAs (Decidable (kind = .aggregate ∨ kind = .processManager))

/-- `StateDescriptor`: the state's type, and the resolutions of its options. -/
structure StateDescriptor where
  typeUrl : String
  resolutions : List ℤ
  deriving DecidableEq

/-- `ComponentDescriptor`, whole. An input is a target, by its domain. -/
structure Descriptor where
  name : String
  kind : ComponentKind
  rulesVersion : String
  inputs : List String
  state : Option StateDescriptor
  startingTypes : List String
  outputDomain : String
  deriving DecidableEq

namespace Descriptor

/-- What a host reads of a descriptor. -/
def read (descriptor : Descriptor) : ComponentDescriptor where
  rulesVersion := descriptor.rulesVersion
  inputs := descriptor.inputs

/-- `_refusal`: the coordinator's first refusal, its key and its details. -/
def refusal (descriptor : Descriptor) : Option (String × List (String × String)) :=
  let component := [("component", descriptor.name)]
  let withKind :=
    component ++ [("component_kind", "COMPONENT_KIND_" ++ descriptor.kind.name)]
  if descriptor.rulesVersion = "" then
    some ("COORDINATOR_REASON_MISSING_RULES_VERSION", component)
  else if descriptor.kind ≠ .processManager ∧ descriptor.startingTypes ≠ [] then
    some ("COORDINATOR_REASON_STARTING_TYPES_ON_NON_PM", withKind)
  else if descriptor.kind.Stateful ∧ descriptor.state = none then
    some ("COORDINATOR_REASON_MISSING_STATE_TYPE", withKind)
  else if (descriptor.kind = .policy ∨ descriptor.kind = .projector) ∧
      descriptor.state ≠ none then
    some ("COORDINATOR_REASON_STATE_ON_STATELESS_KIND", withKind)
  else if descriptor.kind = .policy then
    if descriptor.inputs.length ≠ 1 then
      some ("COORDINATOR_REASON_POLICY_INPUT_COUNT",
        component ++ [("input_count", toString descriptor.inputs.length)])
    else if descriptor.outputDomain = "" then
      some ("COORDINATOR_REASON_POLICY_NO_OUTPUT_DOMAIN", component)
    else none
  else if descriptor.outputDomain ≠ "" then
    some ("COORDINATOR_REASON_OUTPUT_DOMAIN_ON_NON_POLICY", withKind)
  else none

/-- **The coordinator's rules.** -/
structure Ruled (descriptor : Descriptor) : Prop where
  version : descriptor.rulesVersion ≠ ""
  state : descriptor.state ≠ none ↔
    descriptor.kind = .aggregate ∨ descriptor.kind = .processManager
  starting : descriptor.startingTypes ≠ [] → descriptor.kind = .processManager
  policy : descriptor.kind = .policy →
    (∃ domain, descriptor.inputs = [domain]) ∧ descriptor.outputDomain ≠ ""
  output : descriptor.kind ≠ .policy → descriptor.outputDomain = ""

/-- **The coordinator refuses what breaks a rule, and nothing else.** -/
theorem refusal_eq_none_iff {descriptor : Descriptor} :
    descriptor.refusal = none ↔ descriptor.Ruled := by
  constructor
  · intro h
    unfold refusal at h
    dsimp only at h
    split at h
    · cases h
    next hversion =>
    split at h
    · cases h
    next hstarting =>
    split at h
    · cases h
    next hmissing =>
    split at h
    · cases h
    next hstateless =>
    have hstate : descriptor.state ≠ none ↔
        descriptor.kind = .aggregate ∨ descriptor.kind = .processManager := by
      refine ⟨fun hsome => ?_, fun hkind hnone => hmissing ⟨hkind, hnone⟩⟩
      cases hkind : descriptor.kind with
      | aggregate => exact Or.inl rfl
      | processManager => exact Or.inr rfl
      | policy => exact absurd ⟨Or.inl hkind, hsome⟩ hstateless
      | projector => exact absurd ⟨Or.inr hkind, hsome⟩ hstateless
    have hstarts : descriptor.startingTypes ≠ [] → descriptor.kind = .processManager :=
      fun hne => not_not.mp fun hkind => hstarting ⟨hkind, hne⟩
    split at h
    · next hpolicy =>
      split at h
      · cases h
      next hinputs =>
      split at h
      · cases h
      next houtput =>
      exact ⟨hversion, hstate, hstarts,
        fun _ => ⟨List.length_eq_one_iff.mp (not_not.mp hinputs), houtput⟩,
        fun hne => absurd hpolicy hne⟩
    · next hpolicy =>
      split at h
      · cases h
      next houtput =>
      exact ⟨hversion, hstate, hstarts, fun hkind => absurd hkind hpolicy,
        fun _ => not_not.mp houtput⟩
  · rintro ⟨hversion, hstate, hstarting, hpolicy, houtput⟩
    unfold refusal
    dsimp only
    rw [if_neg hversion, if_neg fun h => h.1 (hstarting h.2), if_neg fun h => hstate.mpr h.1 h.2]
    rw [if_neg]
    · split
      · next hkind =>
        obtain ⟨⟨domain, hinputs⟩, hdomain⟩ := hpolicy hkind
        rw [hinputs, List.length_singleton, if_neg (not_not.mpr rfl), if_neg hdomain]
      · next hkind => rw [if_neg (not_not.mpr (houtput hkind))]
    · -- A state makes the kind one of those that keep one.
      rintro ⟨hkind, hsome⟩
      rcases hstate.mp hsome with h | h <;> rw [h] at hkind <;> simp at hkind

end Descriptor

/-! ### Describing -/

/-- What `describe` raises: a `ConfigurationError`, or what its callees do. -/
inductive DescribeError where
  | configuration (code : String) (details : List (String × String))
  | raised (exc : Exc)
  deriving DecidableEq

/-- The arguments of `describe`, the table apart. -/
structure Arguments where
  rulesVersion : Option String
  stateType : Option GivenType
  resolutions : Option (List ℤ)
  startingTypes : List GivenType

namespace Router.Component

/-- `_inputs`. -/
def inputs : Component σ → List String
  | .policy table => if table.inputDomain ≠ "" then [table.inputDomain] else []
  | .projector table => table.domains
  | _ => []

/-- The domain a policy's commands go to. -/
def outputDomain : Component σ → String
  | .policy table => table.outputDomain
  | _ => ""

/-- The state type described: the one given, or, on a kind that keeps one, the class its
rebuilder's factory makes (`_state_class`). -/
def stateType [Classed σ] (dispatch : Component σ) (given : Option GivenType) :
    Except Exc (Option GivenType) :=
  match given, dispatch.commandHandler? with
  | some state, _ => .ok (some state)
  | none, some table =>
    table.rebuilder.factory.map fun state => some (.byClass (Classed.messageClass state))
  | none, none => .ok none

end Router.Component

/-- The resolutions a state is described with, the base apart. A state that is not named
comes with resolutions. -/
def listed (state : Option GivenType) (resolutions : Option (List ℤ)) : List ℤ :=
  resolutions.getD ((state.map GivenType.declaredResolutions).getD [])

/-- `resolutions.extend(...)`: a number outside `int32` is the runtime's `ValueError`. -/
def extend (resolutions : List ℤ) : Except Exc (List ℤ) :=
  match resolutions.find? fun resolution => ¬(-2 ^ 31 ≤ resolution ∧ resolution < 2 ^ 31) with
  | some resolution => .error (.other "ValueError" ("Value out of range: " ++ toString resolution))
  | none => .ok resolutions

theorem eq_of_extend {resolutions extended : List ℤ} (h : extend resolutions = .ok extended) :
    extended = resolutions := by
  unfold extend at h
  split at h <;> cases h
  rfl

/-- The `state` of a descriptor, of a kind or under an argument that asks for one. -/
def describeState [Classed σ] (dispatch : Component σ) (args : Arguments) :
    Except DescribeError (Option StateDescriptor) :=
  if dispatch.kind.Stateful ∨ args.stateType.isSome ∨ args.resolutions.isSome then do
    let state ← (dispatch.stateType args.stateType).mapError .raised
    let listed := listed state args.resolutions
    if ConflictResolution.unspecified.number ∈ listed then
      throw (.configuration "DESCRIPTOR_RESOLUTION_UNSPECIFIED" [("component", dispatch.name)])
    let typeUrl := (state.map fun state => "/" ++ state.fullName).getD ""
    let resolutions ← (extend (resolved listed)).mapError .raised
    return some ⟨typeUrl, resolutions⟩
  else return none

/-- The descriptor of a component with the state described. -/
def descriptorOf (dispatch : Component σ) (args : Arguments) (state : Option StateDescriptor) :
    Descriptor where
  name := dispatch.name
  kind := dispatch.kind
  rulesVersion := args.rulesVersion.getD dispatch.rulesVersion
  inputs := dispatch.inputs
  state := state
  startingTypes := args.startingTypes.map GivenType.fullName
  outputDomain := dispatch.outputDomain

/-- `describe`, of a table of a component kind. -/
def describe [Classed σ] (dispatch : Component σ) (args : Arguments) :
    Except DescribeError Descriptor := do
  let state ← describeState dispatch args
  let descriptor := descriptorOf dispatch args state
  match descriptor.refusal with
  | some (code, details) => throw (.configuration code details)
  | none =>
    if descriptor.kind = .projector ∧ descriptor.inputs = [] then
      throw (.configuration "HOST_REASON_PROJECTOR_NO_INPUT_DOMAIN"
        [("component", dispatch.name)])
    else return descriptor

section Describing

variable [Classed σ] {dispatch : Component σ} {args : Arguments}

/-- **What is described**: a descriptor that the coordinator does not refuse, and that names
a projector's inputs. -/
theorem describe_eq_ok_iff {descriptor : Descriptor} :
    describe dispatch args = .ok descriptor ↔
      ∃ state, describeState dispatch args = .ok state ∧
        descriptor = descriptorOf dispatch args state ∧ descriptor.refusal = none ∧
        ¬(dispatch.kind = .projector ∧ dispatch.inputs = []) := by
  unfold describe
  rcases describeState dispatch args with error | state
  · refine ⟨nofun, fun h => ?_⟩
    obtain ⟨state, h, -⟩ := h
    cases h
  change (match (descriptorOf dispatch args state).refusal with
    | some (code, details) => _
    | none => _) = _ ↔ _
  constructor
  · intro h
    split at h
    · cases h
    next hrefusal =>
    split at h
    · cases h
    next hprojector =>
    cases h
    exact ⟨state, rfl, rfl, hrefusal, hprojector⟩
  · rintro ⟨state, h, rfl, hrefusal, hprojector⟩
    cases h
    rw [hrefusal]
    exact if_neg hprojector

/-- A state is described by the type it is found to have, and by its resolutions. -/
theorem describeState_eq_ok_some_iff {state : StateDescriptor} :
    describeState dispatch args = .ok (some state) ↔
      (dispatch.kind.Stateful ∨ args.stateType.isSome ∨ args.resolutions.isSome) ∧
        ∃ found, dispatch.stateType args.stateType = .ok found ∧
          ConflictResolution.unspecified.number ∉ listed found args.resolutions ∧
          extend (resolved (listed found args.resolutions)) = .ok state.resolutions ∧
          state.typeUrl = (found.map fun state => "/" ++ state.fullName).getD "" := by
  unfold describeState
  by_cases hasks : dispatch.kind.Stateful ∨ args.stateType.isSome ∨ args.resolutions.isSome
  swap
  · rw [if_neg hasks]
    exact ⟨nofun, fun h => absurd h.1 hasks⟩
  rw [if_pos hasks]
  rcases hfound : dispatch.stateType args.stateType with exc | found
  · refine ⟨nofun, fun h => ?_⟩
    obtain ⟨-, found, h, -⟩ := h
    cases h
  change (if _ then _ else _) = _ ↔ _
  by_cases hunspecified :
      ConflictResolution.unspecified.number ∈ listed found args.resolutions
  · rw [if_pos hunspecified]
    refine ⟨nofun, fun h => ?_⟩
    obtain ⟨-, found, h, hnot, -⟩ := h
    cases h
    exact absurd hunspecified hnot
  rw [if_neg hunspecified]
  constructor
  · intro h
    rcases hextend : extend (resolved (listed found args.resolutions)) with exc | resolutions
    · rw [hextend] at h
      cases h
    · rw [hextend] at h
      cases h
      exact ⟨hasks, found, rfl, hunspecified, hextend, rfl⟩
  · rintro ⟨-, found, h, -, hextend, htype⟩
    cases h
    rw [hextend]
    rw [← htype]
    rfl

/-- The resolutions of a state are the base and what is listed. -/
theorem resolutions_eq_resolved {state : StateDescriptor}
    (h : describeState dispatch args = .ok (some state)) :
    ∃ found, ConflictResolution.unspecified.number ∉ listed found args.resolutions ∧
      state.resolutions = resolved (listed found args.resolutions) := by
  obtain ⟨-, found, -, hunspecified, hextend, -⟩ := describeState_eq_ok_some_iff.mp h
  exact ⟨found, hunspecified, eq_of_extend hextend⟩

/-- **Only the set of the resolutions matters**: given any that say the same, the base
aside, the state is described as it was. -/
theorem describeState_congr {state : StateDescriptor}
    (h : describeState dispatch args = .ok (some state)) {given : List ℤ}
    (hgiven : ∀ resolution, resolution ∈ baseResolutions ∨ resolution ∈ given ↔
      resolution ∈ state.resolutions) :
    describeState dispatch { args with resolutions := some given } = .ok (some state) := by
  obtain ⟨-, found, hfound, hunspecified, hextend, htype⟩ := describeState_eq_ok_some_iff.mp h
  have hstate := eq_of_extend hextend
  have hresolved : resolved given = resolved (listed found args.resolutions) := by
    refine resolved_congr fun resolution => ?_
    rw [hgiven, hstate, mem_resolved]
  refine describeState_eq_ok_some_iff.mpr
    ⟨Or.inr (Or.inr rfl), found, hfound, fun hmem => ?_, ?_, htype⟩
  · -- What is not listed is not in the state, and so not given.
    have hin := (hgiven _).mp (Or.inr hmem)
    rw [hstate, mem_resolved] at hin
    exact hin.elim (by decide) hunspecified
  · change extend (resolved given) = _
    rw [hresolved, hextend]

end Describing

/-! ### What is built is accepted -/

section Accepted

variable [Classed σ] {dispatch : Component σ} {args : Arguments} {descriptor : Descriptor}

/-- **The resolutions of a state described** are a sorted set, with the base in it. Their
order and their repetitions are not those given, and they describe the component again. -/
structure Settled (dispatch : Component σ) (args : Arguments) (descriptor : Descriptor)
    (state : StateDescriptor) : Prop where
  increasing : state.resolutions.Pairwise (· < ·)
  strict : ConflictResolution.strict.number ∈ state.resolutions
  aggregateHandles : ConflictResolution.aggregateHandles.number ∈ state.resolutions
  specified : ConflictResolution.unspecified.number ∉ state.resolutions
  unordered : ∀ given given', args.resolutions = some given →
    (∀ resolution, resolution ∈ given' ↔ resolution ∈ given) →
      describe dispatch { args with resolutions := some given' } = .ok descriptor
  again : describe dispatch { args with resolutions := some state.resolutions } = .ok descriptor

/-- A component is described again by resolutions that say the same. -/
theorem describe_congr (h : describe dispatch args = .ok descriptor) {state : StateDescriptor}
    (hstate : descriptor.state = some state) {given : List ℤ}
    (hgiven : ∀ resolution, resolution ∈ baseResolutions ∨ resolution ∈ given ↔
      resolution ∈ state.resolutions) :
    describe dispatch { args with resolutions := some given } = .ok descriptor := by
  obtain ⟨found, hfound, rfl, hrefusal, hprojector⟩ := describe_eq_ok_iff.mp h
  obtain rfl : found = some state := hstate
  exact describe_eq_ok_iff.mpr
    ⟨some state, describeState_congr hfound hgiven, rfl, hrefusal, hprojector⟩

theorem settled_of_describe (h : describe dispatch args = .ok descriptor)
    {state : StateDescriptor} (hstate : descriptor.state = some state) :
    Settled dispatch args descriptor state := by
  obtain ⟨described, hdescribed, heq, -, -⟩ := describe_eq_ok_iff.mp h
  obtain rfl : described = some state := by rw [heq] at hstate; exact hstate
  obtain ⟨found, hunspecified, hresolved⟩ := resolutions_eq_resolved hdescribed
  have hmem : ∀ resolution, resolution ∈ state.resolutions ↔
      resolution ∈ baseResolutions ∨ resolution ∈ listed found args.resolutions := by
    intro resolution
    rw [hresolved, mem_resolved]
  have hbase : baseResolutions ⊆ state.resolutions :=
    fun resolution hin => (hmem resolution).mpr (Or.inl hin)
  refine ⟨?_, hbase (by decide), hbase (by decide), fun hin => ?_, ?_, ?_⟩
  · rw [hresolved]
    exact pairwise_resolved _
  · exact ((hmem _).mp hin).elim (by decide) hunspecified
  · intro given given' hgiven hsame
    refine describe_congr h hstate fun resolution => ?_
    rw [hmem, hgiven, hsame]
    rfl
  · refine describe_congr h hstate fun resolution => ?_
    exact ⟨fun hor => hor.elim (fun hin => hbase hin) id, Or.inr⟩

/-- A projector's inputs are its domains. -/
theorem inputs_of_projector (h : describe dispatch args = .ok descriptor)
    {table : ProjectorDispatch σ} (htable : dispatch = .projector table) :
    descriptor.inputs = table.domains ∧ descriptor.inputs ≠ [] := by
  obtain ⟨state, -, rfl, -, hprojector⟩ := describe_eq_ok_iff.mp h
  subst htable
  exact ⟨rfl, fun hnil => hprojector ⟨rfl, hnil⟩⟩

omit [Classed σ] in
/-- What a fresh host's own checks accept, it hosts. -/
theorem Hosting.add_of_fresh [Spec] {router : Option (Router σ)} {version : String}
    (hrouter : (router.getD Router.new).component = none) {described : ComponentDescriptor}
    (haccepts : ¬(Hosting.new router version).Refuses dispatch described) :
    (Hosting.new router version).add dispatch described =
      (.ok (), (Hosting.new router version).hosted dispatch described,
        dispatch.stamped version) := by
  have hadded := (Hosting.new router version).added_add dispatch described
  generalize (Hosting.new router version).add dispatch described = result at hadded
  cases hadded with
  | checked error hrefuses => exact absurd hrefuses haccepts
  | second _ hname => exact absurd rfl hname
  | duplicate error _ _ hheld => exact absurd hrouter hheld
  | hosted => rfl

/-- **What `describe` builds is accepted**: by the coordinator, whose rules it keeps; as the
description of itself; and by a fresh host that reports the version described, which comes to
host the component under its kind with the descriptor. -/
theorem describe_accepted [Spec] (h : describe dispatch args = .ok descriptor) :
    descriptor.refusal = none ∧ descriptor.Ruled ∧
      (∀ name ∈ descriptor.startingTypes, '/' ∉ name.toList) ∧
      (∀ table, dispatch = .projector table →
        descriptor.inputs = table.domains ∧ descriptor.inputs ≠ []) ∧
      (∀ state, descriptor.state = some state → Settled dispatch args descriptor state) ∧
      ∀ router version, (router.getD Router.new).component = none →
        (Hosting.new router version).state.host.reported dispatch.table =
            descriptor.rulesVersion →
          (Hosting.new router version).add dispatch descriptor.read =
            (.ok (), (Hosting.new router version).hosted dispatch descriptor.read,
              dispatch.stamped version) := by
  obtain ⟨state, -, heq, hrefusal, -⟩ := describe_eq_ok_iff.mp h
  refine ⟨hrefusal, Descriptor.refusal_eq_none_iff.mp hrefusal, ?_,
    fun table htable => inputs_of_projector h htable,
    fun state hstate => settled_of_describe h hstate, ?_⟩
  · intro name hname
    rw [heq] at hname
    obtain ⟨given, -, rfl⟩ := List.mem_map.mp hname
    exact given.slash_not_mem_fullName
  · intro router version hrouter hversion
    refine Hosting.add_of_fresh hrouter ?_
    rintro (hmismatch | ⟨hkind, hdomain⟩)
    · exact hmismatch hversion.symm
    · -- The one kind whose domains the host reads.
      cases hdispatch : dispatch with
      | projector table =>
        obtain ⟨hinputs, hne⟩ := inputs_of_projector h hdispatch
        rw [hdispatch] at hdomain
        exact hdomain.elim (fun hnil => hne (hinputs.trans hnil)) hne
      | _ => rw [hdispatch] at hkind; cases hkind

end Accepted

/-! ### A ledger described -/

namespace Router.Ledger

/-- The class of a ledger's state, whose option lists `COMMUTATIVE`. -/
def counterStateClass : MessageClass where
  fullName := "test.counter.CounterState"
  stateOption := some [ConflictResolution.commutative.number]
  slash_not_mem := by decide

scoped instance : Classed CounterState := ⟨fun _ => counterStateClass⟩

/-- `describe(ledger, rules_version="1.0", resolutions=[STRICT, COMMUTATIVE, COMMUTATIVE])`. -/
def describedLedger : Arguments := ⟨some "1.0", none, some [2, 1, 1], []⟩

end Router.Ledger

open scoped Router.Ledger

/-- A ledger is described with its resolutions in order, and hosted. -/
theorem describe_accepted_ledger :
    let dispatch : Component Ledger.CounterState := .aggregate Ledger.ledgerAggregate
    ∃ descriptor state, describe dispatch Ledger.describedLedger = .ok descriptor ∧
      descriptor.state = some state ∧
      state = ⟨"/test.counter.CounterState", [1, 2, 3]⟩ ∧
      Settled dispatch Ledger.describedLedger descriptor state ∧
      ((Hosting.new none "1.0").add dispatch descriptor.read).1 = .ok () := by
  intro dispatch
  have h : describe dispatch Ledger.describedLedger =
      .ok ⟨"Ledger", .aggregate, "1.0", [],
        some ⟨"/test.counter.CounterState", [1, 2, 3]⟩, [], ""⟩ := rfl
  obtain ⟨-, -, -, -, hsettled, hadd⟩ := describe_accepted h
  refine ⟨_, _, h, rfl, rfl, hsettled _ rfl, ?_⟩
  rw [hadd none "1.0" rfl rfl]

end AngzarrClient
