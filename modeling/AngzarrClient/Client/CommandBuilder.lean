import AngzarrClient.Client.Calls
import AngzarrClient.Lib.Run
import Mathlib.Algebra.Group.Int.Defs

/-!
# Building and sending a command

`AngzarrClient.CommandBuilder` keeps what its setters are told, and checks it when it
builds: the type URL and the payload have to be there, and the numbers have to fit their
fields. Two setters may raise. One raises before it writes anything; the other,
`AngzarrClient.CommandBuilder.withCommand`, takes the type URL first and raises where its
message has no bytes, so a caller that goes on keeps the new type URL with the old payload.

So a builder says, of each slot, what the last call that wrote to it said
(`AngzarrClient.CommandSetter`), and that is what is sent, once, in each of the three modes
(`AngzarrClient.sent_is_last_said`); where it does not build, nothing is.
-/

namespace AngzarrClient

/-! ### The builder -/

/-- What building a command raises. -/
inductive CommandBuilderError where
  /-- `InvalidArgumentError`, or the `ValueError` of a number a field does not hold. -/
  | argument (error : BuilderError)
  /-- What `SerializeToString` raised. -/
  | encodeError (text : String)
  deriving DecidableEq

/-- `CommandBuilder`, but for the client it executes with. -/
structure CommandBuilder where
  domain : String
  root : PyUUID
  correlationId : Option PyUUID
  typeUrl : Option String
  payload : Option Bytes
  expectedSequence : Option ℤ
  conflictResolution : ConflictResolution
  deriving DecidableEq

/-- A call on the builder: it may raise, and leaves the builder as it then is. -/
abbrev CommandSetting := ExceptT CommandBuilderError (StateM CommandBuilder)

/-- A number assigned to the open enumeration: one of 32 bits. -/
def resolutionField : ConflictResolution → Except BuilderError ConflictResolution
  | .unrecognized number =>
    if -2 ^ 31 ≤ number ∧ number < 2 ^ 31 then .ok (.unrecognized number) else .error .valueError
  | resolution => .ok resolution

namespace CommandBuilder

/-- `CommandBuilder(client, domain, root)`. -/
def new (domain : String) (root : PyUUID) : CommandBuilder :=
  ⟨domain, root, none, none, none, none, .unspecified⟩

/-- `with_correlation_id`. -/
def withCorrelationId [Parsing] (id : UUIDArg) : CommandSetting Unit := do
  let id ← liftM ((asUUID id "correlation_id").mapError CommandBuilderError.argument)
  modify fun b => { b with correlationId := some id }

/-- `with_command`, of what the message's `SerializeToString` comes to. -/
def withCommand (typeUrl : String) (serialized : Except String Bytes) : CommandSetting Unit := do
  modify fun b => { b with typeUrl := some typeUrl }
  let payload ← liftM (serialized.mapError CommandBuilderError.encodeError)
  modify fun b => { b with payload := some payload }

/-- `with_type_url`. -/
def withTypeUrl (typeUrl : String) : CommandSetting Unit :=
  modify fun b => { b with typeUrl := some typeUrl }

/-- `with_payload`. -/
def withPayload (payload : Bytes) : CommandSetting Unit :=
  modify fun b => { b with payload := some payload }

/-- `with_expected_sequence`. -/
def withExpectedSequence (sequence : ℤ) : CommandSetting Unit :=
  modify fun b => { b with expectedSequence := some sequence }

/-- `with_conflict_resolution`. -/
def withConflictResolution (resolution : ConflictResolution) : CommandSetting Unit :=
  modify fun b => { b with conflictResolution := resolution }

/-- The handling `build` sends: none where neither of its fields is set. -/
def handling [Spec] (b : CommandBuilder) : Except BuilderError (Option Handling) := do
  let handling : Option Handling := none
  let handling ← match b.expectedSequence with
    | none => pure handling
    | some sequence => do
      let sequence ← sequenceField sequence
      pure (some { handling.getD default with expectedSequence := some sequence })
  if b.conflictResolution = .unspecified then return handling
  let resolution ← resolutionField b.conflictResolution
  return some { handling.getD default with conflictResolution := resolution }

/-- `build`. -/
def build [Spec] (b : CommandBuilder) : Except BuilderError CommandBook := do
  let typeUrl := b.typeUrl.getD ""
  if typeUrl = "" then throw (.invalidArgument "COMMAND_TYPE_URL_MISSING" [])
  match b.payload with
  | none => throw (.invalidArgument "COMMAND_PAYLOAD_MISSING" [])
  | some payload =>
    let cover : Cover := ⟨b.domain, some (uuidToProto b.root), none⟩
    let page : CommandPage :=
      ⟨some (.command (some ⟨typeUrl, payload⟩)), none, b.correlationId.map uuidToProto, none⟩
    let handling ← b.handling
    return ⟨some cover, handling, some page⟩

/-! ### Sending -/

/-- What sending a command raises: what building it does, or what its call does. -/
inductive SendError where
  | build (error : BuilderError)
  | call (error : ClientFailure)

/-- The command built, and handed to a method of the client. -/
def send [Spec] {α : Type} (b : CommandBuilder)
    (method : CommandBook → Traced Sent ClientFailure α) : Traced Sent SendError α :=
  match b.build with
  | .error e => Traced.raise (.build e)
  | .ok book => ⟨(method book).log, (method book).result.mapError SendError.call⟩

section Modes

variable [Spec] [Message Status] [Message ErrorInfo] {ρ : Type} (w : Connections) (net : Net ρ)
  (c : Client) (b : CommandBuilder)

/-- `execute_async`. -/
def executeAsync : Traced Sent SendError Unit := b.send (c.handleAsync w net)

/-- `execute`. -/
def execute : Traced Sent SendError ρ := b.send (c.handle w net)

/-- `execute_sync`. -/
def executeSync : Traced Sent SendError ρ := b.send (c.handleSync w net)

end Modes

end CommandBuilder

/-! ### Runs -/

/-- A call of one of the six setters. -/
inductive CommandSetter where
  | correlationId (id : UUIDArg)
  | command (typeUrl : String) (serialized : Except String Bytes)
  | typeUrl (typeUrl : String)
  | payload (payload : Bytes)
  | expectedSequence (sequence : ℤ)
  | conflictResolution (resolution : ConflictResolution)

namespace CommandSetter

/-- The call a setter makes. -/
def setting [Parsing] : CommandSetter → CommandSetting Unit
  | .correlationId id => CommandBuilder.withCorrelationId id
  | .command url serialized => CommandBuilder.withCommand url serialized
  | .typeUrl url => CommandBuilder.withTypeUrl url
  | .payload bytes => CommandBuilder.withPayload bytes
  | .expectedSequence sequence => CommandBuilder.withExpectedSequence sequence
  | .conflictResolution resolution => CommandBuilder.withConflictResolution resolution

/-- A call whose error is caught. -/
def attempted [Parsing] (b : CommandBuilder) (s : CommandSetter) : CommandBuilder :=
  (s.setting.run.run b).2

/-! What a call writes to each slot, whether or not it raises after it. -/

/-- The correlation id a call writes. -/
def correlationSaid [Parsing] : CommandSetter → Option PyUUID
  | .correlationId id => (asUUID id "correlation_id").toOption
  | _ => none

/-- The type URL a call writes. -/
def typeUrlSaid : CommandSetter → Option String
  | .command url _ => some url
  | .typeUrl url => some url
  | _ => none

/-- The payload a call writes. -/
def payloadSaid : CommandSetter → Option Bytes
  | .command _ serialized => serialized.toOption
  | .payload bytes => some bytes
  | _ => none

/-- The expected sequence a call writes. -/
def sequenceSaid : CommandSetter → Option ℤ
  | .expectedSequence sequence => some sequence
  | _ => none

/-- The conflict resolution a call writes. -/
def resolutionSaid : CommandSetter → Option ConflictResolution
  | .conflictResolution resolution => some resolution
  | _ => none

variable [Parsing]

/-- **What a call leaves**: what it writes to a slot, and the rest as it was. -/
theorem attempted_eq (b : CommandBuilder) (s : CommandSetter) :
    attempted b s =
      { b with
        correlationId := s.correlationSaid.or b.correlationId
        typeUrl := s.typeUrlSaid.or b.typeUrl
        payload := s.payloadSaid.or b.payload
        expectedSequence := s.sequenceSaid.or b.expectedSequence
        conflictResolution := s.resolutionSaid.getD b.conflictResolution } := by
  cases s with
  | correlationId id =>
    rw [correlationSaid]
    cases hid : asUUID id "correlation_id" with
    | error e =>
      simp only [attempted, setting, CommandBuilder.withCorrelationId, hid]
      rfl
    | ok u =>
      simp only [attempted, setting, CommandBuilder.withCorrelationId, hid]
      rfl
  | command typeUrl serialized => cases serialized <;> rfl
  | typeUrl typeUrl => rfl
  | payload payload => rfl
  | expectedSequence sequence => rfl
  | conflictResolution resolution => rfl

/-- **What a run leaves**: in each slot, what was last written to it. -/
theorem run_attempted (domain : String) (root : PyUUID) (calls : List CommandSetter) :
    Run.run attempted (.new domain root) calls =
      ⟨domain, root, Run.lastSaid correlationSaid calls, Run.lastSaid typeUrlSaid calls,
        Run.lastSaid payloadSaid calls, Run.lastSaid sequenceSaid calls,
        (Run.lastSaid resolutionSaid calls).getD .unspecified⟩ := by
  induction calls using List.reverseRecOn with
  | nil => rfl
  | append_singleton calls s ih =>
    rw [Run.run_concat, ih, attempted_eq]
    simp only [Run.lastSaid_concat]
    cases s.resolutionSaid <;> rfl

/-- A message with no bytes leaves its type URL behind, and the payload before it. -/
example (root : PyUUID) :
    Run.run attempted (.new "orders" root)
        [.command "/test.Create" (.ok [1]), .command "/test.Cancel" (.error "missing field")] =
      ⟨"orders", root, none, some "/test.Cancel", some [1], none, .unspecified⟩ := rfl

end CommandSetter

/-! ### What is sent -/

section Sent

open CommandSetter

variable [Spec]

/-- Whether a number, where one was said, fits its sequence field. -/
def SequenceFits (sequence : Option ℤ) : Prop :=
  ∀ n, sequence = some n → 0 ≤ n ∧ n < Spec.sequenceLimit

omit [Spec] in
/-- Whether a resolution, where one was said, fits its field. -/
def ResolutionFits (resolution : Option ConflictResolution) : Prop :=
  ∀ number, resolution = some (.unrecognized number) → -2 ^ 31 ≤ number ∧ number < 2 ^ 31

/-- **What a command says of the calls it was built by**: what they last wrote to each
slot. -/
structure CommandSays [Parsing] (domain : String) (root : PyUUID) (calls : List CommandSetter)
    (book : CommandBook) : Prop where
  cover : book.cover = some ⟨domain, some (uuidToProto root), none⟩
  page : ∃ url payload, Run.lastSaid typeUrlSaid calls = some url ∧ url ≠ "" ∧
    Run.lastSaid payloadSaid calls = some payload ∧
    book.page = some ⟨some (.command (some ⟨url, payload⟩)), none,
      (Run.lastSaid correlationSaid calls).map uuidToProto, none⟩
  expectedSequence : (book.getHandling.expectedSequence.map fun n : ℕ => (n : ℤ)) =
    Run.lastSaid sequenceSaid calls
  conflictResolution : book.getHandling.conflictResolution =
    (Run.lastSaid resolutionSaid calls).getD .unspecified
  handling : book.handling = none ↔ Run.lastSaid sequenceSaid calls = none ∧
    (Run.lastSaid resolutionSaid calls).getD .unspecified = .unspecified

/-- Why a command does not build: the first of its checks that fails. -/
inductive Unbuilt (calls : List CommandSetter) : BuilderError → Prop
  | typeUrl : (Run.lastSaid typeUrlSaid calls).getD "" = "" →
      Unbuilt calls (.invalidArgument "COMMAND_TYPE_URL_MISSING" [])
  | payload : (Run.lastSaid typeUrlSaid calls).getD "" ≠ "" →
      Run.lastSaid payloadSaid calls = none →
      Unbuilt calls (.invalidArgument "COMMAND_PAYLOAD_MISSING" [])
  | number : (Run.lastSaid typeUrlSaid calls).getD "" ≠ "" →
      Run.lastSaid payloadSaid calls ≠ none →
      ¬(SequenceFits (Run.lastSaid sequenceSaid calls) ∧
        ResolutionFits (Run.lastSaid resolutionSaid calls)) →
      Unbuilt calls .valueError

omit [Spec] in
theorem resolutionField_eq (resolution : ConflictResolution) :
    (ResolutionFits (some resolution) → resolutionField resolution = .ok resolution) ∧
      (¬ResolutionFits (some resolution) → resolutionField resolution = .error .valueError) := by
  cases resolution with
  | unrecognized number =>
    have hfits : ResolutionFits (some (.unrecognized number)) ↔
        -2 ^ 31 ≤ number ∧ number < 2 ^ 31 := by
      simp [ResolutionFits]
    rw [hfits, resolutionField]
    exact ⟨fun h => if_pos h, fun h => if_neg h⟩
  | _ => exact ⟨fun _ => rfl, fun h => absurd (fun _ heq => by cases heq) h⟩

theorem sequenceField_eq {n : ℤ} :
    (SequenceFits (some n) → sequenceField n = .ok n.toNat) ∧
      (¬SequenceFits (some n) → sequenceField n = .error .valueError) := by
  have hfits : SequenceFits (some n) ↔ 0 ≤ n ∧ n < Spec.sequenceLimit := by simp [SequenceFits]
  rw [hfits, sequenceField]
  exact ⟨fun h => if_pos h, fun h => if_neg h⟩

/-- **The handling of a builder**: its two slots, where their numbers fit; nothing where
neither is set. -/
theorem handling_spec (b : CommandBuilder) :
    (SequenceFits b.expectedSequence ∧ ResolutionFits (some b.conflictResolution) →
      ∃ handling, b.handling = .ok handling ∧
        ((handling.getD default).expectedSequence.map fun n : ℕ => (n : ℤ)) = b.expectedSequence ∧
        (handling.getD default).conflictResolution = b.conflictResolution ∧
        (handling = none ↔ b.expectedSequence = none ∧ b.conflictResolution = .unspecified)) ∧
    (¬(SequenceFits b.expectedSequence ∧ ResolutionFits (some b.conflictResolution)) →
      b.handling = .error .valueError) := by
  obtain ⟨domain, root, correlationId, typeUrl, payload, sequence, resolution⟩ := b
  have hunspecified : ResolutionFits (some .unspecified) := nofun
  obtain ⟨hfit, hunfit⟩ := resolutionField_eq resolution
  simp only [CommandBuilder.handling]
  cases sequence with
  | none =>
    have hseq : SequenceFits none := nofun
    by_cases hr : resolution = .unspecified
    · subst hr
      exact ⟨fun _ => ⟨none, rfl, rfl, rfl, by simp⟩, fun h => absurd ⟨hseq, hunspecified⟩ h⟩
    · refine ⟨fun h => ?_, fun h => ?_⟩
      · refine ⟨some ⟨none, resolution⟩, ?_, rfl, rfl, by simp [hr]⟩
        simp only [if_neg hr, hfit h.2]
        rfl
      · simp only [if_neg hr, hunfit fun hfits => h ⟨hseq, hfits⟩]
        rfl
  | some n =>
    obtain ⟨hn, hn'⟩ := sequenceField_eq (n := n)
    by_cases hseq : SequenceFits (some n)
    · have hcast : ((n.toNat : ℕ) : ℤ) = n := Int.toNat_of_nonneg (hseq n rfl).1
      by_cases hr : resolution = .unspecified
      · subst hr
        refine ⟨fun _ => ⟨some ⟨some n.toNat, .unspecified⟩, ?_, ?_, rfl, by simp⟩,
          fun h => absurd ⟨hseq, hunspecified⟩ h⟩
        · simp only [hn hseq]
          rfl
        · exact congrArg some hcast
      · refine ⟨fun h => ?_, fun h => ?_⟩
        · refine ⟨some ⟨some n.toNat, resolution⟩, ?_, congrArg some hcast, rfl, by simp⟩
          simp only [hn hseq, if_neg hr, hfit h.2]
          rfl
        · simp only [hn hseq, if_neg hr, hunfit fun hfits => h ⟨hseq, hfits⟩]
          rfl
    · refine ⟨fun h => absurd h.1 hseq, fun _ => ?_⟩
      simp only [hn' hseq]
      rfl

omit [Spec] in
/-- What was never said fits, as what stands for it does. -/
theorem resolutionFits_getD {resolution : Option ConflictResolution} :
    ResolutionFits (some (resolution.getD .unspecified)) ↔ ResolutionFits resolution := by
  cases resolution with
  | none =>
    refine ⟨fun _ number h => ?_, fun _ number h => ?_⟩
    · cases h
    · cases h
  | some r => rfl

variable [Parsing]

/-- **A run's builder builds the command its calls last said**, or raises for the first
check that fails. -/
theorem build_spec (domain : String) (root : PyUUID) (calls : List CommandSetter) :
    (∃ book, (Run.run attempted (.new domain root) calls).build = .ok book ∧
        CommandSays domain root calls book ∧ ∀ e, ¬Unbuilt calls e) ∨
      ∃ e, (Run.run attempted (.new domain root) calls).build = .error e ∧ Unbuilt calls e := by
  rw [run_attempted]
  by_cases hurl : (Run.lastSaid typeUrlSaid calls).getD "" = ""
  · refine .inr ⟨_, ?_, .typeUrl hurl⟩
    simp only [CommandBuilder.build, hurl]
    rfl
  cases hpayload : Run.lastSaid payloadSaid calls with
  | none =>
    refine .inr ⟨_, ?_, .payload hurl hpayload⟩
    simp only [CommandBuilder.build, if_neg hurl]
    rfl
  | some payload =>
    obtain ⟨url, hsaid⟩ : ∃ url, Run.lastSaid typeUrlSaid calls = some url := by
      cases h : Run.lastSaid typeUrlSaid calls with
      | none => exact absurd (by rw [h]; rfl) hurl
      | some url => exact ⟨url, rfl⟩
    have hne : url ≠ "" := fun h => hurl (by rw [hsaid, h]; rfl)
    have hspec := handling_spec ⟨domain, root, Run.lastSaid correlationSaid calls,
      Run.lastSaid typeUrlSaid calls, some payload, Run.lastSaid sequenceSaid calls,
      (Run.lastSaid resolutionSaid calls).getD .unspecified⟩
    simp only [resolutionFits_getD] at hspec
    by_cases hfits : SequenceFits (Run.lastSaid sequenceSaid calls) ∧
        ResolutionFits (Run.lastSaid resolutionSaid calls)
    · obtain ⟨handling, hbuilt, hsequence, hresolution, hnone⟩ := hspec.1 hfits
      refine .inl ⟨⟨some ⟨domain, some (uuidToProto root), none⟩, handling,
        some ⟨some (.command (some ⟨url, payload⟩)), none,
          (Run.lastSaid correlationSaid calls).map uuidToProto, none⟩⟩, ?_, ?_, ?_⟩
      · have hgetD : (Run.lastSaid typeUrlSaid calls).getD "" = url := by rw [hsaid]; rfl
        simp only [CommandBuilder.build, hbuilt, hgetD, if_neg hne]
        rfl
      · exact ⟨rfl, ⟨url, payload, hsaid, hne, hpayload, rfl⟩, hsequence, hresolution, hnone⟩
      · rintro e (h | ⟨-, h⟩ | ⟨-, -, h⟩)
        · exact hurl h
        · rw [hpayload] at h
          cases h
        · exact h hfits
    · refine .inr ⟨_, ?_, .number hurl (by rw [hpayload]; exact Option.some_ne_none _) hfits⟩
      simp only [CommandBuilder.build, if_neg hurl, hspec.2 hfits]
      rfl

/-- **What is sent is what was said last.** A run of calls builds a command that says what
they last wrote to each slot, and each of the three modes sends it once over an open
channel, under the header of its correlation; or the first check that fails is raised, and
nothing is sent. -/
theorem sent_is_last_said [Message Status] [Message ErrorInfo] (domain : String) (root : PyUUID)
    (calls : List CommandSetter) {ρ : Type} (w : Connections) (net : Net ρ) (c : Client) :
    let b := Run.run attempted (.new domain root) calls
    let md := correlatedMetadata
      (some (.uuid (((Run.lastSaid correlationSaid calls).map uuidToProto).getD default)))
    (∃ book, CommandSays domain root calls book ∧ (∀ e, ¬Unbuilt calls e) ∧
        (w.closed c.stub = false →
          (b.executeAsync w net c).log = [⟨.handleAsync book, md⟩] ∧
          (b.execute w net c).log = [⟨.handle book, md⟩] ∧
          (b.executeSync w net c).log = [⟨.handleSync book, md⟩])) ∨
      ∃ e, Unbuilt calls e ∧ b.executeAsync w net c = Traced.raise (.build e) ∧
        b.execute w net c = Traced.raise (.build e) ∧
        b.executeSync w net c = Traced.raise (.build e) := by
  intro b md
  rcases build_spec domain root calls with ⟨book, hbook, hsays, hbuilt⟩ | ⟨e, he, hunbuilt⟩
  · refine .inl ⟨book, hsays, hbuilt, fun hopen => ?_⟩
    have hb : b.build = .ok book := hbook
    obtain ⟨url, payload, -, -, -, hpage⟩ := hsays.page
    have hcorrelation : book.getPage.correlationId =
        (Run.lastSaid correlationSaid calls).map uuidToProto := by
      rw [CommandBook.getPage, hpage]
      rfl
    refine ⟨?_, ?_, ?_⟩
    · rw [CommandBuilder.executeAsync, CommandBuilder.send, hb]
      change (c.handleAsync w net book).log = _
      rw [Client.handleAsync, Client.rpc_open hopen, hcorrelation]
      rfl
    · rw [CommandBuilder.execute, CommandBuilder.send, hb]
      change (c.handle w net book).log = _
      rw [Client.handle, Client.rpc_open hopen, hcorrelation]
      rfl
    · rw [CommandBuilder.executeSync, CommandBuilder.send, hb]
      change (c.handleSync w net book).log = _
      rw [Client.handleSync, Client.rpc_open hopen, hcorrelation]
      rfl
  · have hb : b.build = .error e := he
    refine .inr ⟨e, hunbuilt, ?_, ?_, ?_⟩
    · rw [CommandBuilder.executeAsync, CommandBuilder.send, hb]
    · rw [CommandBuilder.execute, CommandBuilder.send, hb]
    · rw [CommandBuilder.executeSync, CommandBuilder.send, hb]

end Sent

end AngzarrClient
