import AngzarrClient.Lib.Run
import AngzarrClient.Proto

/-!
# Building a query

`AngzarrClient.QueryBuilder` is an object its setters write to, one slot each, but for the
selection, which has two: a setter of a range empties the temporal slot, and one of a time
or a sequence the range. A setter may raise, and the caller may catch that and go on with
the same object, so a setter is a function of the object that leaves an object whichever
way it ends (`AngzarrClient.Setting`).

A run is any sequence of calls whose errors are caught. Its builder says what the calls
that succeeded said, the last of each kind (`AngzarrClient.Reflects`), so a call that raised
leaves nothing behind, and the query holds one selection at most
(`AngzarrClient.query_is_last_successful`). Which calls those are is a matter of their
arguments alone (`AngzarrClient.succeeded_eq_filter`).

Parsing a UUID's text and a timestamp's is the runtime's, and stands as a parameter
(`AngzarrClient.Parsing`).
-/

namespace AngzarrClient

/-! ### Arguments -/

/-- `uuid.UUID`: sixteen bytes. -/
structure PyUUID where
  bytes : Bytes
  length_eq : bytes.length = 16
  deriving DecidableEq

/-- `uuid_to_proto`. -/
def uuidToProto (u : PyUUID) : UUID := ⟨u.bytes⟩

/-- The text forms read outside the repository. -/
class Parsing where
  /-- `uuid.UUID(text)`; nothing where it raises `ValueError`. -/
  uuid : String → Option PyUUID
  /-- `Timestamp.FromJsonString(text)`, or the text of the `ValueError` it raises. -/
  timestamp : String → Except String Timestamp

/-- A UUID, or the text of one. -/
inductive UUIDArg where
  | uuid (u : PyUUID)
  | text (text : String)
  deriving DecidableEq

/-- What a setter raises. -/
inductive BuilderError where
  /-- `InvalidArgumentError`. -/
  | invalidArgument (code : String) (details : List (String × String))
  /-- `InvalidTimestampError`. -/
  | invalidTimestamp (code : String) (details : List (String × String))
  /-- The `ValueError` of a number a field does not hold. -/
  | valueError
  deriving DecidableEq

/-- `_as_uuid`. -/
def asUUID [Parsing] (value : UUIDArg) (field : String) : Except BuilderError PyUUID :=
  match value with
  | .uuid u => .ok u
  | .text text =>
    match Parsing.uuid text with
    | some u => .ok u
    | none => .error (.invalidArgument "PROTO_UUID_INVALID" [("field", field), ("input", text)])

/-- `parse_timestamp`. -/
def parseTimestamp [Parsing] (rfc3339 : String) : Except BuilderError Timestamp :=
  match Parsing.timestamp rfc3339 with
  | .ok ts => .ok ts
  | .error text => .error (.invalidTimestamp "TIMESTAMP_PARSE_FAILED" [("ext_err_txt", text)])

/-- A number assigned to a sequence field. -/
def sequenceField [Spec] (n : ℤ) : Except BuilderError ℕ :=
  if 0 ≤ n ∧ n < Spec.sequenceLimit then .ok n.toNat else .error .valueError

/-! ### The builder -/

/-- `QueryBuilder`, but for the client it executes with. -/
structure QueryBuilder where
  domain : String
  root : Option PyUUID
  correlationId : Option PyUUID
  range : Option SequenceRange
  temporal : Option TemporalQuery
  edition : Option String
  deriving DecidableEq

/-- A call on the builder: it may raise, and leaves the builder as it then is. -/
abbrev Setting := ExceptT BuilderError (StateM QueryBuilder)

namespace QueryBuilder

/-- `QueryBuilder(client, domain, root)`. -/
def new (domain : String) (root : Option PyUUID) : QueryBuilder :=
  ⟨domain, root, none, none, none, none⟩

section Setters

variable [Parsing] [Spec]

/-- `by_correlation_id`. -/
def byCorrelationId (id : UUIDArg) : Setting Unit := do
  let id ← liftM (asUUID id "correlation_id")
  modify fun b => { b with correlationId := some id }
  modify fun b => { b with root := none }

/-- `edition`. -/
def setEdition (edition : String) : Setting Unit :=
  modify fun b => { b with edition := some edition }

/-- `range`. -/
def setRange (lower : ℤ) : Setting Unit := do
  let lower ← liftM (sequenceField lower)
  modify fun b => { b with range := some ⟨lower, none⟩ }
  modify fun b => { b with temporal := none }

/-- `range_to`. -/
def rangeTo (lower upper : ℤ) : Setting Unit := do
  let lower ← liftM (sequenceField lower)
  let upper ← liftM (sequenceField upper)
  modify fun b => { b with range := some ⟨lower, some upper⟩ }
  modify fun b => { b with temporal := none }

/-- `as_of_sequence`. -/
def asOfSequence (seq : ℤ) : Setting Unit := do
  let seq ← liftM (sequenceField seq)
  modify fun b => { b with temporal := some ⟨some seq, none⟩ }
  modify fun b => { b with range := none }

/-- `as_of_time`. -/
def asOfTime (rfc3339 : String) : Setting Unit := do
  let ts ← liftM (parseTimestamp rfc3339)
  modify fun b => { b with temporal := some ⟨none, none⟩ }
  modify fun b => { b with temporal := some ⟨none, some ts⟩ }
  modify fun b => { b with range := none }

end Setters

/-- The query of the slots `build` reads. -/
def query (b : QueryBuilder) : Query :=
  let cover : Cover := ⟨b.domain, none, none⟩
  let cover := match b.root with
    | some root => { cover with root := some (uuidToProto root) }
    | none => cover
  let cover := match b.edition with
    | some edition => if edition = "" then cover else { cover with edition := some edition }
    | none => cover
  let query : Query := ⟨some cover, none, none, none⟩
  let query := match b.correlationId with
    | some id => { query with correlationId := some (uuidToProto id) }
    | none => query
  match b.range with
  | some range => { query with range := some range }
  | none =>
    match b.temporal with
    | some temporal => { query with temporal := some temporal }
    | none => query

/-- `build`. -/
def build : Setting Query := do
  let b ← get
  return b.query

end QueryBuilder

/-! ### Runs -/

/-- A call of one of the six setters. -/
inductive Setter where
  | byCorrelationId (id : UUIDArg)
  | edition (edition : String)
  | range (lower : ℤ)
  | rangeTo (lower upper : ℤ)
  | asOfSequence (seq : ℤ)
  | asOfTime (rfc3339 : String)
  deriving DecidableEq

variable [Parsing] [Spec]

namespace Setter

/-- The call a setter makes. -/
def setting : Setter → Setting Unit
  | .byCorrelationId id => QueryBuilder.byCorrelationId id
  | .edition name => QueryBuilder.setEdition name
  | .range lower => QueryBuilder.setRange lower
  | .rangeTo lower upper => QueryBuilder.rangeTo lower upper
  | .asOfSequence seq => QueryBuilder.asOfSequence seq
  | .asOfTime rfc3339 => QueryBuilder.asOfTime rfc3339

/-- A setter called on a builder: what it ends with, and the builder it leaves. -/
def call (s : Setter) (b : QueryBuilder) : Except BuilderError Unit × QueryBuilder :=
  s.setting.run.run b

end Setter

/-- A call whose error is caught. -/
def caught (b : QueryBuilder) (s : Setter) : QueryBuilder := (s.call b).2

/-- The calls of a run that did not raise, in order. -/
def succeeded (b : QueryBuilder) : List Setter → List Setter
  | [] => []
  | s :: rest =>
    match (s.call b).1 with
    | .ok () => s :: succeeded (caught b s) rest
    | .error _ => succeeded (caught b s) rest

/-! ### What a setter does -/

/-- What selects the events of a stream. -/
inductive Selection where
  | range (range : SequenceRange)
  | temporal (temporal : TemporalQuery)
  deriving DecidableEq

/-- The two slots of a selection: one at most is filled. -/
def Selection.slots : Option Selection → Option SequenceRange × Option TemporalQuery
  | none => (none, none)
  | some (.range r) => (some r, none)
  | some (.temporal t) => (none, some t)

namespace Setter

/-- The selection a call asks for, where it is a selection setter's and does not raise. -/
def selection : Setter → Option Selection
  | .range lower => (sequenceField lower).toOption.map fun n => .range ⟨n, none⟩
  | .rangeTo lower upper =>
    (sequenceField lower).toOption.bind fun m =>
      (sequenceField upper).toOption.map fun n => .range ⟨m, some n⟩
  | .asOfSequence seq => (sequenceField seq).toOption.map fun n => .temporal ⟨some n, none⟩
  | .asOfTime rfc3339 => (parseTimestamp rfc3339).toOption.map fun ts => .temporal ⟨none, some ts⟩
  | _ => none

/-- The correlation id a call asks for, where it does not raise. -/
def correlation : Setter → Option PyUUID
  | .byCorrelationId id => (asUUID id "correlation_id").toOption
  | _ => none

/-- The edition a call asks for. -/
def namedEdition : Setter → Option String
  | .edition name => some name
  | _ => none

/-- **What a call that succeeds writes**: its own slots, and no other. -/
structure Writes (s : Setter) (b b' : QueryBuilder) : Prop where
  domain : b'.domain = b.domain
  slots : (b'.range, b'.temporal) =
    if s.selection.isSome then Selection.slots s.selection else (b.range, b.temporal)
  correlationId : b'.correlationId = s.correlation.or b.correlationId
  root : b'.root = if s.correlation.isSome then none else b.root
  edition : b'.edition = s.namedEdition.or b.edition

/-- A call that fills the slots of a selection writes just that. -/
theorem writes_of_selection {s : Setter} {selection : Selection}
    (hselection : s.selection = some selection) (hcorrelation : s.correlation = none)
    (hedition : s.namedEdition = none) (b : QueryBuilder) :
    s.Writes b { b with
      range := (Selection.slots (some selection)).1
      temporal := (Selection.slots (some selection)).2 } where
  domain := rfl
  slots := by rw [hselection]; rfl
  correlationId := by rw [hcorrelation, Option.none_or]
  root := by rw [hcorrelation]; rfl
  edition := by rw [hedition, Option.none_or]

/-- How a call can end: it succeeds and writes its slots, or it raises and leaves the builder as
it was. -/
def Settles (s : Setter) (b : QueryBuilder) (ended : Except BuilderError Unit × QueryBuilder) :
    Prop :=
  (ended.1 = .ok () ∧ s.Writes b ended.2) ∨ ∃ e, ended = (.error e, b)

/-- A setting that reads an argument first raises what reading it raises, and otherwise ends as
the rest does. -/
theorem settles_read {α : Type} {s : Setter} {b : QueryBuilder} {read : Except BuilderError α}
    {rest : α → Setting Unit} (hrest : ∀ a, read = .ok a → s.Settles b ((rest a).run.run b)) :
    s.Settles b ((do let a ← liftM read; rest a : Setting Unit).run.run b) := by
  cases hread : read with
  | error e => exact Or.inr ⟨e, rfl⟩
  | ok a => exact hrest a hread

/-- **A call writes all it says or nothing.** -/
theorem call_cases (s : Setter) (b : QueryBuilder) : s.Settles b (s.call b) := by
  cases s with
  | byCorrelationId id =>
    refine settles_read fun u hid => Or.inl ⟨rfl, ?_⟩
    have hc : (Setter.byCorrelationId id).correlation = some u := by rw [correlation, hid]; rfl
    exact ⟨rfl, rfl, by rw [hc]; rfl, by rw [hc]; rfl, rfl⟩
  | edition name => exact Or.inl ⟨rfl, rfl, rfl, rfl, rfl, rfl⟩
  | range lower =>
    refine settles_read fun n hlower => Or.inl ⟨rfl, ?_⟩
    have hselection : (range lower).selection = some (.range ⟨n, none⟩) := by
      rw [selection, hlower]
      rfl
    exact writes_of_selection hselection rfl rfl b
  | rangeTo lower upper =>
    refine settles_read fun m hlower => settles_read fun n hupper => Or.inl ⟨rfl, ?_⟩
    have hselection : (rangeTo lower upper).selection = some (.range ⟨m, some n⟩) := by
      rw [selection, hlower, hupper]
      rfl
    exact writes_of_selection hselection rfl rfl b
  | asOfSequence seq =>
    refine settles_read fun n hseq => Or.inl ⟨rfl, ?_⟩
    have hselection : (asOfSequence seq).selection = some (.temporal ⟨some n, none⟩) := by
      rw [selection, hseq]
      rfl
    exact writes_of_selection hselection rfl rfl b
  | asOfTime rfc3339 =>
    -- The empty temporal slot it writes first is written over.
    refine settles_read fun ts hts => Or.inl ⟨rfl, ?_⟩
    have hselection : (asOfTime rfc3339).selection = some (.temporal ⟨none, some ts⟩) := by
      rw [selection, hts]
      rfl
    exact writes_of_selection hselection rfl rfl b

end Setter

/-! ### Which calls succeed -/

omit [Parsing] in
/-- A number is assigned to a sequence field when the field holds it. -/
theorem sequenceField_isOk (n : ℤ) :
    (sequenceField n).isOk = decide (0 ≤ n ∧ n < Spec.sequenceLimit) := by
  rw [sequenceField]
  by_cases h : 0 ≤ n ∧ n < Spec.sequenceLimit
  · rw [if_pos h, decide_eq_true h]
    rfl
  · rw [if_neg h, decide_eq_false h]
    rfl

namespace Setter

/-- What a call is given, where it does not raise: a UUID or the text of one, numbers that
their fields hold, the text of a timestamp. -/
def accepts : Setter → Bool
  | .byCorrelationId (.uuid _) => true
  | .byCorrelationId (.text text) => (Parsing.uuid text).isSome
  | .edition _ => true
  | .range lower => decide (0 ≤ lower ∧ lower < Spec.sequenceLimit)
  | .rangeTo lower upper =>
    decide (0 ≤ lower ∧ lower < Spec.sequenceLimit) &&
      decide (0 ≤ upper ∧ upper < Spec.sequenceLimit)
  | .asOfSequence seq => decide (0 ≤ seq ∧ seq < Spec.sequenceLimit)
  | .asOfTime rfc3339 => (Parsing.timestamp rfc3339).isOk

/-- **Whether a call succeeds is its arguments' alone**, whatever was said before it. -/
theorem call_isOk (s : Setter) (b : QueryBuilder) : (s.call b).1.isOk = s.accepts := by
  cases s with
  | byCorrelationId id =>
    cases id with
    | uuid u => rfl
    | text text =>
      simp only [call, setting, QueryBuilder.byCorrelationId, asUUID, accepts]
      cases Parsing.uuid text <;> rfl
  | edition name => rfl
  | range lower =>
    rw [accepts, ← sequenceField_isOk]
    simp only [call, setting, QueryBuilder.setRange]
    cases sequenceField lower <;> rfl
  | rangeTo lower upper =>
    rw [accepts, ← sequenceField_isOk, ← sequenceField_isOk]
    simp only [call, setting, QueryBuilder.rangeTo]
    cases sequenceField lower with
    | error e => rfl
    | ok m => cases sequenceField upper <;> rfl
  | asOfSequence seq =>
    rw [accepts, ← sequenceField_isOk]
    simp only [call, setting, QueryBuilder.asOfSequence]
    cases sequenceField seq <;> rfl
  | asOfTime rfc3339 =>
    simp only [call, setting, QueryBuilder.asOfTime, parseTimestamp, accepts]
    cases Parsing.timestamp rfc3339 <;> rfl

end Setter

/-- **The calls of a run that succeed** are those whose arguments are accepted, each whatever
became of the calls before it. -/
theorem succeeded_eq_filter (b : QueryBuilder) (calls : List Setter) :
    succeeded b calls = calls.filter Setter.accepts := by
  induction calls generalizing b with
  | nil => rfl
  | cons s calls ih =>
    have hok := s.call_isOk b
    rw [succeeded, List.filter_cons, ← hok]
    cases (s.call b).1 with
    | ok u => exact congrArg (s :: ·) (ih _)
    | error e => exact ih _

/-! ### What a run leaves -/

/-- **What a builder says after some calls**: the last of each kind. -/
structure Reflects (start : QueryBuilder) (calls : List Setter) (b : QueryBuilder) : Prop where
  domain : b.domain = start.domain
  slots : (b.range, b.temporal) = Selection.slots (Run.lastSaid Setter.selection calls)
  correlationId : b.correlationId = Run.lastSaid Setter.correlation calls
  root : b.root = if (Run.lastSaid Setter.correlation calls).isSome then none else start.root
  edition : b.edition = Run.lastSaid Setter.namedEdition calls

theorem Reflects.new (domain : String) (root : Option PyUUID) :
    Reflects (.new domain root) [] (.new domain root) := ⟨rfl, rfl, rfl, rfl, rfl⟩

/-- A call that succeeds says one thing more. -/
theorem Reflects.concat {start b b' : QueryBuilder} {calls : List Setter} {s : Setter}
    (h : Reflects start calls b) (hs : s.Writes b b') : Reflects start (calls ++ [s]) b' where
  domain := hs.domain.trans h.domain
  slots := by
    rw [hs.slots, Run.lastSaid_concat, h.slots]
    cases s.selection with
    | none => rfl
    | some selection => rfl
  correlationId := by rw [hs.correlationId, Run.lastSaid_concat, h.correlationId]
  root := by
    rw [hs.root, Run.lastSaid_concat, h.root]
    cases s.correlation with
    | none => rfl
    | some id => rfl
  edition := by rw [hs.edition, Run.lastSaid_concat, h.edition]

/-- **A run says what its successful calls said**, whatever was caught between them. -/
theorem Reflects.run {start b : QueryBuilder} {said : List Setter} (h : Reflects start said b)
    (calls : List Setter) :
    Reflects start (said ++ succeeded b calls) (Run.run caught b calls) := by
  induction calls generalizing b said with
  | nil => simpa [succeeded] using h
  | cons s calls ih =>
    rcases s.call_cases b with ⟨hok, hwrites⟩ | ⟨e, herror⟩
    · have hrest := ih (h.concat hwrites)
      rw [List.append_assoc] at hrest
      rw [succeeded, hok]
      exact hrest
    · have hcaught : caught b s = b := congrArg Prod.snd herror
      rw [succeeded, herror]
      show Reflects start (said ++ succeeded (caught b s) calls)
        (Run.run caught (caught b s) calls)
      rw [hcaught]
      exact ih h

/-! ### The query -/

/-- **The query of a run**: what its successful calls said, the last of each kind. -/
structure QueryReflects (domain : String) (root : Option PyUUID) (said : List Setter)
    (query : Query) : Prop where
  cover : query.cover = some
    { domain := domain
      root := (if (Run.lastSaid Setter.correlation said).isSome then none else root).map uuidToProto
      edition := (Run.lastSaid Setter.namedEdition said).filter (· ≠ "") }
  slots : (query.range, query.temporal) = Selection.slots (Run.lastSaid Setter.selection said)
  exclusive : ¬(query.range.isSome ∧ query.temporal.isSome)
  correlationId : query.correlationId = (Run.lastSaid Setter.correlation said).map uuidToProto

omit [Parsing] [Spec] in
/-- Two filled slots are no selection's. -/
theorem Selection.slots_exclusive (selection : Option Selection) :
    ¬((Selection.slots selection).1.isSome ∧ (Selection.slots selection).2.isSome) := by
  rcases selection with _ | (range | temporal) <;> simp [Selection.slots]

omit [Parsing] [Spec] in
/-- What a builder's slots come to: the range, where both are filled. -/
theorem QueryBuilder.query_eq (b : QueryBuilder) :
    b.query =
      { cover := some ⟨b.domain, b.root.map uuidToProto, b.edition.filter (· ≠ "")⟩
        correlationId := b.correlationId.map uuidToProto
        range := b.range
        temporal := if b.range.isSome then none else b.temporal } := by
  obtain ⟨domain, root, correlationId, range, temporal, edition⟩ := b
  have hedition : ∀ cover : Cover, cover.edition = none →
      (match edition with
        | some edition => if edition = "" then cover else { cover with edition := some edition }
        | none => cover) = { cover with edition := edition.filter (· ≠ "") } := by
    rintro ⟨_, _, _⟩ rfl
    cases edition with
    | none => rfl
    | some e =>
      by_cases he : e = ""
      · simp [he, Option.filter]
      · simp [he, Option.filter]
  unfold query
  simp only
  rw [hedition]
  · cases root <;> cases correlationId <;> cases range <;> cases temporal <;> rfl
  · cases root <;> rfl

/-- The query of a builder reflects what the builder does: one of its two slots is empty. -/
theorem Reflects.query {domain : String} {root : Option PyUUID} {said : List Setter}
    {b : QueryBuilder} (h : Reflects (.new domain root) said b) :
    QueryReflects domain root said b.query := by
  obtain ⟨hrange, htemporal⟩ := Prod.mk.inj h.slots
  have hslots : (b.query.range, b.query.temporal) =
      Selection.slots (Run.lastSaid Setter.selection said) := by
    rw [QueryBuilder.query_eq, hrange, htemporal]
    rcases Run.lastSaid Setter.selection said with _ | (r | t) <;> rfl
  refine ⟨?_, hslots, ?_, ?_⟩
  · rw [QueryBuilder.query_eq, h.domain, h.root, h.edition]
    rfl
  · obtain ⟨hrange', htemporal'⟩ := Prod.mk.inj hslots
    rw [hrange', htemporal']
    exact Selection.slots_exclusive _
  · rw [QueryBuilder.query_eq, h.correlationId]

/-- **A query is what the last successful setters said.** -/
theorem query_is_last_successful (domain : String) (root : Option PyUUID)
    (calls : List Setter) :
    let start := QueryBuilder.new domain root
    let b := Run.run caught start calls
    (∃ query, QueryReflects domain root (succeeded start calls) query ∧
      QueryBuilder.build.run.run b = (.ok query, b) ∧
      (do let q ← QueryBuilder.build; let q' ← QueryBuilder.build; return (q, q') :
        Setting (Query × Query)).run.run b = (.ok (query, query), b)) ∧
    ∀ (s : Setter) (b : QueryBuilder) (e : BuilderError),
      (s.call b).1 = .error e → caught b s = b := by
  intro start b
  have hsaid : Reflects start (succeeded start calls) b :=
    (Reflects.new domain root).run calls
  refine ⟨⟨b.query, hsaid.query, rfl, rfl⟩, fun s b e herror => ?_⟩
  rcases s.call_cases b with ⟨hok, -⟩ | ⟨e', hcall⟩
  · rw [hok] at herror
    cases herror
  · exact congrArg Prod.snd hcall

end AngzarrClient
