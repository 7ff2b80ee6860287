import AngzarrClient.Lib.Protobuf
import AngzarrClient.Lib.Text
import AngzarrClient.Proto

/-!
# The status messages of gRPC

A failed call carries a `google.rpc.Status`: a code, a message and a list of details, each
an `Any`. One of the details, an `ErrorInfo`, names the failure by a reason and a map of
strings.

What the runtime does with an `Any` is `AngzarrClient.Any.packed` and
`AngzarrClient.Any.unpack`: an `Any` unpacks as a message exactly when its type URL names
the message, whatever stands before the last slash.

The messages on the wire (`AngzarrClient.GoogleRpc.statusMessage`,
`AngzarrClient.GoogleRpc.errorInfoMessage`) are the codecs on which general statements
are shown at work.
-/

namespace AngzarrClient

/-! ### The messages -/

/-- `google.rpc.ErrorInfo`. -/
structure ErrorInfo where
  reason : String
  domain : String
  metadata : StringMap
  deriving DecidableEq

/-- `google.rpc.Status`. -/
structure Status where
  code : Wire.Int32Value
  message : String
  details : List Any
  deriving DecidableEq

namespace Any

variable {μ : Type} [Message μ]

/-- The prefix of the type URLs the runtime makes. -/
def typeUrlPrefix : String := "type.googleapis.com"

/-- `Any.Pack`: a message under the type URL of the runtime's own prefix. -/
def packed (msg : μ) : Any where
  typeUrl := typeUrlPrefix ++ "/" ++ Message.fullName μ
  value := Message.serialize msg

/-- `Any.Is`: whether the type URL names the message. -/
def is (μ : Type) [Message μ] (any : Any) : Bool :=
  '/' ∈ any.typeUrl.toList ∧
    String.ofList (Text.rpartition '/' any.typeUrl.toList).2.2 = Message.fullName μ

/-- `Any.Unpack`: the message, nothing when the type URL names another, or the text of the
`DecodeError` of bytes that are none. -/
def unpack (μ : Type) [Message μ] (any : Any) : Except String (Option μ) :=
  if any.is μ then (Message.parse any.value).map some else .ok none

/-- **Unpacking undoes packing**, as long as the message's name holds no slash. -/
theorem unpack_packed (hname : '/' ∉ (Message.fullName μ).toList) (msg : μ) :
    (packed msg).unpack μ = .ok (some msg) := by
  have htype : (packed msg).typeUrl.toList =
      typeUrlPrefix.toList ++ '/' :: (Message.fullName μ).toList := by
    simp [packed, String.toList_append]
  have his : (packed msg).is μ = true := by
    unfold is
    rw [htype, Text.rpartition_append hname]
    simp
  rw [unpack, if_pos his]
  simp [packed, Except.map]

end Any

namespace GoogleRpc

open Wire

/-! ### The messages on the wire -/

/-- An `Any`'s fields. -/
def anyFields (any : Any) : List Field :=
  stringField 1 any.typeUrl ++ bytesField 2 any.value

/-- An `Any` with one field read. -/
def readAnyField (any : Any) : Field → Option Any
  | ⟨1, .bytes bytes⟩ => (stringOf bytes).map fun s => { any with typeUrl := s }
  | ⟨2, .bytes bytes⟩ => some { any with value := bytes }
  | _ => some any

theorem foldlM_anyFields (any : Any) :
    (anyFields any).foldlM readAnyField ⟨"", []⟩ = some any := by
  obtain ⟨typeUrl, value⟩ := any
  rw [anyFields, List.foldlM_append,
    foldlM_stringField (f := fun s => ⟨s, []⟩) (fun h => by rw [h]) fun _ => rfl]
  simp only [Option.bind_eq_bind, Option.bind_some]
  exact foldlM_bytesField (f := fun bytes => (⟨typeUrl, bytes⟩ : Any))
    (fun h => congrArg (Any.mk typeUrl) h) fun _ => rfl

/-- An `ErrorInfo`'s fields. -/
def errorInfoFields (info : ErrorInfo) : List Field :=
  stringField 1 info.reason ++ stringField 2 info.domain ++
    (mapEntries info.metadata).map fun entry => ⟨3, .bytes (writeFields (entryFields entry))⟩

/-- An `ErrorInfo` with one field read. -/
def readErrorInfoField (info : ErrorInfo) : Field → Option ErrorInfo
  | ⟨1, .bytes bytes⟩ => (stringOf bytes).map fun s => { info with reason := s }
  | ⟨2, .bytes bytes⟩ => (stringOf bytes).map fun s => { info with domain := s }
  | ⟨3, .bytes bytes⟩ => do
    let fields ← readFields bytes
    let entry ← fields.foldlM readEntryField ("", "")
    return { info with metadata := info.metadata.insert entry.1 entry.2 }
  | _ => some info

theorem foldlM_errorInfoFields (info : ErrorInfo) :
    (errorInfoFields info).foldlM readErrorInfoField ⟨"", "", ∅⟩ = some info := by
  obtain ⟨reason, domain, metadata⟩ := info
  have hentries : ∀ (entries : List (String × String)) (m : StringMap),
      (entries.map fun entry =>
        (⟨3, .bytes (writeFields (entryFields entry))⟩ : Field)).foldlM readErrorInfoField
          ⟨reason, domain, m⟩ = some ⟨reason, domain, ofEntries entries m⟩ := by
    intro entries
    induction entries with
    | nil => exact fun _ => rfl
    | cons entry entries ih =>
      intro m
      have hread : readErrorInfoField ⟨reason, domain, m⟩
          ⟨3, .bytes (writeFields (entryFields entry))⟩ =
          some ⟨reason, domain, m.insert entry.1 entry.2⟩ := by
        simp [readErrorInfoField, foldlM_entryFields]
      rw [List.map_cons, List.foldlM_cons, hread]
      exact ih _
  rw [errorInfoFields, List.foldlM_append, List.foldlM_append,
    foldlM_stringField (f := fun s => ⟨s, "", ∅⟩) (fun h => by rw [h]) fun _ => rfl]
  simp only [Option.bind_eq_bind, Option.bind_some]
  rw [foldlM_stringField (f := fun s => ⟨reason, s, ∅⟩) (fun h => by rw [h]) fun _ => rfl]
  simp only [Option.bind_some]
  rw [hentries, ofEntries_mapEntries]

/-- A `Status`'s fields. -/
def statusFields (status : Status) : List Field :=
  (if status.code = int32Zero then [] else [⟨1, .int (int32Varint status.code)⟩]) ++
    stringField 2 status.message ++
    status.details.map fun detail => ⟨3, .bytes (writeFields (anyFields detail))⟩

/-- A `Status` with one field read. -/
def readStatusField (status : Status) : Field → Option Status
  | ⟨1, .int n⟩ => some { status with code := int32Of n }
  | ⟨2, .bytes bytes⟩ => (stringOf bytes).map fun s => { status with message := s }
  | ⟨3, .bytes bytes⟩ => do
    let fields ← readFields bytes
    let detail ← fields.foldlM readAnyField ⟨"", []⟩
    return { status with details := status.details ++ [detail] }
  | _ => some status

theorem foldlM_statusFields (status : Status) :
    (statusFields status).foldlM readStatusField ⟨int32Zero, "", []⟩ = some status := by
  obtain ⟨code, message, details⟩ := status
  have hdetails : ∀ details before : List Any,
      (details.map fun detail =>
        (⟨3, .bytes (writeFields (anyFields detail))⟩ : Field)).foldlM readStatusField
          ⟨code, message, before⟩ = some ⟨code, message, before ++ details⟩ := by
    intro details
    induction details with
    | nil => exact fun before => by rw [List.append_nil]; rfl
    | cons detail details ih =>
      intro before
      have hread : readStatusField ⟨code, message, before⟩
          ⟨3, .bytes (writeFields (anyFields detail))⟩ =
          some ⟨code, message, before ++ [detail]⟩ := by
        simp [readStatusField, foldlM_anyFields]
      rw [List.map_cons, List.foldlM_cons, hread]
      exact (ih _).trans (by simp)
  have hcode : (if code = int32Zero then [] else
      [(⟨1, .int (int32Varint code)⟩ : Field)]).foldlM readStatusField
        ⟨int32Zero, "", []⟩ = some ⟨code, "", []⟩ := by
    split
    · next h =>
      rw [h]
      rfl
    · simp [readStatusField]
  rw [statusFields, List.foldlM_append, List.foldlM_append, hcode]
  simp only [Option.bind_eq_bind, Option.bind_some]
  rw [foldlM_stringField (f := fun s => ⟨code, s, []⟩) (fun h => by rw [h]) fun _ => rfl]
  simp only [Option.bind_some]
  exact hdetails details []

/-- `ErrorInfo` on the wire. -/
@[reducible] def errorInfoMessage : Message ErrorInfo where
  fullName := "google.rpc.ErrorInfo"
  serialize info := writeFields (errorInfoFields info)
  parse := parseFields readErrorInfoField ⟨"", "", ∅⟩
  parse_serialize info := parseFields_writeFields (foldlM_errorInfoFields info)

/-- `Status` on the wire. -/
@[reducible] def statusMessage : Message Status where
  fullName := "google.rpc.Status"
  serialize status := writeFields (statusFields status)
  parse := parseFields readStatusField ⟨int32Zero, "", []⟩
  parse_serialize status := parseFields_writeFields (foldlM_statusFields status)

scoped instance : Message ErrorInfo := errorInfoMessage

scoped instance : Message Status := statusMessage

end GoogleRpc

end AngzarrClient
