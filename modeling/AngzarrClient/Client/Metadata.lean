import AngzarrClient.Lib.Hex
import AngzarrClient.Proto

/-!
# The correlation header

A request carries its correlation in a header too, as text, so that a proxy reads it
without the body (`AngzarrClient.correlatedMetadata`). The text is the UUID's where there
are sixteen bytes, and plain hexadecimal where there are not; one of no bytes is not sent.

The dashes tell the two texts apart, and neither loses a byte, so the header names the
correlation it was made of (`AngzarrClient.correlatedMetadata_injective`).
-/

namespace AngzarrClient

/-- `CORRELATION_ID_HEADER`. -/
def correlationIdHeader : String := "x-correlation-id"

/-- `str(uuid.UUID(bytes=b))`, of sixteen bytes: the digits in five groups. -/
def dashed (b : Bytes) : List Char :=
  let hex := Hex.encode b
  hex.take 8 ++ '-' :: ((hex.drop 8).take 4 ++ '-' :: ((hex.drop 12).take 4 ++ '-' ::
    ((hex.drop 16).take 4 ++ '-' :: hex.drop 20)))

/-- `bytes_to_uuid_text`. -/
def bytesToUUIDText (b : Bytes) : List Char :=
  if b.length = 16 then dashed b else Hex.encode b

/-- `proto_uuid_to_text`. -/
def protoUUIDToText (u : Option UUID) : List Char :=
  match u with
  | none => []
  | some u => bytesToUUIDText u.value

/-- What a header is made of: its own text, or a UUID. -/
inductive CorrelationId where
  | text (text : List Char)
  | uuid (u : UUID)
  deriving DecidableEq

/-- The text of a header; empty of no correlation. -/
def headerText : Option CorrelationId → List Char
  | none => []
  | some (.text text) => text
  | some (.uuid u) => protoUUIDToText (some u)

/-- `correlated_metadata`. -/
def correlatedMetadata (correlationId : Option CorrelationId) : List (String × String) :=
  let text := headerText correlationId
  if text = [] then [] else [(correlationIdHeader, String.ofList text)]

/-- A digit is no dash. -/
theorem dash_not_mem_encode (b : Bytes) : '-' ∉ Hex.encode b := fun h =>
  absurd (Hex.mem_encode h) (by decide)

/-- The digits of a dashed text are those of the bytes. -/
theorem filter_dashed (b : Bytes) : (dashed b).filter (· ≠ '-') = Hex.encode b := by
  have hall (l : List Char) (hl : ∀ c ∈ l, c ∈ Hex.encode b) : l.filter (· ≠ '-') = l :=
    List.filter_eq_self.mpr fun c hc => by
      simpa using fun heq : c = '-' => dash_not_mem_encode b (heq ▸ hl c hc)
  have htake (m n : ℕ) : (((Hex.encode b).drop m).take n).filter (· ≠ '-') =
      ((Hex.encode b).drop m).take n :=
    hall _ fun c hc => List.mem_of_mem_drop (List.mem_of_mem_take hc)
  have hfirst : ((Hex.encode b).take 8).filter (· ≠ '-') = (Hex.encode b).take 8 :=
    hall _ fun c hc => List.mem_of_mem_take hc
  have hlast : ((Hex.encode b).drop 20).filter (· ≠ '-') = (Hex.encode b).drop 20 :=
    hall _ fun c hc => List.mem_of_mem_drop hc
  have hdash (l : List Char) : ('-' :: l).filter (· ≠ '-') = l.filter (· ≠ '-') := rfl
  rw [dashed]
  simp only [List.filter_append, hdash, htake, hfirst, hlast]
  -- the five groups are the whole of the digits
  have hgroup (m n : ℕ) : ((Hex.encode b).drop m).take n ++ (Hex.encode b).drop (m + n) =
      (Hex.encode b).drop m := by
    rw [← List.drop_drop, List.take_append_drop]
  rw [hgroup 16 4, hgroup 12 4, hgroup 8 4, List.take_append_drop]

/-- **The text of bytes gives them back**, whatever their number. -/
theorem bytesToUUIDText_injective : Function.Injective bytesToUUIDText := by
  have hdigits (b : Bytes) : (bytesToUUIDText b).filter (· ≠ '-') = Hex.encode b := by
    unfold bytesToUUIDText
    split
    · exact filter_dashed b
    · refine List.filter_eq_self.mpr fun c hc => ?_
      simpa using fun heq : c = '-' => dash_not_mem_encode b (heq ▸ hc)
  intro b b' h
  refine Hex.encode_injective ?_
  rw [← hdigits b, ← hdigits b', h]

/-- Headers are the same where their texts are: an empty one is not sent. -/
theorem correlatedMetadata_eq_iff {id id' : Option CorrelationId} :
    correlatedMetadata id = correlatedMetadata id' ↔ headerText id = headerText id' := by
  refine ⟨fun h => ?_, fun h => by rw [correlatedMetadata, correlatedMetadata, h]⟩
  simp only [correlatedMetadata] at h
  split at h
  · next hid =>
    split at h
    · next hid' => rw [hid, hid']
    · cases h
  · split at h
    · cases h
    · have htext := congrArg String.toList (Prod.mk.inj (List.cons.inj h).1).2
      rwa [String.toList_ofList, String.toList_ofList] at htext

/-- **A header names the correlation it was made of**, whatever the number of its bytes. -/
theorem correlatedMetadata_injective :
    Function.Injective fun u : UUID => correlatedMetadata (some (.uuid u)) := by
  rintro ⟨b⟩ ⟨b'⟩ h
  have htext : bytesToUUIDText b = bytesToUUIDText b' := correlatedMetadata_eq_iff.mp h
  rw [bytesToUUIDText_injective htext]

end AngzarrClient
