import Mathlib.Data.List.Basic
import Mathlib.Data.Nat.Notation

/-!
# The protobuf wire format

A message on the wire is a run of fields, each a tag – the field's number and its wire
type – and a value. Two wire types are enough for messages whose fields are numbers,
enumerations, strings, bytes, maps and other messages: a base-128 varint
(`Wire.Value.int`), and a byte string behind its length (`Wire.Value.bytes`). The
fixed-width ones and the groups are refused.

The one result is that reading undoes writing: for a varint and whatever follows it
(`Wire.readVarint_varint`), and so for a whole message
(`Wire.readFields_writeFields`). A serializer of some message is then a function to
fields, its parser one from fields, and their round trip is a statement about fields
alone.
-/

namespace Wire

/-! ### Varints -/

/-- `n` in base 128, lowest digits first, every byte but the last with its high bit
set; `fuel` bounds the bytes before the last. -/
def varintFrom : ℕ → ℕ → List UInt8
  | 0, n => [UInt8.ofNat n]
  | fuel + 1, n =>
    if n < 128 then [UInt8.ofNat n]
    else UInt8.ofNat (n % 128 + 128) :: varintFrom fuel (n / 128)

/-- `n` as a varint. A number has no more base-128 digits than itself and one. -/
def varint (n : ℕ) : List UInt8 := varintFrom n n

/-- The varint at the head of `bytes`, and the bytes after it; nothing when they end
inside it. -/
def readVarint : List UInt8 → Option (ℕ × List UInt8)
  | [] => none
  | b :: rest =>
    if b.toNat < 128 then some (b.toNat, rest)
    else (readVarint rest).map fun r => (b.toNat - 128 + 128 * r.1, r.2)

theorem readVarint_varintFrom {fuel n : ℕ} (h : n ≤ fuel) (rest : List UInt8) :
    readVarint (varintFrom fuel n ++ rest) = some (n, rest) := by
  induction fuel generalizing n with
  | zero =>
    obtain rfl : n = 0 := Nat.le_zero.mp h
    rfl
  | succ fuel ih =>
    rw [varintFrom]
    split
    · next hlt =>
      have hb : (UInt8.ofNat n).toNat = n :=
        UInt8.toNat_ofNat_of_lt' (Nat.lt_trans hlt (by decide))
      simp [readVarint, hb, hlt]
    · next hge =>
      have hb : (UInt8.ofNat (n % 128 + 128)).toNat = n % 128 + 128 :=
        UInt8.toNat_ofNat_of_lt' (by omega : n % 128 + 128 < 256)
      -- the digits left over are those of a smaller number
      rw [List.cons_append, readVarint, hb, if_neg (by omega), ih (by omega)]
      simp only [Option.map_some, Option.some.injEq, Prod.mk.injEq, and_true]
      omega

/-- **Reading a varint undoes writing it**, and leaves what follows. -/
theorem readVarint_varint (n : ℕ) (rest : List UInt8) :
    readVarint (varint n ++ rest) = some (n, rest) :=
  readVarint_varintFrom (Nat.le_refl n) rest

theorem varint_ne_nil (n : ℕ) : varint n ≠ [] := by
  unfold varint
  cases n with
  | zero => simp [varintFrom]
  | succ n =>
    rw [varintFrom]
    split <;> simp

/-! ### Fields -/

/-- A field's value, by wire type. -/
inductive Value where
  | int (n : ℕ)
  | bytes (bytes : List UInt8)
  deriving DecidableEq

/-- A field: its number and its value. -/
structure Field where
  number : ℕ
  value : Value
  deriving DecidableEq

/-- A field on the wire: its tag, then its value, a byte string behind its length. -/
def writeField : Field → List UInt8
  | ⟨number, .int n⟩ => varint (8 * number) ++ varint n
  | ⟨number, .bytes bs⟩ => varint (8 * number + 2) ++ varint bs.length ++ bs

/-- The field at the head of `bytes`, and the bytes after it. -/
def readField (bytes : List UInt8) : Option (Field × List UInt8) := do
  let (tag, bytes) ← readVarint bytes
  let (n, bytes) ← readVarint bytes
  if tag % 8 = 0 then return (⟨tag / 8, .int n⟩, bytes)
  else if tag % 8 = 2 then
    if n ≤ bytes.length then return (⟨tag / 8, .bytes (bytes.take n)⟩, bytes.drop n)
    else none
  else none

/-- **Reading a field undoes writing it**, and leaves what follows. -/
theorem readField_writeField (field : Field) (rest : List UInt8) :
    readField (writeField field ++ rest) = some (field, rest) := by
  obtain ⟨number, n | bs⟩ := field
  · have hmod : 8 * number % 8 = 0 := by omega
    have hdiv : 8 * number / 8 = number := by omega
    simp [readField, writeField, List.append_assoc, readVarint_varint, hmod, hdiv]
  · have hmod : (8 * number + 2) % 8 = 2 := by omega
    have hdiv : (8 * number + 2) / 8 = number := by omega
    simp [readField, writeField, List.append_assoc, readVarint_varint, hmod, hdiv]

theorem writeField_ne_nil (field : Field) : writeField field ≠ [] := by
  obtain ⟨number, n | bs⟩ := field
  · exact List.append_ne_nil_of_left_ne_nil (varint_ne_nil _) _
  · exact List.append_ne_nil_of_left_ne_nil
      (List.append_ne_nil_of_left_ne_nil (varint_ne_nil _) _) _

/-! ### Messages -/

/-- Fields on the wire, in order. -/
def writeFields (fields : List Field) : List UInt8 := fields.flatMap writeField

/-- The fields `bytes` hold, at most `fuel` of them. -/
def readFieldsFrom : ℕ → List UInt8 → Option (List Field)
  | _, [] => some []
  | 0, _ :: _ => none
  | fuel + 1, b :: bytes => do
    let (field, rest) ← readField (b :: bytes)
    let more ← readFieldsFrom fuel rest
    return field :: more

/-- The fields `bytes` hold, in order; nothing when they are not a run of fields. A
field takes a byte at least, so the bytes themselves bound their number. -/
def readFields (bytes : List UInt8) : Option (List Field) := readFieldsFrom bytes.length bytes

theorem readFieldsFrom_writeFields {fuel : ℕ} {fields : List Field} (h : fields.length ≤ fuel) :
    readFieldsFrom fuel (writeFields fields) = some fields := by
  induction fields generalizing fuel with
  | nil => cases fuel <;> rfl
  | cons field fields ih =>
    obtain ⟨fuel, rfl⟩ : ∃ k, fuel = k + 1 := ⟨fuel - 1, by simp at h; omega⟩
    obtain ⟨b, bytes, hb⟩ := List.exists_cons_of_ne_nil (writeField_ne_nil field)
    have hread := readField_writeField field (writeFields fields)
    rw [hb, List.cons_append] at hread
    rw [writeFields, List.flatMap_cons, hb, List.cons_append, readFieldsFrom]
    change (readField (b :: (bytes ++ writeFields fields)) >>= _) = _
    rw [hread]
    simp only [Option.bind_eq_bind, Option.bind_some,
      ih (Nat.le_of_succ_le_succ h), Option.pure_def]

theorem length_le_writeFields (fields : List Field) :
    fields.length ≤ (writeFields fields).length := by
  induction fields with
  | nil => exact Nat.zero_le _
  | cons field fields ih =>
    have hpos : 0 < (writeField field).length :=
      List.length_pos_iff.mpr (writeField_ne_nil field)
    rw [writeFields, List.flatMap_cons, List.length_append, List.length_cons]
    change _ ≤ _ + (writeFields fields).length
    omega

/-- **Reading a message's fields undoes writing them.** -/
@[simp] theorem readFields_writeFields (fields : List Field) :
    readFields (writeFields fields) = some fields :=
  readFieldsFrom_writeFields (length_le_writeFields fields)

end Wire
