import AngzarrClient.Lib.Dict
import AngzarrClient.Lib.Wire
import Mathlib.Data.Finmap
import Mathlib.Data.Finset.Sort
import Mathlib.Data.String.Basic

/-!
# Strings, maps and numbers in protobuf messages

How the usual types of a message's fields stand on the wire, over the fields of
`Wire.Field`: a string by its UTF-8 bytes, a map by one entry a key, an `int32` by a varint
of 64 bits. A field at its default is not written, and reading starts from the default, so
reading undoes writing for each of them.

A protobuf map has no order, so it is a finite map here (`StringMap`), and a dictionary
that is assigned to one loses its order (`Dict.toStringMap`).
-/

/-- A map from strings to strings. -/
abbrev StringMap := Finmap fun _ : String => String

/-- A dictionary's entries, as a map. -/
def Dict.toStringMap (d : Dict String String) : StringMap :=
  (d.entries.map fun e => ⟨e.1, e.2⟩).toFinmap

/-- **A lookup in the map is a lookup in the dictionary.** -/
@[simp] theorem Dict.lookup_toStringMap (d : Dict String String) (k : String) :
    d.toStringMap.lookup k = d.get? k := by
  rw [Dict.toStringMap, Finmap.dlookup_list_toFinmap, Dict.get?]
  induction d.entries with
  | nil => rfl
  | cons e l ih =>
    obtain ⟨k', v⟩ := e
    rw [List.map_cons, Dict.lookup_entry]
    split
    · next h =>
      subst h
      exact List.dlookup_cons_eq (β := fun _ => String) _ k v
    · next h =>
      rw [← ih]
      exact List.dlookup_cons_ne (β := fun _ => String) _ ⟨k', v⟩ h

namespace Wire

/-! ### Strings -/

/-- A string's UTF-8 bytes. -/
def stringBytes (s : String) : List UInt8 := s.toList.flatMap String.utf8EncodeChar

/-- The string that UTF-8 bytes encode. -/
def stringOf (bytes : List UInt8) : Option String :=
  bytes.toByteArray.utf8Decode?.map fun chars => String.ofList chars.toList

@[simp] theorem stringOf_stringBytes (s : String) : stringOf (stringBytes s) = some s := by
  have hbytes : (stringBytes s).toByteArray = s.toList.utf8Encode := rfl
  rw [stringOf, hbytes, List.utf8Decode?_utf8Encode]
  simp

/-- A field of a string; one at its default is not written. -/
def stringField (number : ℕ) (s : String) : List Field :=
  if s = "" then [] else [⟨number, .bytes (stringBytes s)⟩]

/-- A field of bytes; one at its default is not written. -/
def bytesField (number : ℕ) (bytes : List UInt8) : List Field :=
  if bytes = [] then [] else [⟨number, .bytes bytes⟩]

/-- Reading a string's field sets the string. -/
theorem foldlM_stringField {α : Type} {read : α → Field → Option α} {number : ℕ}
    {f : String → α} {a : α} {s : String} (hdefault : s = "" → f s = a)
    (hread : ∀ bytes, read a ⟨number, .bytes bytes⟩ = (stringOf bytes).map f) :
    (stringField number s).foldlM read a = some (f s) := by
  unfold stringField
  split
  · next h =>
    rw [hdefault h]
    rfl
  · rw [List.foldlM_cons, hread, stringOf_stringBytes]
    rfl

/-- Reading a field of bytes sets the bytes. -/
theorem foldlM_bytesField {α : Type} {read : α → Field → Option α} {number : ℕ}
    {f : List UInt8 → α} {a : α} {bytes : List UInt8} (hdefault : bytes = [] → f bytes = a)
    (hread : ∀ bytes, read a ⟨number, .bytes bytes⟩ = some (f bytes)) :
    (bytesField number bytes).foldlM read a = some (f bytes) := by
  unfold bytesField
  split
  · next h =>
    rw [hdefault h]
    rfl
  · rw [List.foldlM_cons, hread]
    rfl

/-! ### Maps -/

/-- A map's entries in the order of their keys, as a serializer writes them. -/
def mapEntries (m : StringMap) : List (String × String) :=
  (m.keys.sort (· ≤ ·)).filterMap fun k => (m.lookup k).map fun v => (k, v)

theorem mem_mapEntries {m : StringMap} {k v : String} :
    (k, v) ∈ mapEntries m ↔ m.lookup k = some v := by
  rw [mapEntries, List.mem_filterMap]
  constructor
  · rintro ⟨k', -, h⟩
    obtain ⟨v', hv', heq⟩ := Option.map_eq_some_iff.mp h
    obtain ⟨rfl, rfl⟩ := Prod.mk.inj heq
    exact hv'
  · intro h
    refine ⟨k, ?_, by rw [h]; rfl⟩
    rw [Finset.mem_sort, Finmap.mem_keys]
    exact Finmap.mem_of_lookup_eq_some h

/-- A map read back from entries: each sets its key. -/
def ofEntries (entries : List (String × String)) (m : StringMap) : StringMap :=
  entries.foldl (fun m e => m.insert e.1 e.2) m

theorem lookup_ofEntries {entries : List (String × String)} {m : StringMap} {k v : String}
    (hunique : ∀ v', (k, v') ∈ entries → v' = v) :
    (ofEntries entries m).lookup k = some v ↔ (k, v) ∈ entries ∨ m.lookup k = some v := by
  induction entries generalizing m with
  | nil => simp [ofEntries]
  | cons e entries ih =>
    obtain ⟨k', v'⟩ := e
    rw [ofEntries, List.foldl_cons, ← ofEntries,
      ih fun v' hmem => hunique v' (List.mem_cons_of_mem _ hmem)]
    by_cases hk : k = k'
    · subst hk
      obtain rfl := hunique v' (List.mem_cons_self ..)
      simp
    · rw [Finmap.lookup_insert_of_ne _ hk]
      simp [hk]

/-- **Reading a map's entries back gives the map.** -/
@[simp] theorem ofEntries_mapEntries (m : StringMap) : ofEntries (mapEntries m) ∅ = m := by
  refine Finmap.ext_lookup fun k => Option.ext fun v => ?_
  cases hk : m.lookup k with
  | none =>
    -- A key the map does not set is set by none of its entries.
    have hnone : ∀ v', (k, v') ∉ mapEntries m := by
      intro v' hmem
      rw [mem_mapEntries, hk] at hmem
      cases hmem
    rw [lookup_ofEntries fun v' hmem => absurd hmem (hnone v')]
    simp [hnone v]
  | some w =>
    by_cases hv : v = w
    · subst hv
      have hunique : ∀ v', (k, v') ∈ mapEntries m → v' = v := by
        intro v' hmem
        rw [mem_mapEntries, hk] at hmem
        exact (Option.some.inj hmem).symm
      rw [lookup_ofEntries hunique, mem_mapEntries, hk]
      simp
    · have hw : (ofEntries (mapEntries m) ∅).lookup k = some w := by
        rw [lookup_ofEntries, mem_mapEntries]
        · exact Or.inl hk
        · intro v' hmem
          rw [mem_mapEntries, hk] at hmem
          exact (Option.some.inj hmem).symm
      rw [hw]

/-- A map entry's fields, both written. -/
def entryFields (entry : String × String) : List Field :=
  [⟨1, .bytes (stringBytes entry.1)⟩, ⟨2, .bytes (stringBytes entry.2)⟩]

/-- A map entry with one field read. -/
def readEntryField (entry : String × String) : Field → Option (String × String)
  | ⟨1, .bytes bytes⟩ => (stringOf bytes).map fun s => (s, entry.2)
  | ⟨2, .bytes bytes⟩ => (stringOf bytes).map fun s => (entry.1, s)
  | _ => some entry

theorem foldlM_entryFields (entry : String × String) :
    (entryFields entry).foldlM readEntryField ("", "") = some entry := by
  simp [entryFields, readEntryField]

/-! ### Numbers -/

/-- The numbers an `int32` field holds. -/
abbrev Int32Value := { n : ℤ // -2 ^ 31 ≤ n ∧ n < 2 ^ 31 }

/-- Zero, the default. -/
def int32Zero : Int32Value := ⟨0, by decide⟩

/-- The number an `int32` field's varint stands for: its low 32 bits, signed. -/
def int32Of (n : ℕ) : Int32Value :=
  if h : n % 2 ^ 32 < 2 ^ 31 then ⟨(n % 2 ^ 32 : ℕ), by omega, by omega⟩
  else ⟨(n % 2 ^ 32 : ℕ) - 2 ^ 32, by omega, by omega⟩

/-- The varint of an `int32` field: a negative number in 64 bits. -/
def int32Varint (n : Int32Value) : ℕ := (n.1 % 2 ^ 64).toNat

@[simp] theorem int32Of_int32Varint (n : Int32Value) : int32Of (int32Varint n) = n := by
  have hm : (int32Varint n : ℤ) = n.1 % 2 ^ 64 :=
    Int.toNat_of_nonneg (Int.emod_nonneg _ (by decide))
  obtain ⟨n, hlow, hhigh⟩ := n
  generalize int32Varint ⟨n, hlow, hhigh⟩ = m at hm ⊢
  change (m : ℤ) = n % 2 ^ 64 at hm
  refine Subtype.ext ?_
  unfold int32Of
  split
  · show ((m % 2 ^ 32 : ℕ) : ℤ) = n
    omega
  · show ((m % 2 ^ 32 : ℕ) : ℤ) - 2 ^ 32 = n
    omega

/-! ### Parsers -/

/-- A parser over a message's fields: what they read as, from the default message. -/
def parseFields {α : Type} (read : α → Field → Option α) (default : α) (bytes : List UInt8) :
    Except String α :=
  match (readFields bytes).bind fun fields => fields.foldlM read default with
  | some msg => .ok msg
  | none => .error "Error parsing message"

theorem parseFields_writeFields {α : Type} {read : α → Field → Option α} {default msg : α}
    {fields : List Field} (h : fields.foldlM read default = some msg) :
    parseFields read default (writeFields fields) = .ok msg := by
  rw [parseFields, readFields_writeFields, Option.bind_some, h]

end Wire
