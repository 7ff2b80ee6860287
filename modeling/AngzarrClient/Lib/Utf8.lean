import Mathlib.Data.List.Basic
import Mathlib.Data.Nat.Notation

/-!
# Strings of code points, and their UTF-8

A string of a language that lets lone surrogates into its strings is a sequence of code
points, each a scalar value or a surrogate (`Utf8.CodePoint`). Only one without
surrogates has an encoding (`Utf8.encode`), and decoding gives that string back
(`Utf8.decode_encode`).

A reader of lines works on bytes, and is right to: a byte below 128 stands for its own
character and is part of no other's encoding (`Utf8.byte_mem_encode_iff`,
`Utf8.exists_of_encode_concat`). So a line feed, a carriage return or a space of the bytes
is one of the text, wherever it stands.
-/

namespace Utf8

/-- A code point: a Unicode scalar value, or a lone surrogate by its place in the
surrogates' block, which starts at `0xD800`. -/
inductive CodePoint where
  | scalar (c : Char)
  | surrogate (n : Fin 2048)
  deriving DecidableEq

/-- A string: a sequence of code points. -/
abbrev Str := List CodePoint

/-- The string of a literal. -/
def str (s : String) : Str := s.toList.map .scalar

/-! ### Encoding and decoding -/

/-- A code point's bytes; a surrogate has none. -/
def encodePoint : CodePoint → Option (List UInt8)
  | .scalar c => some (String.utf8EncodeChar c)
  | .surrogate _ => none

/-- A string's bytes; nothing when it holds a surrogate. -/
def encode : Str → Option (List UInt8)
  | [] => some []
  | p :: s => do
    let bytes ← encodePoint p
    let more ← encode s
    return bytes ++ more

/-- The string some bytes encode; nothing when they are not well formed. -/
def decode (bytes : List UInt8) : Option Str :=
  bytes.toByteArray.utf8Decode?.map fun chars => chars.toList.map .scalar

theorem encode_cons_eq_some {p : CodePoint} {s : Str} {bytes : List UInt8} :
    encode (p :: s) = some bytes ↔
      ∃ c more, p = .scalar c ∧ encode s = some more ∧
        bytes = String.utf8EncodeChar c ++ more := by
  cases p with
  | scalar c =>
    simp only [encode, encodePoint, Option.bind_eq_bind, Option.bind_some, Option.pure_def]
    constructor
    · intro h
      obtain ⟨more, hmore, h⟩ := Option.bind_eq_some_iff.mp h
      exact ⟨c, more, rfl, hmore, (Option.some.inj h).symm⟩
    · rintro ⟨c', more, hc, hmore, rfl⟩
      obtain rfl := CodePoint.scalar.inj hc
      rw [hmore]
      rfl
  | surrogate n =>
    constructor
    · intro h
      cases h
    · rintro ⟨c, more, hc, -, -⟩
      cases hc

/-- A string's bytes are its parts' bytes in a row. -/
theorem encode_append_eq_some {s t : Str} {bytes : List UInt8} :
    encode (s ++ t) = some bytes ↔
      ∃ a b, encode s = some a ∧ encode t = some b ∧ bytes = a ++ b := by
  induction s generalizing bytes with
  | nil =>
    constructor
    · intro h
      exact ⟨[], bytes, rfl, h, rfl⟩
    · rintro ⟨a, b, ha, hb, rfl⟩
      obtain rfl := Option.some.inj ha
      exact hb
  | cons p s ih =>
    rw [List.cons_append, encode_cons_eq_some]
    constructor
    · rintro ⟨c, more, rfl, hmore, rfl⟩
      obtain ⟨a, b, ha, hb, rfl⟩ := ih.mp hmore
      exact ⟨String.utf8EncodeChar c ++ a, b, encode_cons_eq_some.mpr ⟨c, a, rfl, ha, rfl⟩, hb,
        (List.append_assoc _ _ _).symm⟩
    · rintro ⟨a, b, ha, hb, rfl⟩
      obtain ⟨c, more, rfl, hmore, rfl⟩ := encode_cons_eq_some.mp ha
      exact ⟨c, more ++ b, rfl, ih.mpr ⟨more, b, hmore, hb, rfl⟩, List.append_assoc _ _ _⟩

/-- An encodable string is one of scalar values, and its bytes are theirs. -/
theorem exists_chars_of_encode {s : Str} {bytes : List UInt8} (h : encode s = some bytes) :
    ∃ chars : List Char, s = chars.map .scalar ∧ bytes.toByteArray = chars.utf8Encode := by
  induction s generalizing bytes with
  | nil =>
    obtain rfl := Option.some.inj h
    exact ⟨[], rfl, rfl⟩
  | cons p s ih =>
    obtain ⟨c, more, rfl, hmore, rfl⟩ := encode_cons_eq_some.mp h
    obtain ⟨chars, rfl, hchars⟩ := ih hmore
    refine ⟨c :: chars, rfl, ?_⟩
    rw [List.toByteArray_append, hchars, ← List.utf8Encode_singleton, ← List.utf8Encode_append]
    rfl

/-- **Decoding undoes encoding.** -/
theorem decode_encode {s : Str} {bytes : List UInt8} (h : encode s = some bytes) :
    decode bytes = some s := by
  obtain ⟨chars, rfl, hbytes⟩ := exists_chars_of_encode h
  rw [decode, hbytes, List.utf8Decode?_utf8Encode]
  simp

/-- A string of scalar values is encoded character by character. -/
theorem encode_map_scalar (chars : List Char) :
    encode (chars.map .scalar) = some (chars.flatMap String.utf8EncodeChar) := by
  induction chars with
  | nil => rfl
  | cons c chars ih => exact encode_cons_eq_some.mpr ⟨c, _, rfl, ih, List.flatMap_cons⟩

/-- **Encoding undoes decoding.** -/
theorem encode_decode {bytes : List UInt8} {s : Str} (h : decode bytes = some s) :
    encode s = some bytes := by
  obtain ⟨chars, hchars, rfl⟩ := Option.map_eq_some_iff.mp h
  have hsome : bytes.toByteArray.utf8Decode?.isSome := by rw [hchars]; rfl
  have hbytes := ByteArray.utf8Encode_get_utf8Decode? (b := bytes.toByteArray) (h := hsome)
  simp only [hchars, Option.get_some] at hbytes
  rw [encode_map_scalar]
  congr 1
  have hdata := congrArg (fun b => b.data.toList) hbytes
  simpa [List.utf8Encode] using hdata

/-- Strings with the same bytes are the same string. -/
theorem encode_injective {s t : Str} {bytes : List UInt8} (hs : encode s = some bytes)
    (ht : encode t = some bytes) : s = t :=
  Option.some.inj ((decode_encode hs).symm.trans (decode_encode ht))

/-! ### Bytes below 128 -/

/-- A byte below 128 is its own character, alone. -/
theorem eq_of_mem_utf8EncodeChar {c : Char} {b : UInt8} (h : b ∈ String.utf8EncodeChar c)
    (hb : b.toNat < 128) : c = Char.ofNat b.toNat := by
  have hbig : ∀ n : ℕ, 128 ≤ n → n < 256 → ¬b = UInt8.ofNat n := by
    intro n hn hn' hbn
    rw [hbn, UInt8.toNat_ofNat_of_lt' (show n < UInt8.size from hn')] at hb
    omega
  revert h
  unfold String.utf8EncodeChar
  simp only
  split
  · next hle =>
    intro h
    obtain rfl := List.mem_singleton.mp h
    have hval : (UInt8.ofNat c.val.toNat).toNat = c.val.toNat :=
      UInt8.toNat_ofNat_of_lt'
        (show c.val.toNat < UInt8.size from Nat.lt_of_le_of_lt hle (by decide))
    rw [hval]
    exact (Char.ofNat_toNat c).symm
  · -- the bytes of a longer encoding all have their high bit set
    split
    · intro h
      simp only [List.mem_cons, List.not_mem_nil, or_false] at h
      rcases h with h | h
      · exact absurd h (hbig _ (by omega) (by omega))
      · exact absurd h (hbig _ (by omega) (by omega))
    · split
      · intro h
        simp only [List.mem_cons, List.not_mem_nil, or_false] at h
        rcases h with h | h | h
        · exact absurd h (hbig _ (by omega) (by omega))
        · exact absurd h (hbig _ (by omega) (by omega))
        · exact absurd h (hbig _ (by omega) (by omega))
      · intro h
        simp only [List.mem_cons, List.not_mem_nil, or_false] at h
        rcases h with h | h | h | h
        · exact absurd h (hbig _ (by omega) (by omega))
        · exact absurd h (hbig _ (by omega) (by omega))
        · exact absurd h (hbig _ (by omega) (by omega))
        · exact absurd h (hbig _ (by omega) (by omega))

/-- The one byte of a character below 128. -/
def byte (c : Char) : UInt8 := UInt8.ofNat c.toNat

theorem toNat_byte {c : Char} (h : c.toNat < 128) : (byte c).toNat = c.toNat :=
  UInt8.toNat_ofNat_of_lt' (Nat.lt_trans h (by decide))

theorem utf8EncodeChar_of_lt {c : Char} (h : c.toNat < 128) :
    String.utf8EncodeChar c = [byte c] :=
  if_pos (Nat.le_of_lt_succ h)

/-- **A character below 128 is where its byte is**: it is among the characters of an
encoding exactly when it is the encoded one. -/
theorem byte_mem_utf8EncodeChar_iff {c d : Char} (h : c.toNat < 128) :
    byte c ∈ String.utf8EncodeChar d ↔ d = c := by
  constructor
  · intro hmem
    have hd := eq_of_mem_utf8EncodeChar hmem (by rw [toNat_byte h]; exact h)
    rw [hd, toNat_byte h, Char.ofNat_toNat]
  · rintro rfl
    rw [utf8EncodeChar_of_lt h]
    exact List.mem_singleton.mpr rfl

/-- Its byte is among a string's bytes exactly when it is in the string. -/
theorem byte_mem_encode_iff {s : Str} {bytes : List UInt8} (h : encode s = some bytes) {c : Char}
    (hc : c.toNat < 128) : byte c ∈ bytes ↔ CodePoint.scalar c ∈ s := by
  induction s generalizing bytes with
  | nil =>
    obtain rfl := Option.some.inj h
    simp
  | cons p s ih =>
    obtain ⟨d, more, rfl, hmore, rfl⟩ := encode_cons_eq_some.mp h
    rw [List.mem_append, List.mem_cons, ih hmore, byte_mem_utf8EncodeChar_iff hc]
    refine or_congr ⟨?_, ?_⟩ Iff.rfl
    · rintro rfl
      rfl
    · intro hcd
      exact (CodePoint.scalar.inj hcd).symm

/-- A character below 128 at a string's end is its byte at the bytes' end. -/
theorem encode_concat {t : Str} {bytes : List UInt8} {c : Char} (hc : c.toNat < 128)
    (h : encode t = some bytes) : encode (t ++ [.scalar c]) = some (bytes ++ [byte c]) := by
  refine encode_append_eq_some.mpr ⟨bytes, [byte c], h, ?_, rfl⟩
  refine encode_cons_eq_some.mpr ⟨c, [], rfl, rfl, ?_⟩
  rw [utf8EncodeChar_of_lt hc, List.append_nil]

/-- Bytes that end in its byte are those of a string that ends in it, and the rest are
the rest's. -/
theorem exists_of_encode_concat {s : Str} {bytes : List UInt8} {c : Char} (hc : c.toNat < 128)
    (h : encode s = some (bytes ++ [byte c])) :
    ∃ t, s = t ++ [.scalar c] ∧ encode t = some bytes := by
  rcases List.eq_nil_or_concat s with rfl | ⟨t, p, rfl⟩
  · have hnil := Option.some.inj h
    exact absurd hnil.symm (List.append_ne_nil_of_right_ne_nil _ (List.cons_ne_nil _ _))
  · rw [List.concat_eq_append] at h
    obtain ⟨a, last, ha, hlast, heq⟩ := encode_append_eq_some.mp h
    obtain ⟨d, more, rfl, hmore, rfl⟩ := encode_cons_eq_some.mp hlast
    obtain rfl := Option.some.inj hmore
    rw [List.append_nil] at heq
    -- the last byte is one of the last character's
    have hmem : byte c ∈ String.utf8EncodeChar d := by
      rcases List.eq_nil_or_concat (String.utf8EncodeChar d) with hnil | ⟨init, l, hl⟩
      · exact absurd hnil String.utf8EncodeChar_ne_nil
      · rw [List.concat_eq_append] at hl
        rw [hl, ← List.append_assoc] at heq
        have hbl : [byte c] = [l] := (List.append_inj' heq rfl).2
        rw [hl, (List.cons.inj hbl).1]
        exact List.mem_append_right _ (List.mem_singleton.mpr rfl)
    obtain rfl := (byte_mem_utf8EncodeChar_iff hc).mp hmem
    rw [utf8EncodeChar_of_lt hc] at heq
    obtain ⟨rfl, -⟩ := List.append_inj' heq rfl
    exact ⟨t, List.concat_eq_append, ha⟩

end Utf8
