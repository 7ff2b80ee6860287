import AngzarrClient.Child.Reading

/-!
# What a refused line of bytes is reported as

A line of bytes that is not UTF-8 has no text to be reported by, so it is reported
escaped: a byte outside printable ASCII by its number, and so is a backslash. A
reported text is read back by taking each `\xhh` for the byte `hh` and every other
character for itself (`AngzarrClient.Child.unescape`). A backslash never stands for
itself in it, so an escape is never mistaken for the characters it is written in, and
the bytes are recovered whole (`AngzarrClient.Child.unescape_escaped`).

The reader looks at a line's first word before it decodes the line, and taking the
ending off changes neither the first word of a line that is not UTF-8 nor that it is
not (`AngzarrClient.Child.parseHandshake_of_decode_none`).
-/

namespace AngzarrClient

namespace Child

open Text Utf8

/-! ### Reading an escaped text -/

/-- The value of a hexadecimal digit, in lower case. -/
def hexValue : CodePoint → Option ℕ
  | .scalar c =>
    if '0' ≤ c ∧ c ≤ '9' then some (c.toNat - 48)
    else if 'a' ≤ c ∧ c ≤ 'f' then some (c.toNat - 87)
    else none
  | .surrogate _ => none

/-- The byte four characters write as `\xhh`, if they do. -/
def escapeOf (p q h l : CodePoint) : Option UInt8 :=
  if p = .scalar '\\' ∧ q = .scalar 'x' then do
    let high ← hexValue h
    let low ← hexValue l
    return UInt8.ofNat (16 * high + low)
  else none

/-- A character as itself: its own bytes. -/
def own (p : CodePoint) : List UInt8 := (encodePoint p).getD []

/-- **Reading back**: each `\xhh` as the byte `hh`, every other character as itself. -/
def unescape : Str → List UInt8
  | p :: q :: h :: l :: s =>
    match escapeOf p q h l with
    | some b => b :: unescape s
    | none => own p ++ unescape (q :: h :: l :: s)
  | p :: s => own p ++ unescape s
  | [] => []

theorem escapeOf_of_ne {p : CodePoint} (hp : p ≠ .scalar '\\') (q h l : CodePoint) :
    escapeOf p q h l = none :=
  if_neg fun hpq => hp hpq.1

/-- What is no backslash is itself. -/
theorem unescape_cons {p : CodePoint} (hp : p ≠ .scalar '\\') (s : Str) :
    unescape (p :: s) = own p ++ unescape s := by
  rcases s with _ | ⟨q, _ | ⟨h, _ | ⟨l, s⟩⟩⟩
  · rfl
  · rfl
  · rfl
  · rw [unescape, escapeOf_of_ne hp]

/-- What is an escape is its byte. -/
theorem unescape_of_escapeOf {p q h l : CodePoint} {b : UInt8} (hb : escapeOf p q h l = some b)
    (s : Str) : unescape (p :: q :: h :: l :: s) = b :: unescape s := by
  rw [unescape, hb]

/-! ### One byte -/

/-- A byte that is written as its own character. -/
def Plain (b : UInt8) : Prop := 0x20 ≤ b ∧ b ≤ 0x7E ∧ b ≠ 0x5C

instance (b : UInt8) : Decidable (Plain b) := inferInstanceAs (Decidable (_ ∧ _))

/-- What one byte of a line that is not UTF-8 is written as. -/
def escapeByte (b : UInt8) : Str :=
  if Plain b then [.scalar (Char.ofNat b.toNat)]
  else str "\\x" ++ [hexDigit (b.toNat / 16), hexDigit (b.toNat % 16)]

theorem escaped_eq_flatMap {raw : List UInt8} (h : decode raw = none) :
    escaped raw = raw.flatMap escapeByte := by
  unfold escaped
  rw [h]
  rfl

/-- A digit is read as its value. -/
theorem hexValue_hexDigit {n : ℕ} (h : n < 16) : hexValue (hexDigit n) = some n := by
  have hall : ∀ n : Fin 16, hexValue (hexDigit n) = some n.val := by decide
  exact hall ⟨n, h⟩

/-- Printable ASCII. -/
def Printable : CodePoint → Prop
  | .scalar c => 0x20 ≤ c.toNat ∧ c.toNat ≤ 0x7E
  | .surrogate _ => False

instance : DecidablePred Printable
  | .scalar c => inferInstanceAs (Decidable (0x20 ≤ c.toNat ∧ c.toNat ≤ 0x7E))
  | .surrogate _ => inferInstanceAs (Decidable False)

theorem printable_hexDigit {n : ℕ} (h : n < 16) : Printable (hexDigit n) := by
  have hall : ∀ n : Fin 16, Printable (hexDigit n) := by decide
  exact hall ⟨n, h⟩

/-- A plain byte's character is below 128, and no backslash. -/
theorem Plain.bounds {b : UInt8} (h : Plain b) :
    0x20 ≤ b.toNat ∧ b.toNat ≤ 0x7E ∧ b.toNat ≠ 0x5C := by
  obtain ⟨hlow, hhigh, hne⟩ := h
  refine ⟨UInt8.le_iff_toNat_le.mp hlow, UInt8.le_iff_toNat_le.mp hhigh, ?_⟩
  intro heq
  exact hne (UInt8.toNat_inj.mp heq)

theorem toNat_ofNat_of_lt {n : ℕ} (h : n < 128) : (Char.ofNat n).toNat = n := by
  rw [Char.ofNat, dif_pos (show n.isValidChar from Or.inl (by omega))]
  rfl

/-- **A byte is written in printable ASCII.** -/
theorem printable_of_mem_escapeByte {b : UInt8} {p : CodePoint} (h : p ∈ escapeByte b) :
    Printable p := by
  have hb := b.toNat_lt
  unfold escapeByte at h
  split at h
  · next hplain =>
    obtain ⟨hlow, hhigh, -⟩ := hplain.bounds
    obtain rfl := List.mem_singleton.mp h
    change 0x20 ≤ (Char.ofNat b.toNat).toNat ∧ (Char.ofNat b.toNat).toNat ≤ 0x7E
    rw [toNat_ofNat_of_lt (by omega)]
    exact ⟨hlow, hhigh⟩
  · rcases List.mem_append.mp h with h | h
    · have hall : ∀ p ∈ str "\\x", Printable p := by decide
      exact hall p h
    · rcases List.mem_pair.mp h with rfl | rfl
      · exact printable_hexDigit (by omega)
      · exact printable_hexDigit (by omega)

/-- **A byte is read off the front** of whatever it is written before. -/
theorem unescape_escapeByte (b : UInt8) (s : Str) :
    unescape (escapeByte b ++ s) = b :: unescape s := by
  have hb := b.toNat_lt
  unfold escapeByte
  split
  · next hplain =>
    obtain ⟨-, hhigh, hne⟩ := hplain.bounds
    have hval : (Char.ofNat b.toNat).toNat = b.toNat := toNat_ofNat_of_lt (by omega)
    have hown : own (.scalar (Char.ofNat b.toNat)) = [b] := by
      rw [own, encodePoint, Option.getD_some, utf8EncodeChar_of_lt (by omega), byte, hval,
        UInt8.ofNat_toNat]
    rw [List.singleton_append, unescape_cons, hown]
    · rfl
    · -- the character of a plain byte is no backslash, its number being another
      intro heq
      exact hne (hval.symm.trans (congrArg Char.toNat (CodePoint.scalar.inj heq)))
  · have hbyte : UInt8.ofNat (16 * (b.toNat / 16) + b.toNat % 16) = b := by
      rw [Nat.div_add_mod, UInt8.ofNat_toNat]
    refine unescape_of_escapeOf ?_ s
    rw [escapeOf, if_pos ⟨rfl, rfl⟩, hexValue_hexDigit (by omega), hexValue_hexDigit (by omega)]
    exact congrArg some hbyte

/-! ### Whole lines -/

theorem printable_escaped {raw : List UInt8} (h : decode raw = none) :
    ∀ p ∈ escaped raw, Printable p := by
  intro p hp
  rw [escaped_eq_flatMap h] at hp
  obtain ⟨b, -, hb⟩ := List.mem_flatMap.mp hp
  exact printable_of_mem_escapeByte hb

/-- **The bytes are recovered.** -/
theorem unescape_escaped {raw : List UInt8} (h : decode raw = none) :
    unescape (escaped raw) = raw := by
  rw [escaped_eq_flatMap h]
  exact read_flatMap rfl unescape_escapeByte raw

/-- Bytes that are not UTF-8 are told apart by their escaped texts. -/
theorem escaped_injOn {raw raw' : List UInt8} (h : decode raw = none) (h' : decode raw' = none)
    (heq : escaped raw = escaped raw') : raw = raw' := by
  rw [← unescape_escaped h, heq, unescape_escaped h']

/-! ### Lines without their ending -/

/-- A line of bytes without its ending, LF or CR LF. -/
def strippedBytes (raw : List UInt8) : List UInt8 :=
  removeSuffix [byte '\r'] (removeSuffix [byte '\n'] raw)

/-- A line's first word, in bytes: what stands before its first space. -/
def firstWordBytes (raw : List UInt8) : List UInt8 := (partition (byte ' ') raw).1

/-- An ASCII character taken off the end of bytes that are not UTF-8 leaves bytes that
are not. -/
theorem decode_removeSuffix {raw : List UInt8} {c : Char} (hc : c.toNat < 128)
    (h : decode raw = none) : decode (removeSuffix [byte c] raw) = none := by
  by_cases hs : [byte c] <:+ raw
  · obtain ⟨bytes, rfl⟩ := hs
    rw [removeSuffix_append]
    rcases hd : decode bytes with _ | t
    · rfl
    · -- with the character back they would be the text and it
      rw [decode_encode (encode_concat hc (encode_decode hd))] at h
      cases h
  · rw [removeSuffix_of_not hs, h]

theorem decode_strippedBytes {raw : List UInt8} (h : decode raw = none) :
    decode (strippedBytes raw) = none :=
  decode_removeSuffix (by decide) (decode_removeSuffix (by decide) h)

/-- The ending holds no space. -/
theorem space_mem_strippedBytes {raw : List UInt8} :
    byte ' ' ∈ strippedBytes raw ↔ byte ' ' ∈ raw := by
  rw [strippedBytes, mem_removeSuffix_singleton (by decide),
    mem_removeSuffix_singleton (by decide)]

/-- A line with a space in it keeps its first word. -/
theorem firstWordBytes_strippedBytes {raw : List UInt8} (h : byte ' ' ∈ raw) :
    firstWordBytes (strippedBytes raw) = firstWordBytes raw := by
  have hlf : byte ' ' ∈ removeSuffix [byte '\n'] raw :=
    (mem_removeSuffix_singleton (by decide)).mpr h
  calc firstWordBytes (strippedBytes raw)
      = (partition (byte ' ') (removeSuffix [byte '\n'] raw)).1 :=
        partition_removeSuffix (by decide) hlf
    _ = firstWordBytes raw := partition_removeSuffix (by decide) h

/-- Bytes that are not UTF-8 and begin with the prefix go on after a space: the prefix
alone is text. -/
theorem space_mem_of_firstWordBytes {raw : List UInt8} (h : decode raw = none)
    (hword : some (firstWordBytes raw) = encode handshakePrefix) : byte ' ' ∈ raw := by
  by_contra hnot
  rw [firstWordBytes, partition_of_not_mem hnot] at hword
  rw [decode_encode hword.symm] at h
  cases h

/-- Taking the ending off a line that is not UTF-8 makes no handshake of it, and unmakes
none. -/
theorem firstWordBytes_eq_prefix_iff {raw : List UInt8} (h : decode raw = none) :
    some (firstWordBytes (strippedBytes raw)) = encode handshakePrefix ↔
      some (firstWordBytes raw) = encode handshakePrefix := by
  constructor
  · intro hword
    have hspace := space_mem_of_firstWordBytes (decode_strippedBytes h) hword
    rw [← firstWordBytes_strippedBytes (space_mem_strippedBytes.mp hspace)]
    exact hword
  · intro hword
    rw [firstWordBytes_strippedBytes (space_mem_of_firstWordBytes h hword)]
    exact hword

/-- **What the reader makes of a line that is not UTF-8**: nothing when its first word is
another, and otherwise the refusal of the line's escaped text. -/
theorem parseHandshake_of_decode_none {raw : List UInt8} (h : decode raw = none) :
    parseHandshake (.bytes raw) =
      if some (firstWordBytes raw) = encode handshakePrefix then
        .error (malformed (escaped (strippedBytes raw)))
      else .ok none := by
  have hiff := firstWordBytes_eq_prefix_iff h
  have hstripped := decode_strippedBytes h
  rw [firstWordBytes, strippedBytes] at hiff
  rw [strippedBytes] at hstripped
  unfold parseHandshake
  simp only [hstripped, ne_eq, hiff, ite_not]
  rfl

theorem malformed_injective : Function.Injective malformed := by
  intro line line' h
  obtain ⟨-, hdetails⟩ := Failure.configuration.inj h
  exact congrArg Prod.snd (List.cons.inj hdetails).1

/-- What a refused line that is not UTF-8 is reported as. -/
theorem eq_escaped_of_refused {raw : List UInt8} {line : Str} (h : decode raw = none)
    (hrefused : parseHandshake (.bytes raw) = .error (malformed line)) :
    line = escaped (strippedBytes raw) := by
  rw [parseHandshake_of_decode_none h] at hrefused
  split at hrefused
  · exact (malformed_injective (Except.error.inj hrefused)).symm
  · cases hrefused

/-- **Escaped bytes lose nothing.** -/
structure LosesNothing : Prop where
  /-- Bytes that are not UTF-8 are escaped in printable ASCII, and recovered from it. -/
  recovered : ∀ raw, decode raw = none →
    (∀ p ∈ escaped raw, Printable p) ∧ unescape (escaped raw) = raw
  /-- Two lines that are not UTF-8 and differ without their endings are reported apart. -/
  apart : ∀ raw raw' line line', decode raw = none → decode raw' = none →
    parseHandshake (.bytes raw) = .error (malformed line) →
    parseHandshake (.bytes raw') = .error (malformed line') →
    strippedBytes raw ≠ strippedBytes raw' → line ≠ line'
  /-- A line that is not UTF-8 and begins with the prefix is refused as malformed, by the
  escaped text of its bytes without their ending. -/
  refused : ∀ raw, decode raw = none → some (firstWordBytes raw) = encode handshakePrefix →
    ∃ line, parseHandshake (.bytes raw) = .error (malformed line) ∧
      (∀ p ∈ line, Printable p) ∧ unescape line = strippedBytes raw

theorem escaped_bytes_lose_nothing : LosesNothing where
  recovered := fun _ h => ⟨printable_escaped h, unescape_escaped h⟩
  apart := by
    intro raw raw' line line' h h' hrefused hrefused' hne heq
    rw [eq_escaped_of_refused h hrefused, eq_escaped_of_refused h' hrefused'] at heq
    exact hne (escaped_injOn (decode_strippedBytes h) (decode_strippedBytes h') heq)
  refused := by
    intro raw h hword
    have hstripped := decode_strippedBytes h
    refine ⟨escaped (strippedBytes raw), ?_, printable_escaped hstripped,
      unescape_escaped hstripped⟩
    rw [parseHandshake_of_decode_none h, if_pos hword]

/-- The line of a socket `/run/caf` and the byte `E9`, not UTF-8. -/
def latinLine : List UInt8 :=
  "angzarr-handshake v1 unix:/run/caf".toList.map byte ++ 0xE9 :: ".sock\n".toList.map byte

/-- It is refused, by a text its bytes are recovered from. -/
theorem escaped_bytes_lose_nothing_latin :
    (∀ p ∈ escaped latinLine, Printable p) ∧ unescape (escaped latinLine) = latinLine ∧
    ∃ line, parseHandshake (.bytes latinLine) = .error (malformed line) ∧
      (∀ p ∈ line, Printable p) ∧ unescape line = strippedBytes latinLine := by
  have hdecode : decode latinLine = none := by decide +kernel
  have hword : some (firstWordBytes latinLine) = encode handshakePrefix := by decide +kernel
  obtain ⟨hprintable, hrecovered⟩ := escaped_bytes_lose_nothing.recovered latinLine hdecode
  exact ⟨hprintable, hrecovered, escaped_bytes_lose_nothing.refused latinLine hdecode hword⟩

/-- A byte that is not UTF-8 and the four characters that write it are reported apart. -/
example :
    escaped (0xE9 :: "\\xe9".toList.map byte) = str "\\xe9\\x5cxe9" ∧
      parseHandshake (.bytes latinLine) =
        .error (malformed (str "angzarr-handshake v1 unix:/run/caf\\xe9.sock")) := by
  decide +kernel

end Child

end AngzarrClient
