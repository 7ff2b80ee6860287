import AngzarrClient.Child

/-!
# What the handshake reader makes of a line

A line is read without its ending, as a body. A body is no handshake when its first word
is another, a handshake when it is

    angzarr-handshake v1 unix:/<path without a line feed>

and malformed when it is neither; nothing else about it matters
(`AngzarrClient.Child.parse_handshake_grammar`).

Of bytes the ending is taken off before they are decoded, and then the text is read as
any text is: its ending is taken off too. So bytes are read as their text is exactly when
no second ending is left (`AngzarrClient.Child.text_and_bytes_alike_iff`); a handshake
whose line ends in two carriage returns names one path by its text and another by its
bytes.
-/

namespace AngzarrClient

namespace Child

open Text Utf8

/-! ### The grammar of a line -/

/-- A body's first word: what stands before its first space, or all of it. -/
def firstWord (body : Str) : Str := body.takeWhile (· ≠ space)

/-- **A handshake of an address**: the prefix, the version and the address, a space between
each two; the address is the scheme and an absolute path without a line feed. -/
def Announces (body address : Str) : Prop :=
  body = handshakePrefix ++ space :: (protocolVersion ++ space :: address) ∧
    ∃ path, address = addressScheme ++ slash :: path ∧ lf ∉ slash :: path

theorem isabs_iff {path : Str} : isabs path = true ↔ ∃ rest, path = slash :: rest := by
  rw [isabs, List.isPrefixOf_iff_prefix]
  constructor
  · rintro ⟨rest, rfl⟩
    exact ⟨rest, rfl⟩
  · rintro ⟨rest, rfl⟩
    exact ⟨rest, rfl⟩

/-- The reader's three checks of an address are those of the grammar. -/
theorem accepted_iff {address : Str} :
    (addressScheme <+: address ∧ isabs (removePrefix addressScheme address) = true ∧
        lf ∉ address) ↔
      ∃ path, address = addressScheme ++ slash :: path ∧ lf ∉ slash :: path := by
  constructor
  · rintro ⟨⟨path, rfl⟩, habs, hlf⟩
    rw [removePrefix_append] at habs
    obtain ⟨rest, rfl⟩ := isabs_iff.mp habs
    exact ⟨rest, rfl, fun hmem => hlf (List.mem_append_right _ hmem)⟩
  · rintro ⟨path, rfl, hlf⟩
    refine ⟨List.prefix_append _ _, ?_, ?_⟩
    · rw [removePrefix_append]
      exact isabs_iff.mpr ⟨path, rfl⟩
    · rw [List.mem_append, not_or]
      exact ⟨by decide, hlf⟩

theorem parseText_eq_some_iff_announces {line address : Str} :
    parseText line = .ok (some address) ↔ Announces (stripped line) address := by
  rw [parseText_eq_some_iff, accepted_iff, Announces, header]
  simp only [List.append_assoc, List.cons_append, List.nil_append]

/-- A line is no handshake exactly by its first word. -/
theorem parseText_eq_none_iff {line : Str} :
    parseText line = .ok none ↔ firstWord (stripped line) ≠ handshakePrefix := by
  unfold parseText firstWord
  simp only [partition_fst]
  split
  · next h => exact ⟨fun _ => h, fun _ => rfl⟩
  · next h =>
    -- past the first word the line is an address or malformed
    refine ⟨fun hnone => ?_, fun hne => absurd hne h⟩
    split at hnone
    · cases hnone
    · cases Option.some.inj (congrArg Except.toOption hnone)

/-- A line is refused for what its body is, whole. -/
theorem parseText_error {line : Str} {failure : Failure} (h : parseText line = .error failure) :
    failure = malformed (stripped line) := by
  unfold parseText at h
  simp only at h
  split at h
  · cases h
  · split at h
    · exact (Except.error.inj h).symm
    · cases h

/-- What is neither another's line nor a handshake is malformed. -/
theorem parseText_eq_error_iff {line : Str} {failure : Failure} :
    parseText line = .error failure ↔ failure = malformed (stripped line) ∧
      firstWord (stripped line) = handshakePrefix ∧
        ¬∃ address, Announces (stripped line) address := by
  constructor
  · intro h
    refine ⟨parseText_error h, ?_, ?_⟩
    · by_contra hne
      rw [parseText_eq_none_iff.mpr hne] at h
      cases h
    · rintro ⟨address, ha⟩
      rw [parseText_eq_some_iff_announces.mpr ha] at h
      cases h
  · rintro ⟨rfl, hword, hnone⟩
    rcases hread : parseText line with failure | _ | address
    · rw [parseText_error hread]
    · exact absurd hword (parseText_eq_none_iff.mp hread)
    · exact absurd ⟨address, parseText_eq_some_iff_announces.mp hread⟩ hnone

/-- **The reader accepts exactly its grammar.** Of a line of text, its ending removed, it
makes nothing when its first word is another, an address when it is a handshake of that
address, and the refusal of the whole line otherwise. -/
theorem parse_handshake_grammar (line : Str) :
    (parseHandshake (.text line) = .ok none ↔
      firstWord (stripped line) ≠ handshakePrefix) ∧
    (∀ address, parseHandshake (.text line) = .ok (some address) ↔
      Announces (stripped line) address) ∧
    (∀ failure, parseHandshake (.text line) = .error failure ↔
      failure = malformed (stripped line) ∧ firstWord (stripped line) = handshakePrefix ∧
        ¬∃ address, Announces (stripped line) address) :=
  ⟨parseText_eq_none_iff, fun _ => parseText_eq_some_iff_announces,
    fun _ => parseText_eq_error_iff⟩

/-- A tab is no space, and a second space is part of the address. -/
example :
    parseHandshake (.text (str "angzarr-handshake\tv1 unix:/a\n")) = .ok none ∧
      parseHandshake (.text (str "angzarr-handshake v1 unix:/a b \r\n")) =
        .ok (some (str "unix:/a b ")) ∧
      parseHandshake (.text (str "angzarr-handshake v1  unix:/a\n")) =
        .error (malformed (str "angzarr-handshake v1  unix:/a")) := by
  decide +kernel

/-! ### Bytes and their text -/

/-- The bytes up to the first one of a character below 128 are those of the text up to
that character. -/
theorem encode_takeWhile {s : Str} {bytes : List UInt8} (h : encode s = some bytes) {c : Char}
    (hc : c.toNat < 128) :
    encode (s.takeWhile (· ≠ .scalar c)) = some (bytes.takeWhile (· ≠ byte c)) := by
  rw [← partition_fst, ← partition_fst]
  rcases partition_cases (CodePoint.scalar c) s with ⟨hs, hcut⟩ | ⟨pre, rest, hs, rfl, hcut⟩
  · rw [hcut, partition_of_not_mem fun hmem => hs ((byte_mem_encode_iff h hc).mp hmem), h]
  · obtain ⟨a, b, ha, hb, rfl⟩ := encode_append_eq_some.mp h
    obtain ⟨d, more, hd, -, rfl⟩ := encode_cons_eq_some.mp hb
    obtain rfl := CodePoint.scalar.inj hd
    rw [hcut, utf8EncodeChar_of_lt hc, List.cons_append, List.nil_append,
      partition_append fun hmem => hs ((byte_mem_encode_iff ha hc).mp hmem), ha]

/-- The bytes of a text without its ending. -/
theorem encode_stripped {text : Str} {raw : List UInt8} (h : encode text = some raw) :
    encode (stripped text) = some (removeSuffix [byte '\r'] (removeSuffix [byte '\n'] raw)) :=
  encode_removeSuffix (by decide) (encode_removeSuffix (by decide) h)

/-- **Bytes are read as their text without its ending is**, and that is read without its
ending again. -/
theorem parseHandshake_bytes_eq {text : Str} {raw : List UInt8} (h : encode text = some raw) :
    parseHandshake (.bytes raw) =
      if firstWord (stripped text) = handshakePrefix then parseText (stripped text)
      else .ok none := by
  have hbody := encode_stripped h
  have hword := encode_takeWhile hbody (c := ' ') (by decide)
  have hiff : some (partition (byte ' ') (removeSuffix [byte '\r']
      (removeSuffix [byte '\n'] raw))).1 ≠ encode handshakePrefix ↔
      firstWord (stripped text) ≠ handshakePrefix := by
    rw [partition_fst, ← hword]
    constructor
    · rintro hne heq
      exact hne (congrArg encode heq)
    · intro hne heq
      exact hne (encode_injective hword (heq ▸ hword))
  unfold parseHandshake
  simp only [decode_encode hbody]
  by_cases heq : firstWord (stripped text) = handshakePrefix
  · rw [if_neg (hiff.not.mpr (not_not.mpr heq)), if_pos heq]
  · rw [if_pos (hiff.mpr heq), if_neg heq]

/-- A body that has no second ending left. -/
def EndsOnce (body : Str) : Prop :=
  firstWord body = handshakePrefix → ¬[lf] <:+ body ∧ ¬[cr] <:+ body

instance (body : Str) : Decidable (EndsOnce body) := inferInstanceAs (Decidable (_ → _))

theorem stripped_eq_self_iff {body : Str} :
    stripped body = body ↔ ¬[lf] <:+ body ∧ ¬[cr] <:+ body := by
  constructor
  · intro h
    have hlf : removeSuffix [lf] body = body := by
      refine List.IsPrefix.eq_of_length (removeSuffix_prefix_self _ _) ?_
      have hle := (removeSuffix_prefix_self [cr] (removeSuffix [lf] body)).length_le
      have hle' := (removeSuffix_prefix_self [lf] body).length_le
      rw [← stripped, h] at hle
      exact Nat.le_antisymm hle' hle
    rw [stripped, hlf] at h
    exact ⟨(removeSuffix_eq_self_iff (List.cons_ne_nil _ _)).mp hlf,
      (removeSuffix_eq_self_iff (List.cons_ne_nil _ _)).mp h⟩
  · rintro ⟨hlf, hcr⟩
    rw [stripped, removeSuffix_of_not hlf, removeSuffix_of_not hcr]

/-- Two bodies read alike by their own ends are one body: an address and a refusal both
give the whole of it back. -/
theorem stripped_eq_of_parseText_eq {line line' : Str}
    (hword : firstWord (stripped line) = handshakePrefix)
    (h : parseText line = parseText line') : stripped line = stripped line' := by
  rcases hread : parseText line with failure | _ | address
  · have hline := parseText_error hread
    have hline' := parseText_error (h ▸ hread)
    simpa [malformed] using hline.symm.trans hline'
  · exact absurd hword (parseText_eq_none_iff.mp hread)
  · rw [(parseText_eq_some_iff_announces.mp hread).1,
      (parseText_eq_some_iff_announces.mp (h ▸ hread)).1]

/-- **When bytes are read as their text.** The two have the same outcome – nothing, the same
address, or the refusal of the same line – exactly when the line, if its first word is the
handshake's, has no second ending before its ending. -/
theorem text_and_bytes_alike_iff {raw : List UInt8} {text : Str} (h : decode raw = some text) :
    parseHandshake (.bytes raw) = parseHandshake (.text text) ↔ EndsOnce (stripped text) := by
  rw [parseHandshake_bytes_eq (encode_decode h), EndsOnce, ← stripped_eq_self_iff]
  change _ = parseText text ↔ _
  constructor
  · intro heq hword
    rw [if_pos hword] at heq
    exact (stripped_eq_of_parseText_eq hword heq.symm).symm
  · intro hends
    split
    · next hword =>
      -- a body without an ending is read as its line is
      unfold parseText
      rw [hends hword]
    · next hword => exact (parseText_eq_none_iff.mpr hword).symm

/-- A child's line is read alike. -/
theorem text_and_bytes_alike_iff_socket :
    parseHandshake (.bytes ((encode (str "angzarr-handshake v1 unix:/run/a.sock\r\n")).getD [])) =
        parseHandshake (.text (str "angzarr-handshake v1 unix:/run/a.sock\r\n")) ↔
      EndsOnce (stripped (str "angzarr-handshake v1 unix:/run/a.sock\r\n")) :=
  text_and_bytes_alike_iff (decode_encode rfl)

/-- A line that ends in two carriage returns names a path that ends in one by its text, and
the path without it by its bytes. -/
theorem two_carriage_returns_read_apart :
    ∃ raw, encode (str "angzarr-handshake v1 unix:/a\r\r\n") = some raw ∧
      parseHandshake (.bytes raw) = .ok (some (str "unix:/a")) ∧
      parseHandshake (.text (str "angzarr-handshake v1 unix:/a\r\r\n")) =
        .ok (some (str "unix:/a\r")) ∧
      decode raw = some (str "angzarr-handshake v1 unix:/a\r\r\n") ∧
      str "unix:/a" ≠ str "unix:/a\r" := by
  have h := encode_map_scalar "angzarr-handshake v1 unix:/a\r\r\n".toList
  refine ⟨_, h, ?_, by decide +kernel, decode_encode h, by decide⟩
  rw [parseHandshake_bytes_eq h]
  decide +kernel

end Child

end AngzarrClient
