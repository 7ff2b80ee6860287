import AngzarrClient.Lib.Text
import AngzarrClient.Lib.Utf8

/-!
# The child process's handshake

A component host launched as a child process announces the Unix socket it serves on by
one line on its stdout,

    angzarr-handshake v1 unix:<absolute-socket-path>

and the parent reads the address off that line. The two ends are written apart: the
child checks that the path is UTF-8 and writes the line
(`AngzarrClient.Child.announce`), the parent cuts the bytes at the first line feed, takes
the line ending off and splits at spaces (`AngzarrClient.Child.parseHandshake`).

The reader takes an address off a line exactly when the line, its ending removed, is the
header and that address (`AngzarrClient.Child.parseText_eq_some_iff`). So the two ends
agree on a path exactly when the line survives its reading: when the path holds no line
feed, at which the parent would stop, and does not end in a carriage return, which the
parent would take for part of the line ending
(`AngzarrClient.Child.handshake_names_bound_iff`). Any other path the child binds and
announces, and the parent dials another.
-/

namespace AngzarrClient

namespace Child

open Text Utf8

/-! ### The protocol's constants -/

/-- `HANDSHAKE_PREFIX`: the line's first word. -/
def handshakePrefix : Str := str "angzarr-handshake"

/-- `PROTOCOL_VERSION`: the format version. -/
def protocolVersion : Str := str "v1"

/-- `ADDRESS_SCHEME`: what stands before the socket path. -/
def addressScheme : Str := str "unix:"

/-- The line feed. -/
def lf : CodePoint := .scalar '\n'

/-- The carriage return. -/
def cr : CodePoint := .scalar '\r'

/-- The space. -/
def space : CodePoint := .scalar ' '

/-- The slash. -/
def slash : CodePoint := .scalar '/'

/-! ### Failures -/

/-- What the child's code raises: a `ConfigurationError` with its code and its details,
or the `UnicodeEncodeError` of a string that has no bytes. -/
inductive Failure where
  | configuration (code : String) (details : List (String × Str))
  | unicodeEncode
  deriving DecidableEq

/-- `_malformed`: the refusal of a line. -/
def malformed (line : Str) : Failure :=
  .configuration "HOST_REASON_HANDSHAKE_MALFORMED" [("line", line)]

/-- A digit below 16, in lower-case hexadecimal. -/
def hexDigit (n : ℕ) : CodePoint :=
  .scalar (if n < 10 then Char.ofNat (48 + n) else Char.ofNat (87 + n))

/-- `escaped`: a refused line's text: as it is when it is UTF-8, and otherwise each byte
outside printable ASCII, and each backslash, by its number. -/
def escaped (raw : List UInt8) : Str :=
  match decode raw with
  | some line => line
  | none => raw.flatMap fun b =>
    if 0x20 ≤ b ∧ b ≤ 0x7E ∧ b ≠ 0x5C then [.scalar (Char.ofNat b.toNat)]
    else str "\\x" ++ [hexDigit (b.toNat / 16), hexDigit (b.toNat % 16)]

/-! ### Paths -/

/-- `os.path.isabs`. -/
def isabs (path : Str) : Bool := [slash].isPrefixOf path

/-- `os.path.join` of a directory and a path. -/
def join (dir path : Str) : Str :=
  if isabs path then path
  else if dir = [] ∨ [slash].isSuffixOf dir then dir ++ path
  else dir ++ slash :: path

/-- How many slashes a normal path keeps in front: one for a rooted one, and two for one
of exactly two. -/
def initialSlashes (path : Str) : ℕ :=
  if [slash, slash].isPrefixOf path ∧ ¬[slash, slash, slash].isPrefixOf path then 2
  else if isabs path then 1
  else 0

/-- The components of a normal path: empty ones and single dots dropped, a double dot
taking the component before it, where there is one to take. -/
def components (rooted : Bool) (parts : List Str) : List Str :=
  parts.foldl (fun comps comp =>
    if comp = [] ∨ comp = str "." then comps
    else if comp ≠ str ".." ∨ (¬rooted ∧ comps = []) ∨ comps.getLast? = some (str "..") then
      comps ++ [comp]
    else comps.dropLast) []

/-- `os.path.normpath`. -/
def normpath (path : Str) : Str :=
  let body := [slash].intercalate (components (isabs path) (path.splitOn slash))
  let normal := List.replicate (initialSlashes path) slash ++ body
  if normal = [] then str "." else normal

/-- `os.path.abspath`, from a working directory. -/
def abspath (cwd path : Str) : Str := normpath (join cwd path)

/-- `resolve_socket_path`: the path given, else the environment's, else a fresh one, made
absolute. An empty one is none. -/
def resolveSocketPath (given env : Option Str) (fresh cwd : Str) : Str :=
  let path :=
    match given.filter (· ≠ []) with
    | some path => path
    | none => (env.filter (· ≠ [])).getD fresh
  abspath cwd path

theorem isabs_normpath {path : Str} (h : isabs path = true) : isabs (normpath path) = true := by
  obtain ⟨n, hn⟩ : ∃ n, initialSlashes path = n + 1 := by
    unfold initialSlashes
    rw [if_pos h]
    split
    · exact ⟨1, rfl⟩
    · exact ⟨0, rfl⟩
  simp only [normpath, hn, List.replicate_succ, List.cons_append, reduceCtorEq, if_false]
  rfl

theorem isabs_join {dir path : Str} (h : isabs dir = true) : isabs (join dir path) = true := by
  obtain ⟨rest, rfl⟩ := List.isPrefixOf_iff_prefix.mp h
  unfold join
  split
  · next habs => exact habs
  · split
    · rfl
    · rfl

/-- **A child binds an absolute path**, wherever it runs. -/
theorem isabs_resolveSocketPath (given env : Option Str) (fresh : Str) {cwd : Str}
    (h : isabs cwd = true) : isabs (resolveSocketPath given env fresh cwd) = true :=
  isabs_normpath (isabs_join h)

/-! ### Writing the line -/

/-- `handshake_line`. -/
def handshakeLine (address : Str) : Str :=
  handshakePrefix ++ space :: (protocolVersion ++ space :: (address ++ [lf]))

/-- `str.encode(errors="surrogateescape")`: a string's bytes, where a surrogate that
stands for an undecodable byte is that byte again. -/
def encodeEscaped : Str → Option (List UInt8)
  | [] => some []
  | .scalar c :: s => (encodeEscaped s).map (String.utf8EncodeChar c ++ ·)
  | .surrogate n :: s =>
    if 0x480 ≤ n.val ∧ n.val < 0x500 then
      (encodeEscaped s).map (UInt8.ofNat (n.val - 0x400) :: ·)
    else none

/-- What `run_child` writes to stdout once the host serves on `path`, or why it bound
nothing: a path that is not UTF-8 is refused before the host starts. -/
def announce (path : Str) : Except Failure (List UInt8) :=
  let address := addressScheme ++ path
  match encode address with
  | none =>
    match encodeEscaped (handshakeLine address) with
    | some line => .error (malformed (escaped (removeSuffix [byte '\n'] line)))
    | none => .error .unicodeEncode
  | some _ =>
    match encode (handshakeLine address) with
    | some line => .ok line
    | none => .error .unicodeEncode

/-! ### Reading it -/

/-- The first line of what a parent reads: the bytes up to the first line feed, and that
line feed. -/
def firstLine (bytes : List UInt8) : List UInt8 :=
  let cut := partition (byte '\n') bytes
  cut.1 ++ cut.2.1

/-- A line given to the parser: as text, or as the bytes read. -/
inductive Line where
  | text (line : Str)
  | bytes (raw : List UInt8)

/-- A line without its ending, LF or CR LF. -/
def stripped (line : Str) : Str := removeSuffix [cr] (removeSuffix [lf] line)

/-- The text half of `parse_handshake`. -/
def parseText (line : Str) : Except Failure (Option Str) :=
  let body := stripped line
  let first := partition space body
  if first.1 ≠ handshakePrefix then .ok none
  else
    let second := partition space first.2.2
    let address := second.2.2
    if second.1 ≠ protocolVersion ∨ ¬addressScheme <+: address ∨
        ¬isabs (removePrefix addressScheme address) = true ∨ lf ∈ address then
      .error (malformed body)
    else .ok (some address)

/-- `parse_handshake`: the address a line announces, or none when it is not a handshake.
Of bytes, the ending is taken off before they are decoded, and off the text again. -/
def parseHandshake : Line → Except Failure (Option Str)
  | .text line => parseText line
  | .bytes raw =>
    let raw := removeSuffix [byte '\r'] (removeSuffix [byte '\n'] raw)
    if some (partition (byte ' ') raw).1 ≠ encode handshakePrefix then .ok none
    else
      match decode raw with
      | some line => parseText line
      | none => .error (malformed (escaped raw))

/-! ### What the reader takes off a line -/

/-- The header of a handshake: its first word, the format version and the spaces after
them. -/
def header : Str := handshakePrefix ++ space :: (protocolVersion ++ [space])

theorem handshakeLine_eq (address : Str) : handshakeLine address = header ++ address ++ [lf] := by
  simp [handshakeLine, header]

private theorem space_not_mem_prefix : space ∉ handshakePrefix := by decide

private theorem space_not_mem_version : space ∉ protocolVersion := by decide

private theorem not_scheme_nil : ¬addressScheme <+: [] := by decide

/-- **The reader takes an address off a line** exactly when the line without its ending is
the header and that address, and the address is an absolute Unix socket path's. -/
theorem parseText_eq_some_iff {line address : Str} :
    parseText line = .ok (some address) ↔
      stripped line = header ++ address ∧ addressScheme <+: address ∧
        isabs (removePrefix addressScheme address) = true ∧ lf ∉ address := by
  constructor
  · intro h
    unfold parseText at h
    simp only at h
    split at h
    · cases h
    · next hfirst =>
      split at h
      · cases h
      · next hrest =>
        push Not at hfirst hrest
        obtain ⟨hversion, hscheme, habs, hlf⟩ := hrest
        obtain rfl := Option.some.inj (Except.ok.inj h)
        refine ⟨?_, hscheme, habs, hlf⟩
        rcases partition_cases space (stripped line) with ⟨-, hcut⟩ | ⟨pre, rest, -, hline, hcut⟩
        · -- without a space the address is empty, and begins with no scheme
          rw [hcut] at hscheme
          exact absurd hscheme not_scheme_nil
        · rw [hcut] at hfirst hversion hscheme ⊢
          simp only at hfirst hversion hscheme ⊢
          rcases partition_cases space rest with ⟨-, hcut'⟩ | ⟨pre', rest', -, hline', hcut'⟩
          · rw [hcut'] at hscheme
            exact absurd hscheme not_scheme_nil
          · rw [hcut'] at hversion ⊢
            simp only at hversion ⊢
            rw [hline, hline', hfirst, hversion, header]
            simp
  · rintro ⟨hline, hscheme, habs, hlf⟩
    have hcut : partition space (stripped line) =
        (handshakePrefix, [space], protocolVersion ++ space :: address) := by
      rw [hline, ← partition_append space_not_mem_prefix, header]
      simp
    have hcut' : partition space (protocolVersion ++ space :: address) =
        (protocolVersion, [space], address) := partition_append space_not_mem_version address
    unfold parseText
    simp only [hcut, hcut', ne_eq, not_true_eq_false, if_false]
    rw [if_neg]
    push Not
    exact ⟨trivial, hscheme, habs, hlf⟩

/-- Taking an ASCII character off a string's end is taking its byte off the bytes' end. -/
theorem encode_removeSuffix {s : Str} {bytes : List UInt8} {c : Char} (hc : c.toNat < 128)
    (h : encode s = some bytes) :
    encode (removeSuffix [.scalar c] s) = some (removeSuffix [byte c] bytes) := by
  by_cases hs : [CodePoint.scalar c] <:+ s
  · obtain ⟨t, rfl⟩ := hs
    obtain ⟨a, b, ha, hb, rfl⟩ := encode_append_eq_some.mp h
    have hone : encode [CodePoint.scalar c] = some [byte c] := encode_concat hc (t := []) rfl
    obtain rfl := Option.some.inj (hb.symm.trans hone)
    rw [removeSuffix_append, removeSuffix_append, ha]
  · have hbytes : ¬[byte c] <:+ bytes := by
      rintro ⟨bs, rfl⟩
      obtain ⟨t, rfl, -⟩ := exists_of_encode_concat hc h
      exact hs (List.suffix_append t _)
    rw [removeSuffix_of_not hs, removeSuffix_of_not hbytes, h]

/-- **Of bytes the reader takes what it takes of their text**, once a carriage return
before the line feed is off. -/
theorem parseHandshake_bytes {q : Str} {bytes : List UInt8} {address : Str}
    (h : encode q = some bytes) :
    parseHandshake (.bytes (bytes ++ [byte '\n'])) = .ok (some address) ↔
      parseText (removeSuffix [cr] q) = .ok (some address) := by
  have hraw : encode (removeSuffix [cr] q) = some (removeSuffix [byte '\r'] bytes) :=
    encode_removeSuffix (by decide) h
  unfold parseHandshake
  simp only [removeSuffix_append, decode_encode hraw]
  constructor
  · intro hok
    split at hok
    · cases hok
    · exact hok
  · intro hok
    rw [if_neg, hok]
    obtain ⟨hline, -, -, -⟩ := parseText_eq_some_iff.mp hok
    -- the text begins with the prefix and a space, so the bytes do
    obtain ⟨u, hu⟩ : ∃ u, removeSuffix [cr] q = handshakePrefix ++ space :: u := by
      obtain ⟨u, hu⟩ := (removeSuffix_prefix_self [cr] _).trans
        (removeSuffix_prefix_self [lf] (removeSuffix [cr] q))
      refine ⟨protocolVersion ++ space :: address ++ u, ?_⟩
      rw [← hu]
      change stripped (removeSuffix [cr] q) ++ u = _
      rw [hline, header]
      simp
    rw [hu] at hraw
    obtain ⟨a, b, ha, hb, hab⟩ := encode_append_eq_some.mp hraw
    obtain ⟨c, more, hc, -, rfl⟩ := encode_cons_eq_some.mp hb
    obtain rfl := CodePoint.scalar.inj hc
    have hnot : byte ' ' ∉ a := fun hmem =>
      space_not_mem_prefix ((byte_mem_encode_iff ha (by decide)).mp hmem)
    rw [hab, ha, utf8EncodeChar_of_lt (by decide), List.cons_append, List.nil_append,
      partition_append hnot]
    exact fun hne => hne rfl

/-! ### The line and its reading -/

/-- A path the line format can name: it holds no line feed, and does not end in a carriage
return. -/
def Nameable (path : Str) : Prop := lf ∉ path ∧ ¬[cr] <:+ path

instance (path : Str) : Decidable (Nameable path) := inferInstanceAs (Decidable (_ ∧ _))

/-- What is announced is the line of the path's address. -/
theorem announce_eq_ok {path : Str} {written : List UInt8} (h : announce path = .ok written) :
    ∃ bytes, encode (header ++ (addressScheme ++ path)) = some bytes ∧
      written = bytes ++ [byte '\n'] := by
  unfold announce at h
  simp only at h
  split at h
  · split at h
    · cases h
    · cases h
  · split at h
    · next line hline =>
      obtain rfl := Except.ok.inj h
      rw [handshakeLine_eq] at hline
      obtain ⟨a, b, ha, hb, rfl⟩ := encode_append_eq_some.mp hline
      have hone : encode [lf] = some [byte '\n'] := rfl
      obtain rfl := Option.some.inj (hb.symm.trans hone)
      exact ⟨a, ha, rfl⟩
    · cases h

/-- The first line of a line and more is that line. -/
theorem firstLine_append {bytes : List UInt8} (h : byte '\n' ∉ bytes) (rest : List UInt8) :
    firstLine (bytes ++ byte '\n' :: rest) = bytes ++ [byte '\n'] := by
  rw [firstLine, partition_append h]

/-- The string a first line holds: the header and the address up to the path's first line
feed. -/
def lineOf (path : Str) : Str := header ++ (addressScheme ++ (partition lf path).1)

/-- A parent's first line is that string's bytes and the line feed. -/
theorem firstLine_announce {path : Str} {written : List UInt8}
    (h : announce path = .ok written) :
    ∃ bytes, encode (lineOf path) = some bytes ∧ firstLine written = bytes ++ [byte '\n'] := by
  have hheader : ∀ p : Str, lf ∉ p → lf ∉ header ++ (addressScheme ++ p) := by
    intro p hp hmem
    rcases List.mem_append.mp hmem with hmem | hmem
    · exact absurd hmem (by decide)
    · rcases List.mem_append.mp hmem with hmem | hmem
      · exact absurd hmem (by decide)
      · exact hp hmem
  obtain ⟨bytes, hbytes, rfl⟩ := announce_eq_ok h
  rcases partition_cases lf path with ⟨hlf, hcut⟩ | ⟨pre, rest, hlf, rfl, hcut⟩
  · refine ⟨bytes, ?_, ?_⟩
    · rw [lineOf, hcut, hbytes]
    · have hno : byte '\n' ∉ bytes := fun hmem =>
        hheader path hlf ((byte_mem_encode_iff hbytes (by decide)).mp hmem)
      exact firstLine_append hno []
  · rw [← List.append_assoc, ← List.append_assoc] at hbytes
    obtain ⟨a, b, ha, hb, rfl⟩ := encode_append_eq_some.mp hbytes
    rw [List.append_assoc] at ha
    obtain ⟨c, more, hc, -, rfl⟩ := encode_cons_eq_some.mp hb
    obtain rfl := CodePoint.scalar.inj hc
    have hno : byte '\n' ∉ a := fun hmem =>
      hheader pre hlf ((byte_mem_encode_iff ha (by decide)).mp hmem)
    refine ⟨a, ?_, ?_⟩
    · rw [lineOf, hcut, ha]
    · rw [utf8EncodeChar_of_lt (by decide), List.append_assoc, List.append_assoc,
        List.singleton_append]
      exact firstLine_append hno _

/-- A path that is not empty ends as its line does. -/
theorem cr_suffix_header {path : Str} (hne : path ≠ []) :
    [cr] <:+ header ++ (addressScheme ++ path) ↔ [cr] <:+ path := by
  obtain ⟨p, x, rfl⟩ := List.eq_nil_or_concat path |>.resolve_left hne
  rw [List.concat_eq_append, ← List.append_assoc, ← List.append_assoc, singleton_suffix_concat,
    singleton_suffix_concat]

/-- A nameable path's line is read whole. -/
theorem removeSuffix_lineOf {path : Str} (habs : isabs path = true) (h : Nameable path) :
    removeSuffix [cr] (lineOf path) = header ++ (addressScheme ++ path) := by
  have hne : path ≠ [] := by
    rintro rfl
    cases habs
  rw [lineOf, partition_of_not_mem h.1, removeSuffix_of_not]
  rw [cr_suffix_header hne]
  exact h.2

/-- Any other's is read short: it was cut at a line feed, or it lost its last character. -/
theorem length_removeSuffix_lineOf {path : Str} (h : ¬Nameable path) :
    (removeSuffix [cr] (lineOf path)).length < (header ++ (addressScheme ++ path)).length := by
  rcases partition_cases lf path with ⟨hlf, hcut⟩ | ⟨pre, rest, -, rfl, hcut⟩
  · have hcr : [cr] <:+ path := by
      by_contra hcr
      exact h ⟨hlf, hcr⟩
    rw [lineOf, hcut]
    exact length_removeSuffix_lt (List.cons_ne_nil _ _)
      ((hcr.trans (List.suffix_append addressScheme path)).trans (List.suffix_append header _))
  · have hlen := (removeSuffix_prefix_self [cr] (header ++ (addressScheme ++ pre))).length_le
    rw [lineOf, hcut]
    simp only [List.length_append, List.length_cons] at hlen ⊢
    omega

/-- A nameable path's line has no ending left in it. -/
theorem stripped_of_nameable {path : Str} (habs : isabs path = true) (h : Nameable path) :
    stripped (header ++ (addressScheme ++ path)) = header ++ (addressScheme ++ path) := by
  have hne : path ≠ [] := by
    rintro rfl
    cases habs
  have hlf : ¬[lf] <:+ header ++ (addressScheme ++ path) := by
    obtain ⟨p, x, rfl⟩ := List.eq_nil_or_concat path |>.resolve_left hne
    rw [List.concat_eq_append, ← List.append_assoc, ← List.append_assoc, singleton_suffix_concat]
    rintro rfl
    exact h.1 (by simp)
  rw [stripped, removeSuffix_of_not hlf, removeSuffix_of_not]
  rw [cr_suffix_header hne]
  exact h.2

/-- An announced path's address is one the reader accepts. -/
theorem accepts_address {path : Str} (habs : isabs path = true) (h : Nameable path) :
    addressScheme <+: addressScheme ++ path ∧
      isabs (removePrefix addressScheme (addressScheme ++ path)) = true ∧
      lf ∉ addressScheme ++ path := by
  refine ⟨List.prefix_append _ _, ?_, ?_⟩
  · rw [removePrefix_append, habs]
  · intro hmem
    rcases List.mem_append.mp hmem with hmem | hmem
    · exact absurd hmem (by decide)
    · exact h.1 hmem

/-- **When the handshake names the socket that was bound.** What a child announces of an
absolute path reads back, as the bytes of its first line and as their text, as that path's
address exactly when the path holds no line feed and does not end in a carriage return. -/
theorem handshake_names_bound_iff {path : Str} (habs : isabs path = true)
    {written : List UInt8} (h : announce path = .ok written) :
    (parseHandshake (.bytes (firstLine written)) = .ok (some (addressScheme ++ path)) ↔
      Nameable path) ∧
    ((∃ text, decode (firstLine written) = some text ∧
      parseHandshake (.text text) = .ok (some (addressScheme ++ path))) ↔ Nameable path) := by
  obtain ⟨bytes, hbytes, hfirst⟩ := firstLine_announce h
  have htext : encode (lineOf path ++ [lf]) = some (bytes ++ [byte '\n']) :=
    encode_concat (by decide) hbytes
  rw [hfirst, parseHandshake_bytes hbytes, decode_encode htext]
  constructor
  · rw [parseText_eq_some_iff]
    constructor
    · rintro ⟨hline, -⟩
      by_contra hnot
      have hlt := length_removeSuffix_lineOf hnot
      have hle := ((removeSuffix_prefix_self [cr] _).trans
        (removeSuffix_prefix_self [lf] (removeSuffix [cr] (lineOf path)))).length_le
      rw [← stripped, hline] at hle
      omega
    · intro hname
      rw [removeSuffix_lineOf habs hname]
      exact ⟨stripped_of_nameable habs hname, accepts_address habs hname⟩
  · constructor
    · rintro ⟨text, heq, hparse⟩
      obtain rfl := Option.some.inj heq
      obtain ⟨hline, -⟩ := parseText_eq_some_iff.mp hparse
      rw [stripped, removeSuffix_append] at hline
      by_contra hnot
      have hlt := length_removeSuffix_lineOf hnot
      rw [hline] at hlt
      exact Nat.lt_irrefl _ hlt
    · intro hname
      refine ⟨_, rfl, parseText_eq_some_iff.mpr ⟨?_, accepts_address habs hname⟩⟩
      rw [stripped, removeSuffix_append, removeSuffix_lineOf habs hname]

/-- The socket of the player's app is announced by name. -/
theorem handshake_names_bound_iff_player :
    (parseHandshake (.bytes (firstLine ((encode (handshakeLine (addressScheme ++
        str "/run/app/player.sock"))).getD []))) =
          .ok (some (addressScheme ++ str "/run/app/player.sock")) ↔
      Nameable (str "/run/app/player.sock")) ∧
    ((∃ text, decode (firstLine ((encode (handshakeLine (addressScheme ++
        str "/run/app/player.sock"))).getD [])) = some text ∧
      parseHandshake (.text text) = .ok (some (addressScheme ++ str "/run/app/player.sock"))) ↔
      Nameable (str "/run/app/player.sock")) :=
  handshake_names_bound_iff (by decide) rfl

/-- A socket given as `/tmp/a`, a line feed and `b` is bound and announced, and its first
line names `/tmp/a`, read as bytes and as text. -/
theorem handshake_names_another :
    resolveSocketPath (some (str "/tmp/a\nb")) none (str "/tmp/fresh.sock") (str "/app") =
      str "/tmp/a\nb" ∧
    ∃ written, announce (str "/tmp/a\nb") = .ok written ∧
      parseHandshake (.bytes (firstLine written)) = .ok (some (addressScheme ++ str "/tmp/a")) ∧
      parseHandshake (.text (str "angzarr-handshake v1 unix:/tmp/a\n")) =
        .ok (some (addressScheme ++ str "/tmp/a")) ∧
      encode (str "angzarr-handshake v1 unix:/tmp/a\n") = some (firstLine written) ∧
      addressScheme ++ str "/tmp/a" ≠ addressScheme ++ str "/tmp/a\nb" := by
  refine ⟨by decide, _, rfl, ?_, by decide, by decide, by decide⟩
  decide

end Child

end AngzarrClient
