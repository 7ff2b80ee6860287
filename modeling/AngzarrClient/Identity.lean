import AngzarrClient.Builder
import AngzarrClient.Lib.Sha1
import AngzarrClient.Lib.Text
import AngzarrClient.Lib.Utf8

/-!
# Deterministic roots

The root of an aggregate is a digest of its domain and its business key
(`AngzarrClient.computeRoot`), so every service derives the same one. What can make two
aggregates one is the name that is digested, the digest, and the six bits of it that a UUID
overwrites with its version and variant.

The name is not at fault: a domain never holds a colon, so the first colon of a name cuts it
where it was put together, whatever the key holds (`AngzarrClient.rootName_injective`). So
two roots are one exactly for one domain and key, or where the digests of two names agree
in all bits but those six (`AngzarrClient.same_root_iff`).
-/

namespace AngzarrClient

open Utf8

/-! ### UUIDs of a name -/

/-- A hash with the bytes changed that hold a UUID's version and its variant. -/
def atVersion (version variant : UInt8 → UInt8) (hash : Bytes) : Bytes :=
  (hash.modify 6 version).modify 8 variant

/-- `UUID(bytes=hash, version=5)`: the version and the variant over six bits of the hash. -/
def versionFive (hash : Bytes) : Bytes :=
  atVersion (fun b => b &&& 0x0f ||| 0x50) (fun b => b &&& 0x3f ||| 0x80) hash

/-- The bits of a hash that it keeps. -/
def keptBits (hash : Bytes) : Bytes := atVersion (· &&& 0x0f) (· &&& 0x3f) hash

/-- The bytes that are digested for a name in a namespace, where the name has an encoding. -/
def hashedBytes (space : PyUUID) (name : Str) : Option Bytes := (encode name).map (space.bytes ++ ·)

/-- `uuid.uuid5`; nothing where it raises `UnicodeEncodeError`. -/
def uuid5 (space : PyUUID) (name : Str) : Option PyUUID :=
  (hashedBytes space name).map fun bytes =>
    ⟨versionFive ((Sha1.digest bytes).take 16), by simp [versionFive, atVersion]⟩

/-! ### Roots -/

/-- What `compute_root` raises. -/
inductive RootError where
  /-- `InvalidArgumentError`. -/
  | invalidArgument (code : String) (details : List (String × Str))
  | unicodeEncode
  deriving DecidableEq

/-- `ANGZARR_ROOT_NAMESPACE`. -/
def angzarrRootNamespace : PyUUID where
  bytes := [0xd4, 0x74, 0x1b, 0x1a, 0x52, 0xcd, 0x43, 0xcf, 0xad, 0xd1, 0x3d, 0xbb, 0x96, 0x15,
    0x51, 0x0b]
  length_eq := rfl

/-- The colon. -/
def colon : CodePoint := .scalar ':'

/-- The name of a root. -/
def rootName (domain businessKey : Str) : Str := domain ++ colon :: businessKey

/-- `compute_root`. -/
def computeRoot (domain businessKey : Str) : Except RootError PyUUID :=
  if colon ∈ domain then
    .error (.invalidArgument "DOMAIN_CONTAINS_COLON" [("domain", domain)])
  else
    match uuid5 angzarrRootNamespace (rootName domain businessKey) with
    | none => .error .unicodeEncode
    | some root => .ok root

/-- `to_proto_bytes`. -/
def toProtoBytes (id : PyUUID) : Bytes := id.bytes

example : (computeRoot (str "player") (str "alice@example.com")).map toProtoBytes =
    .ok [0xcf, 0xe9, 0x36, 0xc0, 0x29, 0x12, 0x5c, 0xa9, 0x96, 0xe6, 0xf3, 0x7c, 0x0b, 0x44, 0x17,
      0x59] := by
  decide +kernel

/-! ### What a root tells apart -/

/-- A name is cut at its first colon. -/
theorem rootName_injective {domain domain' key key' : Str} (h : colon ∉ domain)
    (h' : colon ∉ domain') (hname : rootName domain key = rootName domain' key') :
    domain = domain' ∧ key = key' := by
  have hcut : Text.partition colon (rootName domain key) =
      Text.partition colon (rootName domain' key') := congrArg _ hname
  rw [rootName, rootName, Text.partition_append h, Text.partition_append h'] at hcut
  obtain ⟨hdomain, hrest⟩ := Prod.mk.inj hcut
  exact ⟨hdomain, (Prod.mk.inj hrest).2⟩

/-- What is digested tells names apart. -/
theorem hashedBytes_injective {space : PyUUID} {name name' : Str} {bytes : Bytes}
    (h : hashedBytes space name = some bytes) (h' : hashedBytes space name' = some bytes) :
    name = name' := by
  obtain ⟨encoded, hencoded, rfl⟩ := Option.map_eq_some_iff.mp h
  obtain ⟨encoded', hencoded', heq⟩ := Option.map_eq_some_iff.mp h'
  obtain rfl := List.append_cancel_left heq
  exact encode_injective hencoded hencoded'

theorem atVersion_atVersion (f g f' g' : UInt8 → UInt8) (hash : Bytes) :
    atVersion f' g' (atVersion f g hash) = atVersion (f' ∘ f) (g' ∘ g) hash := by
  unfold atVersion
  rw [List.modify_modify_ne _ _ _ (by decide : 8 ≠ 6), List.modify_modify_eq,
    List.modify_modify_eq]

/-- Bits that were written over a masked byte are masked away again. -/
theorem mask_written {written mask : UInt8} (h : written &&& mask = 0) :
    ((· &&& mask) ∘ fun b => b &&& mask ||| written) = (· &&& mask) := by
  have hbits : written.toBitVec &&& mask.toBitVec = 0 := congrArg UInt8.toBitVec h
  ext b
  refine congrArg UInt8.toNat (UInt8.toBitVec_inj.mp ?_)
  show (b.toBitVec &&& mask.toBitVec ||| written.toBitVec) &&& mask.toBitVec =
    b.toBitVec &&& mask.toBitVec
  rw [BitVec.and_or_distrib_right, BitVec.and_assoc, BitVec.and_self, hbits]
  exact BitVec.or_zero

/-- A version keeps the bits it keeps. -/
theorem keptBits_versionFive (hash : Bytes) : keptBits (versionFive hash) = keptBits hash := by
  rw [keptBits, versionFive, atVersion_atVersion, mask_written (by decide),
    mask_written (by decide), keptBits]

/-- A version is one of those bits. -/
theorem versionFive_keptBits (hash : Bytes) : versionFive (keptBits hash) = versionFive hash := by
  have hmask (written mask : UInt8) :
      ((fun b => b &&& mask ||| written) ∘ (· &&& mask)) = fun b => b &&& mask ||| written := by
    ext b
    simp [UInt8.and_assoc]
  rw [keptBits, versionFive, atVersion_atVersion, hmask, hmask, versionFive]

/-- **A version keeps the other bits of a hash, and nothing else of it.** -/
theorem versionFive_eq_iff {hash hash' : Bytes} :
    versionFive hash = versionFive hash' ↔ keptBits hash = keptBits hash' := by
  constructor
  · intro h
    rw [← keptBits_versionFive hash, h, keptBits_versionFive]
  · intro h
    rw [← versionFive_keptBits hash, h, versionFive_keptBits]

/-- A root is a version of what is digested for its name. -/
theorem computeRoot_eq_ok {domain key : Str} {root : PyUUID}
    (h : computeRoot domain key = .ok root) :
    colon ∉ domain ∧ ∃ bytes,
      hashedBytes angzarrRootNamespace (rootName domain key) = some bytes ∧
        root.bytes = versionFive ((Sha1.digest bytes).take 16) := by
  unfold computeRoot at h
  split at h
  · cases h
  next hcolon =>
  split at h
  · cases h
  next root' huuid =>
  obtain rfl := Except.ok.inj h
  obtain ⟨bytes, hbytes, rfl⟩ := Option.map_eq_some_iff.mp huuid
  exact ⟨hcolon, bytes, hbytes, rfl⟩

/-- **A collision**: two messages that differ, with digests that agree in the bits of their
first sixteen bytes that a version keeps. -/
def Collide (message message' : Bytes) : Prop :=
  message ≠ message' ∧
    keptBits ((Sha1.digest message).take 16) = keptBits ((Sha1.digest message').take 16)

/-- **Two roots are one exactly for one aggregate, or by a collision** of what is digested for
their names: no domain and key can be put together to the name of another. -/
theorem same_root_iff {domain key domain' key' : Str} {root root' : PyUUID}
    (h : computeRoot domain key = .ok root) (h' : computeRoot domain' key' = .ok root') :
    root = root' ↔ (domain = domain' ∧ key = key') ∨ ∃ message message',
      hashedBytes angzarrRootNamespace (rootName domain key) = some message ∧
        hashedBytes angzarrRootNamespace (rootName domain' key') = some message' ∧
          Collide message message' := by
  obtain ⟨hcolon, message, hmessage, hroot⟩ := computeRoot_eq_ok h
  obtain ⟨hcolon', message', hmessage', hroot'⟩ := computeRoot_eq_ok h'
  have hkept : root = root' ↔ keptBits ((Sha1.digest message).take 16) =
      keptBits ((Sha1.digest message').take 16) := by
    rw [← versionFive_eq_iff, ← hroot, ← hroot']
    refine ⟨congrArg PyUUID.bytes, fun heq => ?_⟩
    obtain ⟨bytes, hlength⟩ := root
    obtain rfl : bytes = root'.bytes := heq
    rfl
  rw [hkept]
  constructor
  · intro heq
    by_cases hsame : message = message'
    · subst hsame
      exact Or.inl (rootName_injective hcolon hcolon' (hashedBytes_injective hmessage hmessage'))
    · exact Or.inr ⟨message, message', hmessage, hmessage', hsame, heq⟩
  · rintro (⟨rfl, rfl⟩ | ⟨m, m', hm, hm', -, heq⟩)
    · obtain rfl := Option.some.inj (hmessage.symm.trans hmessage')
      rfl
    · obtain rfl := Option.some.inj (hmessage.symm.trans hm)
      obtain rfl := Option.some.inj (hmessage'.symm.trans hm')
      exact heq

/-- The root of `c` in the domain `ab`. -/
def rootOfAb : PyUUID where
  bytes := [0xc2, 0x08, 0xd2, 0x21, 0x29, 0xc2, 0x58, 0xf8, 0x93, 0xfa, 0xe7, 0x2d,
    0x9f, 0x81, 0x83, 0x74]
  length_eq := rfl

/-- The root of `bc` in the domain `a`. -/
def rootOfA : PyUUID where
  bytes := [0x45, 0x6e, 0x2a, 0x8f, 0xe6, 0x75, 0x5d, 0x30, 0x88, 0x65, 0x5e, 0xf7,
    0xc1, 0x75, 0x14, 0x9c]
  length_eq := rfl

/-- A boundary shifted by a character. -/
theorem same_root_iff_shifted :
    rootOfAb = rootOfA ↔ (str "ab" = str "a" ∧ str "c" = str "bc") ∨ ∃ message message',
      hashedBytes angzarrRootNamespace (rootName (str "ab") (str "c")) = some message ∧
        hashedBytes angzarrRootNamespace (rootName (str "a") (str "bc")) = some message' ∧
          Collide message message' :=
  same_root_iff (show computeRoot (str "ab") (str "c") = .ok rootOfAb by decide +kernel)
    (show computeRoot (str "a") (str "bc") = .ok rootOfA by decide +kernel)

end AngzarrClient
