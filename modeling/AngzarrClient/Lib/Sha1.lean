import Mathlib.Data.List.Basic
import Mathlib.Data.Nat.Notation

/-!
# SHA-1

The digest of a sequence of bytes (`Sha1.digest`): the message is padded to blocks of 64
bytes, each block is expanded to 80 words, and 80 rounds on five words of state are added to
them, block after block.

A digest is twenty bytes, whatever the message (`Sha1.length_digest`). That two messages have
digests that differ is no theorem; who relies on it says so.
-/

namespace Sha1

/-! ### Words -/

/-- The bytes of a number, the most significant first. -/
def bigEndian (width n : ℕ) : List UInt8 :=
  (List.range width).reverse.map fun i => UInt8.ofNat (n >>> (8 * i))

@[simp] theorem length_bigEndian (width n : ℕ) : (bigEndian width n).length = width := by
  simp [bigEndian]

/-- The word of some bytes. -/
def word (bytes : List UInt8) : BitVec 32 :=
  .ofNat 32 (bytes.foldl (fun n b => n * 256 + b.toNat) 0)

/-! ### Blocks -/

/-- The zeros between a message's end and its length. -/
def zeros (length : ℕ) : ℕ := (119 - length % 64) % 64

/-- A message padded: a one bit, zeros, and its length in bits. -/
def pad (message : List UInt8) : List UInt8 :=
  message ++ 0x80 :: List.replicate (zeros message.length) 0 ++ bigEndian 8 (8 * message.length)

/-- The first pieces of a sequence, of one length. -/
def pieces {α : Type} (length : ℕ) : ℕ → List α → List (List α)
  | 0, _ => []
  | count + 1, l => l.take length :: pieces length count (l.drop length)

/-- The blocks of a message, each as sixteen words. -/
def blocks (message : List UInt8) : List (List (BitVec 32)) :=
  let padded := pad message
  (pieces 64 (padded.length / 64) padded).map fun block => (pieces 4 16 block).map word

/-! ### Rounds -/

/-- The state of a digest. -/
structure State where
  a : BitVec 32
  b : BitVec 32
  c : BitVec 32
  d : BitVec 32
  e : BitVec 32

/-- The state before the first block. -/
def initial : State := ⟨0x67452301, 0xefcdab89, 0x98badcfe, 0x10325476, 0xc3d2e1f0⟩

/-- One word more of a schedule, kept with the last word first. -/
def extend (ws : List (BitVec 32)) : List (BitVec 32) :=
  (ws.getD 2 0 ^^^ ws.getD 7 0 ^^^ ws.getD 13 0 ^^^ ws.getD 15 0).rotateLeft 1 :: ws

/-- A block's schedule of 80 words. -/
def schedule (block : List (BitVec 32)) : List (BitVec 32) :=
  (Nat.repeat extend 64 block.reverse).reverse

/-- The function and the constant of a round. -/
def mix (t : ℕ) (s : State) : BitVec 32 :=
  if t < 20 then ((s.b &&& s.c) ||| (~~~s.b &&& s.d)) + 0x5a827999
  else if t < 40 then (s.b ^^^ s.c ^^^ s.d) + 0x6ed9eba1
  else if t < 60 then ((s.b &&& s.c) ||| (s.b &&& s.d) ||| (s.c &&& s.d)) + 0x8f1bbcdc
  else (s.b ^^^ s.c ^^^ s.d) + 0xca62c1d6

/-- A round. -/
def round (s : State) (w : BitVec 32 × ℕ) : State where
  a := s.a.rotateLeft 5 + mix w.2 s + s.e + w.1
  b := s.a
  c := s.b.rotateLeft 30
  d := s.c
  e := s.d

/-- The state after a block. -/
def compress (s : State) (block : List (BitVec 32)) : State :=
  let s' := (schedule block).zipIdx.foldl round s
  ⟨s.a + s'.a, s.b + s'.b, s.c + s'.c, s.d + s'.d, s.e + s'.e⟩

/-- The bytes of a state. -/
def State.bytes (s : State) : List UInt8 :=
  [s.a, s.b, s.c, s.d, s.e].flatMap fun w => bigEndian 4 w.toNat

/-- **The digest of a message.** -/
def digest (message : List UInt8) : List UInt8 := ((blocks message).foldl compress initial).bytes

/-- **A digest is twenty bytes.** -/
@[simp] theorem length_digest (message : List UInt8) : (digest message).length = 20 := by
  simp [digest, State.bytes]

-- The digest of `abc`.
example : digest [0x61, 0x62, 0x63] =
    [0xa9, 0x99, 0x3e, 0x36, 0x47, 0x06, 0x81, 0x6a, 0xba, 0x3e, 0x25, 0x71, 0x78, 0x50, 0xc2,
      0x6c, 0x9c, 0xd0, 0xd8, 0x9d] := by
  decide +kernel

end Sha1
