import Mathlib.Data.List.Nodup
import Mathlib.Data.Nat.Notation

/-!
# Bytes as hexadecimal digits

Two lowercase digits a byte, the high half first (`Hex.encode`). The digits of a byte
give it back, so bytes of any length are told apart by their text
(`Hex.encode_injective`), and the text holds digits only (`Hex.mem_encode`): whatever
separates it from its neighbours cannot be read as a part of it.
-/

namespace Hex

/-- The digits. -/
def digits : List Char :=
  ['0', '1', '2', '3', '4', '5', '6', '7', '8', '9', 'a', 'b', 'c', 'd', 'e', 'f']

/-- The digit of a number below 16. -/
def digit (n : Fin 16) : Char := digits.get n

/-- A byte's high half. -/
def high (b : UInt8) : Fin 16 := ⟨b.toNat / 16, by have := b.toNat_lt; omega⟩

/-- A byte's low half. -/
def low (b : UInt8) : Fin 16 := ⟨b.toNat % 16, Nat.mod_lt _ (by omega)⟩

/-- The digits of bytes, two each. -/
def encode : List UInt8 → List Char
  | [] => []
  | b :: bytes => digit (high b) :: digit (low b) :: encode bytes

theorem digit_injective : Function.Injective digit :=
  List.nodup_iff_injective_get.mp (by decide : digits.Nodup)

theorem digit_mem (n : Fin 16) : digit n ∈ digits := List.get_mem _ _

/-- A byte is its two halves. -/
theorem eq_of_halves {b b' : UInt8} (hhigh : high b = high b') (hlow : low b = low b') :
    b = b' := by
  have hdiv : b.toNat / 16 = b'.toNat / 16 := congrArg Fin.val hhigh
  have hmod : b.toNat % 16 = b'.toNat % 16 := congrArg Fin.val hlow
  have hnat : b.toNat = b'.toNat := by omega
  exact UInt8.toNat_inj.mp hnat

/-- **The digits give the bytes back.** -/
theorem encode_injective : Function.Injective encode := by
  intro bytes
  induction bytes with
  | nil =>
    intro bytes' h
    cases bytes' with
    | nil => rfl
    | cons b' bytes' => exact absurd h (by simp [encode])
  | cons b bytes ih =>
    intro bytes' h
    cases bytes' with
    | nil => exact absurd h (by simp [encode])
    | cons b' bytes' =>
      simp only [encode, List.cons.injEq] at h
      obtain ⟨hhigh, hlow, hrest⟩ := h
      rw [eq_of_halves (digit_injective hhigh) (digit_injective hlow), ih hrest]

/-- The text of bytes holds digits only. -/
theorem mem_encode {c : Char} {bytes : List UInt8} (h : c ∈ encode bytes) : c ∈ digits := by
  induction bytes with
  | nil => cases h
  | cons b bytes ih =>
    rcases List.mem_cons.mp h with rfl | h
    · exact digit_mem _
    · rcases List.mem_cons.mp h with rfl | h
      · exact digit_mem _
      · exact ih h

end Hex
