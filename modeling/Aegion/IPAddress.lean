/-
Addresses of the Internet Protocol and the ranges of addresses that share their leading
bits.
-/
import Mathlib.Data.BitVec

namespace Aegion.IP

inductive Address where
  | v4 (bits : BitVec 32)
  | v6 (bits : BitVec 128)
deriving DecidableEq, Repr

/-- The leading bits agree. -/
def sameLeading {w : Nat} (length : Nat) (a b : BitVec w) : Bool :=
  (a ^^^ b) >>> (w - length) = 0

/-- The addresses that agree with one in their leading bits. -/
structure Cidr where
  address : Address
  length : Nat
deriving DecidableEq, Repr

/-- An address of the other family is in no range. -/
def Cidr.contains (cidr : Cidr) (address : Address) : Bool :=
  match cidr.address, address with
  | .v4 a, .v4 b => sameLeading cidr.length a b
  | .v6 a, .v6 b => sameLeading cidr.length a b
  | _, _ => false

/-- The bits after the leading ones set to zero. -/
def clearTrailing {w : Nat} (length : Nat) (a : BitVec w) : BitVec w :=
  (a >>> (w - length)) <<< (w - length)

def Cidr.masked (cidr : Cidr) : Cidr where
  address := match cidr.address with
    | .v4 bits => .v4 (clearTrailing cidr.length bits)
    | .v6 bits => .v6 (clearTrailing cidr.length bits)
  length := cidr.length

theorem sameLeading_clearTrailing {w : Nat} (length : Nat) (a b : BitVec w) :
    sameLeading length (clearTrailing length a) b = sameLeading length a b := by
  have hshift : ∀ k : Nat, (a >>> k <<< k) >>> k = a >>> k := by
    intro k
    ext i hi
    simp only [BitVec.getElem_ushiftRight, BitVec.getLsbD_shiftLeft, BitVec.getLsbD_ushiftRight]
    by_cases hbound : k + i < w
    · simp [hbound]
    · simp [hbound, BitVec.getLsbD_of_ge a (k + i) (by omega)]
  simp only [sameLeading, clearTrailing, BitVec.ushiftRight_xor_distrib, hshift]

@[simp]
theorem Cidr.contains_masked (cidr : Cidr) (address : Address) :
    cidr.masked.contains address = cidr.contains address := by
  obtain ⟨first, length⟩ := cidr
  cases first <;> cases address <;> first
    | rfl
    | exact sameLeading_clearTrailing length _ _

end Aegion.IP
