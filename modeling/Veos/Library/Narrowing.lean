import Mathlib.Algebra.Group.Nat.Defs
import Mathlib.Data.List.Pairwise

/-!
# Unsigned numbers in signed words

A signed word of `2 * half` values reads a number modulo `2 * half`, and the upper half of
the residues as negative.  Numbers below `half` keep their value and within either half
the order is kept, so a sorted list stays sorted exactly when it does not pass from the
lower half to the upper one.
-/

namespace Narrowing

/-- What a signed word of `2 * half` values makes of a number. -/
def signed (half n : Nat) : Int :=
  if n % (2 * half) < half then ((n % (2 * half) : Nat) : Int)
  else ((n % (2 * half) : Nat) : Int) - 2 * half

theorem signed_of_lt {half n : Nat} (hlow : n < half) : signed half n = n := by
  have hresidue : n % (2 * half) = n := Nat.mod_eq_of_lt (by omega)
  rw [signed, hresidue, if_pos hlow]

theorem signed_of_ge {half n : Nat} (hhigh : half ≤ n) (hbound : n < 2 * half) :
    signed half n = (n : Int) - 2 * half := by
  rw [signed, Nat.mod_eq_of_lt hbound, if_neg (Nat.not_lt.2 hhigh)]

/-- A number that a word holds is read as it is or reduced by the modulus. -/
theorem signed_eq_ite {half n : Nat} (hbound : n < 2 * half) :
    signed half n = if n < half then (n : Int) else n - 2 * half := by
  split
  · rename_i hlow
    exact signed_of_lt hlow
  · rename_i hhigh
    exact signed_of_ge (Nat.not_lt.1 hhigh) hbound

/-- Sorted numbers are read as sorted exactly when they are in the same half. -/
theorem pairwise_signed_iff {half : Nat} {ns : List Nat} (hbound : ∀ n ∈ ns, n < 2 * half)
    (hsorted : ns.Pairwise (· ≤ ·)) :
    ns.Pairwise (fun n m => signed half n ≤ signed half m) ↔
      (∀ n ∈ ns, n < half) ∨ ∀ n ∈ ns, half ≤ n := by
  constructor
  · intro hread
    cases ns with
    | nil => simp
    | cons n ns =>
        obtain ⟨hfirst, -⟩ := List.pairwise_cons.1 hread
        obtain ⟨hle, -⟩ := List.pairwise_cons.1 hsorted
        rw [List.forall_mem_cons] at hbound
        -- all numbers are in the half of the first one
        by_cases hlow : n < half
        · left
          rw [List.forall_mem_cons]
          refine ⟨hlow, fun m hm => ?_⟩
          by_contra hhigh
          have horder := hfirst m hm
          rw [signed_of_lt hlow, signed_of_ge (Nat.not_lt.1 hhigh) (hbound.2 m hm)] at horder
          have hm2 := hbound.2 m hm
          omega
        · right
          rw [List.forall_mem_cons]
          exact ⟨Nat.not_lt.1 hlow, fun m hm => Nat.le_trans (Nat.not_lt.1 hlow) (hle m hm)⟩
  · rintro (hlow | hhigh)
    · refine hsorted.imp_of_mem fun {n m} hn hm hle => ?_
      rw [signed_of_lt (hlow n hn), signed_of_lt (hlow m hm)]
      exact Int.ofNat_le.2 hle
    · refine hsorted.imp_of_mem fun {n m} hn hm hle => ?_
      rw [signed_of_ge (hhigh n hn) (hbound n hn), signed_of_ge (hhigh m hm) (hbound m hm)]
      omega

/-! ## `Int32` -/

/-- The cast of a number of any size. -/
theorem toInt_ofNat (n : Nat) : (Int32.ofNat n).toInt = signed (2 ^ 31) n := by
  rw [Int32.toInt_ofNat', Int.bmod_def, signed]
  simp only [Int32.size]
  split <;> split <;> omega

/-- The cast of an unsigned word of the same width. -/
theorem toInt_toInt32 (n : UInt32) : n.toInt32.toInt = signed (2 ^ 31) n.toNat := by
  have hcast : n.toInt32 = Int32.ofNat n.toNat := by
    rw [← UInt32.toInt32_ofNat', UInt32.ofNat_toNat]
  rw [hcast, toInt_ofNat]

end Narrowing
