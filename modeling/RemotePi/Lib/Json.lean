import Mathlib.Algebra.Module.NatInt
import Mathlib.Data.Rat.Defs

/-!
# JSON values

A JSON value after parsing, with the members of an object in the order of the
text. A number is the rational value of the double that the parser gives; the
double nearest to an integer literal is computed in the last section.

Results:
* `nearestDouble_eq_self`: an integer is a double when its bits beyond the 53
  leading ones are zero.
* `nearestDouble_of_le`: so is every integer of magnitude at most `2 ^ 53`.
-/

namespace RemotePi.Lib

inductive Json where
  | null
  | bool (value : Bool)
  | number (value : ℚ)
  | string (value : String)
  | array (items : List Json)
  | object (members : List (String × Json))

namespace Json

/-- The member of an object; none where the language gives `undefined`. -/
def member? (key : String) : Json → Option Json
  | .object members => members.lookup key
  | _ => none

@[simp] theorem member?_object (key : String) (members : List (String × Json)) :
    (object members).member? key = members.lookup key := rfl

/-- The keys of an object. -/
def keys : Json → List String
  | .object members => members.map Prod.fst
  | _ => []

def isString : Json → Bool
  | .string _ => true
  | _ => false

def isNumber : Json → Bool
  | .number _ => true
  | _ => false

def isBool : Json → Bool
  | .bool _ => true
  | _ => false

end Json

/-! ## Doubles -/

/-- How many low bits of a magnitude a double cannot keep. -/
def droppedBits (n : ℕ) : ℕ := n.log2 + 1 - 53

/-- The magnitude rounded to its 53 leading bits, ties to even. -/
def roundMagnitude (n : ℕ) : ℕ :=
  let unit := 2 ^ droppedBits n
  let quotient := n / unit
  let remainder := n % unit
  if unit < 2 * remainder ∨ (unit = 2 * remainder ∧ quotient % 2 = 1) then (quotient + 1) * unit
  else quotient * unit

/-- The double nearest to an integer literal. -/
def nearestDouble (z : ℤ) : ℤ := z.sign * roundMagnitude z.natAbs

/-- The integer is a double. -/
def IsDouble (z : ℤ) : Prop := 2 ^ droppedBits z.natAbs ∣ z.natAbs

instance (z : ℤ) : Decidable (IsDouble z) :=
  inferInstanceAs (Decidable (2 ^ droppedBits z.natAbs ∣ z.natAbs))

theorem roundMagnitude_eq_self {n : ℕ} : roundMagnitude n = n ↔ 2 ^ droppedBits n ∣ n := by
  have hpos : 0 < 2 ^ droppedBits n := Nat.two_pow_pos _
  have hdiv := Nat.div_add_mod n (2 ^ droppedBits n)
  simp only [roundMagnitude]
  constructor
  · intro h
    split_ifs at h
    · exact ⟨_, by rw [Nat.mul_comm]; exact h.symm⟩
    · exact ⟨_, by rw [Nat.mul_comm]; exact h.symm⟩
  · intro h
    have hmod := Nat.mod_eq_zero_of_dvd h
    rw [hmod, if_neg (by omega), Nat.mul_comm]
    omega

theorem nearestDouble_eq_self {z : ℤ} : nearestDouble z = z ↔ IsDouble z := by
  rw [IsDouble, ← roundMagnitude_eq_self, nearestDouble]
  constructor
  · intro h
    by_cases hz : z = 0
    · subst hz
      decide
    · have habs := congrArg Int.natAbs h
      rwa [Int.natAbs_mul, Int.natAbs_sign_of_ne_zero hz, Int.natAbs_natCast, Nat.one_mul] at habs
  · intro h
    rw [h, Int.sign_mul_natAbs]

theorem nearestDouble_of_le {z : ℤ} (h : z.natAbs ≤ 2 ^ 53) : nearestDouble z = z := by
  rw [nearestDouble_eq_self, IsDouble]
  rcases Nat.lt_or_eq_of_le h with h | h
  · have hlog : z.natAbs.log2 < 53 := by
      by_cases hz : z.natAbs = 0
      · rw [hz]
        decide
      · exact (Nat.log2_lt hz).mpr h
    have hd : droppedBits z.natAbs = 0 := by
      unfold droppedBits
      omega
    rw [hd]
    exact Nat.one_dvd _
  · rw [h]
    decide

end RemotePi.Lib
