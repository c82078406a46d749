import DerivCalc.Proofs.Double.Arithmetic

/-!
# The exact value of a double

A finite double is a rational number, `± m * 2 ^ q` by its unpacked form.  The two
zeros have the value zero, and so do, by convention, the infinities and NaN.
-/

namespace DerivCalc.Double

open Float.Model (UnpackedFloat)
open Float.Model.UnpackedFloat

/-- The number that a sign stands for. -/
def signFactor : Sign → ℚ
  | .positive => 1
  | .negative => -1

/-- The exact value of a finite double. -/
def value (v : Float) : ℚ :=
  match v.toModel.unpack with
  | .finite s m q _ => signFactor s * (m * 2 ^ q)
  | _ => 0

theorem value_of_unpack {v : Float} {s : Sign} {m : Nat} {q : Int} {hPos : 0 < m}
    (h : v.toModel.unpack = .finite s m q hPos) : value v = signFactor s * (m * 2 ^ q) := by
  unfold value
  rw [h]

theorem value_of_beq_zero {v : Float} (h : (v == 0) = true) : value v = 0 := by
  obtain ⟨s, hS⟩ := beq_zero_iff.1 h
  unfold value
  rw [hS]

@[simp] theorem value_zero : value 0 = 0 := value_of_beq_zero (by decide)

@[simp] theorem value_one : value 1 = 1 := by
  rw [value_of_unpack unpack_one]
  norm_num [signFactor]

@[simp] theorem value_two : value 2 = 2 := by
  have hUnpack : (2 : Float).toModel.unpack = .finite .positive (2 ^ 52) (-51) (by decide) := rfl
  rw [value_of_unpack hUnpack]
  norm_num [signFactor]

end DerivCalc.Double
