import Mathlib.Algebra.Order.Field.Rat
import Mathlib.Tactic.NormNum

/-! The gauge values of the data module (`many-modules/src/_5_data/types.rs`) and the
`PartialEq` the source writes for them, over `f64` values. The comparison is symmetric, but on
an integer and a float it is not the equality of the numbers they stand for: it holds only when
the float has a fractional part, so an integer gauge never equals the float of the same number,
and it equals every fractional float that truncates to it. The `impl Eq` does not hold either:
a NaN gauge is not equal to itself, and two fractional floats between the same integers are
both equal to that integer without being equal to each other. -/
namespace ManyRs.Data

/-- An `f64` by its value: a finite binary fraction `mantissa / 2 ^ shift`, an infinity, or
NaN. Signed zeros and NaN payloads are not told apart: no operation the comparison uses sees
them. -/
inductive F64
  | finite (mantissa : Int) (shift : Nat)
  | inf (negative : Bool)
  | nan
  deriving DecidableEq

namespace F64

/-- `==` on `f64`: finite values compare by value, an infinity equals only itself, and NaN
equals nothing. -/
def eq : F64 → F64 → Bool
  | finite a e, finite b f => a * 2 ^ f == b * 2 ^ e
  | inf s, inf t => s == t
  | _, _ => false

/-- `x.fract() != 0.0`, where `fract` is `x - x.trunc()`: NaN for an infinity or a NaN, and NaN
is unequal to everything. -/
def fractNonzero : F64 → Bool
  | finite m e => m % 2 ^ e != 0
  | _ => true

def i64Min : Int := -2 ^ 63

def i64Max : Int := 2 ^ 63 - 1

/-- `x as i64`: truncated toward zero and saturated to the range of `i64`; NaN gives 0. -/
def asI64 : F64 → Int
  | finite m e => max i64Min (min i64Max (m.tdiv (2 ^ e)))
  | inf false => i64Max
  | inf true => i64Min
  | nan => 0

/-- The number a finite `f64` stands for. -/
def value : F64 → Option ℚ
  | finite m e => some (m / 2 ^ e)
  | _ => none

theorem eq_symm (x y : F64) : x.eq y = y.eq x := by
  cases x <;> cases y <;> simp only [eq, Bool.beq_comm]

/-- A float standing for an integer has no fractional part. -/
theorem fractNonzero_of_value_int {x : F64} {a : Int} (h : x.value = some a) :
    x.fractNonzero = false := by
  cases x with
  | finite m e =>
    have hm : m = a * 2 ^ e := by
      have hq : (m : ℚ) = a * 2 ^ e := (div_eq_iff (pow_ne_zero e two_ne_zero)).mp (Option.some.inj h)
      exact_mod_cast hq
    simp [fractNonzero, hm, Int.mul_emod_left]
  | inf => cases h
  | nan => cases h

/-- Two finite floats that `==` accepts stand for the same number. -/
theorem value_eq_of_eq {x y : F64} (h : x.eq y = true) : x.value = y.value := by
  cases x <;> cases y <;> simp only [eq, beq_iff_eq, Bool.false_eq_true] at h
  case finite.finite a e b f =>
    have hq : (a : ℚ) * 2 ^ f = b * 2 ^ e := by exact_mod_cast h
    simp only [value, Option.some.injEq]
    rw [div_eq_div_iff (pow_ne_zero e two_ne_zero) (pow_ne_zero f two_ne_zero), hq]
  case inf.inf s t => rw [h]

end F64

/-- `DataValueTypeGauge`: an `i64`, an `f64`, or a `BigInt`. -/
inductive DataValueTypeGauge
  | int (v : Int)
  | float (v : F64)
  | bigInt (v : Int)

namespace DataValueTypeGauge

/-- `impl PartialEq<DataValueTypeGauge> for DataValueTypeGauge`, arm by arm. -/
def eq : DataValueTypeGauge → DataValueTypeGauge → Bool
  | bigInt a, int b => b == a
  | bigInt a, float b => b.fractNonzero && b.asI64 == a
  | int a, bigInt b => a == b
  | float a, bigInt b => a.fractNonzero && a.asI64 == b
  | int a, int b => a == b
  | bigInt a, bigInt b => a == b
  | float a, float b => a.eq b
  | int a, float b => b.fractNonzero && b.asI64 == a
  | float a, int b => a.fractNonzero && a.asI64 == b

theorem eq_symm (g h : DataValueTypeGauge) : g.eq h = h.eq g := by
  cases g <;> cases h <;> simp only [eq, F64.eq_symm, Bool.beq_comm]

/-- An integer gauge equals a float gauge only when the float does not stand for that
integer: the comparison of an integer with a float is the opposite of the equality of the
numbers, whichever of `i64` and `BigInt` holds the integer. -/
theorem int_float_eq_not_numeric (a : Int) (x : F64) :
    ((int a).eq (float x) = true ∨ (bigInt a).eq (float x) = true) → x.value ≠ some a := by
  intro h hx
  simp [eq, F64.fractNonzero_of_value_int hx] at h

theorem int_one_ne_float_one :
    (F64.finite 1 0).value = some 1 ∧
      ¬ ((int 1).eq (float (.finite 1 0)) = true ∨ (bigInt 1).eq (float (.finite 1 0)) = true) :=
  have hv : (F64.finite 1 0).value = some 1 := by simp [F64.value]
  ⟨hv, fun h => int_float_eq_not_numeric 1 _ h hv⟩

/-- The comparison is symmetric, but `impl Eq` does not hold: a NaN gauge is not equal to
itself, and two fractional floats with the same truncation that stand for different numbers
are both equal to the integer gauge of that truncation without being equal to each other. -/
theorem gauge_eq_symmetric_not_equivalence :
    (∀ g h : DataValueTypeGauge, g.eq h = h.eq g) ∧ (float .nan).eq (float .nan) = false ∧
    ∀ x y : F64, x.fractNonzero = true → y.fractNonzero = true → x.asI64 = y.asI64 →
      x.value ≠ y.value →
      (float x).eq (int x.asI64) = true ∧ (int x.asI64).eq (float y) = true ∧
        (float x).eq (float y) = false :=
  ⟨eq_symm, rfl, fun x y hx hy hxy hv => ⟨by simp [eq, hx], by simp [eq, hy, hxy],
    Bool.eq_false_iff.mpr fun h => hv (F64.value_eq_of_eq h)⟩⟩

/-- `1.5` and `1.75` both equal the integer gauge `1`, and differ. -/
theorem one_and_a_half_one_one_and_three_quarters :
    (float (.finite 3 1)).eq (int 1) = true ∧ (int 1).eq (float (.finite 7 2)) = true ∧
      (float (.finite 3 1)).eq (float (.finite 7 2)) = false :=
  gauge_eq_symmetric_not_equivalence.2.2 (.finite 3 1) (.finite 7 2) (by decide) (by decide)
    (by decide) (by norm_num [F64.value])

end DataValueTypeGauge

end ManyRs.Data
