import Mathlib.Data.Rat.Defs

/-!
# 64-bit floats

Spend amounts, spend caps and trust levels are `f64`. A value here is one of the
three IEEE special values or an exact rational: comparisons and the handling of
NaN and the infinities are those of IEEE 754, and finite arithmetic is exact,
without rounding.
-/

namespace Patroclus

inductive F64 where
  | nan
  | negInf
  | finite (q : ℚ)
  | posInf
deriving DecidableEq, Repr

namespace F64

instance : Zero F64 := ⟨.finite 0⟩

instance : One F64 := ⟨.finite 1⟩

def add : F64 → F64 → F64
  | .nan, _ | _, .nan => .nan
  | .posInf, .negInf | .negInf, .posInf => .nan
  | .posInf, _ | _, .posInf => .posInf
  | .negInf, _ | _, .negInf => .negInf
  | .finite a, .finite b => .finite (a + b)

def neg : F64 → F64
  | .nan => .nan
  | .negInf => .posInf
  | .finite q => .finite (-q)
  | .posInf => .negInf

def sub (x y : F64) : F64 := x.add y.neg

/-- An infinity, with the sign of a factor that is not zero. -/
def infinite (q : ℚ) : F64 := if q = 0 then .nan else if 0 < q then .posInf else .negInf

def mul : F64 → F64 → F64
  | .finite a, .finite b => .finite (a * b)
  | .nan, _ => .nan
  | _, .nan => .nan
  | .finite a, .posInf => infinite a
  | .finite a, .negInf => infinite (-a)
  | .posInf, .finite b => infinite b
  | .negInf, .finite b => infinite (-b)
  | .posInf, y => y
  | .negInf, y => y.neg

/-- `n as f64` -/
def ofInt (n : Int) : F64 := .finite n

/-- The operator `>=`. Every comparison with NaN is false. -/
def ge : F64 → F64 → Bool
  | .nan, _ | _, .nan => false
  | .posInf, _ | _, .negInf => true
  | .negInf, _ | _, .posInf => false
  | .finite a, .finite b => decide (b ≤ a)

/-- `x.max(y)`, which prefers a number to NaN. -/
def max (x y : F64) : F64 :=
  if x = .nan then y else if y.ge x then y else x

/-- `format!("{:.2}", x)`: two decimals, ties to the even digit. -/
def toFixed2 : F64 → String
  | .nan => "NaN"
  | .posInf => "inf"
  | .negInf => "-inf"
  | .finite q =>
      let scaled := q.num.natAbs * 100
      let quotient := scaled / q.den
      let twice := 2 * (scaled % q.den)
      let cents :=
        if twice < q.den ∨ twice = q.den ∧ quotient % 2 = 0 then quotient else quotient + 1
      let sign := if q < 0 then "-" else ""
      sign ++ toString (cents / 100) ++ "." ++ toString (cents % 100 / 10) ++ toString (cents % 10)

end F64

end Patroclus
