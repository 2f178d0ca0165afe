import Scriptlet.Number.Decimal

/-!
The shortest decimal of a double.

The decimals that read back as a given magnitude form a gap around it: half of a mantissa step on
either side, a quarter below a power of two, where the next magnitude is nearer.  The ends belong
to the gap when the mantissa is even.  `shortest` takes the coarsest power of ten that has a
multiple in the gap, which leaves the fewest digits, and of the multiples in the gap the nearest;
of two equally near ones the greater.

The two multiples around the magnitude are all that has to be tried at each power: if any multiple
lies in the gap, one of these does.  Distances are whole numbers of quarter units.
-/

namespace Scriptlet
namespace Decimal

/-- The decimals that read back as one magnitude, in quarters of a unit. -/
structure Gap where
  low : Nat
  value : Nat
  high : Nat
  closed : Bool
  deriving DecidableEq, Repr

/-- The gap around the magnitude of rank `r`. -/
def Gap.ofRank (r : Nat) : Gap :=
  let m := Binary.mantissa r
  let step := 1 <<< Binary.scale r
  let value := 4 * m * step
  { low := value - (if m = Binary.leadingBit then step else 2 * step)
    value := value
    high := value + 2 * step
    closed := m % 2 = 0 }

/-- Is `a` below `b`, or equal to it where the ends of the gap count? -/
def Gap.before (g : Gap) (a b : Nat) : Bool := if g.closed then a ≤ b else a < b

/-- The multiple of `10 ^ j` in the gap that is nearest to its value. -/
def Gap.multiple? (g : Gap) (j : Int) : Option Nat :=
  let up := Nat.pow 10 (-j).toNat
  let grid := Nat.pow 10 j.toNat <<< 1076
  let n := g.value * up / grid
  let below := g.value * up % grid
  let lower := g.before (g.low * up) (n * grid)
  let upper := g.before ((n + 1) * grid) (g.high * up)
  if lower && (!upper || 2 * below < grid) then some n
  else if upper then some (n + 1)
  else none

/-- The value itself, all digits of it: a quarter of a unit is `5 ^ 1076 / 10 ^ 1076`. -/
def Gap.exact (g : Gap) : Decimal := ⟨g.value * Nat.pow 5 1076, -1076⟩

/-- The first hit among the powers `10 ^ j`, `10 ^ (j - 1)`, …; the exact value if there is none. -/
def Gap.search (g : Gap) : Nat → Int → Decimal
  | 0, _ => g.exact
  | n + 1, j => match g.multiple? j with
    | some d => ⟨d, j⟩
    | none => g.search n (j - 1)

/-- A power of ten above the magnitude: `3 / 10` is below `log 2 / log 10` by less than `1 / 900`. -/
def ceilingExponent (r : Nat) : Int := ((Binary.units r).log2 - 1074 : Int) * 3 / 10 + 3

/-- The decimal with the fewest digits that reads back as the magnitude of rank `r`.  Seventeen
digits always do, and the search starts fewer than eight powers above the first digit. -/
def shortest (r : Nat) : Decimal := (Gap.ofRank r).search 25 (ceilingExponent r)

example : shortest (Binary.rankOf 0.1) = ⟨1, -1⟩ := by decide +kernel
example : shortest (Binary.rankOf 0.3) = ⟨3, -1⟩ := by decide +kernel
example : shortest 1 = ⟨5, -324⟩ := by decide +kernel
example : shortest (Binary.rankOf 1e23) = ⟨1, 23⟩ := by decide +kernel

end Decimal
end Scriptlet
