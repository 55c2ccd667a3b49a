import TagNavigator.Decimal.Binary64

/-!
# Shortest decimals

The decimals that read back as a given floating-point number form an interval around it. Of those
with the fewest digits, `shortest` gives the one nearest to the number, and of two that are equally
near the one with the even last digit.
-/

namespace TagNavigator.Decimal

/-- The interval of the decimals that read back as `m * 2 ^ e`: four times the number and its two
ends, in the unit `2 ^ (e - 2)`. The gap below a power of two is half as wide. -/
structure Interval where
  low : Nat
  value : Nat
  high : Nat
  /-- Whether the ends belong to the interval. -/
  closed : Bool

/-- The interval of `m * 2 ^ e`. -/
def intervalOf (m : Nat) (e : Int) : Interval :=
  let narrow := m = Nat.pow 2 52 && Binary64.minExponent < e
  ⟨if narrow then 4 * m - 1 else 4 * m - 2, 4 * m, 4 * m + 2, m % 2 = 0⟩

/-- The fraction `a / b` of which `x` units of `2 ^ e` are `x * a / b` units of `10 ^ k`. -/
def unitRatio (e k : Int) : Nat × Nat :=
  (Nat.pow 2 e.toNat * Nat.pow 10 (-k).toNat, Nat.pow 2 (-e).toNat * Nat.pow 10 k.toNat)

/-- The decimal `c * 10 ^ k` that reads back, if there is one among the two next to the number, the
nearer one first. -/
def onGrid (i : Interval) (e k : Int) : Option Nat :=
  let (a, b) := unitRatio (e - 2) k
  let below := i.value * a / b
  let above := below + 1
  let reads (c : Nat) : Bool :=
    if i.closed then i.low * a ≤ c * b && c * b ≤ i.high * a
    else i.low * a < c * b && c * b < i.high * a
  let down := i.value * a - below * b
  let up := above * b - i.value * a
  let belowFirst := down < up || (down = up && below % 2 = 0)
  let (first, second) := if belowFirst then (below, above) else (above, below)
  if reads first then some first else if reads second then some second else none

/-- The least `p` with `m * 2 ^ e < 10 ^ p`, looked for from `p` on. -/
def magnitudeFrom (m : Nat) (e : Int) : (steps : Nat) → Int → Int
  | 0, p => p
  | steps + 1, p =>
    let (a, b) := unitRatio e p
    if m * a < b then p else magnitudeFrom m e steps (p + 1)

/-- The least `p` with `m * 2 ^ e < 10 ^ p`, for positive `m`. -/
def magnitude (m : Nat) (e : Int) : Int :=
  let guess := ((m.log2 : Int) + e) * 30103 / 100000
  magnitudeFrom m e 4 (guess - 1)

/-- The first decimal that reads back on the grids of the given numbers of digits. -/
def search (i : Interval) (e p : Int) : List Nat → Nat × Int
  | [] => (0, 0)
  | n :: rest =>
    match onGrid i e (p - n) with
    | some c => (c, p - n)
    | none => search i e p rest

/-- Digits and exponent of a decimal without zeros at its end. -/
def trimZeros : (steps : Nat) → Nat × Int → Nat × Int
  | 0, d => d
  | steps + 1, (c, k) => if c % 10 = 0 then trimZeros steps (c / 10, k + 1) else (c, k)

/-- The shortest decimal `c * 10 ^ k` that reads back as `m * 2 ^ e`, for positive `m`. -/
def shortest (m : Nat) (e : Int) : Nat × Int :=
  trimZeros 20 (search (intervalOf m e) e (magnitude m e) (List.range' 1 17))

end TagNavigator.Decimal
