import ScriptHost.Number.Binary64

/-! The fewest decimal digits that read back to a binary64 number. The reals that round to
`m · 2^q` form an interval around it, its ends included exactly when `m` is even; the grids of
1, 2, … 17 digits are tried in turn, and on each only the two neighbours of the number matter. -/

namespace ScriptHost

structure DecimalForm where
  digits : Nat
  exp : Int
deriving DecidableEq, Repr

/-- Compares `a · 10^i` with `n · 2^j`, exactly. -/
def compareScaled (a : Nat) (i : Int) (n : Nat) (j : Int) : Ordering :=
  compare (timesTwos (timesTens a i) (-j)) (timesTens (timesTwos n j) (-i))

namespace Binary64

/-- Below a power of two the next number is half as far away as above it. -/
def narrowBelow (x : Binary64) : Bool := x.m = leastFull ∧ -1074 < x.q

/-- The decimal lies among the reals that round to `x`. Both ends of that interval are whole
multiples of a quarter of `2^q`. -/
def readsBack (x : Binary64) (d : DecimalForm) : Bool :=
  let low := compareScaled d.digits d.exp (4 * x.m - if x.narrowBelow then 1 else 2) (x.q - 2)
  let high := compareScaled d.digits d.exp (4 * x.m + 2) (x.q - 2)
  let ends := x.m % 2 = 0
  (low == .gt || (ends && low == .eq)) && (high == .lt || (ends && high == .eq))

/-- The least `k` with `x < 10^k`, for `x` not zero. -/
def decimalScale (x : Binary64) : Int :=
  -- 30103 / 100000 is the decimal logarithm of two, less than one part in 10^5 too large.
  let guess := (x.m.log2 + x.q) * 30103 / 100000
  ([guess, guess + 1].find? fun k => compareScaled 1 k x.m x.q == .gt).getD (guess + 2)

/-- The neighbours of `x` on the grid `10^g`, the nearer one first; of two equally near the even
one. -/
def neighbours (x : Binary64) (g : Int) : List DecimalForm :=
  let num := timesTens (timesTwos x.m x.q) (-g)
  let den := timesTens (timesTwos 1 (-x.q)) g
  let below := num / den
  let twice := 2 * (num % den)
  if twice < den ∨ (twice = den ∧ below % 2 = 0) then [⟨below, g⟩, ⟨below + 1, g⟩]
  else [⟨below + 1, g⟩, ⟨below, g⟩]

/-- The fewest digits that read back to `x`, the nearest of them. Seventeen digits always read
back; the exact value stands in for a search that finds nothing. -/
def shortest (x : Binary64) : DecimalForm :=
  let k := x.decimalScale
  let found := (List.range 17).findSome? fun n : Nat =>
    (x.neighbours (k - (n + 1 : Nat))).find? x.readsBack
  found.getD ⟨timesTwos x.m x.q * Nat.pow 5 (-x.q).toNat, min x.q 0⟩

end Binary64
end ScriptHost
