/-! Finite binary64 numbers in exact arithmetic. A magnitude is `m · 2^q` with `m < 2^53` and
`-1074 ≤ q ≤ 971`; every operation takes the exact quotient of two naturals and rounds it once,
to the nearest magnitude and to the even one when two are equally near. -/

namespace ScriptHost

/-- A finite binary64 number: a sign, fifty-three bits and the exponent of the last of them. -/
structure Binary64 where
  negative : Bool
  m : Nat
  q : Int
deriving DecidableEq, Repr

/-- `n · 2^e`; an exponent below zero counts as zero. -/
def timesTwos (n : Nat) (e : Int) : Nat := n <<< e.toNat

def timesTens (n : Nat) (e : Int) : Nat := n * Nat.pow 10 e.toNat

namespace Binary64

/-- The least number of fifty-three bits, `2^52`. -/
def leastFull : Nat := 0x10000000000000

def zero : Binary64 := ⟨false, 0, -1074⟩

def isZero (x : Binary64) : Bool := x.m = 0

/-- The nearest natural to `n / d`, the even one of two. -/
def roundDiv (n d : Nat) : Nat :=
  let whole := n / d
  let twice := 2 * (n % d)
  if d < twice ∨ (twice = d ∧ whole % 2 = 1) then whole + 1 else whole

def unitsOf (num den : Nat) (q : Int) : Nat :=
  roundDiv (timesTwos num (-q)) (timesTwos den q)

/-- The exponent of the last of fifty-three bits of `num / den`, not below the least one. -/
def scaleOf (num den : Nat) : Int :=
  let low : Int := num.log2 - den.log2 - 53
  -- At `low` the quotient has fifty-three or fifty-four bits.
  let whole := timesTwos num (-low) / timesTwos den low
  max (if whole < 2 * leastFull then low else low + 1) (-1074)

/-- The magnitude nearest to `num / den`, or nothing where that is infinite. -/
def nearest? (num den : Nat) : Option Binary64 :=
  if num = 0 then some zero
  else
    let q := scaleOf num den
    let m := unitsOf num den q
    let x : Binary64 := if m = 2 * leastFull then ⟨false, leastFull, q + 1⟩ else ⟨false, m, q⟩
    if x.q ≤ 971 then some x else none

def ofNat? (n : Nat) : Option Binary64 := nearest? n 1

def mul? (x y : Binary64) : Option Binary64 :=
  let q := x.q + y.q
  nearest? (timesTwos (x.m * y.m) q) (timesTwos 1 (-q))

/-- Quotient of magnitudes; `y` is not zero. -/
def div? (x y : Binary64) : Option Binary64 :=
  let q := x.q - y.q
  nearest? (timesTwos x.m q) (timesTwos y.m (-q))

def tenTo? (n : Nat) : Option Binary64 := ofNat? (timesTens 1 n)

end Binary64
end ScriptHost
