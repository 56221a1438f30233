import ScriptHost.Proofs.Json.Grammar
import ScriptHost.Json.Printer

/-! Every number is printed as a numeral of the grammar: the digits of a decimal begin with no zero
unless it stands alone, and the shortest digits of a number that is not zero are not all zero. -/

namespace ScriptHost

theorem timesTwos_pos {n : Nat} (hn : 0 < n) (e : Int) : 0 < timesTwos n e := by
  rw [timesTwos, Nat.shiftLeft_eq]
  exact Nat.mul_pos hn (Nat.two_pow_pos _)

theorem timesTens_pos {n : Nat} (hn : 0 < n) (e : Int) : 0 < timesTens n e :=
  Nat.mul_pos hn (Nat.pow_pos (by decide))

theorem compareScaled_zero {n : Nat} (hn : 0 < n) (i j : Int) : compareScaled 0 i n j = .lt := by
  have hzero : timesTwos (timesTens 0 i) (-j) = 0 := by simp [timesTens, timesTwos]
  rw [compareScaled, hzero]
  exact Nat.compare_eq_lt.2 (timesTens_pos (timesTwos_pos hn j) (-i))

namespace Binary64

variable {x : Binary64}

/-- Zero reads back to zero alone. -/
theorem readsBack_zero (hx : x.isZero = false) (e : Int) : x.readsBack ⟨0, e⟩ = false := by
  have hm : x.m ≠ 0 := by simpa [isZero] using hx
  have hpos : 0 < 4 * x.m - if x.narrowBelow = true then 1 else 2 := by
    split <;> omega
  simp [readsBack, compareScaled_zero hpos]

theorem shortest_ne_zero (hx : x.isZero = false) : x.shortest.digits ≠ 0 := by
  have hm : 0 < x.m := Nat.pos_of_ne_zero (by simpa [isZero] using hx)
  rw [shortest]
  cases hfound : (List.range 17).findSome? fun n : Nat =>
      (x.neighbours (x.decimalScale - (n + 1 : Nat))).find? x.readsBack with
  | none =>
    have hpos := Nat.mul_pos (timesTwos_pos hm x.q) (Nat.pow_pos (n := (-x.q).toNat) (by decide : 0 < 5))
    exact hpos.ne'
  | some d =>
    obtain ⟨n, -, hd⟩ := List.exists_of_findSome?_eq_some hfound
    have hback := List.find?_some hd
    rintro hzero
    obtain ⟨digits, e⟩ := d
    cases hzero
    rw [readsBack_zero hx] at hback
    cases hback

end Binary64

namespace Json

theorem decimal_digits (n : Nat) : Digits (Text.decimal n) :=
  ⟨Nat.toDigits_ne_nil, fun _ hc => Nat.isDigit_of_mem_toDigits (by decide) (by decide) hc⟩

theorem decimal_head {n : Nat} (hn : n ≠ 0) : (Text.decimal n).head? ≠ some '0' := by
  unfold Text.decimal
  induction n using Nat.strongRecOn with
  | ind n ih =>
    by_cases hsmall : n < 10
    · rw [Nat.toDigits_of_lt_base hsmall]
      have hdigit : ∀ d < 10, d ≠ 0 → Nat.digitChar d ≠ '0' := by decide
      simpa using hdigit n hsmall hn
    · have hrest : n / 10 ≠ 0 := by omega
      rw [Nat.toDigits_of_base_le (by decide) (by omega),
        List.head?_append_of_ne_nil _ Nat.toDigits_ne_nil]
      exact ih (n / 10) (by omega) hrest

theorem whole_decimal (n : Nat) : Whole (Text.decimal n) := by
  by_cases hn : n = 0
  · exact .inl (by rw [hn]; rfl)
  · exact .inr ⟨decimal_digits n, decimal_head hn⟩

def Leading (ds : List Char) : Prop := Digits ds ∧ ds.head? ≠ some '0'

theorem leading_decimal {n : Nat} (hn : n ≠ 0) : Leading (Text.decimal n) :=
  ⟨decimal_digits n, decimal_head hn⟩

/-- Digits without the zeros at their end. -/
def significant (ds : List Char) : List Char := (ds.reverse.dropWhile (· = '0')).reverse

theorem Leading.significant {ds : List Char} (h : Leading ds) : Leading (significant ds) := by
  obtain ⟨hdigits, hhead⟩ := h
  obtain ⟨c, tail, rfl, -⟩ := hdigits.exists_cons
  have hfront : Json.significant (c :: tail) <+: c :: tail := List.rdropWhile_prefix ..
  have hne : Json.significant (c :: tail) ≠ [] := by
    intro hnil
    have hzero := List.rdropWhile_eq_nil_iff.1 hnil c (by simp)
    simp_all
  obtain ⟨d, rest, heq⟩ := List.exists_cons_of_ne_nil hne
  refine ⟨⟨hne, fun b hb => hdigits.2 b (hfront.subset hb)⟩, ?_⟩
  rw [heq] at hfront ⊢
  obtain ⟨rfl, -⟩ := List.cons_prefix_cons.1 hfront
  exact hhead

/-- The numeral of digits with the point behind the one of weight `10^0`. -/
def positionalNumeral (negative : Bool) (ds : List Char) (e : Int) : Numeral :=
  if e < 0 then ⟨negative, ['0'], some (List.replicate (-e - 1).toNat '0' ++ ds), none⟩
  else
    let fraction := ds.drop (e.toNat + 1)
    ⟨negative, ds.take (e.toNat + 1) ++ List.replicate (e.toNat + 1 - ds.length) '0',
      some (if fraction = [] then ['0'] else fraction), none⟩

def scientificNumeral (negative : Bool) (ds : List Char) (e : Int) : Numeral :=
  let fraction := ds.drop 1
  ⟨negative, ds.take 1, if fraction = [] then none else some fraction,
    some (e < 0, Text.decimal e.natAbs)⟩

def realNumeral (x : Binary64) : Numeral :=
  if x.isZero then ⟨x.negative, ['0'], some ['0'], none⟩
  else
    let all := Text.decimal x.shortest.digits
    let e := x.shortest.exp + (all.length - 1 : Nat)
    if -5 ≤ e ∧ e < 16 then positionalNumeral x.negative (significant all) e
    else scientificNumeral x.negative (significant all) e

def Number.numeral : Number → Numeral
  | .integer i => ⟨i < 0, Text.decimal i.natAbs, none, none⟩
  | .real x => realNumeral x

theorem Numeral.Spelled.of_eq {x : Numeral} {f e t : List Char} (hwhole : Whole x.whole)
    (hfraction : FractionText x.fraction f) (hexponent : ExponentText x.exponent e)
    (ht : t = minus x.negative ++ x.whole ++ f ++ e) : x.Spelled t :=
  ht ▸ .parts hwhole hfraction hexponent

theorem Digits.append_left {ds es : List Char} (he : Digits es) (hd : ∀ c ∈ ds, c.isDigit = true) :
    Digits (ds ++ es) := by
  refine ⟨fun hnil => he.1 (List.append_eq_nil_iff.1 hnil).2, fun c hc => ?_⟩
  rcases List.mem_append.1 hc with hc | hc
  · exact hd c hc
  · exact he.2 c hc

theorem isDigit_of_mem_zeros {n : Nat} : ∀ c ∈ List.replicate n '0', c.isDigit = true := by
  intro c hc
  rw [List.eq_of_mem_replicate hc]
  decide

theorem Leading.whole_take {ds : List Char} (h : Leading ds) (n k : Nat) :
    Whole (ds.take (n + 1) ++ List.replicate k '0') := by
  obtain ⟨hdigits, hhead⟩ := h
  obtain ⟨c, tail, rfl, -⟩ := hdigits.exists_cons
  refine .inr ⟨⟨by simp, fun d hd => ?_⟩, by simpa using hhead⟩
  rcases List.mem_append.1 hd with hd | hd
  · exact hdigits.2 d (List.mem_of_mem_take hd)
  · exact isDigit_of_mem_zeros d hd

theorem Digits.drop {ds : List Char} (h : Digits ds) {n : Nat} (hne : ds.drop n ≠ []) :
    Digits (ds.drop n) :=
  ⟨hne, fun c hc => h.2 c (List.mem_of_mem_drop hc)⟩

theorem digits_fraction {ds : List Char} (h : Digits ds) (n : Nat) :
    Digits (if ds.drop n = [] then ['0'] else ds.drop n) := by
  split
  · exact digits_zero
  · next hne => exact h.drop hne

theorem positional_spelled {ds : List Char} (h : Leading ds) (negative : Bool) (e : Int) :
    (positionalNumeral negative ds e).Spelled (minus negative ++ positional ds e) := by
  unfold positionalNumeral positional
  split
  · exact .of_eq (.inl rfl) (.digits (h.1.append_left isDigit_of_mem_zeros)) .absent (by simp)
  · exact .of_eq (h.whole_take _ _) (.digits (digits_fraction h.1 _)) .absent (by simp)

theorem scientific_spelled {ds : List Char} (h : Leading ds) (negative : Bool) (e : Int) :
    (scientificNumeral negative ds e).Spelled (minus negative ++ scientific ds e) := by
  have hwhole : Whole (ds.take 1) := by simpa using h.whole_take 0 0
  have hfraction : FractionText (if ds.drop 1 = [] then none else some (ds.drop 1))
      (if ds.drop 1 = [] then [] else '.' :: ds.drop 1) := by
    split
    · exact .absent
    · next hne => exact .digits (h.1.drop hne)
  have hsign : SignText (decide (e < 0)) [if e < 0 then '-' else '+'] := by
    by_cases he : e < 0
    · simpa [he] using SignText.minus
    · simpa [he] using SignText.plus
  refine .of_eq hwhole hfraction (.digits (.inl rfl) hsign (decimal_digits e.natAbs)) ?_
  simp [scientific, scientificNumeral]

theorem realNumeral_spelled (x : Binary64) : (realNumeral x).Spelled (printReal x) := by
  unfold realNumeral printReal
  split
  · exact .of_eq (.inl rfl) (.digits digits_zero) .absent (by simp [minus])
  · next hzero =>
    have hlead := (leading_decimal (x.shortest_ne_zero (by simpa using hzero))).significant
    dsimp only
    split
    · exact positional_spelled hlead x.negative _
    · exact scientific_spelled hlead x.negative _

theorem Number.spelled (n : Number) : n.numeral.Spelled (printNumber n) := by
  cases n with
  | integer i =>
    refine .of_eq (whole_decimal i.natAbs) .absent .absent ?_
    by_cases hi : i < 0 <;> simp [Number.numeral, printNumber, minus, hi]
  | real x => exact realNumeral_spelled x

end Json
end ScriptHost
