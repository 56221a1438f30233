import Mathlib.Data.List.DropRight
import ScriptHost.Json.Numeral

/-! The grammar of numerals. What the reader takes for a numeral is spelled by the text it took, and
a spelled numeral is read whole where nothing behind it could continue it. -/

namespace ScriptHost

section Steps

theorem bind_eq_ok {x : Except ε α} {f : α → Except ε β} {b : β} :
    (x >>= f) = .ok b ↔ ∃ a, x = .ok a ∧ f a = .ok b := by
  cases x <;> simp [bind, Except.bind]

theorem map_eq_ok {f : α → β} {x : Except ε α} {b : β} :
    f <$> x = .ok b ↔ ∃ a, x = .ok a ∧ f a = b := by
  cases x <;> simp [Functor.map, Except.map]

theorem mapError_eq_ok {x : Except ε α} {f : ε → ε'} {a : α} :
    x.mapError f = .ok a ↔ x = .ok a := by
  cases x <;> simp [Except.mapError]

end Steps

namespace Json

/-- At least one digit. -/
def Digits (ds : List Char) : Prop := ds ≠ [] ∧ ∀ c ∈ ds, c.isDigit = true

/-- The digits before the point: a zero stands alone. -/
def Whole (ds : List Char) : Prop := ds = ['0'] ∨ Digits ds ∧ ds.head? ≠ some '0'

inductive FractionText : Option (List Char) → List Char → Prop where
  | absent : FractionText none []
  | digits (hds : Digits ds) : FractionText (some ds) ('.' :: ds)

inductive SignText : Bool → List Char → Prop where
  | bare : SignText false []
  | plus : SignText false ['+']
  | minus : SignText true ['-']

inductive ExponentText : Option (Bool × List Char) → List Char → Prop where
  | absent : ExponentText none []
  | digits (hc : c = 'e' ∨ c = 'E') (hsign : SignText negative sign) (hds : Digits ds) :
      ExponentText (some (negative, ds)) (c :: (sign ++ ds))

def minus (negative : Bool) : List Char := if negative then ['-'] else []

inductive Numeral.Spelled (x : Numeral) : List Char → Prop where
  | parts (hwhole : Whole x.whole) (hfraction : FractionText x.fraction f)
      (hexponent : ExponentText x.exponent e) : Spelled x (minus x.negative ++ x.whole ++ f ++ e)

section Runs

def PastDigits (s : List Char) : Prop := ∀ c ∈ s.head?, c.isDigit = false

theorem digitsOf_append_pastDigits (s : List Char) : digitsOf s ++ pastDigits s = s :=
  List.takeWhile_append_dropWhile

theorem digits_digitsOf {s : List Char} (h : digitsOf s ≠ []) : Digits (digitsOf s) :=
  ⟨h, fun c hc => List.all_eq_true.1 List.all_takeWhile c hc⟩

theorem digitsOf_eq_nil {s : List Char} (h : PastDigits s) : digitsOf s = [] := by
  cases s with
  | nil => rfl
  | cons c s => simp [digitsOf, h c rfl]

theorem pastDigits_eq {s : List Char} (h : PastDigits s) : pastDigits s = s := by
  cases s with
  | nil => rfl
  | cons c s => simp [pastDigits, h c rfl]

theorem Digits.digitsOf_append {ds rest : List Char} (hds : Digits ds) (hrest : PastDigits rest) :
    digitsOf (ds ++ rest) = ds := by
  rw [digitsOf, List.takeWhile_append_of_pos hds.2, ← digitsOf, digitsOf_eq_nil hrest,
    List.append_nil]

theorem Digits.pastDigits_append {ds rest : List Char} (hds : Digits ds)
    (hrest : PastDigits rest) : pastDigits (ds ++ rest) = rest := by
  rw [pastDigits, List.dropWhile_append_of_pos hds.2, ← pastDigits, pastDigits_eq hrest]

theorem digits_zero : Digits ['0'] := by
  refine ⟨by simp, fun c hc => ?_⟩
  rw [List.mem_singleton.1 hc]
  rfl

theorem Whole.digits {ds : List Char} (h : Whole ds) : Digits ds := by
  rcases h with rfl | ⟨h, -⟩
  · exact digits_zero
  · exact h

theorem Digits.exists_cons {ds : List Char} (h : Digits ds) :
    ∃ c rest, ds = c :: rest ∧ c.isDigit = true := by
  obtain ⟨c, rest, rfl⟩ := List.exists_cons_of_ne_nil h.1
  exact ⟨c, rest, rfl, h.2 c (by simp)⟩

end Runs

section Soundness

variable {flaw : Flaw} {s rest : List Char}

theorem readWhole_sound {ds : List Char} (h : readWhole flaw s = .ok (ds, rest)) :
    Whole ds ∧ s = ds ++ rest := by
  unfold readWhole at h
  split at h
  · cases h
  · split at h
    · cases h
      exact ⟨.inl rfl, rfl⟩
    · cases h
  · next hzero =>
    split at h
    · cases h
    · next hds =>
      cases h
      refine ⟨.inr ⟨digits_digitsOf hds, fun hhead => ?_⟩, (digitsOf_append_pastDigits s).symm⟩
      obtain ⟨tail, htail⟩ := List.head?_eq_some_iff.1 hhead
      refine hzero (tail ++ pastDigits s) ?_
      rw [← List.cons_append, ← htail, digitsOf_append_pastDigits]

theorem readFraction_sound {f : Option (List Char)} (h : readFraction flaw s = .ok (f, rest)) :
    ∃ t, FractionText f t ∧ s = t ++ rest := by
  unfold readFraction at h
  split at h
  · next tail =>
    split at h
    · cases h
    · split at h
      · cases h
      · next hds =>
        cases h
        refine ⟨'.' :: digitsOf tail, .digits (digits_digitsOf hds), ?_⟩
        rw [List.cons_append, digitsOf_append_pastDigits]
  · cases h
    exact ⟨[], .absent, rfl⟩

theorem readSign_sound (s : List Char) :
    ∃ sign, SignText (readSign s).1 sign ∧ s = sign ++ (readSign s).2 := by
  unfold readSign
  split
  · exact ⟨_, .minus, rfl⟩
  · exact ⟨_, .plus, rfl⟩
  · exact ⟨_, .bare, rfl⟩

theorem readExponent_sound {e : Option (Bool × List Char)}
    (h : readExponent flaw s = .ok (e, rest)) : ∃ t, ExponentText e t ∧ s = t ++ rest := by
  unfold readExponent at h
  split at h
  · cases h
    exact ⟨[], .absent, rfl⟩
  · next c tail =>
    split at h
    · next hc =>
      obtain ⟨sign, hsign, htail⟩ := readSign_sound tail
      dsimp only at h
      split at h
      · cases h
      · split at h
        · cases h
        · next hds =>
          cases h
          refine ⟨_, .digits hc hsign (digits_digitsOf hds), ?_⟩
          rw [List.cons_append, List.append_assoc, digitsOf_append_pastDigits, ← htail]
    · cases h
      exact ⟨[], .absent, rfl⟩

theorem readNumeral_sound {x : Numeral} (h : readNumeral flaw s = .ok (x, rest)) :
    ∃ t, x.Spelled t ∧ s = t ++ rest := by
  obtain ⟨⟨whole, s₂⟩, hwhole, h⟩ := bind_eq_ok.1 h
  obtain ⟨⟨fraction, s₃⟩, hfraction, h⟩ := bind_eq_ok.1 h
  obtain ⟨⟨exponent, s₄⟩, hexponent, h⟩ := bind_eq_ok.1 h
  cases h
  obtain ⟨hw, hs₁⟩ := readWhole_sound hwhole
  obtain ⟨f, hf, rfl⟩ := readFraction_sound hfraction
  obtain ⟨e, he, rfl⟩ := readExponent_sound hexponent
  refine ⟨_, .parts hw hf he, ?_⟩
  split at hs₁ <;> simp_all [minus]

end Soundness

section Completeness

variable {flaw : Flaw} {rest : List Char}

/-- Nothing comes next that could belong to a numeral. -/
def Ends (s : List Char) : Prop := ∀ c ∈ s.head?, c.isDigit = false ∧ c ≠ '.' ∧ c ≠ 'e' ∧ c ≠ 'E'

theorem Ends.pastDigits {s : List Char} (h : Ends s) : PastDigits s := fun c hc => (h c hc).1

theorem ExponentText.pastDigits {e : Option (Bool × List Char)} {t : List Char}
    (h : ExponentText e t) (hrest : Ends rest) : PastDigits (t ++ rest) := by
  cases h with
  | absent => exact hrest.pastDigits
  | digits hc =>
    rcases hc with rfl | rfl
    all_goals
      intro d hd
      cases hd
      decide

theorem ExponentText.no_point {e : Option (Bool × List Char)} {t tail : List Char}
    (h : ExponentText e t) (hrest : Ends rest) : t ++ rest ≠ '.' :: tail := by
  intro heq
  cases h with
  | absent => exact (hrest '.' (by simp [show rest = '.' :: tail from heq])).2.1 rfl
  | digits hc => rcases hc with rfl | rfl <;> cases heq

theorem FractionText.pastDigits {f : Option (List Char)} {t s : List Char}
    (h : FractionText f t) (hs : PastDigits s) : PastDigits (t ++ s) := by
  cases h with
  | absent => exact hs
  | digits =>
    intro d hd
    cases hd
    decide

theorem readWhole_complete {ds : List Char} (hds : Whole ds) (hrest : PastDigits rest) :
    readWhole flaw (ds ++ rest) = .ok (ds, rest) := by
  have hdigits := hds.digits
  rcases hds with rfl | ⟨-, hhead⟩
  · simp [readWhole, digitsOf_eq_nil hrest]
  · obtain ⟨c, tail, rfl, -⟩ := hdigits.exists_cons
    have hc : c ≠ '0' := by simpa using hhead
    have hrun := hdigits.digitsOf_append hrest
    have hpast := hdigits.pastDigits_append hrest
    rw [List.cons_append] at hrun hpast ⊢
    unfold readWhole
    split
    · next heq => cases heq
    · next heq =>
      cases heq
      exact absurd rfl hc
    · rw [hrun, hpast, if_neg (List.cons_ne_nil c tail)]

theorem readFraction_complete {f : Option (List Char)} {t : List Char} (h : FractionText f t)
    (hdigits : PastDigits rest) (hpoint : ∀ tail, rest ≠ '.' :: tail) :
    readFraction flaw (t ++ rest) = .ok (f, rest) := by
  cases h with
  | absent =>
    unfold readFraction
    split
    · next tail heq => exact absurd heq (hpoint tail)
    · rfl
  | digits hds =>
    simp [readFraction, hds.1, hds.digitsOf_append hdigits, hds.pastDigits_append hdigits]

theorem readSign_complete {negative : Bool} {sign ds : List Char} (h : SignText negative sign)
    (hds : Digits ds) : readSign (sign ++ (ds ++ rest)) = (negative, ds ++ rest) := by
  cases h with
  | bare =>
    obtain ⟨c, tail, rfl, hc⟩ := hds.exists_cons
    unfold readSign
    split
    · next heq =>
      cases heq
      cases hc
    · next heq =>
      cases heq
      cases hc
    · rfl
  | plus => rfl
  | minus => rfl

theorem readExponent_complete {e : Option (Bool × List Char)} {t : List Char}
    (h : ExponentText e t) (hrest : Ends rest) : readExponent flaw (t ++ rest) = .ok (e, rest) := by
  cases h with
  | absent =>
    cases rest with
    | nil => rfl
    | cons c tail =>
      have hc := hrest c rfl
      simp [readExponent, hc.2.2.1, hc.2.2.2]
  | digits hc hsign hds =>
    simp [readExponent, hc, readSign_complete hsign hds, hds.1,
      hds.digitsOf_append hrest.pastDigits, hds.pastDigits_append hrest.pastDigits]

theorem readNumeral_complete {x : Numeral} {t : List Char} (h : x.Spelled t) (hrest : Ends rest) :
    readNumeral flaw (t ++ rest) = .ok (x, rest) := by
  obtain ⟨hw, hf, he⟩ := h
  rename_i f e
  have hexponent : readExponent flaw (e ++ rest) = .ok (x.exponent, rest) :=
    readExponent_complete he hrest
  have hfraction : readFraction flaw (f ++ (e ++ rest)) = .ok (x.fraction, e ++ rest) :=
    readFraction_complete hf (he.pastDigits hrest) fun _ => he.no_point hrest
  have hwhole : readWhole flaw (x.whole ++ (f ++ (e ++ rest))) = .ok (x.whole, f ++ (e ++ rest)) :=
    readWhole_complete hw (hf.pastDigits (he.pastDigits hrest))
  obtain ⟨negative, whole, fraction, exponent⟩ := x
  dsimp only at hexponent hfraction hwhole hw
  cases negative
  · obtain ⟨c, tail, rfl, hc⟩ := hw.digits.exists_cons
    have hminus : c ≠ '-' := by
      rintro rfl
      cases hc
    rw [List.cons_append] at hwhole
    simp [readNumeral, minus, hminus, hwhole, hfraction, hexponent, bind, Except.bind, pure,
      Except.pure]
  · simp [readNumeral, minus, hwhole, hfraction, hexponent, bind, Except.bind, pure, Except.pure]

/-- A text spells one numeral at most. -/
theorem Numeral.Spelled.unique {x x' : Numeral} {t t' rest' : List Char} (h : x.Spelled t)
    (h' : x'.Spelled t') (heq : t ++ rest = t' ++ rest') (hrest : Ends rest) (hrest' : Ends rest') :
    x = x' ∧ rest = rest' := by
  have hread : readNumeral .invalidNumber (t ++ rest) = .ok (x, rest) :=
    readNumeral_complete h hrest
  rw [heq, readNumeral_complete h' hrest'] at hread
  cases hread
  exact ⟨rfl, rfl⟩

end Completeness

end Json
end ScriptHost
