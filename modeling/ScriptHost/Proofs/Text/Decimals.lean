import ScriptHost.Proofs.Json.Echo

/-! Which texts the reader of unsigned decimal numbers accepts, and how it refuses the others. The
digits count from the left: a value beyond the largest one is noticed before a bad character behind
it. What is shown of a number is the canonical one of its spellings. -/

namespace ScriptHost.Text

open Json

def behindPlus : List Char → List Char
  | '+' :: rest => rest
  | s => s

/-- An optional plus sign and at least one digit, of the value `n` together. -/
def Spells (s : List Char) (n : Nat) : Prop :=
  Digits (behindPlus s) ∧ Nat.ofDigitChars 10 (behindPlus s) 0 = n

/-- The first digits behind the optional plus sign are worth more than `most` already. -/
def Exceeds (most : Nat) (s : List Char) : Prop :=
  ∃ ds rest, behindPlus s = ds ++ rest ∧ (∀ c ∈ ds, c.isDigit = true) ∧
    most < Nat.ofDigitChars 10 ds 0

/-- Without a sign and without leading zeros, but for one digit at least. -/
def canonical (s : List Char) : List Char :=
  let ds := (behindPlus s).dropWhile (· = '0')
  if ds = [] then ['0'] else ds

theorem behindPlus_nil : behindPlus [] = [] := rfl

theorem behindPlus_of_ne {s : List Char} (h : ∀ rest, s ≠ '+' :: rest) : behindPlus s = s := by
  cases s with
  | nil => rfl
  | cons c s =>
    unfold behindPlus
    split
    · next heq => exact absurd heq (h _)
    · rfl

section Digits

variable {most n m : Nat} {c : Char} {s : List Char}

theorem readDigits_cons (hc : c.isDigit = true) :
    readDigits most n (c :: s) =
      if 10 * n + (c.toNat - '0'.toNat) ≤ most then
        readDigits most (10 * n + (c.toNat - '0'.toNat)) s
      else .error .tooLarge := by
  rw [readDigits, if_pos hc, Nat.mul_comm]

theorem readDigits_eq_ok (hn : n ≤ most) : readDigits most n s = .ok m ↔
    (∀ c ∈ s, c.isDigit = true) ∧ Nat.ofDigitChars 10 s n = m ∧ m ≤ most := by
  induction s generalizing n with
  | nil =>
    simp only [readDigits, Except.ok.injEq, Nat.ofDigitChars_nil]
    constructor
    · rintro rfl
      exact ⟨by simp, rfl, hn⟩
    · exact fun h => h.2.1
  | cons c s ih =>
    rw [List.forall_mem_cons, Nat.ofDigitChars_cons]
    by_cases hc : c.isDigit = true
    · rw [readDigits_cons hc]
      split
      · next hle => simpa [hc] using ih hle
      · next hgt =>
        -- digits never make a value smaller
        have hmore := le_ofDigitChars s (10 * n + (c.toNat - '0'.toNat))
        simp only [reduceCtorEq, false_iff]
        rintro ⟨-, rfl, hle⟩
        omega
    · simp [readDigits, hc]

theorem readDigits_eq_tooLarge (hn : n ≤ most) : readDigits most n s = .error .tooLarge ↔
    ∃ ds rest, s = ds ++ rest ∧ (∀ c ∈ ds, c.isDigit = true) ∧
      most < Nat.ofDigitChars 10 ds n := by
  induction s generalizing n with
  | nil =>
    simp only [readDigits, reduceCtorEq, false_iff]
    rintro ⟨ds, rest, hsplit, -, hgt⟩
    obtain ⟨rfl, rfl⟩ := List.append_eq_nil_iff.1 hsplit.symm
    exact absurd hn (Nat.not_le.2 hgt)
  | cons c s ih =>
    -- the value that is read so far is in bounds, so a front that exceeds them is not empty
    have hfront : (∃ ds rest, c :: s = ds ++ rest ∧ (∀ c ∈ ds, c.isDigit = true) ∧
        most < Nat.ofDigitChars 10 ds n) ↔
        c.isDigit = true ∧ ∃ ds rest, s = ds ++ rest ∧ (∀ c ∈ ds, c.isDigit = true) ∧
          most < Nat.ofDigitChars 10 ds (10 * n + (c.toNat - '0'.toNat)) := by
      constructor
      · rintro ⟨ds, rest, hsplit, hdigits, hgt⟩
        cases ds with
        | nil => exact absurd hn (Nat.not_le.2 hgt)
        | cons d ds =>
          obtain ⟨rfl, rfl⟩ := List.cons.inj hsplit
          obtain ⟨hd, hds⟩ := List.forall_mem_cons.1 hdigits
          exact ⟨hd, ds, rest, rfl, hds, hgt⟩
      · rintro ⟨hc, ds, rest, rfl, hds, hgt⟩
        exact ⟨c :: ds, rest, rfl, List.forall_mem_cons.2 ⟨hc, hds⟩, hgt⟩
    rw [hfront]
    by_cases hc : c.isDigit = true
    · rw [readDigits_cons hc]
      split
      · next hle => simpa [hc] using ih hle
      · next hgt =>
        simp only [true_iff]
        exact ⟨hc, [], s, rfl, by simp, Nat.not_le.1 hgt⟩
    · simp [readDigits, hc]

theorem readDigits_ne_empty : readDigits most n s ≠ .error .empty := by
  induction s generalizing n with
  | nil => simp [readDigits]
  | cons c s ih =>
    rw [readDigits]
    split
    · dsimp only
      split
      · exact ih
      · simp
    · simp

end Digits

section Decimals

variable {most n m : Nat} {s : List Char}

/-- Where nothing stands behind a sign the text is refused; else its digits decide. -/
theorem readDecimal_eq (s : List Char) (most : Nat) :
    readDecimal most s =
      if s = [] then .error .empty
      else if behindPlus s = [] then .error .invalidDigit
      else readDigits most 0 (behindPlus s) := by
  unfold readDecimal
  split
  · rfl
  · rfl
  · next hrest =>
    simp only [behindPlus, List.cons_ne_nil, if_false]
    rw [if_neg fun hnil => hrest (by rw [hnil])]
  · next hempty _ hplus =>
    have hne : s ≠ [] := hempty
    rw [behindPlus_of_ne hplus, if_neg hne, if_neg hne]

theorem readDecimal_eq_ok :
    readDecimal most s = .ok n ↔ Spells s n ∧ n ≤ most := by
  rw [readDecimal_eq]
  split
  · next h => simp [Spells, h, behindPlus_nil, Digits]
  · split
    · next h => simp [Spells, h, Digits]
    · next h =>
      rw [readDigits_eq_ok (Nat.zero_le most)]
      simp [Spells, Digits, h, and_assoc]

theorem readDecimal_eq_empty : readDecimal most s = .error .empty ↔ s = [] := by
  rw [readDecimal_eq]
  split
  · next h => simp [h]
  · next h =>
    split
    · simp [h]
    · exact iff_of_false readDigits_ne_empty h

theorem readDecimal_eq_tooLarge : readDecimal most s = .error .tooLarge ↔ Exceeds most s := by
  have hnil : behindPlus s = [] → ¬ Exceeds most s := by
    rintro h ⟨ds, rest, hsplit, -, hgt⟩
    obtain ⟨rfl, rfl⟩ := List.append_eq_nil_iff.1 (hsplit.symm.trans h)
    exact absurd hgt (Nat.not_lt.2 (Nat.zero_le most))
  rw [readDecimal_eq]
  split
  · next h => simpa using hnil (h ▸ behindPlus_nil)
  · split
    · next h => simpa using hnil h
    · exact readDigits_eq_tooLarge (Nat.zero_le most)

/-- A bad character is all that is left to be wrong. -/
theorem readDecimal_eq_invalidDigit : readDecimal most s = .error .invalidDigit ↔
    s ≠ [] ∧ ¬ Exceeds most s ∧ ∀ n ≤ most, ¬ Spells s n := by
  have hok : (∀ n ≤ most, ¬ Spells s n) ↔ ∀ n, readDecimal most s ≠ .ok n := by
    simp only [ne_eq, readDecimal_eq_ok, not_and]
    exact forall_congr' fun n => ⟨fun h hn hle => h hle hn, fun h hle hn => h hn hle⟩
  have hempty : s ≠ [] ↔ readDecimal most s ≠ .error .empty := readDecimal_eq_empty.not.symm
  rw [hok, ← readDecimal_eq_tooLarge, hempty]
  cases readDecimal most s with
  | ok n => simp
  | error e => cases e <;> simp

end Decimals

section Canonical

variable {n : Nat} {s ds : List Char}

theorem toDigits_digit {c : Char} (hc : c.isDigit = true) :
    c.toNat - '0'.toNat < 10 ∧ Nat.toDigits 10 (c.toNat - '0'.toNat) = [c] := by
  have hrange : 48 ≤ c.val ∧ c.val ≤ 57 := by simpa [Char.isDigit] using hc
  have hlow : 48 ≤ c.toNat := hrange.1
  have hhigh : c.toNat ≤ 57 := hrange.2
  have hzero : '0'.toNat = 48 := rfl
  have hlt : c.toNat - '0'.toNat < 10 := by omega
  refine ⟨hlt, ?_⟩
  rw [Nat.toDigits_of_lt_base hlt]
  refine congrArg (fun d => [d]) (Char.toNat_inj.1 ?_)
  rw [Nat.toNat_digitChar_of_lt_ten hlt]
  omega

/-- Digits that begin with no zero are those of their value. -/
theorem decimal_ofDigitChars (h : Leading ds) : decimal (Nat.ofDigitChars 10 ds 0) = ds := by
  obtain ⟨⟨hne, hdigits⟩, hhead⟩ := h
  unfold decimal
  induction ds using List.reverseRecOn with
  | nil => exact absurd rfl hne
  | append_singleton front d ih =>
    obtain ⟨hfront, hd⟩ : (∀ c ∈ front, c.isDigit = true) ∧ d.isDigit = true :=
      ⟨fun c hc => hdigits c (List.mem_append_left _ hc), hdigits d (by simp)⟩
    obtain ⟨hlt, hlast⟩ := toDigits_digit hd
    rw [Nat.ofDigitChars_append, Nat.ofDigitChars_cons, Nat.ofDigitChars_nil]
    by_cases hnil : front = []
    · subst hnil
      simpa using hlast
    · rw [List.head?_append_of_ne_nil _ hnil] at hhead
      have hvalue := ih hhead hnil hfront
      have hpos : 0 < Nat.ofDigitChars 10 front 0 := by
        refine Nat.pos_of_ne_zero fun hzero => hhead ?_
        rw [hzero, Nat.toDigits_zero] at hvalue
        rw [← hvalue]
        rfl
      rw [← Nat.toDigits_append_toDigits (by decide) hpos hlt, hvalue, hlast]

theorem ofDigitChars_dropZeros (ds : List Char) :
    Nat.ofDigitChars 10 (ds.dropWhile (· = '0')) 0 = Nat.ofDigitChars 10 ds 0 := by
  induction ds with
  | nil => rfl
  | cons c ds ih =>
    by_cases hc : c = '0'
    · rw [hc, Nat.ofDigitChars_cons]
      simpa using ih
    · simp [hc]

theorem digits_zeros (h : Digits ds) (zeros : Nat) : Digits (List.replicate zeros '0' ++ ds) := by
  refine ⟨fun hnil => h.1 (List.append_eq_nil_iff.1 hnil).2, List.forall_mem_append.2 ⟨?_, h.2⟩⟩
  intro c hc
  rw [List.eq_of_mem_replicate hc]
  rfl

theorem ofDigitChars_zeros (zeros : Nat) :
    Nat.ofDigitChars 10 (List.replicate zeros '0' ++ ds) 0 = Nat.ofDigitChars 10 ds 0 := by
  rw [← ofDigitChars_dropZeros, List.dropWhile_append_of_pos (by simp +contextual),
    ofDigitChars_dropZeros]

theorem behindPlus_signed (hsign : s = [] ∨ s = ['+']) (h : Digits ds) :
    behindPlus (s ++ ds) = ds := by
  rcases hsign with rfl | rfl
  · refine behindPlus_of_ne fun rest heq => absurd (h.2 '+' ?_) (by decide)
    rw [show ds = '+' :: rest from heq]
    exact List.mem_cons_self
  · rfl

/-- Zeros in front of the digits say nothing, behind a sign or without one. -/
theorem spells_zeros (hsign : s = [] ∨ s = ['+']) (h : Digits ds) (zeros : Nat) :
    Spells (s ++ (List.replicate zeros '0' ++ ds)) n ↔ Spells (s ++ ds) n := by
  have hzeros := digits_zeros h zeros
  simp only [Spells, behindPlus_signed hsign h, behindPlus_signed hsign hzeros,
    ofDigitChars_zeros, hzeros, h]

/-- Of all spellings of a number the canonical one is shown. -/
theorem Spells.decimal_eq (h : Spells s n) : decimal n = canonical s := by
  obtain ⟨⟨-, hdigits⟩, rfl⟩ := h
  rw [← ofDigitChars_dropZeros, canonical]
  split
  · next hnil => rw [hnil]; rfl
  · next hne =>
    refine decimal_ofDigitChars ⟨⟨hne, fun c hc => hdigits c ?_⟩, fun hzero => ?_⟩
    · exact (List.dropWhile_sublist _).subset hc
    · have hhead := List.head?_dropWhile_not (· = '0') (behindPlus s)
      rw [hzero] at hhead
      simp at hhead

/-- What is shown of a number spells it. -/
theorem spells_decimal (n : Nat) : Spells (decimal n) n := by
  have hdigits := decimal_digits n
  have hsign : ∀ rest, decimal n ≠ '+' :: rest := fun rest heq =>
    absurd (hdigits.2 '+' (by simp [heq])) (by decide)
  unfold Spells
  rw [behindPlus_of_ne hsign]
  exact ⟨hdigits, Nat.ofDigitChars_ten_toDigits⟩

/-- A number is read as it is shown. -/
theorem readDecimal_decimal {most : Nat} (h : n ≤ most) : readDecimal most (decimal n) = .ok n :=
  readDecimal_eq_ok.2 ⟨spells_decimal n, h⟩

end Canonical

end ScriptHost.Text
