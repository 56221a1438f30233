import Mathlib.Data.List.Count
import Mathlib.Data.List.Forall2
import Mathlib.Data.Option.Basic
import Mathlib.Tactic.NormNum
import Mathlib.Algebra.Order.Field.Rat
import ScriptHost.Proofs.Json.Printing
import ScriptHost.Proofs.Json.Soundness

/-! What a value says after it was read and printed again: the same, except for the numbers that the
value does not hold exactly. -/

namespace ScriptHost.Json

def Numeral.exact (x : Numeral) : Rat :=
  let fraction := x.fraction.getD []
  let written : Int := match x.exponent with
    | none => 0
    | some (negative, ds) => if negative then -Nat.ofDigitChars 10 ds 0 else Nat.ofDigitChars 10 ds 0
  let magnitude : Rat :=
    Nat.ofDigitChars 10 (x.whole ++ fraction) 0 * (10 : Rat) ^ (written - fraction.length)
  if x.negative then -magnitude else magnitude

def occurrences (name : List Nat) (ms : List (List Nat × Tree)) : Nat :=
  (ms.map Prod.fst).count name

/-- The same JSON value: numbers by what they denote, members by their names. Of a name that is
repeated nothing is asked. -/
inductive Same : Tree → Tree → Prop where
  | null : Same .null .null
  | bool : Same (.bool b) (.bool b)
  | number (h : x.exact = y.exact) : Same (.number x) (.number y)
  | string : Same (.string us) (.string us)
  | array (h : List.Forall₂ Same vs ws) : Same (.array vs) (.array ws)
  | object (h : ∀ name, occurrences name ms ≤ 1 →
      Option.Rel Same (ms.lookup name) (ns.lookup name)) : Same (.object ms) (.object ns)

/-- A numeral of the tree that stands under no repeated name. -/
inductive Shows (x : Numeral) : Tree → Prop where
  | here : Shows x (.number x)
  | item (hv : v ∈ vs) (h : Shows x v) : Shows x (.array vs)
  | member (hm : (name, v) ∈ ms) (hone : occurrences name ms ≤ 1) (h : Shows x v) :
      Shows x (.object ms)

/-- The numeral's number is printed as a numeral of the same value. -/
def Numeral.Kept (x : Numeral) : Prop := ∃ n, x.value = .ok n ∧ n.numeral.exact = x.exact

/-- The tree and what is printed of the value agree if all numerals are kept, and only then. -/
def Echoes (v : Tree) (j : Json) : Prop := Same v j.tree ↔ ∀ x, Shows x v → x.Kept

theorem lookup_eq_none_of_notMem [BEq α] [LawfulBEq α] {name : α} {members : List (α × β)}
    (h : name ∉ members.map Prod.fst) : members.lookup name = none := by
  refine List.lookup_eq_none_iff.2 fun member hmember => bne_iff_ne.2 fun heq => h ?_
  exact List.mem_map.2 ⟨member, hmember, heq.symm⟩

theorem mem_of_lookup_eq_some [BEq α] [LawfulBEq α] {name : α} {members : List (α × β)} {b : β}
    (h : members.lookup name = some b) : (name, b) ∈ members := by
  obtain ⟨before, after, rfl, -⟩ := List.lookup_eq_some_iff.1 h
  simp

/-- A name that stands once is looked up where it stands. -/
theorem lookup_of_mem {name : List Nat} {ms : List (List Nat × Tree)} {v : Tree}
    (hm : (name, v) ∈ ms) (hone : occurrences name ms ≤ 1) : ms.lookup name = some v := by
  obtain ⟨before, after, rfl⟩ := List.append_of_mem hm
  have hbefore : name ∉ before.map Prod.fst := by
    rw [occurrences, List.map_append, List.map_cons, List.count_append, List.count_cons_self] at hone
    exact List.count_eq_zero.1 (by omega)
  refine List.lookup_eq_some_iff.2 ⟨before, after, rfl, fun member hmember => ?_⟩
  exact bne_iff_ne.2 fun heq => hbefore (List.mem_map.2 ⟨member, hmember, heq.symm⟩)

theorem treeItems_eq_map (js : List Json) : treeItems js = js.map tree := by
  induction js with
  | nil => rfl
  | cons j js ih => rw [treeItems, ih, List.map_cons]

theorem lookup_treeMembers (members : List (String × Json)) (name : String) :
    (treeMembers members).lookup (units name.toList) = (members.lookup name).map tree := by
  induction members with
  | nil => rfl
  | cons member members ih =>
    obtain ⟨key, j⟩ := member
    rw [treeMembers, lookup_cons_eq_ite, lookup_cons_eq_ite, ih]
    by_cases hkey : name = key
    · simp [hkey]
    · have hunits : units name.toList ≠ units key.toList :=
        fun h => hkey (units_toList_injective h)
      simp [hkey, hunits]

/-- A name that stands once has its value among the sorted members too. -/
theorem lookup_foldl_put {members : List (String × Json)} {name : String}
    (hone : (members.map Prod.fst).count name ≤ 1) (acc : List (String × Json)) :
    (members.foldl (fun acc kv => put acc kv.1 kv.2) acc).lookup name =
      (members.lookup name <|> acc.lookup name) := by
  induction members generalizing acc with
  | nil => simp
  | cons member members ih =>
    obtain ⟨key, j⟩ := member
    rw [List.foldl_cons]
    by_cases hkey : key = name
    · subst hkey
      have hrest : (members.map Prod.fst).count key = 0 := by simpa using hone
      have hnone : members.lookup key = none := lookup_eq_none_of_notMem (List.count_eq_zero.1 hrest)
      rw [ih (by omega), hnone, lookup_put, lookup_cons_eq_ite]
      simp
    · have hrest : (members.map Prod.fst).count name ≤ 1 := by simpa [hkey] using hone
      rw [ih hrest, lookup_put, lookup_cons_eq_ite]
      simp [Ne.symm hkey]

section Objects

variable {ms : List (List Nat × Tree)} {members : List (String × Json)}

/-- The members as a reader has them. -/
def Aligned (ms : List (List Nat × Tree)) (members : List (String × Json)) : Prop :=
  List.Forall₂ (fun m n => m.1 = units n.1.toList ∧ Echoes m.2 n.2) ms members

theorem Aligned.occurrences (h : Aligned ms members) (name : String) :
    occurrences (units name.toList) ms = (members.map Prod.fst).count name := by
  have hkeys : ms.map Prod.fst = (members.map Prod.fst).map fun name => units name.toList := by
    induction h with
    | nil => rfl
    | cons hm _ ih => rw [List.map_cons, ih, hm.1]; rfl
  rw [Json.occurrences, hkeys]
  exact List.count_map_of_injective _ _ units_toList_injective name

theorem Aligned.lookup (h : Aligned ms members) (name : String) :
    (ms.lookup (units name.toList) = none ∧ members.lookup name = none) ∨
      ∃ v j, ms.lookup (units name.toList) = some v ∧ members.lookup name = some j ∧
        Echoes v j := by
  induction h with
  | nil => exact .inl ⟨rfl, rfl⟩
  | @cons m n ms members hm _ ih =>
    obtain ⟨us, v⟩ := m
    obtain ⟨key, j⟩ := n
    obtain ⟨rfl, hv⟩ : us = units key.toList ∧ Echoes v j := hm
    rw [lookup_cons_eq_ite, lookup_cons_eq_ite]
    by_cases hkey : name = key
    · exact .inr ⟨v, j, by simp [hkey], by simp [hkey], hv⟩
    · have hunits : units name.toList ≠ units key.toList :=
        fun h => hkey (units_toList_injective h)
      simpa [hkey, hunits] using ih

theorem Aligned.exists_name (h : Aligned ms members) {m : List Nat × Tree} (hm : m ∈ ms) :
    ∃ name : String, m.1 = units name.toList := by
  induction h with
  | nil => cases hm
  | @cons _ n _ _ hm' _ ih =>
    rcases List.mem_cons.1 hm with rfl | hm
    · exact ⟨n.1, hm'.1⟩
    · exact ih hm

theorem Aligned.lookup_sorted (h : Aligned ms members) {name : String}
    (hone : Json.occurrences (units name.toList) ms ≤ 1) :
    (treeMembers (members.foldl (fun acc kv => put acc kv.1 kv.2) [])).lookup (units name.toList) =
      (members.lookup name).map tree := by
  rw [h.occurrences] at hone
  rw [lookup_treeMembers, lookup_foldl_put hone]
  simp

theorem lookup_treeMembers_eq_none {key : List Nat} (hkey : ∀ name : String, key ≠ units name.toList)
    (members : List (String × Json)) : (treeMembers members).lookup key = none := by
  induction members with
  | nil => rfl
  | cons member members ih =>
    obtain ⟨name, j⟩ := member
    rw [treeMembers, lookup_cons_eq_ite, if_neg (hkey name), ih]

theorem Aligned.echoes (h : Aligned ms members) : Echoes (.object ms) (ofMembers members) := by
  rw [Echoes, ofMembers, tree]
  constructor
  · intro hsame x hx
    cases hsame with
    | object hsame =>
      cases hx with
      | @member key v _ hm hone hx =>
        obtain ⟨name, rfl⟩ := h.exists_name hm
        have hrel := hsame _ hone
        have hfound := lookup_of_mem hm hone
        obtain ⟨hv, -⟩ | ⟨v', j, hv, hj, hecho⟩ := h.lookup name
        · cases hfound.symm.trans hv
        · cases hfound.symm.trans hv
          rw [h.lookup_sorted hone, hfound, hj] at hrel
          cases hrel with
          | some hsame => exact hecho.1 hsame x hx
  · intro hkept
    refine .object fun key hone => ?_
    by_cases hkey : ∃ name : String, key = units name.toList
    · obtain ⟨name, rfl⟩ := hkey
      rw [h.lookup_sorted hone]
      obtain ⟨hv, hj⟩ | ⟨v, j, hv, hj, hecho⟩ := h.lookup name
      · rw [hv, hj]
        exact .none
      · rw [hv, hj]
        refine .some (hecho.2 fun x hx => hkept x ?_)
        exact .member (mem_of_lookup_eq_some hv) hone hx
    · -- no reader has such a name, so it stands on neither side
      have hms : ms.lookup key = none := by
        refine lookup_eq_none_of_notMem fun hmem => ?_
        obtain ⟨m, hm, rfl⟩ := List.mem_map.1 hmem
        exact hkey (h.exists_name hm)
      rw [hms, lookup_treeMembers_eq_none (not_exists.1 hkey)]
      exact .none

theorem forall₂_same_iff {vs : List Tree} {js : List Json} (h : List.Forall₂ Echoes vs js) :
    List.Forall₂ Same vs (js.map tree) ↔ ∀ v ∈ vs, ∀ x, Shows x v → x.Kept := by
  induction h with
  | nil => simp
  | cons hv _ ih =>
    have hv : Same _ _ ↔ _ := hv
    rw [List.map_cons, List.forall₂_cons, hv, ih, List.forall_mem_cons]

theorem echoes_array {vs : List Tree} {js : List Json} (h : List.Forall₂ Echoes vs js) :
    Echoes (.array vs) (.array js) := by
  rw [Echoes, tree, treeItems_eq_map]
  constructor
  · intro hsame x hx
    cases hsame with
    | array hsame =>
      cases hx with
      | item hv hx => exact (forall₂_same_iff h).1 hsame _ hv x hx
  · intro hkept
    exact .array ((forall₂_same_iff h).2 fun v hv x hx => hkept x (.item hv hx))

theorem echoes_number {x : Numeral} {n : Number} (hn : x.value = .ok n) :
    Echoes (.number x) (.number n) := by
  constructor
  · intro hsame y hy
    cases hsame with
    | number heq =>
      cases hy
      exact ⟨n, hn, heq.symm⟩
  · intro hkept
    obtain ⟨n', hn', heq⟩ := hkept x .here
    cases hn.symm.trans hn'
    exact .number heq.symm

theorem echoes_of_same {v : Tree} {j : Json} (hsame : Same v j.tree) (hno : ∀ x, ¬ Shows x v) :
    Echoes v j :=
  ⟨fun _ x hx => absurd hx (hno x), fun _ => hsame⟩

mutual

/-- A value that was read is printed as it was, as far as its numerals are kept. -/
theorem Holds.echoes {v : Tree} {j : Json} (h : Holds v j) : Echoes v j := by
  cases h with
  | null => exact echoes_of_same .null nofun
  | bool => exact echoes_of_same .bool nofun
  | number hn => exact echoes_number hn
  | string hus =>
    subst hus
    exact echoes_of_same .string nofun
  | array hjs => exact echoes_array hjs.echoes
  | object hmembers hj =>
    subst hj
    exact hmembers.aligned.echoes

theorem HoldItems.echoes {vs : List Tree} {js : List Json} (h : HoldItems vs js) :
    List.Forall₂ Echoes vs js := by
  cases h with
  | nil => exact .nil
  | cons hv hvs => exact .cons hv.echoes hvs.echoes

theorem HoldMembers.aligned {ms : List (List Nat × Tree)} {members : List (String × Json)}
    (h : HoldMembers ms members) : Aligned ms members := by
  cases h with
  | nil => exact .nil
  | cons hname hv hms => exact .cons ⟨hname, hv.echoes⟩ hms.aligned

end

end Objects

section Integers

def Numeral.Fits (x : Numeral) : Prop :=
  x.fraction = none ∧ x.exponent = none ∧ (-0x8000000000000000 : Rat) ≤ x.exact ∧
    x.exact < (0x10000000000000000 : Rat)

theorem le_ofDigitChars (ds : List Char) (n : Nat) : n ≤ Nat.ofDigitChars 10 ds n := by
  induction ds generalizing n with
  | nil => exact le_rfl
  | cons c ds ih =>
    rw [Nat.ofDigitChars_cons]
    have hle := ih (10 * n + (c.toNat - '0'.toNat))
    omega

/-- Digits whose value stays in bounds are absorbed whole. -/
theorem absorb_eq {most n : Nat} {ds : List Char} (h : Nat.ofDigitChars 10 ds n ≤ most) :
    absorb most n ds = (Nat.ofDigitChars 10 ds n, []) := by
  induction ds generalizing n with
  | nil => rfl
  | cons c ds ih =>
    have hnext : n * 10 + digitValue c = 10 * n + (c.toNat - '0'.toNat) := by
      rw [digitValue]
      omega
    rw [Nat.ofDigitChars_cons] at h ⊢
    have hle := le_ofDigitChars ds (10 * n + (c.toNat - '0'.toNat))
    rw [absorb, hnext, if_pos (hle.trans h), ih h]

theorem Numeral.exact_of_whole {x : Numeral} (hfraction : x.fraction = none)
    (hexponent : x.exponent = none) :
    x.exact = if x.negative then -(Nat.ofDigitChars 10 x.whole 0 : Rat)
      else Nat.ofDigitChars 10 x.whole 0 := by
  simp [Numeral.exact, hfraction, hexponent]

theorem exact_integer (i : Int) : (Number.numeral (.integer i)).exact = i := by
  have hdigits : Nat.ofDigitChars 10 (Text.decimal i.natAbs) 0 = i.natAbs :=
    Nat.ofDigitChars_ten_toDigits
  rw [Numeral.exact_of_whole rfl rfl]
  simp only [Number.numeral, hdigits, decide_eq_true_eq]
  split
  · have hcast : ((i.natAbs : Int) : Rat) = ((-i : Int) : Rat) := by
      congr 1
      omega
    simpa [neg_eq_iff_eq_neg] using hcast
  · have hcast : ((i.natAbs : Int) : Rat) = i := by
      congr 1
      omega
    simpa using hcast

/-- Digits of a whole number are valued at once where they fit. -/
theorem Numeral.value_of_whole {x : Numeral} (hfraction : x.fraction = none)
    (hexponent : x.exponent = none)
    (hbound : Nat.ofDigitChars 10 x.whole 0 ≤ UInt64.size - 1) :
    x.value =
      if !x.negative then .ok (.integer (Nat.ofDigitChars 10 x.whole 0))
      else if 0 < Nat.ofDigitChars 10 x.whole 0 ∧
          Nat.ofDigitChars 10 x.whole 0 ≤ 0x8000000000000000 then
        .ok (.integer (-Nat.ofDigitChars 10 x.whole 0))
      else match scaled? (Nat.ofDigitChars 10 x.whole 0) 0 with
        | some y => .ok (.real (Binary64.signed x.negative y))
        | none => .error 0 := by
  have hread : absorb 0xFFFFFFFFFFFFFFFF 0 x.whole = (Nat.ofDigitChars 10 x.whole 0, []) :=
    absorb_eq hbound
  cases hscaled : scaled? (Nat.ofDigitChars 10 x.whole 0) 0 <;>
    simp [Numeral.value, hread, hfraction, hexponent, hscaled]

theorem Numeral.kept_of_integer {x : Numeral} {i : Int} (hvalue : x.value = .ok (.integer i))
    (hexact : x.exact = i) : x.Kept :=
  ⟨.integer i, hvalue, (exact_integer i).trans hexact.symm⟩

/-- A zero with a sign is no integer, yet it is printed as a zero. -/
theorem Numeral.kept_of_negative_zero {x : Numeral} (hfraction : x.fraction = none)
    (hexponent : x.exponent = none) (hnegative : x.negative = true)
    (hzero : Nat.ofDigitChars 10 x.whole 0 = 0) : x.Kept := by
  have hscaled : scaled? 0 0 = some Binary64.zero := by decide +kernel
  have hnumeral : (Number.real (Binary64.signed true Binary64.zero)).numeral =
      ⟨true, ['0'], some ['0'], none⟩ := rfl
  refine ⟨.real (Binary64.signed true Binary64.zero), ?_, ?_⟩
  · rw [Numeral.value_of_whole hfraction hexponent (by rw [hzero]; decide), hnegative, hzero, hscaled]
    rfl
  · rw [Numeral.exact_of_whole hfraction hexponent, hzero, hnumeral]
    simp [Numeral.exact, Nat.ofDigitChars]

theorem Numeral.Fits.kept {x : Numeral} (h : x.Fits) : x.Kept := by
  obtain ⟨hfraction, hexponent, hlow, hhigh⟩ := h
  have hexact := Numeral.exact_of_whole hfraction hexponent
  rw [hexact] at hlow hhigh
  cases hnegative : x.negative with
  | false =>
    simp only [hnegative, Bool.false_eq_true, if_false] at hexact hhigh
    have hbound : Nat.ofDigitChars 10 x.whole 0 ≤ UInt64.size - 1 := by
      have hlt : Nat.ofDigitChars 10 x.whole 0 < 0x10000000000000000 := by exact_mod_cast hhigh
      have hsize : UInt64.size = 0x10000000000000000 := rfl
      omega
    refine Numeral.kept_of_integer (i := Nat.ofDigitChars 10 x.whole 0) ?_ (by simp [hexact])
    rw [Numeral.value_of_whole hfraction hexponent hbound, hnegative]
    rfl
  | true =>
    simp only [hnegative, if_true] at hexact hlow
    have hbound : Nat.ofDigitChars 10 x.whole 0 ≤ 0x8000000000000000 := by
      have hle : (Nat.ofDigitChars 10 x.whole 0 : Rat) ≤ 0x8000000000000000 := by
        simpa using hlow
      exact_mod_cast hle
    by_cases hzero : Nat.ofDigitChars 10 x.whole 0 = 0
    · exact Numeral.kept_of_negative_zero hfraction hexponent hnegative hzero
    · refine Numeral.kept_of_integer (i := -Nat.ofDigitChars 10 x.whole 0) ?_ (by simp [hexact])
      rw [Numeral.value_of_whole hfraction hexponent (hbound.trans (by decide)), hnegative,
        if_neg (by simp), if_pos ⟨Nat.pos_of_ne_zero hzero, hbound⟩]

end Integers

end ScriptHost.Json
