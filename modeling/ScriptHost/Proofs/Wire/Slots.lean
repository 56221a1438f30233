import ScriptHost.Proofs.Wire.Agreement

/-! What the entries of a record, be they members of a text or of a value, give for its fields. An
entry fills the slot of the field of its name, which no other may do again; one that is no field says
nothing. So a field has what the only entry under its name gives, or else what stands for its absence. -/

namespace ScriptHost

def under [DecidableEq κ] (key : κ) (ms : List (κ × ν)) : List (κ × ν) :=
  ms.filter fun m => m.1 = key

/-- The slot of a key before and behind some entries. An entry of that key fills it, and no other of
that key may follow. -/
inductive Filled (key : κ) (gives : ν → α → Prop) :
    List (κ × ν) → Option α → Option α → Prop where
  | nil : Filled key gives [] slot slot
  | other (hkey : k ≠ key) (h : Filled key gives ms slot slot') :
      Filled key gives ((k, v) :: ms) slot slot'
  | own (hv : gives v a) (h : Filled key gives ms (some a) slot') :
      Filled key gives ((key, v) :: ms) none slot'

section Under

variable [DecidableEq κ] {key k : κ} {ms ns : List (κ × ν)} {v : ν}

@[simp] theorem under_cons_self : under key ((key, v) :: ms) = (key, v) :: under key ms := by
  simp [under]

theorem under_cons_of_ne (h : k ≠ key) : under key ((k, v) :: ms) = under key ms := by
  simp [under, h]

@[simp] theorem under_append : under key (ms ++ ns) = under key ms ++ under key ns :=
  List.filter_append ..

theorem mem_of_under (h : under key ms = [(key, v)]) : (key, v) ∈ ms :=
  (List.mem_filter.1 (h ▸ List.mem_singleton_self _ : (key, v) ∈ under key ms)).1

theorem under_eq_nil : under key ms = [] ↔ key ∉ ms.map Prod.fst := by
  rw [under, List.filter_eq_nil_iff, List.mem_map, not_exists]
  exact forall_congr' fun m => by simp

theorem length_under [BEq κ] [LawfulBEq κ] :
    (under key ms).length = (ms.map Prod.fst).count key := by
  rw [under, List.count_eq_countP, List.countP_map, List.countP_eq_length_filter]
  refine congrArg List.length (List.filter_congr fun m _ => ?_)
  exact (beq_eq_decide m.1 key).symm

theorem lookup_eq_head?_under [BEq κ] [LawfulBEq κ] :
    ms.lookup key = (under key ms).head?.map Prod.snd := by
  induction ms with
  | nil => rfl
  | cons m ms ih =>
    obtain ⟨k, v⟩ := m
    rw [lookup_cons_eq_ite]
    by_cases hk : k = key
    · subst hk
      simp
    · rw [if_neg (Ne.symm hk), under_cons_of_ne hk, ih]

/-- Under a key that is not repeated stands what is found there. -/
theorem under_of_nodup [BEq κ] [LawfulBEq κ] (h : (ms.map Prod.fst).Nodup) :
    under key ms = ((ms.lookup key).map (Prod.mk key)).toList := by
  induction ms with
  | nil => rfl
  | cons m ms ih =>
    obtain ⟨k, v⟩ := m
    obtain ⟨hk, hms⟩ := List.nodup_cons.1 h
    rw [lookup_cons_eq_ite]
    by_cases heq : k = key
    · subst heq
      rw [if_pos rfl, under_cons_self, under_eq_nil.2 hk]
      rfl
    · rw [if_neg (Ne.symm heq), under_cons_of_ne heq, ih hms]

end Under

namespace Filled

variable {key : κ} {gives : ν → α → Prop} {ms ns : List (κ × ν)} {slot slot₁ slot' : Option α}
  {a : α}

theorem append (h : Filled key gives ms slot slot₁) (h' : Filled key gives ns slot₁ slot') :
    Filled key gives (ms ++ ns) slot slot' := by
  induction h with
  | nil => exact h'
  | other hkey _ ih => exact .other hkey (ih h')
  | own hv _ ih => exact .own hv (ih h')

theorem exists_of_cons {m : κ × ν} (h : Filled key gives (m :: ms) slot slot') :
    ∃ slot₁, Filled key gives [m] slot slot₁ ∧ Filled key gives ms slot₁ slot' := by
  cases h with
  | other hkey h => exact ⟨_, .other hkey .nil, h⟩
  | own hv h => exact ⟨_, .own hv .nil, h⟩

/-- An entry of another key says nothing. -/
theorem other_iff {k : κ} {v : ν} (hk : k ≠ key) :
    Filled key gives [(k, v)] slot slot' ↔ slot' = slot := by
  constructor
  · intro h
    cases h with
    | other _ h =>
      cases h
      rfl
    | own => exact absurd rfl hk
  · rintro rfl
    exact .other hk .nil

/-- An entry of the key fills a slot that is empty. -/
theorem own_iff {v : ν} : Filled key gives [(key, v)] slot slot' ↔
    slot = none ∧ ∃ a, gives v a ∧ slot' = some a := by
  constructor
  · intro h
    cases h with
    | other hne => exact absurd rfl hne
    | own hv h =>
      cases h
      exact ⟨rfl, _, hv, rfl⟩
  · rintro ⟨rfl, a, hv, rfl⟩
    exact .own hv .nil

variable [DecidableEq κ]

/-- A slot that is full stays as it is, and no entry stands under its key. -/
theorem some_iff : Filled key gives ms (some a) slot ↔ under key ms = [] ∧ slot = some a := by
  induction ms with
  | nil =>
    constructor
    · rintro ⟨⟩
      exact ⟨rfl, rfl⟩
    · rintro ⟨-, rfl⟩
      exact .nil
  | cons m ms ih =>
    obtain ⟨k, v⟩ := m
    by_cases hk : k = key
    · subst hk
      refine iff_of_false (fun h => ?_) (by simp)
      cases h with
      | other hne => exact hne rfl
    · rw [under_cons_of_ne hk, ← ih]
      constructor
      · intro h
        cases h with
        | other _ h => exact h
      · exact .other hk

/-- A slot is filled by the only entry under its key, or it stays empty. -/
theorem none_iff : Filled key gives ms none slot ↔ (under key ms = [] ∧ slot = none) ∨
    ∃ v a, under key ms = [(key, v)] ∧ gives v a ∧ slot = some a := by
  induction ms with
  | nil =>
    constructor
    · rintro ⟨⟩
      exact .inl ⟨rfl, rfl⟩
    · rintro (⟨-, rfl⟩ | ⟨v, a, hkey, -⟩)
      · exact .nil
      · cases hkey
  | cons m ms ih =>
    obtain ⟨k, v⟩ := m
    by_cases hk : k = key
    · subst hk
      simp only [under_cons_self, List.cons_ne_nil, false_and, false_or, List.cons.injEq,
        Prod.mk.injEq, true_and]
      constructor
      · intro h
        cases h with
        | other hne => exact absurd rfl hne
        | own hv h =>
          obtain ⟨hrest, hslot⟩ := some_iff.1 h
          exact ⟨v, _, ⟨rfl, hrest⟩, hv, hslot⟩
      · rintro ⟨v, a, ⟨rfl, hrest⟩, hv, hslot⟩
        exact .own hv (some_iff.2 ⟨hrest, hslot⟩)
    · rw [under_cons_of_ne hk, ← ih]
      constructor
      · intro h
        cases h with
        | other _ h => exact h
        | own => exact absurd rfl hk
      · exact .other hk

end Filled

section Fields

variable {κ ν : Type} (key : String → κ) (gives : ⦃α : Type⦄ → Wire α → ν → α → Prop)
  (ms : List (κ × ν))

namespace Fields

def names : Fields β σ → List String
  | .nil => []
  | .cons f rest => f.name :: rest.names

def Filled : Fields β σ → σ → σ → Prop
  | .nil, _, _ => True
  | .cons f rest, (slot, slots), (slot', slots') =>
    ScriptHost.Filled (key f.name) (gives f.wire) ms slot slot' ∧ rest.Filled slots slots'

end Fields

variable [DecidableEq κ]

def Field.Given (f : Field α) (a : α) : Prop :=
  (under (key f.name) ms = [] ∧ f.absent = some a) ∨
    ∃ v, under (key f.name) ms = [(key f.name, v)] ∧ gives f.wire v a

def Fields.Given : Fields β σ → β → Prop
  | .nil, _ => True
  | .cons f rest, (a, b) => f.Given key gives ms a ∧ rest.Given b

end Fields

section Laws

variable {κ ν : Type} {key : String → κ} {gives : ⦃α : Type⦄ → Wire α → ν → α → Prop}
  {ms ns : List (κ × ν)}

namespace Fields

theorem Filled.refl (fields : Fields β σ) (slots : σ) : fields.Filled key gives [] slots slots := by
  induction fields with
  | nil => trivial
  | cons f fields ih => exact ⟨.nil, ih slots.2⟩

theorem Filled.eq_of_nil {fields : Fields β σ} {slots slots' : σ}
    (h : fields.Filled key gives [] slots slots') : slots' = slots := by
  induction fields with
  | nil => rfl
  | cons f fields ih =>
    obtain ⟨slot, slots⟩ := slots
    obtain ⟨slot', slots'⟩ := slots'
    obtain ⟨hslot, hslots⟩ := h
    cases hslot with
    | nil => rw [ih hslots]

theorem Filled.exists_of_cons {fields : Fields β σ} {slots slots' : σ} {m : κ × ν}
    (h : fields.Filled key gives (m :: ms) slots slots') :
    ∃ slots₁, fields.Filled key gives [m] slots slots₁ ∧
      fields.Filled key gives ms slots₁ slots' := by
  induction fields with
  | nil => exact ⟨(), trivial, trivial⟩
  | cons f fields ih =>
    obtain ⟨slot₁, hfirst, hrest⟩ := h.1.exists_of_cons
    obtain ⟨slots₁, hothers, hothersRest⟩ := ih h.2
    exact ⟨(slot₁, slots₁), ⟨hfirst, hothers⟩, hrest, hothersRest⟩

theorem Filled.append {fields : Fields β σ} {slots slots₁ slots' : σ}
    (h : fields.Filled key gives ms slots slots₁) (h' : fields.Filled key gives ns slots₁ slots') :
    fields.Filled key gives (ms ++ ns) slots slots' := by
  induction fields with
  | nil => trivial
  | cons f fields ih => exact ⟨h.1.append h'.1, ih h.2 h'.2⟩

/-- An entry that is no field says nothing. -/
theorem filled_cons_iff {fields : Fields β σ} {slots slots' : σ} {name : String} {v : ν}
    (hkey : Function.Injective key) (hname : name ∉ fields.names) :
    fields.Filled key gives ((key name, v) :: ms) slots slots' ↔
      fields.Filled key gives ms slots slots' := by
  induction fields with
  | nil => exact Iff.rfl
  | cons f fields ih =>
    obtain ⟨slot, slots⟩ := slots
    obtain ⟨slot', slots'⟩ := slots'
    rw [names, List.mem_cons, not_or] at hname
    refine and_congr ⟨fun h => ?_, fun h => .other (fun heq => hname.1 (hkey heq)) h⟩ (ih hname.2)
    generalize hk : key name = k at h
    cases h with
    | other _ h => exact h
    | own => exact absurd (hkey hk) hname.1

end Fields

variable [DecidableEq κ]

theorem Field.given_iff {f : Field α} {a : α} : f.Given key gives ms a ↔
    ∃ slot, Filled (key f.name) (gives f.wire) ms none slot ∧ (slot <|> f.absent) = some a := by
  constructor
  · rintro (⟨hnil, habsent⟩ | ⟨v, hv, ha⟩)
    · exact ⟨none, Filled.none_iff.2 (.inl ⟨hnil, rfl⟩), habsent⟩
    · exact ⟨some a, Filled.none_iff.2 (.inr ⟨v, a, hv, ha, rfl⟩), rfl⟩
  · rintro ⟨slot, hslot, ha⟩
    rcases Filled.none_iff.1 hslot with ⟨hnil, rfl⟩ | ⟨v, a', hv, hgives, rfl⟩
    · exact .inl ⟨hnil, ha⟩
    · cases ha
      exact .inr ⟨v, hv, hgives⟩

/-- A field has what is found under its name, unless that is absent. -/
theorem Field.Given.lookup [BEq κ] [LawfulBEq κ] {f : Field α} {a : α} (h : f.Given key gives ms a) :
    f.absent = some a ∨ ∃ v, ms.lookup (key f.name) = some v ∧ gives f.wire v a := by
  rcases h with ⟨-, habsent⟩ | ⟨v, hv, ha⟩
  · exact .inl habsent
  · exact .inr ⟨v, by rw [lookup_eq_head?_under, hv]; rfl, ha⟩

theorem Field.given_own_iff {f : Field α} {v : ν} {a : α} :
    f.Given key gives (ms ++ (key f.name, v) :: ns) a ↔
      under (key f.name) (ms ++ ns) = [] ∧ gives f.wire v a := by
  simp [Field.Given, List.append_eq_singleton_iff, and_assoc]

theorem Field.Given.required {f : Field α} {a : α} (h : f.Given key gives ms a)
    (hf : f.absent = none) :
    ∃ v, under (key f.name) ms = [(key f.name, v)] ∧ gives f.wire v a := by
  rcases h with ⟨-, habsent⟩ | hv
  · cases hf.symm.trans habsent
  · exact hv

namespace Fields

/-- A record has what its entries give exactly if they fill the slots that it is made of. -/
theorem given_iff {fields : Fields β σ} {b : β} : fields.Given key gives ms b ↔
    ∃ slots, fields.Filled key gives ms fields.blank slots ∧ fields.finish slots = .ok b := by
  induction fields with
  | nil => exact ⟨fun _ => ⟨(), trivial, rfl⟩, fun _ => trivial⟩
  | cons f fields ih =>
    obtain ⟨a, b⟩ := b
    rw [Given, Field.given_iff, ih]
    constructor
    · rintro ⟨⟨slot, hslot, ha⟩, slots, hslots, hb⟩
      refine ⟨(slot, slots), ⟨hslot, hslots⟩, ?_⟩
      simp [finish, ha, hb, bind, Except.bind, pure, Except.pure]
    · rintro ⟨⟨slot, slots⟩, ⟨hslot, hslots⟩, h⟩
      rw [finish] at h
      split at h
      · cases h
      · next ha =>
        obtain ⟨_, hb, h⟩ := bind_eq_ok.1 h
        cases h
        exact ⟨⟨slot, hslot, ha⟩, slots, hslots, hb⟩

/-- No field is given twice. -/
theorem Given.length_under_le {fields : Fields β σ} {b : β} (h : fields.Given key gives ms b) :
    ∀ name ∈ fields.names, (under (key name) ms).length ≤ 1 := by
  induction fields with
  | nil => exact nofun
  | cons f fields ih =>
    refine List.forall_mem_cons.2 ⟨?_, ih h.2⟩
    rcases h.1 with ⟨hnil, -⟩ | ⟨v, hv, -⟩
    · simp [hnil]
    · simp [hv]

/-- Only what stands under the names of the fields counts. -/
theorem given_congr {fields : Fields β σ} {b : β}
    (h : ∀ name ∈ fields.names, under (key name) ms = under (key name) ns) :
    fields.Given key gives ms b ↔ fields.Given key gives ns b := by
  induction fields with
  | nil => exact Iff.rfl
  | cons f fields ih =>
    obtain ⟨hname, hnames⟩ := List.forall_mem_cons.1 h
    rw [Given, Given, ih hnames, Field.Given, Field.Given, hname]

end Fields
end Laws
end ScriptHost
