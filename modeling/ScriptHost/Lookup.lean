/-! Lists of entries. Where they stand under keys the first entry of a key counts: what a lookup finds
behind a new entry, and among the entries whose keys pass a test. Where they are a history the last
entry is the newest. -/

namespace ScriptHost

theorem lookup_cons_eq_ite [BEq α] [LawfulBEq α] [DecidableEq α] (key k : α) (v : β)
    (rest : List (α × β)) :
    ((k, v) :: rest).lookup key = if key = k then some v else rest.lookup key := by
  rw [List.lookup_cons]
  by_cases h : key = k
  · simp [h]
  · simp [h, beq_eq_false_iff_ne.2 h]

theorem lookup_filter_fst [BEq α] [LawfulBEq α] [DecidableEq α] (p : α → Bool) (key : α)
    (entries : List (α × β)) :
    (entries.filter fun e => p e.1).lookup key = if p key then entries.lookup key else none := by
  induction entries with
  | nil => simp
  | cons entry rest ih =>
    obtain ⟨k, v⟩ := entry
    rw [lookup_cons_eq_ite]
    by_cases h : key = k
    · subst h
      cases hp : p key <;> simp only [List.filter_cons, hp] <;> simp [ih, hp]
    · cases hp : p k <;> simp [hp, ih, lookup_cons_eq_ite, h]

/-- Where an entry stands in a list that got a new last entry. -/
theorem exists_place_concat {l : List α} {a b : α} {P : List α → List α → Prop} :
    (∃ before after, l ++ [a] = before ++ b :: after ∧ P before after) ↔
      (a = b ∧ P l []) ∨
        ∃ before after, l = before ++ b :: after ∧ P before (after ++ [a]) := by
  constructor
  · rintro ⟨before, after, h, hp⟩
    rcases List.eq_nil_or_concat after with rfl | ⟨front, z, rfl⟩
    · obtain ⟨rfl, hb⟩ := List.append_inj' h rfl
      exact Or.inl ⟨List.singleton_inj.1 hb, hp⟩
    · rw [List.concat_eq_append] at h hp
      rw [← List.cons_append, ← List.append_assoc] at h
      obtain ⟨hl, hz⟩ := List.append_inj' h rfl
      obtain rfl := List.singleton_inj.1 hz
      exact Or.inr ⟨before, front, hl, hp⟩
  · rintro (⟨rfl, hp⟩ | ⟨before, after, rfl, hp⟩)
    · exact ⟨l, [], rfl, hp⟩
    · exact ⟨before, after ++ [a], by simp, hp⟩

theorem exists_split_concat {l : List α} {a b : α} {P : List α → Prop} :
    (∃ before after, l ++ [a] = before ++ b :: after ∧ P after) ↔
      (a = b ∧ P []) ∨ ∃ before after, l = before ++ b :: after ∧ P (after ++ [a]) :=
  exists_place_concat

/-- Where an entry stands behind which all others pass a test. -/
theorem exists_place_since_concat {l : List α} {a b : α} {P : List α → Prop} {Q : α → Prop} :
    (∃ before after, l ++ [a] = before ++ b :: after ∧ P before ∧ ∀ x ∈ after, Q x) ↔
      (a = b ∧ P l) ∨
        (∃ before after, l = before ++ b :: after ∧ P before ∧ ∀ x ∈ after, Q x) ∧ Q a := by
  refine exists_place_concat.trans (or_congr ?_ ?_)
  · simp
  · simp only [List.forall_mem_append, List.forall_mem_singleton, ← and_assoc, exists_and_right]

end ScriptHost
