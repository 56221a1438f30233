import ScriptHost.Proofs.Json.ReadBack
import ScriptHost.Proofs.Wire.Filling

/-! The members of an object and the value that it holds. Of a name that is repeated the last member
counts; another name's changes nothing under this one, nor does the order of the names. -/

namespace ScriptHost

open Json

section Members

variable {ms ns : List (List Nat × Tree)} {members : List (String × Json)}

theorem Json.Readable.append_iff : Readable (ms ++ ns) ↔ Readable ms ∧ Readable ns :=
  List.forall_mem_append

theorem Json.Readable.cons_iff {name : String} {v : Tree} :
    Readable ((units name.toList, v) :: ms) ↔ Readable ms := by
  rw [Readable, List.forall_mem_cons]
  exact and_iff_right ⟨name, rfl⟩

theorem Json.holdMembers_cons {name : String} {v : Tree} :
    HoldMembers ((units name.toList, v) :: ms) members ↔
      ∃ j rest, members = (name, j) :: rest ∧ Holds v j ∧ HoldMembers ms rest := by
  constructor
  · intro h
    generalize hus : units name.toList = us at h
    cases h with
    | cons hname hv h =>
      cases units_toList_injective (hus.trans hname)
      exact ⟨_, _, rfl, hv, h⟩
  · rintro ⟨j, rest, rfl, hv, h⟩
    exact .cons rfl hv h

theorem Json.holdMembers_append : HoldMembers (ms ++ ns) members ↔
    ∃ front back, members = front ++ back ∧ HoldMembers ms front ∧ HoldMembers ns back := by
  induction ms generalizing members with
  | nil =>
    constructor
    · exact fun h => ⟨[], members, rfl, .nil, h⟩
    · rintro ⟨_, _, rfl, ⟨⟩, h⟩
      exact h
  | cons m ms ih =>
    obtain ⟨us, v⟩ := m
    constructor
    · intro h
      cases h with
      | cons hname hv h =>
        obtain ⟨front, back, rfl, hfront, hback⟩ := ih.1 h
        exact ⟨_ :: front, back, rfl, .cons hname hv hfront, hback⟩
    · rintro ⟨_, back, rfl, hfront, hback⟩
      cases hfront with
      | cons hname hv hfront => exact .cons hname hv (ih.2 ⟨_, _, rfl, hfront, hback⟩)

theorem Json.HoldMembers.readable (h : HoldMembers ms members) : Readable ms := by
  induction ms generalizing members with
  | nil => exact nofun
  | cons m ms ih =>
    cases h with
    | cons hname _ h => exact List.forall_mem_cons.2 ⟨⟨_, hname⟩, ih h⟩

/-- The values under a name are held one by one. -/
theorem Json.HoldMembers.values_under (h : HoldMembers ms members) (name : String) :
    ∃ vs js, under (units name.toList) ms = vs.map (Prod.mk (units name.toList)) ∧
      under name members = js.map (Prod.mk name) ∧ HoldItems vs js := by
  induction ms generalizing members with
  | nil =>
    cases h
    exact ⟨[], [], rfl, rfl, .nil⟩
  | cons m ms ih =>
    cases h with
    | @cons _ v j _ members key hname hv h =>
      subst hname
      obtain ⟨vs, js, hvs, hjs, hholds⟩ := ih h
      by_cases hkey : key = name
      · subst hkey
        exact ⟨v :: vs, j :: js, by simp [hvs], by simp [hjs], .cons hv hholds⟩
      · have hunits : units key.toList ≠ units name.toList := units_toList_injective.ne hkey
        exact ⟨vs, js, by rw [under_cons_of_ne hunits, hvs], by rw [under_cons_of_ne hkey, hjs],
          hholds⟩

/-- Members in another order have the same values, where no name is repeated. -/
theorem Json.HoldMembers.under_of_perm {members' : List (String × Json)} {name : String}
    (h : HoldMembers ms members) (hperm : members.Perm members') :
    (under name members' = [] → under (units name.toList) ms = []) ∧
      ∀ j, under name members' = [(name, j)] →
        ∃ v, under (units name.toList) ms = [(units name.toList, v)] ∧ Holds v j := by
  obtain ⟨vs, js, hvs, hjs, hholds⟩ := h.values_under name
  have hunder : (js.map (Prod.mk name)).Perm (under name members') := hjs ▸ hperm.filter _
  refine ⟨fun hnil => ?_, fun j hone => ?_⟩
  · rw [hnil, List.perm_nil, List.map_eq_nil_iff] at hunder
    subst hunder
    cases hholds
    exact hvs
  · rw [hone, List.perm_singleton, List.map_eq_singleton_iff] at hunder
    obtain ⟨_, rfl, hj⟩ := hunder
    cases hj
    cases hholds with
    | cons hv hrest =>
      cases hrest
      exact ⟨_, hvs, hv⟩

/-- Of a repeated name the last member counts. -/
theorem Json.lookup_ofMembers_reverse {sorted : List (String × Json)}
    (h : ofMembers members = .object sorted) (name : String) :
    sorted.lookup name = members.reverse.lookup name := by
  rw [ofMembers, Json.object.injEq] at h
  subst h
  induction members using List.reverseRecOn with
  | nil => rfl
  | append_singleton front m ih =>
    rw [List.foldl_append, List.foldl_cons, List.foldl_nil, lookup_put, List.reverse_append,
      List.reverse_singleton, List.singleton_append, lookup_cons_eq_ite, ih]

/-- Another member changes nothing of what is found under a name. -/
theorem Json.under_ofMembers {front back sorted sorted' : List (String × Json)} {name other : String}
    {j : Json} (h : ofMembers (front ++ back) = .object sorted)
    (h' : ofMembers (front ++ (name, j) :: back) = .object sorted') (hother : name ≠ other) :
    under other sorted' = under other sorted := by
  have hnodup : ∀ {members sorted : List (String × Json)}, ofMembers members = .object sorted →
      (sorted.map Prod.fst).Nodup := by
    intro members sorted h
    obtain ⟨_, hsorted, hordered⟩ := ordered_ofMembers members
    cases h.symm.trans hsorted
    exact hordered.nodup
  rw [under_of_nodup (hnodup h), under_of_nodup (hnodup h'), lookup_ofMembers_reverse h,
    lookup_ofMembers_reverse h', lookup_eq_head?_under, lookup_eq_head?_under]
  simp [under_cons_of_ne hother]

end Members

section Objects

variable {ps qs : List (List Nat × Tree)} {name : String} {v : Tree} {j : Json}

theorem Json.Holds.exists_members (h : Holds (.object ps) j) :
    ∃ members, HoldMembers ps members ∧ j = ofMembers members := by
  cases h with
  | object hmembers hj => exact ⟨_, hmembers, hj⟩

/-- What an object holds, and what it holds with another member. -/
theorem Json.holds_with {sorted : List (String × Json)} (hv : Holds v j)
    (h : Holds (.object (ps ++ qs)) (.object sorted)) :
    ∃ sorted', Holds (.object (ps ++ (units name.toList, v) :: qs)) (.object sorted') ∧
      ∀ other, name ≠ other → under other sorted' = under other sorted := by
  obtain ⟨members, hmembers, hsorted⟩ := h.exists_members
  obtain ⟨front, back, rfl, hfront, hback⟩ := holdMembers_append.1 hmembers
  obtain ⟨sorted', hsorted', -⟩ := ordered_ofMembers (front ++ (name, j) :: back)
  refine ⟨sorted', .object (holdMembers_append.2 ⟨_, _, rfl, hfront, .cons rfl hv hback⟩)
    hsorted'.symm, fun other hother => ?_⟩
  exact under_ofMembers hsorted.symm hsorted' hother

/-- What an object with this member holds, and what it holds without. -/
theorem Json.holds_without {sorted' : List (String × Json)}
    (h : Holds (.object (ps ++ (units name.toList, v) :: qs)) (.object sorted')) :
    ∃ sorted, Holds (.object (ps ++ qs)) (.object sorted) ∧
      ∀ other, name ≠ other → under other sorted' = under other sorted := by
  obtain ⟨members, hmembers, hsorted'⟩ := h.exists_members
  obtain ⟨front, back, rfl, hfront, hback⟩ := holdMembers_append.1 hmembers
  obtain ⟨j, back, rfl, -, hback⟩ := holdMembers_cons.1 hback
  obtain ⟨sorted, hsorted, -⟩ := ordered_ofMembers (front ++ back)
  refine ⟨sorted, .object (holdMembers_append.2 ⟨_, _, rfl, hfront, hback⟩) hsorted.symm,
    fun other hother => ?_⟩
  exact under_ofMembers hsorted hsorted'.symm hother

/-- A name that is not repeated has the value that it has in the text. -/
theorem Json.under_holds {sorted : List (String × Json)} (h : Holds (.object ps) (.object sorted))
    (hone : (under (units name.toList) ps).length ≤ 1) :
    (under (units name.toList) ps = [] ∧ under name sorted = []) ∨
      ∃ v j, under (units name.toList) ps = [(units name.toList, v)] ∧
        under name sorted = [(name, j)] ∧ Holds v j := by
  obtain ⟨members, hmembers, hsorted⟩ := h.exists_members
  obtain ⟨_, hsorted', hordered⟩ := ordered_ofMembers members
  cases hsorted.trans hsorted'
  have hunder : under name sorted =
      (((under name members).reverse.head?.map Prod.snd).map (Prod.mk name)).toList := by
    rw [under_of_nodup hordered.nodup, lookup_ofMembers_reverse hsorted.symm,
      lookup_eq_head?_under, under, List.filter_reverse]
    rfl
  obtain ⟨vs, js, hvs, hjs, hholds⟩ := hmembers.values_under name
  rw [hvs, List.length_map] at hone
  rw [hvs, hunder, hjs]
  cases hholds with
  | nil => exact .inl ⟨rfl, rfl⟩
  | cons hv hrest =>
    cases hrest with
    | nil => exact .inr ⟨_, _, rfl, rfl, hv⟩
    | cons => simp at hone

theorem Json.Tree.depthMembers_append :
    depthMembers (ps ++ qs) = max (depthMembers ps) (depthMembers qs) := by
  induction ps with
  | nil => simp [depthMembers]
  | cons m ps ih => simp [depthMembers, ih, max_assoc]

theorem Json.Tree.depth_le_depthMembers {m : List Nat × Tree} (h : m ∈ ps) :
    m.2.depth ≤ depthMembers ps := by
  induction h with
  | head => exact le_max_left _ _
  | tail _ _ ih => exact ih.trans (le_max_right _ _)

/-- A frame that is not nested too deeply has no such member. -/
theorem Fields.shallow_of_depth {fields : Fields β σ} {levels : Nat}
    (h : (Tree.object ps).depth ≤ levels) : fields.Shallow (levels - 1) ps := by
  intro name _ v hv
  have hle := Tree.depth_le_depthMembers hv
  rw [Tree.depth] at h
  exact Nat.le_sub_one_of_lt (Nat.lt_of_le_of_lt hle (Nat.lt_of_succ_le (by omega)))

end Objects

end ScriptHost
