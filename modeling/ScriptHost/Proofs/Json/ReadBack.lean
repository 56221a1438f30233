import Mathlib.Data.List.Nodup
import ScriptHost.Proofs.Json.Completeness
import ScriptHost.Proofs.Json.Echo

/-! Values that a text carries without loss: their numbers are whole and held exactly, and they have
no more levels than a reader opens. What is printed of such a value has a tree that holds it. -/

namespace ScriptHost.Json

/-- An integer is printed as a numeral whose number it is. -/
theorem value_numeral_integer {i : Int} (h : -0x8000000000000000 ≤ i ∧ i < 0x10000000000000000) :
    (Number.numeral (.integer i)).value = .ok (.integer i) := by
  have hdigits : Nat.ofDigitChars 10 (Text.decimal i.natAbs) 0 = i.natAbs :=
    Nat.ofDigitChars_ten_toDigits
  have hsize : UInt64.size = 0x10000000000000000 := rfl
  rw [Numeral.value_of_whole rfl rfl (by simp only [Number.numeral, hdigits]; omega)]
  simp only [Number.numeral, hdigits]
  by_cases hi : i < 0
  · have hpos : 0 < i.natAbs ∧ i.natAbs ≤ 0x8000000000000000 := by omega
    have habs : -(i.natAbs : Int) = i := by omega
    rw [if_neg (by simp [hi]), if_pos hpos, habs]
  · have habs : (i.natAbs : Int) = i := by omega
    rw [if_pos (by simp [hi]), habs]

section Order

def Ordered (members : List (String × Json)) : Prop := (members.map Prod.fst).Pairwise (· < ·)

theorem Ordered.nodup {members : List (String × Json)} (h : Ordered members) :
    (members.map Prod.fst).Nodup := by
  refine List.nodup_iff_pairwise_ne.2 (h.imp ?_)
  rintro name _ hlt rfl
  exact String.lt_irrefl name hlt

theorem mem_put {members : List (String × Json)} {name key : String} {j : Json}
    (h : key ∈ (put members name j).map Prod.fst) : key = name ∨ key ∈ members.map Prod.fst := by
  induction members with
  | nil => simpa [put] using h
  | cons member members ih =>
    obtain ⟨k, v⟩ := member
    unfold put at h
    split at h
    · simpa using h
    · split at h
      · next heq => simpa [heq] using h
      · rw [List.map_cons, List.mem_cons] at h ⊢
        rcases h with h | h
        · exact .inr (.inl h)
        · exact (ih h).imp_right .inr

theorem Ordered.put {members : List (String × Json)} (h : Ordered members) (name : String)
    (j : Json) : Ordered (put members name j) := by
  induction members with
  | nil => exact List.pairwise_singleton _ _
  | cons member members ih =>
    obtain ⟨k, v⟩ := member
    obtain ⟨hk, hrest⟩ := List.pairwise_cons.1 h
    unfold Json.put
    split
    · next hlt =>
      refine List.pairwise_cons.2 ⟨fun key hkey => ?_, h⟩
      rcases List.mem_cons.1 hkey with rfl | hkey
      · exact hlt
      · exact String.lt_trans hlt (hk key hkey)
    · split
      · next heq =>
        rw [← heq] at hk
        exact List.pairwise_cons.2 ⟨hk, hrest⟩
      · next hlt hne =>
        have hgt : k < name := by
          by_cases hgt : k < name
          · exact hgt
          · exact absurd (String.le_antisymm (String.not_lt.1 hgt) (String.not_lt.1 hlt)) hne
        refine List.pairwise_cons.2 ⟨fun key hkey => ?_, ih hrest⟩
        rcases mem_put hkey with rfl | hkey
        · exact hgt
        · exact hk key hkey

/-- Whatever the members of a text, those of its value are in order. -/
theorem ordered_ofMembers (members : List (String × Json)) :
    ∃ sorted, ofMembers members = .object sorted ∧ Ordered sorted := by
  have hfold : ∀ rest acc : List (String × Json), Ordered acc →
      Ordered (rest.foldl (fun acc kv => Json.put acc kv.1 kv.2) acc) := by
    intro rest
    induction rest with
    | nil => exact fun acc hacc => hacc
    | cons member rest ih => exact fun acc hacc => ih _ (hacc.put member.1 member.2)
  exact ⟨_, rfl, hfold members [] List.Pairwise.nil⟩

/-- Where no name is repeated the order of the members is of no account. -/
theorem lookup_ofMembers {members sorted : List (String × Json)}
    (hnodup : (members.map Prod.fst).Nodup) (h : ofMembers members = .object sorted)
    (name : String) : sorted.lookup name = members.lookup name := by
  have hfold := lookup_foldl_put (List.nodup_iff_count_le_one.1 hnodup name) []
  rw [Json.ofMembers, Json.object.injEq] at h
  rw [← h, hfold]
  simp

/-- Behind all names that stand before it a member is put at the end. -/
theorem put_last {members : List (String × Json)} {name : String} (j : Json)
    (h : ∀ key ∈ members.map Prod.fst, key < name) :
    put members name j = members ++ [(name, j)] := by
  induction members with
  | nil => rfl
  | cons member members ih =>
    obtain ⟨key, k⟩ := member
    obtain ⟨hkey, hrest⟩ := List.forall_mem_cons.1 h
    have hlt : ¬ name < key := String.lt_asymm hkey
    have hne : name ≠ key := by
      rintro rfl
      exact String.lt_irrefl _ hkey
    rw [put, if_neg hlt, if_neg hne, ih hrest]
    rfl

/-- Members in order stay as they are. -/
theorem Ordered.ofMembers {members : List (String × Json)} (h : Ordered members) :
    ofMembers members = .object members := by
  have hfold : ∀ rest acc : List (String × Json), Ordered (acc ++ rest) →
      rest.foldl (fun acc kv => Json.put acc kv.1 kv.2) acc = acc ++ rest := by
    intro rest
    induction rest with
    | nil =>
      intro acc _
      simp
    | cons member rest ih =>
      intro acc hacc
      obtain ⟨name, j⟩ := member
      have hlast : ∀ key ∈ acc.map Prod.fst, key < name := by
        intro key hkey
        rw [Ordered, List.map_append, List.pairwise_append] at hacc
        exact hacc.2.2 key hkey name (by simp)
      rw [List.foldl_cons, put_last j hlast, ih _ (by simpa using hacc)]
      simp
  rw [Json.ofMembers, hfold members [] h]
  rfl

end Order

/-- A value that is no list and no object has no levels. -/
theorem Holds.depth_eq_zero {v : Tree} {j : Json} (h : Holds v j)
    (harray : ∀ items, j ≠ .array items) (hobject : ∀ members, j ≠ .object members) :
    v.depth = 0 := by
  cases h with
  | array => exact absurd rfl (harray _)
  | object _ hj =>
    obtain ⟨sorted, hsorted, -⟩ := ordered_ofMembers _
    exact absurd (hj.trans hsorted) (hobject sorted)
  | _ => rfl

/-- A text of so many levels carries the value as it is. -/
inductive Portable : Nat → Json → Prop where
  | null : Portable levels .null
  | bool : Portable levels (.bool b)
  | integer (h : -0x8000000000000000 ≤ i ∧ i < 0x10000000000000000) :
      Portable levels (.number (.integer i))
  | string : Portable levels (.string s)
  | array (h : ∀ j ∈ items, Portable levels j) : Portable (levels + 1) (.array items)
  | object (hnames : Ordered members) (h : ∀ m ∈ members, Portable levels m.2) :
      Portable (levels + 1) (.object members)

variable {levels : Nat} {j : Json}

theorem holdItems_tree {items : List Json} (h : ∀ j ∈ items, Holds j.tree j) :
    HoldItems (treeItems items) items := by
  induction items with
  | nil => exact .nil
  | cons j items ih =>
    obtain ⟨hj, hrest⟩ := List.forall_mem_cons.1 h
    exact .cons hj (ih hrest)

theorem holdMembers_tree {members : List (String × Json)} (h : ∀ m ∈ members, Holds m.2.tree m.2) :
    HoldMembers (treeMembers members) members := by
  induction members with
  | nil => exact .nil
  | cons m members ih =>
    obtain ⟨hm, hrest⟩ := List.forall_mem_cons.1 h
    exact .cons rfl hm (ih hrest)

theorem Portable.holds (h : Portable levels j) : Holds j.tree j := by
  induction h with
  | null => exact .null
  | bool => exact .bool
  | integer hi => exact .number (value_numeral_integer hi)
  | string => exact .string rfl
  | array _ ih => exact .array (holdItems_tree ih)
  | object hnames _ ih => exact .object (holdMembers_tree ih) hnames.ofMembers.symm

theorem depthItems_le {items : List Json} (h : ∀ j ∈ items, j.tree.depth ≤ levels) :
    Tree.depthItems (treeItems items) ≤ levels := by
  induction items with
  | nil => exact Nat.zero_le _
  | cons j items ih =>
    obtain ⟨hj, hrest⟩ := List.forall_mem_cons.1 h
    exact Nat.max_le.2 ⟨hj, ih hrest⟩

theorem depthMembers_le {members : List (String × Json)}
    (h : ∀ m ∈ members, m.2.tree.depth ≤ levels) :
    Tree.depthMembers (treeMembers members) ≤ levels := by
  induction members with
  | nil => exact Nat.zero_le _
  | cons m members ih =>
    obtain ⟨hm, hrest⟩ := List.forall_mem_cons.1 h
    exact Nat.max_le.2 ⟨hm, ih hrest⟩

theorem Portable.depth_le (h : Portable levels j) : j.tree.depth ≤ levels := by
  induction h with
  | null | bool | integer | string => exact Nat.zero_le _
  | array _ ih => exact Nat.succ_le_succ (depthItems_le ih)
  | object _ _ ih => exact Nat.succ_le_succ (depthMembers_le ih)

end ScriptHost.Json
