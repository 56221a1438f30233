import ScriptHost.Proofs.Json.ReadBack
import ScriptHost.Proofs.Wire.Filling

/-! Decoding undoes encoding. A type that is read by way of values returns what a text carries
without loss; a record returns its fields if each field does, where one that is left out has the
value that stands for its absence. -/

namespace ScriptHost

open Json

namespace Wire

/-- What is encoded is decoded again, straight from the text and by way of a JSON value. -/
structure RoundTrip (wire : Wire α) (a : α) : Prop where
  direct : wire.decode (wire.encode a) = .ok a
  byValue : wire.decodeByValue (wire.encode a) = .ok a

/-- The text of `a` says `v`, and both ways of reading it lead back to `a`. -/
structure Returns (wire : Wire α) (levels : Nat) (v : Tree) (a : α) : Prop where
  text : ∀ rest, Value (wire.print a ++ rest) v rest
  depth : v.depth ≤ levels
  reads : wire.Reads levels v a
  means : wire.Means v a

variable {wire : Wire α} {levels : Nat} {v : Tree} {j : Json} {a : α}

theorem Returns.roundTrip (h : wire.Returns maxLevels v a) : wire.RoundTrip a := by
  have hends : Ends [] := fun c hc => by cases hc
  have htext : Value (wire.encode a).toList v [] := by
    rw [encode, String.toList_ofList]
    simpa using h.text []
  obtain ⟨j, hv, hj⟩ := h.means
  have hvalue : json.decode (wire.encode a) = .ok j :=
    decode_eq_ok.2 ⟨[], htext.complete hv h.depth le_rfl hends, rfl⟩
  refine ⟨decode_eq_ok.2 ⟨[], h.reads htext le_rfl hends, rfl⟩, ?_⟩
  exact bind_eq_ok.2 ⟨j, hvalue, by rw [hj]; rfl⟩

/-- A type that is read by way of values returns what it prints as a value that a text carries. -/
theorem Agrees.returns (h : wire.Agrees) (hj : Portable levels j) (hprint : wire.print a = j.print)
    (ha : wire.ofJson j = .ok a) : wire.Returns levels j.tree a where
  text rest := by
    rw [hprint]
    exact value_print j rest
  depth := hj.depth_le
  reads hv hroom hrest := h.iff.2 ⟨j, hv.complete hj.holds hj.depth_le hroom hrest, ha⟩
  means := ⟨j, hj.holds, ha⟩

end Wire

namespace Fields

/-- The members of a record that is written: each is what its field gives, and a field that is left
out has its value when absent. -/
inductive Written {κ ν : Type} (key : String → κ) (gives : ⦃α : Type⦄ → Wire α → ν → α → Prop) :
    {β σ : Type} → Fields β σ → β → List (κ × ν) → Prop where
  | nil : Written key gives .nil () []
  | omitted {α β σ : Type} {f : Field α} {fields : Fields β σ} {a : α} {b : β} {ms : List (κ × ν)}
      (homits : f.omits a = true) (habsent : f.absent = some a)
      (h : Written key gives fields b ms) : Written key gives (.cons f fields) (a, b) ms
  | member {α β σ : Type} {f : Field α} {fields : Fields β σ} {a : α} {b : β} {v : ν}
      {ms : List (κ × ν)} (homits : f.omits a = false) (hv : gives f.wire v a)
      (h : Written key gives fields b ms) :
      Written key gives (.cons f fields) (a, b) ((key f.name, v) :: ms)

namespace Written

variable {κ ν : Type} {key : String → κ} {gives : ⦃α : Type⦄ → Wire α → ν → α → Prop}
  {fields : Fields β σ} {b : β} {ms : List (κ × ν)}

theorem keys_sublist (h : Written key gives fields b ms) :
    (ms.map Prod.fst).Sublist (fields.names.map key) := by
  induction h with
  | nil => exact List.Sublist.refl _
  | omitted _ _ _ ih => exact ih.cons _
  | member _ _ _ ih => exact ih.cons_cons _

theorem exists_name (h : Written key gives fields b ms) :
    ∀ m ∈ ms, ∃ name : String, m.1 = key name := by
  intro m hm
  obtain ⟨name, -, heq⟩ := List.mem_map.1 (h.keys_sublist.subset (List.mem_map_of_mem hm))
  exact ⟨name, heq.symm⟩

theorem nodup_keys (h : Written key gives fields b ms) (hkey : Function.Injective key)
    (hnames : fields.names.Nodup) : (ms.map Prod.fst).Nodup :=
  h.keys_sublist.nodup (List.Nodup.map hkey hnames)

theorem notMem_keys (h : Written key gives fields b ms) (hkey : Function.Injective key)
    {name : String} (hname : name ∉ fields.names) : key name ∉ ms.map Prod.fst := by
  intro hmem
  obtain ⟨other, hother, heq⟩ := List.mem_map.1 (h.keys_sublist.subset hmem)
  rw [hkey heq] at hother
  exact hname hother

theorem given [DecidableEq κ] (h : Written key gives fields b ms) (hkey : Function.Injective key)
    (hnames : fields.names.Nodup) : fields.Given key gives ms b := by
  induction h with
  | nil => trivial
  | omitted _ habsent h ih =>
    obtain ⟨hname, hnames⟩ := List.nodup_cons.1 hnames
    exact ⟨.inl ⟨under_eq_nil.2 (h.notMem_keys hkey hname), habsent⟩, ih hnames⟩
  | member _ hv h ih =>
    obtain ⟨hname, hnames⟩ := List.nodup_cons.1 hnames
    refine ⟨.inr ⟨_, ?_, hv⟩, (given_congr fun other hother => ?_).1 (ih hnames)⟩
    · rw [under_cons_self, under_eq_nil.2 (h.notMem_keys hkey hname)]
    · refine (under_cons_of_ne fun heq => hname ?_).symm
      rw [hkey heq]
      exact hother

theorem imp {gives' : ⦃α : Type⦄ → Wire α → ν → α → Prop} (h : Written key gives fields b ms)
    (hgives : ∀ ⦃α : Type⦄ (wire : Wire α) v a, gives wire v a → gives' wire v a) :
    Written key gives' fields b ms := by
  induction h with
  | nil => exact .nil
  | omitted homits habsent _ ih => exact .omitted homits habsent ih
  | member homits hv _ ih => exact .member homits (hgives _ _ _ hv) ih

end Written

section Records

variable {levels : Nat} {fields : Fields β σ} {b : β} {ms : List (List Nat × Tree)}

abbrev Returns (levels : Nat) (fields : Fields β σ) (b : β) (ms : List (List Nat × Tree)) : Prop :=
  Written (fun name => units name.toList) (fun _ wire v a => wire.Returns levels v a) fields b ms

theorem Returns.printMembers_eq_nil (h : fields.Returns levels b ms) :
    fields.printMembers b = [] ↔ ms = [] := by
  induction h with
  | nil => exact iff_of_true rfl rfl
  | omitted homits _ _ ih =>
    rw [printMembers, if_pos homits]
    exact ih
  | member homits => simp [printMembers, homits]

theorem Returns.members (h : fields.Returns levels b ms) (rest : List Char) :
    Members true (commaSeparated (fields.printMembers b) ++ '\x7d' :: rest) ms rest := by
  induction h with
  | nil => exact .done rfl
  | omitted homits _ _ ih =>
    rw [printMembers, if_pos homits]
    exact ih
  | @member _ _ _ f fields a b v ms homits hv h ih =>
    -- behind a member is a comma exactly if a member follows that is not left out
    have htail : Members false (behindPart (fields.printMembers b) ('\x7d' :: rest)) ms rest := by
      have hnil := Returns.printMembers_eq_nil h
      cases ms with
      | nil =>
        rw [hnil.2 rfl]
        exact .done rfl
      | cons m ms =>
        rw [behindPart, if_neg (by simp [hnil])]
        exact ih.after_comma
    have htext : commaSeparated ((cons f fields).printMembers (a, b)) ++ '\x7d' :: rest =
        '"' :: (f.name.toList.flatMap escaped ++ '"' :: ':' ::
          (f.wire.print a ++ behindPart (fields.printMembers b) ('\x7d' :: rest))) := by
      rw [printMembers, if_neg (by simp [homits]), commaSeparated_cons]
      simp [printString]
    rw [htext]
    exact .member rfl rfl (quoted_print f.name.toList _) rfl (hv.text _) htail

theorem Returns.depth (h : fields.Returns levels b ms) : Tree.depthMembers ms ≤ levels := by
  induction h with
  | nil => exact Nat.zero_le _
  | omitted _ _ _ ih => exact ih
  | member _ hv _ ih => exact Nat.max_le.2 ⟨hv.depth, ih⟩

/-- The values of the members, as far as the fields look at them. -/
theorem Returns.exists_values (h : fields.Returns levels b ms) : ∃ members, HoldMembers ms members ∧
    Written (fun name => name) (fun _ wire j a => wire.ofJson j = .ok a) fields b members := by
  induction h with
  | nil => exact ⟨[], .nil, .nil⟩
  | omitted homits habsent _ ih =>
    obtain ⟨members, hmembers, hwritten⟩ := ih
    exact ⟨members, hmembers, .omitted homits habsent hwritten⟩
  | @member _ _ _ f _ _ _ _ _ homits hv _ ih =>
    obtain ⟨members, hmembers, hwritten⟩ := ih
    obtain ⟨j, hj, ha⟩ := hv.means
    exact ⟨(f.name, j) :: members, .cons rfl hj hmembers, .member homits ha hwritten⟩

/-- The members give the fields, each as its type reads it. -/
theorem Returns.given (hnames : fields.names.Nodup) (h : fields.Returns levels b ms) :
    fields.Given (fun name => units name.toList) (fun _ wire v a => wire.Reads levels v a) ms b := by
  have hwritten : fields.Written (fun name => units name.toList)
      (fun _ wire v a => wire.Reads levels v a) b ms :=
    h.imp fun _ _ _ _ hv => @hv.reads
  exact hwritten.given units_toList_injective hnames

theorem Returns.exists_object (hnames : fields.names.Nodup) (h : fields.Returns levels b ms) :
    ∃ members, Holds (.object ms) (.object members) ∧ fields.ofMembers members = .ok b := by
  obtain ⟨members, hmembers, hwritten⟩ := h.exists_values
  -- the value has the members in another order, in which each field finds the same
  obtain ⟨sorted, hsorted, hordered⟩ := ordered_ofMembers members
  have hnodup := hwritten.nodup_keys Function.injective_id hnames
  have hsame : ∀ name ∈ fields.names, under name members = under name sorted := by
    intro name _
    rw [under_of_nodup hnodup, under_of_nodup hordered.nodup, lookup_ofMembers hnodup hsorted]
  have hgiven := (given_congr hsame).1 (hwritten.given Function.injective_id hnames)
  exact ⟨sorted, .object hmembers hsorted.symm, (ofMembers_eq_ok hnames).2 hgiven⟩

end Records

end Fields

/-- A record returns its fields if each field does. -/
theorem Wire.record_returns {fields : Fields β σ} {name : String} {make : β → α} {view : α → β}
    {levels : Nat} {ms : List (List Nat × Tree)} {a : α} (hnames : fields.names.Nodup)
    (h : fields.Returns levels (view a) ms) (hmake : make (view a) = a) :
    (record name fields make view).Returns (levels + 1) (.object ms) a where
  text rest := by
    have hopen : skipSpace ((record name fields make view).print a ++ rest) =
        '\x7b' :: (commaSeparated (fields.printMembers (view a)) ++ '\x7d' :: rest) := by
      simp [record, skipSpace, isSpace]
    exact .object hopen (h.members rest)
  depth := Nat.succ_le_succ h.depth
  reads := by
    have hreads : (record name fields make view).Reads (levels + 1) (.object ms) (make (view a)) :=
      record_reads_object hnames h.exists_name (h.given hnames)
    rwa [hmake] at hreads
  means := by
    obtain ⟨members, hmembers, hfields⟩ := h.exists_object hnames
    exact ⟨.object members, hmembers, map_eq_ok.2 ⟨view a, hfields, hmake⟩⟩

end ScriptHost
