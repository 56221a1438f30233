import ScriptHost.Proofs.Json.Completeness
import ScriptHost.Proofs.Json.Echo
import ScriptHost.Proofs.Wire.Records

/-! Members that give the fields of a record are read as that record, be it from a text or from a
value. A type reads what a text means, unless it is nested too deeply. -/

namespace ScriptHost

open Json

/-- Wherever a text says `v` the wire type reads `a`. -/
def Wire.Reads (wire : Wire α) (levels : Nat) (v : Tree) (a : α) : Prop :=
  ∀ {room s rest}, Value s v rest → s.length ≤ room → Ends rest →
    wire.read room levels s = .ok (a, rest)

theorem Wire.Agrees.reads {wire : Wire α} {levels : Nat} {v : Tree} {a : α} (h : wire.Agrees)
    (hmeans : wire.Means v a) (hdepth : v.depth ≤ levels) : wire.Reads levels v a := by
  intro room s rest hv hroom hrest
  obtain ⟨j, hj, ha⟩ := hmeans
  exact h.iff.2 ⟨j, hv.complete hj hdepth hroom hrest, ha⟩

theorem Wire.Reads.decode {wire : Wire α} {text : String} {v : Tree} {a : α}
    (h : wire.Reads maxLevels v a) (htext : Says text v) : wire.decode text = .ok a := by
  obtain ⟨rest, hv, hrest⟩ := htext
  exact decode_eq_ok.2 ⟨rest, h hv le_rfl (ends_of_skipSpace (by simp [hrest])), hrest⟩

/-- What a text says is decoded as a value that holds it, if it is not nested too deeply. -/
theorem Wire.decode_of_says {text : String} {v : Tree} {j : Json} (h : Says text v) (hj : Holds v j)
    (hdepth : v.depth ≤ maxLevels) : json.decode text = .ok j := by
  obtain ⟨rest, hv, hrest⟩ := h
  have hends : Ends rest := ends_of_skipSpace (by simp [hrest])
  exact decode_eq_ok.2 ⟨rest, hv.complete hj hdepth le_rfl hends, hrest⟩

namespace Fields

/-- The fields are filled with what their types make of the members' values. -/
abbrev FilledByValues (fields : Fields β σ) (members : List (String × Json)) : σ → σ → Prop :=
  fields.Filled (fun name => name) (fun _ wire j a => wire.ofJson j = .ok a) members

abbrev GivenByValues (fields : Fields β σ) (members : List (String × Json)) : β → Prop :=
  fields.Given (fun name => name) (fun _ wire j a => wire.ofJson j = .ok a) members

abbrev FilledByText (fields : Fields β σ) (levels : Nat) (ms : List (List Nat × Tree)) :
    σ → σ → Prop :=
  fields.Filled (fun name => units name.toList) (fun _ wire v a => wire.Reads levels v a) ms

section Values

variable {members : List (String × Json)} {name : String} {j : Json}

theorem setMember_eq_ok {fields : Fields β σ} {slots slots' : σ} (hnames : fields.names.Nodup) :
    fields.setMember name j slots = .ok slots' ↔
      fields.FilledByValues [(name, j)] slots slots' := by
  induction fields with
  | nil => exact iff_of_true rfl trivial
  | cons f fields ih =>
    obtain ⟨slot, slots⟩ := slots
    obtain ⟨slot', slots'⟩ := slots'
    obtain ⟨hname, hnames⟩ := List.nodup_cons.1 hnames
    have hfilled : (cons f fields).FilledByValues [(name, j)] (slot, slots) (slot', slots') ↔
        ScriptHost.Filled f.name (fun j a => f.wire.ofJson j = .ok a) [(name, j)] slot slot' ∧
          fields.FilledByValues [(name, j)] slots slots' := Iff.rfl
    rw [setMember, hfilled]
    by_cases heq : name = f.name
    · subst heq
      have hothers : fields.FilledByValues [(f.name, j)] slots slots' ↔ slots' = slots := by
        refine (filled_cons_iff Function.injective_id hname).trans ⟨Filled.eq_of_nil, ?_⟩
        rintro rfl
        exact .refl fields _
      rw [if_pos rfl, Filled.own_iff, hothers]
      cases slot with
      | none =>
        cases hj : f.wire.ofJson j <;> simp [bind, Except.bind, pure, Except.pure, eq_comm]
      | some _ => simp
    · rw [if_neg heq, Filled.other_iff heq, ← ih hnames]
      cases fields.setMember name j slots <;> simp [bind, Except.bind, pure, Except.pure, eq_comm]

theorem foldlM_setMember_eq_ok {fields : Fields β σ} {slots slots' : σ}
    (hnames : fields.names.Nodup) :
    members.foldlM (fun slots kv => fields.setMember kv.1 kv.2 slots) slots = .ok slots' ↔
      fields.FilledByValues members slots slots' := by
  induction members generalizing slots with
  | nil =>
    constructor
    · rintro ⟨⟩
      exact .refl fields _
    · intro h
      rw [h.eq_of_nil]
      rfl
  | cons m members ih =>
    rw [List.foldlM_cons, bind_eq_ok]
    constructor
    · rintro ⟨slots₁, hset, hrest⟩
      exact ((setMember_eq_ok hnames).1 hset).append (ih.1 hrest)
    · intro h
      obtain ⟨slots₁, hset, hrest⟩ := h.exists_of_cons
      exact ⟨slots₁, (setMember_eq_ok hnames).2 hset, ih.2 hrest⟩

/-- The members of an object make a record exactly if they give its fields. -/
theorem ofMembers_eq_ok {fields : Fields β σ} {b : β} (hnames : fields.names.Nodup) :
    fields.ofMembers members = .ok b ↔ fields.GivenByValues members b := by
  rw [ofMembers, bind_eq_ok, GivenByValues, given_iff]
  simp only [foldlM_setMember_eq_ok hnames]

end Values

section Texts

variable {levels room : Nat} {s s' rest : List Char} {v : Tree} {ms : List (List Nat × Tree)}
  {name : String}

theorem readMember_filled {fields : Fields β σ} {slots slots' : σ} (hnames : fields.names.Nodup)
    (h : fields.FilledByText levels ((units name.toList, v) :: ms) slots slots')
    (hcolon : skipSpace s = ':' :: s') (hv : Value s' v rest) (hroom : s'.length ≤ room)
    (hrest : Ends rest) :
    ∃ slots₁, fields.readMember room levels name slots s = .ok (slots₁, rest) ∧
      fields.FilledByText levels ms slots₁ slots' := by
  induction fields with
  | nil =>
    refine ⟨(), ?_, trivial⟩
    refine bind_eq_ok.2 ⟨_, readColon_complete hcolon, ?_⟩
    exact bind_eq_ok.2 ⟨_, skipValue_complete hv hroom hrest, rfl⟩
  | cons f fields ih =>
    obtain ⟨slot, slots⟩ := slots
    obtain ⟨slot', slots'⟩ := slots'
    obtain ⟨hslot, hslots⟩ := h
    obtain ⟨hname, hnames⟩ := List.nodup_cons.1 hnames
    rw [readMember]
    -- fields are told apart by their texts, members by the units of theirs
    generalize hk : units name.toList = k at hslot
    cases hslot with
    | other hne hslot =>
      obtain ⟨slots₁, hread, hfilled⟩ := ih hnames hslots
      have hne : name ≠ f.name := by
        rintro rfl
        exact hne hk.symm
      rw [if_neg hne, hread]
      exact ⟨(slot, slots₁), rfl, hslot, hfilled⟩
    | @own _ a _ _ hreads hslot =>
      obtain rfl : name = f.name := units_toList_injective hk
      rw [if_pos rfl, if_neg (by simp)]
      have hslots := (filled_cons_iff units_toList_injective hname).1 hslots
      refine ⟨(some a, slots), ?_, hslot, hslots⟩
      refine bind_eq_ok.2 ⟨_, readColon_complete hcolon, ?_⟩
      exact bind_eq_ok.2 ⟨_, hreads hv hroom hrest, rfl⟩

/-- Members that fill the fields are read as what fills them. -/
theorem readMembers_filled {fields : Fields β σ} {slots slots' : σ} (hnames : fields.names.Nodup)
    {bound : Nat} {first : Bool} (h : Members first s ms rest)
    (hkeys : Readable ms)
    (hfilled : fields.FilledByText levels ms slots slots')
    (hbound : s.length ≤ bound) (hroom : s.length ≤ room) :
    fields.readMembers bound levels room first slots s = .ok (slots', rest) := by
  induction ms generalizing room first s slots with
  | nil =>
    have hlength := h.length_lt
    obtain ⟨room, rfl⟩ := Nat.exists_eq_add_one.2 (show 0 < room by omega)
    cases h with
    | done h =>
      rw [hfilled.eq_of_nil, readMembers, nextMember_done h]
      rfl
  | cons m ms ih =>
    have hlength := h.length_lt
    obtain ⟨room, rfl⟩ := Nat.exists_eq_add_one.2 (show 0 < room by omega)
    obtain ⟨us, v⟩ := m
    obtain ⟨⟨name, rfl⟩, hothers⟩ := List.forall_mem_cons.1 hkeys
    cases h with
    | @member _ _ s₁ s₂ _ s₃ s₄ _ s₅ _ _ hcomma hopen hname hcolon hv hms =>
      obtain ⟨hnamed, hvalue⟩ := member_lengths hcomma hopen hname hcolon
      have hlt := hv.length_lt
      have hbelow : s₄.length ≤ bound := by omega
      obtain ⟨slots₁, hmember, hrest⟩ :=
        readMember_filled hnames hfilled hcolon hv hbelow hms.ends
      have hread : fields.readMembers bound levels room false slots₁ s₅ = .ok (slots', rest) :=
        ih hms hothers hrest (by omega) (by omega)
      refine bind_eq_ok.2 ⟨_, nextMember_complete hcomma hopen, ?_⟩
      refine bind_eq_ok.2 ⟨_, readString_complete hname (by omega), ?_⟩
      rw [← String.ofList_toList (s := name)] at hmember
      exact bind_eq_ok.2 ⟨_, hmember, hread⟩

/-- Members that give the fields are read as the record of these. -/
theorem readObject_complete {fields : Fields β σ} {b : β} (hnames : fields.names.Nodup)
    (h : Members true s ms rest) (hkeys : Readable ms)
    (hgiven : fields.Given (fun name => units name.toList)
      (fun _ wire v a => wire.Reads levels v a) ms b) (hroom : s.length ≤ room) :
    fields.readObject room levels s = .ok (b, rest) := by
  obtain ⟨slots, hfilled, hfinish⟩ := given_iff.1 hgiven
  have hread := readMembers_filled hnames h hkeys hfilled hroom hroom
  refine bind_eq_ok.2 ⟨_, hread, ?_⟩
  simp [hfinish, pure, Except.pure]

/-- No value of a field is nested too deeply. What stands under other names is of no account. -/
def Shallow (fields : Fields β σ) (levels : Nat) (ms : List (List Nat × Tree)) : Prop :=
  ∀ name ∈ fields.names, ∀ v, (units name.toList, v) ∈ ms → v.depth ≤ levels

theorem GivenByTrees.reads {fields : Fields β σ} {b : β} (hf : fields.Agree)
    (hdepth : fields.Shallow levels ms) (h : fields.GivenByTrees ms b) :
    fields.Given (fun name => units name.toList) (fun _ wire v a => wire.Reads levels v a) ms b := by
  induction fields with
  | nil => trivial
  | cons f fields ih =>
    obtain ⟨hname, hnames⟩ := List.forall_mem_cons.1 hdepth
    refine ⟨h.1.imp_right ?_, ih hf.2 hnames h.2⟩
    rintro ⟨v, hv, hmeans⟩
    exact ⟨v, hv, hf.1.reads hmeans (hname v (mem_of_under hv))⟩

end Texts

end Fields

section Objects

variable {fields : Fields β σ} {name : String} {make : β → γ} {view : γ → β} {text : String}
  {ms : List (List Nat × Tree)} {c : γ}

/-- An object that is decoded as a record has texts for names, and its members give the fields. -/
theorem Wire.decode_object_sound (hf : fields.Agree) (hnames : fields.names.Nodup)
    (h : Says text (.object ms)) (hdecode : (record name fields make view).decode text = .ok c) :
    Readable ms ∧ ∃ b, fields.GivenByTrees ms b ∧ c = make b := by
  obtain ⟨rest, hread, hrest⟩ := decode_eq_ok.1 hdecode
  rcases record_sound hf hnames le_rfl hread with
    ⟨ms', b, hms, hreadable, hb, rfl⟩ | ⟨items, b, hitems, -⟩
  · cases h.unique ⟨rest, hms, hrest⟩
    exact ⟨hreadable, b, hb, rfl⟩
  · obtain ⟨v, hv, hholds, -⟩ := reads_readValue _ _ _ _ _ hitems
    cases h.unique ⟨rest, hv, hrest⟩
    cases hholds with
    | object _ hj => cases hj

/-- An object whose members can be read for the fields is read as the record of these. -/
theorem Wire.record_reads_object {levels : Nat} {b : β} (hnames : fields.names.Nodup)
    (hreadable : Readable ms) (hgiven : fields.Given (fun name => units name.toList)
      (fun _ wire v a => wire.Reads levels v a) ms b) :
    (record name fields make view).Reads (levels + 1) (.object ms) (make b) := by
  intro room s rest hv hroom _
  cases hv with
  | @object _ s' _ _ hopen hms =>
    have hshort := length_lt_of_skipSpace hopen
    have hread : fields.readObject room levels s' = .ok (b, rest) :=
      Fields.readObject_complete hnames hms hreadable hgiven (by omega)
    refine bind_eq_ok.2 ⟨.map s', by rw [readFront, hopen]; rfl, ?_⟩
    exact bind_eq_ok.2 ⟨_, mapError_eq_ok.2 hread, rfl⟩

/-- An object is decoded if its members give the fields and each can be read. -/
theorem Wire.decode_object_complete {b : β} (hnames : fields.names.Nodup)
    (h : Says text (.object ms)) (hreadable : Readable ms)
    (hgiven : fields.Given (fun name => units name.toList)
      (fun _ wire v a => wire.Reads (maxLevels - 1) v a) ms b) :
    (record name fields make view).decode text = .ok (make b) := by
  have hreads : (record name fields make view).Reads maxLevels (.object ms) (make b) :=
    record_reads_object hnames hreadable hgiven
  exact hreads.decode h

/-- Such an object is decoded unless one of the fields is nested too deeply. -/
theorem Wire.decode_object_eq_ok (hf : fields.Agree) (hnames : fields.names.Nodup)
    (h : Says text (.object ms)) (hdepth : fields.Shallow (maxLevels - 1) ms) :
    (record name fields make view).decode text = .ok c ↔
      Readable ms ∧ ∃ b, fields.GivenByTrees ms b ∧ c = make b := by
  refine ⟨decode_object_sound hf hnames h, ?_⟩
  rintro ⟨hreadable, b, hb, rfl⟩
  exact decode_object_complete hnames h hreadable (hb.reads hf hdepth)

end Objects

/-- A value is taken for a record if it is an object whose members give the fields, or a list of
them. -/
theorem Wire.record_ofJson_eq_ok {fields : Fields β σ} {name : String} {make : β → γ} {view : γ → β}
    {j : Json} {c : γ} (hnames : fields.names.Nodup) :
    (record name fields make view).ofJson j = .ok c ↔ ∃ b, c = make b ∧
      ((∃ members, j = .object members ∧ fields.GivenByValues members b) ∨
        ∃ items, j = .array items ∧ fields.ofItems name items = .ok b) := by
  cases j with
  | object members =>
    simp [record, map_eq_ok, Fields.ofMembers_eq_ok hnames, and_comm, eq_comm (a := c)]
  | array items => simp [record, map_eq_ok, and_comm, eq_comm (a := c)]
  | _ => simp [record]

end ScriptHost
