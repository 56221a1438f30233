import ScriptHost.Proofs.Wire.Members

/-! The two ways of reading a wire type, straight from a text and by way of a value, for records too.
They agree unless a name that the type knows is repeated. Only the first way notices that: of a name
that is repeated a value has the last member alone. -/

namespace ScriptHost

open Json

/-- The member names that a type knows: those of its fields, each with what the type of the field
knows. A type that is no record knows none. -/
inductive Names where
  | plain
  | record (fields : List (String × Names))

namespace Names

/-- A name that is known is repeated among the members of an object, or of one further inside that
stands where a known name or place leads. -/
inductive Repeats : Names → Tree → Prop where
  | here (hname : name ∈ fields.map Prod.fst) (htwice : 1 < occurrences (units name.toList) ms) :
      Repeats (.record fields) (.object ms)
  | member (hfield : (name, known) ∈ fields) (hm : (units name.toList, v) ∈ ms)
      (h : Repeats known v) : Repeats (.record fields) (.object ms)
  | item (k : Nat) {vs : List Tree} (hfield : fields[k]? = some (name, known))
      (hitem : vs[k]? = some v) (h : Repeats known v) : Repeats (.record fields) (.array vs)

def RepeatedIn (known : Names) (text : String) : Prop := ∃ v, Says text v ∧ known.Repeats v

variable {known : Names} {others : List (String × Names)} {name : String} {v : Tree}
  {vs : List Tree}

theorem not_repeats_plain : ¬ Repeats .plain v := nofun

theorem not_repeats_nil : ¬ Repeats (.record others) (.array []) := by
  intro h
  cases h with
  | item k _ hitem => simp at hitem

theorem repeats_cons : Repeats (.record ((name, known) :: others)) (.array (v :: vs)) ↔
    Repeats known v ∨ Repeats (.record others) (.array vs) := by
  constructor
  · intro h
    cases h with
    | item k hfield hitem h =>
      cases k with
      | zero =>
        cases hfield
        cases hitem
        exact .inl h
      | succ k => exact .inr (.item k hfield hitem h)
  · rintro (h | h)
    · exact .item 0 rfl rfl h
    · cases h with
      | item k hfield hitem h => exact .item (k + 1) hfield hitem h

end Names

/-- The type knows these names and no others: where none of them is repeated a text is read as its
value is taken, and elsewhere it is not read. -/
structure Wire.Knows (wire : Wire α) (known : Names) : Prop where
  grammatical : wire.Grammatical
  unrepeated : ∀ {v a}, wire.Admits v a → ¬ known.Repeats v
  value : ∀ {v a j}, wire.Admits v a → Holds v j → wire.ofJson j = .ok a
  reads : ∀ {levels v a j}, Holds v j → v.depth ≤ levels → ¬ known.Repeats v →
    wire.ofJson j = .ok a → wire.Reads levels v a

/-- What is read by way of values knows no names. -/
theorem Wire.Agrees.knows {wire : Wire α} (h : wire.Agrees) : wire.Knows .plain where
  grammatical := h.grammatical
  unrepeated _ := Names.not_repeats_plain
  value hadmits hj := by
    obtain ⟨j, hj', ha⟩ := h.means hadmits
    rw [hj.unique hj', ha]
  reads hj hdepth _ ha := h.reads ⟨_, hj, ha⟩ hdepth

namespace Fields

inductive Know : {β σ : Type} → Fields β σ → List (String × Names) → Prop where
  | nil : Know .nil []
  | cons {α β σ : Type} {f : Field α} {fields : Fields β σ} {known : Names}
      {others : List (String × Names)} (hf : f.wire.Knows known) (h : Know fields others) :
      Know (.cons f fields) ((f.name, known) :: others)

variable {fields : Fields β σ} {known : List (String × Names)}

theorem Know.grammatical (h : fields.Know known) : fields.Grammatical := by
  induction h with
  | nil => trivial
  | cons hf _ ih => exact ⟨hf.grammatical, ih⟩

theorem Know.names_eq (h : fields.Know known) : fields.names = known.map Prod.fst := by
  induction h with
  | nil => rfl
  | cons _ _ ih => rw [names, ih, List.map_cons]

end Fields

section Objects

variable {ms : List (List Nat × Tree)} {members sorted : List (String × Json)}

namespace Fields

variable {fields : Fields β σ} {known : List (String × Names)} {b : β}

/-- What is read of the members of an object is what its value gives. -/
theorem Know.byValues (h : fields.Know known) (hholds : Holds (.object ms) (.object sorted))
    (hb : fields.GivenAsRead ms b) : fields.GivenByValues sorted b := by
  induction h with
  | nil => trivial
  | cons hf _ ih =>
    obtain ⟨a, b⟩ := b
    have hone := hb.length_under_le _ (List.mem_cons_self ..)
    refine ⟨?_, ih hb.2⟩
    rcases hb.1 with ⟨hnil, habsent⟩ | ⟨v, hv, ha⟩
    · rcases under_holds hholds hone with ⟨-, hsorted⟩ | ⟨_, _, hv, -⟩
      · exact .inl ⟨hsorted, habsent⟩
      · cases hnil.symm.trans hv
    · rcases under_holds hholds hone with ⟨hnil, -⟩ | ⟨v', j, hv', hsorted, hj⟩
      · cases hnil.symm.trans hv
      · cases hv.symm.trans hv'
        exact .inr ⟨j, hsorted, hf.value ha hj⟩

/-- What a value gives is read of the members of its text, where no name is repeated. -/
theorem Know.byReading {levels : Nat} (h : fields.Know known)
    (hholds : Holds (.object ms) (.object sorted)) (hdepth : Tree.depthMembers ms ≤ levels)
    (hrepeats : ¬ Names.Repeats (.record known) (.object ms)) (hb : fields.GivenByValues sorted b) :
    fields.Given (fun name => units name.toList) (fun _ wire v a => wire.Reads levels v a) ms b := by
  have hone : ∀ name ∈ known.map Prod.fst, (under (units name.toList) ms).length ≤ 1 := by
    intro name hname
    rw [length_under]
    exact Nat.le_of_not_lt fun htwice => hrepeats (.here hname htwice)
  have hinside : ∀ m ∈ known, ∀ v, (units m.1.toList, v) ∈ ms → ¬ m.2.Repeats v :=
    fun m hm v hv h => hrepeats (.member hm hv h)
  clear hrepeats
  induction h with
  | nil => trivial
  | cons hf _ ih =>
    obtain ⟨a, b⟩ := b
    obtain ⟨hname, hnames⟩ := List.forall_mem_cons.1 hone
    obtain ⟨hfield, hfields⟩ := List.forall_mem_cons.1 hinside
    refine ⟨?_, ih hb.2 hnames hfields⟩
    rcases under_holds hholds hname with ⟨hnil, hsorted⟩ | ⟨v, j, hv, hsorted, hj⟩
    · rcases hb.1 with ⟨-, habsent⟩ | ⟨_, hj, -⟩
      · exact .inl ⟨hnil, habsent⟩
      · cases hsorted.symm.trans hj
    · rcases hb.1 with ⟨hnil, -⟩ | ⟨j', hj', ha⟩
      · cases hsorted.symm.trans hnil
      · cases hsorted.symm.trans hj'
        have hmem := mem_of_under hv
        have hle := (Tree.depth_le_depthMembers hmem).trans hdepth
        exact .inr ⟨v, hv, hf.reads hj hle (hfield v hmem) ha⟩

/-- No name is repeated where the members of an object are read. -/
theorem Know.object_unrepeated (h : fields.Know known) (hb : fields.GivenAsRead ms b) :
    ¬ Names.Repeats (.record known) (.object ms) := by
  have hone : ∀ name ∈ known.map Prod.fst, (under (units name.toList) ms).length ≤ 1 := by
    rw [← h.names_eq]
    exact hb.length_under_le
  have hinside : ∀ m ∈ known, ∀ v, (units m.1.toList, v) ∈ ms → ¬ m.2.Repeats v := by
    clear hone
    induction h with
    | nil => exact nofun
    | @cons _ _ _ f _ _ _ hf _ ih =>
      refine List.forall_mem_cons.2 ⟨fun v hv => ?_, ih hb.2⟩
      have hmem : (units f.name.toList, v) ∈ under (units f.name.toList) ms :=
        List.mem_filter.2 ⟨hv, by simp⟩
      rcases hb.1 with ⟨hnil, -⟩ | ⟨w, hw, ha⟩
      · rw [hnil] at hmem
        cases hmem
      · rw [hw, List.mem_singleton] at hmem
        cases hmem
        exact hf.unrepeated ha
  intro hrepeats
  cases hrepeats with
  | here hname htwice =>
    have hle := hone _ hname
    rw [length_under] at hle
    exact absurd htwice (Nat.not_lt.2 hle)
  | member hfield hm h => exact hinside _ hfield _ hm h

end Fields

end Objects

section Lists

/-- Where a list ends no item stands. -/
theorem Json.Items.eq_nil {first : Bool} {s rest rest' : List Char} {vs : List Tree}
    (h : Items first s vs rest) (hs : skipSpace s = ']' :: rest') : vs = [] ∧ rest = rest' := by
  cases h with
  | done h =>
    cases hs.symm.trans h
    exact ⟨rfl, rfl⟩
  | item hcomma hv => exact absurd hv (hcomma.not_done hs)

variable {ν : Type}

/-- The fields are given by the items of a list, in their order. Those for which no item is left have
what stands for their absence. -/
def Fields.Taken (gives : ⦃α : Type⦄ → Wire α → ν → α → Prop) : Fields β σ → List ν → β → Prop
  | .nil, vs, _ => vs = []
  | .cons f rest, [], (a, b) => f.absent = some a ∧ rest.Taken gives [] b
  | .cons f rest, v :: vs, (a, b) => gives f.wire v a ∧ rest.Taken gives vs b

namespace Fields

variable {fields : Fields β σ} {known : List (String × Names)} {b : β} {vs : List Tree}
  {js : List Json} {room levels k total : Nat} {name : String} {s rest : List Char}

theorem takeItems_eq_ok : fields.takeItems name total k js = .ok (b, []) ↔
    fields.Taken (fun _ wire j a => wire.ofJson j = .ok a) js b := by
  induction fields generalizing k js with
  | nil => simp [takeItems, Taken]
  | cons f fields ih =>
    obtain ⟨a, b⟩ := b
    cases js with
    | nil =>
      rw [takeItems, Taken, ← ih (k := k + 1)]
      cases f.absent with
      | none => simp
      | some a' =>
        cases takeItems name total (k + 1) fields [] <;>
          simp [bind, Except.bind, pure, Except.pure, Prod.ext_iff, and_assoc]
    | cons j js =>
      rw [takeItems, Taken, ← ih (k := k + 1), bind_eq_ok]
      constructor
      · rintro ⟨_, ha, h⟩
        obtain ⟨⟨_, _⟩, hb, h⟩ := bind_eq_ok.1 h
        cases h
        exact ⟨ha, hb⟩
      · rintro ⟨ha, hb⟩
        exact ⟨a, ha, bind_eq_ok.2 ⟨_, hb, rfl⟩⟩

theorem readList_sound (hf : fields.Grammatical)
    (h : fields.readList room levels name total k s = .ok (b, rest)) :
    ∃ vs, Items (k = 0) s vs rest ∧ fields.Taken (fun _ wire v a => wire.Admits v a) vs b := by
  induction fields generalizing k s with
  | nil =>
    obtain ⟨_, hend, h⟩ := bind_eq_ok.1 h
    cases h
    exact ⟨[], .done (readListEnd_eq_ok.1 hend), rfl⟩
  | cons f fields ih =>
    rw [readList] at h
    obtain ⟨turn, hturn, h⟩ := bind_eq_ok.1 h
    split at h
    · cases h
    · next a habsent =>
      obtain ⟨⟨b, _⟩, hb, h⟩ := bind_eq_ok.1 h
      cases h
      have hend := nextItem_over hturn
      obtain ⟨vs, hvs, htaken⟩ := ih hf.2 hb
      obtain ⟨rfl, rfl⟩ := hvs.eq_nil hend
      exact ⟨[], .done hend, habsent, htaken⟩
    · obtain ⟨⟨a, _⟩, ha, h⟩ := bind_eq_ok.1 h
      obtain ⟨⟨b, _⟩, hb, h⟩ := bind_eq_ok.1 h
      cases h
      obtain ⟨s₁, hcomma, rfl⟩ := nextItem_more hturn
      obtain ⟨v, hv, hadmits⟩ := hf.1.admits ha
      obtain ⟨vs, hvs, htaken⟩ := ih hf.2 hb
      rw [show decide (k + 1 = 0) = false by simp] at hvs
      exact ⟨v :: vs, .item hcomma (hv.of_skipSpace (skipSpace_skipSpace s₁)) hvs, hadmits, htaken⟩

theorem readList_complete (h : Items (k = 0) s vs rest)
    (htaken : fields.Taken (fun _ wire v a => wire.Reads levels v a) vs b)
    (hroom : s.length ≤ room) :
    fields.readList room levels name total k s = .ok (b, rest) := by
  have hlater : decide (k + 1 = 0) = false := by simp
  induction fields generalizing k s vs with
  | nil =>
    cases htaken
    cases h with
    | done h => exact bind_eq_ok.2 ⟨_, readListEnd_eq_ok.2 h, rfl⟩
  | cons f fields ih =>
    obtain ⟨a, b⟩ := b
    rw [readList]
    cases h with
    | done h =>
      obtain ⟨habsent, hb⟩ := htaken
      refine bind_eq_ok.2 ⟨_, nextItem_done h, ?_⟩
      rw [habsent]
      exact bind_eq_ok.2 ⟨_, ih (.done h) hb hroom (by simp), rfl⟩
    | @item _ _ s₁ v s₂ vs _ hcomma hv hvs =>
      obtain ⟨ha, hb⟩ := htaken
      have hle := hcomma.length_le
      have hblank := length_skipSpace_le s₁
      have hlt := hv.length_lt
      have hvalue := hv.of_skipSpace (skipSpace_skipSpace s₁).symm
      have hread : f.wire.read room levels (skipSpace s₁) = .ok (a, s₂) :=
        ha hvalue (by omega) hvs.ends
      rw [← hlater] at hvs
      refine bind_eq_ok.2 ⟨_, nextItem_complete hcomma hv, bind_eq_ok.2 ⟨_, hread, ?_⟩⟩
      exact bind_eq_ok.2 ⟨_, ih hvs hb (by omega) (by simp), rfl⟩

/-- What is read of the items of a list is what their values give. -/
theorem Know.takenByValues (h : fields.Know known) (hjs : HoldItems vs js)
    (hb : fields.Taken (fun _ wire v a => wire.Admits v a) vs b) :
    fields.Taken (fun _ wire j a => wire.ofJson j = .ok a) js b := by
  induction h generalizing vs js with
  | nil =>
    cases hb
    cases hjs
    rfl
  | cons hf _ ih =>
    cases hjs with
    | nil => exact ⟨hb.1, ih .nil hb.2⟩
    | cons hj hjs => exact ⟨hf.value hb.1 hj, ih hjs hb.2⟩

theorem Know.takenByReading (h : fields.Know known) (hjs : HoldItems vs js)
    (hdepth : Tree.depthItems vs ≤ levels)
    (hrepeats : ¬ Names.Repeats (.record known) (.array vs))
    (hb : fields.Taken (fun _ wire j a => wire.ofJson j = .ok a) js b) :
    fields.Taken (fun _ wire v a => wire.Reads levels v a) vs b := by
  induction h generalizing vs js with
  | nil =>
    cases hb
    cases hjs
    rfl
  | cons hf _ ih =>
    cases hjs with
    | nil => exact ⟨hb.1, ih .nil hdepth Names.not_repeats_nil hb.2⟩
    | cons hj hjs =>
      obtain ⟨hfirst, hothers⟩ := not_or.1 (Names.repeats_cons.not.1 hrepeats)
      obtain ⟨hle, hles⟩ := Nat.max_le.1 hdepth
      exact ⟨hf.reads hj hle hfirst hb.1, ih hjs hles hothers hb.2⟩

theorem Know.list_unrepeated (h : fields.Know known)
    (hb : fields.Taken (fun _ wire v a => wire.Admits v a) vs b) :
    ¬ Names.Repeats (.record known) (.array vs) := by
  induction h generalizing vs with
  | nil =>
    cases hb
    exact Names.not_repeats_nil
  | cons hf _ ih =>
    cases vs with
    | nil => exact Names.not_repeats_nil
    | cons v vs => exact Names.repeats_cons.not.2 (not_or.2 ⟨hf.unrepeated hb.1, ih hb.2⟩)

end Fields

end Lists

namespace Wire

section Records

variable {fields : Fields β σ} {known : List (String × Names)} {name : String} {make : β → γ}
  {view : γ → β} {room levels : Nat} {s rest : List Char} {v : Tree} {c : γ}

/-- A record is read from an object whose members are read for its fields, or from a list whose items
are. -/
theorem record_read_sound (hf : fields.Grammatical) (hnames : fields.names.Nodup)
    (h : (record name fields make view).read room levels s = .ok (c, rest)) : ∃ v b,
      Value s v rest ∧ c = make b ∧ ((∃ ms, v = .object ms ∧ fields.GivenAsRead ms b) ∨
        ∃ vs, v = .array vs ∧ fields.Taken (fun _ wire v a => wire.Admits v a) vs b) := by
  obtain ⟨front, hfront, h⟩ := bind_eq_ok.1 h
  have hlead := readFront_sound hfront
  split at h
  · cases h
  · cases h
  · obtain ⟨⟨b, _⟩, hobject, h⟩ := bind_eq_ok.1 h
    cases h
    obtain ⟨ms, hms, -, hb⟩ := Fields.readObject_sound hf hnames (mapError_eq_ok.1 hobject)
    exact ⟨_, b, .object hlead hms, rfl, .inl ⟨ms, rfl, hb⟩⟩
  · obtain ⟨⟨b, _⟩, hlist, h⟩ := bind_eq_ok.1 h
    cases h
    obtain ⟨vs, hvs, hb⟩ := Fields.readList_sound hf (mapError_eq_ok.1 hlist)
    exact ⟨_, b, .array hlead hvs, rfl, .inr ⟨vs, rfl, hb⟩⟩

theorem record_admits (hf : fields.Grammatical) (hnames : fields.names.Nodup)
    (h : (record name fields make view).Admits v c) : ∃ b, c = make b ∧
      ((∃ ms, v = .object ms ∧ fields.GivenAsRead ms b) ∨
        ∃ vs, v = .array vs ∧ fields.Taken (fun _ wire v a => wire.Admits v a) vs b) := by
  obtain ⟨room, levels, s, rest, hv, hread⟩ := h
  obtain ⟨v', b, hv', hc, hb⟩ := record_read_sound hf hnames hread
  obtain rfl := hv.tree_unique hv'
  exact ⟨b, hc, hb⟩

theorem record_reads_list {vs : List Tree} {b : β}
    (htaken : fields.Taken (fun _ wire v a => wire.Reads levels v a) vs b) :
    (record name fields make view).Reads (levels + 1) (.array vs) (make b) := by
  intro room s rest hv hroom _
  cases hv with
  | @array _ s' _ _ hopen hvs =>
    have hshort := length_lt_of_skipSpace hopen
    have hread : fields.readList room levels name fields.length 0 s' = .ok (b, rest) :=
      Fields.readList_complete hvs htaken (by omega)
    refine bind_eq_ok.2 ⟨.list s', by rw [readFront, hopen]; rfl, ?_⟩
    exact bind_eq_ok.2 ⟨_, mapError_eq_ok.2 hread, rfl⟩

/-- What is read of a text as a record is what its value is taken for. -/
theorem record_value (hf : fields.Know known) (hnames : fields.names.Nodup) {j : Json}
    (hadmits : (record name fields make view).Admits v c) (hj : Holds v j) :
    (record name fields make view).ofJson j = .ok c := by
  rw [record_ofJson_eq_ok hnames]
  obtain ⟨b, hc, ⟨ms, rfl, hb⟩ | ⟨vs, rfl, hb⟩⟩ := record_admits hf.grammatical hnames hadmits
  · obtain ⟨sorted, rfl⟩ : ∃ sorted, j = .object sorted := by
      cases hj with
      | object _ hj => exact ⟨_, hj⟩
    exact ⟨b, hc, .inl ⟨sorted, rfl, hf.byValues hj hb⟩⟩
  · cases hj with
    | array hjs =>
      have htaken := hf.takenByValues hjs hb
      exact ⟨b, hc, .inr ⟨_, rfl, Fields.ofItems_eq_ok.2 (Fields.takeItems_eq_ok.2 htaken)⟩⟩

/-- What a value is taken for is read of its text, where no name is repeated. -/
theorem record_reads (hf : fields.Know known) (hnames : fields.names.Nodup) {j : Json}
    (hj : Holds v j) (hdepth : v.depth ≤ levels) (hrepeats : ¬ Names.Repeats (.record known) v)
    (hc : (record name fields make view).ofJson j = .ok c) :
    (record name fields make view).Reads levels v c := by
  obtain ⟨b, rfl, ⟨members, rfl, hb⟩ | ⟨items, rfl, hb⟩⟩ := (record_ofJson_eq_ok hnames).1 hc
  · obtain ⟨ms, raw, rfl, hraw⟩ : ∃ ms raw, v = .object ms ∧ HoldMembers ms raw := by
      cases hj with
      | object hraw => exact ⟨_, _, rfl, hraw⟩
    -- the members stand one level below the record
    rw [Tree.depth] at hdepth
    obtain ⟨below, rfl⟩ := Nat.exists_eq_add_one.2 (show 0 < levels by omega)
    have hgiven := hf.byReading hj (Nat.le_of_succ_le_succ hdepth) hrepeats hb
    intro room s rest hv hroom hrest
    exact record_reads_object hnames hraw.readable hgiven hv hroom hrest
  · obtain ⟨vs, rfl, hvs⟩ : ∃ vs, v = .array vs ∧ HoldItems vs items := by
      cases hj with
      | array hvs => exact ⟨_, rfl, hvs⟩
      | object _ hj => cases hj
    rw [Tree.depth] at hdepth
    obtain ⟨below, rfl⟩ := Nat.exists_eq_add_one.2 (show 0 < levels by omega)
    have htake := Fields.takeItems_eq_ok.1 (Fields.ofItems_eq_ok.1 hb)
    have htaken := hf.takenByReading hvs (Nat.le_of_succ_le_succ hdepth) hrepeats htake
    intro room s rest hv hroom hrest
    exact record_reads_list htaken hv hroom hrest

/-- A record knows the names of its fields, and what their types know. -/
theorem record_knows (hf : fields.Know known) (hnames : fields.names.Nodup) :
    (record name fields make view).Knows (.record known) where
  grammatical _ _ _ _ _ hread := by
    obtain ⟨v, _, hv, -⟩ := record_read_sound hf.grammatical hnames hread
    exact ⟨v, hv⟩
  unrepeated hadmits := by
    obtain ⟨b, -, ⟨ms, rfl, hb⟩ | ⟨vs, rfl, hb⟩⟩ := record_admits hf.grammatical hnames hadmits
    · exact hf.object_unrepeated hb
    · exact hf.list_unrepeated hb
  value := record_value hf hnames
  reads := record_reads hf hnames

end Records

section Texts

variable {wire : Wire α} {known : Names} {text : String} {v : Tree} {a b : α} {j : Json}

theorem decodeByValue_eq_ok : wire.decodeByValue text = .ok a ↔
    ∃ j, json.decode text = .ok j ∧ wire.ofJson j = .ok a := by
  rw [decodeByValue, bind_eq_ok]
  refine exists_congr fun j => and_congr_right fun _ => ?_
  cases wire.ofJson j <;> simp [pure, Except.pure]

structure PathsAgree (wire : Wire α) (known : Names) : Prop where
  /-- What is read by way of a value is read straight from the text, or that is refused for a name
  that is repeated. -/
  same_or_refused : ∀ {text a}, wire.decodeByValue text = .ok a → wire.decode text = .ok a ∨
    (∃ e, wire.decode text = .error e) ∧ known.RepeatedIn text
  refused : ∀ {text}, known.RepeatedIn text → ∃ e, wire.decode text = .error e
  equal : ∀ {text a b}, wire.decodeByValue text = .ok a → wire.decode text = .ok b → a = b

theorem Grammatical.admits_of_decode (h : wire.Grammatical) (hsaid : Says text v)
    (hdecode : wire.decode text = .ok a) : wire.Admits v a := by
  obtain ⟨rest, hread, hrest⟩ := decode_eq_ok.1 hdecode
  obtain ⟨v', hv⟩ := h _ _ _ _ _ hread
  obtain rfl : v = v' := hsaid.unique ⟨rest, hv, hrest⟩
  exact ⟨_, _, _, rest, hv, hread⟩

/-- Where no name is repeated, what a value is taken for is read from its text. -/
theorem Knows.decode (h : wire.Knows known) (hj : json.decode text = .ok j)
    (ha : wire.ofJson j = .ok a) (hrepeats : ¬ known.RepeatedIn text) :
    wire.decode text = .ok a := by
  obtain ⟨v, hsaid, hholds, hdepth⟩ := says_of_decode hj
  have hunrepeated : ¬ known.Repeats v := fun hv => hrepeats ⟨v, hsaid, hv⟩
  exact Reads.decode (h.reads hholds hdepth hunrepeated ha) hsaid

theorem Knows.refused (h : wire.Knows known) (hrepeats : known.RepeatedIn text) :
    ∃ e, wire.decode text = .error e := by
  obtain ⟨v, hsaid, hv⟩ := hrepeats
  cases hdecode : wire.decode text with
  | ok a => exact absurd hv (h.unrepeated (h.grammatical.admits_of_decode hsaid hdecode))
  | error e => exact ⟨e, rfl⟩

theorem Knows.value_of_decode (h : wire.Knows known) (hj : json.decode text = .ok j)
    (ha : wire.decode text = .ok a) : wire.ofJson j = .ok a := by
  obtain ⟨v, hsaid, hholds, -⟩ := says_of_decode hj
  exact h.value (h.grammatical.admits_of_decode hsaid ha) hholds

theorem Knows.pathsAgree (h : wire.Knows known) : wire.PathsAgree known where
  same_or_refused {text a} hvalue := by
    obtain ⟨j, hj, ha⟩ := decodeByValue_eq_ok.1 hvalue
    by_cases hrepeats : known.RepeatedIn text
    · exact .inr ⟨h.refused hrepeats, hrepeats⟩
    · exact .inl (h.decode hj ha hrepeats)
  refused hrepeats := h.refused hrepeats
  equal {text a b} hvalue hdecode := by
    obtain ⟨j, hj, ha⟩ := decodeByValue_eq_ok.1 hvalue
    have hb := h.value_of_decode hj hdecode
    exact Except.ok.inj (ha.symm.trans hb)

end Texts

end Wire

end ScriptHost
