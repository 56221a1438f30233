import ScriptHost.Proofs.Wire.Slots

/-! How records are read. The list form is read just as its value is. The object form is an object of
the grammar, whose members fill the fields: a field holds what the only member of its name means. -/

namespace ScriptHost

open Json

inductive Json.Listed (item : Reader Json) : Bool → List Char → List Json → List Char → Prop where
  | done (h : nextItem first s = .ok (.over rest)) : Listed item first s [] rest
  | more (h : nextItem first s = .ok (.more s₁)) (hj : item s₁ = .ok (j, s₂))
      (hjs : Listed item false s₂ js rest) : Listed item first s (j :: js) rest

theorem Json.listed_of_readItems {item : Reader Json} {room : Nat} {first : Bool}
    {s rest : List Char} {js : List Json} (h : readItems item room first s = .ok (js, rest)) :
    Listed item first s js rest := by
  induction room generalizing first s js with
  | zero => cases h
  | succ room ih =>
    obtain ⟨turn, hturn, h⟩ := bind_eq_ok.1 h
    rcases turn with s₁ | s₁
    · cases h
      exact .done hturn
    · obtain ⟨⟨j, s₂⟩, hj, h⟩ := bind_eq_ok.1 h
      obtain ⟨⟨js, _⟩, hjs, h⟩ := bind_eq_ok.1 h
      cases h
      exact .more hturn hj (ih hjs)

theorem Json.Listed.readItems {item : Reader Json} {room : Nat} {first : Bool}
    {s rest : List Char} {js : List Json} (h : Listed item first s js rest)
    (hroom : js.length < room) : readItems item room first s = .ok (js, rest) := by
  induction h generalizing room with
  | done h =>
    obtain ⟨room, rfl⟩ := Nat.exists_eq_add_one.2 (show 0 < room by omega)
    rw [Json.readItems, h]
    rfl
  | more h hj _ ih =>
    simp only [List.length_cons] at hroom
    obtain ⟨room, rfl⟩ := Nat.exists_eq_add_one.2 (show 0 < room by omega)
    have hrest := @ih room (by omega)
    rw [Json.readItems, h]
    simp only [bind, Except.bind, hj, hrest, pure, Except.pure]

/-- Each item takes a character. -/
theorem Json.Listed.length_lt {room levels : Nat} {first : Bool} {s rest : List Char}
    {js : List Json} (h : Listed (readValue room levels) first s js rest) :
    js.length < s.length := by
  induction h with
  | done h =>
    have hlt := length_lt_of_skipSpace (nextItem_over h)
    simp only [List.length_nil]
    omega
  | more h hj _ ih =>
    obtain ⟨s₀, hcomma, rfl⟩ := nextItem_more h
    obtain ⟨v, hv, -⟩ := reads_readValue room levels _ _ _ hj
    have hle := hcomma.length_le
    have hblank := length_skipSpace_le s₀
    have hlt := hv.length_lt
    simp only [List.length_cons]
    omega

theorem Json.Listed.of_end {item : Reader Json} {first : Bool} {s rest rest' : List Char}
    {js : List Json} (h : Listed item first s js rest) (hs : skipSpace s = ']' :: rest') :
    js = [] ∧ skipSpace s = ']' :: rest := by
  cases h with
  | done h => exact ⟨rfl, nextItem_over h⟩
  | more h => cases (nextItem_done hs).symm.trans h

/-- All names are texts: no surrogate stands alone in one. -/
def Json.Readable (ms : List (List Nat × Tree)) : Prop :=
  ∀ m ∈ ms, ∃ name : String, m.1 = units name.toList

/-- What a tree says for the first field of a record: the member of its name, or the first item. -/
def Json.Tree.first? (name : String) : Tree → Option Tree
  | .object ms => ms.lookup (units name.toList)
  | .array (v :: _) => some v
  | _ => none

namespace Fields

def Agree : Fields β σ → Prop
  | .nil => True
  | .cons f rest => f.wire.Agrees ∧ rest.Agree

def Grammatical : Fields β σ → Prop
  | .nil => True
  | .cons f rest => f.wire.Grammatical ∧ rest.Grammatical

theorem Agree.grammatical {fields : Fields β σ} (h : fields.Agree) : fields.Grammatical := by
  induction fields with
  | nil => trivial
  | cons f fields ih => exact ⟨h.1.grammatical, ih h.2⟩

section Lists

variable {room levels : Nat} {s rest : List Char}

theorem readListEnd_eq_ok : readListEnd s = .ok rest ↔ skipSpace s = ']' :: rest := by
  unfold readListEnd
  split
  · next heq => simp [heq]
  · next heq => simp [heq]
  · next heq =>
    rw [heq]
    split <;> simp
  · next hnot heq =>
    simp only [reduceCtorEq, false_iff]
    exact hnot rest

/-- The list form is read as its items are. -/
theorem readList_iff {fields : Fields β σ} (hf : fields.Agree) {name : String} {total k : Nat}
    {b : β} : fields.readList room levels name total k s = .ok (b, rest) ↔
      ∃ items, Listed (readValue room levels) (k = 0) s items rest ∧
        fields.takeItems name total k items = .ok (b, []) := by
  induction fields generalizing k s with
  | nil =>
    constructor
    · intro h
      obtain ⟨_, hend, h⟩ := bind_eq_ok.1 h
      cases h
      exact ⟨[], .done (nextItem_done (readListEnd_eq_ok.1 hend)), rfl⟩
    · rintro ⟨items, hitems, htake⟩
      cases htake
      cases hitems with
      | done h =>
        rw [readList, readListEnd_eq_ok.2 (nextItem_over h)]
        rfl
  | cons f fields ih =>
    have hlater : decide (k + 1 = 0) = false := by simp
    constructor
    · intro h
      rw [readList] at h
      obtain ⟨turn, hturn, h⟩ := bind_eq_ok.1 h
      split at h
      · cases h
      · next rest' a habsent =>
        obtain ⟨⟨b, _⟩, hb, h⟩ := bind_eq_ok.1 h
        cases h
        obtain ⟨items, hitems, htake⟩ := (ih hf.2).1 hb
        obtain ⟨rfl, hend⟩ := hitems.of_end (nextItem_over hturn)
        refine ⟨[], .done (nextItem_done hend), ?_⟩
        rw [takeItems, habsent]
        exact bind_eq_ok.2 ⟨_, htake, rfl⟩
      · next s' =>
        obtain ⟨⟨a, _⟩, ha, h⟩ := bind_eq_ok.1 h
        obtain ⟨⟨b, _⟩, hb, h⟩ := bind_eq_ok.1 h
        cases h
        obtain ⟨items, hitems, htake⟩ := (ih hf.2).1 hb
        obtain ⟨j, hj, hja⟩ := hf.1.iff.1 ha
        rw [hlater] at hitems
        refine ⟨j :: items, .more hturn hj hitems, ?_⟩
        exact bind_eq_ok.2 ⟨_, hja, bind_eq_ok.2 ⟨_, htake, rfl⟩⟩
    · rintro ⟨items, hitems, htake⟩
      rw [readList]
      cases hitems with
      | done h =>
        rw [takeItems] at htake
        split at htake
        · cases htake
        · next a habsent =>
          obtain ⟨⟨b, _⟩, hb, htake⟩ := bind_eq_ok.1 htake
          cases htake
          have hread := (ih hf.2).2 ⟨[], .done (nextItem_done (nextItem_over h)), hb⟩
          refine bind_eq_ok.2 ⟨_, h, ?_⟩
          rw [habsent]
          exact bind_eq_ok.2 ⟨_, hread, rfl⟩
      | more h hj hjs =>
        obtain ⟨a, hja, htake⟩ := bind_eq_ok.1 htake
        obtain ⟨⟨b, _⟩, hb, htake⟩ := bind_eq_ok.1 htake
        cases htake
        rw [← hlater] at hjs
        have hread := (ih hf.2).2 ⟨_, hjs, hb⟩
        refine bind_eq_ok.2 ⟨_, h, ?_⟩
        exact bind_eq_ok.2 ⟨_, hf.1.iff.2 ⟨_, hj, hja⟩, bind_eq_ok.2 ⟨_, hread, rfl⟩⟩

end Lists

section Objects

abbrev FilledAsRead (fields : Fields β σ) (ms : List (List Nat × Tree)) : σ → σ → Prop :=
  fields.Filled (fun name => units name.toList) (fun _ wire v a => wire.Admits v a) ms

abbrev GivenAsRead (fields : Fields β σ) (ms : List (List Nat × Tree)) : β → Prop :=
  fields.Given (fun name => units name.toList) (fun _ wire v a => wire.Admits v a) ms

abbrev GivenByTrees (fields : Fields β σ) (ms : List (List Nat × Tree)) : β → Prop :=
  fields.Given (fun name => units name.toList) (fun _ wire v a => wire.Means v a) ms

variable {room levels : Nat} {s rest : List Char} {name : String}

theorem readMember_sound {fields : Fields β σ} (hf : fields.Grammatical)
    (hnames : fields.names.Nodup) {slots slots' : σ}
    (h : fields.readMember room levels name slots s = .ok (slots', rest)) :
    ∃ s' v, skipSpace s = ':' :: s' ∧ Value s' v rest ∧
      fields.FilledAsRead [(units name.toList, v)] slots slots' := by
  induction fields with
  | nil =>
    obtain ⟨s', hcolon, h⟩ := bind_eq_ok.1 h
    obtain ⟨_, hskip, h⟩ := bind_eq_ok.1 h
    cases h
    obtain ⟨v, hv⟩ := passes_skipValue room _ _ hskip
    exact ⟨s', v, readColon_sound hcolon, hv, trivial⟩
  | cons f fields ih =>
    obtain ⟨slot, slots⟩ := slots
    obtain ⟨hname, hnames⟩ := List.nodup_cons.1 hnames
    rw [readMember] at h
    split at h
    · next heq =>
      subst heq
      split at h
      · cases h
      · next hslot =>
        obtain ⟨s', hcolon, h⟩ := bind_eq_ok.1 h
        obtain ⟨⟨a, _⟩, ha, h⟩ := bind_eq_ok.1 h
        cases h
        obtain ⟨v, hv, hadmits⟩ := hf.1.admits ha
        obtain rfl : slot = none := by simpa using hslot
        have hothers : fields.FilledAsRead [(units f.name.toList, v)] slots slots :=
          (filled_cons_iff units_toList_injective hname).2 (.refl fields slots)
        exact ⟨s', v, readColon_sound hcolon, hv, .own hadmits .nil, hothers⟩
    · next hne =>
      obtain ⟨⟨slots₁, _⟩, hslots, h⟩ := bind_eq_ok.1 h
      cases h
      obtain ⟨s', v, hcolon, hv, hothers⟩ := ih hf.2 hnames hslots
      exact ⟨s', v, hcolon, hv, .other (units_toList_injective.ne hne) .nil, hothers⟩

theorem readMembers_sound {fields : Fields β σ} (hf : fields.Grammatical)
    (hnames : fields.names.Nodup) {slots slots' : σ} {bound : Nat} {first : Bool}
    (h : fields.readMembers bound levels room first slots s = .ok (slots', rest)) :
    ∃ ms, Members first s ms rest ∧ Readable ms ∧ fields.FilledAsRead ms slots slots' := by
  induction room generalizing first slots s with
  | zero => cases h
  | succ room ih =>
    rw [readMembers] at h
    obtain ⟨turn, hturn, h⟩ := bind_eq_ok.1 h
    rcases turn with s₁ | s₁
    · cases h
      exact ⟨[], .done (nextMember_over hturn), nofun, .refl fields _⟩
    · obtain ⟨⟨name, s₂⟩, hname, h⟩ := bind_eq_ok.1 h
      obtain ⟨⟨slots₁, s₃⟩, hmember, h⟩ := bind_eq_ok.1 h
      obtain ⟨s₀, hcomma, hopen⟩ := nextMember_more hturn
      obtain ⟨s', v, hcolon, hv, hfill⟩ := readMember_sound hf hnames hmember
      obtain ⟨ms, hms, hreadable, hfills⟩ := ih h
      have hquoted : Quoted s₁ (units (String.ofList name).toList) s₂ := by
        rw [String.toList_ofList]
        exact readString_sound hname
      exact ⟨_, .member hcomma hopen hquoted hcolon hv hms,
        List.forall_mem_cons.2 ⟨⟨_, rfl⟩, hreadable⟩, hfill.append hfills⟩

/-- The object form is an object of the grammar, whose members are read for the fields. -/
theorem readObject_sound {fields : Fields β σ} {b : β} (hf : fields.Grammatical)
    (hnames : fields.names.Nodup) (h : fields.readObject room levels s = .ok (b, rest)) :
    ∃ ms, Members true s ms rest ∧ Readable ms ∧ fields.GivenAsRead ms b := by
  obtain ⟨⟨slots, _⟩, hmembers, hfinish⟩ := bind_eq_ok.1 h
  obtain ⟨ms, hms, hreadable, hfills⟩ := readMembers_sound hf hnames hmembers
  dsimp only at hfinish
  split at hfinish
  · next hb =>
    cases hfinish
    exact ⟨ms, hms, hreadable, given_iff.2 ⟨slots, hfills, hb⟩⟩
  · cases hfinish

/-- What is read for fields that are read by way of values is what they mean. -/
theorem GivenAsRead.byTrees {fields : Fields β σ} {ms : List (List Nat × Tree)} {b : β}
    (hf : fields.Agree) (h : fields.GivenAsRead ms b) : fields.GivenByTrees ms b := by
  induction fields with
  | nil => trivial
  | cons f fields ih =>
    refine ⟨h.1.imp_right ?_, ih hf.2 h.2⟩
    rintro ⟨v, hv, hadmits⟩
    exact ⟨v, hv, hf.1.means hadmits⟩

end Objects

end Fields

namespace Fields

theorem length_le_of_takeItems {fields : Fields β σ} {name : String} {total k : Nat}
    {items left : List Json} {b : β} (h : fields.takeItems name total k items = .ok (b, left)) :
    items.length ≤ fields.length + left.length := by
  induction fields generalizing k items with
  | nil =>
    cases h
    simp
  | cons f fields ih =>
    cases items with
    | nil => simp
    | cons j items =>
      obtain ⟨_, -, h⟩ := bind_eq_ok.1 h
      obtain ⟨⟨_, _⟩, hrest, h⟩ := bind_eq_ok.1 h
      cases h
      have hle := ih hrest
      simp only [List.length_cons, length]
      omega

/-- A field that may not be absent takes an item. -/
theorem takeItems_required {f : Field α} {fields : Fields β σ} {name : String} {total k : Nat}
    {items left : List Json} {a : α} {b : β} (hf : f.absent = none) :
    (cons f fields).takeItems name total k items = .ok ((a, b), left) ↔
      ∃ j rest, items = j :: rest ∧ f.wire.ofJson j = .ok a ∧
        fields.takeItems name total (k + 1) rest = .ok (b, left) := by
  cases items with
  | nil => simp [takeItems, hf]
  | cons j rest =>
    constructor
    · intro h
      obtain ⟨_, ha, h⟩ := bind_eq_ok.1 h
      obtain ⟨⟨_, _⟩, hb, h⟩ := bind_eq_ok.1 h
      cases h
      exact ⟨j, rest, rfl, ha, hb⟩
    · rintro ⟨_, _, ⟨⟩, ha, hb⟩
      exact bind_eq_ok.2 ⟨a, ha, bind_eq_ok.2 ⟨_, hb, rfl⟩⟩

theorem ofItems_eq_ok {fields : Fields β σ} {name : String} {items : List Json} {b : β} :
    fields.ofItems name items = .ok b ↔
      fields.takeItems name fields.length 0 items = .ok (b, []) := by
  rw [ofItems, bind_eq_ok]
  constructor
  · rintro ⟨⟨b', left⟩, htake, h⟩
    dsimp only at h
    split at h
    · next hleft =>
      cases h
      rw [htake, hleft]
    · cases h
  · intro htake
    exact ⟨_, htake, rfl⟩

end Fields

namespace Wire

section Records

variable {fields : Fields β σ} {name : String} {make : β → γ} {view : γ → β}
  {room levels : Nat} {s rest : List Char} {c : γ}

/-- A record is read from an object of the grammar, whose members give its fields, or from a list just
as its value is. -/
theorem record_sound (hf : fields.Agree) (hnames : fields.names.Nodup) (hroom : s.length ≤ room)
    (h : (record name fields make view).read room levels s = .ok (c, rest)) :
    (∃ ms b, Value s (.object ms) rest ∧ Readable ms ∧ fields.GivenByTrees ms b ∧ c = make b) ∨
    ∃ items b, readValue room levels s = .ok (.array items, rest) ∧
      fields.ofItems name items = .ok b ∧ c = make b := by
  obtain ⟨front, hfront, h⟩ := bind_eq_ok.1 h
  have hlead := readFront_sound hfront
  split at h
  · cases h
  · cases h
  · obtain ⟨⟨b, _⟩, hobject, h⟩ := bind_eq_ok.1 h
    cases h
    left
    obtain ⟨ms, hms, hreadable, hb⟩ :=
      Fields.readObject_sound hf.grammatical hnames (mapError_eq_ok.1 hobject)
    exact ⟨ms, b, .object hlead hms, hreadable, hb.byTrees hf, rfl⟩
  · next s' below _ =>
    obtain ⟨⟨b, _⟩, hlist, h⟩ := bind_eq_ok.1 h
    cases h
    right
    obtain ⟨items, hitems, htake⟩ := (Fields.readList_iff hf).1 (mapError_eq_ok.1 hlist)
    refine ⟨items, b, ?_, Fields.ofItems_eq_ok.2 htake, rfl⟩
    have hshort : items.length < room := by
      have hlt := length_lt_of_skipSpace hlead
      have hlength := hitems.length_lt
      omega
    exact readValue_array.2 ⟨below, s', rfl, hfront, hitems.readItems hshort⟩

/-- Whatever list is read as a value is read as a record if its items make one. -/
theorem record_list (hf : fields.Agree) {items : List Json} {b : β}
    (h : readValue room levels s = .ok (.array items, rest))
    (hb : fields.ofItems name items = .ok b) :
    (record name fields make view).read room levels s = .ok (make b, rest) := by
  obtain ⟨below, s', rfl, hfront, hitems⟩ := readValue_array.1 h
  have hlist := (Fields.readList_iff hf).2
    ⟨items, listed_of_readItems hitems, Fields.ofItems_eq_ok.1 hb⟩
  refine bind_eq_ok.2 ⟨_, hfront, ?_⟩
  exact bind_eq_ok.2 ⟨_, mapError_eq_ok.2 hlist, rfl⟩

end Records

/-- The first field of a record is absent, or it is what the text says for it. -/
theorem record_first {f : Field α} {fields : Fields β σ} {name : String} {make : α × β → γ}
    {view : γ → α × β} {room levels : Nat} {s rest : List Char} {c : γ}
    (hf : (Fields.cons f fields).Agree) (hnames : (Fields.cons f fields).names.Nodup)
    (hroom : s.length ≤ room)
    (h : (record name (.cons f fields) make view).read room levels s = .ok (c, rest)) :
    ∃ root a b, Value s root rest ∧ c = make (a, b) ∧
      (f.absent = some a ∨ ∃ v, root.first? f.name = some v ∧ f.wire.Means v a) := by
  rcases record_sound hf hnames hroom h with
    ⟨ms, ⟨a, b⟩, hms, -, hgiven, rfl⟩ | ⟨items, ⟨a, b⟩, hitems, hb, rfl⟩
  · exact ⟨.object ms, a, b, hms, rfl, hgiven.1.lookup⟩
  · obtain ⟨root, hroot, hholds, -⟩ := reads_readValue _ _ _ _ _ hitems
    refine ⟨root, a, b, hroot, rfl, ?_⟩
    have htake := Fields.ofItems_eq_ok.1 hb
    cases hholds with
    | object _ hmembers => cases hmembers
    | array hvs =>
      cases hvs with
      | nil =>
        rw [Fields.takeItems] at htake
        split at htake
        · cases htake
        · next habsent =>
          obtain ⟨⟨_, _⟩, -, htake⟩ := bind_eq_ok.1 htake
          cases htake
          exact .inl habsent
      | @cons v j vs js hv hvs =>
        obtain ⟨a, ha, htake⟩ := bind_eq_ok.1 htake
        obtain ⟨⟨_, _⟩, -, htake⟩ := bind_eq_ok.1 htake
        cases htake
        exact .inr ⟨v, rfl, j, hv, ha⟩

end Wire

end ScriptHost
