import ScriptHost.Proofs.Json.Soundness
import ScriptHost.Wire.Record

/-! The two ways of reading a wire type, straight from a text and by way of a value, agree for all
types that are no records: what is read is what is made of the value read there. -/

namespace ScriptHost

open Json

/-- What is read from a text is what is made of the value that is read there. -/
structure Wire.Agrees (wire : Wire α) : Prop where
  iff : ∀ {room levels s a rest}, wire.read room levels s = .ok (a, rest) ↔
    ∃ j, readValue room levels s = .ok (j, rest) ∧ wire.ofJson j = .ok a

def Wire.Means (wire : Wire α) (v : Tree) (a : α) : Prop := ∃ j, Holds v j ∧ wire.ofJson j = .ok a

/-- Somewhere `v` is said and read as `a`. -/
def Wire.Admits (wire : Wire α) (v : Tree) (a : α) : Prop :=
  ∃ room levels s rest, Value s v rest ∧ wire.read room levels s = .ok (a, rest)

def Wire.Grammatical (wire : Wire α) : Prop :=
  ∀ room levels s a rest, wire.read room levels s = .ok (a, rest) → ∃ v, Value s v rest

namespace Wire

variable {wire : Wire α} {room levels : Nat} {s rest : List Char} {v : Tree} {a : α}

theorem Grammatical.admits (h : wire.Grammatical) (hread : wire.read room levels s = .ok (a, rest)) :
    ∃ v, Value s v rest ∧ wire.Admits v a := by
  obtain ⟨v, hv⟩ := h _ _ _ _ _ hread
  exact ⟨v, hv, room, levels, s, rest, hv, hread⟩

theorem Agrees.grammatical (h : wire.Agrees) : wire.Grammatical := by
  intro room levels s a rest hread
  obtain ⟨j, hj, -⟩ := h.iff.1 hread
  obtain ⟨v, hv, -⟩ := reads_readValue room levels s j rest hj
  exact ⟨v, hv⟩

theorem Agrees.means (h : wire.Agrees) (hadmits : wire.Admits v a) : wire.Means v a := by
  obtain ⟨room, levels, s, rest, hv, hread⟩ := hadmits
  obtain ⟨j, hj, ha⟩ := h.iff.1 hread
  obtain ⟨v', hv', hholds, -⟩ := reads_readValue room levels s j rest hj
  obtain rfl := hv.tree_unique hv'
  exact ⟨j, hholds, ha⟩

theorem agrees_json : json.Agrees := by
  refine ⟨fun {room levels s j rest} => ?_⟩
  constructor
  · intro h
    exact ⟨j, h, rfl⟩
  · rintro ⟨_, h, hj⟩
    cases hj
    exact h

theorem lift_eq_ok {x : Except Flaw α} : Fault.lift rest x = .ok a ↔ x = .ok a := by
  cases x <;> simp [Fault.lift]

/-- A scalar is accepted or refused by its front; a list or an object is refused in any case. -/
theorem agrees_scalar {accept : Json → Except Flaw α} {print : α → List Char}
    (hlist : ∀ js a, accept (.array js) ≠ .ok a) (hmap : ∀ ms a, accept (.object ms) ≠ .ok a) :
    (scalar accept print).Agrees := by
  refine ⟨fun {room levels s a rest} => ?_⟩
  obtain ⟨inner, hinner⟩ := readValue_eq room levels
  rw [hinner]
  constructor
  · intro h
    obtain ⟨front, hfront, h⟩ := bind_eq_ok.1 h
    split at h
    · next j rest' =>
      obtain ⟨b, hb, h⟩ := bind_eq_ok.1 h
      cases h
      refine ⟨j, ?_, lift_eq_ok.1 hb⟩
      rw [readNode, hfront]
      rfl
    · obtain ⟨b, hb, -⟩ := bind_eq_ok.1 h
      exact absurd (lift_eq_ok.1 hb) (hlist [] b)
    · obtain ⟨b, hb, -⟩ := bind_eq_ok.1 h
      exact absurd (lift_eq_ok.1 hb) (hmap [] b)
  · rintro ⟨j, hj, ha⟩
    obtain ⟨front, hfront, h⟩ := bind_eq_ok.1 hj
    have ha : accept j = .ok a := ha
    split at h
    · cases h
      simp [scalar, readScalar, hfront, lift_eq_ok.2 ha, bind, Except.bind, pure, Except.pure]
    · cases h
    · cases h
    · obtain ⟨⟨js, _⟩, -, h⟩ := bind_eq_ok.1 h
      cases h
      exact absurd ha (hlist js a)
    · obtain ⟨⟨ms, _⟩, -, h⟩ := bind_eq_ok.1 h
      cases h
      exact absurd ha (hmap _ a)

theorem agrees_text : text.Agrees :=
  agrees_scalar (fun _ _ h => by cases h) (fun _ _ h => by cases h)

theorem agrees_flag : flag.Agrees :=
  agrees_scalar (fun _ _ h => by cases h) (fun _ _ h => by cases h)

theorem agrees_unsigned (bits : Nat) (ofNat : Nat → α) (toNat : α → Nat) :
    (unsigned bits ofNat toNat).Agrees :=
  agrees_scalar (fun _ _ h => by cases h) (fun _ _ h => by cases h)

theorem agrees_written (read : String → Except String α) (print : α → String) :
    (written read print).Agrees :=
  agrees_scalar (fun _ _ h => by cases h) (fun _ _ h => by cases h)

theorem Agrees.map (h : wire.Agrees) (make : α → β) (view : β → α) :
    (wire.map make view).Agrees := by
  refine ⟨fun {room levels s b rest} => ?_⟩
  simp only [Wire.map]
  constructor
  · intro hread
    obtain ⟨⟨a, _⟩, ha, hb⟩ := bind_eq_ok.1 hread
    cases hb
    obtain ⟨j, hj, hja⟩ := h.iff.1 ha
    exact ⟨j, hj, by rw [hja]; rfl⟩
  · rintro ⟨j, hj, hjb⟩
    obtain ⟨a, hja, rfl⟩ := map_eq_ok.1 hjb
    rw [h.iff.2 ⟨j, hj, hja⟩]
    rfl

/-- Only the letter that begins `null` leads to it. -/
theorem ne_null_of_readValue {j : Json} (h : readValue room levels s = .ok (j, rest))
    (hs : ∀ tail, skipSpace s ≠ 'n' :: tail) : j ≠ .null := by
  obtain ⟨v, hv, hvj, -⟩ := reads_readValue room levels s j rest h
  rintro rfl
  cases hvj with
  | null =>
    cases hv with
    | null hnull => exact hs _ hnull
  | object _ hj => cases hj

theorem readFront_null {tail : List Char} (hs : skipSpace s = 'n' :: tail) :
    readFront room s = do return .scalar .null (← readWord ['u', 'l', 'l'] tail) := by
  rw [readFront, hs]
  rfl

theorem readValue_null {tail : List Char} (hs : skipSpace s = 'n' :: tail) {j : Json} :
    readValue room levels s = .ok (j, rest) ↔
      readWord ['u', 'l', 'l'] tail = .ok rest ∧ j = .null := by
  obtain ⟨inner, hinner⟩ := readValue_eq room levels
  rw [hinner, readNode, readFront_null hs]
  constructor
  · intro h
    obtain ⟨front, hfront, h⟩ := bind_eq_ok.1 h
    obtain ⟨_, hword, hfront⟩ := bind_eq_ok.1 hfront
    cases hfront
    cases h
    exact ⟨hword, rfl⟩
  · rintro ⟨hword, rfl⟩
    rw [hword]
    rfl

theorem optional_ofJson {j : Json} (hj : j ≠ .null) :
    wire.optional.ofJson j = some <$> wire.ofJson j := by
  cases j <;> first | rfl | exact absurd rfl hj

theorem Agrees.optional (h : wire.Agrees) : wire.optional.Agrees := by
  refine ⟨fun {room levels s a rest} => ?_⟩
  simp only [Wire.optional]
  split
  · next tail hs =>
    simp only [readValue_null hs]
    constructor
    · intro hread
      obtain ⟨_, hword, ha⟩ := bind_eq_ok.1 hread
      cases ha
      exact ⟨.null, ⟨hword, rfl⟩, rfl⟩
    · rintro ⟨_, ⟨hword, rfl⟩, ha⟩
      cases ha
      rw [hword]
      rfl
  · next hs =>
    have hnull : ∀ j, readValue room levels s = .ok (j, rest) → j ≠ .null :=
      fun j hj => ne_null_of_readValue hj hs
    constructor
    · intro hread
      obtain ⟨⟨b, _⟩, hb, ha⟩ := bind_eq_ok.1 hread
      cases ha
      obtain ⟨j, hj, hjb⟩ := h.iff.1 hb
      rw [readValue_skipSpace] at hj
      exact ⟨j, hj, (optional_ofJson (hnull j hj)).trans (map_eq_ok.2 ⟨b, hjb, rfl⟩)⟩
    · rintro ⟨j, hj, ha⟩
      obtain ⟨b, hjb, rfl⟩ := map_eq_ok.1 ((optional_ofJson (hnull j hj)).symm.trans ha)
      rw [h.iff.2 ⟨j, (readValue_skipSpace room levels s).trans hj, hjb⟩]
      rfl

theorem decode_eq_ok {text : String} : wire.decode text = .ok a ↔
    ∃ rest, wire.read text.toList.length maxLevels text.toList = .ok (a, rest) ∧
      skipSpace rest = [] := by
  rw [decode]
  constructor
  · intro h
    split at h
    · cases h
    · next hread =>
      split at h
      · next hrest =>
        cases h
        exact ⟨_, hread, hrest⟩
      · cases h
  · rintro ⟨rest, hread, hrest⟩
    simp only [hread, hrest]

/-- A text that is read by way of values is read as the value that it has. -/
theorem Agrees.decode_eq_ok (h : wire.Agrees) {text : String} : wire.decode text = .ok a ↔
    ∃ j, json.decode text = .ok j ∧ wire.ofJson j = .ok a := by
  rw [Wire.decode_eq_ok]
  constructor
  · rintro ⟨rest, hread, hrest⟩
    obtain ⟨j, hj, ha⟩ := h.iff.1 hread
    exact ⟨j, Wire.decode_eq_ok.2 ⟨rest, hj, hrest⟩, ha⟩
  · rintro ⟨j, hj, ha⟩
    obtain ⟨rest, hread, hrest⟩ := Wire.decode_eq_ok.1 hj
    exact ⟨rest, h.iff.2 ⟨j, hread, ha⟩, hrest⟩

theorem says_of_decode {text : String} {j : Json} (h : json.decode text = .ok j) :
    ∃ v, Says text v ∧ Holds v j ∧ v.depth ≤ maxLevels := by
  obtain ⟨rest, hread, hrest⟩ := Wire.decode_eq_ok.1 h
  obtain ⟨v, hv, hj⟩ := reads_readValue _ _ _ _ _ hread
  exact ⟨v, ⟨rest, hv, hrest⟩, hj⟩

end Wire

namespace Json

variable {room levels : Nat} {s rest : List Char} {items : List Json}

theorem not_array_of_readFront {j : Json} (h : readFront room s = .ok (.scalar j rest)) :
    j ≠ .array items := by
  obtain ⟨v, hv, hvj, -⟩ := readFront_sound h
  rintro rfl
  cases hvj with
  | array =>
    cases hv with
    | array hopen =>
      rw [readFront, hopen] at h
      cases h
  | object _ hj => cases hj

theorem readNode_array {inner : Option (Reader Json)} :
    readNode room inner s = .ok (.array items, rest) ↔ ∃ item s', inner = some item ∧
      readFront room s = .ok (.list s') ∧ readItems item room true s' = .ok (items, rest) := by
  constructor
  · intro h
    obtain ⟨front, hfront, h⟩ := bind_eq_ok.1 h
    split at h
    · cases h
      exact absurd rfl (not_array_of_readFront hfront)
    · cases h
    · cases h
    · next s' item _ =>
      obtain ⟨⟨js, _⟩, hjs, h⟩ := bind_eq_ok.1 h
      cases h
      exact ⟨item, s', rfl, hfront, hjs⟩
    · obtain ⟨_, -, h⟩ := bind_eq_ok.1 h
      simp [ofMembers, pure, Except.pure] at h
  · rintro ⟨item, s', rfl, hfront, hitems⟩
    exact bind_eq_ok.2 ⟨_, hfront, bind_eq_ok.2 ⟨_, hitems, rfl⟩⟩

/-- A list is read from behind its bracket, one level down. -/
theorem readValue_array : readValue room levels s = .ok (.array items, rest) ↔
    ∃ below s', levels = below + 1 ∧ readFront room s = .ok (.list s') ∧
      readItems (readValue room below) room true s' = .ok (items, rest) := by
  cases levels with
  | zero => simp [readValue, readNode_array]
  | succ below => simp [readValue, readNode_array]

end Json

end ScriptHost
