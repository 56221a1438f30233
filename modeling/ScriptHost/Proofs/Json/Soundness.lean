import ScriptHost.Json.Skip
import ScriptHost.Proofs.Json.Grammar

/-! What the readers accept is in the grammar, and the value they give is what the text says there:
a numeral's number, a string's characters and of a repeated name the last value. -/

namespace ScriptHost.Json

mutual

/-- The value that a reader has for what the text says. -/
inductive Holds : Tree → Json → Prop where
  | null : Holds .null .null
  | bool : Holds (.bool b) (.bool b)
  | number (h : x.value = .ok n) : Holds (.number x) (.number n)
  | string (h : us = units s.toList) : Holds (.string us) (.string s)
  | array (h : HoldItems vs js) : Holds (.array vs) (.array js)
  | object (h : HoldMembers ms members) (hj : j = ofMembers members) : Holds (.object ms) j

inductive HoldItems : List Tree → List Json → Prop where
  | nil : HoldItems [] []
  | cons (h : Holds v j) (hs : HoldItems vs js) : HoldItems (v :: vs) (j :: js)

inductive HoldMembers : List (List Nat × Tree) → List (String × Json) → Prop where
  | nil : HoldMembers [] []
  | cons (hname : us = units name.toList) (h : Holds v j) (hs : HoldMembers ms members) :
      HoldMembers ((us, v) :: ms) ((name, j) :: members)

end

mutual

/-- A text has one value at most. -/
theorem Holds.unique {v : Tree} {j j' : Json} (h : Holds v j) (h' : Holds v j') : j = j' := by
  cases h with
  | null | bool =>
    cases h'
    rfl
  | number hn =>
    cases h' with
    | number hn' =>
      cases hn.symm.trans hn'
      rfl
  | string hs =>
    cases h' with
    | string hs' => rw [units_toList_injective (hs.symm.trans hs')]
  | array hjs =>
    cases h' with
    | array hjs' => rw [hjs.unique hjs']
  | object hmembers hj =>
    cases h' with
    | object hmembers' hj' => rw [hj, hj', hmembers.unique hmembers']

theorem HoldItems.unique {vs : List Tree} {js js' : List Json} (h : HoldItems vs js)
    (h' : HoldItems vs js') : js = js' := by
  cases h with
  | nil =>
    cases h'
    rfl
  | cons hj hjs =>
    cases h' with
    | cons hj' hjs' => rw [hj.unique hj', hjs.unique hjs']

theorem HoldMembers.unique {ms : List (List Nat × Tree)} {members members' : List (String × Json)}
    (h : HoldMembers ms members) (h' : HoldMembers ms members') : members = members' := by
  cases h with
  | nil =>
    cases h'
    rfl
  | cons hname hj hmembers =>
    cases h' with
    | cons hname' hj' hmembers' =>
      rw [units_toList_injective (hname.symm.trans hname'), hj.unique hj',
        hmembers.unique hmembers']

end

section Strings

variable {room n : Nat} {s rest : List Char}

theorem hexValue?_lt {c : Char} (h : Text.hexValue? c = some n) : n < 16 := by
  unfold Text.hexValue? at h
  split at h
  · next hc =>
    cases h
    have hle : 48 ≤ c.val ∧ c.val ≤ 57 := by simpa [Char.isDigit] using hc
    have hnat : c.toNat ≤ 57 := hle.2
    simp
    omega
  · split at h
    · next hc =>
      cases h
      have hnat : c.toNat ≤ 'f'.toNat := hc.2
      simp at hnat ⊢
      omega
    · split at h
      · next hc =>
        cases h
        have hnat : c.toNat ≤ 'F'.toNat := hc.2
        simp at hnat ⊢
        omega
      · cases h

theorem hexQuad?_lt (h : hexQuad? s = some (n, rest)) : n < 0x10000 := by
  unfold hexQuad? at h
  split at h
  · simp only [Option.bind_eq_bind, Option.bind_eq_some_iff] at h
    obtain ⟨a, ha, b, hb, c, hc, d, hd, h⟩ := h
    cases h
    have := hexValue?_lt ha
    have := hexValue?_lt hb
    have := hexValue?_lt hc
    have := hexValue?_lt hd
    omega
  · cases h

theorem toNat_ofNat (h : n < 0xD800 ∨ 0xDFFF < n ∧ n < 0x110000) : (Char.ofNat n).toNat = n := by
  rw [Char.ofNat, dif_pos h]
  rfl

theorem readHexQuad_eq_ok : readHexQuad s = .ok (n, rest) ↔ hexQuad? s = some (n, rest) := by
  unfold readHexQuad
  split
  · next heq => simp [heq]
  · next heq =>
    rw [heq]
    split <;> simp

theorem unitsOf_shortEscape {c d : Char} (h : shortEscape? c = some d) : unitsOf d = [d.toNat] := by
  unfold shortEscape? at h
  split at h <;> cases h <;> rfl

theorem unitsOf_surrogates {high low : Nat} (hhigh : 0xD800 ≤ high ∧ high ≤ 0xDBFF)
    (hlow : 0xDC00 ≤ low ∧ low ≤ 0xDFFF) :
    unitsOf (Char.ofNat ((high - 0xD800) * 0x400 + (low - 0xDC00) + 0x10000)) = [high, low] := by
  rw [unitsOf, toNat_ofNat (.inr (by omega)), if_neg (by omega)]
  have hfirst : 0xD800 + ((high - 0xD800) * 0x400 + (low - 0xDC00) + 0x10000 - 0x10000) / 0x400 =
      high := by omega
  have hsecond : 0xDC00 + ((high - 0xD800) * 0x400 + (low - 0xDC00) + 0x10000 - 0x10000) % 0x400 =
      low := by omega
  rw [hfirst, hsecond]

theorem readLowSurrogate_sound {high : Nat} {d : Char} {us : List Nat} {behind : List Char}
    (hhigh : 0xD800 ≤ high ∧ high ≤ 0xDBFF) (h : readLowSurrogate high s = .ok (d, rest))
    (hus : Quoted rest us behind) : ∃ low, unitsOf d = [high, low] ∧ Quoted s (low :: us) behind := by
  unfold readLowSurrogate at h
  split at h
  · obtain ⟨⟨low, _⟩, hlow, h⟩ := bind_eq_ok.1 h
    dsimp only at h
    split at h
    · next hrange =>
      simp only [pure, Except.pure, Except.ok.injEq, Prod.mk.injEq] at h
      obtain ⟨rfl, rfl⟩ := h
      exact ⟨low, unitsOf_surrogates hhigh hrange, .unit (readHexQuad_eq_ok.1 hlow) hus⟩
    · cases h
  · cases h
  · cases h
  · cases h
  · cases h

theorem readEscape_sound {d : Char} {us : List Nat} {behind : List Char}
    (h : readEscape s = .ok (d, rest)) (hus : Quoted rest us behind) :
    Quoted ('\\' :: s) (unitsOf d ++ us) behind := by
  unfold readEscape at h
  split at h
  · cases h
  · obtain ⟨⟨n, _⟩, hn, h⟩ := bind_eq_ok.1 h
    have hquad := readHexQuad_eq_ok.1 hn
    have hlt := hexQuad?_lt hquad
    dsimp only at h
    split at h
    · cases h
    · next hlow =>
      split at h
      · next hhigh =>
        obtain ⟨low, hunits, hrest⟩ := readLowSurrogate_sound hhigh h hus
        rw [hunits]
        exact .unit hquad hrest
      · next hhigh =>
        cases h
        have hnat : (Char.ofNat n).toNat = n := toNat_ofNat (by omega)
        rw [unitsOf, hnat, if_pos hlt]
        exact .unit hquad hus
  · split at h
    · next hc =>
      cases h
      rw [unitsOf_shortEscape hc]
      exact .short hc hus
    · cases h

theorem readString_sound {cs : List Char} (h : readString room s = .ok (cs, rest)) :
    Quoted s (units cs) rest := by
  induction room generalizing s cs with
  | zero => cases h
  | succ room ih =>
    cases s with
    | nil => cases h
    | cons c s =>
      rw [readString] at h
      split at h
      · next hquote =>
        cases h
        rw [hquote]
        exact .close
      · next hquote =>
        split at h
        · next hback =>
          obtain ⟨⟨d, s'⟩, hd, h⟩ := bind_eq_ok.1 h
          obtain ⟨⟨ds, _⟩, hds, h⟩ := bind_eq_ok.1 h
          cases h
          rw [hback, units, List.flatMap_cons]
          exact readEscape_sound hd (ih hds)
        · next hback =>
          split at h
          · cases h
          · next hcontrol =>
            obtain ⟨⟨ds, _⟩, hds, h⟩ := bind_eq_ok.1 h
            cases h
            rw [units, List.flatMap_cons]
            exact .plain hquote hback (by omega) (ih hds)

theorem skipEscape_sound {us : List Nat} {behind : List Char} (h : skipEscape s = .ok rest)
    (hus : Quoted rest us behind) : ∃ u, Quoted ('\\' :: s) (u :: us) behind := by
  unfold skipEscape at h
  split at h
  · cases h
  · obtain ⟨⟨n, _⟩, hn, h⟩ := bind_eq_ok.1 h
    cases h
    exact ⟨n, .unit (readHexQuad_eq_ok.1 hn) hus⟩
  · split at h
    · next d hc =>
      cases h
      exact ⟨d.toNat, .short hc hus⟩
    · cases h

theorem skipString_sound (h : skipString room s = .ok rest) : ∃ us, Quoted s us rest := by
  induction room generalizing s with
  | zero => cases h
  | succ room ih =>
    cases s with
    | nil => cases h
    | cons c s =>
      rw [skipString] at h
      split at h
      · next hquote =>
        cases h
        exact ⟨[], hquote ▸ .close⟩
      · next hquote =>
        split at h
        · next hback =>
          obtain ⟨s', hs', h⟩ := bind_eq_ok.1 h
          obtain ⟨us, hus⟩ := ih h
          obtain ⟨u, hu⟩ := skipEscape_sound hs' hus
          exact ⟨u :: us, hback ▸ hu⟩
        · next hback =>
          split at h
          · cases h
          · next hcontrol =>
            obtain ⟨us, hus⟩ := ih h
            exact ⟨unitsOf c ++ us, .plain hquote hback (by omega) hus⟩

end Strings

section Values

variable {room levels : Nat} {first : Bool} {s s' rest : List Char} {v : Tree}

theorem readWord_sound {word : List Char} (h : readWord word s = .ok rest) : s = word ++ rest := by
  induction word generalizing s with
  | nil =>
    cases h
    rfl
  | cons c word ih =>
    cases s with
    | nil => cases h
    | cons d s =>
      rw [readWord] at h
      split at h
      · next hcd => rw [hcd, ih h, List.cons_append]
      · cases h

theorem skipSpace_skipSpace (s : List Char) : skipSpace (skipSpace s) = skipSpace s :=
  List.dropWhile_idempotent ..

/-- Only blanks may differ before the value. -/
theorem Value.of_skipSpace (hs : skipSpace s = skipSpace s') (hv : Value s v rest) :
    Value s' v rest := by
  cases hv with
  | null h => exact .null (hs ▸ h)
  | yes h => exact .yes (hs ▸ h)
  | no h => exact .no (hs ▸ h)
  | number h hx => exact .number (hs ▸ h) hx
  | string h hus => exact .string (hs ▸ h) hus
  | array h hvs => exact .array (hs ▸ h) hvs
  | object h hms => exact .object (hs ▸ h) hms

theorem readNumber_sound {n : Number} (h : readNumber s = .ok (n, rest)) :
    ∃ (x : Numeral) (t : List Char), x.Spelled t ∧ s = t ++ rest ∧ x.value = .ok n := by
  obtain ⟨⟨x, _⟩, hx, h⟩ := bind_eq_ok.1 h
  obtain ⟨t, hspelled, hs⟩ := readNumeral_sound hx
  dsimp only at h
  split at h
  · next hvalue =>
    cases h
    exact ⟨x, t, hspelled, hs, hvalue⟩
  · cases h

theorem readFront_sound {front : Front} (h : readFront room s = .ok front) :
    match front with
    | .scalar j rest => ∃ v, Value s v rest ∧ Holds v j ∧ v.depth = 0
    | .list rest => skipSpace s = '[' :: rest
    | .map rest => skipSpace s = '\x7b' :: rest := by
  unfold readFront at h
  split at h
  · cases h
  · next heq =>
    obtain ⟨_, hword, h⟩ := bind_eq_ok.1 h
    cases h
    rw [readWord_sound hword] at heq
    exact ⟨_, .null heq, .null, rfl⟩
  · next heq =>
    obtain ⟨_, hword, h⟩ := bind_eq_ok.1 h
    cases h
    rw [readWord_sound hword] at heq
    exact ⟨_, .yes heq, .bool, rfl⟩
  · next heq =>
    obtain ⟨_, hword, h⟩ := bind_eq_ok.1 h
    cases h
    rw [readWord_sound hword] at heq
    exact ⟨_, .no heq, .bool, rfl⟩
  · next heq =>
    obtain ⟨⟨cs, _⟩, hcs, h⟩ := bind_eq_ok.1 h
    cases h
    exact ⟨_, .string heq (readString_sound hcs), .string (by rw [String.toList_ofList]), rfl⟩
  · next heq =>
    cases h
    exact heq
  · next heq =>
    cases h
    exact heq
  · next heq =>
    split at h
    · obtain ⟨⟨n, _⟩, hn, h⟩ := bind_eq_ok.1 h
      cases h
      obtain ⟨x, t, hx, ht, hvalue⟩ := readNumber_sound hn
      exact ⟨_, .number (heq.trans ht) hx, .number hvalue, rfl⟩
    · cases h

theorem nextItem_over (h : nextItem first s = .ok (.over rest)) : skipSpace s = ']' :: rest := by
  unfold nextItem at h
  split at h
  · cases h
  · next heq =>
    cases h
    exact heq
  · split at h
    · cases h
    · split at h
      · split at h <;> cases h
      · cases h

theorem nextItem_done (h : skipSpace s = ']' :: rest) : nextItem first s = .ok (.over rest) := by
  rw [nextItem, h]
  rfl

/-- Where another item begins, but for blanks. -/
theorem nextItem_more (h : nextItem first s = .ok (.more s')) :
    ∃ s₁, Comma first s s₁ ∧ skipSpace s₁ = s' := by
  unfold nextItem at h
  split at h
  · cases h
  · cases h
  · next c tail _ heq =>
    split at h
    · next hfirst =>
      cases h
      exact ⟨s, by simp [Comma, hfirst], heq⟩
    · next hfirst =>
      split at h
      · next hc =>
        split at h
        · cases h
        · cases h
        · cases h
          exact ⟨tail, by simp [Comma, hfirst, heq, hc], rfl⟩
      · cases h

theorem nextMember_over (h : nextMember first s = .ok (.over rest)) :
    skipSpace s = '\x7d' :: rest := by
  unfold nextMember at h
  split at h
  · cases h
  · next heq =>
    cases h
    exact heq
  · split at h
    · split at h <;> cases h
    · split at h
      · split at h <;> cases h
      · cases h

theorem nextMember_more (h : nextMember first s = .ok (.more s')) :
    ∃ s₁, Comma first s s₁ ∧ skipSpace s₁ = '"' :: s' := by
  unfold nextMember at h
  split at h
  · cases h
  · cases h
  · next c tail _ heq =>
    split at h
    · next hfirst =>
      split at h
      · next hc =>
        cases h
        exact ⟨s, by simp [Comma, hfirst], hc ▸ heq⟩
      · cases h
    · next hfirst =>
      split at h
      · next hc =>
        split at h
        · cases h
        · next hopen =>
          cases h
          exact ⟨tail, by simp [Comma, hfirst, heq, hc], hopen⟩
        · cases h
        · cases h
      · cases h

theorem readColon_sound (h : readColon s = .ok rest) : skipSpace s = ':' :: rest := by
  unfold readColon at h
  split at h
  · cases h
  · next heq =>
    cases h
    exact heq
  · cases h

/-- A reader of elements that stays in the grammar, and within so many levels. -/
def Reads (levels : Nat) (item : Reader Json) : Prop :=
  ∀ s j rest, item s = .ok (j, rest) → ∃ v, Value s v rest ∧ Holds v j ∧ v.depth ≤ levels

theorem Reads.items {item : Reader Json} (hitem : Reads levels item) {js : List Json}
    (h : readItems item room first s = .ok (js, rest)) :
    ∃ vs, Items first s vs rest ∧ HoldItems vs js ∧ Tree.depthItems vs ≤ levels := by
  induction room generalizing first s js with
  | zero => cases h
  | succ room ih =>
    rw [readItems] at h
    obtain ⟨turn, hturn, h⟩ := bind_eq_ok.1 h
    rcases turn with s₁ | s₁
    · cases h
      exact ⟨[], .done (nextItem_over hturn), .nil, Nat.zero_le _⟩
    · obtain ⟨⟨j, s₂⟩, hj, h⟩ := bind_eq_ok.1 h
      obtain ⟨⟨js, _⟩, hjs, h⟩ := bind_eq_ok.1 h
      cases h
      obtain ⟨s₀, hcomma, rfl⟩ := nextItem_more hturn
      obtain ⟨v, hv, hvj, hdepth⟩ := hitem _ _ _ hj
      obtain ⟨vs, hvs, hvjs, hdepths⟩ := ih hjs
      exact ⟨v :: vs, .item hcomma (hv.of_skipSpace (skipSpace_skipSpace s₀)) hvs, .cons hvj hvjs,
        Nat.max_le.2 ⟨hdepth, hdepths⟩⟩

theorem Reads.members {item : Reader Json} (hitem : Reads levels item)
    {members : List (String × Json)}
    (h : readMembers item room first s = .ok (members, rest)) :
    ∃ ms, Members first s ms rest ∧ HoldMembers ms members ∧ Tree.depthMembers ms ≤ levels := by
  induction room generalizing first s members with
  | zero => cases h
  | succ room ih =>
    rw [readMembers] at h
    obtain ⟨turn, hturn, h⟩ := bind_eq_ok.1 h
    rcases turn with s₁ | s₁
    · cases h
      exact ⟨[], .done (nextMember_over hturn), .nil, Nat.zero_le _⟩
    · obtain ⟨⟨name, s₂⟩, hname, h⟩ := bind_eq_ok.1 h
      obtain ⟨s₃, hcolon, h⟩ := bind_eq_ok.1 h
      obtain ⟨⟨j, s₄⟩, hj, h⟩ := bind_eq_ok.1 h
      obtain ⟨⟨members, _⟩, hmembers, h⟩ := bind_eq_ok.1 h
      cases h
      obtain ⟨s₀, hcomma, hopen⟩ := nextMember_more hturn
      obtain ⟨v, hv, hvj, hdepth⟩ := hitem _ _ _ hj
      obtain ⟨ms, hms, hmj, hdepths⟩ := ih hmembers
      exact ⟨(units name, v) :: ms,
        .member hcomma hopen (readString_sound hname) (readColon_sound hcolon) hv hms,
        .cons (by rw [String.toList_ofList]) hvj hmj, Nat.max_le.2 ⟨hdepth, hdepths⟩⟩

/-- The elements of a value are one level below it. -/
theorem reads_readNode {inner : Option (Reader Json)}
    (hinner : ∀ item ∈ inner, ∃ below, levels = below + 1 ∧ Reads below item) :
    Reads levels (readNode room inner) := by
  intro s j rest h
  obtain ⟨front, hfront, h⟩ := bind_eq_ok.1 h
  have hsound := readFront_sound hfront
  split at h
  · cases h
    obtain ⟨v, hv, hvj, hdepth⟩ := hsound
    exact ⟨v, hv, hvj, hdepth ▸ Nat.zero_le _⟩
  · cases h
  · cases h
  · obtain ⟨⟨js, _⟩, hjs, h⟩ := bind_eq_ok.1 h
    cases h
    obtain ⟨below, rfl, hitem⟩ := hinner _ rfl
    obtain ⟨vs, hvs, hvjs, hdepth⟩ := hitem.items hjs
    exact ⟨.array vs, .array hsound hvs, .array hvjs, Nat.succ_le_succ hdepth⟩
  · obtain ⟨⟨members, _⟩, hmembers, h⟩ := bind_eq_ok.1 h
    cases h
    obtain ⟨below, rfl, hitem⟩ := hinner _ rfl
    obtain ⟨ms, hms, hmj, hdepth⟩ := hitem.members hmembers
    exact ⟨.object ms, .object hsound hms, .object hmj rfl, Nat.succ_le_succ hdepth⟩

theorem reads_readValue (room levels : Nat) : Reads levels (readValue room levels) := by
  induction levels with
  | zero => exact reads_readNode (by simp)
  | succ levels ih =>
    refine reads_readNode fun item hitem => ?_
    cases hitem
    exact ⟨levels, rfl, ih⟩

theorem readValue_eq (room levels : Nat) :
    ∃ inner, ∀ s, readValue room levels s = readNode room inner s := by
  cases levels
  · exact ⟨none, fun _ => rfl⟩
  · exact ⟨some (readValue room _), fun _ => rfl⟩

theorem readValue_skipSpace (room levels : Nat) (s : List Char) :
    readValue room levels (skipSpace s) = readValue room levels s := by
  obtain ⟨inner, hinner⟩ := readValue_eq room levels
  have hfront : readFront room (skipSpace s) = readFront room s := by
    rw [readFront, skipSpace_skipSpace]
    rfl
  rw [hinner, hinner, readNode, readNode, hfront, skipSpace_skipSpace]

end Values

section Skipped

variable {room : Nat} {s rest : List Char} {item : Skip}

def Passes (item : Skip) : Prop := ∀ s rest, item s = .ok rest → ∃ v, Value s v rest

theorem Passes.items (hitem : Passes item) (h : skipItems item room s = .ok rest) :
    ∃ v s₁ vs, Value s v s₁ ∧ Items false s₁ vs rest := by
  induction room generalizing s with
  | zero => cases h
  | succ room ih =>
    rw [skipItems] at h
    obtain ⟨s₁, hs₁, h⟩ := bind_eq_ok.1 h
    obtain ⟨v, hv⟩ := hitem _ _ hs₁
    refine ⟨v, s₁, ?_⟩
    split at h
    · cases h
    · next heq =>
      obtain ⟨w, s₂, vs, hw, hvs⟩ := ih h
      exact ⟨w :: vs, hv, .item heq hw hvs⟩
    · next heq =>
      cases h
      exact ⟨[], hv, .done heq⟩
    · cases h

theorem Passes.members (hitem : Passes item) (h : skipMembers item room s = .ok rest) :
    ∃ name v s₁ s₂ s₃ s₄ ms, skipSpace s = '"' :: s₁ ∧ Quoted s₁ name s₂ ∧
      skipSpace s₂ = ':' :: s₃ ∧ Value s₃ v s₄ ∧ Members false s₄ ms rest := by
  induction room generalizing s with
  | zero => cases h
  | succ room ih =>
    rw [skipMembers] at h
    split at h
    · cases h
    · next s₁ hopen =>
      obtain ⟨s₂, hname, h⟩ := bind_eq_ok.1 h
      obtain ⟨s₃, hcolon, h⟩ := bind_eq_ok.1 h
      obtain ⟨s₄, hs₄, h⟩ := bind_eq_ok.1 h
      obtain ⟨name, hname⟩ := skipString_sound hname
      obtain ⟨v, hv⟩ := hitem _ _ hs₄
      refine ⟨name, v, s₁, s₂, s₃, s₄, ?_⟩
      split at h
      · cases h
      · next heq =>
        obtain ⟨name', w, t₁, t₂, t₃, t₄, ms, hopen', hname', hcolon', hw, hms⟩ := ih h
        exact ⟨(name', w) :: ms, hopen, hname, readColon_sound hcolon, hv,
          .member heq hopen' hname' hcolon' hw hms⟩
      · next heq =>
        cases h
        exact ⟨[], hopen, hname, readColon_sound hcolon, hv, .done heq⟩
      · cases h
    · cases h

theorem Passes.node (hitem : Passes item) : Passes (skipNode room item) := by
  intro s rest h
  unfold skipNode at h
  split at h
  · cases h
  · next heq =>
    rw [readWord_sound h] at heq
    exact ⟨_, .null heq⟩
  · next heq =>
    rw [readWord_sound h] at heq
    exact ⟨_, .yes heq⟩
  · next heq =>
    rw [readWord_sound h] at heq
    exact ⟨_, .no heq⟩
  · next heq =>
    obtain ⟨us, hus⟩ := skipString_sound h
    exact ⟨_, .string heq hus⟩
  · next heq =>
    split at h
    · cases h
    · next hdone =>
      cases h
      exact ⟨_, .array heq (.done hdone)⟩
    · obtain ⟨v, s₁, vs, hv, hvs⟩ := hitem.items h
      exact ⟨_, .array heq (.item rfl (hv.of_skipSpace (skipSpace_skipSpace _)) hvs)⟩
  · next heq =>
    split at h
    · cases h
    · next hdone =>
      cases h
      exact ⟨_, .object heq (.done hdone)⟩
    · obtain ⟨name, v, s₁, s₂, s₃, s₄, ms, hopen, hname, hcolon, hv, hms⟩ := hitem.members h
      rw [skipSpace_skipSpace] at hopen
      exact ⟨_, .object heq (.member rfl hopen hname hcolon hv hms)⟩
  · next heq =>
    split at h
    · obtain ⟨⟨x, _⟩, hx, h⟩ := bind_eq_ok.1 h
      cases h
      obtain ⟨t, ht, hs⟩ := readNumeral_sound hx
      exact ⟨_, .number (heq.trans hs) ht⟩
    · cases h

theorem passes_skipValue (room : Nat) : Passes (skipValue room) := by
  have hdeep : ∀ deep, Passes (skipDeep room deep) := by
    intro deep
    induction deep with
    | zero =>
      intro s rest h
      cases h
    | succ deep ih => exact ih.node
  exact hdeep room

end Skipped

end ScriptHost.Json
