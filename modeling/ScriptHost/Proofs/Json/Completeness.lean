import ScriptHost.Proofs.Json.Soundness

/-! The other direction: what is in the grammar is read whole, where nothing behind it could
continue it. A reader gives the value that the text has, if it is not nested too deeply; to pass over
a text neither is asked. -/

namespace ScriptHost.Json

section Strings

variable {room : Nat} {s rest cs : List Char} {us : List Nat}

theorem units_eq_nil (h : units cs = []) : cs = [] :=
  units_injective h

/-- Where the units of a text begin with those of a character, the text begins with it. -/
theorem units_eq_append {c : Char} (h : units cs = unitsOf c ++ us) :
    ∃ cs', cs = c :: cs' ∧ us = units cs' := by
  cases cs with
  | nil =>
    have hne : unitsOf c ≠ [] := by
      unfold unitsOf
      split <;> simp
    exact absurd (List.append_eq_nil_iff.1 h.symm).1 hne
  | cons d cs' =>
    rw [units, List.flatMap_cons] at h
    obtain ⟨rfl, hus⟩ := unitsOf_append_inj h
    exact ⟨cs', rfl, hus.symm⟩

/-- A surrogate among the units of a text is the first half of a character. -/
theorem units_eq_surrogate {n : Nat} (h : units cs = n :: us) (hn : 0xD800 ≤ n ∧ n ≤ 0xDFFF) :
    ∃ c cs' low, cs = c :: cs' ∧ unitsOf c = [n, low] ∧ us = low :: units cs' ∧
      n ≤ 0xDBFF ∧ 0xDC00 ≤ low ∧ low ≤ 0xDFFF := by
  cases cs with
  | nil => cases h
  | cons c cs' =>
    have hvalid := toNat_lt c
    rw [units, List.flatMap_cons] at h
    by_cases hc : c.toNat < 0x10000
    · rw [unitsOf, if_pos hc] at h
      cases h
      omega
    · rw [unitsOf, if_neg hc] at h
      cases h
      refine ⟨c, cs', _, rfl, if_neg hc, rfl, ?_, ?_, ?_⟩ <;> omega

theorem shortEscape?_toNat_lt {c d : Char} (h : shortEscape? c = some d) : d.toNat < 0x80 := by
  unfold shortEscape? at h
  split at h <;> cases h <;> decide

/-- The second half of a character alone is written by its number. -/
theorem Quoted.low_surrogate {low : Nat} (h : Quoted s (low :: us) rest)
    (hlow : 0xDC00 ≤ low ∧ low ≤ 0xDFFF) :
    ∃ s₁ s₂, s = '\\' :: 'u' :: s₁ ∧ hexQuad? s₁ = some (low, s₂) ∧ Quoted s₂ us rest := by
  generalize hus : low :: us = us' at h
  cases h with
  | close => cases hus
  | @plain c =>
    have hvalid := toNat_lt c
    unfold unitsOf at hus
    split at hus <;> cases hus <;> omega
  | short hc =>
    cases hus
    have := shortEscape?_toNat_lt hc
    omega
  | unit hquad h =>
    cases hus
    exact ⟨_, _, rfl, hquad, h⟩

theorem readLowSurrogate_complete {c : Char} {high low : Nat} (hc : unitsOf c = [high, low])
    (hhigh : 0xD800 ≤ high ∧ high ≤ 0xDBFF) (hlow : 0xDC00 ≤ low ∧ low ≤ 0xDFFF)
    (hquad : hexQuad? s = some (low, rest)) :
    readLowSurrogate high ('\\' :: 'u' :: s) = .ok (c, rest) := by
  have hchar : Char.ofNat ((high - 0xD800) * 0x400 + (low - 0xDC00) + 0x10000) = c := by
    have hunits := unitsOf_surrogates hhigh hlow
    rw [← hc] at hunits
    exact (unitsOf_append_inj (congrArg (· ++ []) hunits)).1
  refine bind_eq_ok.2 ⟨_, readHexQuad_eq_ok.2 hquad, ?_⟩
  simp [hlow, hchar, pure, Except.pure]

/-- An escape by number, and the one behind it if it names but half a character. -/
theorem readEscape_unit {n : Nat} (hquad : hexQuad? s = some (n, rest)) {behind : List Char}
    (h : Quoted rest us behind) (hcs : units cs = n :: us) :
    ∃ c cs' s', cs = c :: cs' ∧ readEscape ('u' :: s) = .ok (c, s') ∧
      Quoted s' (units cs') behind ∧ s'.length < s.length := by
  have hlength := length_hexQuad? hquad
  by_cases hn : 0xD800 ≤ n ∧ n ≤ 0xDFFF
  · obtain ⟨c, cs', low, rfl, hc, rfl, hhigh, hlow⟩ := units_eq_surrogate hcs hn
    obtain ⟨s₁, s₂, rfl, hquad', hrest⟩ := h.low_surrogate hlow
    have hlength' := length_hexQuad? hquad'
    simp only [List.length_cons] at hlength
    refine ⟨c, cs', s₂, rfl, ?_, hrest, by omega⟩
    refine bind_eq_ok.2 ⟨_, readHexQuad_eq_ok.2 hquad, ?_⟩
    have hfirst : ¬ (0xDC00 ≤ n ∧ n ≤ 0xDFFF) := by omega
    have hsecond : 0xD800 ≤ n ∧ n ≤ 0xDBFF := ⟨hn.1, hhigh⟩
    dsimp only
    rw [if_neg hfirst, if_pos hsecond]
    exact readLowSurrogate_complete hc hsecond hlow hquad'
  · have hlt := hexQuad?_lt hquad
    have hnat : (Char.ofNat n).toNat = n := toNat_ofNat (by omega)
    have hunits : unitsOf (Char.ofNat n) = [n] := by rw [unitsOf, hnat, if_pos hlt]
    rw [← List.singleton_append, ← hunits] at hcs
    obtain ⟨cs', rfl, rfl⟩ := units_eq_append hcs
    refine ⟨_, cs', rest, rfl, ?_, h, by omega⟩
    refine bind_eq_ok.2 ⟨_, readHexQuad_eq_ok.2 hquad, ?_⟩
    have hfirst : ¬ (0xDC00 ≤ n ∧ n ≤ 0xDFFF) := by omega
    have hsecond : ¬ (0xD800 ≤ n ∧ n ≤ 0xDBFF) := by omega
    dsimp only
    rw [if_neg hfirst, if_neg hsecond]
    rfl

theorem readEscape_short {c d : Char} (h : shortEscape? c = some d) :
    readEscape (c :: s) = .ok (d, s) := by
  have hc : c ≠ 'u' := by
    rintro rfl
    cases h
  simp [readEscape, h]

/-- A literal is read if its units are those of a text. -/
theorem readString_complete (h : Quoted s (units cs) rest) (hroom : s.length ≤ room) :
    readString room s = .ok (cs, rest) := by
  -- not on the literal: two escapes may be one character, and the reader takes both at once
  induction room generalizing s cs with
  | zero =>
    cases List.length_eq_zero_iff.1 (Nat.le_zero.1 hroom)
    cases h
  | succ room ih =>
    generalize hus : units cs = us at h
    cases h with
    | close =>
      rw [units_eq_nil hus]
      rfl
    | plain hquote hback hcontrol h =>
      obtain ⟨cs', rfl, rfl⟩ := units_eq_append hus
      simp only [List.length_cons] at hroom
      rw [readString, if_neg hquote, if_neg hback, if_neg (by omega), ih h (by omega)]
      rfl
    | short hc h =>
      rw [← List.singleton_append, ← unitsOf_shortEscape hc] at hus
      obtain ⟨cs', rfl, rfl⟩ := units_eq_append hus
      simp only [List.length_cons] at hroom
      refine bind_eq_ok.2 ⟨_, readEscape_short hc, ?_⟩
      dsimp only
      rw [ih h (by omega)]
      rfl
    | unit hquad h =>
      obtain ⟨c, cs', s', rfl, hescape, hrest, hlength⟩ := readEscape_unit hquad h hus
      simp only [List.length_cons] at hroom
      refine bind_eq_ok.2 ⟨_, hescape, ?_⟩
      dsimp only
      rw [ih hrest (by omega)]
      rfl

theorem skipString_complete (h : Quoted s us rest) (hroom : s.length ≤ room) :
    skipString room s = .ok rest := by
  induction h generalizing room with
  | close =>
    simp only [List.length_cons] at hroom
    obtain ⟨room, rfl⟩ := Nat.exists_eq_add_one.2 (show 0 < room by omega)
    rfl
  | plain hquote hback hcontrol _ ih =>
    simp only [List.length_cons] at hroom
    obtain ⟨room, rfl⟩ := Nat.exists_eq_add_one.2 (show 0 < room by omega)
    rw [skipString, if_neg hquote, if_neg hback, if_neg (by omega)]
    exact ih (by omega)
  | @short c d s us rest hc _ ih =>
    simp only [List.length_cons] at hroom
    obtain ⟨room, rfl⟩ := Nat.exists_eq_add_one.2 (show 0 < room by omega)
    have hskip : skipEscape (c :: s) = .ok s := by
      have hu : c ≠ 'u' := by
        rintro rfl
        cases hc
      simp [skipEscape, hc]
    exact bind_eq_ok.2 ⟨s, hskip, ih (by omega)⟩
  | @unit s n s' us rest hquad _ ih =>
    have hlength := length_hexQuad? hquad
    simp only [List.length_cons] at hroom
    obtain ⟨room, rfl⟩ := Nat.exists_eq_add_one.2 (show 0 < room by omega)
    have hskip : skipEscape ('u' :: s) = .ok s' :=
      bind_eq_ok.2 ⟨_, readHexQuad_eq_ok.2 hquad, rfl⟩
    exact bind_eq_ok.2 ⟨s', hskip, ih (by omega)⟩

end Strings

section Steps

variable {room levels : Nat} {first : Bool} {s s' s₁ s₂ rest : List Char} {v : Tree}

/-- A value begins with a character, and not with the end of a list. -/
theorem Value.begins (h : Value s v rest) : ∃ c s', skipSpace s = c :: s' ∧ c ≠ ']' := by
  cases h with
  | null h | yes h | no h => exact ⟨_, _, h, by decide⟩
  | string h | array h | object h => exact ⟨_, _, h, by decide⟩
  | number h hx =>
    obtain ⟨c, tail, rfl, hc⟩ := hx.lead
    refine ⟨c, _, h, ?_⟩
    rintro rfl
    revert hc
    decide

theorem nextItem_complete (hcomma : Comma first s s₁) (hv : Value s₁ v s₂) :
    nextItem first s = .ok (.more (skipSpace s₁)) := by
  obtain ⟨c, tail, hs₁, hc⟩ := hv.begins
  cases first with
  | true =>
    obtain rfl : s₁ = s := hcomma
    simp [nextItem, hs₁]
  | false =>
    have hs : skipSpace s = ',' :: s₁ := hcomma
    have hnot : ∀ rest, c :: tail ≠ ']' :: rest := by simp [hc]
    simp [nextItem, hs, hs₁]

theorem nextMember_done (h : skipSpace s = '\x7d' :: rest) :
    nextMember first s = .ok (.over rest) := by
  rw [nextMember, h]
  rfl

theorem nextMember_complete (hcomma : Comma first s s₁) (hopen : skipSpace s₁ = '"' :: s₂) :
    nextMember first s = .ok (.more s₂) := by
  cases first with
  | true =>
    obtain rfl : s₁ = s := hcomma
    simp [nextMember, hopen]
  | false =>
    have hs : skipSpace s = ',' :: s₁ := hcomma
    simp [nextMember, hs, hopen]

theorem readColon_complete (h : skipSpace s = ':' :: rest) : readColon s = .ok rest := by
  simp [readColon, h]

theorem readNumber_complete {x : Numeral} {n : Number} {t : List Char} (hx : x.Spelled t)
    (hn : x.value = .ok n) (hrest : Ends rest) : readNumber (t ++ rest) = .ok (n, rest) := by
  refine bind_eq_ok.2 ⟨_, readNumeral_complete hx hrest, ?_⟩
  simp [hn, pure, Except.pure]

/-- No other kind of value begins as a numeral does. -/
theorem ne_of_lead {c : Char} (hc : c = '-' ∨ c.isDigit = true) :
    c ≠ 'n' ∧ c ≠ 't' ∧ c ≠ 'f' ∧ c ≠ '"' ∧ c ≠ '[' ∧ c ≠ '\x7b' := by
  refine ⟨?_, ?_, ?_, ?_, ?_, ?_⟩ <;>
    · rintro rfl
      revert hc
      decide

theorem readFront_number {x : Numeral} {n : Number} {t : List Char} (h : skipSpace s = t ++ rest)
    (hx : x.Spelled t) (hn : x.value = .ok n) (hrest : Ends rest) :
    readFront room s = .ok (.scalar (.number n) rest) := by
  have hread := readNumber_complete hx hn hrest
  obtain ⟨c, tail, rfl, hc⟩ := hx.lead
  obtain ⟨hnull, hyes, hno, hstring, hlist, hmap⟩ := ne_of_lead hc
  rw [List.cons_append] at h hread
  simp [readFront, h, hc, hread, bind, Except.bind, pure, Except.pure]

theorem readValue_scalar {j : Json} (h : readFront room s = .ok (.scalar j rest)) :
    readValue room levels s = .ok (j, rest) := by
  cases levels with
  | zero => exact bind_eq_ok.2 ⟨_, h, rfl⟩
  | succ levels => exact bind_eq_ok.2 ⟨_, h, rfl⟩

end Steps

mutual

/-- A text is read as the value it has, if it is not nested too deeply. -/
theorem Value.complete {room levels : Nat} {s rest : List Char} {v : Tree} {j : Json}
    (hv : Value s v rest) (hj : Holds v j) (hdepth : v.depth ≤ levels) (hroom : s.length ≤ room)
    (hrest : Ends rest) : readValue room levels s = .ok (j, rest) := by
  cases hv with
  | null h =>
    cases hj with
    | null => exact readValue_scalar (by rw [readFront, h]; rfl)
  | yes h =>
    cases hj with
    | bool => exact readValue_scalar (by rw [readFront, h]; rfl)
  | no h =>
    cases hj with
    | bool => exact readValue_scalar (by rw [readFront, h]; rfl)
  | number h hx =>
    cases hj with
    | number hn => exact readValue_scalar (readFront_number h hx hn hrest)
  | string h hus =>
    cases hj with
    | string hstring =>
      subst hstring
      have hshort := length_lt_of_skipSpace h
      refine readValue_scalar ?_
      rw [readFront, h]
      refine bind_eq_ok.2 ⟨_, readString_complete hus (by omega), ?_⟩
      simp [pure, Except.pure]
  | @array _ s' _ _ h hvs =>
    cases hj with
    | array hjs =>
      rw [Tree.depth] at hdepth
      obtain ⟨levels, rfl⟩ := Nat.exists_eq_add_one.2 (show 0 < levels by omega)
      have hshort := length_lt_of_skipSpace h
      have hitems : readItems (readValue room levels) room true s' = .ok (_, rest) :=
        hvs.complete hjs (by omega) (by omega) (by omega)
      refine bind_eq_ok.2 ⟨.list _, by rw [readFront, h]; rfl, ?_⟩
      exact bind_eq_ok.2 ⟨_, hitems, rfl⟩
  | @object _ s' _ _ h hms =>
    cases hj with
    | object hmembers hj =>
      subst hj
      rw [Tree.depth] at hdepth
      obtain ⟨levels, rfl⟩ := Nat.exists_eq_add_one.2 (show 0 < levels by omega)
      have hshort := length_lt_of_skipSpace h
      have hread : readMembers (readValue room levels) room true s' = .ok (_, rest) :=
        hms.complete hmembers (by omega) (by omega) (by omega)
      refine bind_eq_ok.2 ⟨.map _, by rw [readFront, h]; rfl, ?_⟩
      exact bind_eq_ok.2 ⟨_, hread, rfl⟩

theorem Items.complete {bound room levels : Nat} {first : Bool} {s rest : List Char}
    {vs : List Tree} {js : List Json} (h : Items first s vs rest) (hjs : HoldItems vs js)
    (hdepth : Tree.depthItems vs ≤ levels) (hbound : s.length ≤ bound) (hroom : s.length ≤ room) :
    readItems (readValue bound levels) room first s = .ok (js, rest) := by
  have hlength := h.length_lt
  obtain ⟨room, rfl⟩ := Nat.exists_eq_add_one.2 (show 0 < room by omega)
  cases h with
  | done h =>
    cases hjs with
    | nil =>
      rw [readItems, nextItem_done h]
      rfl
  | @item _ _ s₁ v s₂ vs _ hcomma hv hvs =>
    cases hjs with
    | @cons _ j _ js hj hjs =>
      rw [Tree.depthItems] at hdepth
      have hle := hcomma.length_le
      have hlt := hv.length_lt
      have hvalue : readValue bound levels s₁ = .ok (j, s₂) :=
        hv.complete hj (by omega) (by omega) hvs.ends
      have hitems : readItems (readValue bound levels) room false s₂ = .ok (js, rest) :=
        hvs.complete hjs (by omega) (by omega) (by omega)
      refine bind_eq_ok.2 ⟨_, nextItem_complete hcomma hv, ?_⟩
      refine bind_eq_ok.2 ⟨(j, s₂), ?_, bind_eq_ok.2 ⟨_, hitems, rfl⟩⟩
      exact (readValue_skipSpace bound levels s₁).trans hvalue

theorem Members.complete {bound room levels : Nat} {first : Bool} {s rest : List Char}
    {ms : List (List Nat × Tree)} {members : List (String × Json)} (h : Members first s ms rest)
    (hmembers : HoldMembers ms members) (hdepth : Tree.depthMembers ms ≤ levels)
    (hbound : s.length ≤ bound) (hroom : s.length ≤ room) :
    readMembers (readValue bound levels) room first s = .ok (members, rest) := by
  have hlength := h.length_lt
  obtain ⟨room, rfl⟩ := Nat.exists_eq_add_one.2 (show 0 < room by omega)
  cases h with
  | done h =>
    cases hmembers with
    | nil =>
      rw [readMembers, nextMember_done h]
      rfl
  | @member _ _ s₁ s₂ us s₃ s₄ v s₅ ms _ hcomma hopen hname hcolon hv hms =>
    cases hmembers with
    | @cons _ _ j _ members name hunits hj hmembers =>
      subst hunits
      rw [Tree.depthMembers] at hdepth
      obtain ⟨hnames, hvalues⟩ := member_lengths hcomma hopen hname hcolon
      have hlt := hv.length_lt
      have hvalue : readValue bound levels s₄ = .ok (j, s₅) :=
        hv.complete hj (by omega) (by omega) hms.ends
      have hrest : readMembers (readValue bound levels) room false s₅ = .ok (members, rest) :=
        hms.complete hmembers (by omega) (by omega) (by omega)
      refine bind_eq_ok.2 ⟨_, nextMember_complete hcomma hopen, ?_⟩
      refine bind_eq_ok.2 ⟨_, readString_complete hname (by omega), ?_⟩
      refine bind_eq_ok.2 ⟨_, readColon_complete hcolon, ?_⟩
      refine bind_eq_ok.2 ⟨_, hvalue, bind_eq_ok.2 ⟨_, hrest, ?_⟩⟩
      simp [pure, Except.pure]

end

section Skipped

mutual

/-- Each level takes a character. -/
theorem Value.depth_lt {s rest : List Char} {v : Tree} (h : Value s v rest) :
    v.depth + rest.length < s.length := by
  have hlength := h.length_lt
  cases h with
  | null | yes | no | number | string => simpa [Tree.depth] using hlength
  | array h hvs =>
    have hlt := length_lt_of_skipSpace h
    have hitems := hvs.depth_le
    rw [Tree.depth]
    omega
  | object h hms =>
    have hlt := length_lt_of_skipSpace h
    have hmembers := hms.depth_le
    rw [Tree.depth]
    omega

theorem Items.depth_le {first : Bool} {s rest : List Char} {vs : List Tree}
    (h : Items first s vs rest) : Tree.depthItems vs + rest.length < s.length := by
  have hlength := h.length_lt
  cases h with
  | done =>
    rw [Tree.depthItems]
    simpa using hlength
  | item hcomma hv hvs =>
    have hle := hcomma.length_le
    have hvalue := hv.depth_lt
    have hvalues := hvs.depth_le
    have hrest := hvs.length_lt
    have hshort := hv.length_lt
    rw [Tree.depthItems]
    omega

theorem Members.depth_le {first : Bool} {s rest : List Char} {ms : List (List Nat × Tree)}
    (h : Members first s ms rest) : Tree.depthMembers ms + rest.length < s.length := by
  have hlength := h.length_lt
  cases h with
  | done =>
    rw [Tree.depthMembers]
    simpa using hlength
  | member hcomma hopen hname hcolon hv hms =>
    obtain ⟨hnames, hvalues⟩ := member_lengths hcomma hopen hname hcolon
    have hvalue := hv.depth_lt
    have hothers := hms.depth_le
    have hrest := hms.length_lt
    have hshort := hv.length_lt
    rw [Tree.depthMembers]
    omega

end

theorem skipNode_number {room : Nat} {item : Skip} {s t rest : List Char} {x : Numeral}
    (h : skipSpace s = t ++ rest) (hx : x.Spelled t) (hrest : Ends rest) :
    skipNode room item s = .ok rest := by
  have hread : readNumeral .invalidNumber (t ++ rest) = .ok (x, rest) :=
    readNumeral_complete hx hrest
  obtain ⟨c, tail, rfl, hc⟩ := hx.lead
  obtain ⟨hnull, hyes, hno, hstring, hlist, hmap⟩ := ne_of_lead hc
  rw [List.cons_append] at h hread
  simp [skipNode, h, hc, hread, Functor.map, Except.map]

theorem skipDeep_skipSpace {room deep : Nat} {s rest : List Char}
    (h : skipDeep room deep s = .ok rest) : skipDeep room deep (skipSpace s) = .ok rest := by
  cases deep with
  | zero => cases h
  | succ deep =>
    rw [skipDeep, skipNode] at h ⊢
    rwa [skipSpace_skipSpace]

mutual

/-- Whatever is a value can be passed over. -/
theorem Value.skipped {room deep : Nat} {s rest : List Char} {v : Tree} (hv : Value s v rest)
    (hdeep : v.depth < deep) (hroom : s.length ≤ room) (hrest : Ends rest) :
    skipDeep room deep s = .ok rest := by
  -- a loop starts at its first item, which the grammar has before the comma: hence on the text
  obtain ⟨deep, rfl⟩ := Nat.exists_eq_add_one.2 (show 0 < deep by omega)
  rw [skipDeep]
  cases hv with
  | null h | yes h | no h =>
    rw [skipNode, h]
    rfl
  | number h hx => exact skipNode_number h hx hrest
  | string h hus =>
    have hshort := length_lt_of_skipSpace h
    rw [skipNode, h]
    exact skipString_complete hus (by omega)
  | @array _ s' vs _ h hvs =>
    have hshort := length_lt_of_skipSpace h
    rw [Tree.depth] at hdeep
    rw [skipNode, h]
    cases hvs with
    | done hdone => simp [hdone]
    | @item _ _ s₁ v s₂ vs _ hcomma hv hvs =>
      obtain rfl := hcomma
      rw [Tree.depthItems] at hdeep
      obtain ⟨c, tail, hs₁, hc⟩ := hv.begins
      have hlt := hv.length_lt
      have hitem : skipDeep room deep s₁ = .ok s₂ := hv.skipped (by omega) (by omega) hvs.ends
      have hitems : skipItems (skipDeep room deep) room (skipSpace s₁) = .ok rest :=
        hvs.skipped rfl (skipDeep_skipSpace hitem) (by omega) (by omega) (by omega)
      rw [hs₁] at hitems
      have hnot : ∀ rest, c :: tail ≠ ']' :: rest := by simp [hc]
      simpa [hs₁] using hitems
  | @object _ s' ms _ h hms =>
    have hshort := length_lt_of_skipSpace h
    rw [Tree.depth] at hdeep
    rw [skipNode, h]
    cases hms with
    | done hdone => simp [hdone]
    | @member _ _ s₁ s₂ us s₃ s₄ v s₅ ms _ hcomma hopen hname hcolon hv hms =>
      obtain ⟨hnames, hvalues⟩ := member_lengths hcomma hopen hname hcolon
      obtain rfl := hcomma
      rw [Tree.depthMembers] at hdeep
      have hlt := hv.length_lt
      have hle := length_skipSpace_le s₁
      have hmember : skipDeep room deep s₄ = .ok s₅ := hv.skipped (by omega) (by omega) hms.ends
      have hopen' : skipSpace (skipSpace s₁) = '"' :: s₂ := by rw [skipSpace_skipSpace, hopen]
      have hmembers : skipMembers (skipDeep room deep) room (skipSpace s₁) = .ok rest :=
        hms.skipped rfl hopen' hname hcolon hmember (by omega) (by omega) (by omega) (by omega)
      rw [hopen] at hmembers
      simpa [hopen] using hmembers
termination_by s.length
decreasing_by all_goals omega

theorem Items.skipped {room deep n : Nat} {first : Bool} {s₀ s rest : List Char} {vs : List Tree}
    (h : Items first s vs rest) (hlater : first = false) (hitem : skipDeep room deep s₀ = .ok s)
    (hdeep : Tree.depthItems vs < deep) (hroom : s.length ≤ room) (hn : s.length < n) :
    skipItems (skipDeep room deep) n s₀ = .ok rest := by
  obtain ⟨n, rfl⟩ := Nat.exists_eq_add_one.2 (show 0 < n by omega)
  refine bind_eq_ok.2 ⟨s, hitem, ?_⟩
  cases h with
  | done hdone => simp [hdone]
  | @item _ _ s₁ v s₂ vs _ hcomma hv hvs =>
    have hs : skipSpace s = ',' :: s₁ := by simpa [Comma, hlater] using hcomma
    have hcommas := length_lt_of_skipSpace hs
    have hlt := hv.length_lt
    rw [Tree.depthItems] at hdeep
    have hnext : skipDeep room deep s₁ = .ok s₂ := hv.skipped (by omega) (by omega) hvs.ends
    have hrest : skipItems (skipDeep room deep) n s₁ = .ok rest :=
      hvs.skipped rfl hnext (by omega) (by omega) (by omega)
    simpa [hs] using hrest
termination_by s.length
decreasing_by all_goals omega

theorem Members.skipped {room deep n : Nat} {first : Bool} {s₀ s₁ s₂ s₃ s rest : List Char}
    {us : List Nat} {ms : List (List Nat × Tree)} (h : Members first s ms rest)
    (hlater : first = false) (hopen : skipSpace s₀ = '"' :: s₁)
    (hname : Quoted s₁ us s₂) (hcolon : skipSpace s₂ = ':' :: s₃)
    (hmember : skipDeep room deep s₃ = .ok s) (hdeep : Tree.depthMembers ms < deep)
    (hroom : s.length ≤ room) (hn : s₀.length ≤ n) (hs : s.length < s₁.length) :
    skipMembers (skipDeep room deep) n s₀ = .ok rest := by
  have hopens := length_lt_of_skipSpace hopen
  obtain ⟨n, rfl⟩ := Nat.exists_eq_add_one.2 (show 0 < n by omega)
  rw [skipMembers, hopen]
  refine bind_eq_ok.2 ⟨s₂, skipString_complete hname (by omega), ?_⟩
  refine bind_eq_ok.2 ⟨s₃, readColon_complete hcolon, bind_eq_ok.2 ⟨s, hmember, ?_⟩⟩
  cases h with
  | done hdone => simp [hdone]
  | @member _ _ t₁ t₂ us t₃ t₄ v t₅ ms _ hcomma hopen' hname' hcolon' hv hms =>
    obtain ⟨hnames, hvalues⟩ := member_lengths hcomma hopen' hname' hcolon'
    have hs : skipSpace s = ',' :: t₁ := by simpa [Comma, hlater] using hcomma
    have hcommas := length_lt_of_skipSpace hs
    have hlt := hv.length_lt
    rw [Tree.depthMembers] at hdeep
    have hnext : skipDeep room deep t₄ = .ok t₅ := hv.skipped (by omega) (by omega) hms.ends
    have hrest : skipMembers (skipDeep room deep) n t₁ = .ok rest :=
      hms.skipped rfl hopen' hname' hcolon' hnext (by omega) (by omega) (by omega) (by omega)
    simpa [hs] using hrest
termination_by s.length
decreasing_by all_goals omega

end

theorem skipValue_complete {room : Nat} {s rest : List Char} {v : Tree} (hv : Value s v rest)
    (hroom : s.length ≤ room) (hrest : Ends rest) : skipValue room s = .ok rest := by
  have hdepth := hv.depth_lt
  exact hv.skipped (by omega) hroom hrest

end Skipped

end ScriptHost.Json
