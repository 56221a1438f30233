import ScriptHost.Json.Reader
import ScriptHost.Proofs.Json.Numerals

/-! The grammar of JSON texts, apart from any reader: each part of a text is related to what it says
and to the text behind it. Nothing is lost on the way: a numeral stands as it is written and the
members of an object in the order of the text. A text says one thing at most. -/

namespace ScriptHost.Json

/-- What a text says. Strings are given in units of sixteen bits, which is what an escape names; a
surrogate may stand alone. -/
inductive Tree where
  | null
  | bool (b : Bool)
  | number (x : Numeral)
  | string (units : List Nat)
  | array (items : List Tree)
  | object (members : List (List Nat × Tree))

mutual

def Tree.depth : Tree → Nat
  | .array vs => depthItems vs + 1
  | .object ms => depthMembers ms + 1
  | _ => 0

def Tree.depthItems : List Tree → Nat
  | [] => 0
  | v :: vs => max v.depth (depthItems vs)

def Tree.depthMembers : List (List Nat × Tree) → Nat
  | [] => 0
  | (_, v) :: ms => max v.depth (depthMembers ms)

end

def unitsOf (c : Char) : List Nat :=
  if c.toNat < 0x10000 then [c.toNat]
  else [0xD800 + (c.toNat - 0x10000) / 0x400, 0xDC00 + (c.toNat - 0x10000) % 0x400]

def units (s : List Char) : List Nat := s.flatMap unitsOf

theorem toNat_lt (c : Char) : c.toNat < 0xD800 ∨ 0xDFFF < c.toNat ∧ c.toNat < 0x110000 := c.valid

theorem unitsOf_append_inj {c d : Char} {us us' : List Nat}
    (h : unitsOf c ++ us = unitsOf d ++ us') : c = d ∧ us = us' := by
  have hc := toNat_lt c
  have hd := toNat_lt d
  have hnat : c.toNat = d.toNat ∧ us = us' := by
    unfold unitsOf at h
    split at h <;> split at h <;>
      simp only [List.cons_append, List.nil_append, List.cons.injEq] at h
    · exact h
    · omega
    · omega
    · exact ⟨by omega, h.2.2⟩
  exact ⟨Char.toNat_inj.1 hnat.1, hnat.2⟩

/-- No two texts have the same units. -/
theorem units_injective {s t : List Char} (h : units s = units t) : s = t := by
  have hcons : ∀ c (s : List Char), units (c :: s) = unitsOf c ++ units s :=
    fun c s => List.flatMap_cons ..
  have hne : ∀ c, unitsOf c ≠ [] := by
    intro c
    unfold unitsOf
    split <;> simp
  induction s generalizing t with
  | nil =>
    cases t with
    | nil => rfl
    | cons d t => exact absurd (List.append_eq_nil_iff.1 ((hcons d t).symm.trans h.symm)).1 (hne d)
  | cons c s ih =>
    cases t with
    | nil => exact absurd (List.append_eq_nil_iff.1 ((hcons c s).symm.trans h)).1 (hne c)
    | cons d t =>
      rw [hcons, hcons] at h
      obtain ⟨rfl, hrest⟩ := unitsOf_append_inj h
      rw [ih hrest]

theorem units_toList_injective : Function.Injective fun name : String => units name.toList :=
  fun _ _ h => String.toList_inj.1 (units_injective h)

/-- A string behind its opening quote. -/
inductive Quoted : List Char → List Nat → List Char → Prop where
  | close : Quoted ('"' :: rest) [] rest
  | plain (hquote : c ≠ '"') (hback : c ≠ '\\') (hcontrol : 0x20 ≤ c.toNat) (h : Quoted s us rest) :
      Quoted (c :: s) (unitsOf c ++ us) rest
  | short (hc : shortEscape? c = some d) (h : Quoted s us rest) :
      Quoted ('\\' :: c :: s) (d.toNat :: us) rest
  | unit (hn : hexQuad? s = some (n, s')) (h : Quoted s' us rest) :
      Quoted ('\\' :: 'u' :: s) (n :: us) rest

/-- A comma stands before every element but the first. -/
def Comma (first : Bool) (s s' : List Char) : Prop :=
  if first then s' = s else skipSpace s = ',' :: s'

mutual

inductive Value : List Char → Tree → List Char → Prop where
  | null (h : skipSpace s = ['n', 'u', 'l', 'l'] ++ rest) : Value s .null rest
  | yes (h : skipSpace s = ['t', 'r', 'u', 'e'] ++ rest) : Value s (.bool true) rest
  | no (h : skipSpace s = ['f', 'a', 'l', 's', 'e'] ++ rest) : Value s (.bool false) rest
  | number (h : skipSpace s = t ++ rest) (hx : x.Spelled t) : Value s (.number x) rest
  | string (h : skipSpace s = '"' :: s') (hus : Quoted s' us rest) : Value s (.string us) rest
  | array (h : skipSpace s = '[' :: s') (hvs : Items true s' vs rest) : Value s (.array vs) rest
  | object (h : skipSpace s = '\x7b' :: s') (hms : Members true s' ms rest) :
      Value s (.object ms) rest

inductive Items : Bool → List Char → List Tree → List Char → Prop where
  | done (h : skipSpace s = ']' :: rest) : Items first s [] rest
  | item (hcomma : Comma first s s₁) (hv : Value s₁ v s₂) (hvs : Items false s₂ vs rest) :
      Items first s (v :: vs) rest

inductive Members : Bool → List Char → List (List Nat × Tree) → List Char → Prop where
  | done (h : skipSpace s = '\x7d' :: rest) : Members first s [] rest
  | member (hcomma : Comma first s s₁) (hopen : skipSpace s₁ = '"' :: s₂)
      (hname : Quoted s₂ name s₃) (hcolon : skipSpace s₃ = ':' :: s₄) (hv : Value s₄ v s₅)
      (hms : Members false s₅ ms rest) : Members first s ((name, v) :: ms) rest

end

def Says (text : String) (v : Tree) : Prop :=
  ∃ rest, Value text.toList v rest ∧ skipSpace rest = []

section Leads

variable {s s' t rest : List Char} {v : Tree}

theorem Numeral.Spelled.lead {x : Numeral} (h : x.Spelled t) :
    ∃ c tail, t = c :: tail ∧ (c = '-' ∨ c.isDigit = true) := by
  obtain ⟨hwhole, -, -⟩ := h
  obtain ⟨c, tail, hcons, hc⟩ := hwhole.digits.exists_cons
  cases hx : x.negative
  · exact ⟨c, _, by rw [hcons]; rfl, .inr hc⟩
  · exact ⟨'-', _, rfl, .inl rfl⟩

/-- What the first character of a value tells of it, and of the text behind that character. -/
def Leads (c : Char) (s' : List Char) (v : Tree) (rest : List Char) : Prop :=
  match c with
  | 'n' => v = .null ∧ s' = ['u', 'l', 'l'] ++ rest
  | 't' => v = .bool true ∧ s' = ['r', 'u', 'e'] ++ rest
  | 'f' => v = .bool false ∧ s' = ['a', 'l', 's', 'e'] ++ rest
  | '"' => ∃ us, v = .string us ∧ Quoted s' us rest
  | '[' => ∃ vs, v = .array vs ∧ Items true s' vs rest
  | '\x7b' => ∃ ms, v = .object ms ∧ Members true s' ms rest
  | c => ∃ x t, v = .number x ∧ x.Spelled t ∧ c :: s' = t ++ rest

theorem leads_numeral {d : Char} (hd : d = '-' ∨ d.isDigit = true) :
    Leads d s' v rest ↔ ∃ x u, v = .number x ∧ x.Spelled u ∧ d :: s' = u ++ rest := by
  unfold Leads
  split
  · exact absurd hd (by decide)
  · exact absurd hd (by decide)
  · exact absurd hd (by decide)
  · exact absurd hd (by decide)
  · exact absurd hd (by decide)
  · exact absurd hd (by decide)
  · exact Iff.rfl

theorem Value.lead {c : Char} (hv : Value s v rest) (h : skipSpace s = c :: s') :
    Leads c s' v rest := by
  cases hv with
  | number hs hx =>
    obtain ⟨d, tail, rfl, hd⟩ := hx.lead
    cases h.symm.trans hs
    exact (leads_numeral hd).2 ⟨_, _, rfl, hx, rfl⟩
  | null hs =>
    cases h.symm.trans hs
    exact ⟨rfl, rfl⟩
  | yes hs =>
    cases h.symm.trans hs
    exact ⟨rfl, rfl⟩
  | no hs =>
    cases h.symm.trans hs
    exact ⟨rfl, rfl⟩
  | string hs hus =>
    cases h.symm.trans hs
    exact ⟨_, rfl, hus⟩
  | array hs hvs =>
    cases h.symm.trans hs
    exact ⟨_, rfl, hvs⟩
  | object hs hms =>
    cases h.symm.trans hs
    exact ⟨_, rfl, hms⟩

/-- Only a numeral begins as a numeral does. -/
theorem Value.of_spelled {x : Numeral} {rest' : List Char} (hv : Value s v rest)
    (h : skipSpace s = t ++ rest') (hx : x.Spelled t) :
    ∃ y u, v = .number y ∧ y.Spelled u ∧ t ++ rest' = u ++ rest := by
  obtain ⟨d, tail, rfl, hd⟩ := hx.lead
  exact (leads_numeral hd).1 (hv.lead h)

theorem no_value (h : skipSpace s = ']' :: s') : ¬ Value s v rest := by
  intro hv
  obtain ⟨x, t, -, hx, heq⟩ : Leads ']' s' v rest := hv.lead h
  obtain ⟨d, tail, rfl, hd⟩ := hx.lead
  cases heq
  exact absurd hd (by decide)

end Leads

section Lengths

variable {s s' rest : List Char}

theorem length_skipSpace_le (s : List Char) : (skipSpace s).length ≤ s.length :=
  List.length_dropWhile_le ..

theorem length_lt_of_skipSpace {c : Char} (h : skipSpace s = c :: s') : s'.length < s.length := by
  have hle := length_skipSpace_le s
  rw [h, List.length_cons] at hle
  omega

theorem length_hexQuad? {n : Nat} (h : hexQuad? s = some (n, rest)) :
    rest.length + 4 = s.length := by
  unfold hexQuad? at h
  split at h
  · simp only [Option.bind_eq_bind, Option.bind_eq_some_iff] at h
    obtain ⟨a, ha, b, hb, c, hc, d, hd, h⟩ := h
    cases h
    rfl
  · cases h

theorem Quoted.length_lt {us : List Nat} (h : Quoted s us rest) : rest.length < s.length := by
  induction h with
  | close => simp
  | plain _ _ _ _ ih => simp only [List.length_cons]; omega
  | short _ _ ih => simp only [List.length_cons]; omega
  | unit hn _ ih =>
    have hquad := length_hexQuad? hn
    simp only [List.length_cons]
    omega

theorem Comma.length_le {first : Bool} (h : Comma first s s') : s'.length ≤ s.length := by
  cases first
  · exact (length_lt_of_skipSpace h).le
  · exact (congrArg List.length (show s' = s from h)).le

/-- The name of a member is behind its place, and its value behind the name. -/
theorem member_lengths {first : Bool} {s₁ s₂ s₃ s₄ : List Char} {us : List Nat}
    (hcomma : Comma first s s₁) (hopen : skipSpace s₁ = '"' :: s₂) (hname : Quoted s₂ us s₃)
    (hcolon : skipSpace s₃ = ':' :: s₄) : s₂.length < s.length ∧ s₄.length < s₂.length := by
  have hle := hcomma.length_le
  have hlt := length_lt_of_skipSpace hopen
  have hquoted := hname.length_lt
  have hvalue := length_lt_of_skipSpace hcolon
  omega

end Lengths

mutual

theorem Value.length_lt {s rest : List Char} {v : Tree} (h : Value s v rest) :
    rest.length < s.length := by
  cases h with
  | null h | yes h | no h =>
    have hlt := length_lt_of_skipSpace h
    simp only [List.append_eq, List.length_append] at hlt
    omega
  | number h hx =>
    obtain ⟨c, tail, rfl, -⟩ := hx.lead
    have hlt := length_lt_of_skipSpace h
    simp only [List.append_eq, List.length_append] at hlt
    omega
  | string h hus => exact hus.length_lt.trans (length_lt_of_skipSpace h)
  | array h hvs =>
    have hvs := hvs.length_lt
    have hlt := length_lt_of_skipSpace h
    omega
  | object h hms => exact hms.length_lt.trans (length_lt_of_skipSpace h)

/-- Every item takes a character, and so does the closing bracket. -/
theorem Items.length_lt {first : Bool} {s rest : List Char} {vs : List Tree}
    (h : Items first s vs rest) : vs.length + rest.length < s.length := by
  cases h with
  | done h => simpa using length_lt_of_skipSpace h
  | item hcomma hv hvs =>
    have hle := hcomma.length_le
    have hv := hv.length_lt
    have hvs := hvs.length_lt
    simp only [List.length_cons]
    omega

theorem Members.length_lt {first : Bool} {s rest : List Char} {ms : List (List Nat × Tree)}
    (h : Members first s ms rest) : rest.length < s.length := by
  cases h with
  | done h => exact length_lt_of_skipSpace h
  | member hcomma hopen hname hcolon hv hms =>
    obtain ⟨hnames, hvalues⟩ := member_lengths hcomma hopen hname hcolon
    have hv := hv.length_lt
    have hms := hms.length_lt
    omega

end

section Uniqueness

variable {s s' rest rest' : List Char} {us us' : List Nat}

theorem Quoted.unique (h : Quoted s us rest) (h' : Quoted s us' rest') :
    us = us' ∧ rest = rest' := by
  induction h generalizing us' with
  | close =>
    cases h' with
    | close => exact ⟨rfl, rfl⟩
    | plain hquote => exact absurd rfl hquote
  | plain hquote hback _ _ ih =>
    cases h' with
    | close => exact absurd rfl hquote
    | plain _ _ _ h' =>
      obtain ⟨rfl, rfl⟩ := ih h'
      exact ⟨rfl, rfl⟩
    | short => exact absurd rfl hback
    | unit => exact absurd rfl hback
  | short hc _ ih =>
    cases h' with
    | plain _ hback => exact absurd rfl hback
    | short hc' h' =>
      obtain ⟨rfl, rfl⟩ := ih h'
      cases hc.symm.trans hc'
      exact ⟨rfl, rfl⟩
    | unit => cases hc
  | unit hn _ ih =>
    cases h' with
    | plain _ hback => exact absurd rfl hback
    | short hc' => cases hc'
    | unit hn' h' =>
      cases hn.symm.trans hn'
      obtain ⟨rfl, rfl⟩ := ih h'
      exact ⟨rfl, rfl⟩

theorem Comma.unique {first : Bool} {s₁ s₂ : List Char} (h : Comma first s s₁)
    (h' : Comma first s s₂) : s₁ = s₂ := by
  cases first
  · simpa [Comma] using (Eq.symm h).trans h'
  · exact Eq.trans h (Eq.symm h')

/-- Nothing of a numeral stands before a comma, a bracket or the end. -/
theorem ends_of_skipSpace (h : ∀ c ∈ (skipSpace s).head?, c = ',' ∨ c = ']' ∨ c = '\x7d') :
    Ends s := by
  intro c hc
  obtain ⟨tail, rfl⟩ := List.head?_eq_some_iff.1 hc
  by_cases hspace : isSpace c = true
  · have hc : c = ' ' ∨ c = '\n' ∨ c = '\t' ∨ c = '\r' := by simpa [isSpace] using hspace
    rcases hc with rfl | rfl | rfl | rfl <;> decide
  · rw [skipSpace, List.dropWhile_cons_of_neg hspace] at h
    rcases h c rfl with rfl | rfl | rfl <;> decide

theorem Items.ends {vs : List Tree} (h : Items false s vs rest) : Ends s := by
  refine ends_of_skipSpace fun c hc => ?_
  cases h with
  | done h => exact .inr (.inl (by simpa [h] using hc.symm))
  | item hcomma => exact .inl (by simpa [show skipSpace s = _ from hcomma] using hc.symm)

theorem Members.ends {ms : List (List Nat × Tree)} (h : Members false s ms rest) : Ends s := by
  refine ends_of_skipSpace fun c hc => ?_
  cases h with
  | done h => exact .inr (.inr (by simpa [h] using hc.symm))
  | member hcomma => exact .inl (by simpa [show skipSpace s = _ from hcomma] using hc.symm)

/-- No item stands where the list ends. -/
theorem Comma.not_done {first : Bool} {s₁ s₂ : List Char} {v : Tree} (h : Comma first s s₁)
    (hdone : skipSpace s = ']' :: rest) : ¬ Value s₁ v s₂ := by
  cases first
  · cases (Eq.symm hdone).trans h
  · rw [show s₁ = s from h]
    exact no_value hdone

theorem Comma.not_over {first : Bool} {s₁ s₂ : List Char} (h : Comma first s s₁)
    (hover : skipSpace s = '\x7d' :: rest) : skipSpace s₁ ≠ '"' :: s₂ := by
  intro hopen
  cases first
  · cases (Eq.symm hover).trans h
  · rw [show s₁ = s from h, hover] at hopen
    cases hopen

end Uniqueness

mutual

theorem Value.unique {s rest rest' : List Char} {v v' : Tree} (hv : Value s v rest)
    (hv' : Value s v' rest') (hrest : Ends rest) (hrest' : Ends rest') : v = v' ∧ rest = rest' := by
  cases hv with
  | null h =>
    obtain ⟨rfl, htail⟩ : Leads 'n' _ v' rest' := hv'.lead h
    exact ⟨rfl, by simpa using htail⟩
  | yes h =>
    obtain ⟨rfl, htail⟩ : Leads 't' _ v' rest' := hv'.lead h
    exact ⟨rfl, by simpa using htail⟩
  | no h =>
    obtain ⟨rfl, htail⟩ : Leads 'f' _ v' rest' := hv'.lead h
    exact ⟨rfl, by simpa using htail⟩
  | number h hx =>
    obtain ⟨y, u, rfl, hy, heq⟩ := hv'.of_spelled h hx
    obtain ⟨rfl, rfl⟩ := hx.unique hy heq hrest hrest'
    exact ⟨rfl, rfl⟩
  | string h hus =>
    obtain ⟨us', rfl, hus'⟩ : Leads '"' _ v' rest' := hv'.lead h
    obtain ⟨rfl, rfl⟩ := hus.unique hus'
    exact ⟨rfl, rfl⟩
  | array h hvs =>
    obtain ⟨vs', rfl, hvs'⟩ : Leads '[' _ v' rest' := hv'.lead h
    obtain ⟨rfl, rfl⟩ := hvs.unique hvs'
    exact ⟨rfl, rfl⟩
  | object h hms =>
    obtain ⟨ms', rfl, hms'⟩ : Leads '\x7b' _ v' rest' := hv'.lead h
    obtain ⟨rfl, rfl⟩ := hms.unique hms'
    exact ⟨rfl, rfl⟩

theorem Items.unique {first : Bool} {s rest rest' : List Char} {vs vs' : List Tree}
    (h : Items first s vs rest) (h' : Items first s vs' rest') : vs = vs' ∧ rest = rest' := by
  cases h with
  | done h =>
    cases h' with
    | done h' => exact ⟨rfl, by simpa using h.symm.trans h'⟩
    | item hcomma hv => exact absurd hv (hcomma.not_done h)
  | item hcomma hv hvs =>
    cases h' with
    | done h' => exact absurd hv (hcomma.not_done h')
    | item hcomma' hv' hvs' =>
      obtain rfl := hcomma.unique hcomma'
      obtain ⟨rfl, rfl⟩ := hv.unique hv' hvs.ends hvs'.ends
      obtain ⟨rfl, rfl⟩ := hvs.unique hvs'
      exact ⟨rfl, rfl⟩

theorem Members.unique {first : Bool} {s rest rest' : List Char} {ms ms' : List (List Nat × Tree)}
    (h : Members first s ms rest) (h' : Members first s ms' rest') : ms = ms' ∧ rest = rest' := by
  cases h with
  | done h =>
    cases h' with
    | done h' => exact ⟨rfl, by simpa using h.symm.trans h'⟩
    | member hcomma hopen => exact absurd hopen (hcomma.not_over h)
  | member hcomma hopen hname hcolon hv hms =>
    cases h' with
    | done h' => exact absurd hopen (hcomma.not_over h')
    | member hcomma' hopen' hname' hcolon' hv' hms' =>
      obtain rfl := hcomma.unique hcomma'
      cases hopen.symm.trans hopen'
      obtain ⟨rfl, rfl⟩ := hname.unique hname'
      cases hcolon.symm.trans hcolon'
      obtain ⟨rfl, rfl⟩ := hv.unique hv' hms.ends hms'.ends
      obtain ⟨rfl, rfl⟩ := hms.unique hms'
      exact ⟨rfl, rfl⟩

end

/-- Between two places of a text one thing is said at most, whatever is behind. -/
theorem Value.tree_unique {s rest : List Char} {v v' : Tree} (hv : Value s v rest)
    (hv' : Value s v' rest) : v = v' := by
  cases hv with
  | null h =>
    obtain ⟨rfl, -⟩ : Leads 'n' _ v' rest := hv'.lead h
    rfl
  | yes h =>
    obtain ⟨rfl, -⟩ : Leads 't' _ v' rest := hv'.lead h
    rfl
  | no h =>
    obtain ⟨rfl, -⟩ : Leads 'f' _ v' rest := hv'.lead h
    rfl
  | number h hx =>
    obtain ⟨y, u, rfl, hy, heq⟩ := hv'.of_spelled h hx
    obtain rfl := List.append_cancel_right heq
    have hends : Ends [] := fun c hc => by cases hc
    rw [(hx.unique hy rfl hends hends).1]
  | string h hus =>
    obtain ⟨us', rfl, hus'⟩ : Leads '"' _ v' rest := hv'.lead h
    rw [(hus.unique hus').1]
  | array h hvs =>
    obtain ⟨vs', rfl, hvs'⟩ : Leads '[' _ v' rest := hv'.lead h
    rw [(hvs.unique hvs').1]
  | object h hms =>
    obtain ⟨ms', rfl, hms'⟩ : Leads '\x7b' _ v' rest := hv'.lead h
    rw [(hms.unique hms').1]

theorem Says.unique {text : String} {v v' : Tree} (h : Says text v) (h' : Says text v') : v = v' := by
  obtain ⟨rest, hv, hrest⟩ := h
  obtain ⟨rest', hv', hrest'⟩ := h'
  have hends : Ends rest := ends_of_skipSpace (by simp [hrest])
  have hends' : Ends rest' := ends_of_skipSpace (by simp [hrest'])
  exact (hv.unique hv' hends hends').1

end ScriptHost.Json
