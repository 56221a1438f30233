import Mathlib.Data.Option.Basic
import Mathlib.Logic.Relation
import ScriptHost.Proofs.Protocol.RoundTrip
import ScriptHost.Proofs.Text.Blanks
import ScriptHost.Proofs.Wire.Members

/-! What the environment makes of a configuration. Each variable gives one field in a grammar of its
own, and a text outside that grammar is refused, but for the host, which may be any. A configuration
that is given so can be given in JSON too. -/

namespace ScriptHost

open Json

namespace BridgeConfig

section Grammar

def Trimmed (holds : List Char → Prop) (raw : String) : Prop :=
  ∃ t, Text.Trims raw.toList t ∧ holds t

/-- A host of blanks alone is none. -/
def HostGiven (raw host : String) : Prop :=
  Trimmed (fun t => host = if t = [] then default.host else String.ofList t) raw

/-- An optional plus sign and digits of this value. -/
def PortGiven (raw : String) (port : UInt16) : Prop :=
  Trimmed (fun t => Text.Spells t port.toNat) raw

def flagWords : Bool → List String
  | true => ["1", "true", "yes", "on"]
  | false => ["0", "false", "no", "off"]

/-- One of the words for the flag, in any case of its letters. -/
def FlagGiven (raw : String) (b : Bool) : Prop :=
  Trimmed (fun t => String.ofList (t.map Char.toLower) ∈ flagWords b) raw

def IsPort (raw : String) : Prop :=
  Trimmed (fun t => ∃ n ≤ 65535, Text.Spells t n) raw

def IsFlag (raw : String) : Prop :=
  Trimmed (fun t => String.ofList (t.map Char.toLower) ∈
    ["1", "true", "yes", "on", "0", "false", "no", "off"]) raw

/-- A field has what is given by its variable, or the default if that is unset. -/
def Gives (default : α) (given : String → α → Prop) : Option String → α → Prop
  | none, a => a = default
  | some raw, a => given raw a

theorem trimmed_iff {holds : List Char → Prop} {raw : String} :
    Trimmed holds raw ↔ holds (Text.trim raw.toList) := by
  simp only [Trimmed, Text.trims_iff, exists_eq_left']

theorem trimmed_padded {holds : List Char → Prop} {raw : String} {before after : List Char}
    (hbefore : Text.Blanks before) (hafter : Text.Blanks after) :
    Trimmed holds (String.ofList (before ++ raw.toList ++ after)) ↔ Trimmed holds raw := by
  rw [trimmed_iff, trimmed_iff, String.toList_ofList, Text.trim_padded hbefore hafter]

end Grammar

section Reading

variable {lookup : String → Option String} {raw : String} {value : Option String} {c : BridgeConfig}

theorem ofVariables_eq_ok : ofVariables lookup = .ok c ↔
    (lookup hostVariable).elim default.host readHost = c.host ∧
      fieldOf default.port readPort (lookup portVariable) = .ok c.port ∧
      fieldOf default.pauseOnLoad readPause (lookup pauseVariable) = .ok c.pauseOnLoad ∧
      c.shutdownTimeoutMs = default.shutdownTimeoutMs := by
  rw [ofVariables, bind_eq_ok]
  constructor
  · rintro ⟨port, hport, h⟩
    obtain ⟨pauseOnLoad, hpause, h⟩ := bind_eq_ok.1 h
    cases h
    exact ⟨rfl, hport, hpause, rfl⟩
  · rintro ⟨hhost, hport, hpause, hshutdown⟩
    refine ⟨_, hport, bind_eq_ok.2 ⟨_, hpause, ?_⟩⟩
    obtain ⟨host, port, pauseOnLoad, _⟩ := c
    cases hshutdown
    cases hhost
    rfl

theorem fieldOf_eq_ok {default a : α} {read : String → Except ConfigError α}
    {given : String → α → Prop} (h : ∀ {raw a}, read raw = .ok a ↔ given raw a) :
    fieldOf default read value = .ok a ↔ Gives default given value a := by
  cases value with
  | none => simp [fieldOf, Gives, eq_comm]
  | some raw => exact h

theorem readHost_eq {host : String} : readHost raw = host ↔ HostGiven raw host := by
  rw [HostGiven, trimmed_iff]
  exact eq_comm

theorem gives_host {host : String} :
    value.elim default.host readHost = host ↔ Gives default.host HostGiven value host := by
  cases value with
  | none => exact eq_comm
  | some raw => exact readHost_eq

theorem readPort_eq_ok {port : UInt16} : readPort raw = .ok port ↔ PortGiven raw port := by
  rw [PortGiven, trimmed_iff]
  have hmost : port.toNat ≤ UInt16.size - 1 := Nat.le_sub_one_of_lt port.toNat_lt_size
  have hspells : Text.Spells (Text.trim raw.toList) port.toNat ↔
      Text.readDecimal (UInt16.size - 1) (Text.trim raw.toList) = .ok port.toNat :=
    (and_iff_left hmost).symm.trans Text.readDecimal_eq_ok.symm
  rw [hspells, readPort]
  split
  · next n heq =>
    have hn : n < UInt16.size := Nat.lt_succ_of_le (Text.readDecimal_eq_ok.1 heq).2
    rw [heq, Except.ok.injEq, Except.ok.injEq, ← UInt16.toNat_inj, UInt16.toNat_ofNat_of_lt' hn]
  · next heq => simp only [heq, reduceCtorEq]

theorem readFlag_eq_some {s : List Char} {b : Bool} :
    readFlag s = some b ↔ String.ofList (s.map Char.toLower) ∈ flagWords b := by
  have hapart : ∀ word ∈ flagWords true, word ∉ flagWords false := by decide
  rw [readFlag]
  cases b with
  | true =>
    split
    · next h => exact iff_of_true rfl h
    · next h => split <;> exact iff_of_false (by simp) h
  | false =>
    split
    · next h => exact iff_of_false (by simp) (hapart _ h)
    · split
      · next h => exact iff_of_true rfl h
      · next h => exact iff_of_false (by simp) h

theorem readPause_eq_ok {b : Bool} : readPause raw = .ok b ↔ FlagGiven raw b := by
  rw [FlagGiven, trimmed_iff, ← readFlag_eq_some, readPause]
  split
  · next h => rw [h, Except.ok.injEq, Option.some.injEq]
  · next h => simp [h]

theorem isPort_iff : IsPort raw ↔ ∃ port, PortGiven raw port := by
  simp only [IsPort, PortGiven, trimmed_iff]
  constructor
  · rintro ⟨n, hle, hn⟩
    refine ⟨UInt16.ofNat n, ?_⟩
    rwa [UInt16.toNat_ofNat_of_lt' (Nat.lt_succ_of_le hle)]
  · rintro ⟨port, hn⟩
    exact ⟨_, Nat.le_of_lt_succ port.toNat_lt_size, hn⟩

theorem isFlag_iff : IsFlag raw ↔ ∃ b, FlagGiven raw b := by
  have hwords : ["1", "true", "yes", "on", "0", "false", "no", "off"] =
      flagWords true ++ flagWords false := rfl
  simp only [IsFlag, FlagGiven, trimmed_iff]
  rw [hwords, List.mem_append]
  constructor
  · rintro (h | h)
    · exact ⟨true, h⟩
    · exact ⟨false, h⟩
  · rintro ⟨b, h⟩
    cases b with
    | true => exact .inl h
    | false => exact .inr h

theorem readPort_of_not (h : ¬ IsPort raw) : readPort raw = .error (.badPort raw) := by
  rw [readPort]
  split
  · next n hn =>
    obtain ⟨hspells, hle⟩ := Text.readDecimal_eq_ok.1 hn
    exact absurd (trimmed_iff.2 ⟨n, hle, hspells⟩) h
  · rfl

theorem readPause_of_not (h : ¬ IsFlag raw) : readPause raw = .error (.badFlag raw) := by
  rw [readPause]
  split
  · next b hb =>
    exact absurd (isFlag_iff.2 ⟨b, trimmed_iff.2 (readFlag_eq_some.1 hb)⟩) h
  · rfl

/-- Each field is given by its own variable. -/
theorem ofVariables_given : ofVariables lookup = .ok c ↔
    Gives default.host HostGiven (lookup hostVariable) c.host ∧
      Gives default.port PortGiven (lookup portVariable) c.port ∧
      Gives default.pauseOnLoad FlagGiven (lookup pauseVariable) c.pauseOnLoad ∧
      c.shutdownTimeoutMs = default.shutdownTimeoutMs := by
  rw [ofVariables_eq_ok, gives_host, fieldOf_eq_ok readPort_eq_ok, fieldOf_eq_ok readPause_eq_ok]

theorem ofVariables_badPort (hraw : lookup portVariable = some raw) (h : ¬ IsPort raw) :
    ofVariables lookup = .error (.badPort raw) := by
  rw [ofVariables, hraw, fieldOf, readPort_of_not h]
  rfl

theorem exists_fieldOf {default : α} {read : String → Except ConfigError α} {valid : String → Prop}
    (hread : ∀ {raw}, valid raw → ∃ a, read raw = .ok a) (h : ∀ raw ∈ value, valid raw) :
    ∃ a, fieldOf default read value = .ok a := by
  cases value with
  | none => exact ⟨_, rfl⟩
  | some raw => exact hread (h raw rfl)

theorem exists_readPort (h : IsPort raw) : ∃ port, readPort raw = .ok port :=
  (isPort_iff.1 h).imp fun _ => readPort_eq_ok.2

theorem exists_readPause (h : IsFlag raw) : ∃ b, readPause raw = .ok b :=
  (isFlag_iff.1 h).imp fun _ => readPause_eq_ok.2

theorem ofVariables_badFlag (hport : ∀ raw ∈ lookup portVariable, IsPort raw)
    (hraw : lookup pauseVariable = some raw) (h : ¬ IsFlag raw) :
    ofVariables lookup = .error (.badFlag raw) := by
  obtain ⟨port, hport⟩ := exists_fieldOf exists_readPort hport
  rw [ofVariables, hport, hraw]
  simp only [fieldOf, readPause_of_not h]
  rfl

theorem exists_ofVariables (hport : ∀ raw ∈ lookup portVariable, IsPort raw)
    (hflag : ∀ raw ∈ lookup pauseVariable, IsFlag raw) : ∃ c, ofVariables lookup = .ok c := by
  obtain ⟨port, hport⟩ := exists_fieldOf exists_readPort hport
  obtain ⟨pauseOnLoad, hpause⟩ := exists_fieldOf exists_readPause hflag
  exact ⟨{ default with host := _, port, pauseOnLoad },
    ofVariables_eq_ok.2 ⟨rfl, hport, hpause, rfl⟩⟩

/-- Only a port or a flag is refused. -/
theorem ofVariables_fails : (∃ e, ofVariables lookup = .error e) ↔
    (∃ raw ∈ lookup portVariable, ¬ IsPort raw) ∨ ∃ raw ∈ lookup pauseVariable, ¬ IsFlag raw := by
  constructor
  · rintro ⟨e, he⟩
    by_contra hvalid
    push Not at hvalid
    obtain ⟨c, hc⟩ := exists_ofVariables hvalid.1 hvalid.2
    cases he.symm.trans hc
  · intro hbad
    -- the flag is looked at only behind a port that is fine
    by_cases hport : ∃ raw ∈ lookup portVariable, ¬ IsPort raw
    · obtain ⟨raw, hraw, h⟩ := hport
      exact ⟨_, ofVariables_badPort hraw h⟩
    · obtain ⟨raw, hraw, h⟩ := hbad.resolve_left hport
      push Not at hport
      exact ⟨_, ofVariables_badFlag hport hraw h⟩

end Reading

section Respelling

inductive Variable where
  | host
  | port
  | pauseOnLoad

def Variable.name : Variable → String
  | host => hostVariable
  | port => portVariable
  | pauseOnLoad => pauseVariable

/-- Two texts for a variable that differ in nothing that counts there. -/
inductive Respelled : Variable → String → String → Prop where
  | padded {x : Variable} {raw : String} {before after : List Char} (hbefore : Text.Blanks before)
      (hafter : Text.Blanks after) :
      Respelled x raw (String.ofList (before ++ raw.toList ++ after))
  | zeros {before after sign digits : List Char} (zeros : Nat) (hbefore : Text.Blanks before)
      (hafter : Text.Blanks after) (hsign : sign = [] ∨ sign = ['+']) (hdigits : Digits digits) :
      Respelled .port (String.ofList (before ++ (sign ++ digits) ++ after))
        (String.ofList (before ++ (sign ++ (List.replicate zeros '0' ++ digits)) ++ after))
  | cased {raw raw' : String} (h : raw.toList.map Char.toLower = raw'.toList.map Char.toLower) :
      Respelled .pauseOnLoad raw raw'

variable {raw raw' : String}

theorem Respelled.host (h : Respelled .host raw raw') {host : String} :
    HostGiven raw host ↔ HostGiven raw' host := by
  cases h with
  | padded hbefore hafter => exact (trimmed_padded hbefore hafter).symm

theorem trim_signed {sign digits : List Char} (hsign : sign = [] ∨ sign = ['+'])
    (hdigits : Digits digits) : Text.trim (sign ++ digits) = sign ++ digits := by
  refine Text.trim_of_blankless (List.forall_mem_append.2 ⟨?_, fun c hc => ?_⟩)
  · rcases hsign with rfl | rfl
    · exact List.forall_mem_nil _
    · exact List.forall_mem_singleton.2 (Text.not_isBlank (by decide) (by decide))
  · exact Text.not_isBlank_of_isDigit (hdigits.2 c hc)

theorem Respelled.port (h : Respelled .port raw raw') {port : UInt16} :
    PortGiven raw port ↔ PortGiven raw' port := by
  cases h with
  | padded hbefore hafter => exact (trimmed_padded hbefore hafter).symm
  | zeros zeros hbefore hafter hsign hdigits =>
    simp only [PortGiven, trimmed_iff, String.toList_ofList, Text.trim_padded hbefore hafter]
    rw [trim_signed hsign hdigits, trim_signed hsign (Text.digits_zeros hdigits zeros),
      Text.spells_zeros hsign hdigits]

theorem Respelled.pauseOnLoad (h : Respelled .pauseOnLoad raw raw') {b : Bool} :
    FlagGiven raw b ↔ FlagGiven raw' b := by
  cases h with
  | padded hbefore hafter => exact (trimmed_padded hbefore hafter).symm
  | cased h =>
    simp only [FlagGiven, trimmed_iff, ← Text.trim_lowered, h]

def Alike (x : Variable) : Option String → Option String → Prop :=
  Option.Rel (Relation.EqvGen (Respelled x))

theorem Alike.gives {x : Variable} {value value' : Option String} {default a : α}
    {given : String → α → Prop}
    (hstep : ∀ {raw raw'}, Respelled x raw raw' → (given raw a ↔ given raw' a))
    (h : Alike x value value') : Gives default given value a ↔ Gives default given value' a := by
  cases h with
  | none => rfl
  | some hrun =>
    -- a respelling may also be taken back, since one step keeps what is given both ways
    show given _ a ↔ given _ a
    induction hrun with
    | rel _ _ h => exact hstep h
    | refl => rfl
    | symm _ _ _ ih => exact ih.symm
    | trans _ _ _ _ _ ih ih' => exact ih.trans ih'

end Respelling

section Settings

variable {lookup : String → Option String} {c : BridgeConfig} {v : Tree}
  {ms : List (List Nat × Tree)} {members : List (String × Json)}

/-- A variable that is set takes effect, unless it is the host's and blank. -/
def Variable.takesEffect : Variable → Option String → Bool
  | _, none => false
  | .host, some raw => raw.toList.any fun ch => !Text.isBlank ch
  | _, some _ => true

def Variable.member (c : BridgeConfig) : Variable → String × Json
  | host => ("host", .string c.host)
  | port => ("port", .number (.integer c.port.toNat))
  | pauseOnLoad => ("pauseOnLoad", .bool c.pauseOnLoad)

/-- The members for the variables that took effect, in the order of their names. -/
def settings (lookup : String → Option String) (c : BridgeConfig) : List (String × Json) :=
  ([.host, .pauseOnLoad, .port].filter fun x : Variable => x.takesEffect (lookup x.name)).map
    (Variable.member c)

theorem under_settings (x : Variable) : under (x.member c).1 (settings lookup c) =
    if x.takesEffect (lookup x.name) then [x.member c] else [] := by
  have hown : [.host, .pauseOnLoad, .port].filter
      ((fun m : String × Json => decide (m.1 = (x.member c).1)) ∘ Variable.member c) = [x] := by
    cases x <;> simp [Variable.member]
  rw [settings, under, List.filter_map, List.filter_comm, hown, List.filter_singleton]
  cases x.takesEffect (lookup x.name) <;> rfl

/-- No variable gives the time that a shutdown may take. -/
theorem under_shutdownTimeoutMs : under "shutdownTimeoutMs" (settings lookup c) = [] := by
  have hnames : ((settings lookup c).map Prod.fst).Sublist ["host", "pauseOnLoad", "port"] :=
    (List.filter_sublist.map (Variable.member c)).map Prod.fst
  exact under_eq_nil.2 fun hmem => by simpa using hnames.subset hmem

theorem Variable.portable_member (x : Variable) : Portable 0 (x.member c).2 := by
  cases x with
  | host => exact .string
  | port =>
    have hlt := c.port.toNat_lt_size
    have hsize : UInt16.size = 65536 := rfl
    exact .integer (by omega)
  | pauseOnLoad => exact .bool

theorem Variable.depth_member (x : Variable) (h : Holds v (x.member c).2) : v.depth = 0 := by
  cases x <;> exact h.depth_eq_zero (by simp [member]) (by simp [member])

/-- Where the members are the settings, a field has what its variable gave. -/
theorem given_member {f : Field α} {a : α} {levels : Nat} (hms : HoldMembers ms members)
    (hperm : members.Perm (settings lookup c)) (x : Variable) (hname : f.name = (x.member c).1)
    (hagrees : f.wire.Agrees) (hmember : f.wire.ofJson (x.member c).2 = .ok a)
    (habsent : x.takesEffect (lookup x.name) = false → f.absent = some a) :
    f.Given (fun name => units name.toList) (fun _ wire v a => wire.Reads levels v a) ms a := by
  have hsettings : under f.name (settings lookup c) =
      if x.takesEffect (lookup x.name) then [x.member c] else [] := hname ▸ under_settings x
  obtain ⟨hnone, hone⟩ := hms.under_of_perm hperm
  cases htakes : x.takesEffect (lookup x.name) with
  | false => exact .inl ⟨hnone (by simp [hsettings, htakes]), habsent htakes⟩
  | true =>
    have hone' : under f.name (settings lookup c) = [(f.name, (x.member c).2)] := by
      rw [hsettings, if_pos htakes, hname]
    obtain ⟨v, hv, hholds⟩ := hone _ hone'
    have hdepth := (x.depth_member hholds).le.trans (Nat.zero_le levels)
    exact .inr ⟨v, hv, hagrees.reads ⟨_, hholds, hmember⟩ hdepth⟩

theorem Gives.default_of_blank {value : Option String} {host : String}
    (h : Gives default.host HostGiven value host)
    (hblank : Variable.host.takesEffect value = false) : host = default.host := by
  cases value with
  | none => exact h
  | some raw =>
    obtain ⟨t, ht, rfl⟩ := h
    have hblanks : Text.Blanks raw.toList := by
      simpa [Variable.takesEffect, Text.Blanks] using hblank
    exact if_pos (ht.trim_eq.symm.trans (Text.trim_eq_nil.2 hblanks))

theorem Gives.default_of_unset {value : Option String} {x : Variable} {default a : α}
    {given : String → α → Prop} (h : Gives default given value a) (hx : x ≠ .host)
    (hunset : x.takesEffect value = false) : a = default := by
  cases value with
  | none => exact h
  | some raw =>
    cases x with
    | host => exact absurd rfl hx
    | port => cases hunset
    | pauseOnLoad => cases hunset

/-- A text that states the settings, in any order, is the configuration in JSON. -/
theorem ofJson_settings (hc : ofVariables lookup = .ok c) {text : String}
    (htext : Says text (.object ms)) (hms : HoldMembers ms members)
    (hperm : members.Perm (settings lookup c)) : ofJson text = .ok c := by
  obtain ⟨hhost, hport, hpause, hshutdown⟩ := ofVariables_given.1 hc
  obtain ⟨host, port, pauseOnLoad, shutdownTimeoutMs⟩ := c
  refine mapError_eq_ok.2 (Wire.decode_object_complete (by decide) htext hms.readable
    (b := (host, port, pauseOnLoad, shutdownTimeoutMs, ())) ⟨?_, ?_, ?_, ?_, trivial⟩)
  · exact given_member hms hperm .host rfl Wire.agrees_text rfl fun hblank =>
      congrArg some (hhost.default_of_blank hblank).symm
  · exact given_member hms hperm .port rfl (Wire.agrees_unsigned ..)
      (Wire.unsigned_ofJson port.toNat_lt_size port.ofNat_toNat) fun hunset =>
        congrArg some (hport.default_of_unset (by simp) hunset).symm
  · exact given_member hms hperm .pauseOnLoad rfl Wire.agrees_flag rfl fun hunset =>
      congrArg some (hpause.default_of_unset (by simp) hunset).symm
  · exact .inl ⟨(hms.under_of_perm hperm).1 under_shutdownTimeoutMs, congrArg some hshutdown.symm⟩

theorem ofJson_printed (hc : ofVariables lookup = .ok c) :
    ofJson (Json.object (settings lookup c)).text = .ok c := by
  have hholds : ∀ m ∈ settings lookup c, Holds m.2.tree m.2 := by
    intro m hm
    obtain ⟨x, -, rfl⟩ := List.mem_map.1 hm
    exact x.portable_member.holds
  exact ofJson_settings hc (says_text _) (holdMembers_tree hholds) (List.Perm.refl _)

end Settings

end BridgeConfig

open BridgeConfig

structure VariablesConfigure (lookup : String → Option String) : Prop where
  /-- Each variable gives its own field, and no other. -/
  given : ∀ c, ofVariables lookup = .ok c ↔
    Gives default.host HostGiven (lookup hostVariable) c.host ∧
      Gives default.port PortGiven (lookup portVariable) c.port ∧
      Gives default.pauseOnLoad FlagGiven (lookup pauseVariable) c.pauseOnLoad ∧
      c.shutdownTimeoutMs = default.shutdownTimeoutMs
  own : ∀ c lookup' c', ofVariables lookup = .ok c → ofVariables lookup' = .ok c' →
    (lookup hostVariable = lookup' hostVariable → c.host = c'.host) ∧
      (lookup portVariable = lookup' portVariable → c.port = c'.port) ∧
      (lookup pauseVariable = lookup' pauseVariable → c.pauseOnLoad = c'.pauseOnLoad)
  fails : (∃ e, ofVariables lookup = .error e) ↔
    (∃ raw ∈ lookup portVariable, ¬ IsPort raw) ∨ ∃ raw ∈ lookup pauseVariable, ¬ IsFlag raw
  /-- A port that is refused is told, whatever the flag is. -/
  badPort : ∀ raw ∈ lookup portVariable, ¬ IsPort raw →
    ofVariables lookup = .error (.badPort raw)
  badFlag : (∀ raw ∈ lookup portVariable, IsPort raw) → ∀ raw ∈ lookup pauseVariable,
    ¬ IsFlag raw → ofVariables lookup = .error (.badFlag raw)
  /-- A JSON object of the values that took effect gives the same, however it is written. -/
  json : ∀ c, ofVariables lookup = .ok c → ∀ text ms members, Says text (.object ms) →
    HoldMembers ms members → members.Perm (settings lookup c) → ofJson text = .ok c
  printed : ∀ c, ofVariables lookup = .ok c → ofJson (Json.object (settings lookup c)).text = .ok c
  respelled : ∀ lookup', (∀ x : Variable, Alike x (lookup x.name) (lookup' x.name)) →
    ∀ c, ofVariables lookup' = .ok c ↔ ofVariables lookup = .ok c

theorem variables_configure (lookup : String → Option String) : VariablesConfigure lookup where
  given c := ofVariables_given
  own c lookup' c' hc hc' := by
    obtain ⟨hhost, hport, hpause, -⟩ := ofVariables_eq_ok.1 hc
    obtain ⟨hhost', hport', hpause', -⟩ := ofVariables_eq_ok.1 hc'
    refine ⟨fun heq => ?_, fun heq => ?_, fun heq => ?_⟩
    · rw [← hhost, ← hhost', heq]
    · exact Except.ok.inj (hport.symm.trans (heq ▸ hport'))
    · exact Except.ok.inj (hpause.symm.trans (heq ▸ hpause'))
  fails := ofVariables_fails
  badPort _ hraw h := ofVariables_badPort hraw h
  badFlag hport _ hraw h := ofVariables_badFlag hport hraw h
  json _ hc _ _ _ htext hms hperm := ofJson_settings hc htext hms hperm
  printed _ hc := ofJson_printed hc
  respelled lookup' halike c := by
    rw [ofVariables_given, ofVariables_given]
    refine and_congr ?_ (and_congr ?_ (and_congr_left' ?_))
    · exact ((halike .host).gives fun h => h.host).symm
    · exact ((halike .port).gives fun h => h.port).symm
    · exact ((halike .pauseOnLoad).gives fun h => h.pauseOnLoad).symm

example : ofVariables (fun name => [(hostVariable, " \t"), (portVariable, "\u3000+0080"),
    (pauseVariable, "Off ")].lookup name) = .ok ⟨"127.0.0.1", 80, false, 2000⟩ := by
  decide +kernel

end ScriptHost
