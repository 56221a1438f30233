import Mathlib.Logic.Relation
import ScriptHost.Proofs.Protocol.ScriptIds
import ScriptHost.Proofs.Wire.Members

/-! What a frame says apart from its id, its method and its parameters is of no account, and neither
are the order of its members, blanks, members that are `null`, or what parameters say beyond what
their method takes. So edits of this kind change neither whether a frame is read nor as what. -/

namespace ScriptHost

open Json

namespace Envelope

variable {known : List String} {e e' : Envelope} {ms ms' ns : List (List Nat × Tree)}

/-- The members of a text give this envelope. -/
def SaidBy (e : Envelope) (ms : List (List Nat × Tree)) : Prop :=
  Readable ms ∧ fields.GivenByTrees ms (e.id, e.method, e.params, ())

theorem saidBy_of_parse {text : String} (h : Says text (.object ms)) (he : parse text = .ok e) :
    e.SaidBy ms := by
  obtain ⟨hreadable, _, hb, rfl⟩ :=
    Wire.decode_object_sound fields_agree fields_nodup h (mapError_eq_ok.1 he)
  exact ⟨hreadable, hb⟩

theorem parse_object_eq_ok {text : String} (h : Says text (.object ms))
    (hdepth : fields.Shallow (Wire.maxLevels - 1) ms) : parse text = .ok e ↔ e.SaidBy ms := by
  refine ⟨saidBy_of_parse h, fun he => mapError_eq_ok.2 ?_⟩
  exact (Wire.decode_object_eq_ok fields_agree fields_nodup h hdepth).2 ⟨he.1, _, he.2, rfl⟩

/-- The same under a name, where a member that is `null` counts as none. -/
inductive SameUnder (name : String) (ms ms' : List (List Nat × Tree)) : Prop where
  | same (h : (under (units name.toList) ms).Perm (under (units name.toList) ms'))
  | added (h : under (units name.toList) ms = [])
      (h' : under (units name.toList) ms' = [(units name.toList, .null)])

abbrev GivenByTrees (f : Field α) (ms : List (List Nat × Tree)) (a : α) : Prop :=
  f.Given (fun name => units name.toList) (fun _ wire v a => wire.Means v a) ms a

theorem means_null {wire : Wire α} {a : Option α} : wire.optional.Means .null a ↔ a = none := by
  constructor
  · rintro ⟨j, hj, ha⟩
    cases hj with
    | null =>
      cases ha
      rfl
  · rintro rfl
    exact ⟨.null, .null, rfl⟩

theorem means_object {ps : List (List Nat × Tree)} {a : Option Json} :
    Wire.json.optional.Means (.object ps) a ↔
      ∃ sorted, Holds (.object ps) (.object sorted) ∧ a = some (.object sorted) := by
  constructor
  · rintro ⟨j, hj, ha⟩
    cases hj with
    | object hmembers hsorted =>
      obtain ⟨sorted, hobject, -⟩ := ordered_ofMembers _
      subst hsorted
      rw [hobject] at ha
      cases ha
      exact ⟨sorted, .object hmembers hobject.symm, rfl⟩
  · rintro ⟨sorted, hholds, rfl⟩
    exact ⟨.object sorted, hholds, rfl⟩

theorem SameUnder.given_iff {name : String} {wire : Wire α} {a : Option α}
    (h : SameUnder name ms ms') :
    GivenByTrees (field name wire) ms a ↔ GivenByTrees (field name wire) ms' a := by
  cases h with
  | same h =>
    have hnil : under (units name.toList) ms = [] ↔ under (units name.toList) ms' = [] :=
      ⟨fun hms => (hms ▸ h).nil_eq.symm, fun hms' => (hms' ▸ h).eq_nil⟩
    have hone : ∀ m, under (units name.toList) ms = [m] ↔ under (units name.toList) ms' = [m] :=
      fun m => ⟨fun hms => List.singleton_perm.1 (hms ▸ h) |>.symm,
        fun hms' => List.perm_singleton.1 (hms' ▸ h)⟩
    simp only [GivenByTrees, Field.Given, field, hnil, hone]
  | added h h' => simp [GivenByTrees, Field.Given, field, h, h', means_null, eq_comm]

theorem saidBy_congr (hreadable : Readable ms ↔ Readable ms')
    (h : ∀ name ∈ fields.names, SameUnder name ms ms') : e.SaidBy ms ↔ e.SaidBy ms' := by
  simp only [fields, Fields.names, List.forall_mem_cons] at h
  obtain ⟨hid, hmethod, hparams, -⟩ := h
  refine and_congr hreadable (and_congr hid.given_iff (and_congr hmethod.given_iff ?_))
  exact and_congr hparams.given_iff Iff.rfl

/-- The same envelope, but for members of its parameters that are not known. -/
structure Alike (known : List String) (e e' : Envelope) : Prop where
  id : e'.id = e.id
  method : e'.method = e.method
  params : e'.params = e.params ∨ ∃ ms ms', e.params = some (.object ms) ∧
    e'.params = some (.object ms') ∧ ∀ name ∈ known, under name ms' = under name ms

theorem Alike.refl (e : Envelope) : Alike known e e := ⟨rfl, rfl, .inl rfl⟩

theorem Alike.symm (h : Alike known e e') : Alike known e' e := by
  refine ⟨h.id.symm, h.method.symm, h.params.imp Eq.symm ?_⟩
  rintro ⟨ms, ms', hms, hms', hsame⟩
  exact ⟨ms', ms, hms', hms, fun name hname => (hsame name hname).symm⟩

theorem Alike.fetches {id : RequestId} {script : String} (h : Alike ["scriptId"] e e')
    (he : e.Fetches id script) : e'.Fetches id script := by
  obtain ⟨hmethod, hid, params, hparams, htext⟩ := he
  refine ⟨h.method.trans hmethod, h.id.trans hid, ?_⟩
  rcases h.params with heq | ⟨ms, ms', hms, hms', hsame⟩
  · exact ⟨params, heq.trans hparams, htext⟩
  · cases hparams.symm.trans hms
    cases htext with
    | member hscript =>
      exact ⟨_, hms', .member ((hsame _ (by simp)).trans hscript)⟩

theorem Alike.announces {script url : String} (h : Alike ["scriptId", "url"] e e')
    (he : e.Announces script url) : e'.Announces script url := by
  obtain ⟨hmethod, params, hparams, htexts⟩ := he
  refine ⟨h.method.trans hmethod, ?_⟩
  rcases h.params with heq | ⟨ms, ms', hms, hms', hsame⟩
  · exact ⟨params, heq.trans hparams, htexts⟩
  · cases hparams.symm.trans hms
    cases htexts with
    | members hscript hurl =>
      refine ⟨_, hms', .members ?_ ?_⟩
      · exact (hsame _ (by simp)).trans hscript
      · exact (hsame _ (by simp)).trans hurl

theorem Alike.asks {command : ClientCommand} (h : Alike ["scriptId"] e e') (he : e.Asks command) :
    e'.Asks command := by
  cases command with
  | getScriptSource id named =>
    obtain ⟨script, hfetch, hscript⟩ := he
    exact ⟨script, h.fetches hfetch, hscript⟩
  | forward method => exact ⟨h.method.trans he.1, he.2⟩

theorem Alike.tells {event : DebuggerEvent} (h : Alike ["scriptId", "url"] e e')
    (he : e.Tells event) : e'.Tells event := by
  cases event with
  | scriptParsed p =>
    obtain ⟨script, hnotice, hscript⟩ := he
    exact ⟨script, h.announces hnotice, hscript⟩
  | other => exact fun hmethod => he (h.method.symm.trans hmethod)

end Envelope

/-- One edit of the members of a frame, where a method takes parameters of the names `known`. -/
inductive Edit (known : List String) :
    List (List Nat × Tree) → List (List Nat × Tree) → Prop where
  | permute (h : ms.Perm ms') : Edit known ms ms'
  | insert (hname : name ∉ Envelope.fields.names) :
      Edit known (ms ++ ns) (ms ++ (units name.toList, v) :: ns)
  | addNull (hname : name ∈ Envelope.fields.names)
      (habsent : units name.toList ∉ (ms ++ ns).map Prod.fst) :
      Edit known (ms ++ ns) (ms ++ (units name.toList, .null) :: ns)
  | dropNull (hname : name ∈ Envelope.fields.names)
      (halone : units name.toList ∉ (ms ++ ns).map Prod.fst) :
      Edit known (ms ++ (units name.toList, .null) :: ns) (ms ++ ns)
  | insertParam (hname : name ∉ known) (hv : Holds v j) :
      Edit known (ms ++ (units "params".toList, .object (ps ++ qs)) :: ns)
        (ms ++ (units "params".toList, .object (ps ++ (units name.toList, v) :: qs)) :: ns)

namespace Edit

variable {known : List String} {e e' : Envelope} {ms ms' ns : List (List Nat × Tree)}

/-- A member of another name makes no difference. -/
theorem sameUnder_cons {name other : String} {v : Tree} (h : name ≠ other) :
    Envelope.SameUnder other (ms ++ ns) (ms ++ (units name.toList, v) :: ns) := by
  refine .same (List.Perm.of_eq ?_)
  rw [under_append, under_append, under_cons_of_ne (units_toList_injective.ne h)]

theorem readable_cons {name : String} {v : Tree} :
    Readable (ms ++ ns) ↔ Readable (ms ++ (units name.toList, v) :: ns) := by
  rw [Readable.append_iff, Readable.append_iff, Readable.cons_iff]

theorem saidBy_cons_null {name : String} (habsent : units name.toList ∉ (ms ++ ns).map Prod.fst) :
    e.SaidBy (ms ++ ns) ↔ e.SaidBy (ms ++ (units name.toList, .null) :: ns) := by
  refine Envelope.saidBy_congr readable_cons fun other _ => ?_
  by_cases heq : name = other
  · subst heq
    have hnil := under_eq_nil.2 habsent
    obtain ⟨hms, hns⟩ := List.append_eq_nil_iff.1 (under_append.symm.trans hnil)
    exact .added hnil (by rw [under_append, under_cons_self, hms, hns]; rfl)
  · exact sameUnder_cons heq

/-- An object for parameters is what the envelope holds, and nothing else is said of them. -/
theorem saidBy_params {ps : List (List Nat × Tree)} :
    e.SaidBy (ms ++ (units "params".toList, .object ps) :: ns) ↔
      Envelope.SaidBy ⟨e.id, e.method, none⟩ (ms ++ ns) ∧
        under (units "params".toList) (ms ++ ns) = [] ∧
        ∃ sorted, Holds (.object ps) (.object sorted) ∧ e.params = some (.object sorted) := by
  obtain ⟨id, method, params⟩ := e
  have hother : ∀ name, "params" ≠ name → Envelope.SameUnder name (ms ++ ns)
      (ms ++ (units "params".toList, .object ps) :: ns) := fun _ => sameUnder_cons
  have hid : Envelope.GivenByTrees (Envelope.field "id" RequestId.wire) (ms ++ ns) id ↔
      Envelope.GivenByTrees (Envelope.field "id" RequestId.wire) _ id :=
    (hother "id" (by decide)).given_iff
  have hmethod : Envelope.GivenByTrees (Envelope.field "method" Wire.text) (ms ++ ns) method ↔
      Envelope.GivenByTrees (Envelope.field "method" Wire.text) _ method :=
    (hother "method" (by decide)).given_iff
  have hparams : Envelope.GivenByTrees (Envelope.field "params" Wire.json)
      (ms ++ (units "params".toList, .object ps) :: ns) params ↔
      under (units "params".toList) (ms ++ ns) = [] ∧
        ∃ sorted, Holds (.object ps) (.object sorted) ∧ params = some (.object sorted) := by
    rw [← Envelope.means_object]
    exact Field.given_own_iff (f := Envelope.field "params" Wire.json)
  have hnone : under (units "params".toList) (ms ++ ns) = [] →
      Envelope.GivenByTrees (Envelope.field "params" Wire.json) (ms ++ ns) none :=
    fun hnil => .inl ⟨hnil, rfl⟩
  constructor
  · rintro ⟨hreadable, hi, hm, hp, -⟩
    have hp := hparams.1 hp
    exact ⟨⟨readable_cons.2 hreadable, hid.2 hi, hmethod.2 hm, hnone hp.1, trivial⟩, hp⟩
  · rintro ⟨⟨hreadable, hi, hm, -, -⟩, hp⟩
    exact ⟨readable_cons.1 hreadable, hid.1 hi, hmethod.1 hm, hparams.2 hp, trivial⟩

/-- Whatever is said by one text, something alike is said by the other. -/
structure ReadAlike (known : List String) (ms ms' : List (List Nat × Tree)) : Prop where
  forth : ∀ e : Envelope, e.SaidBy ms → ∃ e' : Envelope, e'.SaidBy ms' ∧ e.Alike known e'
  back : ∀ e' : Envelope, e'.SaidBy ms' → ∃ e : Envelope, e.SaidBy ms ∧ e.Alike known e'

theorem ReadAlike.of_iff (h : ∀ e : Envelope, e.SaidBy ms ↔ e.SaidBy ms') :
    ReadAlike known ms ms' :=
  ⟨fun e he => ⟨e, (h e).1 he, .refl e⟩, fun e he => ⟨e, (h e).2 he, .refl e⟩⟩

theorem readAlike (h : Edit known ms ms') : ReadAlike known ms ms' := by
  cases h with
  | permute h =>
    refine .of_iff fun e => Envelope.saidBy_congr ?_ fun name _ => .same (h.filter _)
    exact forall_congr' fun m => imp_congr_left h.mem_iff
  | insert hname =>
    refine .of_iff fun e => Envelope.saidBy_congr readable_cons fun other hother => ?_
    exact sameUnder_cons fun heq => hname (heq ▸ hother)
  | addNull _ habsent => exact .of_iff fun _ => saidBy_cons_null habsent
  | dropNull _ halone => exact .of_iff fun _ => (saidBy_cons_null halone).symm
  | insertParam hname hv =>
    constructor
    · intro e he
      obtain ⟨hrest, hnil, sorted, hsorted, hparams⟩ := saidBy_params.1 he
      obtain ⟨sorted', hsorted', hothers⟩ := holds_with hv hsorted
      refine ⟨⟨e.id, e.method, some (.object sorted')⟩, saidBy_params.2
        ⟨hrest, hnil, sorted', hsorted', rfl⟩, rfl, rfl, .inr ⟨sorted, sorted', hparams, rfl, ?_⟩⟩
      exact fun other hother => hothers other fun heq => hname (heq ▸ hother)
    · intro e' he'
      obtain ⟨hrest, hnil, sorted', hsorted', hparams⟩ := saidBy_params.1 he'
      obtain ⟨sorted, hsorted, hothers⟩ := holds_without hsorted'
      refine ⟨⟨e'.id, e'.method, some (.object sorted)⟩, saidBy_params.2
        ⟨hrest, hnil, sorted, hsorted, rfl⟩, rfl, rfl, .inr ⟨sorted, sorted', rfl, hparams, ?_⟩⟩
      exact fun other hother => hothers other fun heq => hname (heq ▸ hother)

/-- An edit takes nothing from what is nested. -/
theorem shallow {levels : Nat} (h : Edit known ms ms')
    (hdepth : Envelope.fields.Shallow levels ms') : Envelope.fields.Shallow levels ms := by
  intro name hname v hv
  cases h with
  | permute h => exact hdepth name hname v (h.mem_iff.1 hv)
  | insert | addNull =>
    exact hdepth name hname v (List.perm_middle.mem_iff.2 (List.mem_cons_of_mem _ hv))
  | dropNull =>
    rcases List.mem_cons.1 (List.perm_middle.mem_iff.1 hv) with heq | hmem
    · obtain ⟨-, rfl⟩ := Prod.mk.inj heq
      exact Nat.zero_le _
    · exact hdepth name hname v hmem
  | @insertParam other w j ms ns ps qs =>
    rcases List.mem_cons.1 (List.perm_middle.mem_iff.1 hv) with heq | hmem
    · obtain ⟨hkey, rfl⟩ := Prod.mk.inj heq
      have hmore : (Tree.object (ps ++ (units other.toList, w) :: qs)).depth ≤ levels := by
        refine hdepth name hname _ (List.perm_middle.mem_iff.2 ?_)
        rw [hkey]
        exact .head _
      refine le_trans ?_ hmore
      simp only [Tree.depth, Tree.depthMembers_append, Tree.depthMembers]
      omega
    · exact hdepth name hname v (List.perm_middle.mem_iff.2 (List.mem_cons_of_mem _ hmem))

end Edit

section Frames

open Relation

variable {known : List String} {ms ms' : List (List Nat × Tree)} {text text' : String}

/-- Edits change nothing that is the same for envelopes that are alike. -/
theorem saidBy_edited {P : Envelope → Prop} (h : ReflTransGen (Edit known) ms ms')
    (hP : ∀ e e' : Envelope, e.Alike known e' → P e → P e') :
    (∃ e : Envelope, e.SaidBy ms ∧ P e) ↔ ∃ e : Envelope, e.SaidBy ms' ∧ P e := by
  induction h with
  | refl => exact Iff.rfl
  | tail _ hedit ih =>
    rw [ih]
    constructor
    · rintro ⟨e, he, hp⟩
      obtain ⟨e', he', hlike⟩ := hedit.readAlike.forth e he
      exact ⟨e', he', hP e e' hlike hp⟩
    · rintro ⟨e', he', hp⟩
      obtain ⟨e, he, hlike⟩ := hedit.readAlike.back e' he'
      exact ⟨e, he, hP e' e hlike.symm hp⟩

theorem shallow_edited {levels : Nat} (h : ReflTransGen (Edit known) ms ms')
    (hdepth : Envelope.fields.Shallow levels ms') : Envelope.fields.Shallow levels ms := by
  induction h with
  | refl => exact hdepth
  | tail _ hedit ih => exact ih (hedit.shallow hdepth)

theorem parse_edited {P : Envelope → Prop} (h : Says text (.object ms))
    (h' : Says text' (.object ms')) (hedits : ReflTransGen (Edit known) ms ms')
    (hdepth : Envelope.fields.Shallow (Wire.maxLevels - 1) ms')
    (hP : ∀ e e' : Envelope, e.Alike known e' → P e → P e') :
    (∃ e, Envelope.parse text = .ok e ∧ P e) ↔ ∃ e, Envelope.parse text' = .ok e ∧ P e := by
  simp only [Envelope.parse_object_eq_ok h (shallow_edited hedits hdepth),
    Envelope.parse_object_eq_ok h' hdepth]
  exact saidBy_edited hedits hP

/-- A frame that repeats a name of the envelope is refused. -/
theorem refused_of_repeated (h : Says text (.object ms)) {name : String}
    (hname : name ∈ Envelope.fields.names) (hrepeated : 1 < occurrences (units name.toList) ms) :
    ∃ e, Envelope.parse text = .error e := by
  cases hparse : Envelope.parse text with
  | error e => exact ⟨e, rfl⟩
  | ok e =>
    have hle := (Envelope.saidBy_of_parse h hparse).2.length_under_le name hname
    rw [length_under] at hle
    exact absurd hle (Nat.not_le.2 hrepeated)

end Frames

/-- What a frame is read as depends on its id, its method and its parameters alone. -/
structure FramesReadByMembers : Prop where
  commands : ∀ text text' ms ms', Says text (.object ms) → Says text' (.object ms') →
    Relation.ReflTransGen (Edit ["scriptId"]) ms ms' →
    Envelope.fields.Shallow (Wire.maxLevels - 1) ms' →
    ∀ command, ClientCommand.parse text = .ok command ↔ ClientCommand.parse text' = .ok command
  events : ∀ text text' ms ms', Says text (.object ms) → Says text' (.object ms') →
    Relation.ReflTransGen (Edit ["scriptId", "url"]) ms ms' →
    Envelope.fields.Shallow (Wire.maxLevels - 1) ms' →
    ∀ event, DebuggerEvent.parse text = .ok event ↔ DebuggerEvent.parse text' = .ok event
  repeated : ∀ text ms, Says text (.object ms) → ∀ name ∈ Envelope.fields.names,
    1 < occurrences (units name.toList) ms →
    (∃ e, ClientCommand.parse text = .error e) ∧ ∃ e, DebuggerEvent.parse text = .error e

theorem frames_read_by_members : FramesReadByMembers where
  commands text text' ms ms' h h' hedits hdepth command := by
    rw [ClientCommand.parse_eq_ok, ClientCommand.parse_eq_ok]
    exact parse_edited h h' hedits hdepth fun _ _ hlike => hlike.asks
  events text text' ms ms' h h' hedits hdepth event := by
    rw [DebuggerEvent.parse_eq_ok, DebuggerEvent.parse_eq_ok]
    exact parse_edited h h' hedits hdepth fun _ _ hlike => hlike.tells
  repeated text ms h name hname hrepeated := by
    obtain ⟨e, he⟩ := refused_of_repeated h hname hrepeated
    exact ⟨⟨e, by rw [ClientCommand.parse, he]; rfl⟩, ⟨e, by rw [DebuggerEvent.parse, he]; rfl⟩⟩

def plainFetch : List (String × Json) :=
  [("id", .number (.integer 1)), ("method", .string getScriptSource),
    ("params", .object [("scriptId", .string "7")])]

/-- The same fetch the other way round, with a session and with a frame among its parameters. -/
def editedFetch : List (String × Json) :=
  [("session", .null), ("params", .object [("scriptId", .string "7"), ("frame", .array [])]),
    ("method", .string getScriptSource), ("id", .number (.integer 1))]

theorem edits_of_fetch {known : List String} (h : "frame" ∉ known) :
    Relation.ReflTransGen (Edit known) (treeMembers plainFetch) (treeMembers editedFetch) := by
  have hparam : Edit known
      (treeMembers (plainFetch.take 2) ++
        [(units "params".toList, .object ([(units "scriptId".toList, .string (units ['7']))] ++ []))])
      (treeMembers (plainFetch.take 2) ++
        [(units "params".toList, .object ([(units "scriptId".toList, .string (units ['7']))] ++
          [(units "frame".toList, .array [])]))]) :=
    .insertParam h (.array .nil)
  have hsession : Edit known (treeMembers (editedFetch.drop 1).reverse ++ [])
      (treeMembers (editedFetch.drop 1).reverse ++ [(units "session".toList, .null)]) :=
    .insert (by decide)
  have hturn : Edit known (treeMembers (editedFetch.drop 1).reverse ++
      [(units "session".toList, .null)]) (treeMembers editedFetch) :=
    .permute (List.reverse_perm _).symm
  exact .tail (.tail (.single hparam) hsession) hturn

theorem edited_fetch_read :
    ClientCommand.parse (Json.object plainFetch).text =
      .ok (.getScriptSource ⟨.number (.integer 1)⟩ ⟨7⟩) ∧
    (∀ command, ClientCommand.parse (Json.object plainFetch).text = .ok command ↔
      ClientCommand.parse (Json.object editedFetch).text = .ok command) ∧
    (∀ event, DebuggerEvent.parse (Json.object plainFetch).text = .ok event ↔
      DebuggerEvent.parse (Json.object editedFetch).text = .ok event) := by
  have hdepth : Envelope.fields.Shallow (Wire.maxLevels - 1) (treeMembers editedFetch) :=
    Fields.shallow_of_depth (by decide)
  refine ⟨rfl, ?_, ?_⟩
  · exact frames_read_by_members.commands _ _ _ _ (says_text _) (says_text _)
      (edits_of_fetch (by decide)) hdepth
  · exact frames_read_by_members.events _ _ _ _ (says_text _) (says_text _)
      (edits_of_fetch (by decide)) hdepth

def nullRepeated : String :=
  "\x7b\"id\":null,\"id\":5,\"method\":\"Debugger.resume\"\x7d"

def nullDropped : String := "\x7b\"id\":5,\"method\":\"Debugger.resume\"\x7d"

/-- A member that is `null` does count as a repetition: without it the frame is forwarded. -/
theorem null_counts_as_repeated : ∃ ms,
    Says nullRepeated (.object ((units "id".toList, .null) :: ms)) ∧ Says nullDropped (.object ms) ∧
    (∃ e, ClientCommand.parse nullRepeated = .error e) ∧
    ClientCommand.parse nullDropped = .ok (.forward "Debugger.resume") := by
  let rest : List (String × Json) :=
    [("id", .number (.integer 5)), ("method", .string "Debugger.resume")]
  have hrepeated : nullRepeated = (Json.object (("id", .null) :: rest)).text := by decide +kernel
  have hdropped : nullDropped = (Json.object rest).text := by decide +kernel
  have hrefused : (ClientCommand.parse nullRepeated).isOk = false := by decide +kernel
  refine ⟨treeMembers rest, hrepeated ▸ says_text _, hdropped ▸ says_text _, ?_, ?_⟩
  · cases h : ClientCommand.parse nullRepeated with
    | error e => exact ⟨e, rfl⟩
    | ok command =>
      rw [h] at hrefused
      cases hrefused
  · rfl

end ScriptHost
