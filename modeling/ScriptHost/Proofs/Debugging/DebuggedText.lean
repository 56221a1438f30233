import ScriptHost.Proofs.Chain.Transcript
import ScriptHost.Proofs.Debugging.Announcements
import ScriptHost.Proofs.Debugging.ClientFrames
import ScriptHost.Proofs.Protocol.RoundTrip
import ScriptHost.Proofs.Text.Utf8
import ScriptHost.Proofs.Wire.Members

/-! A source has one text wherever it is debugged: the registry keeps it, the engine gets it, and a
client that fetches the source finds it in the reply. Bytes that are no text are made one, and what
stands before them is as it was. -/

namespace ScriptHost

open Json

section Replies

variable {reply source other : String}

def SourceOf (reply source : String) : Prop :=
  ∃ root result, Says reply root ∧ root.first? "result" = some result ∧
    result.first? "scriptSource" = some (.string (units source.toList))

theorem SourceOf.unique (h : SourceOf reply source) (h' : SourceOf reply other) :
    source = other := by
  obtain ⟨root, result, hsays, hresult, hsource⟩ := h
  obtain ⟨root', result', hsays', hresult', hother⟩ := h'
  cases hsays.unique hsays'
  cases hresult.symm.trans hresult'
  exact units_toList_injective (Tree.string.inj (Option.some.inj (hsource.symm.trans hother)))

def Response.resultFields (result : Wire α) : Fields (α × Unit) (Option α × Unit) :=
  .cons { name := "result", wire := result } .nil

/-- What a client reads that does not look at the id. -/
def Response.resultWire (result : Wire α) : Wire α :=
  .record "Response" (resultFields result) (fun (result, _) => result) fun result => (result, ())

/-- The reply carries this source, however it is read. -/
structure SourceReply (reply : String) (id : RequestId) (source : String) : Prop where
  holds : ∀ other, SourceOf reply other ↔ other = source
  /-- No id keeps a client from the source. -/
  result : (Response.resultWire ScriptSourceResult.wire).decode reply = .ok ⟨source⟩
  whole : Portable (Wire.maxLevels - 1) id.value →
    (Response.wire ScriptSourceResult.wire).decode reply = .ok ⟨id, ⟨source⟩⟩

theorem sourceOf_response (id : RequestId) (source : String) :
    SourceOf (sourceResponse id source) source := by
  rw [sourceResponse_eq]
  exact ⟨_, tree (.object [("scriptSource", .string source)]), says_text _, rfl, rfl⟩

theorem resultWire_decode (id : RequestId) (source : String) :
    (Response.resultWire ScriptSourceResult.wire).decode (sourceResponse id source) =
      .ok ⟨source⟩ := by
  have hid : units "id".toList ≠ units "result".toList := by decide
  have hgiven : (Response.resultFields ScriptSourceResult.wire).Given
      (fun name => units name.toList) (fun _ wire v a => wire.Reads (Wire.maxLevels - 1) v a)
      (treeMembers [("id", id.value), ("result", .object [("scriptSource", .string source)])])
      (⟨source⟩, ()) := by
    refine ⟨.inr ⟨_, ?_, (ScriptSourceResult.returns _).reads⟩, trivial⟩
    rw [treeMembers, under_cons_of_ne hid]
    exact under_cons_self
  rw [sourceResponse_eq]
  refine Wire.decode_object_complete ?_ (says_text _) ?_ hgiven
  · exact List.nodup_singleton _
  · exact Readable.cons_iff.2 (Readable.cons_iff.2 (List.forall_mem_nil _))

theorem sourceReply_response (id : RequestId) (source : String) :
    SourceReply (sourceResponse id source) id source where
  holds other := by
    constructor
    · exact fun h => h.unique (sourceOf_response id source)
    · rintro rfl
      exact sourceOf_response id other
  result := resultWire_decode id source
  whole hid := (Response.source_roundTrip hid).direct

end Replies

namespace Bridge

section Occurrences

variable (isBytecode : Bytes → Bool)

/-- What an occurrence makes of a bridge. An evaluation occurs when its text is recorded. -/
def meet (b : Bridge) : Occurrence → Bridge
  | .evaluate source url => if isBytecode source then b else b.recordSource url (textOf source)
  | .operate step => (b.apply step).1

def meetAll (b : Bridge) (history : List Occurrence) : Bridge := history.foldl (meet isBytecode) b

theorem meetAll_concat (b : Bridge) (history : List Occurrence) (o : Occurrence) :
    b.meetAll isBytecode (history ++ [o]) = (b.meetAll isBytecode history).meet isBytecode o := by
  simp only [meetAll, List.foldl_append, List.foldl_cons, List.foldl_nil]

/-- The bridge of a world meets what happens there. -/
theorem worldAfter_bridge (engine : Engine σ V E) (behind : Bytes → String → Act σ (Except E V))
    (s : σ) (log : List Event) (history : List Occurrence) :
    (worldAfter engine behind s log history).outside.1 = meetAll engine.isBytecode {} history := by
  induction history using List.reverseRecOn with
  | nil => rfl
  | append_singleton history o ih =>
    rw [worldAfter_concat, meetAll_concat, ← ih]
    cases o with
    | evaluate source url => exact evaluate_bridge ..
    | operate step => rfl

/-- Of all that occurs, only an evaluation at a URL changes what is recorded there. -/
theorem sources_meet (b : Bridge) (o : Occurrence) (url : String) :
    (b.meet isBytecode o).registry.sources.lookup url =
      (o.textAt? isBytecode url).or (b.registry.sources.lookup url) := by
  cases o with
  | evaluate source place =>
    simp only [meet, Occurrence.textAt?]
    cases isBytecode source with
    | true => simp
    | false =>
      simp only [Bool.false_eq_true, if_false, recordSource, ScriptRegistry.recordSource,
        lookup_cons_eq_ite]
      by_cases hplace : url = place
      · simp [hplace]
      · simp [hplace, Ne.symm hplace]
  | operate step =>
    cases step with
    | relay session message =>
      have hr := registry_learn b message
      simp only [meet, apply, relay, hr, Occurrence.textAt?, Option.none_or]
      cases announced? message <;> rfl
    | _ =>
      simp only [meet]
      rw [registry_apply_of_ne_relay _ _ (by simp)]
      rfl

/-- At every URL stands the last text that was evaluated there. -/
theorem sources_meetAll (b : Bridge) (history : List Occurrence) (url : String) :
    (b.meetAll isBytecode history).registry.sources.lookup url =
      (last? (Occurrence.textAt? isBytecode url) history).or (b.registry.sources.lookup url) := by
  induction history using List.reverseRecOn with
  | nil => rfl
  | append_singleton history o ih =>
    rw [meetAll_concat, sources_meet, ih, last?_concat, Option.or_assoc]

theorem lookup_after_record (b : Bridge) {later : List Occurrence} {url : String} (text : String)
    (h : ∀ o ∈ later, o.textAt? isBytecode url = none) :
    ((b.recordSource url text).meetAll isBytecode later).registry.sources.lookup url =
      some text := by
  have hnone : last? (Occurrence.textAt? isBytecode url) later = none := by
    exact List.findSome?_eq_none_iff.2 fun o ho => h o (List.mem_reverse.1 ho)
  rw [sources_meetAll, hnone]
  simp [recordSource, ScriptRegistry.recordSource]

end Occurrences

def linkAt (p : Part σ Bridge) : Link σ V E :=
  link fun url text => p.run (modify (·.recordSource url text))

end Bridge

def Part.recorded (p : Part σ τ) : Part (Recorded σ ε) τ where
  get s := p.get s.outside
  set t s := ⟨p.set t s.outside, s.notes⟩
  get_set t s := p.get_set t s.outside

namespace Bridge

/-- A source has one text. The bridge stands at `p`, and `next` follows its link. -/
structure DebuggedAs (p : Part σ Bridge) (next : Next σ V E) (source : Bytes) (url text : String) :
    Prop where
  /-- An evaluation records the text and then has the engine debug it; it asks for nothing else. -/
  evaluated : ∀ w : World σ, ∃ answer after,
    next.engine.debugEvaluate text url {}
        (p.set ((p.get w.outside).recordSource url text) w.outside) = (answer, after) ∧
      linkAt p source url next w =
        (answer.map fun _ => next.engine.undefined, ⟨after, w.log⟩) ∧
      (linkAt p.recorded source url next.transcribed).observe w =
        ((answer.map fun _ => next.engine.undefined, [.debugEvaluate text url {} answer]),
          ⟨after, w.log⟩)
  /-- It stands in the registry until the next evaluation at the URL. -/
  kept : ∀ (b : Bridge) later, (∀ o ∈ later, o.textAt? next.engine.isBytecode url = none) →
    ((b.recordSource url text).meetAll next.engine.isBytecode later).registry.sources.lookup url =
      some text
  /-- The bridge of a world has met what happened there. -/
  met : ∀ behind s log history, (worldAfter next.engine behind s log history).outside.1 =
    meetAll next.engine.isBytecode {} history
  /-- Until then it is what a fetch gets that leads to the URL. -/
  fetched : ∀ (b b' : Bridge) later, (∀ o ∈ later, o.textAt? next.engine.isBytecode url = none) →
    b' = (b.recordSource url text).meetAll next.engine.isBytecode later →
    ∀ session fetch id script, ClientCommand.parse fetch = .ok (.getScriptSource id script) →
      b'.registry.url? script = some url →
      ∃ reply, b'.route session fetch = [.write session reply] ∧ SourceReply reply id text
  /-- The text has the same bytes exactly if the bytes are some text's. -/
  bytes : bytesOf text = source ↔ ∃ t, bytesOf t = source
  front : ∀ t rest, source = bytesOf t ++ rest → text = t ++ textOf rest

theorem debugged_as (p : Part σ Bridge) (next : Next σ V E) {source : Bytes} (url : String)
    (h : next.engine.isBytecode source = false) : DebuggedAs p next source url (textOf source) where
  evaluated w := by
    have htranscribed : next.transcribed.engine.isBytecode source = false := h
    refine ⟨_, _, rfl, ?_, ?_⟩
    · rw [linkAt, link_of_source _ h]
      rfl
    · rw [linkAt, link_of_source _ htranscribed]
      rfl
  kept b _ hlater := lookup_after_record _ b _ hlater
  met := worldAfter_bridge next.engine
  fetched b b' later hlater hb' session fetch id script hfetch hscript := by
    have hsource : b'.registry.source? script = some (textOf source) := by
      rw [ScriptRegistry.source?, hscript, hb']
      exact lookup_after_record _ b _ hlater
    refine ⟨_, ?_, sourceReply_response id (textOf source)⟩
    simp only [route, hfetch, hsource]
  bytes := bytesOf_textOf_iff
  front t rest hsource := by rw [hsource, textOf_append]

/-- A letter, and half of a surrogate pair. -/
def ragged : Bytes := bytesOf "π" ++ [0xED, 0xA0, 0x80]

/-- Another source, an announcement of script 7, and bytecode where the ragged source was. -/
def afterRagged : List Occurrence := [
  .evaluate (bytesOf "other()") "b.js",
  .operate (.relay 1 (announcement "\"7\"" "a.js")),
  .evaluate [0, 1] "a.js"]

theorem ragged_debugged :
    undebuggable.isBytecode ragged = false ∧ ∃ reply,
      ((({} : Bridge).recordSource "a.js" (textOf ragged)).meetAll undebuggable.isBytecode
        afterRagged).route 2 fetchOfSeven = [.write 2 reply] ∧
      SourceOf reply "π\uFFFD\uFFFD\uFFFD" := by
  have hsource : undebuggable.isBytecode ragged = false := by decide +kernel
  have hnext : (beyond undebuggable fun _ _ => return .ok ()).engine.isBytecode ragged = false :=
    hsource
  have htext : textOf ragged = "π\uFFFD\uFFFD\uFFFD" := by decide +kernel
  have hlater : ∀ o ∈ afterRagged, o.textAt? undebuggable.isBytecode "a.js" = none := by
    decide +kernel
  have hurl : ((({} : Bridge).recordSource "a.js" (textOf ragged)).meetAll undebuggable.isBytecode
      afterRagged).registry.url? ⟨7⟩ = some "a.js" := by
    decide +kernel
  obtain ⟨reply, hreply, hcarried⟩ :=
    (debugged_as Part.fst _ "a.js" hnext).fetched {} _ _ hlater rfl 2 fetchOfSeven (.ofInt 1) ⟨7⟩
      rfl hurl
  exact ⟨hsource, reply, hreply, (hcarried.holds _).2 htext.symm⟩

end Bridge
end ScriptHost
