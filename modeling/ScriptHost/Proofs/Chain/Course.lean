import ScriptHost.Debugging.Bridge
import ScriptHost.Proofs.Chain.Transcript

/-! An evaluation through a chain of caches and bridges. Its course follows the chain: a cache does
its work and hands on, a bridge ends the chain unless the bytes are bytecode, and behind the last
link the engine evaluates. So one script runs, and what that call answers is the answer; and once a
cache has bytecode in its hands nothing behind it is asked. -/

namespace ScriptHost

/-- A link of a chain. A bridge is given by how it records a source. -/
inductive Stage (σ : Type) where
  | cache (c : PreparedCache σ)
  | bridge (record : String → String → StateM σ Unit)

namespace Stage

def link : Stage σ → Link σ V E
  | .cache c => c.link
  | .bridge record => Bridge.link record

/-- A bridge's record is no store and is not noted. -/
def transcribed (place : Nat) : Stage σ → Stage (Recorded σ (Asked V E))
  | .cache c => .cache (c.transcribed place)
  | .bridge record => .bridge fun url text => Recorded.silent (record url text)

def transcribedFrom : Nat → List (Stage σ) → List (Stage (Recorded σ (Asked V E)))
  | _, [] => []
  | place, stage :: rest => stage.transcribed place :: transcribedFrom (place + 1) rest

end Stage

def chainRuntime (engine : Engine σ V E) (stages : List (Stage σ)) : Runtime σ V E :=
  ⟨engine, stages.map Stage.link⟩

def transcript (engine : Engine σ V E) (stages : List (Stage σ)) (source : Bytes) (url : String) :
    Act σ (Except E V × List (Asked V E)) :=
  ((chainRuntime engine.transcribed (Stage.transcribedFrom 0 stages)).evaluate source url).observe

/-- The course of an evaluation, from the link at a place on. -/
inductive Course (engine : Engine σ V E) (url : String) :
    Nat → List (Stage σ) → Bytes → Except E V → List (Asked V E) → Prop where
  | engine {place bytes} (answer : Except E V) :
      Course engine url place [] bytes answer [.evaluate bytes url answer]
  | cache {place c rest bytes next answer told more}
      (work : CacheWork engine.isBytecode c place engine.signature bytes url next told)
      (behind : Course engine url (place + 1) rest next answer more) :
      Course engine url place (.cache c :: rest) bytes answer (told ++ more)
  | debugged {place record rest bytes} (hbytes : engine.isBytecode bytes = false)
      (answer : Except E Unit) :
      Course engine url place (.bridge record :: rest) bytes
        (answer.map fun _ => engine.undefined) [.debugEvaluate (textOf bytes) url {} answer]
  | passed {place record rest bytes answer told} (hbytes : engine.isBytecode bytes = true)
      (behind : Course engine url (place + 1) rest bytes answer told) :
      Course engine url place (.bridge record :: rest) bytes answer told

section Course

open Act

variable (engine : Engine σ V E) (url : String)

/-- A bridge asks the engine to debug a source, or hands bytecode on. -/
theorem Bridge.link_tells (record : String → String → StateM σ Unit)
    {next : Next (Recorded σ (Asked V E)) V E} {plainNext : Next σ V E}
    (hnext : next.engine = engine.transcribed) (hplain : plainNext.engine = engine)
    (source : Bytes) {P : Except E V → List (Asked V E) → Prop}
    (hpassed : engine.isBytecode source = true →
      Tells (next.run source url) (plainNext.run source url) P)
    (hdebugged : engine.isBytecode source = false → ∀ answer,
      P (answer.map fun _ => engine.undefined) [.debugEvaluate (textOf source) url {} answer]) :
    Tells (Bridge.link (fun url text => Recorded.silent (record url text)) source url next)
      (Bridge.link record source url plainNext) P := by
  unfold Bridge.link
  rw [hnext, hplain]
  change Tells (ite (engine.isBytecode source = true) _ _) (ite _ _ _) _
  split
  · next hsource => exact .report (hpassed hsource)
  · next hsource =>
    refine .bind (P := fun _ told => told = []) (.silent fun _ => rfl) ?_
    intro _ told htold
    subst htold
    refine .bind (P := fun answer told => told = [.debugEvaluate (textOf source) url {} answer])
      (.ask fun _ => rfl) ?_
    intro answer told htold
    subst htold
    have hend := hdebugged (Bool.eq_false_iff.2 hsource) answer
    cases answer with
    | ok _ => exact .pure hend
    | error e => exact .pure hend

/-- A chain does what it does without a transcript, and takes its course. -/
theorem through_tells (stages : List (Stage σ)) (place : Nat) (source : Bytes) :
    Tells
      ((Next.through engine.transcribed
        ((Stage.transcribedFrom place stages).map Stage.link)).run source url)
      ((Next.through engine (stages.map Stage.link)).run source url)
      (Course engine url place stages source) := by
  induction stages generalizing place source with
  | nil => exact .ask fun _ => .engine _
  | cons stage rest ih =>
    cases stage with
    | cache c =>
      change Tells (PreparedCache.link _ _ _ _) (PreparedCache.link _ _ _ _) _
      rw [PreparedCache.link_eq_prepare, PreparedCache.link_eq_prepare,
        PreparedCache.engine_through, PreparedCache.engine_through]
      refine .bind (PreparedCache.prepare_tells c place engine source url) ?_
      intro bytes told hwork
      exact (ih (place + 1) bytes).mono fun answer more hbehind => .cache hwork hbehind
    | bridge record =>
      refine Bridge.link_tells engine url record (PreparedCache.engine_through ..)
        (PreparedCache.engine_through ..) source ?_ ?_
      · intro hsource
        exact (ih (place + 1) source).mono fun answer told hbehind => .passed hsource hbehind
      · intro hsource answer
        exact .debugged hsource answer

end Course

namespace CacheWork

variable {isBytecode : Bytes → Bool} {c : PreparedCache σ} {place : Nat}
  {runtime : RuntimeSignature} {source bytes : Bytes} {url : String} {told : List (Asked V E)}

/-- A cache asks in its own place. -/
theorem place?_eq (h : CacheWork isBytecode c place runtime source url bytes told) :
    ∀ a ∈ told, a.place? = some place := by
  cases h <;> simp [Asked.place?]

/-- Handed bytecode, a cache hands it on and asks nothing. -/
theorem of_isBytecode (h : CacheWork isBytecode c place runtime source url bytes told)
    (hsource : isBytecode source = true) : bytes = source ∧ told = [] := by
  cases h with
  | idle => exact ⟨rfl, rfl⟩
  | hit h | unreadable h | refused h | made h => simp [hsource] at h

/-- One artifact at most comes out of a cache, and it is kept at most once. -/
theorem countP_le (h : CacheWork isBytecode c place runtime source url bytes told) :
    told.countP Asked.yields ≤ 1 ∧ told.countP Asked.persists ≤ 1 := by
  cases h <;> simp [Asked.yields, Asked.persists, *]

/-- Unless bytecode is handed on, none was found, made or kept. -/
theorem quiet (h : CacheWork isBytecode c place runtime source url bytes told)
    (hartifact : ∀ text s artifact, artifact ≠ [] →
      (c.compiler.compile text url s).1 = .ok artifact → isBytecode artifact = true)
    (hbytes : isBytecode bytes = false) :
    ∀ a ∈ told, a.yields = false ∧ a.persists = false ∧ a.settles isBytecode = false := by
  cases h with
  | idle => simp
  | hit hsource hfound =>
    have hvalid := isBytecode_of_valid? hfound
    simp [hbytes] at hvalid
  | unreadable hsource hfound htext => simp [Asked.yields, Asked.persists, Asked.settles, hfound]
  | refused hsource hfound htext hcompiled =>
    simp [Asked.yields, Asked.persists, Asked.settles, hfound, hcompiled]
  | made hsource hfound htext hcompiled =>
    obtain ⟨hne, hok⟩ := artifact?_eq_some.1 hcompiled
    have hvalid := hartifact _ _ _ hne hok
    simp [hbytes] at hvalid

end CacheWork

/-- Every artifact that a cache of the chain may get is bytecode to the engine. -/
def Stage.MakeBytecode (engine : Engine σ V E) (stages : List (Stage σ)) : Prop :=
  ∀ c, .cache c ∈ stages → ∀ text url s artifact, artifact ≠ [] →
    (c.compiler.compile text url s).1 = .ok artifact → engine.isBytecode artifact = true

/-- A script ran under the URL, and the answer is that of the call. A script that is debugged has no
value of its own. -/
def Asked.Gives (engine : Engine σ V E) (url : String) (answer : Except E V) : Asked V E → Prop
  | .evaluate _ place result => place = url ∧ answer = result
  | .debugEvaluate _ place _ result =>
    place = url ∧ answer = result.map fun _ => engine.undefined
  | _ => False

namespace Course

variable {engine : Engine σ V E} {url : String} {place : Nat} {stages : List (Stage σ)}
  {bytes : Bytes} {answer : Except E V} {asked : List (Asked V E)}

/-- The call that runs the script comes last, behind all that caches ask. -/
theorem runs_last (h : Course engine url place stages bytes answer asked) :
    ∃ before run, asked = before ++ [run] ∧ (∀ a ∈ before, a.runs = false) ∧ run.runs = true ∧
      run.Gives engine url answer := by
  induction h with
  | engine answer => exact ⟨[], _, rfl, by simp, rfl, rfl, rfl⟩
  | debugged hbytes answer => exact ⟨[], _, rfl, by simp, rfl, rfl, rfl⟩
  | passed hbytes behind ih => exact ih
  | @cache _ _ _ _ _ _ told more work behind ih =>
    obtain ⟨before, run, rfl, hbefore, hrun⟩ := ih
    have htold : ∀ a ∈ told, a.runs = false := fun a ha =>
      Asked.runs_eq_false (work.place?_eq a ha)
    refine ⟨told ++ before, run, by rw [List.append_assoc], ?_, hrun⟩
    intro a ha
    exact (List.mem_append.1 ha).elim (htold a) (hbefore a)

theorem place_le (h : Course engine url place stages bytes answer asked) :
    ∀ a ∈ asked, ∀ i ∈ a.place?, place ≤ i := by
  induction h with
  | engine answer => simp [Asked.place?]
  | debugged hbytes answer => simp [Asked.place?]
  | passed hbytes behind ih =>
    intro a ha i hi
    have hle := ih a ha i hi
    omega
  | cache work behind ih =>
    intro a ha i hi
    rcases List.mem_append.1 ha with ha | ha
    · rw [work.place?_eq a ha] at hi
      exact Nat.le_of_eq (Option.mem_some.1 hi)
    · have hle := ih a ha i hi
      omega

/-- Bytecode is evaluated by the engine, whatever the chain. -/
theorem of_isBytecode (h : Course engine url place stages bytes answer asked)
    (hbytes : engine.isBytecode bytes = true) : asked = [.evaluate bytes url answer] := by
  induction h with
  | engine answer => rfl
  | debugged hsource answer => simp [hbytes] at hsource
  | passed hsource behind ih => exact ih hbytes
  | cache work behind ih =>
    obtain ⟨rfl, rfl⟩ := work.of_isBytecode hbytes
    exact ih hbytes

theorem debugged_spec (h : Course engine url place stages bytes answer asked)
    {text place' : String} {flags : DebugFlags} {result : Except E Unit}
    (hmem : .debugEvaluate text place' flags result ∈ asked) :
    engine.isBytecode bytes = false ∧ ∃ record, .bridge record ∈ stages := by
  have hbytes : engine.isBytecode bytes = false := by
    cases hbytes : engine.isBytecode bytes with
    | false => rfl
    | true =>
      rw [h.of_isBytecode hbytes] at hmem
      simp at hmem
  refine ⟨hbytes, ?_⟩
  clear hbytes
  induction h with
  | engine answer => simp at hmem
  | debugged hsource answer => exact ⟨_, List.mem_cons_self⟩
  | passed hsource behind ih => exact ⟨_, List.mem_cons_self⟩
  | cache work behind ih =>
    rcases List.mem_append.1 hmem with hmem | hmem
    · have hplace := work.place?_eq _ hmem
      simp [Asked.place?] at hplace
    · obtain ⟨record, hrecord⟩ := ih hmem
      exact ⟨record, List.mem_cons_of_mem _ hrecord⟩

/-- Where all artifacts are bytecode, a chain makes and keeps one at most, and behind the cache that
has bytecode first nothing is asked. -/
theorem spares (h : Course engine url place stages bytes answer asked)
    (hartifacts : Stage.MakeBytecode engine stages) :
    asked.countP Asked.yields ≤ 1 ∧ asked.countP Asked.persists ≤ 1 ∧
      ∀ a ∈ asked, a.settles engine.isBytecode = true → ∀ b ∈ asked,
        ∀ i ∈ a.place?, ∀ j ∈ b.place?, j ≤ i := by
  induction h with
  | engine answer => simp [Asked.yields, Asked.persists, Asked.settles]
  | debugged hsource answer => simp [Asked.yields, Asked.persists, Asked.settles]
  | passed hsource behind ih => exact ih fun c hc => hartifacts c (List.mem_cons_of_mem _ hc)
  | @cache place c rest bytes next answer told more work behind ih =>
    cases hnext : engine.isBytecode next with
    | true =>
      -- the rest of the chain asks the engine alone
      obtain rfl := behind.of_isBytecode hnext
      obtain ⟨hyields, hpersists⟩ := work.countP_le
      refine ⟨by simpa [Asked.yields] using hyields, by simpa [Asked.persists] using hpersists, ?_⟩
      have hplace : ∀ a ∈ told ++ [.evaluate next url answer], ∀ i ∈ a.place?, i = place := by
        intro a ha i hi
        rcases List.mem_append.1 ha with ha | ha
        · rw [work.place?_eq a ha] at hi
          exact (Option.mem_some.1 hi).symm
        · obtain rfl := List.mem_singleton.1 ha
          simp [Asked.place?] at hi
      intro a ha _ b hb i hi j hj
      exact Nat.le_of_eq ((hplace b hb j hj).trans (hplace a ha i hi).symm)
    | false =>
      -- all that matters is behind this cache
      have hquiet := work.quiet (hartifacts c List.mem_cons_self · url) hnext
      obtain ⟨hyields, hpersists, hsettles⟩ :=
        ih fun d hd => hartifacts d (List.mem_cons_of_mem _ hd)
      have hnone : told.countP Asked.yields = 0 ∧ told.countP Asked.persists = 0 :=
        ⟨List.countP_eq_zero.2 fun a ha => by simp [hquiet a ha],
          List.countP_eq_zero.2 fun a ha => by simp [hquiet a ha]⟩
      refine ⟨by rw [List.countP_append]; omega, by rw [List.countP_append]; omega, ?_⟩
      intro a ha hsettle b hb i hi j hj
      have ha : a ∈ more := (List.mem_append.1 ha).resolve_left fun ha => by
        simp [hquiet a ha] at hsettle
      rcases List.mem_append.1 hb with hb | hb
      · rw [work.place?_eq b hb] at hj
        have hj := Option.mem_some.1 hj
        have hi := behind.place_le a ha i hi
        omega
      · exact hsettles a ha hsettle b hb i hi j hj

end Course

structure EvaluatesOnce (engine : Engine σ V E) (stages : List (Stage σ)) (source : Bytes)
    (url : String) (answer : Except E V) (asked : List (Asked V E)) : Prop where
  /-- One call runs a script, under the caller's URL, and no other failure becomes an error. -/
  ran : ∃ run, asked.filter Asked.runs = [run] ∧ run.Gives engine url answer
  debugged : ∀ text place flags result, .debugEvaluate text place flags result ∈ asked →
    engine.isBytecode source = false ∧ ∃ record, .bridge record ∈ stages
  spared : Stage.MakeBytecode engine stages →
    asked.countP Asked.yields ≤ 1 ∧ asked.countP Asked.persists ≤ 1 ∧
      ∀ a ∈ asked, a.settles engine.isBytecode = true → ∀ b ∈ asked,
        ∀ i ∈ a.place?, ∀ j ∈ b.place?, j ≤ i

/-- A transcript changes nothing about an evaluation, and shows that the chain lost, repeated and
altered nothing. -/
theorem evaluates_once (engine : Engine σ V E) (stages : List (Stage σ)) (source : Bytes)
    (url : String) (w : World σ) :
    let seen := transcript engine stages source url w
    (seen.1.1, seen.2) = (chainRuntime engine stages).evaluate source url w ∧
      EvaluatesOnce engine stages source url seen.1.1 seen.1.2 := by
  obtain ⟨hcourse, hplain⟩ := (through_tells engine url stages 0 source).observe w
  refine ⟨hplain, ?_, fun text place flags result hmem => hcourse.debugged_spec hmem, hcourse.spares⟩
  obtain ⟨before, run, hasked, hbefore, hrun, hgives⟩ := hcourse.runs_last
  refine ⟨run, ?_, hgives⟩
  have hnone : before.filter Asked.runs = [] :=
    List.filter_eq_nil_iff.2 fun a ha => by simp [hbefore a ha]
  change (transcript engine stages source url w).1.2 = before ++ [run] at hasked
  rw [hasked, List.filter_append, hnone, List.nil_append, List.filter_cons_of_pos hrun,
    List.filter_nil]

/-- An engine that answers what it evaluates and debugs nothing. Bytecode begins with a zero. -/
def echoing : Engine Unit Bytes String where
  signature := ⟨"echoing", 1⟩
  isBytecode source := source.head? = some 0
  undefined := []
  evaluate source _ := return .ok source
  debugEvaluate _ _ _ := return .error "no debugger"
  setPauseOnLoad _ := return
  connectDebugger := return

def stranded : PreparedCache Unit where
  compiler := ⟨fun text _ => return .ok (0 :: bytesOf text)⟩
  store := some ⟨fun _ _ _ => return .error (.unavailable "offline"),
    fun _ _ _ _ => return .error (.io "disk full")⟩

def bridged : List (Stage Unit) := [.cache stranded, .bridge fun _ _ => return, .cache stranded]

theorem makeBytecode_bridged : Stage.MakeBytecode echoing bridged := by
  intro c hc text url s artifact _ hok
  obtain rfl : c = stranded := by simpa [bridged] using hc
  obtain rfl : 0 :: bytesOf text = artifact := Except.ok.inj hok
  rfl

/-- The first cache asks in vain and compiles; the bridge and the second cache see bytecode. -/
theorem evaluates_once_bridged :
    let asked := (transcript echoing bridged [112] "a.js" ⟨(), []⟩).1.2
    Stage.MakeBytecode echoing bridged ∧ asked.map Asked.place? = [some 0, some 0, some 0, none] ∧
      asked.countP Asked.yields ≤ 1 ∧ asked.countP Asked.persists ≤ 1 :=
  have hspared := (evaluates_once echoing bridged [112] "a.js" ⟨(), []⟩).2.spared
    makeBytecode_bridged
  ⟨makeBytecode_bridged, rfl, hspared.1, hspared.2.1⟩

/-- Without a store the source itself reaches the bridge, and the engine's refusal is the answer. -/
example : (transcript echoing [.cache { stranded with store := none }, .bridge fun _ _ => return]
    [112] "a.js" ⟨(), []⟩).1 =
      (.error "no debugger", [.debugEvaluate "p" "a.js" {} (.error "no debugger")]) :=
  rfl

end ScriptHost
