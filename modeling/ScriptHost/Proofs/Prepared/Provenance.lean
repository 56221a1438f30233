import Mathlib.Data.List.Induction
import ScriptHost.Proofs.Prepared.Tenants

/-! Where entries come from. Runtimes that share stores may evaluate at once: between the lookup of an
evaluation and its write others may look, write and remove. Every entry is still the artifact of one
evaluation at its very place, and only such evaluations write. -/

namespace ScriptHost

/-- An evaluation that has looked into its store, with what stood there. -/
structure Errand (ι : Type) where
  runtime : ι
  source : Bytes
  url : String
  given : Given
  entry : Option StoredScript

structure Traffic (ι : Type) where
  stores : Nat → MemoryStore := fun _ => .empty
  errands : List (Errand ι) := []

inductive TrafficStep (ι : Type) where
  /-- An evaluation begins and looks into its store. -/
  | look (runtime : ι) (source : Bytes) (url : String) (given : Given)
  /-- The `n`-th evaluation under way is done with its store. -/
  | settle (n : Nat)
  | invalidate (store : Nat) (url : String)
  | clear (store : Nat)

namespace Errand

variable (tenants : ι → Tenant γ V E) (e : Errand ι)

def place : Place := (tenants e.runtime).place e.url

def way : Passage := (tenants e.runtime).way e.given e.source e.url e.entry

def leaves (s : MemoryStore) : MemoryStore :=
  if e.given.lands then (e.way tenants).kept (e.place tenants).key s else s

/-- The input is bytecode or no text, a valid entry was found, or the compiler makes nothing of the
text. -/
def Idle : Prop :=
  (tenants e.runtime).engine.isBytecode e.source = true ∨ textOf? e.source = none ∨
    (∃ kept, valid? (tenants e.runtime).engine.isBytecode (e.given.found e.entry) = some kept) ∨
    ∃ text, textOf? e.source = some text ∧ artifact? (e.given.compiled text e.url) = none

/-- The evaluation compiles its source to just this entry. -/
structure Makes (store : Nat) (key : StoreKey) (stored : StoredScript) : Prop where
  store : (tenants e.runtime).store = store
  url : key.script.url = e.url
  version : key.script.version = (tenants e.runtime).scriptVersion
  signature : key.runtime = (tenants e.runtime).engine.signature
  source : (tenants e.runtime).engine.isBytecode e.source = false
  compiled : ∃ text, textOf? e.source = some text ∧
    e.given.compiled text e.url = .ok stored.bytes
  nonempty : stored.bytes ≠ []
  tag : stored.provenance = provenanceTag

variable {tenants e}

theorem leaves_of_idle (h : e.Idle tenants) (s : MemoryStore) : e.leaves tenants s = s := by
  have hkept : (e.way tenants).kept (e.place tenants).key s = s := by
    cases hway : e.way tenants with
    | made text artifact =>
      obtain ⟨hsource, hfound, htext, hmade⟩ := Passage.choose_eq_made hway
      rcases h with h | h | ⟨kept, h⟩ | ⟨other, hother, h⟩
      · simp [hsource] at h
      · simp [htext] at h
      · simp [hfound] at h
      · obtain rfl : text = other := by simpa [htext] using hother
        simp [hmade] at h
    | straight | hit | unreadable | refused => rfl
  simp [leaves, hkept]

/-- What is found in a store that an evaluation leaves was there, or it is what it makes. -/
theorem find?_leaves {s : MemoryStore} {key : StoreKey} {stored : StoredScript}
    (h : (e.leaves tenants s).find? key = some stored) :
    s.find? key = some stored ∨ e.Makes tenants (e.place tenants).store key stored := by
  unfold leaves at h
  split at h
  · cases hway : e.way tenants with
    | made text artifact =>
      rw [hway, Passage.kept, MemoryStore.find?_put] at h
      split at h
      · next hkey =>
        subst hkey
        obtain ⟨hsource, -, htext, hmade⟩ := Passage.choose_eq_made hway
        obtain ⟨hnonempty, hcompiled⟩ := artifact?_eq_some.1 hmade
        obtain rfl := Option.some.inj h
        exact Or.inr ⟨rfl, rfl, rfl, rfl, hsource, ⟨text, htext, hcompiled⟩, hnonempty, rfl⟩
      · exact Or.inl h
    | straight | hit | unreadable | refused =>
      rw [hway] at h
      exact Or.inl h
  · exact Or.inl h

end Errand

namespace Traffic

variable (tenants : ι → Tenant γ V E)

def setStore (i : Nat) (s : MemoryStore) (t : Traffic ι) : Traffic ι :=
  { t with stores := fun j => if j = i then s else t.stores j }

def apply (t : Traffic ι) : TrafficStep ι → Traffic ι
  | .look runtime source url given =>
    let place := (tenants runtime).place url
    let entry := (t.stores place.store).find? place.key
    { t with errands := t.errands ++ [⟨runtime, source, url, given, entry⟩] }
  | .settle n =>
    match t.errands[n]? with
    | none => t
    | some e =>
      let store := (e.place tenants).store
      { t.setStore store (e.leaves tenants (t.stores store)) with errands := t.errands.eraseIdx n }
  | .invalidate store url => t.setStore store ((t.stores store).without url)
  | .clear store => t.setStore store .empty

def run (t : Traffic ι) : List (TrafficStep ι) → Traffic ι
  | [] => t
  | step :: rest => (t.apply tenants step).run rest

theorem run_append (t : Traffic ι) (first rest : List (TrafficStep ι)) :
    t.run tenants (first ++ rest) = (t.run tenants first).run tenants rest := by
  induction first generalizing t with
  | nil => rfl
  | cons step first ih => exact ih _

theorem run_concat (t : Traffic ι) (steps : List (TrafficStep ι)) (step : TrafficStep ι) :
    t.run tenants (steps ++ [step]) = (t.run tenants steps).apply tenants step :=
  run_append ..

variable {tenants} {t : Traffic ι} {store : Nat} {key : StoreKey} {stored : StoredScript}

theorem find?_setStore {i : Nat} {s : MemoryStore}
    (h : ((t.setStore i s).stores store).find? key = some stored) :
    (t.stores store).find? key = some stored ∨ store = i ∧ s.find? key = some stored := by
  simp only [setStore] at h
  split at h
  · next hi => exact Or.inr ⟨hi, h⟩
  · exact Or.inl h

/-- What is found after a step was there, or the step ends the evaluation that made it. -/
theorem find?_apply {step : TrafficStep ι}
    (h : ((t.apply tenants step).stores store).find? key = some stored) :
    (t.stores store).find? key = some stored ∨
      ∃ n e, step = .settle n ∧ t.errands[n]? = some e ∧ e.Makes tenants store key stored := by
  cases step with
  | look runtime source url given => exact Or.inl h
  | settle n =>
    simp only [apply] at h
    split at h
    · exact Or.inl h
    · next e he =>
      rcases find?_setStore h with hold | ⟨rfl, hleft⟩
      · exact Or.inl hold
      · exact (Errand.find?_leaves hleft).imp_right fun hmakes => ⟨n, e, rfl, he, hmakes⟩
  | invalidate i url =>
    rcases find?_setStore h with hold | ⟨rfl, hleft⟩
    · exact Or.inl hold
    · rw [MemoryStore.find?_without] at hleft
      split at hleft
      · cases hleft
      · exact Or.inl hleft
  | clear i =>
    rcases find?_setStore h with hold | ⟨rfl, hleft⟩
    · exact Or.inl hold
    · simp at hleft

/-- The evaluation began with a lookup in the run, and `entry` is what stood there then. -/
def BegunIn (tenants : ι → Tenant γ V E) (steps : List (TrafficStep ι)) (e : Errand ι) : Prop :=
  ∃ before after, steps = before ++ .look e.runtime e.source e.url e.given :: after ∧
    e.entry = ((({} : Traffic ι).run tenants before).stores (e.place tenants).store).find?
      (e.place tenants).key

theorem BegunIn.concat {steps : List (TrafficStep ι)} {e : Errand ι} (h : BegunIn tenants steps e)
    (step : TrafficStep ι) : BegunIn tenants (steps ++ [step]) e := by
  obtain ⟨before, after, rfl, hentry⟩ := h
  exact ⟨before, after ++ [step], by simp, hentry⟩

theorem begunIn_of_mem {steps : List (TrafficStep ι)} {e : Errand ι}
    (h : e ∈ (({} : Traffic ι).run tenants steps).errands) : BegunIn tenants steps e := by
  induction steps using List.reverseRecOn with
  | nil => cases h
  | append_singleton steps step ih =>
    rw [run_concat] at h
    cases step with
    | look runtime source url given =>
      rcases List.mem_append.1 h with hold | hnew
      · exact (ih hold).concat _
      · obtain rfl := List.mem_singleton.1 hnew
        exact ⟨steps, [], rfl, rfl⟩
    | settle n =>
      simp only [apply] at h
      split at h
      · exact (ih h).concat _
      · exact (ih (List.mem_of_mem_eraseIdx h)).concat _
    | invalidate store url => exact (ih h).concat _
    | clear store => exact (ih h).concat _

/-- The entry was made by an evaluation of the run, which wrote it when it was done; since then it
stands. -/
def MadeIn (tenants : ι → Tenant γ V E) (steps : List (TrafficStep ι)) (store : Nat)
    (key : StoreKey) (stored : StoredScript) : Prop :=
  ∃ before n after e, steps = before ++ .settle n :: after ∧
    (({} : Traffic ι).run tenants before).errands[n]? = some e ∧
    BegunIn tenants before e ∧ e.Makes tenants store key stored ∧
    ∀ front, front <+: after →
      ((({} : Traffic ι).run tenants (before ++ .settle n :: front)).stores store).find? key =
        some stored

theorem madeIn_of_found {steps : List (TrafficStep ι)}
    (h : ((({} : Traffic ι).run tenants steps).stores store).find? key = some stored) :
    MadeIn tenants steps store key stored := by
  induction steps using List.reverseRecOn with
  | nil => cases h
  | append_singleton steps step ih =>
    have hfound := h
    rw [run_concat] at h
    rcases find?_apply h with hold | ⟨n, e, rfl, he, hmakes⟩
    · obtain ⟨before, n, after, e, rfl, he, hbegun, hmakes, hstands⟩ := ih hold
      refine ⟨before, n, after ++ [step], e, by simp, he, hbegun, hmakes, fun front hfront => ?_⟩
      rcases List.prefix_concat_iff.1 hfront with rfl | hfront
      · simpa using hfound
      · exact hstands front hfront
    · have hbegun := begunIn_of_mem (List.mem_of_getElem? he)
      refine ⟨steps, n, [], e, rfl, he, hbegun, hmakes, fun front hfront => ?_⟩
      obtain rfl := List.prefix_nil.1 hfront
      exact hfound

theorem setStore_self (i : Nat) (t : Traffic ι) : t.setStore i (t.stores i) = t := by
  have hstores : (fun j => if j = i then t.stores i else t.stores j) = t.stores := by
    funext j
    split
    · next hj => rw [hj]
    · rfl
  simp only [setStore, hstores]

theorem stores_settle_of_idle {n : Nat} {e : Errand ι} (he : t.errands[n]? = some e)
    (hidle : e.Idle tenants) : (t.apply tenants (.settle n)).stores = t.stores := by
  simp only [apply, he, Errand.leaves_of_idle hidle, setStore_self]

end Traffic

namespace SharedStep

/-- An evaluation with nothing in between, as two steps. -/
def divided : SharedStep ι → List (TrafficStep ι)
  | .evaluate runtime source url given => [.look runtime source url given, .settle 0]
  | .invalidate store url => [.invalidate store url]
  | .clear store => [.clear store]

variable (tenants : ι → Tenant γ V E)

theorem run_divided (step : SharedStep ι) (w : World (CacheHost γ Unit)) :
    (⟨w.outside.stores, []⟩ : Traffic ι).run tenants step.divided =
      ⟨(step.act tenants w).2.outside.stores, []⟩ := by
  cases step with
  | evaluate runtime source url given =>
    obtain ⟨-, houtside⟩ := act_evaluate tenants runtime source url given w
    rw [houtside]
    rfl
  | invalidate store url => rfl
  | clear store => rfl

theorem run_flatMap_divided (steps : List (SharedStep ι)) (w : World (CacheHost γ Unit)) :
    (⟨w.outside.stores, []⟩ : Traffic ι).run tenants (steps.flatMap divided) =
      ⟨(observations tenants steps w).2.outside.stores, []⟩ := by
  induction steps generalizing w with
  | nil => rfl
  | cons step rest ih =>
    rw [List.flatMap_cons, Traffic.run_append, run_divided]
    exact ih (step.act tenants w).2

end SharedStep

/-- What the stores hold in a run of runtimes that evaluate at once, from empty stores. -/
structure SoundStores (tenants : ι → Tenant γ V E) (steps : List (TrafficStep ι)) : Prop where
  /-- Every entry is the artifact of an evaluation at its place, and was written by it. -/
  made : ∀ store key stored,
    ((({} : Traffic ι).run tenants steps).stores store).find? key = some stored →
      Traffic.MadeIn tenants steps store key stored
  /-- A lookup leaves the stores as they are, and so does an evaluation that makes nothing. -/
  look : ∀ before runtime source url given after,
    steps = before ++ .look runtime source url given :: after →
      (({} : Traffic ι).run tenants (before ++ [.look runtime source url given])).stores =
        (({} : Traffic ι).run tenants before).stores
  idle : ∀ before n after e, steps = before ++ .settle n :: after →
    (({} : Traffic ι).run tenants before).errands[n]? = some e → e.Idle tenants →
      (({} : Traffic ι).run tenants (before ++ [.settle n])).stores =
        (({} : Traffic ι).run tenants before).stores
  /-- Caches that evaluate one after the other are such a run. -/
  whole : ∀ (evaluations : List (SharedStep ι)) (w : World (CacheHost γ Unit)),
    w.outside.stores = (fun _ => .empty) →
      (SharedStep.observations tenants evaluations w).2.outside.stores =
        (({} : Traffic ι).run tenants (evaluations.flatMap SharedStep.divided)).stores
  spared : ∀ runtime source url given (w : World (CacheHost γ Unit)),
    let place := (tenants runtime).place url
    (Errand.mk runtime source url given ((w.outside.stores place.store).find? place.key)).Idle
      tenants →
      (SharedStep.act tenants (.evaluate runtime source url given) w).2.outside.stores =
        w.outside.stores

/-- What caches leave in their stores is sound, whatever happens to the stores in between. -/
theorem stores_sound (tenants : ι → Tenant γ V E) (steps : List (TrafficStep ι)) :
    SoundStores tenants steps where
  made store key stored := Traffic.madeIn_of_found
  look before runtime source url given after _ := by rw [Traffic.run_concat]; rfl
  idle before n after e _ he hidle := by
    rw [Traffic.run_concat]
    exact Traffic.stores_settle_of_idle he hidle
  whole evaluations w hempty := by
    have hrun := SharedStep.run_flatMap_divided tenants evaluations w
    rw [hempty] at hrun
    exact (congrArg Traffic.stores hrun).symm
  spared runtime source url given w := by
    intro place hidle
    have hrun := SharedStep.run_divided tenants (.evaluate runtime source url given) w
    -- the lookup alone leaves one evaluation under way, and that one settles
    have hsettle := Traffic.stores_settle_of_idle
      (t := ⟨w.outside.stores, [_]⟩) (n := 0) (List.getElem?_cons_zero ..) hidle
    exact (congrArg Traffic.stores hrun).symm.trans hsettle

/-- Two runtimes evaluate one script at once, and its entry is removed before the second is done. What
stands is the artifact of the second, which had found nothing when it looked. -/
example :
    let engine : Engine Unit Unit Unit :=
      { signature := ⟨"engine", 1⟩, isBytecode := fun source => source.head? = some 0
        undefined := (), evaluate := fun _ _ => return .ok (), setPauseOnLoad := fun _ => return
        debugEvaluate := fun _ _ _ => return .ok (), connectDebugger := return }
    let tenants : Bool → Tenant Unit Unit Unit := fun _ => ⟨engine, 0, 1⟩
    let given : Given := { compiled := fun text _ => .ok (0 :: bytesOf text) }
    let steps : List (TrafficStep Bool) :=
      [.look true [112] "a.js" given, .look false [113] "a.js" given, .settle 0,
        .invalidate 0 "a.js", .settle 0]
    ((({} : Traffic Bool).run tenants steps).stores 0).find? ⟨⟨"a.js", 1⟩, ⟨"engine", 1⟩⟩ =
      some ⟨[0, 113], provenanceTag⟩ := by
  cbv

end ScriptHost
