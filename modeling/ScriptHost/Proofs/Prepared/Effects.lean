import ScriptHost.Proofs.Chain.Transcript
import ScriptHost.Proofs.Text.Utf8

/-! The effects of one evaluation through a cache: its calls on the store and the compiler, each with
its answer, and the one continuation at the end. Of the store, the compiler and what follows the cache
nothing is assumed, so any of them may fail or answer whatever it likes. -/

namespace ScriptHost

/-- The store gave no bytecode: it failed, it found nothing, or it found something else. -/
def Misses (isBytecode : Bytes → Bool) (found : Except StoreError (Option Bytes)) : Prop :=
  ∀ kept, found = .ok (some kept) → isBytecode kept = false

theorem valid?_eq_some {isBytecode : Bytes → Bool} {found : Except StoreError (Option Bytes)}
    {kept : Bytes} : valid? isBytecode found = some kept ↔
      found = .ok (some kept) ∧ isBytecode kept = true := by
  cases found with
  | error e => simp [valid?]
  | ok found => simp [valid?, Option.filter_eq_some_iff]

theorem misses_of_valid? {isBytecode : Bytes → Bool} {found : Except StoreError (Option Bytes)}
    (h : valid? isBytecode found = none) : Misses isBytecode found := by
  intro kept hfound
  refine Bool.eq_false_iff.2 fun hkept => ?_
  rw [valid?_eq_some.2 ⟨hfound, hkept⟩] at h
  cases h

/-- All calls of one evaluation, with their answers; `result` answers the last one. -/
inductive CacheCourse (c : PreparedCache σ) (place : Nat) (engine : Engine σ V E) (source : Bytes)
    (url : String) (result : Except E V) : List (Asked V E) → Prop where
  | passed (h : c.store = none ∨ engine.isBytecode source = true) :
      CacheCourse c place engine source url result [.evaluate source url result]
  | hit (hstore : c.store ≠ none) (hsource : engine.isBytecode source = false)
      (hkept : engine.isBytecode kept = true) :
      CacheCourse c place engine source url result
        [.get place ⟨url, c.scriptVersion⟩ engine.signature prepareTag (.ok (some kept)),
          .evaluate kept url result]
  | unreadable (hstore : c.store ≠ none) (hsource : engine.isBytecode source = false)
      (hmiss : Misses engine.isBytecode found) (htext : ∀ text, bytesOf text ≠ source) :
      CacheCourse c place engine source url result
        [.get place ⟨url, c.scriptVersion⟩ engine.signature prepareTag found,
          .evaluate source url result]
  | refused (hstore : c.store ≠ none) (hsource : engine.isBytecode source = false)
      (hmiss : Misses engine.isBytecode found) (htext : bytesOf text = source)
      (hmade : ∀ artifact, made = .ok artifact → artifact = []) :
      CacheCourse c place engine source url result
        [.get place ⟨url, c.scriptVersion⟩ engine.signature prepareTag found,
          .compile place text url made, .evaluate source url result]
  | made (hstore : c.store ≠ none) (hsource : engine.isBytecode source = false)
      (hmiss : Misses engine.isBytecode found) (htext : bytesOf text = source)
      (hartifact : artifact ≠ []) :
      CacheCourse c place engine source url result
        [.get place ⟨url, c.scriptVersion⟩ engine.signature prepareTag found,
          .compile place text url (.ok artifact),
          .put place artifact ⟨url, c.scriptVersion⟩ engine.signature provenanceTag kept,
          .evaluate artifact url result]

namespace PreparedCache

/-- What a cache with a store does before it hands the evaluation on, and then that. -/
theorem course_of_work {c : PreparedCache σ} {place : Nat} {engine : Engine σ V E}
    {source bytes : Bytes} {url : String} {result : Except E V} {told : List (Asked V E)}
    (hstore : c.store ≠ none)
    (h : CacheWork engine.isBytecode c place engine.signature source url bytes told) :
    CacheCourse c place engine source url result (told ++ [.evaluate bytes url result]) := by
  cases h with
  | idle h => exact .passed h
  | hit hsource hfound =>
    obtain ⟨rfl, hkept⟩ := valid?_eq_some.1 hfound
    exact .hit hstore hsource hkept
  | unreadable hsource hfound htext =>
    refine .unreadable hstore hsource (misses_of_valid? hfound) fun text hbytes => ?_
    rw [textOf?_eq_some.2 hbytes] at htext
    cases htext
  | refused hsource hfound htext hcompiled =>
    refine .refused hstore hsource (misses_of_valid? hfound) (textOf?_eq_some.1 htext) ?_
    intro artifact hmade
    by_contra hartifact
    rw [artifact?_eq_some.2 ⟨hartifact, hmade⟩] at hcompiled
    cases hcompiled
  | made hsource hfound htext hcompiled =>
    obtain ⟨hartifact, hmade⟩ := artifact?_eq_some.1 hcompiled
    rw [hmade]
    exact .made hstore hsource (misses_of_valid? hfound) (textOf?_eq_some.1 htext) hartifact

/-- An evaluation through a cache makes the calls of one course and no others, and its result is that
of the last of them. Noting them changes nothing. -/
theorem effects_of_link (c : PreparedCache σ) (place : Nat) (next : Next σ V E) (source : Bytes)
    (url : String) (w : World σ) :
    ∃ result asked after,
      ((c.transcribed place).link source url next.transcribed).observe w = ((result, asked), after) ∧
      c.link source url next w = (result, after) ∧
      CacheCourse c place next.engine source url result asked := by
  have htells : Act.Tells ((c.transcribed place).link source url next.transcribed)
      (c.link source url next) (CacheCourse c place next.engine source url) := by
    by_cases hstore : c.store = none
    · simp only [link, transcribed, hstore, Option.map_none]
      exact .noted fun _ => .passed (.inl hstore)
    · rw [link_eq_prepare, link_eq_prepare]
      refine .bind (c.prepare_tells place next.engine source url) fun bytes told htold => ?_
      exact .noted fun _ => course_of_work hstore htold
  obtain ⟨hcourse, hplain⟩ := htells.observe w
  exact ⟨_, _, _, rfl, hplain.symm, hcourse⟩

end PreparedCache
end ScriptHost
