import Mathlib.Data.List.Forall2
import ScriptHost.Proofs.Prepared.Tenants

/-! Entries are apart. What is evaluated at one place cannot tell whether anything happened at
another: the run without all that shows the same there. -/

namespace ScriptHost

/-- The answers depend on the bytes and the URL alone. -/
def Engine.Steady (engine : Engine γ V E) : Prop :=
  ∀ bytes url g g', (engine.evaluate bytes url g).1 = (engine.evaluate bytes url g').1

namespace SharedStep

variable (tenants : ι → Tenant γ V E)

/-- Evaluations at the place, and removals that reach its URL. -/
def concerns (place : Place) : SharedStep ι → Bool
  | .evaluate runtime _ url _ => (tenants runtime).place url = place
  | .invalidate _ url => url = place.key.script.url
  | .clear _ => true

/-- The same was observed. An engine that is not steady may answer otherwise. -/
structure SameView (o o' : Observation ι V E) : Prop where
  runtime : o.runtime = o'.runtime
  place : o.place = o'.place
  calls : o.calls = o'.calls
  answer : (tenants o.runtime).engine.Steady → o.answer = o'.answer

def AgreeAt (place : Place) (h h' : CacheHost γ κ) : Prop :=
  (h.stores place.store).AgreeOn (· = place.key) (h'.stores place.store)

variable {tenants} {place : Place} {w v : World (CacheHost γ Unit)}

theorem agreeAt_set {h h' : CacheHost γ κ} (hagree : AgreeAt place h h') {i : Nat}
    {s s' : MemoryStore}
    (hset : (h.stores i).AgreeOn (· = place.key) (h'.stores i) → s.AgreeOn (· = place.key) s') :
    AgreeAt place ((CacheHost.storePart i).set s h) ((CacheHost.storePart i).set s' h') := by
  simp only [AgreeAt, CacheHost.storePart]
  by_cases hi : place.store = i
  · rw [if_pos hi, if_pos hi]
    exact hset (hi ▸ hagree)
  · rw [if_neg hi, if_neg hi]
    exact hagree

theorem agreeAt_set_left {h h' : CacheHost γ κ} (hagree : AgreeAt place h h') {i : Nat}
    {s : MemoryStore}
    (hset : i = place.store → (h.stores i).AgreeOn (· = place.key) (h'.stores i) →
      s.AgreeOn (· = place.key) (h'.stores i)) :
    AgreeAt place ((CacheHost.storePart i).set s h) h' := by
  simp only [AgreeAt, CacheHost.storePart]
  by_cases hi : place.store = i
  · subst hi
    rw [if_pos rfl]
    exact hset rfl hagree
  · rw [if_neg hi]
    exact hagree

/-- A step that concerns the place shows the same and leaves the same there. -/
theorem act_of_concerns (h : AgreeAt place w.outside v.outside) {step : SharedStep ι}
    (hstep : step.concerns tenants place = true) :
    List.Forall₂ (SameView tenants) (step.act tenants w).1 (step.act tenants v).1 ∧
      (∀ o ∈ (step.act tenants w).1, o.place = place) ∧
      AgreeAt place (step.act tenants w).2.outside (step.act tenants v).2.outside := by
  cases step with
  | evaluate runtime source url given =>
    obtain rfl : (tenants runtime).place url = place := of_decide_eq_true hstep
    obtain ⟨hseen, houtside⟩ := act_evaluate tenants runtime source url given w
    obtain ⟨hseen', houtside'⟩ := act_evaluate tenants runtime source url given v
    have hfound := h _ rfl
    rw [hseen, hseen', hfound, houtside, houtside', hfound]
    refine ⟨.cons ⟨rfl, rfl, rfl, fun hsteady => hsteady _ _ _ _⟩ .nil, by simp, ?_⟩
    refine agreeAt_set h fun hsame => ?_
    cases given.lands with
    | true => exact hsame.kept _ _
    | false => exact hsame
  | invalidate store url =>
    exact ⟨.nil, nofun, agreeAt_set h fun hsame => hsame.without url⟩
  | clear store => exact ⟨.nil, nofun, agreeAt_set h fun _ => .refl _⟩

/-- Any other step shows nothing at the place and leaves there what was kept. -/
theorem act_of_not_concerns (h : AgreeAt place w.outside v.outside) {step : SharedStep ι}
    (hstep : step.concerns tenants place = false) :
    (∀ o ∈ (step.act tenants w).1, o.place ≠ place) ∧
      AgreeAt place (step.act tenants w).2.outside v.outside := by
  cases step with
  | evaluate runtime source url given =>
    have hplace : (tenants runtime).place url ≠ place := of_decide_eq_false hstep
    obtain ⟨hseen, houtside⟩ := act_evaluate tenants runtime source url given w
    rw [hseen, houtside]
    refine ⟨by simpa using hplace, agreeAt_set_left h fun hstore hsame => ?_⟩
    have hkey : ((tenants runtime).place url).key ≠ place.key := fun hkey =>
      hplace (congrArg₂ Place.mk hstore hkey)
    cases given.lands with
    | true => exact hsame.kept_left _ hkey
    | false => exact hsame
  | invalidate store url =>
    have hurl : url ≠ place.key.script.url := of_decide_eq_false hstep
    refine ⟨nofun, agreeAt_set_left h fun _ hsame => hsame.without_left ?_⟩
    rintro key rfl
    exact hurl.symm
  | clear store => cases hstep

theorem observations_of_agreeAt (h : AgreeAt place w.outside v.outside)
    (steps : List (SharedStep ι)) :
    List.Forall₂ (SameView tenants)
      ((observations tenants steps w).1.filter (·.place = place))
      (observations tenants (steps.filter (·.concerns tenants place)) v).1 := by
  induction steps generalizing w v with
  | nil => exact .nil
  | cons step rest ih =>
    change List.Forall₂ _ (((step.act tenants w).1 ++
      (observations tenants rest (step.act tenants w).2).1).filter _) _
    rw [List.filter_append]
    cases hstep : step.concerns tenants place with
    | true =>
      obtain ⟨hviews, hplace, hnext⟩ := act_of_concerns h hstep
      rw [List.filter_cons_of_pos hstep, List.filter_eq_self.2 (by simpa using hplace)]
      exact List.rel_append hviews (ih hnext)
    | false =>
      obtain ⟨hplace, hnext⟩ := act_of_not_concerns h hstep
      rw [List.filter_cons_of_neg (by simp [hstep]),
        List.filter_eq_nil_iff.2 (by simpa using hplace)]
      exact ih hnext

/-- Without the evaluations at other places and the invalidations of other URLs a run shows the same
at a place. -/
theorem observations_isolated (tenants : ι → Tenant γ V E) (place : Place)
    (steps : List (SharedStep ι)) (w : World (CacheHost γ Unit)) :
    List.Forall₂ (SameView tenants)
      ((observations tenants steps w).1.filter (·.place = place))
      (observations tenants (steps.filter (·.concerns tenants place)) w).1 :=
  observations_of_agreeAt (.refl _) steps

/-- Two versions of one script in one store: each is compiled, and the removal of another script
leaves both. -/
example :
    let engine : Engine Unit Unit Unit :=
      { signature := ⟨"engine", 1⟩, isBytecode := fun source => source.head? = some 0
        undefined := (), evaluate := fun _ _ => return .ok (), setPauseOnLoad := fun _ => return
        debugEvaluate := fun _ _ _ => return .ok (), connectDebugger := return }
    let tenants : Bool → Tenant Unit Unit Unit := fun b => ⟨engine, 0, if b then 1 else 2⟩
    let given : Given := { compiled := fun text _ => .ok (0 :: bytesOf text) }
    let steps : List (SharedStep Bool) :=
      [.evaluate true [112] "a.js" given, .evaluate false [113] "a.js" given,
        .invalidate 0 "b.js", .evaluate true [114] "a.js" given]
    let w : World (CacheHost Unit Unit) := ⟨{ engine := (), compiling := () }, []⟩
    ((observations tenants steps w).1.filter (·.place = (tenants true).place "a.js")).map
      (·.calls.drop 1) =
        [[.compile "p" "a.js", .put [0, 112] ⟨"a.js", 1⟩ ⟨"engine", 1⟩ "jsrt.prepared",
          .evaluate [0, 112] "a.js"], [.evaluate [0, 112] "a.js"]] := by
  cbv

end SharedStep
end ScriptHost
