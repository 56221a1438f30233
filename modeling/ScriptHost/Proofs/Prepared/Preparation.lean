import ScriptHost.Prepared.Cache
import ScriptHost.Proofs.Outside

/-! A cache does its work before the evaluation goes on: it settles which bytes are evaluated and
hands those on, once. So a chain of caches settles the bytes one cache after the other, and one
evaluation of the engine ends it. -/

namespace ScriptHost
namespace PreparedCache

def prepare (c : PreparedCache σ) (engine : Engine σ V E) (source : Bytes) (url : String) :
    Act σ Bytes := do
  match c.store with
  | none => return source
  | some store =>
    if engine.isBytecode source then return source
    else
      let script : ScriptSignature := ⟨url, c.scriptVersion⟩
      match ← lookupValid engine.isBytecode store script engine.signature with
      | some kept => return kept
      | none =>
        match ← compile c.compiler source url with
        | none => return source
        | some bytecode =>
          keep store bytecode script engine.signature
          return bytecode

theorem link_eq_prepare (c : PreparedCache σ) (source : Bytes) (url : String) (next : Next σ V E) :
    c.link source url next =
      c.prepare next.engine source url >>= fun bytes => next.run bytes url := by
  unfold link prepare
  cases c.store with
  | none => rfl
  | some store =>
    dsimp only
    split
    · rfl
    · rw [bind_assoc]
      refine bind_congr fun found => ?_
      cases found with
      | some kept => rfl
      | none =>
        rw [bind_assoc]
        refine bind_congr fun artifact => ?_
        cases artifact <;> rfl

def prepareAll (caches : List (PreparedCache σ)) (engine : Engine σ V E) (source : Bytes)
    (url : String) : Act σ Bytes :=
  caches.foldlM (fun bytes c => c.prepare engine bytes url) source

theorem engine_through (engine : Engine σ V E) (links : List (Link σ V E)) :
    (Next.through engine links).engine = engine := by
  cases links <;> rfl

theorem through_run (caches : List (PreparedCache σ)) (engine : Engine σ V E) (source : Bytes)
    (url : String) :
    (Next.through engine (caches.map link)).run source url =
      prepareAll caches engine source url >>= fun bytes =>
        Act.call (engine.evaluate bytes url) := by
  induction caches generalizing source with
  | nil => rfl
  | cons c caches ih =>
    rw [prepareAll, List.foldlM_cons, bind_assoc]
    refine (link_eq_prepare c source url _).trans ?_
    rw [engine_through]
    exact bind_congr fun bytes => ih bytes

section Keeps

open Act

variable {I : σ → Prop} {Q : Bytes → Prop}

theorem lookup_keeps {store : ScriptStore σ} {script : ScriptSignature} {runtime : RuntimeSignature}
    (h : ∀ s, I s → I (store.get script runtime prepareTag s).2 ∧
      ∀ kept, (store.get script runtime prepareTag s).1 = .ok (some kept) → Q kept) :
    Keeps I (lookup store script runtime) fun found => ∀ kept ∈ found, Q kept := by
  unfold lookup
  refine .bind (Q := fun answer => ∀ kept, answer = .ok (some kept) → Q kept) (.call h) ?_
  intro answer hanswer
  cases answer with
  | ok found => exact .pure fun kept hkept => hanswer kept (by rw [hkept])
  | error e => exact .bind (.report _) fun _ _ => .pure (by simp)

/-- A hit is a valid entry. -/
theorem lookupValid_keeps {isBytecode : Bytes → Bool} {store : ScriptStore σ}
    {script : ScriptSignature} {runtime : RuntimeSignature}
    (h : ∀ s, I s → I (store.get script runtime prepareTag s).2 ∧
      ∀ kept, (store.get script runtime prepareTag s).1 = .ok (some kept) → isBytecode kept = true →
        Q kept) :
    Keeps I (lookupValid isBytecode store script runtime) fun found => ∀ kept ∈ found, Q kept := by
  unfold lookupValid
  refine .bind (lookup_keeps h) ?_
  intro found hfound
  cases found with
  | none => exact .pure (by simp)
  | some kept =>
    dsimp only
    split
    · next hvalid =>
      refine .bind (.report _) fun _ _ => .pure ?_
      intro b hb
      cases hb
      exact hfound kept rfl hvalid
    · exact .bind (.report _) fun _ _ => .pure (by simp)

/-- An artifact is what the compiler answered for the text of the source, and is not empty. -/
theorem compile_keeps {compiler : Compiler σ} {source : Bytes} {url : String}
    (h : ∀ text, textOf? source = some text → ∀ s, I s → I (compiler.compile text url s).2 ∧
      ∀ artifact, artifact ≠ [] → (compiler.compile text url s).1 = .ok artifact → Q artifact) :
    Keeps I (compile compiler source url) fun artifact => ∀ b ∈ artifact, Q b := by
  unfold compile
  split
  · exact .bind (.report _) fun _ _ => .pure (by simp)
  · next text htext =>
    refine .bind (Q := fun answer => ∀ artifact, artifact ≠ [] → answer = .ok artifact → Q artifact)
      (.call (h text htext)) ?_
    intro answer hanswer
    rcases answer with (url | ⟨url, reason⟩) | (_ | ⟨byte, rest⟩)
    · exact .bind (.report _) fun _ _ => .pure (by simp)
    · exact .bind (.report _) fun _ _ => .pure (by simp)
    · exact .bind (.report _) fun _ _ => .pure (by simp)
    · refine .pure fun b hb => ?_
      cases hb
      exact hanswer _ (by simp) rfl

theorem keep_keeps {store : ScriptStore σ} {bytecode : Bytes} {script : ScriptSignature}
    {runtime : RuntimeSignature}
    (h : ∀ s, I s → I (store.put bytecode script runtime provenanceTag s).2) :
    Keeps I (keep store bytecode script runtime) fun _ => True := by
  unfold keep
  refine .bind (Q := fun _ => True) (.call fun s hs => ⟨h s hs, trivial⟩) ?_
  intro answer _
  cases answer with
  | ok _ => exact .report _
  | error e => exact .report _

/-- What a cache hands on is its input, a valid entry that is kept or a new artifact (`A`). -/
theorem prepare_keeps {A : Bytes → Prop} {c : PreparedCache σ} {engine : Engine σ V E}
    {source : Bytes} {url : String} (hsource : Q source)
    (hget : engine.isBytecode source = false → ∀ store ∈ c.store, ∀ s, I s →
      I (store.get ⟨url, c.scriptVersion⟩ engine.signature prepareTag s).2 ∧
      ∀ kept, (store.get ⟨url, c.scriptVersion⟩ engine.signature prepareTag s).1 = .ok (some kept) →
        engine.isBytecode kept = true → Q kept)
    (hcompile : engine.isBytecode source = false → ∀ text, textOf? source = some text → ∀ s, I s →
      I (c.compiler.compile text url s).2 ∧
      ∀ artifact, artifact ≠ [] → (c.compiler.compile text url s).1 = .ok artifact → A artifact)
    (hput : ∀ store ∈ c.store, ∀ artifact, A artifact → ∀ s, I s →
      I (store.put artifact ⟨url, c.scriptVersion⟩ engine.signature provenanceTag s).2)
    (hA : ∀ artifact, A artifact → Q artifact) :
    Keeps I (c.prepare engine source url) Q := by
  unfold prepare
  cases hstore : c.store with
  | none => exact .pure hsource
  | some store =>
    dsimp only
    split
    · exact .pure hsource
    · next hbytecode =>
      have hbytecode := Bool.eq_false_iff.2 hbytecode
      refine .bind (lookupValid_keeps (hget hbytecode store hstore)) fun found hfound => ?_
      cases found with
      | some kept => exact .pure (hfound kept rfl)
      | none =>
        refine .bind (compile_keeps (hcompile hbytecode)) fun artifact hartifact => ?_
        cases artifact with
        | none => exact .pure hsource
        | some bytecode =>
          have hA' : A bytecode := hartifact bytecode rfl
          exact .bind (keep_keeps (hput store hstore bytecode hA')) fun _ _ =>
            .pure (hA bytecode hA')

theorem prepareAll_keeps {caches : List (PreparedCache σ)} {engine : Engine σ V E} {url : String}
    (h : ∀ c ∈ caches, ∀ bytes, Q bytes → Keeps I (c.prepare engine bytes url) Q) {source : Bytes}
    (hsource : Q source) : Keeps I (prepareAll caches engine source url) Q := by
  induction caches generalizing source with
  | nil => exact .pure hsource
  | cons c caches ih =>
    rw [prepareAll, List.foldlM_cons]
    exact .bind (h c List.mem_cons_self source hsource) fun bytes hbytes =>
      ih (fun d hd => h d (List.mem_cons_of_mem _ hd)) hbytes

end Keeps
end PreparedCache
end ScriptHost
