import Mathlib.Data.Set.Card
import ScriptHost.Lookup
import ScriptHost.Prepared.Store

/-! A store in memory against the history of its operations. What stands at a key is what was
persisted there last, unless its URL was invalidated or the store cleared since; every answer of the
store follows from what stands. -/

namespace ScriptHost

inductive StoreStep where
  | persist (key : StoreKey) (stored : StoredScript)
  | get (key : StoreKey) (purpose : String)
  | provenance (key : StoreKey)
  | invalidate (url : String)
  | clear
  | len
  | isEmpty
deriving DecidableEq, Repr

inductive StoreAnswer where
  | persisted (result : Except StoreError Unit)
  | found (result : Except StoreError (Option Bytes))
  | tagged (tag : Option String)
  | removed (entries : Nat)
  | cleared
  | counted (entries : Nat)
  | empty (yes : Bool)

namespace MemoryStore

theorem mem_keys (s : MemoryStore) (key : StoreKey) :
    key ∈ s.entries.map Prod.fst ↔ ∃ stored, s.find? key = some stored := by
  have hnone : s.find? key = none ↔ key ∉ s.entries.map Prod.fst := by
    simp only [find?, List.lookup_eq_none_iff, List.mem_map, not_exists, not_and, bne_iff_ne]
    exact forall₂_congr fun _ _ => ne_comm
  rw [← Option.ne_none_iff_exists', Ne, hnone, not_not]

/-- Of the keys that pass a test as many hold something as there are entries under them. -/
theorem ncard_find? (s : MemoryStore) (p : StoreKey → Bool) :
    {key | p key = true ∧ ∃ stored, s.find? key = some stored}.ncard =
      (s.entries.filter fun e => p e.1).length := by
  have hset : {key | p key = true ∧ ∃ stored, s.find? key = some stored} =
      (((s.entries.filter fun e => p e.1).map Prod.fst).toFinset : Set StoreKey) := by
    ext key
    simp only [← mem_keys, Set.mem_ofPred_eq, List.coe_toFinset, List.mem_map, List.mem_filter]
    constructor
    · rintro ⟨hp, entry, hentry, rfl⟩
      exact ⟨entry, ⟨hentry, hp⟩, rfl⟩
    · rintro ⟨entry, ⟨hentry, hp⟩, rfl⟩
      exact ⟨hp, entry, hentry, rfl⟩
  rw [hset, Set.ncard_coe_finset, List.toFinset_card_of_nodup (nodup_filter s.distinct _),
    List.length_map]

theorem ncard_find?_eq_size (s : MemoryStore) :
    {key | ∃ stored, s.find? key = some stored}.ncard = s.size := by
  simpa [size] using ncard_find? s fun _ => true

theorem isEmpty_eq (s : MemoryStore) : s.isEmpty = decide (s.size = 0) := by
  refine Bool.eq_iff_iff.2 ?_
  rw [isEmpty, List.isEmpty_iff, decide_eq_true_iff, size, List.length_eq_zero_iff]

/-- The entries of a URL and all others are all entries. -/
theorem size_without (s : MemoryStore) (url : String) :
    {key | key.script.url = url ∧ ∃ stored, s.find? key = some stored}.ncard +
      (s.without url).size = s.size := by
  have hcount := ncard_find? s fun key => key.script.url = url
  have hsplit := s.entries.length_eq_length_filter_add fun e => decide (e.1.script.url = url)
  simp only [decide_eq_true_eq] at hcount
  rw [hcount, size, size, hsplit, without]
  simp

end MemoryStore

namespace StoreStep

def act : StoreStep → Act MemoryStore StoreAnswer
  | .persist key stored => do
    return .persisted (← Act.call
      (MemoryStore.store.put stored.bytes key.script key.runtime stored.provenance))
  | .get key purpose => do
    return .found (← Act.call (MemoryStore.store.get key.script key.runtime purpose))
  | .provenance key => do return .tagged ((← MonadState.get).outside.provenance? key)
  | .invalidate url => do return .removed (← MemoryStore.invalidate url)
  | .clear => do
    Act.call fun _ => ((), .empty)
    return .cleared
  | .len => do return .counted (← MonadState.get).outside.size
  | .isEmpty => do return .empty (← MonadState.get).outside.isEmpty

def worldAfter (past : List StoreStep) : World MemoryStore :=
  past.foldl (fun w step => (step.act w).2) ⟨.empty, []⟩

def storeAfter (past : List StoreStep) : MemoryStore := (worldAfter past).outside

def answerAfter (past : List StoreStep) (step : StoreStep) : StoreAnswer :=
  (step.act (worldAfter past)).1

def Overrides (key : StoreKey) : StoreStep → Prop
  | .persist other _ => other = key
  | .invalidate url => key.script.url = url
  | .clear => True
  | _ => False

/-- The last write at the key, with neither its URL invalidated nor the store cleared since. -/
def Stands (past : List StoreStep) (key : StoreKey) (stored : StoredScript) : Prop :=
  ∃ before after, past = before ++ .persist key stored :: after ∧
    ∀ step ∈ after, ¬ step.Overrides key

def keys (past : List StoreStep) : Set StoreKey := {key | ∃ stored, Stands past key stored}

/-- What a step leaves in the store. -/
theorem outside_act (step : StoreStep) (w : World MemoryStore) :
    (step.act w).2.outside =
      match step with
      | .persist key stored => w.outside.put key stored
      | .invalidate url => w.outside.without url
      | .clear => .empty
      | _ => w.outside := by
  cases step <;> rfl

theorem storeAfter_concat (past : List StoreStep) (step : StoreStep) :
    storeAfter (past ++ [step]) = (step.act (worldAfter past)).2.outside := by
  simp [storeAfter, worldAfter]

theorem not_stands_nil (key : StoreKey) (stored : StoredScript) : ¬ Stands [] key stored := by
  rintro ⟨before, after, heq, -⟩
  simp at heq

theorem stands_concat (past : List StoreStep) (step : StoreStep) (key : StoreKey)
    (stored : StoredScript) : Stands (past ++ [step]) key stored ↔
      step = .persist key stored ∨ Stands past key stored ∧ ¬ step.Overrides key := by
  have hplace := exists_place_since_concat (l := past) (a := step) (b := .persist key stored)
    (P := fun _ => True) (Q := fun other => ¬ other.Overrides key)
  simpa only [Stands, true_and, and_true] using hplace

/-- What one step does to what is found at a key. -/
theorem find?_concat (past : List StoreStep) (step : StoreStep) (key : StoreKey)
    (stored : StoredScript) : (storeAfter (past ++ [step])).find? key = some stored ↔
      step = .persist key stored ∨
        (storeAfter past).find? key = some stored ∧ ¬ step.Overrides key := by
  rw [storeAfter_concat, outside_act]
  cases step with
  | persist other written =>
    rw [MemoryStore.find?_put]
    by_cases hkey : key = other
    · subst hkey
      simp [Overrides]
    · simp [Overrides, hkey, Ne.symm hkey, storeAfter]
  | invalidate url =>
    rw [MemoryStore.find?_without]
    by_cases hurl : key.script.url = url <;> simp [Overrides, hurl, storeAfter]
  | clear => simp [Overrides]
  | get other purpose => simp [Overrides, storeAfter]
  | provenance other => simp [Overrides, storeAfter]
  | len => simp [Overrides, storeAfter]
  | isEmpty => simp [Overrides, storeAfter]

/-- The store holds what stands. -/
theorem find?_storeAfter (past : List StoreStep) (key : StoreKey) (stored : StoredScript) :
    (storeAfter past).find? key = some stored ↔ Stands past key stored := by
  induction past using List.reverseRecOn with
  | nil => exact iff_of_false nofun (not_stands_nil key stored)
  | append_singleton past step ih => rw [find?_concat, stands_concat, ih]

structure TellsHistory (past : List StoreStep) : Prop where
  /-- What stands at a key is found there, whatever the purpose, and so is its tag. -/
  found : ∀ key stored, Stands past key stored →
    (∀ purpose, answerAfter past (.get key purpose) = .found (.ok (some stored.bytes))) ∧
      answerAfter past (.provenance key) = .tagged (some stored.provenance)
  absent : ∀ key, key ∉ keys past →
    (∀ purpose, answerAfter past (.get key purpose) = .found (.ok none)) ∧
      answerAfter past (.provenance key) = .tagged none
  finite : (keys past).Finite
  len : answerAfter past .len = .counted (keys past).ncard
  isEmpty : answerAfter past .isEmpty = .empty (decide ((keys past).ncard = 0))
  /-- The entries of a URL are counted as they go, of all versions and engine builds. -/
  removed : ∀ url, answerAfter past (.invalidate url) =
      .removed {key | key.script.url = url ∧ key ∈ keys past}.ncard ∧
    {key | key.script.url = url ∧ key ∈ keys past}.ncard +
      (keys (past ++ [.invalidate url])).ncard = (keys past).ncard
  /-- The entries of other URLs stay as they are. -/
  others : ∀ url key, key.script.url ≠ url →
    (∀ purpose, answerAfter (past ++ [.invalidate url]) (.get key purpose) =
        answerAfter past (.get key purpose)) ∧
      answerAfter (past ++ [.invalidate url]) (.provenance key) =
        answerAfter past (.provenance key)

/-- What is found at a key settles all that the store tells of it. -/
theorem told_eq {past : List StoreStep} {key : StoreKey} {found : Option StoredScript}
    (h : (storeAfter past).find? key = found) :
    (∀ purpose, answerAfter past (.get key purpose) = .found (.ok (found.map (·.bytes)))) ∧
      answerAfter past (.provenance key) = .tagged (found.map (·.provenance)) := by
  subst h
  exact ⟨fun _ => rfl, rfl⟩

theorem keys_eq (past : List StoreStep) :
    keys past = {key | ∃ stored, (storeAfter past).find? key = some stored} := by
  simp only [keys, find?_storeAfter]

theorem ncard_keys (past : List StoreStep) : (keys past).ncard = (storeAfter past).size := by
  rw [keys_eq, MemoryStore.ncard_find?_eq_size]

theorem storeAfter_invalidate (past : List StoreStep) (url : String) :
    storeAfter (past ++ [.invalidate url]) = (storeAfter past).without url := by
  rw [storeAfter_concat, outside_act]
  rfl

/-- Every answer of the store follows from the history of its operations. -/
theorem tells_history (past : List StoreStep) : TellsHistory past where
  found key stored h := told_eq ((find?_storeAfter past key stored).2 h)
  absent key h := by
    have hnone : (storeAfter past).find? key = none := by
      refine Option.eq_none_iff_forall_ne_some.2 fun stored hfound => h ?_
      exact ⟨stored, (find?_storeAfter past key stored).1 hfound⟩
    exact told_eq hnone
  finite := by
    rw [keys_eq]
    simp only [← MemoryStore.mem_keys]
    exact List.finite_toSet _
  len := congrArg StoreAnswer.counted (ncard_keys past).symm
  isEmpty := by
    rw [ncard_keys, ← MemoryStore.isEmpty_eq]
    rfl
  removed url := by
    -- the store counts by the difference of its sizes
    have hanswer : answerAfter past (.invalidate url) =
        .removed ((storeAfter past).size - ((storeAfter past).without url).size) := rfl
    have hcount := (storeAfter past).size_without url
    simp only [keys_eq past, Set.mem_ofPred_eq]
    rw [ncard_keys, ← keys_eq, ncard_keys, storeAfter_invalidate, hanswer]
    exact ⟨congrArg StoreAnswer.removed (by omega), hcount⟩
  others url key h := by
    have hkept : (storeAfter (past ++ [.invalidate url])).find? key =
        (storeAfter past).find? key := by
      rw [storeAfter_invalidate, MemoryStore.find?_without, if_neg h]
    exact told_eq hkept

end StoreStep
end ScriptHost
