import ScriptHost.Prepared.Store

/-! Two stores in memory that hold the same under some of the keys. What is done to both keeps it
so, and so does what is done to one of them under other keys. -/

namespace ScriptHost.MemoryStore

def AgreeOn (P : StoreKey → Prop) (s t : MemoryStore) : Prop :=
  ∀ key, P key → s.find? key = t.find? key

variable {P : StoreKey → Prop} {s t : MemoryStore}

theorem AgreeOn.refl (s : MemoryStore) : AgreeOn P s s := fun _ _ => rfl

theorem AgreeOn.put (h : AgreeOn P s t) (key : StoreKey) (stored : StoredScript) :
    AgreeOn P (s.put key stored) (t.put key stored) := by
  intro other hother
  rw [find?_put, find?_put, h other hother]

theorem AgreeOn.without (h : AgreeOn P s t) (url : String) :
    AgreeOn P (s.without url) (t.without url) := by
  intro other hother
  rw [find?_without, find?_without, h other hother]

theorem AgreeOn.put_left (h : AgreeOn P s t) {key : StoreKey} (hkey : ¬ P key)
    (stored : StoredScript) : AgreeOn P (s.put key stored) t := by
  intro other hother
  have hne : other ≠ key := by
    rintro rfl
    exact hkey hother
  rw [find?_put, if_neg hne, h other hother]

theorem AgreeOn.without_left (h : AgreeOn P s t) {url : String}
    (hurl : ∀ key, P key → key.script.url ≠ url) : AgreeOn P (s.without url) t := by
  intro other hother
  rw [find?_without, if_neg (hurl other hother), h other hother]

end ScriptHost.MemoryStore
