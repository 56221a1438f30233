import ScriptHost.Lookup
import ScriptHost.Number.Binary64

/-! JSON values as they are held after reading: whole numbers are exact, every other number is a
binary64 number, and the members of an object stand in the order of their names, each name
once. -/

namespace ScriptHost

/-- A number is whole, between `-2^63` and `2^64`, or a binary64 number. -/
inductive Json.Number where
  | integer (i : Int)
  | real (x : Binary64)
deriving DecidableEq, Repr

inductive Json where
  | null
  | bool (b : Bool)
  | number (n : Json.Number)
  | string (s : String)
  | array (items : List Json)
  | object (members : List (String × Json))
deriving Repr

namespace Json

instance : Inhabited Json := ⟨.null⟩

/-- Sets a member, at its place in the order of names; a member of that name is replaced. -/
def put (members : List (String × Json)) (name : String) (value : Json) : List (String × Json) :=
  match members with
  | [] => [(name, value)]
  | (k, v) :: rest =>
    if name < k then (name, value) :: (k, v) :: rest
    else if name = k then (name, value) :: rest
    else (k, v) :: put rest name value

theorem lookup_put (members : List (String × Json)) (name other : String) (value : Json) :
    (put members name value).lookup other =
      if other = name then some value else members.lookup other := by
  induction members with
  | nil => simp [put, lookup_cons_eq_ite]
  | cons member rest ih =>
    obtain ⟨k, v⟩ := member
    unfold put
    split
    · rw [lookup_cons_eq_ite]
    · split
      · rename_i h
        by_cases ho : other = name <;> simp [lookup_cons_eq_ite, ho, ← h]
      · rename_i h
        rw [lookup_cons_eq_ite, ih, lookup_cons_eq_ite]
        by_cases hk : other = k
        · subst hk; simp [Ne.symm h]
        · simp [hk]

/-- The members in the order of their names; of a repeated name the last one counts. -/
def ofMembers (members : List (String × Json)) : Json :=
  .object (members.foldl (fun acc kv => put acc kv.1 kv.2) [])

end Json
end ScriptHost
