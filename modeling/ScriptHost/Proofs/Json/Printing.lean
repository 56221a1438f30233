import ScriptHost.Proofs.Json.PrintedNumbers

/-! A printed value is a text of the grammar and says the value's own tree. -/

namespace ScriptHost.Json

mutual

def tree : Json → Tree
  | .null => .null
  | .bool b => .bool b
  | .number n => .number n.numeral
  | .string s => .string (units s.toList)
  | .array items => .array (treeItems items)
  | .object members => .object (treeMembers members)

def treeItems : List Json → List Tree
  | [] => []
  | j :: js => j.tree :: treeItems js

def treeMembers : List (String × Json) → List (List Nat × Tree)
  | [] => []
  | (name, j) :: members => (units name.toList, j.tree) :: treeMembers members

end

section Strings

variable {s rest : List Char} {us : List Nat}

theorem unitsOf_of_control {c : Char} (hc : c.toNat < 0x20) : unitsOf c = [c.toNat] :=
  if_pos (by omega)

/-- A control character is escaped by its number. -/
theorem hexQuad?_control {c : Char} (hc : c.toNat < 0x20) :
    hexQuad? ('0' :: '0' :: hexDigit (c.toNat / 16) :: hexDigit (c.toNat % 16) :: s) =
      some (c.toNat, s) := by
  have hdigit : ∀ n < 16, Text.hexValue? (hexDigit n) = some n := by decide
  have hhigh := hdigit (c.toNat / 16) (by omega)
  have hlow := hdigit (c.toNat % 16) (by omega)
  have hzero : Text.hexValue? '0' = some 0 := rfl
  have hsum : ((0 * 16 + 0) * 16 + c.toNat / 16) * 16 + c.toNat % 16 = c.toNat := by omega
  simp only [hexQuad?, hhigh, hlow, hzero, hsum, Option.bind_eq_bind, Option.bind_some]
  rfl

theorem quoted_escaped (c : Char) (h : Quoted s us rest) :
    Quoted (escaped c ++ s) (unitsOf c ++ us) rest := by
  unfold escaped
  split
  · exact .short rfl h
  · exact .short rfl h
  · exact .short rfl h
  · exact .short rfl h
  · exact .short rfl h
  · exact .short rfl h
  · exact .short rfl h
  · next hquote hback _ _ _ _ _ =>
    split
    · next hcontrol =>
      rw [unitsOf_of_control hcontrol]
      exact .unit (hexQuad?_control hcontrol) h
    · next hcontrol => exact .plain hquote hback (by omega) h

theorem quoted_print (s rest : List Char) :
    Quoted (s.flatMap escaped ++ '"' :: rest) (units s) rest := by
  induction s with
  | nil => exact .close
  | cons c s ih =>
    rw [List.flatMap_cons, List.append_assoc, units, List.flatMap_cons]
    exact quoted_escaped c ih

end Strings

section Elements

variable {s rest : List Char}

theorem Items.after_comma {v : Tree} {vs : List Tree} (h : Items true s (v :: vs) rest) :
    Items false (',' :: s) (v :: vs) rest := by
  cases h with
  | item hcomma hv hvs =>
    cases hcomma
    exact .item rfl hv hvs

theorem Members.after_comma {m : List Nat × Tree} {ms : List (List Nat × Tree)}
    (h : Members true s (m :: ms) rest) : Members false (',' :: s) (m :: ms) rest := by
  cases h with
  | member hcomma hopen hname hcolon hv hms =>
    cases hcomma
    exact .member rfl hopen hname hcolon hv hms

def behindPart (parts : List (List Char)) (rest : List Char) : List Char :=
  if parts = [] then rest else ',' :: (commaSeparated parts ++ rest)

theorem commaSeparated_cons (part : List Char) (parts : List (List Char)) :
    commaSeparated (part :: parts) ++ rest = part ++ behindPart parts rest := by
  cases parts <;> simp [commaSeparated, behindPart]

end Elements

theorem value_number_print (n : Number) (rest : List Char) :
    Value (printNumber n ++ rest) (.number n.numeral) rest := by
  obtain ⟨c, tail, heq, hc⟩ := n.spelled.lead
  have hspace : ¬ isSpace c = true := by
    intro hspace
    have hblank : c = ' ' ∨ c = '\n' ∨ c = '\t' ∨ c = '\r' := by simpa [isSpace] using hspace
    rcases hblank with rfl | rfl | rfl | rfl <;> revert hc <;> decide
  have hskip : skipSpace (printNumber n ++ rest) = printNumber n ++ rest := by
    rw [heq, List.cons_append, skipSpace, List.dropWhile_cons_of_neg hspace]
  exact .number hskip n.spelled

mutual

theorem value_print (j : Json) (rest : List Char) : Value (print j ++ rest) j.tree rest := by
  cases j with
  | null => exact .null rfl
  | bool b =>
    cases b with
    | true => exact .yes rfl
    | false => exact .no rfl
  | number n => exact value_number_print n rest
  | string s =>
    have hopen : skipSpace (print (.string s) ++ rest) =
        '"' :: (s.toList.flatMap escaped ++ '"' :: rest) := by
      simp [print, printString, skipSpace, isSpace]
    exact .string hopen (quoted_print s.toList rest)
  | array items =>
    have hopen : skipSpace (print (.array items) ++ rest) =
        '[' :: (commaSeparated (printItems items) ++ ']' :: rest) := by
      simp [print, skipSpace, isSpace]
    exact .array hopen (items_print items rest)
  | object members =>
    have hopen : skipSpace (print (.object members) ++ rest) =
        '\x7b' :: (commaSeparated (printMembers members) ++ '\x7d' :: rest) := by
      simp [print, skipSpace, isSpace]
    exact .object hopen (members_print members rest)

theorem items_print (js : List Json) (rest : List Char) :
    Items true (commaSeparated (printItems js) ++ ']' :: rest) (treeItems js) rest := by
  cases js with
  | nil => exact .done rfl
  | cons j js =>
    rw [printItems, commaSeparated_cons]
    refine .item rfl (value_print j _) ?_
    have hitems := items_print js rest
    cases js with
    | nil => exact .done rfl
    | cons j' js => exact hitems.after_comma

theorem members_print (members : List (String × Json)) (rest : List Char) :
    Members true (commaSeparated (printMembers members) ++ '\x7d' :: rest) (treeMembers members)
      rest := by
  cases members with
  | nil => exact .done rfl
  | cons member members =>
    obtain ⟨name, j⟩ := member
    have hmembers := members_print members rest
    have htail : Members false (behindPart (printMembers members) ('\x7d' :: rest))
        (treeMembers members) rest := by
      cases members with
      | nil => exact .done rfl
      | cons member members => exact hmembers.after_comma
    have htext : commaSeparated (printMembers ((name, j) :: members)) ++ '\x7d' :: rest =
        '"' :: (name.toList.flatMap escaped ++ '"' :: ':' ::
          (print j ++ behindPart (printMembers members) ('\x7d' :: rest))) := by
      rw [printMembers, commaSeparated_cons]
      simp [printString]
    rw [htext]
    exact .member rfl rfl (quoted_print name.toList _) rfl (value_print j _) htail

end

theorem says_text (j : Json) : Says j.text j.tree := by
  refine ⟨[], ?_, rfl⟩
  rw [text, String.toList_ofList]
  simpa using value_print j []

end ScriptHost.Json
