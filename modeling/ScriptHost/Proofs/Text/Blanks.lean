import Mathlib.Data.List.TakeWhile
import ScriptHost.Text.Blank

/-! What is left of a text whose ends are trimmed: all of it but the blanks in front and behind. So
blanks may be added there, and since no letter is blank its case is of no account. -/

namespace ScriptHost.Text

def Blanks (s : List Char) : Prop := ∀ c ∈ s, isBlank c = true

/-- The text `t` begins and ends with no blank, and it is all of `s` but for blanks around it. -/
structure Trims (s t : List Char) : Prop where
  parts : ∃ before after, s = before ++ t ++ after ∧ Blanks before ∧ Blanks after
  front : ∀ c ∈ t.head?, isBlank c = false
  back : ∀ c ∈ t.getLast?, isBlank c = false

variable {before after s t : List Char}

theorem dropBlanks_append (h : Blanks before) : dropBlanks (before ++ s) = dropBlanks s :=
  List.dropWhile_append_of_pos h

theorem dropBlanks_of_head (h : ∀ c ∈ s.head?, isBlank c = false) : dropBlanks s = s := by
  cases s with
  | nil => rfl
  | cons c s => exact List.dropWhile_cons_of_neg (by simp [h c rfl])

theorem dropBlanks_eq_nil : dropBlanks s = [] ↔ Blanks s := List.dropWhile_eq_nil_iff

theorem head_dropBlanks : ∀ c ∈ (dropBlanks s).head?, isBlank c = false := by
  intro c hc
  have hhead := List.head?_dropWhile_not isBlank s
  rw [show (s.dropWhile isBlank).head? = some c from hc] at hhead
  simpa using hhead

/-- A text is blanks and what is left without them. -/
theorem exists_blanks (s : List Char) : ∃ before, s = before ++ dropBlanks s ∧ Blanks before :=
  ⟨s.takeWhile isBlank, List.takeWhile_append_dropWhile.symm, fun _ hc => List.mem_takeWhile_imp hc⟩

theorem trims_trim (s : List Char) : Trims s (trim s) := by
  obtain ⟨before, hbefore, hblank⟩ := exists_blanks s
  obtain ⟨after, hafter, hblank'⟩ := exists_blanks (dropBlanks s).reverse
  have hrest : dropBlanks s = trim s ++ after.reverse := by
    rw [trim, ← List.reverse_append, ← hafter, List.reverse_reverse]
  refine ⟨⟨before, after.reverse, ?_, hblank, fun c hc => hblank' c (List.mem_reverse.1 hc)⟩, ?_, ?_⟩
  · rw [List.append_assoc, ← hrest, ← hbefore]
  · intro c hc
    refine head_dropBlanks (s := s) c ?_
    rw [hrest, List.head?_append, Option.mem_def.1 hc]
    rfl
  · rw [trim, List.getLast?_reverse]
    exact head_dropBlanks

theorem Trims.trim_eq (h : Trims s t) : trim s = t := by
  obtain ⟨⟨before, after, rfl, hbefore, hafter⟩, hfront, hback⟩ := h
  have hafter' : Blanks after.reverse := fun c hc => hafter c (List.mem_reverse.1 hc)
  cases t with
  | nil =>
    rw [List.append_nil, trim, dropBlanks_append hbefore, dropBlanks_eq_nil.2 hafter]
    rfl
  | cons c t =>
    have hrest : dropBlanks (before ++ c :: t ++ after) = c :: t ++ after := by
      rw [List.append_assoc, dropBlanks_append hbefore]
      exact dropBlanks_of_head hfront
    rw [trim, hrest, List.reverse_append, dropBlanks_append hafter', dropBlanks_of_head,
      List.reverse_reverse]
    rwa [List.head?_reverse]

theorem trims_iff : Trims s t ↔ trim s = t :=
  ⟨Trims.trim_eq, fun h => h ▸ trims_trim s⟩

theorem trim_eq_nil : trim s = [] ↔ Blanks s := by
  rw [← trims_iff]
  constructor
  · rintro ⟨⟨before, after, rfl, hbefore, hafter⟩, -, -⟩
    simpa [Blanks, or_imp, forall_and] using ⟨hbefore, hafter⟩
  · intro h
    exact ⟨⟨s, [], by simp, h, nofun⟩, nofun, nofun⟩

theorem Trims.padded (h : Trims s t) (hbefore : Blanks before) (hafter : Blanks after) :
    Trims (before ++ s ++ after) t := by
  obtain ⟨⟨before', after', rfl, hbefore', hafter'⟩, hfront, hback⟩ := h
  refine ⟨⟨before ++ before', after' ++ after, by simp, ?_, ?_⟩, hfront, hback⟩
  · exact List.forall_mem_append.2 ⟨hbefore, hbefore'⟩
  · exact List.forall_mem_append.2 ⟨hafter', hafter⟩

/-- Blanks around a text leave what is trimmed of it. -/
theorem trim_padded (hbefore : Blanks before) (hafter : Blanks after) :
    trim (before ++ s ++ after) = trim s :=
  ((trims_trim s).padded hbefore hafter).trim_eq

theorem trim_of_blankless (h : ∀ c ∈ s, isBlank c = false) : trim s = s :=
  Trims.trim_eq ⟨⟨[], [], by simp, nofun, nofun⟩, fun c hc => h c (List.mem_of_mem_head? hc),
    fun c hc => h c (List.mem_of_mem_getLast? hc)⟩

section Case

variable {c : Char}

theorem not_isBlank (hlow : 0x20 < c.toNat) (hhigh : c.toNat < 0x85) : isBlank c = false := by
  simp only [isBlank, Ranges.covers, blankRanges, List.any_cons, List.any_nil]
  simp
  omega

theorem not_isBlank_of_isDigit (h : c.isDigit = true) : isBlank c = false := by
  have hrange : 48 ≤ c.val ∧ c.val ≤ 57 := by simpa [Char.isDigit] using h
  have hlow : 48 ≤ c.toNat := hrange.1
  have hhigh : c.toNat ≤ 57 := hrange.2
  exact not_isBlank (by omega) (by omega)

theorem isBlank_toLower (c : Char) : isBlank c.toLower = isBlank c := by
  unfold Char.toLower
  split
  · next h =>
    have hlow : 65 ≤ c.toNat := h.1
    have hhigh : c.toNat ≤ 90 := h.2
    have hlower : (c.val + ('a'.val - 'A'.val)).toNat = c.toNat + 32 := by
      rw [UInt32.toNat_add]
      exact Nat.mod_eq_of_lt (show c.toNat + 32 < 2 ^ 32 by omega)
    rw [not_isBlank (c := c) (by omega) (by omega)]
    exact not_isBlank (lt_of_lt_of_eq (by omega) hlower.symm) (lt_of_eq_of_lt hlower (by omega))
  · rfl

theorem trim_lowered (s : List Char) : trim (s.map Char.toLower) = (trim s).map Char.toLower := by
  have hcomp : isBlank ∘ Char.toLower = isBlank := funext isBlank_toLower
  simp only [trim, dropBlanks, List.dropWhile_map, hcomp, ← List.map_reverse]

end Case

end ScriptHost.Text
