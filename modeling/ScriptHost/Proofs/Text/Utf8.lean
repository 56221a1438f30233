import ScriptHost.Proofs.Json.Soundness
import ScriptHost.Text.Utf8

/-! Reading undoes encoding, and only what is encoded is read without a gap. Behind a whole text the
reader stands where it began, so what an ill-formed tail is read as has no part in the text before. -/

namespace ScriptHost

namespace Utf8

section Leads

variable {b y : Nat}

theorem lead_one (h : b < 0x80) : lead b = .whole (Char.ofNat b) := if_pos h

theorem lead_two (h : 0xC2 ≤ b ∧ b < 0xE0) : lead b = .begun ⟨1, 0x80, 0xBF, b - 0xC0⟩ := by
  rw [lead, if_neg (by omega), if_neg (by omega), if_pos h.2]

/-- The second of three bytes rules out what two bytes hold, and the surrogates. -/
theorem lead_three (h : 0xE0 ≤ b ∧ b < 0xF0) : ∃ low high, lead b = .begun ⟨2, low, high, b - 0xE0⟩ ∧
    ∀ y, low ≤ y ∧ y ≤ high ↔ (0x80 ≤ y ∧ y ≤ 0xBF) ∧ 0x20 ≤ (b - 0xE0) * 64 + (y - 0x80) ∧
      ((b - 0xE0) * 64 + (y - 0x80) < 0x360 ∨ 0x380 ≤ (b - 0xE0) * 64 + (y - 0x80)) := by
  rw [lead, if_neg (by omega), if_neg (by omega), if_neg (by omega)]
  by_cases hlow : b = 0xE0
  · subst hlow
    exact ⟨_, _, rfl, fun y => by omega⟩
  by_cases hsurrogate : b = 0xED
  · subst hsurrogate
    exact ⟨_, _, rfl, fun y => by omega⟩
  rw [if_neg hlow, if_neg hsurrogate, if_pos h.2]
  exact ⟨_, _, rfl, fun y => by omega⟩

/-- The second of four bytes rules out what three bytes hold, and what is no code point. -/
theorem lead_four (h : 0xF0 ≤ b ∧ b < 0xF5) : ∃ low high, lead b = .begun ⟨3, low, high, b - 0xF0⟩ ∧
    ∀ y, low ≤ y ∧ y ≤ high ↔ (0x80 ≤ y ∧ y ≤ 0xBF) ∧ 0x10 ≤ (b - 0xF0) * 64 + (y - 0x80) ∧
      (b - 0xF0) * 64 + (y - 0x80) < 0x110 := by
  rw [lead, if_neg (by omega), if_neg (by omega), if_neg (by omega), if_neg (by omega),
    if_neg (by omega), if_neg (by omega)]
  by_cases hlow : b = 0xF0
  · subst hlow
    exact ⟨_, _, rfl, fun y => by omega⟩
  by_cases hhigh : b = 0xF4
  · subst hhigh
    exact ⟨_, _, rfl, fun y => by omega⟩
  rw [if_neg hlow, if_pos (by omega)]
  exact ⟨_, _, rfl, fun y => by omega⟩

theorem lead_never (h : 0x80 ≤ b ∧ b < 0xC2 ∨ 0xF5 ≤ b) : lead b = .never := by
  unfold lead
  split_ifs <;> first | rfl | omega

end Leads

section Scanning

variable {p : Begun} {b y : UInt8} {rest : Bytes} {c : Char}

theorem scan_whole (h : lead b.toNat = .whole c) :
    scan none (b :: rest) = some c :: scan none rest := by
  rw [scan, step, start, h]
  rfl

theorem scan_begun (h : lead b.toNat = .begun p) : scan none (b :: rest) = scan (some p) rest := by
  rw [scan, step, start, h]
  rfl

theorem scan_never (h : lead b.toNat = .never) : scan none (b :: rest) = none :: scan none rest := by
  rw [scan, step, start, h]
  rfl

/-- The last byte that is owed completes the character. -/
theorem scan_last (hlast : p.owed = 1) (h : p.low ≤ y.toNat ∧ y.toNat ≤ p.high) :
    scan (some p) (y :: rest) =
      some (Char.ofNat (p.point * 64 + (y.toNat - 0x80))) :: scan none rest := by
  rw [scan, step, if_pos h, if_pos hlast]
  rfl

theorem scan_more (hmore : p.owed ≠ 1) (h : p.low ≤ y.toNat ∧ y.toNat ≤ p.high) :
    scan (some p) (y :: rest) =
      scan (some ⟨p.owed - 1, 0x80, 0xBF, p.point * 64 + (y.toNat - 0x80)⟩) rest := by
  rw [scan, step, if_pos h, if_neg hmore]
  rfl

/-- Where no gap follows, an open character gets a byte that it can use. -/
theorem exists_byte_of_no_gap (h : none ∉ scan (some p) rest) :
    ∃ y tail, rest = y :: tail ∧ p.low ≤ y.toNat ∧ y.toNat ≤ p.high := by
  cases rest with
  | nil => simp [scan] at h
  | cons y tail =>
    refine ⟨y, tail, rfl, ?_⟩
    by_cases hbounds : p.low ≤ y.toNat ∧ y.toNat ≤ p.high
    · exact hbounds
    · rw [scan, step, if_neg hbounds] at h
      simp at h

end Scanning

section Characters

def codeBytes (v : Nat) : List Nat :=
  if v ≤ 0x7F then [v]
  else if v ≤ 0x7FF then [v / 64 % 32 + 192, v % 64 + 128]
  else if v ≤ 0xFFFF then [v / 4096 % 16 + 224, v / 64 % 64 + 128, v % 64 + 128]
  else [v / 262144 % 8 + 240, v / 4096 % 64 + 128, v / 64 % 64 + 128, v % 64 + 128]

theorem utf8EncodeChar_eq (c : Char) :
    String.utf8EncodeChar c = (codeBytes c.toNat).map UInt8.ofNat := by
  unfold codeBytes
  simp only [apply_ite (List.map UInt8.ofNat), List.map_cons, List.map_nil]
  rfl

theorem encoded_eq {n : Nat} {b : Bytes} (hn : n < 0xD800 ∨ 0xDFFF < n ∧ n < 0x110000)
    (h : codeBytes n = b.map UInt8.toNat) : String.utf8EncodeChar (Char.ofNat n) = b := by
  rw [utf8EncodeChar_eq, Json.toNat_ofNat hn, h, List.map_map]
  exact (List.map_congr_left fun _ _ => UInt8.ofNat_toNat).trans (List.map_id b)

/-- A character that was encoded is read, and nothing behind it. -/
theorem scan_encoded (c : Char) (rest : Bytes) :
    scan none (String.utf8EncodeChar c ++ rest) = some c :: scan none rest := by
  have hvalid := Json.toNat_lt c
  have hbyte : ∀ n < 256, (UInt8.ofNat n).toNat = n := fun n hn => UInt8.toNat_ofNat_of_lt hn
  have hchar : ∀ n, n = c.toNat →
      some (Char.ofNat n) :: scan none rest = some c :: scan none rest := by
    rintro n rfl
    rw [Char.ofNat_toNat]
  rw [utf8EncodeChar_eq]
  generalize c.toNat = v at hvalid hchar
  unfold codeBytes
  split
  · have hx := hbyte v (by omega)
    rw [List.map_cons, List.map_nil, List.singleton_append, scan_whole (lead_one (by omega))]
    exact hchar _ (by omega)
  split
  · have hx := hbyte (v / 64 % 32 + 192) (by omega)
    have hy := hbyte (v % 64 + 128) (by omega)
    simp only [List.map_cons, List.map_nil, List.cons_append, List.nil_append]
    rw [scan_begun (lead_two (by omega)), scan_last rfl (by dsimp only; omega)]
    exact hchar _ (by dsimp only; omega)
  split
  · have hx := hbyte (v / 4096 % 16 + 224) (by omega)
    have hy := hbyte (v / 64 % 64 + 128) (by omega)
    have hz := hbyte (v % 64 + 128) (by omega)
    obtain ⟨low, high, hlead, hbounds⟩ := lead_three (b := (UInt8.ofNat (v / 4096 % 16 + 224)).toNat)
      (by omega)
    simp only [List.map_cons, List.map_nil, List.cons_append, List.nil_append]
    rw [scan_begun hlead, scan_more (by simp) ((hbounds _).2 (by omega)),
      scan_last rfl (by dsimp only; omega)]
    exact hchar _ (by dsimp only; omega)
  · have hx := hbyte (v / 262144 % 8 + 240) (by omega)
    have hy := hbyte (v / 4096 % 64 + 128) (by omega)
    have hz := hbyte (v / 64 % 64 + 128) (by omega)
    have hw := hbyte (v % 64 + 128) (by omega)
    obtain ⟨low, high, hlead, hbounds⟩ := lead_four (b := (UInt8.ofNat (v / 262144 % 8 + 240)).toNat)
      (by omega)
    simp only [List.map_cons, List.map_nil, List.cons_append, List.nil_append]
    rw [scan_begun hlead, scan_more (by simp) ((hbounds _).2 (by omega)),
      scan_more (by simp) (by dsimp only; omega), scan_last rfl (by dsimp only; omega)]
    exact hchar _ (by dsimp only; omega)

/-- Bytes that are read without a gap begin with a character. -/
theorem exists_char_of_no_gap {x : UInt8} {rest : Bytes} (h : none ∉ scan none (x :: rest)) :
    ∃ c tail, x :: rest = String.utf8EncodeChar c ++ tail := by
  have hmore : (0x80 ≤ x.toNat ∧ x.toNat < 0xC2 ∨ 0xF5 ≤ x.toNat) ∨ x.toNat < 0x80 ∨
      (0xC2 ≤ x.toNat ∧ x.toNat < 0xE0) ∨ (0xE0 ≤ x.toNat ∧ x.toNat < 0xF0) ∨
      (0xF0 ≤ x.toNat ∧ x.toNat < 0xF5) := by omega
  rcases hmore with hnever | hone | htwo | hthree | hfour
  · rw [scan_never (lead_never hnever)] at h
    simp at h
  · refine ⟨Char.ofNat x.toNat, rest, ?_⟩
    rw [encoded_eq (b := [x]) (by omega) (by simp [codeBytes]; omega)]
    rfl
  · rw [scan_begun (lead_two htwo)] at h
    obtain ⟨y, tail, rfl, hy⟩ := exists_byte_of_no_gap h
    dsimp only at hy
    refine ⟨Char.ofNat ((x.toNat - 0xC0) * 64 + (y.toNat - 0x80)), tail, ?_⟩
    rw [encoded_eq (b := [x, y]) (by omega)]
    · rfl
    · rw [codeBytes, if_neg (by omega), if_pos (by omega)]
      simp only [List.map_cons, List.map_nil, List.cons.injEq, and_true]
      omega
  · obtain ⟨low, high, hlead, hbounds⟩ := lead_three hthree
    rw [scan_begun hlead] at h
    obtain ⟨y, tail, rfl, hy⟩ := exists_byte_of_no_gap h
    rw [scan_more (by simp) hy] at h
    obtain ⟨z, tail, rfl, hz⟩ := exists_byte_of_no_gap h
    obtain ⟨hy, hleast, hsurrogate⟩ := (hbounds _).1 hy
    dsimp only at hz
    refine ⟨Char.ofNat (((x.toNat - 0xE0) * 64 + (y.toNat - 0x80)) * 64 + (z.toNat - 0x80)), tail, ?_⟩
    rw [encoded_eq (b := [x, y, z]) (by omega)]
    · rfl
    · rw [codeBytes, if_neg (by omega), if_neg (by omega), if_pos (by omega)]
      simp only [List.map_cons, List.map_nil, List.cons.injEq, and_true]
      omega
  · obtain ⟨low, high, hlead, hbounds⟩ := lead_four hfour
    rw [scan_begun hlead] at h
    obtain ⟨y, tail, rfl, hy⟩ := exists_byte_of_no_gap h
    rw [scan_more (by simp) hy] at h
    obtain ⟨z, tail, rfl, hz⟩ := exists_byte_of_no_gap h
    rw [scan_more (by simp) hz] at h
    obtain ⟨w, tail, rfl, hw⟩ := exists_byte_of_no_gap h
    obtain ⟨hy, hleast, hmost⟩ := (hbounds _).1 hy
    dsimp only at hz hw
    refine ⟨Char.ofNat ((((x.toNat - 0xF0) * 64 + (y.toNat - 0x80)) * 64 + (z.toNat - 0x80)) * 64 +
      (w.toNat - 0x80)), tail, ?_⟩
    rw [encoded_eq (b := [x, y, z, w]) (by omega)]
    · rfl
    · rw [codeBytes, if_neg (by omega), if_neg (by omega), if_neg (by omega)]
      simp only [List.map_cons, List.map_nil, List.cons.injEq, and_true]
      omega

end Characters

section Texts

variable {s : List Char} {b : Bytes}

theorem scan_encode (s : List Char) (b : Bytes) :
    scan none (encode s ++ b) = s.map some ++ scan none b := by
  induction s with
  | nil => rfl
  | cons c s ih =>
    rw [encode, List.flatMap_cons, List.append_assoc, scan_encoded, List.map_cons, List.cons_append,
      ← ih]
    rfl

/-- What stands behind a text is read on its own. -/
theorem lossy_encode_append (s : List Char) (b : Bytes) :
    lossy (encode s ++ b) = s ++ lossy b := by
  rw [lossy, scan_encode, List.map_append, List.map_map]
  exact congrArg (· ++ lossy b) (List.map_id'' (fun _ => rfl) s)

/-- Bytes that are read without a gap are those of a text. -/
theorem exists_text_of_no_gap (h : none ∉ scan none b) : ∃ s, encode s = b := by
  induction hlength : b.length using Nat.strongRecOn generalizing b with
  | ind n ih =>
    cases b with
    | nil => exact ⟨[], rfl⟩
    | cons x rest =>
      obtain ⟨c, tail, heq⟩ := exists_char_of_no_gap h
      rw [heq, scan_encoded] at h
      have hshort : tail.length < n := by
        rw [← hlength, heq, List.length_append, String.length_utf8EncodeChar]
        have hpos := c.utf8Size_pos
        omega
      obtain ⟨s, rfl⟩ := ih _ hshort (fun hmem => h (.tail _ hmem)) rfl
      exact ⟨c :: s, by rw [heq, encode, encode, List.flatMap_cons]⟩

theorem mapM_id_eq_some {l : List (Option α)} {s : List α} : l.mapM id = some s ↔ l = s.map some := by
  induction l generalizing s with
  | nil => cases s <;> simp
  | cons o l ih =>
    cases o with
    | none => cases s <;> simp
    | some a =>
      cases s with
      | nil => cases hl : l.mapM id <;> simp [hl]
      | cons a' s =>
        rw [List.map_cons, List.cons.injEq, ← ih]
        cases hl : l.mapM id <;> simp [hl]

theorem decode?_eq_some : decode? b = some s ↔ encode s = b := by
  have hscan : ∀ s, scan none (encode s) = s.map some := by
    intro s
    rw [← List.append_nil (encode s), scan_encode, scan, List.append_nil]
  rw [decode?, mapM_id_eq_some]
  constructor
  · intro h
    obtain ⟨t, rfl⟩ : ∃ t, encode t = b := exists_text_of_no_gap (by simp [h])
    have hsame : t = s := (List.map_inj_right fun _ _ => Option.some.inj).1 ((hscan t).symm.trans h)
    rw [hsame]
  · rintro rfl
    exact hscan s

end Texts
end Utf8

/-- A text is read from its bytes, and from no others. -/
theorem textOf?_eq_some {b : Bytes} {t : String} : textOf? b = some t ↔ bytesOf t = b := by
  rw [textOf?, bytesOf, ← Utf8.decode?_eq_some, Option.map_eq_some_iff]
  constructor
  · rintro ⟨s, hs, rfl⟩
    rwa [String.toList_ofList]
  · exact fun h => ⟨_, h, String.ofList_toList⟩

/-- Bytes behind a text are read on their own. -/
theorem textOf_append (t : String) (b : Bytes) : textOf (bytesOf t ++ b) = t ++ textOf b := by
  rw [textOf, bytesOf, Utf8.lossy_encode_append, String.ofList_append, String.ofList_toList]
  rfl

theorem textOf_bytesOf (t : String) : textOf (bytesOf t) = t := by
  have h := textOf_append t []
  simpa [textOf, Utf8.lossy, Utf8.scan] using h

/-- Nothing is lost exactly if the bytes are those of a text. -/
theorem bytesOf_textOf_iff {b : Bytes} : bytesOf (textOf b) = b ↔ ∃ t, bytesOf t = b := by
  constructor
  · exact fun h => ⟨_, h⟩
  · rintro ⟨t, rfl⟩
    rw [textOf_bytesOf]

end ScriptHost
