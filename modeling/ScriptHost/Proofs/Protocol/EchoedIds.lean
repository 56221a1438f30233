import Mathlib.Logic.ExistsUnique
import ScriptHost.Proofs.Debugging.ClientFrames
import ScriptHost.Proofs.Json.Echo

/-! The ids of fetches and of their replies. The id of a reply says what the id of the fetch says
exactly if every number in it is kept, as all whole numbers of 64 bits are. -/

namespace ScriptHost

open Json

theorem fetched?_id {text : String} {id : RequestId} {script : ScriptId}
    (h : fetched? text = some (id, script)) : ∃ e, Envelope.parse text = .ok e ∧ e.id = some id := by
  unfold fetched? at h
  split at h
  · next hparse =>
    split at h
    · split at h
      · cases h
        exact ⟨_, hparse, rfl⟩
      · cases h
    · cases h
  · cases h

namespace Bridge

theorem idOf_reply (b : Bridge) (id : RequestId) (script : ScriptId) :
    IdOf (b.reply id script) id.value.tree :=
  ⟨_, says_text _, by simp [tree, treeMembers, Tree.first?]⟩

/-- A reply's id says what the id of the fetch says exactly if all its numbers are kept, and so if
all are whole and have no more than 64 bits. -/
theorem echoes_id_iff (b : Bridge) (session : Nat) {text reply : String}
    (h : (session, reply) ∈ replies (b.route session text)) :
    (∃! v, IdOf text v) ∧ (∃! w, IdOf reply w) ∧
      ∀ v w, IdOf text v → IdOf reply w →
        (Same v w ↔ ∀ x, Shows x v → x.Kept) ∧ ((∀ x, Shows x v → x.Fits) → Same v w) := by
  rw [replies_route] at h
  cases hfetch : fetched? text with
  | none =>
    rw [hfetch] at h
    cases h
  | some fetch =>
    obtain ⟨id, script⟩ := fetch
    rw [hfetch] at h
    obtain rfl : reply = b.reply id script := by simpa using h
    obtain ⟨e, hparse, hid⟩ := fetched?_id hfetch
    obtain ⟨v, hv, hmeans⟩ := Envelope.idOf_of_parse hparse hid
    have hholds : Holds v id.value := (RequestId.of_means hmeans).1
    have hw := b.idOf_reply id script
    have hecho : Echoes v id.value := hholds.echoes
    refine ⟨⟨v, hv, fun v' hv' => hv'.unique hv⟩, ⟨_, hw, fun w' hw' => hw'.unique hw⟩, ?_⟩
    intro v' w' hv' hw'
    obtain rfl := hv'.unique hv
    obtain rfl := hw'.unique hw
    exact ⟨hecho, fun hfits => hecho.2 fun x hx => (hfits x hx).kept⟩

/-- A fetch of the script with the number one. -/
def fetchWith (id : Json) : String :=
  (Json.object [("id", id), ("method", .string getScriptSource),
    ("params", .object [("scriptId", .string "1")])]).text

theorem idOf_fetchWith (id : Json) : IdOf (fetchWith id) id.tree :=
  ⟨_, says_text _, by simp [tree, treeMembers, Tree.first?]⟩

def largestId : Json := .number (.integer 0xFFFFFFFFFFFFFFFF)

theorem shows_largestId {x : Numeral} (h : Shows x largestId.tree) : x.Fits := by
  have hx : x = Number.numeral (.integer 0xFFFFFFFFFFFFFFFF) := by
    cases h
    rfl
  subst hx
  refine ⟨rfl, rfl, ?_, ?_⟩ <;> rw [exact_integer] <;> norm_num

def replyToLargest : String :=
  "\x7b\"id\":18446744073709551615,\"result\":\x7b\"scriptSource\":\"<source unavailable>\"\x7d\x7d"

theorem echoes_largest_id :
    (0, replyToLargest) ∈ replies (({} : Bridge).route 0 (fetchWith largestId)) ∧
      ∃ v w, IdOf (fetchWith largestId) v ∧ IdOf replyToLargest w ∧ Same v w := by
  have hreply : (0, replyToLargest) ∈ replies (({} : Bridge).route 0 (fetchWith largestId)) := by
    decide +kernel
  obtain ⟨⟨v, hv, -⟩, ⟨w, hw, -⟩, hsame⟩ := echoes_id_iff {} 0 hreply
  obtain rfl := hv.unique (idOf_fetchWith largestId)
  exact ⟨hreply, _, w, hv, hw, (hsame _ w hv hw).2 fun x hx => shows_largestId hx⟩

/-- The id is the least natural number that 64 bits do not hold. -/
def wideFetch : String :=
  "\x7b\"id\":18446744073709551616,\"method\":\"Debugger.getScriptSource\"," ++
    "\"params\":\x7b\"scriptId\":\"1\"\x7d\x7d"

def wideReply : String :=
  "\x7b\"id\":1.8446744073709552e+19,\"result\":\x7b\"scriptSource\":\"<source unavailable>\"\x7d\x7d"

/-- That id comes back as another number, 384 greater. -/
theorem wide_id_changed :
    (0, wideReply) ∈ replies (({} : Bridge).route 0 wideFetch) ∧
      ∃ v w, IdOf wideFetch v ∧ IdOf wideReply w ∧ ¬ Same v w := by
  have hfetch : wideFetch = fetchWith (.number (.integer 0x10000000000000000)) := by
    decide +kernel
  have hreply : wideReply =
      ({} : Bridge).reply ⟨.number (.real ⟨false, 0x10000000000000, 12⟩)⟩ ⟨1⟩ := by
    decide +kernel
  have hnumeral : Number.numeral (.real ⟨false, 0x10000000000000, 12⟩) =
      ⟨false, ['1'], some "8446744073709552".toList, some (false, ['1', '9'])⟩ := by
    decide +kernel
  have hdigits : Nat.ofDigitChars 10 (['1'] ++ "8446744073709552".toList) 0 = 18446744073709552 := by
    decide
  have hwritten : Nat.ofDigitChars 10 ['1', '9'] 0 = 19 := by decide
  have hlength : "8446744073709552".toList.length = 16 := by decide
  refine ⟨by decide +kernel, _, _, hfetch ▸ idOf_fetchWith _, hreply ▸ idOf_reply _ _ _, ?_⟩
  intro hsame
  cases hsame with
  | number heq =>
    rw [exact_integer, hnumeral] at heq
    simp only [Numeral.exact, Option.getD_some, hdigits, hwritten, hlength] at heq
    norm_num at heq

end Bridge

end ScriptHost
