import ScriptHost.Debugging.Config
import ScriptHost.Proofs.Text.Decimals

/-! What the address that a bridge binds tells of its configuration. The port is behind the last
colon, whatever the host is, and before it stands the host, in brackets exactly if it has colons of its
own. So no two hosts share an address, but for one that comes in its brackets already. -/

namespace ScriptHost

def PartedAtLastColon (text : String) (before after : List Char) : Prop :=
  text.toList = before ++ ':' :: after ∧ ':' ∉ after

theorem PartedAtLastColon.unique {text : String} {before after before' after' : List Char}
    (h : PartedAtLastColon text before after) (h' : PartedAtLastColon text before' after') :
    before = before' ∧ after = after' := by
  obtain ⟨htext, hafter⟩ := h
  obtain ⟨htext', hafter'⟩ := h'
  -- of two splits of one text one colon is not before the other, or it is behind it
  rcases List.append_eq_append_iff.1 (htext.symm.trans htext') with
    ⟨between, rfl, hbehind⟩ | ⟨between, rfl, hbehind⟩
  · cases between with
    | nil => exact ⟨(List.append_nil _).symm, by simpa using hbehind⟩
    | cons c between =>
      obtain ⟨-, rfl⟩ := List.cons.inj hbehind
      exact absurd (by simp) hafter
  · cases between with
    | nil => exact ⟨List.append_nil _, by simpa using hbehind.symm⟩
    | cons c between =>
      obtain ⟨-, rfl⟩ := List.cons.inj hbehind
      exact absurd (by simp) hafter'

namespace BridgeConfig

/-- The host does not come in brackets of its own. -/
def Bare (c : BridgeConfig) : Prop := c.host.toList.head? ≠ some '['

def bracketed (host : List Char) : List Char := '[' :: host ++ [']']

def shownHost (c : BridgeConfig) : List Char :=
  if ':' ∈ c.host.toList then bracketed c.host.toList else c.host.toList

theorem no_colon_decimal (n : Nat) : ':' ∉ Text.decimal n := fun h =>
  absurd ((Json.decimal_digits n).2 ':' h) (by decide)

theorem decimal_injective : Function.Injective Text.decimal := by
  intro n m h
  have hvalue := congrArg (Nat.ofDigitChars 10 · 0) h
  simpa [Text.decimal] using hvalue

variable {c d : BridgeConfig}

theorem Bare.bindAddr_parted (h : c.Bare) :
    PartedAtLastColon c.bindAddr c.shownHost (Text.decimal c.port.toNat) := by
  refine ⟨?_, no_colon_decimal _⟩
  have hhost : (':' ∈ c.host.toList ∧ c.host.toList.head? ≠ some '[') ↔ ':' ∈ c.host.toList :=
    and_iff_left h
  simp only [bindAddr, shownHost, bracketed, hhost, String.toList_ofList]

/-- What is shown of a bare host is only in brackets if they were added. -/
theorem Bare.shownHost_inj (hc : c.Bare) (hd : d.Bare) (h : c.shownHost = d.shownHost) :
    c.host = d.host := by
  unfold shownHost at h
  split at h
  · split at h
    · exact String.toList_inj.1 (by simpa [bracketed] using h)
    · exact absurd (by rw [← h]; rfl) hd
  · split at h
    · exact absurd (by rw [h]; rfl) hc
    · exact String.toList_inj.1 h

theorem Bare.bindAddr_inj (hc : c.Bare) (hd : d.Bare) :
    c.bindAddr = d.bindAddr ↔ c.host = d.host ∧ c.port = d.port := by
  constructor
  · intro h
    have hparted := hd.bindAddr_parted
    rw [← h] at hparted
    obtain ⟨hhost, hport⟩ := hc.bindAddr_parted.unique hparted
    exact ⟨hc.shownHost_inj hd hhost, UInt16.toNat_inj.1 (decimal_injective hport)⟩
  · rintro ⟨hhost, hport⟩
    rw [bindAddr, bindAddr, hhost, hport]

theorem Bare.bindAddr_bracketed (hc : c.Bare) (hcolon : ':' ∈ c.host.toList) :
    { c with host := String.ofList (bracketed c.host.toList) }.bindAddr = c.bindAddr := by
  have hhost : ':' ∈ c.host.toList ∧ c.host.toList.head? ≠ some '[' := ⟨hcolon, hc⟩
  simp [bindAddr, bracketed, hhost]

end BridgeConfig

structure AddressesTell : Prop where
  /-- Only the same host and the same port have the same address. -/
  injective : ∀ c d : BridgeConfig, c.Bare → d.Bare →
    (c.bindAddr = d.bindAddr ↔ c.host = d.host ∧ c.port = d.port)
  /-- The port is behind the last colon. -/
  port : ∀ c : BridgeConfig, c.Bare → ∀ before after, PartedAtLastColon c.bindAddr before after →
    after = Text.decimal c.port.toNat
  host : ∀ c : BridgeConfig, c.Bare → ∀ before after, PartedAtLastColon c.bindAddr before after →
    (':' ∉ c.host.toList → before = c.host.toList) ∧
      (':' ∈ c.host.toList → before = '[' :: c.host.toList ++ [']'])
  /-- There is a last colon. -/
  parted : ∀ c : BridgeConfig, c.Bare → ∃ before after, PartedAtLastColon c.bindAddr before after
  /-- A host with colons has the same address in its brackets. -/
  bracketed : ∀ c : BridgeConfig, c.Bare → ':' ∈ c.host.toList →
    { c with host := String.ofList ('[' :: c.host.toList ++ [']']) }.bindAddr = c.bindAddr

theorem addresses_tell : AddressesTell where
  injective _ _ hc hd := hc.bindAddr_inj hd
  port c hc before after h := (h.unique hc.bindAddr_parted).2
  host c hc before after h := by
    have hbefore := (h.unique hc.bindAddr_parted).1
    rw [hbefore, BridgeConfig.shownHost]
    exact ⟨fun hcolon => if_neg hcolon, fun hcolon => if_pos hcolon⟩
  parted _ hc := ⟨_, _, hc.bindAddr_parted⟩
  bracketed _ hc hcolon := hc.bindAddr_bracketed hcolon

-- a host that comes in brackets is not told from one that is put into them
example : BridgeConfig.bindAddr ⟨"[::1]", 1, true, 2000⟩ =
    BridgeConfig.bindAddr ⟨"::1", 1, true, 2000⟩ := by decide

end ScriptHost
