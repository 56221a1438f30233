import ScriptHost.Proofs.Wire.Records
import ScriptHost.Protocol.Envelope

/-! What an envelope has for an id: what its text says there, in the object form as in the list form.
An id that is `null` counts as absent, so no envelope holds it. -/

namespace ScriptHost

open Json

/-- `v` is what the text says for an id. -/
def IdOf (text : String) (v : Tree) : Prop := ∃ root, Says text root ∧ root.first? "id" = some v

theorem IdOf.unique {text : String} {v v' : Tree} (h : IdOf text v) (h' : IdOf text v') :
    v = v' := by
  obtain ⟨root, hsays, hv⟩ := h
  obtain ⟨root', hsays', hv'⟩ := h'
  cases hsays.unique hsays'
  exact Option.some.inj (hv.symm.trans hv')

/-- An id is read as any value but `null`. -/
theorem RequestId.of_means {v : Tree} {id : RequestId}
    (h : RequestId.wire.optional.Means v (some id)) : Holds v id.value ∧ id.value ≠ .null := by
  obtain ⟨j, hvj, hj⟩ := h
  have hid : id.value = j ∧ j ≠ .null := by
    cases j <;> cases hj <;> exact ⟨rfl, nofun⟩
  rw [hid.1]
  exact ⟨hvj, hid.2⟩

namespace Envelope

theorem fields_agree : fields.Agree :=
  ⟨(Wire.agrees_json.map _ _).optional, Wire.agrees_text.optional, Wire.agrees_json.optional,
    trivial⟩

theorem fields_nodup : fields.names.Nodup := by decide

/-- An envelope has the id that its text says. -/
theorem idOf_of_parse {text : String} {e : Envelope} {id : RequestId} (h : parse text = .ok e)
    (hid : e.id = some id) :
    ∃ v, IdOf text v ∧ RequestId.wire.optional.Means v (some id) := by
  obtain ⟨rest, hread, hrest⟩ := Wire.decode_eq_ok.1 (mapError_eq_ok.1 h)
  obtain ⟨root, a, b, hroot, rfl, ha⟩ := Wire.record_first fields_agree fields_nodup le_rfl hread
  obtain rfl : a = some id := hid
  rcases ha with habsent | ⟨v, hv, hmeans⟩
  · cases habsent
  · exact ⟨v, ⟨root, ⟨rest, hroot, hrest⟩, hv⟩, hmeans⟩

/-- An id that is `null` counts as absent. -/
theorem id_ne_null {text : String} {e : Envelope} (h : parse text = .ok e) :
    ∀ id ∈ e.id, id.value ≠ .null := by
  intro id hid
  obtain ⟨v, -, hmeans⟩ := idOf_of_parse h hid
  exact (RequestId.of_means hmeans).2

end Envelope
end ScriptHost
