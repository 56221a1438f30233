import Mathlib.Data.List.Induction
import ScriptHost.Proofs.Debugging.Operations

/-! The slot that holds the client and the attachment of the native debugger always agree. A step
moves the slot exactly as its calls move the attachment, so the agreement holds along every run;
the rest follows from what the calls of one step can be. -/

namespace ScriptHost

def attachments (effects : List Effect) : List NativeCall :=
  effects.filterMap fun
    | .native (.connect session accepted) => some (.connect session accepted)
    | .native .disconnect => some .disconnect
    | _ => none

@[simp] theorem attachments_append (a b : List Effect) :
    attachments (a ++ b) = attachments a ++ attachments b := List.filterMap_append ..

namespace NativeCall

def attached (before : Option Nat) : NativeCall → Option Nat
  | .connect session true => some session
  | .connect _ false => before
  | .disconnect => none
  | .send _ => before

/-- Every connect among the calls finds nothing attached. -/
def Guarded : Option Nat → List NativeCall → Prop
  | _, [] => True
  | before, call :: rest =>
    (∀ session accepted, call = .connect session accepted → before = none) ∧
      Guarded (call.attached before) rest

theorem guarded_append (before : Option Nat) (a b : List NativeCall) :
    Guarded before (a ++ b) ↔ Guarded before a ∧ Guarded (a.foldl attached before) b := by
  induction a generalizing before with
  | nil => simp [Guarded]
  | cons call a ih => simp only [List.cons_append, Guarded, ih, List.foldl_cons, and_assoc]

/-- Only a disconnect takes an attachment away. -/
theorem disconnect_mem_of_foldl_eq_none {calls : List NativeCall} {session : Nat}
    (h : calls.foldl attached (some session) = none) : .disconnect ∈ calls := by
  induction calls generalizing session with
  | nil => cases h
  | cons call rest ih =>
    cases call with
    | connect other accepted =>
      cases accepted with
      | true => exact List.mem_cons_of_mem _ (ih h)
      | false => exact List.mem_cons_of_mem _ (ih h)
    | disconnect => exact List.mem_cons_self
    | send message => exact List.mem_cons_of_mem _ (ih h)

/-- Between an accepted connect and any later connect there is a disconnect. -/
theorem Guarded.disconnect_mem {first middle last : List NativeCall} {session other : Nat}
    {accepted : Bool}
    (h : Guarded none
      (first ++ .connect session true :: (middle ++ .connect other accepted :: last))) :
    .disconnect ∈ middle := by
  obtain ⟨-, -, hrest⟩ := (guarded_append ..).1 h
  obtain ⟨-, hlast, -⟩ := (guarded_append ..).1 hrest
  exact disconnect_mem_of_foldl_eq_none (hlast other accepted rfl)

/-- A session is attached when its accepted connect is the last, with no disconnect behind it. -/
theorem foldl_attached_eq_some_iff (calls : List NativeCall) (session : Nat) :
    calls.foldl attached none = some session ↔
      ∃ before after, calls = before ++ .connect session true :: after ∧
        (∀ other, .connect other true ∉ after) ∧ .disconnect ∉ after := by
  induction calls using List.reverseRecOn with
  | nil => simp
  | append_singleton calls call ih =>
    rw [List.foldl_append, List.foldl_cons, List.foldl_nil, exists_split_concat]
    cases call with
    | connect other accepted =>
      cases accepted with
      | true =>
        have hlater : ¬ ∃ before after, calls = before ++ .connect session true :: after ∧
            (∀ t, .connect t true ∉ after ++ [.connect other true]) ∧
              .disconnect ∉ after ++ [.connect other true] :=
          fun ⟨_, _, _, hnone, _⟩ => hnone other (by simp)
        rw [or_iff_left hlater]
        simp [attached]
      | false => simp [attached, ih]
    | disconnect => simp [attached]
    | send message => simp [attached, ih]

end NativeCall

def BridgeStep.Apart : BridgeStep → Prop
  | .attach _ _ | .detach _ | .shutdown => False
  | .route _ _ | .relay _ _ | .nativeDetached _ => True

theorem BridgeStep.Apart.ne {step : BridgeStep} (h : step.Apart) :
    (∀ session accepts, step ≠ .attach session accepts) ∧ (∀ session, step ≠ .detach session) ∧
      step ≠ .shutdown := by
  refine ⟨?_, ?_, ?_⟩
  · rintro session accepts rfl
    exact h
  · rintro session rfl
    exact h
  · rintro rfl
    exact h

theorem BridgeStep.kinds (step : BridgeStep) :
    (∃ session accepts, step = .attach session accepts) ∨ (∃ session, step = .detach session) ∨
      step = .shutdown ∨ step.Apart := by
  cases step with
  | attach session accepts => exact Or.inl ⟨session, accepts, rfl⟩
  | detach session => exact Or.inr (Or.inl ⟨session, rfl⟩)
  | shutdown => exact Or.inr (Or.inr (Or.inl rfl))
  | _ => exact Or.inr (Or.inr (Or.inr trivial))

namespace Bridge

open NativeCall

variable (b : Bridge)

theorem client_attach (session : Nat) (accepts : Bool) :
    (b.attach session accepts).1.client =
      if b.closed then b.client else if accepts then some session else none := by
  unfold attach
  cases b.closed <;> cases accepts <;> rfl

theorem attachments_attach (session : Nat) (accepts : Bool) :
    attachments (b.attach session accepts).2 =
      if b.closed then []
      else (if b.client = none then [] else [.disconnect]) ++ [.connect session accepts] := by
  unfold attach
  cases b.closed <;> cases b.client <;> cases accepts <;> rfl

theorem client_detach (session : Nat) :
    (b.detach session).1.client = if b.client = some session then none else b.client := by
  unfold detach
  split <;> rfl

theorem attachments_detach (session : Nat) :
    attachments (b.detach session).2 = if b.client = some session then [.disconnect] else [] := by
  unfold detach
  split <;> rfl

theorem client_shutdown :
    b.shutdown.1.client = if b.stopped then b.client else none := by
  unfold shutdown
  cases b.stopped <;> rfl

theorem attachments_shutdown :
    attachments b.shutdown.2 = if b.stopped then [] else [.disconnect] := by
  unfold shutdown close
  cases b.stopped <;> cases b.client <;> rfl

theorem attachments_route (session : Nat) (text : String) :
    attachments (b.route session text) = [] := by
  unfold route
  cases ClientCommand.parse text with
  | error e => rfl
  | ok command =>
    cases command with
    | getScriptSource id script => cases h : b.registry.source? script <;> simp only [h] <;> rfl
    | forward method => rfl

theorem learn_eq (message : String) :
    (b.learn message).1 = { b with registry := (b.learn message).1.registry } ∧
      attachments (b.learn message).2 = [] := by
  unfold learn
  cases DebuggerEvent.parse message with
  | error e => exact ⟨rfl, rfl⟩
  | ok event => cases event <;> exact ⟨rfl, rfl⟩

/-- All other steps leave the slot and the attachment alone. -/
theorem apply_apart {step : BridgeStep} (h : step.Apart) :
    (b.apply step).1 = { b with registry := (b.apply step).1.registry } ∧
      attachments (b.apply step).2 = [] := by
  cases step with
  | attach session accepts => exact h.elim
  | detach session => exact h.elim
  | shutdown => exact h.elim
  | route session text => exact ⟨rfl, attachments_route b session text⟩
  | relay session message =>
    obtain ⟨hbridge, hcalls⟩ := learn_eq b message
    refine ⟨hbridge, ?_⟩
    simp only [apply, relay, attachments_append, hcalls]
    rfl
  | nativeDetached session => exact ⟨rfl, rfl⟩

/-- A step moves the slot as its calls move the attachment of the native debugger. -/
theorem client_apply (step : BridgeStep) :
    (b.apply step).1.client = (attachments (b.apply step).2).foldl attached b.client := by
  rcases step.kinds with ⟨session, accepts, rfl⟩ | ⟨session, rfl⟩ | rfl | h
  · simp only [apply, client_attach, attachments_attach]
    cases b.closed with
    | true => rfl
    | false => cases hc : b.client <;> cases accepts <;> simp [attached]
  · simp only [apply, client_detach, attachments_detach]
    split <;> rfl
  · simp only [apply, client_shutdown, attachments_shutdown]
    cases b.stopped <;> rfl
  · obtain ⟨hbridge, hcalls⟩ := apply_apart b h
    rw [hbridge, hcalls]
    rfl

/-- A step connects only what it finds, or has made, free. -/
theorem guarded_apply (step : BridgeStep) : Guarded b.client (attachments (b.apply step).2) := by
  rcases step.kinds with ⟨session, accepts, rfl⟩ | ⟨session, rfl⟩ | rfl | h
  · simp only [apply, attachments_attach]
    cases b.closed with
    | true => trivial
    | false => cases hc : b.client <;> simp [Guarded, attached]
  · simp only [apply, attachments_detach]
    split <;> simp [Guarded]
  · simp only [apply, attachments_shutdown]
    cases b.stopped <;> simp [Guarded]
  · rw [(apply_apart b h).2]
    trivial

/-- Only a shutdown, and only the first, disconnects where nothing is attached. -/
theorem idle_disconnect_apply (step : BridgeStep) {before after : List NativeCall}
    (h : attachments (b.apply step).2 = before ++ .disconnect :: after)
    (hidle : before.foldl attached b.client = none) :
    step = .shutdown ∧ b.stopped = false ∧ before = [] ∧ after = [] := by
  rcases before with _ | ⟨call, rest⟩
  · have hclient : b.client = none := hidle
    rcases step.kinds with ⟨session, accepts, rfl⟩ | ⟨session, rfl⟩ | rfl | hs
    · rw [apply, attachments_attach, hclient] at h
      cases hclosed : b.closed <;> simp [hclosed] at h
    · rw [apply, attachments_detach, hclient] at h
      simp at h
    · rw [apply, attachments_shutdown] at h
      cases hstopped : b.stopped with
      | true => simp [hstopped] at h
      | false => exact ⟨rfl, rfl, rfl, by simpa [hstopped, eq_comm] using h⟩
    · rw [(apply_apart b hs).2] at h
      cases h
  · -- a disconnect that is not the step's first call: no step has one
    rcases step.kinds with ⟨session, accepts, rfl⟩ | ⟨session, rfl⟩ | rfl | hs
    · rw [apply, attachments_attach] at h
      cases hclosed : b.closed <;> cases hclient : b.client <;> cases rest <;>
        simp [hclosed, hclient] at h
    · rw [apply, attachments_detach] at h
      split at h <;> simp at h
    · rw [apply, attachments_shutdown] at h
      split at h <;> simp at h
    · rw [(apply_apart b hs).2] at h
      cases h

structure Shut (b : Bridge) : Prop where
  client : b.client = none
  closed : b.closed = true
  stopped : b.stopped = true

variable {b}

/-- Nothing that happens after a shutdown reaches the slot or the attachment. -/
theorem Shut.apply (h : b.Shut) (step : BridgeStep) :
    (b.apply step).1.Shut ∧ attachments (b.apply step).2 = [] := by
  obtain ⟨hclient, hclosed, hstopped⟩ := h
  rcases step.kinds with ⟨session, accepts, rfl⟩ | ⟨session, rfl⟩ | rfl | hs
  · simp only [Bridge.apply, attach, hclosed, if_true]
    exact ⟨⟨hclient, hclosed, hstopped⟩, rfl⟩
  · simp only [Bridge.apply, detach, hclient, reduceCtorEq, if_false]
    exact ⟨⟨hclient, hclosed, hstopped⟩, rfl⟩
  · simp only [Bridge.apply, shutdown, hstopped, if_true]
    exact ⟨⟨hclient, hclosed, hstopped⟩, rfl⟩
  · obtain ⟨hbridge, hcalls⟩ := apply_apart b hs
    rw [hbridge]
    exact ⟨⟨hclient, hclosed, hstopped⟩, hcalls⟩

theorem Shut.run (h : b.Shut) (steps : List BridgeStep) :
    (b.run steps).1.Shut ∧ attachments (b.run steps).2 = [] := by
  induction steps generalizing b with
  | nil => exact ⟨h, rfl⟩
  | cons step rest ih =>
    obtain ⟨hshut, hcalls⟩ := h.apply step
    obtain ⟨hend, hmore⟩ := ih hshut
    refine ⟨hend, ?_⟩
    simp only [Bridge.run, attachments_append, hcalls, hmore, List.append_nil]

theorem shut_shutdown (h : b.stopped = false) : b.shutdown.1.Shut := by
  simp only [shutdown, h, Bool.false_eq_true, if_false]
  exact ⟨rfl, rfl, rfl⟩

/-- Only a shutdown shuts a bridge. -/
theorem flags_apply (b : Bridge) (step : BridgeStep) (h : step ≠ .shutdown) :
    (b.apply step).1.closed = b.closed ∧ (b.apply step).1.stopped = b.stopped := by
  rcases step.kinds with ⟨session, accepts, rfl⟩ | ⟨session, rfl⟩ | rfl | hs
  · simp only [apply, attach]
    split
    · exact ⟨rfl, rfl⟩
    · split <;> exact ⟨rfl, rfl⟩
  · simp only [apply, detach]
    split <;> exact ⟨rfl, rfl⟩
  · exact absurd rfl h
  · rw [(apply_apart b hs).1]
    exact ⟨rfl, rfl⟩

theorem flags_run {steps : List BridgeStep} (h : .shutdown ∉ steps) :
    (b.run steps).1.closed = b.closed ∧ (b.run steps).1.stopped = b.stopped := by
  induction steps generalizing b with
  | nil => exact ⟨rfl, rfl⟩
  | cons step rest ih =>
    obtain ⟨hstep, hrest⟩ := not_or.1 (mt List.mem_cons.2 h)
    obtain ⟨hclosed, hstopped⟩ := flags_apply b step (Ne.symm hstep)
    obtain ⟨hclosed', hstopped'⟩ := ih (b := (b.apply step).1) hrest
    exact ⟨hclosed'.trans hclosed, hstopped'.trans hstopped⟩

theorem shut_run {steps : List BridgeStep} (h : .shutdown ∈ steps) (hb : b.stopped = false) :
    (b.run steps).1.Shut := by
  obtain ⟨before, after, rfl, hfirst⟩ := List.eq_append_cons_of_mem h
  rw [run_append]
  have hstopped : (b.run before).1.stopped = false := (flags_run hfirst).2.trans hb
  exact ((shut_shutdown hstopped).run after).1

/-- The last attach is that of the session, it was accepted, nobody reported the session's end
since, and there was no shutdown. -/
def Holding (steps : List BridgeStep) (session : Nat) : Prop :=
  (∃ before after, steps = before ++ .attach session true :: after ∧
    (∀ other accepts, .attach other accepts ∉ after) ∧ .detach session ∉ after) ∧
  .shutdown ∉ steps

theorem not_holding_nil (session : Nat) : ¬ Holding [] session := by simp [Holding]

theorem holding_concat_attach {steps : List BridgeStep} (h : .shutdown ∉ steps)
    (other session : Nat) (accepts : Bool) :
    Holding (steps ++ [.attach other accepts]) session ↔ other = session ∧ accepts = true := by
  have hlater : ¬ ∃ before after, steps = before ++ .attach session true :: after ∧
      (∀ t a, .attach t a ∉ after ++ [.attach other accepts]) ∧
        .detach session ∉ after ++ [.attach other accepts] :=
    fun ⟨_, _, _, hnone, _⟩ => hnone other accepts (by simp)
  rw [Holding, exists_split_concat, or_iff_left hlater]
  simp [h]

/-- A step that is none of the three that matter to a session changes nothing for it. -/
theorem holding_concat_of_ne {step : BridgeStep} {session : Nat}
    (hattach : ∀ other accepts, step ≠ .attach other accepts) (hdetach : step ≠ .detach session)
    (hshutdown : step ≠ .shutdown) (steps : List BridgeStep) :
    Holding (steps ++ [step]) session ↔ Holding steps session := by
  rw [Holding, exists_split_concat, Holding]
  simp [hattach, Ne.symm (hattach _ _), Ne.symm hdetach, Ne.symm hshutdown]

theorem not_holding_concat_detach (steps : List BridgeStep) (session : Nat) :
    ¬ Holding (steps ++ [.detach session]) session := by
  rw [Holding, exists_split_concat]
  simp

/-- The slot after a run of a new bridge. -/
theorem client_run_eq_some_iff (steps : List BridgeStep) (session : Nat) :
    (({} : Bridge).run steps).1.client = some session ↔ Holding steps session := by
  induction steps using List.reverseRecOn with
  | nil => simp [run, not_holding_nil]
  | append_singleton steps step ih =>
    rw [run_concat]
    by_cases hshut : .shutdown ∈ steps
    · have hend := ((shut_run (b := {}) hshut rfl).apply step).1.client
      simp [hend, Holding, hshut]
    rcases step.kinds with ⟨other, accepts, rfl⟩ | ⟨other, rfl⟩ | rfl | hs
    · have hclosed : (({} : Bridge).run steps).1.closed = false := (flags_run hshut).1
      rw [apply, client_attach, hclosed, holding_concat_attach hshut]
      cases accepts <;> simp
    · rw [apply, client_detach]
      by_cases hother : other = session
      · subst hother
        simp only [not_holding_concat_detach, iff_false]
        split
        · simp
        · assumption
      · rw [holding_concat_of_ne (by simp) (by simpa using hother) (by simp), ← ih]
        split
        · next hclient => simp [hclient, hother]
        · rfl
    · have hstopped : (({} : Bridge).run steps).1.stopped = false := (flags_run hshut).2
      rw [apply, (shut_shutdown hstopped).client]
      simp [Holding]
    · obtain ⟨hattach, hdetach, hshutdown⟩ := hs.ne
      rw [(apply_apart _ hs).1, holding_concat_of_ne hattach (hdetach _) hshutdown]
      exact ih

theorem client_run (b : Bridge) (steps : List BridgeStep) :
    (b.run steps).1.client = (attachments (b.run steps).2).foldl attached b.client := by
  induction steps generalizing b with
  | nil => rfl
  | cons step rest ih =>
    simp only [run, attachments_append, List.foldl_append]
    rw [ih, client_apply]

theorem guarded_run (b : Bridge) (steps : List BridgeStep) :
    Guarded b.client (attachments (b.run steps).2) := by
  induction steps generalizing b with
  | nil => trivial
  | cons step rest ih =>
    simp only [run, attachments_append]
    rw [guarded_append, ← client_apply]
    exact ⟨guarded_apply b step, ih _⟩

/-- A new client is in the slot or is told to close. -/
theorem close_mem_attach (b : Bridge) (session : Nat) (accepts : Bool) :
    (b.attach session accepts).1.client = some session ∨
      .close session ∈ (b.attach session accepts).2 := by
  unfold attach
  cases b.closed with
  | true => exact Or.inr (by simp)
  | false =>
    cases accepts with
    | true => exact Or.inl rfl
    | false => exact Or.inr (by simp)

/-- A client that loses the slot is told to close, unless its end was reported. -/
theorem close_mem_apply {b : Bridge} {session : Nat} (h : b.client = some session)
    {step : BridgeStep} (hstep : (b.apply step).1.client ≠ some session) :
    .close session ∈ (b.apply step).2 ∨ step = .detach session := by
  rcases step.kinds with ⟨other, accepts, rfl⟩ | ⟨other, rfl⟩ | rfl | hs
  · left
    cases hclosed : b.closed with
    | true => simp [apply, client_attach, hclosed, h] at hstep
    | false => cases accepts <;> simp [apply, attach, hclosed, h]
  · right
    rw [apply, client_detach, h] at hstep
    by_cases hother : session = other
    · rw [hother]
    · simp [hother] at hstep
  · left
    cases hstopped : b.stopped with
    | true => simp [apply, client_shutdown, hstopped, h] at hstep
    | false => simp [apply, shutdown, close, hstopped, h]
  · rw [(apply_apart b hs).1] at hstep
    exact absurd h hstep

/-- Whoever came and is not in the slot was told to close, unless its end was reported. -/
theorem close_mem_run {steps : List BridgeStep} {session : Nat} {accepts : Bool}
    (h : .attach session accepts ∈ steps)
    (hgone : (({} : Bridge).run steps).1.client ≠ some session) :
    .close session ∈ (({} : Bridge).run steps).2 ∨ .detach session ∈ steps := by
  induction steps using List.reverseRecOn with
  | nil => cases h
  | append_singleton steps step ih =>
    rw [run_concat] at hgone ⊢
    by_cases hheld : (({} : Bridge).run steps).1.client = some session
    · rcases close_mem_apply hheld hgone with hclose | rfl
      · exact Or.inl (List.mem_append_right _ hclose)
      · exact Or.inr (by simp)
    · rcases List.mem_append.1 h with hmem | hlast
      · rcases ih hmem hheld with hclose | hdetach
        · exact Or.inl (List.mem_append_left _ hclose)
        · exact Or.inr (List.mem_append_left _ hdetach)
      · obtain rfl := List.mem_singleton.1 hlast
        rcases close_mem_attach (({} : Bridge).run steps).1 session accepts with hclient | hclose
        · exact absurd hclient hgone
        · exact Or.inl (List.mem_append_right _ hclose)

structure SlotAgrees (steps : List BridgeStep) : Prop where
  /-- The slot is fixed by the history of the run. -/
  holds_iff : ∀ session,
    (({} : Bridge).run steps).1.client = some session ↔ Holding steps session
  /-- A connect never meets an attachment. -/
  guarded : ∀ first session middle other accepted last,
    attachments (({} : Bridge).run steps).2 =
        first ++ .connect session true :: (middle ++ .connect other accepted :: last) →
      .disconnect ∈ middle
  /-- The slot holds whom the native debugger is attached to. -/
  attached_iff : ∀ session,
    (({} : Bridge).run steps).1.client = some session ↔
      ∃ before after, attachments (({} : Bridge).run steps).2 =
          before ++ .connect session true :: after ∧
        (∀ other, .connect other true ∉ after) ∧ .disconnect ∉ after
  /-- A disconnect that finds nothing attached is the only call of the first shutdown. -/
  idle : ∀ before step later calls more,
    steps = before ++ step :: later →
    attachments ((({} : Bridge).run before).1.apply step).2 = calls ++ .disconnect :: more →
    (attachments (({} : Bridge).run before).2 ++ calls).foldl attached none = none →
      step = .shutdown ∧ .shutdown ∉ before ∧ calls = [] ∧ more = []
  /-- A shutdown is the end of all connects and disconnects, and of all clients. -/
  silent : ∀ before later, steps = before ++ .shutdown :: later →
    (({} : Bridge).run steps).1.client = none ∧
      attachments (({} : Bridge).run steps).2 =
        attachments (({} : Bridge).run (before ++ [.shutdown])).2
  /-- Every other session was told to close, or its end was reported. -/
  closed : ∀ session accepts, .attach session accepts ∈ steps →
    (({} : Bridge).run steps).1.client ≠ some session →
      .close session ∈ (({} : Bridge).run steps).2 ∨ .detach session ∈ steps

theorem idle_disconnect_run {before : List BridgeStep} {step : BridgeStep}
    {calls more : List NativeCall}
    (h : attachments ((({} : Bridge).run before).1.apply step).2 = calls ++ .disconnect :: more)
    (hidle : (attachments (({} : Bridge).run before).2 ++ calls).foldl attached none = none) :
    step = .shutdown ∧ .shutdown ∉ before ∧ calls = [] ∧ more = [] := by
  have hclient := client_run {} before
  rw [List.foldl_append] at hidle
  rw [show (none : Option Nat) = ({} : Bridge).client from rfl, ← hclient] at hidle
  obtain ⟨rfl, hstopped, hcalls, hmore⟩ := idle_disconnect_apply _ step h hidle
  refine ⟨rfl, fun hshut => ?_, hcalls, hmore⟩
  rw [(shut_run hshut rfl).stopped] at hstopped
  cases hstopped

theorem silent_after_shutdown (before later : List BridgeStep) :
    (({} : Bridge).run (before ++ .shutdown :: later)).1.client = none ∧
      attachments (({} : Bridge).run (before ++ .shutdown :: later)).2 =
        attachments (({} : Bridge).run (before ++ [.shutdown])).2 := by
  have hshut : (({} : Bridge).run (before ++ [.shutdown])).1.Shut :=
    shut_run (by simp) rfl
  rw [show before ++ .shutdown :: later = (before ++ [.shutdown]) ++ later by simp, run_append]
  obtain ⟨hend, hcalls⟩ := hshut.run later
  refine ⟨hend.client, ?_⟩
  rw [attachments_append, hcalls, List.append_nil]

theorem slot_agrees_with_attachment (steps : List BridgeStep) : SlotAgrees steps where
  holds_iff := client_run_eq_some_iff steps
  guarded first session middle other accepted last h := by
    have hg := guarded_run {} steps
    rw [h] at hg
    exact hg.disconnect_mem
  attached_iff session := by
    rw [client_run]
    exact foldl_attached_eq_some_iff _ session
  idle before step later calls more _ h hidle := idle_disconnect_run h hidle
  silent before later h := by
    rw [h]
    exact silent_after_shutdown before later
  closed session accepts h hgone := close_mem_run h hgone

end Bridge
end ScriptHost
