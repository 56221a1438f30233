import Mathlib.Data.List.Basic
import ScriptHost.Proofs.Debugging.ClientSlot
import ScriptHost.Proofs.Debugging.LiveRun

/-! Which frames reach the native debugger. A session that was replaced is only told to close and
goes on delivering; its frames are routed as if it were still the client. The condition under which
that happens is exact: the run has superseded the session. -/

namespace ScriptHost

def LiveStep.attached? : LiveStep → Option Nat
  | .attach session _ => some session
  | _ => none

def forwarded (effects : List Effect) : List String :=
  effects.filterMap fun
    | .native (.send message) => some message
    | _ => none

def Forwardable (text : String) : Prop := ∃ method, ClientCommand.parse text = .ok (.forward method)

theorem Bridge.forwarded_route (b : Bridge) (session : Nat) (text : String) :
    (Forwardable text ∧ forwarded (b.route session text) = [text]) ∨
      (¬ Forwardable text ∧ forwarded (b.route session text) = []) := by
  unfold Bridge.route Forwardable
  cases ClientCommand.parse text with
  | error e => exact Or.inr ⟨by simp, rfl⟩
  | ok command =>
    cases command with
    | getScriptSource id script =>
      refine Or.inr ⟨by simp, ?_⟩
      cases h : b.registry.source? script <;> simp only [h] <;> rfl
    | forward method => exact Or.inl ⟨⟨method, rfl⟩, rfl⟩

/-- Of all operations only a route sends to the native debugger. -/
theorem Bridge.forwarded_apply (b : Bridge) (step : BridgeStep)
    (h : ∀ session text, step ≠ .route session text) : forwarded (b.apply step).2 = [] := by
  cases step with
  | attach session accepts =>
    simp only [Bridge.apply, attach]
    cases b.closed <;> cases b.client <;> cases accepts <;> rfl
  | detach session =>
    simp only [Bridge.apply, detach]
    split <;> rfl
  | shutdown =>
    simp only [Bridge.apply, shutdown, close]
    cases b.stopped <;> cases b.client <;> rfl
  | route session text => exact absurd rfl (h session text)
  | relay session message =>
    simp only [Bridge.apply, relay, learn]
    split <;> rfl
  | nativeDetached session => rfl

namespace LiveBridge

open Session

variable {l : LiveBridge}

/-- A session came to the bridge, and since then another one came or the bridge was shut down. -/
def Superseded (steps : List LiveStep) (session : Nat) : Prop :=
  ∃ accepts before after, steps = before ++ .attach session accepts :: after ∧
    (.shutdown ∈ after ∨ ∃ other answer, .attach other answer ∈ after)

/-- A session was let in before any shutdown. -/
def LetIn (steps : List LiveStep) (session : Nat) : Prop :=
  ∃ before after, steps = before ++ .attach session true :: after ∧ .shutdown ∉ before

theorem LetIn.mem {steps : List LiveStep} {session : Nat} (h : LetIn steps session) :
    .attach session true ∈ steps := by
  obtain ⟨before, after, rfl, -⟩ := h
  simp

theorem LetIn.concat {steps : List LiveStep} {session : Nat} (h : LetIn steps session)
    (step : LiveStep) : LetIn (steps ++ [step]) session := by
  obtain ⟨before, after, rfl, hbefore⟩ := h
  exact ⟨before, after ++ [step], by simp, hbefore⟩

/-- Whoever came is superseded by the next to come, and by a shutdown. -/
theorem superseded_concat {steps : List LiveStep} {session : Nat} (h : LetIn steps session)
    {step : LiveStep} (hstep : step = .shutdown ∨ ∃ other answer, step = .attach other answer) :
    Superseded (steps ++ [step]) session := by
  obtain ⟨before, after, rfl, -⟩ := h
  refine ⟨true, before, after ++ [step], by simp, ?_⟩
  rcases hstep with rfl | ⟨other, answer, rfl⟩
  · exact Or.inl (by simp)
  · exact Or.inr ⟨other, answer, by simp⟩

theorem superseded_concat_of_ne {steps : List LiveStep} {session : Nat} {step : LiveStep}
    (hattach : ∀ other answer, step ≠ .attach other answer) (hshutdown : step ≠ .shutdown) :
    Superseded (steps ++ [step]) session ↔ Superseded steps session := by
  simp only [Superseded, exists_split_concat]
  simp [hattach, Ne.symm (hattach _ _), Ne.symm hshutdown]

theorem not_superseded_concat_attach {steps : List LiveStep} {session : Nat}
    (h : ∀ accepts, .attach session accepts ∉ steps) (accepts : Bool) :
    ¬ Superseded (steps ++ [.attach session accepts]) session := by
  simp only [Superseded, exists_split_concat]
  rintro ⟨answer, ⟨-, hempty⟩ | ⟨before, after, rfl, -⟩⟩
  · simp at hempty
  · exact h answer (by simp)

/-- What a run keeps: a session with work to do was let in, and it is the client as long as it was
not superseded. -/
structure Supervised (steps : List LiveStep) (l : LiveBridge) : Prop where
  quiet : ∀ session, (l.sessions session).Quiet
  letIn : ∀ session, (l.sessions session).Engaged → LetIn steps session
  client : ∀ session, (l.sessions session).Engaged →
    (l.bridge.client = some session ↔ ¬ Superseded steps session)
  unshut : .shutdown ∉ steps → l.bridge.closed = false ∧ l.bridge.stopped = false
  shut : .shutdown ∈ steps → l.bridge.Shut

theorem supervised_nil : Supervised [] {} where
  quiet _ hclosed := by cases hclosed
  letIn _ h := by simp [Engaged] at h
  client _ h := by simp [Engaged] at h
  unshut _ := ⟨rfl, rfl⟩
  shut h := by cases h

variable {steps : List LiveStep}

/-- A step that neither brings a session nor shuts the bridge down, engages nobody and keeps the
slot for those engaged. -/
theorem Supervised.concat_of_ne (h : Supervised steps l) {step : LiveStep} {l' : LiveBridge}
    (hattach : ∀ other answer, step ≠ .attach other answer) (hshutdown : step ≠ .shutdown)
    (hquiet : ∀ i, (l'.sessions i).Quiet)
    (hengaged : ∀ i, (l'.sessions i).Engaged → (l.sessions i).Engaged)
    (hclient : ∀ i, (l'.sessions i).Engaged →
      (l'.bridge.client = some i ↔ l.bridge.client = some i))
    (hflags : l'.bridge.closed = l.bridge.closed ∧ l'.bridge.stopped = l.bridge.stopped)
    (hshut : l.bridge.Shut → l'.bridge.Shut) : Supervised (steps ++ [step]) l' where
  quiet := hquiet
  letIn i hi := (h.letIn i (hengaged i hi)).concat step
  client i hi := by
    rw [superseded_concat_of_ne hattach hshutdown, hclient i hi]
    exact h.client i (hengaged i hi)
  unshut hmem := by
    rw [hflags.1, hflags.2]
    exact h.unshut fun hold => hmem (List.mem_append_left _ hold)
  shut hmem := by
    rcases List.mem_append.1 hmem with hold | hlast
    · exact hshut (h.shut hold)
    · exact absurd (List.mem_singleton.1 hlast).symm hshutdown

theorem Supervised.operate_apart (h : Supervised steps l) {step : LiveStep} (act : BridgeStep)
    (hattach : ∀ other answer, step ≠ .attach other answer) (hshutdown : step ≠ .shutdown)
    (hact : act.Apart) : Supervised (steps ++ [step]) (l.operate (·.apply act)).1 := by
  have hbridge := bridge_operate l (·.apply act)
  have hfollow : ∀ i, .follow i ∉ (l.bridge.apply act).2 :=
    fun i hi => hact.ne.1 i true (Bridge.follow_mem_apply act hi).1
  refine h.concat_of_ne hattach hshutdown (fun i => quiet_performAll (h.quiet i))
    (fun i hi => engaged_of_operate (hfollow i) hi) ?_ ?_ ?_
  · intro i _
    rw [hbridge, (Bridge.apply_apart _ hact).1]
  · rw [hbridge, (Bridge.apply_apart _ hact).1]
    exact ⟨rfl, rfl⟩
  · intro hshut
    rw [hbridge]
    exact (hshut.apply act).1

/-- The report of a session that is over clears the slot of nobody who is engaged. -/
theorem Supervised.watch (h : Supervised steps l) (session : Nat) :
    Supervised (steps ++ [.watch session]) (l.apply (.watch session)).1 := by
  simp only [LiveBridge.apply]
  split
  · next hclosed =>
    have hbridge := bridge_operate l (Bridge.detach session)
    have hfollow : ∀ i, .follow i ∉ (l.bridge.detach session).2 := fun i hi => by
      have := (Bridge.follow_mem_apply (.detach session) hi).1
      cases this
    have hengaged : ∀ i, ((l.operate (Bridge.detach session)).1.sessions i).Engaged →
        (l.sessions i).Engaged := fun i hi => engaged_of_operate (hfollow i) hi
    refine h.concat_of_ne (by simp) (by simp) (fun i => quiet_performAll (h.quiet i)) hengaged
      ?_ ?_ ?_
    · intro i hi
      have hi : i ≠ session := by
        rintro rfl
        exact (hengaged i hi).1 hclosed
      rw [hbridge, Bridge.client_detach]
      split
      · next hclient => simp [hclient, Ne.symm hi]
      · rfl
    · rw [hbridge]
      exact Bridge.flags_apply l.bridge (.detach session) (by simp)
    · intro hshut
      rw [hbridge]
      exact (hshut.apply (.detach session)).1
  · exact h.concat_of_ne (by simp) (by simp) h.quiet (fun _ hi => hi) (fun _ _ => Iff.rfl)
      ⟨rfl, rfl⟩ id

/-- A step inside a session, apart from an installation, is none of the bridge's business. -/
theorem Supervised.update (h : Supervised steps l) (session : Nat) (step : SessionStep Unit)
    (hstep : step ≠ .setOnRead ()) :
    Supervised steps (l.update session fun s => (s.apply step).1) := by
  have hengaged : ∀ i, ((l.update session fun s => (s.apply step).1).sessions i).Engaged →
      (l.sessions i).Engaged := by
    intro i hi
    rw [sessions_update] at hi
    split at hi
    · exact engaged_of_apply (h.quiet i) (fun _ => hstep) hi
    · exact hi
  refine ⟨fun i => ?_, fun i hi => h.letIn i (hengaged i hi),
    fun i hi => h.client i (hengaged i hi), h.unshut, h.shut⟩
  rw [sessions_update]
  split
  · exact (h.quiet i).apply step
  · exact h.quiet i

/-- A step that does nothing. -/
theorem Supervised.idle (h : Supervised steps l) {step : LiveStep}
    (hattach : ∀ other answer, step ≠ .attach other answer) (hshutdown : step ≠ .shutdown) :
    Supervised (steps ++ [step]) l :=
  h.concat_of_ne hattach hshutdown h.quiet (fun _ hi => hi) (fun _ _ => Iff.rfl) ⟨rfl, rfl⟩ id

theorem Supervised.route (h : Supervised steps l) (session : Nat) :
    Supervised (steps ++ [.route session]) (l.apply (.route session)).1 := by
  simp only [LiveBridge.apply]
  split
  · exact h.idle (by simp) (by simp)
  · next text _ =>
    -- the bridge routes first, then the callback returns
    have hroute : Supervised (steps ++ [.route session]) _ :=
      h.operate_apart (.route session text) (by simp) (by simp) trivial
    exact hroute.update session .callbackDone (by simp)

theorem Supervised.record (h : Supervised steps l) (url source : String) :
    Supervised (steps ++ [.record url source]) (l.apply (.record url source)).1 :=
  h.concat_of_ne (by simp) (by simp) h.quiet (fun _ hi => hi) (fun _ _ => Iff.rfl) ⟨rfl, rfl⟩
    fun hshut => ⟨hshut.client, hshut.closed, hshut.stopped⟩

theorem Supervised.shutdown (h : Supervised steps l) :
    Supervised (steps ++ [.shutdown]) (l.apply .shutdown).1 := by
  have hbridge := bridge_operate l Bridge.shutdown
  have hengaged : ∀ i, ((l.apply .shutdown).1.sessions i).Engaged → (l.sessions i).Engaged :=
    fun i => engaged_of_operate fun hi => by
      have := (Bridge.follow_mem_apply .shutdown hi).1
      cases this
  have hshut : (l.apply .shutdown).1.bridge.Shut := by
    refine hbridge ▸ ?_
    by_cases hmem : .shutdown ∈ steps
    · exact ((h.shut hmem).apply .shutdown).1
    · exact Bridge.shut_shutdown (h.unshut hmem).2
  refine ⟨fun i => quiet_performAll (h.quiet i), fun i hi => (h.letIn i (hengaged i hi)).concat _,
    fun i hi => ?_, fun hmem => absurd (by simp) hmem, fun _ => hshut⟩
  rw [hshut.client]
  exact iff_of_false (by simp)
    (not_not_intro (superseded_concat (h.letIn i (hengaged i hi)) (Or.inl rfl)))

/-- Whoever is engaged after an attach was engaged before and is another, or was let in just now. -/
theorem Supervised.engaged_attach (h : Supervised steps l) {session : Nat} {accepts : Bool}
    (hnew : ∀ answer, .attach session answer ∉ steps) {i : Nat}
    (hi : ((l.apply (.attach session accepts)).1.sessions i).Engaged) :
    ((l.sessions i).Engaged ∧ i ≠ session) ∨
      (i = session ∧ accepts = true ∧ l.bridge.closed = false) := by
  by_cases hfollow : .follow i ∈ (l.bridge.attach session accepts).2
  · obtain ⟨hstep, hclosed⟩ := Bridge.follow_mem_apply (.attach session accepts) hfollow
    cases hstep
    exact Or.inr ⟨rfl, rfl, hclosed⟩
  · have hold := engaged_of_operate hfollow hi
    refine Or.inl ⟨hold, ?_⟩
    rintro rfl
    exact hnew true (h.letIn _ hold).mem

theorem Supervised.not_shutdown_mem (h : Supervised steps l) (hclosed : l.bridge.closed = false) :
    .shutdown ∉ steps := by
  intro hmem
  rw [(h.shut hmem).closed] at hclosed
  cases hclosed

/-- An attach takes the slot from everyone who is engaged. -/
theorem Supervised.client_attach_ne (h : Supervised steps l) {session i : Nat} {accepts : Bool}
    (hi : i ≠ session) : (l.bridge.attach session accepts).1.client ≠ some i := by
  rw [Bridge.client_attach]
  cases hclosed : l.bridge.closed with
  | true =>
    have hmem : .shutdown ∈ steps := by
      by_contra hmem
      rw [(h.unshut hmem).1] at hclosed
      cases hclosed
    simp [(h.shut hmem).client]
  | false => cases accepts <;> simp [Ne.symm hi]

/-- A session that comes for the first time. -/
theorem Supervised.attach (h : Supervised steps l) {session : Nat} {accepts : Bool}
    (hnew : ∀ answer, .attach session answer ∉ steps) :
    Supervised (steps ++ [.attach session accepts]) (l.apply (.attach session accepts)).1 := by
  have hbridge : (l.apply (.attach session accepts)).1.bridge =
      (l.bridge.attach session accepts).1 := bridge_operate ..
  refine ⟨fun i => quiet_performAll (h.quiet i), fun i hi => ?_, fun i hi => ?_, fun hmem => ?_,
    fun hmem => ?_⟩
  · rcases h.engaged_attach hnew hi with ⟨hold, -⟩ | ⟨rfl, rfl, hclosed⟩
    · exact (h.letIn i hold).concat _
    · exact ⟨steps, [], rfl, h.not_shutdown_mem hclosed⟩
  · rw [hbridge]
    rcases h.engaged_attach hnew hi with ⟨hold, hi⟩ | ⟨rfl, rfl, hclosed⟩
    · have hover : Superseded (steps ++ [.attach session accepts]) i :=
        superseded_concat (h.letIn i hold) (Or.inr ⟨session, accepts, rfl⟩)
      exact iff_of_false (h.client_attach_ne hi) (not_not_intro hover)
    · simp [Bridge.client_attach, hclosed, not_superseded_concat_attach hnew]
  · obtain ⟨hold, -⟩ := not_or.1 (mt List.mem_append.2 hmem)
    rw [hbridge]
    obtain ⟨hclosed, hstopped⟩ := Bridge.flags_apply l.bridge (.attach session accepts) (by simp)
    exact ⟨hclosed.trans (h.unshut hold).1, hstopped.trans (h.unshut hold).2⟩
  · have hold : .shutdown ∈ steps := by simpa using hmem
    rw [hbridge]
    exact ((h.shut hold).apply (.attach session accepts)).1

/-- The steps of a run in which each session comes to the bridge once and only the bridge installs
callbacks. -/
structure Orderly (steps : List LiveStep) : Prop where
  once : (steps.filterMap LiveStep.attached?).Nodup
  installs : ∀ session, .inside session (.setOnRead ()) ∉ steps

theorem Orderly.of_append {first rest : List LiveStep} (h : Orderly (first ++ rest)) :
    Orderly first where
  once := (List.nodup_append.1 (by simpa using h.once)).1
  installs session hmem := h.installs session (List.mem_append_left _ hmem)

theorem Orderly.not_attached {session : Nat} {accepts : Bool}
    (h : Orderly (steps ++ [.attach session accepts])) (answer : Bool) :
    .attach session answer ∉ steps := by
  intro hmem
  have honce := h.once
  rw [List.filterMap_append] at honce
  refine (List.nodup_append.1 honce).2.2 session ?_ session ?_ rfl
  · exact List.mem_filterMap.2 ⟨_, hmem, rfl⟩
  · simp [LiveStep.attached?]

theorem supervised_run (h : Orderly steps) :
    Supervised steps (({} : LiveBridge).run steps).1 := by
  induction steps using List.reverseRecOn with
  | nil => exact supervised_nil
  | append_singleton steps step ih =>
    have hrun := ih h.of_append
    rw [run_concat]
    cases step with
    | attach session accepts => exact hrun.attach h.not_attached
    | watch session => exact hrun.watch session
    | shutdown => exact hrun.shutdown
    | inside session step =>
      refine (hrun.idle (by simp) (by simp)).update session step ?_
      rintro rfl
      exact h.installs session (by simp)
    | route session => exact hrun.route session
    | relay session message =>
      exact hrun.operate_apart (.relay session message) (by simp) (by simp) trivial
    | nativeDetached session =>
      exact hrun.operate_apart (.nativeDetached session) (by simp) (by simp) trivial
    | record url source => exact hrun.record url source

theorem forwarded_apply (l : LiveBridge) (step : LiveStep) :
    forwarded (l.apply step).2 = [] ∨ ∃ session text, step = .route session ∧
      (l.sessions session).running = some ((), text) ∧ Forwardable text ∧
        forwarded (l.apply step).2 = [text] := by
  cases step with
  | attach session accepts =>
    exact Or.inl (l.bridge.forwarded_apply (.attach session accepts) (by simp))
  | watch session =>
    simp only [LiveBridge.apply]
    split
    · exact Or.inl (l.bridge.forwarded_apply (.detach session) (by simp))
    · exact Or.inl rfl
  | shutdown => exact Or.inl (l.bridge.forwarded_apply .shutdown (by simp))
  | inside session step => exact Or.inl rfl
  | route session =>
    simp only [LiveBridge.apply]
    split
    · exact Or.inl rfl
    · next callback text hrun =>
      rcases l.bridge.forwarded_route session text with ⟨hforward, hsent⟩ | ⟨-, hsent⟩
      · exact Or.inr ⟨session, text, rfl, hrun, hforward, hsent⟩
      · exact Or.inl hsent
  | relay session message =>
    exact Or.inl (l.bridge.forwarded_apply (.relay session message) (by simp))
  | nativeDetached session =>
    exact Or.inl (l.bridge.forwarded_apply (.nativeDetached session) (by simp))
  | record url source => exact Or.inl rfl

/-- Whatever reaches the native debugger in a run comes from the session that is the client at that
moment. -/
def ClientAloneDrives (steps : List LiveStep) : Prop :=
  ∀ before step after, steps = before ++ step :: after →
    ∀ message ∈ forwarded ((({} : LiveBridge).run before).1.apply step).2,
      ∃ session, step = .route session ∧
        (({} : LiveBridge).run before).1.bridge.client = some session

/-- A frame that runs on a session is forwarded whoever the client is. -/
theorem forwarded_route_of_running {session : Nat} {text : String}
    (hrun : (l.sessions session).running = some ((), text)) (hforward : Forwardable text) :
    forwarded (l.apply (.route session)).2 = [text] := by
  simp only [LiveBridge.apply, hrun]
  rcases l.bridge.forwarded_route session text with ⟨-, hsent⟩ | ⟨hnot, -⟩
  · exact hsent
  · exact absurd hforward hnot

/-- A session with a frame running is the client exactly if it was not superseded. -/
theorem client_of_running (h : Orderly steps) {session : Nat} {text : String}
    (hrun : ((({} : LiveBridge).run steps).1.sessions session).running = some ((), text)) :
    (({} : LiveBridge).run steps).1.bridge.client = some session ↔
      ¬ Superseded steps session := by
  have hsupervised := supervised_run h
  have hrunning : ((({} : LiveBridge).run steps).1.sessions session).running ≠ none := by
    simp [hrun]
  exact hsupervised.client session
    ⟨(hsupervised.quiet session).not_closed_of_running hrunning, Or.inr hrunning⟩

/-- The client alone drives the native debugger exactly in the runs where no superseded session has
a forwardable frame routed. -/
theorem clientAloneDrives_iff (h : Orderly steps) :
    ClientAloneDrives steps ↔
      ∀ before session after text, steps = before ++ .route session :: after →
        ((({} : LiveBridge).run before).1.sessions session).running = some ((), text) →
          Forwardable text → ¬ Superseded before session := by
  constructor
  · intro halone before session after text hsteps hrun hforward
    obtain ⟨other, hother, hheld⟩ := halone before _ after hsteps text
      (by simp [forwarded_route_of_running hrun hforward])
    cases hother
    exact (client_of_running (hsteps ▸ h).of_append hrun).1 hheld
  · intro hprompt before step after hsteps message hmessage
    rcases forwarded_apply (({} : LiveBridge).run before).1 step with
      hnone | ⟨session, text, rfl, hrun, hforward, -⟩
    · simp [hnone] at hmessage
    · exact ⟨session, rfl, (client_of_running (hsteps ▸ h).of_append hrun).2
        (hprompt before session after text hsteps hrun hforward)⟩

def pauseRequest : String := "\x7b\"method\":\"Debugger.pause\"\x7d"

theorem forwardable_pauseRequest : Forwardable pauseRequest := ⟨"Debugger.pause", rfl⟩

/-- A session starts to be driven and gets a request to its callback. -/
def asks : List LiveStep :=
  [.inside 0 .start, .inside 0 (.receive (.text pauseRequest)), .inside 0 .dispatch]

/-- A client that is replaced only once its request was routed. -/
theorem prompt_client_alone_drives :
    Orderly ((.attach 0 true :: asks) ++ .route 0 :: [.attach 1 true]) ∧
      ClientAloneDrives ((.attach 0 true :: asks) ++ .route 0 :: [.attach 1 true]) := by
  have horderly : Orderly ((.attach 0 true :: asks) ++ .route 0 :: [.attach 1 true]) :=
    ⟨by decide, by simp [asks]⟩
  refine ⟨horderly, (clientAloneDrives_iff horderly).2 ?_⟩
  rintro before session after text hsteps - - ⟨accepts, first, last, hbefore, hlater⟩
  obtain ⟨rfl, -, -⟩ :=
    (List.append_cons_inj_of_notMem (by simp [asks]) (by simp)).1 hsteps
  have hbefore : [] ++ .attach 0 true :: asks = first ++ .attach session accepts :: last :=
    hbefore
  obtain ⟨-, -, rfl⟩ :=
    (List.append_cons_inj_of_notMem (by simp) (by simp [asks])).1 hbefore
  simp [asks] at hlater

/-- A client is replaced or the bridge is shut down, and only then its request arrives. -/
def late (takeover : LiveStep) : List LiveStep :=
  [.attach 0 true, .inside 0 .start, takeover, .inside 0 (.receive (.text pauseRequest)),
    .inside 0 .dispatch]

theorem not_clientAloneDrives_of_late {session : Nat} {text : String}
    (hrun : ((({} : LiveBridge).run steps).1.sessions session).running = some ((), text))
    (hforward : Forwardable text)
    (hclient : (({} : LiveBridge).run steps).1.bridge.client ≠ some session) :
    ¬ ClientAloneDrives (steps ++ [.route session]) := by
  intro halone
  have hsent : text ∈ forwarded ((({} : LiveBridge).run steps).1.apply (.route session)).2 := by
    rw [forwarded_route_of_running hrun hforward]
    exact List.mem_singleton_self text
  obtain ⟨other, hother, hheld⟩ := halone steps _ [] rfl text hsent
  cases hother
  exact hclient hheld

/-- What a replaced client and a client of a bridge that was shut down ask for still reaches the
native debugger. -/
theorem late_frame_reaches_debugger :
    (Orderly (late (.attach 1 true) ++ [.route 0]) ∧
      (({} : LiveBridge).run (late (.attach 1 true))).1.bridge.client = some 1 ∧
      forwarded ((({} : LiveBridge).run (late (.attach 1 true))).1.apply (.route 0)).2 =
        [pauseRequest] ∧
      ¬ ClientAloneDrives (late (.attach 1 true) ++ [.route 0])) ∧
    (Orderly (late .shutdown ++ [.route 0]) ∧
      (({} : LiveBridge).run (late .shutdown)).1.bridge.client = none ∧
      forwarded ((({} : LiveBridge).run (late .shutdown)).1.apply (.route 0)).2 =
        [pauseRequest] ∧
      ¬ ClientAloneDrives (late .shutdown ++ [.route 0])) := by
  have hreplaced : ((({} : LiveBridge).run (late (.attach 1 true))).1.sessions 0).running =
      some ((), pauseRequest) := rfl
  have hstopped : ((({} : LiveBridge).run (late .shutdown)).1.sessions 0).running =
      some ((), pauseRequest) := rfl
  refine ⟨⟨⟨by decide, by simp [late]⟩, rfl,
      forwarded_route_of_running hreplaced forwardable_pauseRequest, ?_⟩,
    ⟨⟨by decide, by simp [late]⟩, rfl,
      forwarded_route_of_running hstopped forwardable_pauseRequest, ?_⟩⟩
  · exact not_clientAloneDrives_of_late hreplaced forwardable_pauseRequest nofun
  · exact not_clientAloneDrives_of_late hstopped forwardable_pauseRequest nofun

end LiveBridge
end ScriptHost
