import ScriptHost.Proofs.Debugging.ClientFrames
import ScriptHost.Proofs.Debugging.LateFrames
import ScriptHost.Proofs.Session.Draining

/-! How a client leaves the bridge. The bridge hears of a session's end only when it is closed, and a
session is closed only when it is drained: so every frame of the client was routed before, and none
is routed later. -/

namespace ScriptHost
namespace LiveBridge

open Session

def insides (i : Nat) (steps : List LiveStep) : List (SessionStep Unit) :=
  steps.filterMap fun
    | .inside j step => if j = i then some step else none
    | _ => none

def routed? (i : Nat) (l : LiveBridge) : LiveStep → Option String
  | .route j => if j = i then (l.sessions i).running.map Prod.snd else none
  | _ => none

def routed (i : Nat) (l : LiveBridge) : List LiveStep → List String
  | [] => []
  | step :: rest => (l.routed? i step).toList ++ (l.apply step).1.routed i rest

/-- A client's connection is driven only once the bridge let the client in, and its callback is the
one that routes. -/
structure Hosted (steps : List LiveStep) (i : Nat) : Prop where
  letIn : ∀ before after, steps = before ++ .inside i .start :: after → LetIn before i
  returns : .inside i .callbackDone ∉ steps
  keeps : .inside i .clearOnRead ∉ steps

/-- Two sessions between which at most the callback that routes was installed. -/
structure MayFollow (s t : Session Unit) : Prop where
  reader : t.reader = s.reader
  writer : t.writer = s.writer
  inbox : t.inbox = s.inbox
  running : t.running = s.running
  closed : t.state = .closed ↔ s.state = .closed
  callback : t.callback = s.callback ∨ t.callback = some ()

theorem MayFollow.refl (s : Session Unit) : MayFollow s s :=
  ⟨rfl, rfl, rfl, rfl, Iff.rfl, Or.inl rfl⟩

theorem MayFollow.trans {s t u : Session Unit} (h : MayFollow s t) (h' : MayFollow t u) :
    MayFollow s u where
  reader := h'.reader.trans h.reader
  writer := h'.writer.trans h.writer
  inbox := h'.inbox.trans h.inbox
  running := h'.running.trans h.running
  closed := h'.closed.trans h.closed
  callback := by
    rcases h'.callback with hsame | hnew
    · rw [hsame]
      exact h.callback
    · exact Or.inr hnew

theorem MayFollow.of_same {s t : Session Unit} (h : SameInbound s t) (hwriter : t.writer = s.writer) :
    MayFollow s t :=
  ⟨h.reader, hwriter, h.inbox, h.running, h.closed, Or.inl h.callback⟩

variable {l : LiveBridge} {i : Nat} {steps : List LiveStep}

theorem mayFollow_update {f : Session Unit → Session Unit} {session : Nat}
    (h : ∀ s, MayFollow s (f s)) :
    MayFollow (l.sessions i) ((l.update session f).sessions i) := rel_update .refl fun _ => h _

theorem mayFollow_perform (l : LiveBridge) (i : Nat) (effect : Effect) :
    MayFollow (l.sessions i) ((l.perform effect).sessions i) := by
  cases effect with
  | write session message =>
    exact mayFollow_update fun s => .of_same (sameInbound_write message s) (writer_write message s)
  | close session =>
    exact mayFollow_update fun s => .of_same (sameInbound_close s) (writer_close s)
  | follow session => exact mayFollow_update fun s => ⟨rfl, rfl, rfl, rfl, Iff.rfl, Or.inr rfl⟩
  | native call => exact .refl _
  | report event => exact .refl _

theorem mayFollow_operate (l : LiveBridge) (i : Nat) (f : Bridge → Bridge × List Effect) :
    MayFollow (l.sessions i) ((l.operate f).1.sessions i) :=
  rel_performAll (l := { l with bridge := (f l.bridge).1 }) .refl .trans
    fun effect _ l => mayFollow_perform l i effect

/-- Unless its callback returns, all that the bridge does to a session is to follow it. -/
theorem mayFollow_apply (l : LiveBridge) {step : LiveStep}
    (hinside : ∀ inner, step ≠ .inside i inner)
    (hroute : ¬ (step = .route i ∧ (l.sessions i).running ≠ none)) :
    MayFollow (l.sessions i) ((l.apply step).1.sessions i) := by
  cases step with
  | attach session accepts => exact mayFollow_operate ..
  | watch session =>
    simp only [LiveBridge.apply]
    split
    · exact mayFollow_operate ..
    · exact .refl _
  | shutdown => exact mayFollow_operate ..
  | inside session inner =>
    have hi : i ≠ session := fun hi => hinside inner (hi ▸ rfl)
    simp only [LiveBridge.apply, sessions_update, if_neg hi]
    exact .refl _
  | route session =>
    simp only [LiveBridge.apply]
    split
    · exact .refl _
    · next text hrun =>
      have hi : i ≠ session := by
        rintro rfl
        exact hroute ⟨rfl, by simp [hrun]⟩
      rw [sessions_update, if_neg hi]
      exact mayFollow_operate ..
  | relay session message => exact mayFollow_operate ..
  | nativeDetached session => exact mayFollow_operate ..
  | record url source => exact .refl _

/-- The callback returns and nothing else happens on the session. -/
theorem sessions_route {callback : Unit} {text : String}
    (h : (l.sessions i).running = some (callback, text)) :
    ∃ t, MayFollow (l.sessions i) t ∧ (l.apply (.route i)).1.sessions i = t.callbackDone := by
  refine ⟨_, mayFollow_operate l i fun b => (b, b.route i text), ?_⟩
  simp only [LiveBridge.apply, h, sessions_update, if_true]

theorem closed_flag_apply (l : LiveBridge) {step : LiveStep} (h : step ≠ .shutdown) :
    (l.apply step).1.bridge.closed = l.bridge.closed := by
  have hbridge (act : BridgeStep) (hact : act ≠ .shutdown) :
      (l.operate (·.apply act)).1.bridge.closed = l.bridge.closed := by
    rw [bridge_operate]
    exact (Bridge.flags_apply l.bridge act hact).1
  cases step with
  | attach session accepts => exact hbridge (.attach session accepts) (by simp)
  | watch session =>
    simp only [LiveBridge.apply]
    split
    · exact hbridge (.detach session) (by simp)
    · rfl
  | shutdown => exact absurd rfl h
  | inside session inner => rfl
  | route session =>
    simp only [LiveBridge.apply]
    split
    · rfl
    · next text _ => exact hbridge (.route session text) (by simp)
  | relay session message => exact hbridge (.relay session message) (by simp)
  | nativeDetached session => exact hbridge (.nativeDetached session) (by simp)
  | record url source => rfl

/-- A client that is let in is followed. -/
theorem callback_attach (h : l.bridge.closed = false) :
    ((l.apply (.attach i true)).1.sessions i).callback = some () := by
  obtain ⟨effects, heffects⟩ :
      ∃ effects, (l.bridge.attach i true).2 = effects ++ [.follow i] := by
    simp only [Bridge.attach, h, Bool.false_eq_true, if_false, if_true]
    exact ⟨_, rfl⟩
  simp only [LiveBridge.apply, LiveBridge.operate, heffects, performAll, List.foldl_append]
  simp [perform, sessions_update, Session.setOnRead]

theorem letIn_concat_iff {step : LiveStep} :
    LetIn (steps ++ [step]) i ↔ LetIn steps i ∨ (step = .attach i true ∧ .shutdown ∉ steps) := by
  unfold LetIn
  rw [exists_place_concat, or_comm]

/-- Until it is shut down a bridge is not closed. -/
theorem closed_flag_run (h : .shutdown ∉ steps) :
    (({} : LiveBridge).run steps).1.bridge.closed = false := by
  induction steps using List.reverseRecOn with
  | nil => rfl
  | append_singleton steps step ih =>
    obtain ⟨hbefore, hstep⟩ := not_or.1 (mt List.mem_append.2 h)
    rw [run_concat, closed_flag_apply _ fun hshut => hstep (by simp [hshut])]
    exact ih hbefore

/-- What a run keeps of the session of a client, where `frames` were routed so far. -/
structure Attended (steps : List LiveStep) (frames : List String) (i : Nat) (s : Session Unit) :
    Prop where
  quiet : s.Quiet
  paired : s.Paired
  reader : s.reader = (({ role := .server } : Session Unit).run (insides i steps)).1.reader
  callback : LetIn steps i → s.state ≠ .closed → s.callback = some ()
  fresh : ¬ LetIn steps i → s.reader ≠ .running ∧ s.inbox = []
  /-- What came is routed, running or waiting; empty messages are dropped on the way. -/
  flow : frames ++ (s.running.map Prod.snd).toList ++ s.inbox.filter (· ≠ "") =
    (received (insides i steps)).filter (· ≠ "")

theorem attended_nil (i : Nat) : Attended [] [] i { role := .server } where
  quiet := quiet_new .server
  paired := paired_new .server
  reader := rfl
  callback h := by simp [LetIn] at h
  fresh _ := ⟨by simp, rfl⟩
  flow := rfl

theorem insides_concat (i : Nat) (steps : List LiveStep) {step : LiveStep}
    (h : ∀ inner, step ≠ .inside i inner) : insides i (steps ++ [step]) = insides i steps := by
  rw [insides, List.filterMap_append, ← insides]
  cases step with
  | inside session inner =>
    have hi : session ≠ i := fun hi => h inner (hi ▸ rfl)
    simp [hi]
  | _ => simp

theorem insides_concat_inside (i : Nat) (steps : List LiveStep) (inner : SessionStep Unit) :
    insides i (steps ++ [.inside i inner]) = insides i steps ++ [inner] := by
  simp [insides]

variable {frames : List String} {s t : Session Unit}

/-- Steps outside the session keep what there is; one that lets the client in also follows it. -/
theorem Attended.concat (h : Attended steps frames i s) (hsame : MayFollow s t) {step : LiveStep}
    (hinside : ∀ inner, step ≠ .inside i inner)
    (hletIn : step = .attach i true → .shutdown ∉ steps → t.callback = some ()) :
    Attended (steps ++ [step]) frames i t where
  quiet := by
    intro hclosed
    rw [hsame.reader, hsame.inbox, hsame.running]
    exact h.quiet (hsame.closed.1 hclosed)
  paired := by
    rw [Paired, hsame.reader, hsame.writer]
    exact h.paired
  reader := by
    rw [hsame.reader, insides_concat i steps hinside]
    exact h.reader
  callback := by
    intro hin hopen
    rcases letIn_concat_iff.1 hin with hbefore | ⟨hstep, hunshut⟩
    · rcases hsame.callback with hkept | hnew
      · rw [hkept]
        exact h.callback hbefore (mt hsame.closed.2 hopen)
      · exact hnew
    · exact hletIn hstep hunshut
  fresh := by
    intro hout
    rw [hsame.reader, hsame.inbox]
    exact h.fresh fun hin => hout (hin.concat step)
  flow := by
    rw [hsame.running, hsame.inbox, insides_concat i steps hinside]
    exact h.flow

/-- The frame whose callback returns counts as routed. -/
theorem Attended.returns (h : Attended steps frames i s) {callback : Unit} {text : String}
    (hrun : s.running = some (callback, text)) :
    Attended steps (frames ++ [text]) i s.callbackDone where
  quiet := fun hclosed => absurd hclosed (h.quiet.not_closed_of_running (by simp [hrun]))
  paired := h.paired
  reader := h.reader
  callback := h.callback
  fresh := h.fresh
  flow := by simpa [hrun, callbackDone] using h.flow

/-- A message waits only where a frame was read, and that takes a client that was let in. -/
theorem Attended.callback_of_turn (h : Attended steps frames i s) {inner : SessionStep Unit}
    {message : String} (hturn : s.turn? inner = some message) : s.callback = some () := by
  have hinbox : s.inbox ≠ [] := by
    intro hempty
    cases inner <;> simp [turn?, hempty] at hturn
  refine h.callback ?_ fun hclosed => hinbox (h.quiet hclosed).2.1
  by_contra hout
  exact hinbox (h.fresh hout).2

/-- A turn passes its message to the callback that routes, unless the message is empty. -/
theorem Attended.running_apply (h : Attended steps frames i s) {inner : SessionStep Unit}
    (hreturns : inner ≠ .callbackDone) :
    ((s.apply inner).1.running.map Prod.snd).toList =
      (s.running.map Prod.snd).toList ++ (s.turn? inner).toList.filter (· ≠ "") := by
  rw [Session.running_apply s hreturns]
  cases hturn : s.turn? inner with
  | none => simp
  | some message =>
    have hfree : s.running = none := by
      cases inner <;> simp [turn?] at hturn
      exact hturn.1
    by_cases hempty : message = "" <;>
      simp [hfree, handed, h.callback_of_turn hturn, hempty]

/-- A step inside the session of the client. -/
theorem Attended.inside (h : Attended steps frames i s) {inner : SessionStep Unit}
    (hstart : inner = .start → LetIn steps i) (hreturns : inner ≠ .callbackDone)
    (hkeeps : inner ≠ .clearOnRead) :
    Attended (steps ++ [.inside i inner]) frames i (s.apply inner).1 := by
  have hflow := inflow_apply h.paired inner
  have hletIn : LetIn (steps ++ [.inside i inner]) i ↔ LetIn steps i := by simp [letIn_concat_iff]
  constructor
  · exact h.quiet.apply inner
  · exact h.paired.apply inner
  · have hreader := (inflow_apply ((paired_new .server).run (insides i steps)) inner).reader
    rw [insides_concat_inside, Session.run_concat, hreader, hflow.reader, h.reader]
  · intro hin hopen
    obtain ⟨hstate, hcallback⟩ := hflow.callback hopen
    rw [hcallback, h.callback (hletIn.1 hin) hstate]
    cases inner <;> first | rfl | exact absurd rfl hkeeps
  · intro hout
    obtain ⟨hidle, hempty⟩ := h.fresh (mt hletIn.2 hout)
    refine fresh_apply h.paired hidle hempty ?_
    rintro rfl
    exact hout (hletIn.2 (hstart rfl))
  · have hcarried : (({ role := .server } : Session Unit).run (insides i steps)).1.carried? inner =
        s.carried? inner := by simp only [carried?, h.reader]
    have hinbox := congrArg (List.filter (· ≠ "")) hflow.inbox
    rw [List.filter_append, List.filter_append] at hinbox
    rw [insides_concat_inside, received_concat, hcarried, List.filter_append, ← h.flow,
      h.running_apply hreturns]
    simp only [List.append_assoc, hinbox]

theorem Hosted.of_append {first rest : List LiveStep} (h : Hosted (first ++ rest) i) :
    Hosted first i where
  letIn before after hsteps := h.letIn before (after ++ rest) (by simp [hsteps])
  returns hmem := h.returns (List.mem_append_left _ hmem)
  keeps hmem := h.keeps (List.mem_append_left _ hmem)

theorem routed_append (i : Nat) (l : LiveBridge) (first rest : List LiveStep) :
    l.routed i (first ++ rest) = l.routed i first ++ (l.run first).1.routed i rest := by
  induction first generalizing l with
  | nil => rfl
  | cons step first ih => simp only [List.cons_append, routed, run, ih, List.append_assoc]

/-- What one step does to what is routed and what is still to come. -/
theorem Attended.apply {l : LiveBridge} (h : Attended steps frames i (l.sessions i))
    (hclosed : .shutdown ∉ steps → l.bridge.closed = false) {step : LiveStep}
    (hhosted : Hosted (steps ++ [step]) i) :
    Attended (steps ++ [step]) (frames ++ (l.routed? i step).toList) i
      ((l.apply step).1.sessions i) := by
  by_cases hinside : ∃ inner, step = .inside i inner
  · obtain ⟨inner, rfl⟩ := hinside
    have hnext : (l.apply (.inside i inner)).1.sessions i = ((l.sessions i).apply inner).1 := by
      simp only [LiveBridge.apply, sessions_update, if_true]
    rw [hnext]
    simp only [routed?, Option.toList_none, List.append_nil]
    refine h.inside ?_ ?_ ?_
    · rintro rfl
      exact hhosted.letIn steps [] rfl
    · rintro rfl
      exact hhosted.returns (by simp)
    · rintro rfl
      exact hhosted.keeps (by simp)
  · have hinside (inner) : step ≠ .inside i inner := fun hstep => hinside ⟨inner, hstep⟩
    by_cases hroute : step = .route i ∧ (l.sessions i).running ≠ none
    · obtain ⟨rfl, hrun⟩ := hroute
      obtain ⟨⟨callback, text⟩, hrun⟩ := Option.ne_none_iff_exists'.1 hrun
      obtain ⟨t, hsame, hnext⟩ := sessions_route hrun
      have hafter : Attended (steps ++ [.route i]) frames i t := h.concat hsame (by simp) (by simp)
      rw [hnext]
      simpa [routed?, hrun] using hafter.returns (hsame.running.trans hrun)
    · have hnone : l.routed? i step = none := by
        cases step with
        | route session =>
          by_cases hsession : session = i
          · subst hsession
            simpa [routed?] using hroute
          · simp [routed?, hsession]
        | _ => rfl
      rw [hnone, Option.toList_none, List.append_nil]
      refine h.concat (mayFollow_apply l hinside hroute) hinside ?_
      rintro rfl hunshut
      exact callback_attach (hclosed hunshut)

theorem attended_run (h : Hosted steps i) :
    Attended steps (({} : LiveBridge).routed i steps) i
      ((({} : LiveBridge).run steps).1.sessions i) := by
  induction steps using List.reverseRecOn with
  | nil => exact attended_nil i
  | append_singleton steps step ih =>
    rw [run_concat, routed_append]
    simp only [routed, List.append_nil]
    exact (ih h.of_append).apply closed_flag_run h

structure RoutesBeforeDetaching (steps : List LiveStep) (i : Nat) : Prop where
  /-- When the end of the session is reported every frame of the client was routed, and none is
  routed any more. -/
  routed : ∀ before after, steps = before ++ .watch i :: after →
    ((({} : LiveBridge).run before).1.sessions i).state = .closed →
      ({} : LiveBridge).routed i before = (received (insides i steps)).filter (· ≠ "") ∧
      ({} : LiveBridge).routed i steps = ({} : LiveBridge).routed i before
  /-- To route a frame is to forward it, to answer it or to report it and drop it. -/
  handled : ∀ before after callback text, steps = before ++ .route i :: after →
    ((({} : LiveBridge).run before).1.sessions i).running = some (callback, text) →
      nativeCalls ((({} : LiveBridge).run before).1.apply (.route i)).2 =
        (if isForwarded text then [.send text] else []) ∧
      replies ((({} : LiveBridge).run before).1.apply (.route i)).2 =
        ((fetched? text).map fun fetch =>
          (i, (({} : LiveBridge).run before).1.bridge.reply fetch.1 fetch.2)).toList ∧
      (isForwarded text = false → fetched? text = none →
        ∃ event, ((({} : LiveBridge).run before).1.apply (.route i)).2 = [.report event])

theorem effects_route {l : LiveBridge} {callback : Unit} {text : String}
    (h : (l.sessions i).running = some (callback, text)) :
    (l.apply (.route i)).2 = l.bridge.route i text := by
  simp only [LiveBridge.apply, h]
  rfl

theorem insides_append (i : Nat) (first rest : List LiveStep) :
    insides i (first ++ rest) = insides i first ++ insides i rest := List.filterMap_append

/-- A session that is closed has had its frames routed, all that it ever gets. -/
theorem routed_of_closed {before after : List LiveStep} (h : Hosted (before ++ after) i)
    (hclosed : ((({} : LiveBridge).run before).1.sessions i).state = .closed) :
    ({} : LiveBridge).routed i before = (received (insides i (before ++ after))).filter (· ≠ "") ∧
      ({} : LiveBridge).routed i (before ++ after) = ({} : LiveBridge).routed i before := by
  have hbefore := attended_run h.of_append
  obtain ⟨hreader, hinbox, hrun⟩ := hbefore.quiet hclosed
  have hreceived : received (insides i (before ++ after)) = received (insides i before) := by
    rw [insides_append]
    exact received_append_of_ended (hbefore.reader.symm.trans hreader) _
  have hall : ({} : LiveBridge).routed i before = (received (insides i before)).filter (· ≠ "") := by
    simpa [hinbox, hrun] using hbefore.flow
  have hlater := (attended_run h).flow
  -- what is routed in the whole run cannot be more than what was received
  rw [hreceived, ← hall, routed_append, List.append_assoc, List.append_assoc,
    List.append_right_eq_self] at hlater
  rw [hreceived, routed_append, (List.append_eq_nil_iff.1 hlater).1, List.append_nil]
  exact ⟨hall, rfl⟩

theorem routes_before_detaching (h : Hosted steps i) : RoutesBeforeDetaching steps i where
  routed before after hsteps hclosed := by
    subst hsteps
    exact routed_of_closed h hclosed
  handled before after callback text _ hrun := by
    rw [effects_route hrun]
    refine ⟨Bridge.nativeCalls_route .., Bridge.replies_route .., fun hforward hfetch => ?_⟩
    exact Bridge.route_of_neither _ hforward hfetch i

/-- Sessions are drained before they are closed, and so are clients before the bridge hears that
they are gone. -/
theorem drained_before_forgotten (role : SessionRole) (inner : List (SessionStep κ))
    (h : Hosted steps i) : DrainsBeforeClosing role inner ∧ RoutesBeforeDetaching steps i :=
  ⟨drains_before_closing role inner, routes_before_detaching h⟩

/-- A client sends two frames and disconnects while the first is running; its end is reported too
early once, and again in time. -/
def departing : List LiveStep :=
  [.attach 0 true, .inside 0 .start, .inside 0 (.receive (.text pauseRequest)),
    .inside 0 .dispatch, .inside 0 (.receive (.text "last")), .inside 0 (.receive .close),
    .inside 0 .windUp, .inside 0 (.commit 0), .inside 0 (.batch 64), .inside 0 .finish, .watch 0,
    .route 0, .inside 0 .dispatch, .route 0, .inside 0 .finish, .watch 0]

theorem departing_drained :
    Hosted departing 0 ∧
      (DrainsBeforeClosing .server (insides 0 departing) ∧ RoutesBeforeDetaching departing 0) ∧
      ((({} : LiveBridge).run departing.dropLast).1.sessions 0).state = .closed ∧
      ({} : LiveBridge).routed 0 departing = [pauseRequest, "last"] := by
  have hhosted : Hosted departing 0 := by
    refine ⟨fun before after hsteps => ?_, by simp [departing], by simp [departing]⟩
    cases before with
    | nil => cases hsteps
    | cons first rest =>
      obtain ⟨rfl, -⟩ := List.cons.inj hsteps
      exact ⟨[], rest, rfl, by simp⟩
  exact ⟨hhosted, drained_before_forgotten .server _ hhosted, rfl, rfl⟩

end LiveBridge
end ScriptHost
