import ScriptHost.Proofs.Session.Inbound

/-! What a session hands to its callbacks. Messages that arrive wait in the inbox; every turn of the
dispatcher takes the first of them and hands it to the callback that is installed at that moment.
Receiving, dispatching and installing may interleave in any way. -/

namespace ScriptHost

def Frame.message? : Frame → Option String
  | .text message => some message
  | .binary payload => textOf? payload
  | _ => none

/-- No frame is taken behind this one. -/
def Frame.ends : Frame → Bool
  | .close => true
  | .failure => true
  | _ => false

namespace SessionStep

def frame? : SessionStep κ → Option Frame
  | .receive frame => some frame
  | _ => none

/-- The callback that is installed behind a step, by the one in front of it. -/
def installs (k : Option κ) : SessionStep κ → Option κ
  | .setOnRead k => some k
  | .clearOnRead => none
  | _ => k

def reader (half : Half) : SessionStep κ → Half
  | .start => if half = .idle then .running else half
  | .abandon => if half = .idle then .ended else half
  | .receive frame => if half = .running ∧ frame.ends then .ended else half
  | _ => half

end SessionStep

def Note.delivery? : Note κ → Option (κ × String)
  | .delivered k message => some (k, message)
  | .dropped _ => none

/-- What becomes of a message when its turn comes, by the callback that is installed then. -/
def Note.ofTurn (turn : String × Option κ) : Note κ :=
  if turn.1 = "" then .dropped .empty
  else
    match turn.2 with
    | none => .dropped .noCallback
    | some k => .delivered k turn.1

/-- A payload that is no text never has a turn. -/
def Note.isTurn : Note κ → Bool
  | .dropped .notUtf8 => false
  | _ => true

theorem Note.isTurn_ofTurn (turn : String × Option κ) : (ofTurn turn).isTurn = true := by
  unfold ofTurn
  split
  · rfl
  · split <;> rfl

def deliveries (notes : List (Note κ)) : List (κ × String) := notes.filterMap Note.delivery?

namespace Session

/-- The steps since the connection is driven; none if it was given up before. -/
def driven : List (SessionStep κ) → List (SessionStep κ)
  | [] => []
  | .start :: rest => rest
  | .abandon :: _ => []
  | _ :: rest => driven rest

/-- The messages of the frames that a stream has, up to the one that ends it. -/
def messages (steps : List (SessionStep κ)) : List String :=
  ((steps.filterMap SessionStep.frame?).takeWhile (!·.ends)).filterMap Frame.message?

def received (steps : List (SessionStep κ)) : List String := messages (driven steps)

def turn? (s : Session κ) : SessionStep κ → Option String
  | .dispatch => if s.running.isNone then s.inbox.head? else none
  | _ => none

/-- All turns of a run in order, each with the callback that is installed when it comes. -/
def turns (s : Session κ) (k : Option κ) : List (SessionStep κ) → List (String × Option κ)
  | [] => []
  | step :: rest =>
    ((s.turn? step).map (·, k)).toList ++ (s.apply step).1.turns (step.installs k) rest

def handed (turn : String × Option κ) : Option (κ × String) :=
  if turn.1 = "" then none else turn.2.map (·, turn.1)

/-- The running callback returns and the dispatcher has a turn, so many times. -/
def rounds : Nat → List (SessionStep κ)
  | 0 => []
  | n + 1 => .callbackDone :: .dispatch :: rounds n

def carried? (s : Session κ) (step : SessionStep κ) : Option String :=
  if s.reader = .running then step.frame?.bind Frame.message? else none

def carried (s : Session κ) : List (SessionStep κ) → List String
  | [] => []
  | step :: rest => (s.carried? step).toList ++ (s.apply step).1.carried rest

/-- The two directions are driven or given up together. -/
def Paired (s : Session κ) : Prop := s.reader = .idle ↔ s.writer = .idle

structure Inflow (s : Session κ) (step : SessionStep κ) (t : Session κ) : Prop where
  /-- The turn takes from the front of the inbox, and what arrives is put at its end. -/
  inbox : (s.turn? step).toList ++ t.inbox = s.inbox ++ (s.carried? step).toList
  reader : t.reader = step.reader s.reader
  callback : t.state ≠ .closed → s.state ≠ .closed ∧ t.callback = step.installs s.callback

variable {s t : Session κ} {k : Option κ} {step : SessionStep κ}

section Turns

theorem dispatch_of_no_turn (h : s.turn? .dispatch = none) : s.dispatch = (s, []) := by
  unfold dispatch
  split
  · next message rest hrun hinbox => simp [turn?, hrun, hinbox] at h
  · rfl

/-- A turn in full: the message leaves the inbox and runs the callback, if it is handed to one. -/
theorem dispatch_of_turn {message : String} (h : s.turn? .dispatch = some message) :
    ∃ rest, s.inbox = message :: rest ∧
      s.dispatch.1 = { s with inbox := rest, running := handed (message, s.callback) } ∧
      s.dispatch.2 = [.ofTurn (message, s.callback)] := by
  obtain ⟨hrun, rest, hinbox⟩ : s.running = none ∧ ∃ rest, s.inbox = message :: rest := by
    simpa [turn?, List.head?_eq_some_iff] using h
  refine ⟨rest, hinbox, ?_⟩
  simp only [dispatch, hrun, hinbox, handed, Note.ofTurn]
  by_cases hempty : message = ""
  · simp [hempty]
  · cases hk : s.callback with
    | none => simp [hempty]
    | some k => simp [hempty]

/-- A turn is told, and nothing else is but payloads that are no text. -/
theorem turnNotes_apply (s : Session κ) (step : SessionStep κ) :
    (s.apply step).2.filter Note.isTurn =
      ((s.turn? step).map (·, s.callback)).toList.map Note.ofTurn := by
  cases step with
  | dispatch =>
    cases h : s.turn? .dispatch with
    | none => simp [apply, dispatch_of_no_turn h]
    | some message =>
      obtain ⟨rest, -, -, hnotes⟩ := dispatch_of_turn h
      simp [apply, hnotes, Note.isTurn_ofTurn]
  | receive frame =>
    simp only [apply, receive, turn?]
    repeat' split
    all_goals rfl
  | _ => rfl

theorem delivery?_ofTurn (turn : String × Option κ) : (Note.ofTurn turn).delivery? = handed turn := by
  unfold Note.ofTurn handed
  split
  · rfl
  · cases turn.2 <;> rfl

/-- Only turns invoke callbacks. -/
theorem deliveries_eq (notes : List (Note κ)) :
    deliveries notes = deliveries (notes.filter Note.isTurn) := by
  rw [deliveries, deliveries, List.filterMap_filter]
  refine congrArg (List.filterMap · notes) (funext fun note => ?_)
  cases note with
  | delivered k message => rfl
  | dropped why => cases why <;> rfl

end Turns

section Flow

/-- Ending the writer does not make it idle. -/
theorem writer_batch (n : Nat) (s : Session κ) :
    (s.batch n).writer = .idle ↔ s.writer = .idle := by
  unfold batch
  split
  · next hrun =>
    dsimp only
    split <;> simp [hrun]
  · rfl

theorem writer_breakWriter (s : Session κ) : s.breakWriter.writer = .idle ↔ s.writer = .idle := by
  unfold breakWriter
  split
  · next hrun => simp [hrun]
  · rfl

theorem writer_commit (i : Nat) (s : Session κ) : (s.commit i).writer = s.writer := by
  unfold commit push
  repeat' split
  all_goals rfl

theorem writer_beginClose (s : Session κ) : s.beginClose.writer = s.writer := by
  unfold beginClose
  split <;> rfl

theorem Paired.both_idle (h : s.Paired) :
    (s.reader = .idle ∧ s.writer = .idle) ↔ s.reader = .idle :=
  ⟨And.left, fun hreader => ⟨hreader, h.1 hreader⟩⟩

theorem Paired.receive (h : s.Paired) (frame : Frame) : (s.receive frame).1.Paired := by
  have hwriter : (s.receive frame).1.writer = s.writer := by
    unfold Session.receive
    repeat' split
    all_goals rfl
  rcases receive_cases frame s with hsame | ⟨hreader, ⟨message, hnext⟩ | hnext⟩
  · rw [Paired, hwriter, hsame.reader]
    exact h
  · rw [hnext]
    exact h
  · have hbusy : s.writer ≠ .idle := fun hidle => by simp [h.2 hidle] at hreader
    simp [hnext, Paired, hbusy]

theorem Paired.apply (h : s.Paired) (step : SessionStep κ) : (s.apply step).1.Paired := by
  cases step with
  | beginWrite message =>
    simp only [Session.apply, beginWrite]
    split <;> exact h
  | beginClose =>
    rw [Paired, Session.apply, writer_beginClose, (sameInbound_beginClose s).reader]
    exact h
  | commit i =>
    rw [Paired, Session.apply, writer_commit, (sameInbound_commit i s).reader]
    exact h
  | start =>
    simp only [Session.apply, start]
    split
    · simp [Paired]
    · exact h
  | abandon =>
    simp only [Session.apply, abandon]
    split
    · simp [Paired]
    · exact h
  | batch n =>
    rw [Paired, Session.apply, writer_batch, (sameInbound_batch n s).reader]
    exact h
  | breakWriter =>
    rw [Paired, Session.apply, writer_breakWriter, (sameInbound_breakWriter s).reader]
    exact h
  | receive frame => exact h.receive frame
  | windUp =>
    simp only [Session.apply, windUp]
    split
    · rw [Paired, writer_beginClose, (sameInbound_beginClose s).reader]
      exact h
    · exact h
  | dispatch =>
    rcases dispatch_cases s with hnext | ⟨message, rest, -, -, hnext | ⟨k, -, hnext⟩⟩ <;>
      rw [Session.apply, hnext] <;> exact h
  | finish =>
    simp only [Session.apply, finish]
    split <;> exact h
  | callbackDone => exact h
  | setOnRead k => exact h
  | clearOnRead => exact h

theorem carried?_of_frame_none (h : step.frame? = none) : s.carried? step = none := by
  simp [carried?, h]

/-- Steps that leave the inbound side alone bring nothing to the inbox. -/
theorem SameInbound.inflow (h : SameInbound s t) (hturn : s.turn? step = none)
    (hframe : step.frame? = none) (hreader : step.reader s.reader = s.reader)
    (hinstalls : step.installs s.callback = s.callback) : Inflow s step t where
  inbox := by simp [hturn, carried?_of_frame_none hframe, h.inbox]
  reader := by rw [h.reader, hreader]
  callback hopen := ⟨fun hclosed => hopen (h.closed.2 hclosed), by rw [h.callback, hinstalls]⟩

theorem inflow_receive (frame : Frame) (s : Session κ) :
    Inflow s (.receive frame) (s.receive frame).1 where
  inbox := by
    simp only [carried?, receive, turn?, SessionStep.frame?]
    split
    · cases frame with
      | binary payload =>
        simp only [Frame.message?, Option.bind_some]
        cases textOf? payload <;> simp
      | ping payload => dsimp only; split <;> simp [Frame.message?]
      | _ => simp [Frame.message?]
    · simp
  reader := by
    simp only [receive, SessionStep.reader]
    split
    · next hrun =>
      cases frame with
      | binary payload => dsimp only; split <;> simp [Frame.ends]
      | ping payload => dsimp only; split <;> simp [Frame.ends]
      | _ => simp [Frame.ends, hrun]
    · next hrun => simp [hrun]
  callback := by
    intro hopen
    rcases receive_cases frame s with hsame | ⟨-, ⟨message, hnext⟩ | hnext⟩
    · exact ⟨fun hclosed => hopen (hsame.closed.2 hclosed), hsame.callback⟩
    · rw [hnext] at hopen ⊢
      exact ⟨hopen, rfl⟩
    · rw [hnext] at hopen ⊢
      exact ⟨hopen, rfl⟩

theorem inflow_dispatch (s : Session κ) : Inflow s .dispatch s.dispatch.1 := by
  cases h : s.turn? .dispatch with
  | none =>
    rw [dispatch_of_no_turn h]
    exact (SameInbound.refl s).inflow h rfl rfl rfl
  | some message =>
    obtain ⟨rest, hinbox, hnext, -⟩ := dispatch_of_turn h
    rw [hnext]
    exact ⟨by simp [h, hinbox, carried?, SessionStep.frame?], rfl, fun hopen => ⟨hopen, rfl⟩⟩

theorem inflow_start (h : s.Paired) : Inflow s .start s.start where
  inbox := by
    unfold start
    split <;> simp [turn?, carried?, SessionStep.frame?]
  reader := by
    simp only [start, h.both_idle, SessionStep.reader]
    split <;> rfl
  callback hopen := by
    unfold start at hopen ⊢
    split at hopen
    · refine ⟨fun hclosed => hopen ?_, by split <;> rfl⟩
      simp [hclosed]
    · exact ⟨hopen, by split <;> rfl⟩

theorem inflow_abandon (h : s.Paired) : Inflow s .abandon s.abandon where
  inbox := by
    unfold abandon
    split <;> simp [turn?, carried?, SessionStep.frame?]
  reader := by
    simp only [abandon, h.both_idle, SessionStep.reader]
    split <;> rfl
  callback hopen := by
    unfold abandon at hopen ⊢
    split at hopen <;> exact ⟨hopen, by split <;> rfl⟩

theorem inflow_finish (s : Session κ) : Inflow s .finish s.finish := by
  unfold finish
  split
  · exact ⟨by simp [turn?, carried?, SessionStep.frame?], rfl, fun hopen => absurd rfl hopen⟩
  · exact (SameInbound.refl s).inflow rfl rfl rfl rfl

theorem inflow_apply (h : s.Paired) (step : SessionStep κ) : Inflow s step (s.apply step).1 := by
  cases step with
  | beginWrite message => exact (sameInbound_beginWrite message s).inflow rfl rfl rfl rfl
  | beginClose => exact (sameInbound_beginClose s).inflow rfl rfl rfl rfl
  | commit i => exact (sameInbound_commit i s).inflow rfl rfl rfl rfl
  | start => exact inflow_start h
  | abandon => exact inflow_abandon h
  | batch n => exact (sameInbound_batch n s).inflow rfl rfl rfl rfl
  | breakWriter => exact (sameInbound_breakWriter s).inflow rfl rfl rfl rfl
  | receive frame => exact inflow_receive frame s
  | windUp => exact (sameInbound_windUp s).inflow rfl rfl rfl rfl
  | dispatch => exact inflow_dispatch s
  | finish => exact inflow_finish s
  | callbackDone | setOnRead | clearOnRead =>
    exact ⟨by simp [turn?, carried?, SessionStep.frame?, apply, callbackDone, setOnRead,
      clearOnRead], rfl, fun hopen => ⟨hopen, rfl⟩⟩

end Flow

section Run

theorem Paired.run (h : s.Paired) (steps : List (SessionStep κ)) : (s.run steps).1.Paired := by
  induction steps generalizing s with
  | nil => exact h
  | cons step rest ih => exact ih (h.apply step)

/-- What waited and what came has had its turn or waits. -/
theorem turns_append_inbox (h : s.Paired) (k : Option κ) (steps : List (SessionStep κ)) :
    (s.turns k steps).map Prod.fst ++ (s.run steps).1.inbox = s.inbox ++ s.carried steps := by
  induction steps generalizing s k with
  | nil => simp [turns, run, carried]
  | cons step rest ih =>
    have hstep := (inflow_apply h step).inbox
    have hrest := ih (h.apply step) (step.installs k)
    have hfst : (((s.turn? step).map (·, k)).toList).map Prod.fst = (s.turn? step).toList := by
      cases s.turn? step <;> rfl
    simp only [turns, run, carried, List.map_append, hfst]
    rw [List.append_assoc, hrest, ← List.append_assoc, hstep, List.append_assoc]

/-- The turns of a run are told in order, each with the callback that was installed last. -/
theorem turnNotes_run (hquiet : s.Quiet) (hpaired : s.Paired)
    (hk : s.state ≠ .closed → s.callback = k) (steps : List (SessionStep κ)) :
    (s.run steps).2.filter Note.isTurn = (s.turns k steps).map Note.ofTurn := by
  induction steps generalizing s k with
  | nil => rfl
  | cons step rest ih =>
    have hrest := ih (hquiet.apply step) (hpaired.apply step) (k := step.installs k) fun hopen => by
      obtain ⟨hstate, hcallback⟩ := (inflow_apply hpaired step).callback hopen
      rw [hcallback, hk hstate]
    have hturn : (s.turn? step).map (·, s.callback) = (s.turn? step).map (·, k) := by
      cases hmessage : s.turn? step with
      | none => rfl
      | some message =>
        -- a session that is closed has nothing left to hand on
        have hopen : s.state ≠ .closed := by
          intro hclosed
          cases step <;> simp [turn?, (hquiet hclosed).2.1] at hmessage
        rw [hk hopen]
    simp only [run, turns, List.filter_append, List.map_append, hrest, turnNotes_apply, hturn]

/-- The callback that a turn invokes is the one that was installed last. -/
theorem deliveries_run (hquiet : s.Quiet) (hpaired : s.Paired)
    (hk : s.state ≠ .closed → s.callback = k) (steps : List (SessionStep κ)) :
    deliveries (s.run steps).2 = (s.turns k steps).filterMap handed := by
  rw [deliveries_eq, turnNotes_run hquiet hpaired hk, deliveries, List.filterMap_map]
  exact congrArg (List.filterMap · (s.turns k steps)) (funext delivery?_ofTurn)

theorem carried_append (s : Session κ) (first rest : List (SessionStep κ)) :
    s.carried (first ++ rest) = s.carried first ++ (s.run first).1.carried rest := by
  induction first generalizing s with
  | nil => rfl
  | cons step first ih => simp only [List.cons_append, carried, run, ih, List.append_assoc]

theorem carried_of_no_frame (s : Session κ) {steps : List (SessionStep κ)}
    (h : ∀ step ∈ steps, step.frame? = none) : s.carried steps = [] := by
  induction steps generalizing s with
  | nil => rfl
  | cons step rest ih =>
    obtain ⟨hstep, hrest⟩ := List.forall_mem_cons.1 h
    rw [carried, carried?_of_frame_none hstep, ih _ hrest]
    rfl

/-- Behind its end a stream brings nothing. -/
theorem carried_ended (h : s.Paired) (hended : s.reader = .ended) (steps : List (SessionStep κ)) :
    s.carried steps = [] := by
  induction steps generalizing s with
  | nil => rfl
  | cons step rest ih =>
    have hnext : (s.apply step).1.reader = .ended := by
      rw [(inflow_apply h step).reader, hended]
      cases step <;> simp [SessionStep.reader]
    simp [carried, carried?, hended, ih (h.apply step) hnext]

theorem messages_cons (step : SessionStep κ) (rest : List (SessionStep κ)) :
    messages (step :: rest) =
      match step.frame? with
      | none => messages rest
      | some frame => if frame.ends then [] else frame.message?.toList ++ messages rest := by
  cases hframe : step.frame? with
  | none => simp [messages, hframe]
  | some frame =>
    cases hends : frame.ends with
    | true => simp [messages, hframe, hends]
    | false => cases hmessage : frame.message? <;> simp [messages, hframe, hends, hmessage]

/-- While a stream is read all of it comes in, up to its end. -/
theorem carried_running (h : s.Paired) (hrun : s.reader = .running)
    (steps : List (SessionStep κ)) : s.carried steps = messages steps := by
  induction steps generalizing s with
  | nil => rfl
  | cons step rest ih =>
    have hnext := (inflow_apply h step).reader
    rw [carried, carried?, if_pos hrun, messages_cons]
    cases hframe : step.frame? with
    | none =>
      have hreader : (s.apply step).1.reader = .running := by
        rw [hnext, hrun]
        cases step <;> first | rfl | cases hframe
      simpa using ih (h.apply step) hreader
    | some frame =>
      have hreceive : step = .receive frame := by
        cases step <;> cases hframe
        rfl
      rw [hreceive, hrun] at hnext
      cases hends : frame.ends with
      | true =>
        -- the frame that ends a stream carries no message itself
        have hended : (s.apply step).1.reader = .ended := by
          simpa [hreceive, SessionStep.reader, hends] using hnext
        have hnone : frame.message? = none := by cases frame <;> first | rfl | cases hends
        simp [carried_ended (h.apply step) hended, hnone, hends]
      | false =>
        have hreader : (s.apply step).1.reader = .running := by
          simpa [hreceive, SessionStep.reader, hends] using hnext
        simp [ih (h.apply step) hreader, hends]

/-- Until the connection is driven nothing comes in. -/
theorem carried_idle (h : s.Paired) (hidle : s.reader = .idle) (steps : List (SessionStep κ)) :
    s.carried steps = received steps := by
  induction steps generalizing s with
  | nil => rfl
  | cons step rest ih =>
    have hnext := (inflow_apply h step).reader
    have hnone : s.carried? step = none := by simp [carried?, hidle]
    rw [carried, hnone, Option.toList_none, List.nil_append]
    rw [hidle] at hnext
    cases step with
    | start => exact carried_running (h.apply .start) hnext rest
    | abandon => exact carried_ended (h.apply .abandon) hnext rest
    | receive frame => exact ih (h.apply _) (by simpa [SessionStep.reader] using hnext)
    | _ => exact ih (h.apply _) hnext

theorem inbox_rounds (s : Session κ) (n : Nat) :
    (s.run (rounds n)).1.inbox = s.inbox.drop n := by
  induction n generalizing s with
  | zero => simp [rounds, run]
  | succ n ih =>
    have hround : s.callbackDone.dispatch.1.inbox = s.inbox.drop 1 := by
      have hflow := (inflow_dispatch s.callbackDone).inbox
      cases hinbox : s.inbox <;>
        simpa [turn?, callbackDone, carried?, SessionStep.frame?, hinbox] using hflow
    simp only [rounds, run, apply]
    rw [ih, hround, List.drop_drop, Nat.add_comm]

theorem frame_of_mem_rounds {n : Nat} (h : step ∈ rounds n) : step.frame? = none := by
  induction n with
  | zero => cases h
  | succ n ih =>
    simp only [rounds, List.mem_cons] at h
    rcases h with rfl | rfl | h
    · rfl
    · rfl
    · exact ih h

end Run

section Received

theorem messages_append_close (before after : List (SessionStep κ)) :
    messages (before ++ .receive .close :: after) = messages before := by
  induction before with
  | nil => simp [messages, SessionStep.frame?, Frame.ends]
  | cons step rest ih => rw [List.cons_append, messages_cons, messages_cons, ih]

/-- Once a connection is driven, or given up, that is settled. -/
theorem driven_append {before : List (SessionStep κ)} (h : .start ∈ before)
    (after : List (SessionStep κ)) :
    driven (before ++ after) = driven before ++ after ∨
      driven (before ++ after) = [] ∧ driven before = [] := by
  induction before with
  | nil => cases h
  | cons step rest ih =>
    cases step with
    | start => exact Or.inl rfl
    | abandon => exact Or.inr ⟨rfl, rfl⟩
    | _ => exact ih (by simpa using h)

theorem received_append_close {before : List (SessionStep κ)} (h : .start ∈ before)
    (after : List (SessionStep κ)) :
    received (before ++ .receive .close :: after) = received before := by
  rcases driven_append h (.receive .close :: after) with hdriven | ⟨hdriven, hbefore⟩
  · rw [received, hdriven, messages_append_close, received]
  · rw [received, hdriven, received, hbefore]

/-- An invocation is given the message whose turn it is. -/
theorem map_snd_handed_sublist (list : List (String × Option κ)) :
    ((list.filterMap handed).map Prod.snd).Sublist ((list.map Prod.fst).filter (· ≠ "")) := by
  induction list with
  | nil => exact List.Sublist.refl _
  | cons turn rest ih =>
    obtain ⟨message, callback⟩ := turn
    by_cases hempty : message = ""
    · simpa [handed, hempty] using ih
    · cases callback with
      | none => simpa [handed, hempty] using ih.cons message
      | some k => simpa [handed, hempty] using ih

end Received

structure DeliversArrivals (role : SessionRole) (steps : List (SessionStep κ)) : Prop where
  /-- Messages have their turns in the order of arrival; those still in the inbox come later. -/
  order : (turns { role } none steps).map Prod.fst ++ (({ role } : Session κ).run steps).1.inbox =
    received steps
  /-- A turn invokes the callback installed at that moment, unless the message is empty. -/
  invoked : deliveries (({ role } : Session κ).run steps).2 =
    (turns { role } none steps).filterMap handed
  /-- Each message is delivered once at most, and only messages that are not empty. -/
  once : ((deliveries (({ role } : Session κ).run steps).2).map Prod.snd).Sublist
    ((received steps).filter (· ≠ ""))
  /-- Nothing prevents later turns: the dispatcher gets through the inbox. -/
  onward : (turns { role } none
    (steps ++ rounds (({ role } : Session κ).run steps).1.inbox.length)).map Prod.fst =
      received steps
  /-- What comes behind the close frame is not received. -/
  closed : ∀ before after, steps = before ++ .receive .close :: after → .start ∈ before →
    received steps = received before

/-- Whatever the steps of a session and their order, its callbacks get the messages that arrive. -/
theorem delivers_arrivals (role : SessionRole) (steps : List (SessionStep κ)) :
    DeliversArrivals role steps := by
  have hpaired : ({ role } : Session κ).Paired := by simp [Paired]
  have hquiet : ({ role } : Session κ).Quiet := fun hclosed => nomatch hclosed
  have hflow (steps : List (SessionStep κ)) := turns_append_inbox hpaired none steps
  simp only [List.nil_append] at hflow
  have horder := hflow steps
  rw [carried_idle hpaired rfl] at horder
  have hinvoked := deliveries_run hquiet hpaired (fun _ => rfl) steps
  refine ⟨horder, hinvoked, ?_, ?_, ?_⟩
  · rw [hinvoked]
    refine (map_snd_handed_sublist _).trans (List.Sublist.filter _ ?_)
    rw [← horder]
    exact List.sublist_append_left _ _
  · have hrounds := hflow (steps ++ rounds (({ role } : Session κ).run steps).1.inbox.length)
    rw [run_append, inbox_rounds, List.drop_length, List.append_nil, carried_append,
      carried_of_no_frame _ fun step => frame_of_mem_rounds, List.append_nil,
      carried_idle hpaired rfl] at hrounds
    exact hrounds
  · intro before after hsteps hstart
    rw [hsteps]
    exact received_append_close hstart after

end Session
end ScriptHost
