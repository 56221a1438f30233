import Mathlib.Data.List.Perm.Basic
import ScriptHost.Session.Basic

/-! The outbound side of a session: sends that were let through, the queue and the wire. What
arrives in the queue reaches the wire in that order, up to the close marker; whatever else happens
in between, nothing is lost, repeated or written behind it. -/

namespace ScriptHost

def textsBeforeClose : List Outbound → List String
  | [] => []
  | .text message :: rest => message :: textsBeforeClose rest
  | .close :: _ => []

theorem textsBeforeClose_append (texts : List String) (items : List Outbound) :
    textsBeforeClose (texts.map .text ++ items) = texts ++ textsBeforeClose items := by
  induction texts with
  | nil => rfl
  | cons text texts ih => simp only [List.map_cons, List.cons_append, textsBeforeClose, ih]

namespace Session

/-- A batch is texts alone, or texts up to the close marker. -/
theorem feed_cases (items : List Outbound) :
    (∃ texts : List String, items = texts.map .text ∧ feed items = (texts.map .text, false)) ∨
      ∃ (texts : List String) (rest : List Outbound), items = texts.map .text ++ .close :: rest ∧
        feed items = (texts.map .text ++ [.close], true) := by
  induction items with
  | nil => exact Or.inl ⟨[], rfl, rfl⟩
  | cons item items ih =>
    cases item with
    | close => exact Or.inr ⟨[], items, rfl, rfl⟩
    | text message =>
      rcases ih with ⟨texts, rfl, hfeed⟩ | ⟨texts, rest, rfl, hfeed⟩
      · exact Or.inl ⟨message :: texts, rfl, by simp [feed, hfeed]⟩
      · exact Or.inr ⟨message :: texts, rest, rfl, by simp [feed, hfeed]⟩

theorem drop_length_take (k : Nat) (l : List α) : l.drop (l.take k).length = l.drop k := by
  rw [List.length_take]
  rcases Nat.le_total k l.length with h | h
  · rw [Nat.min_eq_left h]
  · rw [Nat.min_eq_right h, List.drop_length, List.drop_eq_nil_of_le h]

/-- What a batch of a running writer does. -/
theorem batch_eq {s : Session κ} (h : s.writer = .running) (n : Nat) :
    s.batch n =
      if (feed (s.queue.take (min n maxBatch))).2 then
        { s with
          wire := s.wire ++ (feed (s.queue.take (min n maxBatch))).1
          queue := [], writer := .ended }
      else
        { s with
          wire := s.wire ++ (feed (s.queue.take (min n maxBatch))).1
          queue := s.queue.drop (min n maxBatch) } := by
  simp only [batch, if_pos h, drop_length_take]

theorem batch_of_ne {s : Session κ} (h : s.writer ≠ .running) (n : Nat) : s.batch n = s :=
  if_neg h

def arrival? (s : Session κ) : SessionStep κ → Option Outbound
  | .commit i => if s.writer = .ended then none else s.pending[i]?
  | _ => none

/-- All that arrives in the queue in a run, in order. -/
def arrivals (s : Session κ) : List (SessionStep κ) → List Outbound
  | [] => []
  | step :: rest => (s.arrival? step).toList ++ (s.apply step).1.arrivals rest

/-- What a run without a failure of the wire keeps, where `items` arrived so far. -/
structure Outgoing (items : List Outbound) (s : Session κ) : Prop where
  /-- Before a connection is driven nothing is on the wire. -/
  idle : (s.reader = .idle ↔ s.writer = .idle) ∧ (s.writer = .idle → s.wire = [])
  /-- As long as items are taken, they are on the wire or in the queue. -/
  flowing : s.writer ≠ .ended → .close ∉ s.wire ∧ items = s.written.map .text ++ s.queue
  /-- The writer ended at the marker, or it was never driven. -/
  ended : s.writer = .ended → (.close ∉ s.wire ∧ s.written = []) ∨
    ∃ before rest, s.wire = before ++ [.close] ∧ .close ∉ before ∧
      items = s.written.map .text ++ .close :: rest
  /-- There is one marker at most, pending or arrived, and none while the session is open. -/
  marker : (s.pending ++ items).count .close ≤ 1
  unmarked : s.isOpen = true → .close ∉ s.pending ++ items

theorem outgoing_new (role : SessionRole) : Outgoing [] ({ role } : Session κ) where
  idle := ⟨by simp, fun _ => rfl⟩
  flowing _ := ⟨by simp, rfl⟩
  ended h := by cases h
  marker := by simp
  unmarked _ := by simp

/-- Two sessions with the same outbound side, where the state of the second is not behind. -/
structure SameOutbound (s t : Session κ) : Prop where
  pending : t.pending = s.pending
  queue : t.queue = s.queue
  wire : t.wire = s.wire
  writer : t.writer = s.writer
  reader : t.reader = .idle ↔ s.reader = .idle
  rank : s.state.rank ≤ t.state.rank

theorem SameOutbound.refl (s : Session κ) : SameOutbound s s :=
  ⟨rfl, rfl, rfl, rfl, Iff.rfl, Nat.le_refl _⟩

theorem isOpen_iff (s : Session κ) : s.isOpen = true ↔ s.state.rank < SessionState.closing.rank :=
  decide_eq_true_iff

variable {items : List Outbound} {s t : Session κ}

theorem Outgoing.same (hs : Outgoing items s) (h : SameOutbound s t) : Outgoing items t := by
  have hwritten : t.written = s.written := by rw [written, h.wire, written]
  constructor
  · rw [h.reader, h.writer, h.wire]
    exact hs.idle
  · rw [h.writer, h.wire, h.queue, hwritten]
    exact hs.flowing
  · rw [h.writer, h.wire, hwritten]
    exact hs.ended
  · rw [h.pending]
    exact hs.marker
  · rw [h.pending]
    exact fun hopen => hs.unmarked
      ((isOpen_iff s).2 (Nat.lt_of_le_of_lt h.rank ((isOpen_iff t).1 hopen)))

theorem sameOutbound_dispatch (s : Session κ) : SameOutbound s s.dispatch.1 := by
  unfold dispatch
  split
  · dsimp only
    split
    · exact ⟨rfl, rfl, rfl, rfl, Iff.rfl, Nat.le_refl _⟩
    · split <;> exact ⟨rfl, rfl, rfl, rfl, Iff.rfl, Nat.le_refl _⟩
  · exact .refl s

theorem sameOutbound_callbackDone (s : Session κ) : SameOutbound s s.callbackDone :=
  ⟨rfl, rfl, rfl, rfl, Iff.rfl, Nat.le_refl _⟩

theorem sameOutbound_setOnRead (k : κ) (s : Session κ) : SameOutbound s (s.setOnRead k) :=
  ⟨rfl, rfl, rfl, rfl, Iff.rfl, Nat.le_refl _⟩

theorem sameOutbound_clearOnRead (s : Session κ) : SameOutbound s s.clearOnRead :=
  ⟨rfl, rfl, rfl, rfl, Iff.rfl, Nat.le_refl _⟩

theorem sameOutbound_finish (s : Session κ) : SameOutbound s s.finish := by
  unfold finish
  split
  · next hdone => exact ⟨rfl, rfl, rfl, rfl, Iff.rfl, by simp [hdone.2, SessionState.rank]⟩
  · exact .refl s

/-- A frame that is no ping leaves the outbound side alone; a ping is answered in front of the close
frame. -/
theorem sameOutbound_receive (frame : Frame) (s : Session κ) :
    SameOutbound s (s.receive frame).1 ∨ s.reader = .running ∧ .close ∉ s.wire ∧
      ∃ payload, (s.receive frame).1 = { s with wire := s.wire ++ [.pong payload] } := by
  unfold receive
  split
  · next hreader =>
    cases frame with
    | text message => exact Or.inl ⟨rfl, rfl, rfl, rfl, Iff.rfl, Nat.le_refl _⟩
    | binary payload =>
      dsimp only
      split <;> exact Or.inl ⟨rfl, rfl, rfl, rfl, Iff.rfl, Nat.le_refl _⟩
    | ping payload =>
      dsimp only
      split
      · exact Or.inl (.refl s)
      · next hopen => exact Or.inr ⟨hreader, hopen, payload, rfl⟩
    | pong payload => exact Or.inl (.refl s)
    | close => exact Or.inl ⟨rfl, rfl, rfl, rfl, by simp [hreader], Nat.le_refl _⟩
    | failure => exact Or.inl ⟨rfl, rfl, rfl, rfl, by simp [hreader], Nat.le_refl _⟩
  · exact Or.inl (.refl s)

theorem Outgoing.receive (h : Outgoing items s) (frame : Frame) :
    Outgoing items (s.receive frame).1 := by
  rcases sameOutbound_receive frame s with hsame | ⟨hreader, hopen, payload, hnext⟩
  · exact h.same hsame
  · have hwriter : s.writer ≠ .idle := by
      intro hidle
      have := h.idle.1.2 hidle
      simp [hreader] at this
    have hwritten : ({ s with wire := s.wire ++ [.pong payload] } : Session κ).written =
        s.written := by simp [written]
    rw [hnext]
    refine ⟨⟨h.idle.1, fun hidle => absurd hidle hwriter⟩, fun hrun => ?_, fun hend => ?_, h.marker,
      h.unmarked⟩
    · rw [hwritten]
      exact ⟨by simp [hopen], (h.flowing hrun).2⟩
    · rw [hwritten]
      rcases h.ended hend with ⟨-, hnone⟩ | ⟨before, rest, hwire, -⟩
      · exact Or.inl ⟨by simp [hopen], hnone⟩
      · simp [hwire] at hopen

theorem Outgoing.beginWrite (h : Outgoing items s) (message : String) :
    Outgoing items (s.beginWrite message) := by
  unfold Session.beginWrite
  split
  · refine ⟨h.idle, h.flowing, h.ended, ?_, fun hopen => ?_⟩
    · simpa using h.marker
    · simpa using h.unmarked hopen
  · exact h

theorem Outgoing.beginClose (h : Outgoing items s) : Outgoing items s.beginClose := by
  unfold Session.beginClose
  split
  · next hopen =>
    have hnone := List.count_eq_zero.2 (h.unmarked hopen)
    refine ⟨h.idle, h.flowing, h.ended, ?_, by simp [isOpen, SessionState.rank]⟩
    simp only [List.count_append] at hnone ⊢
    simp
    omega
  · exact h

theorem Outgoing.start (h : Outgoing items s) : Outgoing items s.start := by
  unfold Session.start
  split
  · next hidle =>
    refine ⟨by simp, fun _ => h.flowing (by simp [hidle.2]), by simp, h.marker, fun hopen => ?_⟩
    refine h.unmarked ?_
    simp only [isOpen] at hopen ⊢
    split at hopen
    · next hconnecting => simp [hconnecting, SessionState.rank]
    · exact hopen
  · exact h

theorem Outgoing.abandon (h : Outgoing items s) : Outgoing items s.abandon := by
  unfold Session.abandon
  split
  · next hidle =>
    have hwire := h.idle.2 hidle.2
    exact ⟨by simp, by simp, fun _ => Or.inl (by simp [hwire, written]), h.marker, h.unmarked⟩
  · exact h

/-- A send that reaches the queue is pending no more. -/
theorem commit_perm {i : Nat} {item : Outbound} (hitem : s.pending[i]? = some item)
    (items : List Outbound) :
    (s.pending.eraseIdx i ++ (items ++ [item])).Perm (s.pending ++ items) := by
  obtain ⟨hi, rfl⟩ := List.getElem?_eq_some_iff.1 hitem
  calc s.pending.eraseIdx i ++ (items ++ [s.pending[i]])
      _ = (s.pending.eraseIdx i ++ items) ++ [s.pending[i]] := (List.append_assoc ..).symm
      _ |>.Perm (s.pending[i] :: (s.pending.eraseIdx i ++ items)) := List.perm_append_singleton ..
      _ |>.Perm (s.pending ++ items) := (List.getElem_cons_eraseIdx_perm hi).append_right items

theorem Outgoing.push (h : Outgoing items s) (hwriter : s.writer ≠ .ended) {i : Nat}
    {item : Outbound} (hitem : s.pending[i]? = some item) :
    Outgoing (items ++ [item])
      { s with pending := s.pending.eraseIdx i, queue := s.queue ++ [item] } where
  idle := h.idle
  flowing _ := by
    obtain ⟨hopen, hitems⟩ := h.flowing hwriter
    exact ⟨hopen, by rw [hitems, List.append_assoc]; rfl⟩
  ended hend := absurd hend hwriter
  marker := (commit_perm hitem items).count_eq _ ▸ h.marker
  unmarked hopen := by
    rw [(commit_perm hitem items).mem_iff]
    exact h.unmarked hopen

/-- A send that is lost because nobody takes from the queue any more. -/
theorem Outgoing.lose (h : Outgoing items s) (i : Nat) :
    Outgoing items { s with pending := s.pending.eraseIdx i } := by
  have hsub := (s.pending.eraseIdx_sublist i).append_right items
  exact ⟨h.idle, h.flowing, h.ended, Nat.le_trans (hsub.count_le _) h.marker,
    fun hopen hmem => h.unmarked hopen (hsub.subset hmem)⟩

theorem arrival?_commit (s : Session κ) (i : Nat) :
    s.arrival? (.commit i) = if s.writer = .ended then none else s.pending[i]? := rfl

theorem Outgoing.commit (h : Outgoing items s) (i : Nat) :
    Outgoing (items ++ (s.arrival? (.commit i)).toList) (s.commit i) := by
  rw [arrival?_commit]
  unfold Session.commit
  cases hitem : s.pending[i]? with
  | none => simpa using h
  | some item =>
    simp only [Session.push]
    by_cases hwriter : s.writer = .ended
    · rw [if_pos hwriter, if_pos hwriter, Option.toList_none, List.append_nil]
      exact h.lose i
    · rw [if_neg hwriter, if_neg hwriter]
      exact h.push hwriter hitem

theorem Outgoing.batch (h : Outgoing items s) (n : Nat) : Outgoing items (s.batch n) := by
  by_cases hrun : s.writer = .running
  · rw [batch_eq hrun]
    obtain ⟨hopen, hitems⟩ := h.flowing (by simp [hrun])
    have hidle : s.reader ≠ .idle := by simp [h.idle.1, hrun]
    rw [← List.take_append_drop (min n maxBatch) s.queue] at hitems
    rcases feed_cases (s.queue.take (min n maxBatch)) with
      ⟨texts, htaken, hfeed⟩ | ⟨texts, rest, htaken, hfeed⟩
    · rw [hfeed, if_neg Bool.false_ne_true]
      refine ⟨by simp [hidle, hrun], fun _ => ⟨by simp [hopen], ?_⟩, by simp [hrun], h.marker,
        h.unmarked⟩
      rw [hitems, htaken]
      simp [written]
    · rw [hfeed, if_pos rfl]
      refine ⟨by simp [hidle], by simp, fun _ => Or.inr ⟨s.wire ++ texts.map .text,
        rest ++ s.queue.drop (min n maxBatch), ?_, by simp [hopen], ?_⟩, h.marker, h.unmarked⟩
      · simp
      · rw [hitems, htaken]
        simp [written]
  · rwa [batch_of_ne hrun]

theorem Outgoing.windUp (h : Outgoing items s) : Outgoing items s.windUp := by
  unfold Session.windUp
  split
  · exact h.beginClose
  · exact h

theorem Outgoing.silent (h : Outgoing items s) :
    Outgoing (items ++ (none : Option Outbound).toList) s := by
  rwa [Option.toList_none, List.append_nil]

/-- What a step keeps; of all steps only a commit lets an item arrive. -/
theorem Outgoing.apply (h : Outgoing items s) {step : SessionStep κ} (hstep : step ≠ .breakWriter) :
    Outgoing (items ++ (s.arrival? step).toList) (s.apply step).1 := by
  cases step with
  | beginWrite message => exact (h.beginWrite message).silent
  | beginClose => exact h.beginClose.silent
  | commit i => exact h.commit i
  | start => exact h.start.silent
  | abandon => exact h.abandon.silent
  | batch n => exact (h.batch n).silent
  | breakWriter => exact absurd rfl hstep
  | receive frame => exact (h.receive frame).silent
  | windUp => exact h.windUp.silent
  | dispatch => exact (h.same (sameOutbound_dispatch s)).silent
  | callbackDone => exact (h.same (sameOutbound_callbackDone s)).silent
  | setOnRead k => exact (h.same (sameOutbound_setOnRead k s)).silent
  | clearOnRead => exact (h.same (sameOutbound_clearOnRead s)).silent
  | finish => exact (h.same (sameOutbound_finish s)).silent

theorem Outgoing.run (h : Outgoing items s) {steps : List (SessionStep κ)}
    (hsteps : .breakWriter ∉ steps) : Outgoing (items ++ s.arrivals steps) (s.run steps).1 := by
  induction steps generalizing items s with
  | nil => exact (List.append_nil items).symm ▸ h
  | cons step rest ih =>
    obtain ⟨hstep, hrest⟩ := not_or.1 (mt List.mem_cons.2 hsteps)
    have hnext := ih (h.apply (Ne.symm hstep)) hrest
    rwa [List.append_assoc] at hnext

theorem rank_le_beginClose (s : Session κ) : s.state.rank ≤ s.beginClose.state.rank := by
  unfold Session.beginClose
  split
  · next hopen => exact Nat.le_of_lt ((isOpen_iff s).1 hopen)
  · exact Nat.le_refl _

theorem rank_le_start (s : Session κ) : s.state.rank ≤ s.start.state.rank := by
  unfold Session.start
  split
  · dsimp only
    split
    · next hconnecting => simp [hconnecting, SessionState.rank]
    · exact Nat.le_refl _
  · exact Nat.le_refl _

theorem rank_le_commit (s : Session κ) (i : Nat) : s.state.rank ≤ (s.commit i).state.rank := by
  unfold Session.commit
  split
  · exact Nat.le_refl _
  · unfold Session.push
    split <;> exact Nat.le_refl _

/-- No step moves the state back. -/
theorem rank_le_apply (s : Session κ) (step : SessionStep κ) :
    s.state.rank ≤ (s.apply step).1.state.rank := by
  cases step with
  | beginWrite message =>
    simp only [Session.apply, Session.beginWrite]
    split <;> exact Nat.le_refl _
  | beginClose => exact rank_le_beginClose s
  | commit i => exact rank_le_commit s i
  | start => exact rank_le_start s
  | abandon =>
    simp only [Session.apply, Session.abandon]
    split <;> exact Nat.le_refl _
  | batch n =>
    simp only [Session.apply, Session.batch]
    split
    · split <;> exact Nat.le_refl _
    · exact Nat.le_refl _
  | breakWriter =>
    simp only [Session.apply, Session.breakWriter]
    split <;> exact Nat.le_refl _
  | receive frame =>
    rcases sameOutbound_receive frame s with hsame | ⟨-, -, payload, hnext⟩
    · exact hsame.rank
    · simp only [Session.apply, hnext]
      exact Nat.le_refl _
  | windUp =>
    simp only [Session.apply, Session.windUp]
    split
    · exact rank_le_beginClose s
    · exact Nat.le_refl _
  | dispatch => exact (sameOutbound_dispatch s).rank
  | callbackDone => exact Nat.le_refl _
  | setOnRead k => exact Nat.le_refl _
  | clearOnRead => exact Nat.le_refl _
  | finish => exact (sameOutbound_finish s).rank

theorem rank_le_run (s : Session κ) (steps : List (SessionStep κ)) :
    s.state.rank ≤ (s.run steps).1.state.rank := by
  induction steps generalizing s with
  | nil => exact Nat.le_refl _
  | cons step rest ih => exact Nat.le_trans (rank_le_apply s step) (ih _)

theorem arrivals_append (s : Session κ) (first rest : List (SessionStep κ)) :
    s.arrivals (first ++ rest) = s.arrivals first ++ (s.run first).1.arrivals rest := by
  induction first generalizing s with
  | nil => rfl
  | cons step first ih => simp only [List.cons_append, arrivals, ih, List.append_assoc, Session.run]

/-- After a close the session is open no more. -/
theorem rank_le_of_beginClose_mem {steps : List (SessionStep κ)} (h : .beginClose ∈ steps)
    (s : Session κ) : SessionState.closing.rank ≤ (s.run steps).1.state.rank := by
  obtain ⟨before, after, rfl⟩ := List.append_of_mem h
  rw [run_append]
  refine Nat.le_trans ?_ (rank_le_run (s.run before).1.beginClose after)
  unfold Session.beginClose
  split
  · exact Nat.le_refl _
  · next hopen => exact Nat.le_of_not_lt (mt (isOpen_iff _).2 hopen)

theorem beginWrite_of_closing (h : SessionState.closing.rank ≤ s.state.rank) (message : String) :
    s.beginWrite message = s :=
  if_neg (mt (isOpen_iff s).1 (Nat.not_lt_of_le h))

/-- What is written is the front of what arrived before the close marker, and all of it once the
writer has met the marker. -/
theorem Outgoing.written (h : Outgoing items s) :
    s.written <+: textsBeforeClose items ∧
      (.close ∈ s.wire → s.written = textsBeforeClose items ∧ .close ∈ items) := by
  by_cases hwriter : s.writer = .ended
  · rcases h.ended hwriter with ⟨hopen, hnone⟩ | ⟨before, rest, hwire, -, hitems⟩
    · rw [hnone]
      exact ⟨List.nil_prefix, fun hclose => absurd hclose hopen⟩
    · rw [hitems, textsBeforeClose_append, textsBeforeClose, List.append_nil]
      exact ⟨List.prefix_refl _, fun _ => ⟨rfl, by simp⟩⟩
  · obtain ⟨hopen, hitems⟩ := h.flowing hwriter
    rw [hitems, textsBeforeClose_append]
    exact ⟨List.prefix_append .., fun hclose => absurd hclose hopen⟩

theorem Outgoing.close_last (h : Outgoing items s) {before after : List Sent}
    (hwire : s.wire = before ++ .close :: after) : after = [] := by
  have hclose : .close ∈ s.wire := by simp [hwire]
  by_cases hwriter : s.writer = .ended
  · rcases h.ended hwriter with ⟨hopen, -⟩ | ⟨front, rest, hend, hfront, -⟩
    · exact absurd hclose hopen
    · rcases List.eq_nil_or_concat after with rfl | ⟨init, last, rfl⟩
      · rfl
      · -- the close frame would also stand in front of the last one
        rw [hend, List.concat_eq_append, ← List.cons_append, ← List.append_assoc] at hwire
        obtain ⟨rfl, -⟩ := List.append_inj' hwire rfl
        simp at hfront
  · exact absurd hclose (h.flowing hwriter).1

structure DeliversInOrder (role : SessionRole) (steps : List (SessionStep κ)) : Prop where
  /-- The texts on the wire are the first of those that arrived before the close marker. -/
  written_prefix : (({ role } : Session κ).run steps).1.written <+:
    textsBeforeClose (({ role } : Session κ).arrivals steps)
  /-- Nothing stands behind the close frame. -/
  close_last : ∀ before after,
    (({ role } : Session κ).run steps).1.wire = before ++ .close :: after → after = []
  /-- The close marker arrives once at most. -/
  one_marker : (({ role } : Session κ).arrivals steps).count .close ≤ 1
  /-- A write that begins after a close may as well not have begun. -/
  late_write : ∀ before message after, steps = before ++ .beginWrite message :: after →
    .beginClose ∈ before →
      ({ role } : Session κ).run steps = ({ role } : Session κ).run (before ++ after) ∧
      ({ role } : Session κ).arrivals steps = ({ role } : Session κ).arrivals (before ++ after)
  /-- The state never moves back. -/
  forward : ∀ before after, steps = before ++ after →
    (({ role } : Session κ).run before).1.state.rank ≤
      (({ role } : Session κ).run steps).1.state.rank
  /-- Once the close frame is on the wire, so is every text that arrived before the marker. -/
  complete : .close ∈ (({ role } : Session κ).run steps).1.wire →
    (({ role } : Session κ).run steps).1.written =
        textsBeforeClose (({ role } : Session κ).arrivals steps) ∧
      .close ∈ ({ role } : Session κ).arrivals steps

theorem run_late_write (s : Session κ) {before : List (SessionStep κ)} (h : .beginClose ∈ before)
    (message : String) (after : List (SessionStep κ)) :
    s.run (before ++ .beginWrite message :: after) = s.run (before ++ after) ∧
      s.arrivals (before ++ .beginWrite message :: after) = s.arrivals (before ++ after) := by
  have hwrite := beginWrite_of_closing (rank_le_of_beginClose_mem h s) message
  rw [run_append, run_append, arrivals_append, arrivals_append]
  simp only [Session.run, arrivals, arrival?, Session.apply, hwrite, Option.toList_none,
    List.nil_append, and_self]

theorem delivers_in_order (role : SessionRole) (steps : List (SessionStep κ))
    (h : .breakWriter ∉ steps) : DeliversInOrder role steps := by
  have hout : Outgoing (({ role } : Session κ).arrivals steps) _ := (outgoing_new role).run h
  exact {
    written_prefix := hout.written.1
    close_last := fun _ _ => hout.close_last
    one_marker := Nat.le_trans (by simp) hout.marker
    late_write := by
      rintro before message after rfl hclose
      exact run_late_write _ hclose message after
    forward := by
      rintro before after rfl
      rw [run_append]
      exact rank_le_run _ after
    complete := hout.written.2 }

/-- Sends that race a close in a session that is not driven yet: one arrives behind the marker. -/
def racingSends : List (SessionStep Unit) :=
  [.beginWrite "a", .beginWrite "b", .beginClose, .beginWrite "late", .beginClose, .commit 1,
    .commit 1, .commit 0, .start, .batch 1, .receive (.ping [7]), .batch 64, .receive (.ping [8])]

theorem delivers_racingSends :
    .breakWriter ∉ racingSends ∧ DeliversInOrder .server racingSends ∧
      ({ role := .server } : Session Unit).arrivals racingSends = [.text "b", .close, .text "a"] ∧
      (({ role := .server } : Session Unit).run racingSends).1.wire =
        [.text "b", .pong [7], .close] :=
  have h : .breakWriter ∉ racingSends := by simp [racingSends]
  ⟨h, delivers_in_order .server racingSends h, rfl, rfl⟩

end Session
end ScriptHost
