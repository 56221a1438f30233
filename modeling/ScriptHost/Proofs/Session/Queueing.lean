import ScriptHost.Proofs.Session.Outbound

/-! A session whose texts come from one place only. Whatever else happens on it, and even if the wire
fails, the texts it was given are on the wire or in the queue, in order; a text that is given after
it was told to close is none of them. -/

namespace ScriptHost

def Outbound.text? : Outbound → Option String
  | .text message => some message
  | .close => none

namespace Session

/-- The session was given these texts, and no other write is on its way to the queue. -/
structure Carries (texts : List String) (s : Session κ) : Prop where
  pending : ∀ item ∈ s.pending, item = .close
  unmarked : s.isOpen = true → s.pending = [] ∧ .close ∉ s.queue
  /-- As long as items are taken no text is lost. -/
  flowing : s.writer ≠ .ended → s.written ++ s.queue.filterMap Outbound.text? = texts
  written : s.written <+: texts

variable {texts : List String} {s t u : Session κ}

theorem isOpen_of_rank_le (h : s.state.rank ≤ t.state.rank) (ht : t.isOpen = true) :
    s.isOpen = true :=
  (isOpen_iff s).2 (Nat.lt_of_le_of_lt h ((isOpen_iff t).1 ht))

theorem Carries.same (h : Carries texts s) (hsame : SameOutbound s t) : Carries texts t := by
  have hwritten : t.written = s.written := by rw [Session.written, hsame.wire, Session.written]
  constructor
  · rw [hsame.pending]
    exact h.pending
  · rw [hsame.pending, hsame.queue]
    exact fun hopen => h.unmarked (isOpen_of_rank_le hsame.rank hopen)
  · rw [hsame.writer, hsame.queue, hwritten]
    exact h.flowing
  · rw [hwritten]
    exact h.written

theorem Carries.beginClose (h : Carries texts s) : Carries texts s.beginClose := by
  unfold Session.beginClose
  split
  · refine ⟨fun item hitem => ?_, fun hopen => ?_, h.flowing, h.written⟩
    · rcases List.mem_append.1 hitem with hold | hnew
      · exact h.pending item hold
      · exact List.mem_singleton.1 hnew
    · simp [isOpen, SessionState.rank] at hopen
  · exact h

/-- What is pending can only be a marker, and then the session is open no more. -/
theorem Carries.commit (h : Carries texts s) (i : Nat) : Carries texts (s.commit i) := by
  unfold Session.commit
  cases hitem : s.pending[i]? with
  | none => exact h
  | some item =>
    have hmem := List.mem_of_getElem? hitem
    obtain rfl := h.pending item hmem
    have hclosing : s.isOpen ≠ true := by
      intro hopen
      rw [(h.unmarked hopen).1] at hmem
      cases hmem
    have hpending : ∀ item ∈ s.pending.eraseIdx i, item = .close :=
      fun item hitem => h.pending item (List.mem_of_mem_eraseIdx hitem)
    simp only [push]
    split
    · exact ⟨hpending, fun hopen => absurd hopen hclosing, h.flowing, h.written⟩
    · refine ⟨hpending, fun hopen => absurd hopen hclosing, fun hwriter => ?_, h.written⟩
      rw [List.filterMap_append, ← h.flowing hwriter]
      exact congrArg (s.written ++ ·) (List.append_nil _)

theorem Carries.start (h : Carries texts s) : Carries texts s.start := by
  have hrank := rank_le_start s
  unfold Session.start at hrank ⊢
  split
  · next hidle =>
    rw [if_pos hidle] at hrank
    refine ⟨h.pending, fun hopen => h.unmarked (isOpen_of_rank_le hrank hopen), fun _ => ?_,
      h.written⟩
    exact h.flowing (by simp [hidle.2])
  · exact h

theorem Carries.abandon (h : Carries texts s) : Carries texts s.abandon := by
  unfold Session.abandon
  split
  · exact ⟨h.pending, fun hopen => ⟨(h.unmarked hopen).1, by simp⟩, nofun, h.written⟩
  · exact h

theorem Carries.breakWriter (h : Carries texts s) : Carries texts s.breakWriter := by
  unfold Session.breakWriter
  split
  · exact ⟨h.pending, fun hopen => ⟨(h.unmarked hopen).1, by simp⟩, nofun, h.written⟩
  · exact h

theorem filterMap_text?_map (texts : List String) :
    (texts.map Outbound.text).filterMap Outbound.text? = texts := by
  induction texts with
  | nil => rfl
  | cons text texts ih => simp [Outbound.text?, ih]

theorem written_of_wire {batch : List String} (h : t.wire = s.wire ++ batch.map .text) :
    t.written = s.written ++ batch := by
  simp [written, h]

theorem written_of_wire_close {batch : List String}
    (h : t.wire = s.wire ++ (batch.map .text ++ [.close])) : t.written = s.written ++ batch := by
  simp [written, h]

theorem Carries.batch (h : Carries texts s) (n : Nat) : Carries texts (s.batch n) := by
  by_cases hrun : s.writer = .running
  · have hflow := h.flowing (by simp [hrun])
    rw [← List.take_append_drop (min n maxBatch) s.queue, List.filterMap_append] at hflow
    rw [batch_eq hrun]
    rcases feed_cases (s.queue.take (min n maxBatch)) with
      ⟨batch, htaken, hfeed⟩ | ⟨batch, rest, htaken, hfeed⟩
    · rw [hfeed, if_neg Bool.false_ne_true]
      rw [htaken, filterMap_text?_map, ← List.append_assoc] at hflow
      refine ⟨h.pending, fun hopen => ⟨(h.unmarked hopen).1, fun hclose => ?_⟩, fun _ => ?_, ?_⟩
      · exact (h.unmarked hopen).2 (List.mem_of_mem_drop hclose)
      · rw [written_of_wire (s := s) rfl]
        exact hflow
      · rw [written_of_wire (s := s) rfl]
        exact ⟨_, hflow⟩
    · -- behind the marker the rest of the queue is lost
      rw [hfeed, if_pos rfl]
      rw [htaken, List.filterMap_append, filterMap_text?_map, List.append_assoc,
        ← List.append_assoc] at hflow
      refine ⟨h.pending, fun hopen => ⟨(h.unmarked hopen).1, by simp⟩, nofun, ?_⟩
      rw [written_of_wire_close (s := s) rfl]
      exact ⟨_, hflow⟩
  · rwa [batch_of_ne hrun]

theorem Carries.receive (h : Carries texts s) (frame : Frame) :
    Carries texts (s.receive frame).1 := by
  rcases sameOutbound_receive frame s with hsame | ⟨-, -, payload, hnext⟩
  · exact h.same hsame
  · have hwritten : ({ s with wire := s.wire ++ [.pong payload] } : Session κ).written =
        s.written := by simp [Session.written]
    rw [hnext]
    refine ⟨h.pending, h.unmarked, ?_, ?_⟩
    · rw [hwritten]
      exact h.flowing
    · rw [hwritten]
      exact h.written

/-- No step but a write gives the session a text or takes one from it. -/
theorem Carries.apply (h : Carries texts s) {step : SessionStep κ}
    (hstep : ∀ message, step ≠ .beginWrite message) : Carries texts (s.apply step).1 := by
  cases step with
  | beginWrite message => exact absurd rfl (hstep message)
  | beginClose => exact h.beginClose
  | commit i => exact h.commit i
  | start => exact h.start
  | abandon => exact h.abandon
  | batch n => exact h.batch n
  | breakWriter => exact h.breakWriter
  | receive frame => exact h.receive frame
  | windUp =>
    simp only [Session.apply, Session.windUp]
    split
    · exact h.beginClose
    · exact h
  | dispatch => exact h.same (sameOutbound_dispatch s)
  | callbackDone => exact h.same (sameOutbound_callbackDone s)
  | setOnRead k => exact h.same (sameOutbound_setOnRead k s)
  | clearOnRead => exact h.same (sameOutbound_clearOnRead s)
  | finish => exact h.same (sameOutbound_finish s)

theorem isOpen_push (item : Outbound) (s : Session κ) : (s.push item).isOpen = s.isOpen := by
  unfold push
  split <;> rfl

/-- One more text. It is lost if nobody takes from the queue any more. -/
theorem Carries.push (h : Carries texts s) (message : String) :
    Carries (texts ++ [message]) (s.push (.text message)) := by
  have hwritten : s.written <+: texts ++ [message] := h.written.trans (List.prefix_append ..)
  unfold Session.push
  split
  · next hended => exact ⟨h.pending, h.unmarked, fun hwriter => absurd hended hwriter, hwritten⟩
  · refine ⟨h.pending, fun hopen => ?_, fun hwriter => ?_, hwritten⟩
    · obtain ⟨hpending, hclose⟩ := h.unmarked hopen
      exact ⟨hpending, by simp [hclose]⟩
    · rw [← h.flowing hwriter]
      simp [Session.written, Outbound.text?]

/-- While the session is open all it was given is on the wire or waits, and nothing else does. -/
theorem Carries.queued (h : Carries texts s) (hopen : s.isOpen = true)
    (hwriter : s.writer ≠ .ended) :
    s.written.map Outbound.text ++ s.queue = texts.map .text := by
  have hclose := (h.unmarked hopen).2
  have hqueue : (s.queue.filterMap Outbound.text?).map Outbound.text = s.queue := by
    generalize s.queue = queue at hclose
    induction queue with
    | nil => rfl
    | cons item rest ih =>
      obtain ⟨hitem, hrest⟩ := not_or.1 (mt List.mem_cons.2 hclose)
      cases item with
      | text message => simp [Outbound.text?, ih hrest]
      | close => exact absurd rfl hitem
  rw [← h.flowing hwriter, List.map_append, hqueue]

structure Proceeds (s t : Session κ) : Prop where
  carries : ∀ {texts}, Carries texts s → Carries texts t
  isOpen : t.isOpen = true → s.isOpen = true

theorem Proceeds.refl (s : Session κ) : Proceeds s s := ⟨id, id⟩

theorem Proceeds.trans (h : Proceeds s t) (h' : Proceeds t u) : Proceeds s u :=
  ⟨fun hs => h'.carries (h.carries hs), fun hu => h.isOpen (h'.isOpen hu)⟩

theorem proceeds_apply (s : Session κ) (step : SessionStep κ)
    (h : ∀ message, step ≠ .beginWrite message) : Proceeds s (s.apply step).1 where
  carries hs := hs.apply h
  isOpen hopen := isOpen_of_rank_le (rank_le_apply s step) hopen

/-- A close is its two halves with nothing in between. -/
theorem close_eq (s : Session κ) : s.close = s.beginClose.commit s.pending.length := by
  unfold close beginClose
  split
  · simp [commit, List.eraseIdx_append_of_length_le]
  · simp [commit]

theorem proceeds_close (s : Session κ) : Proceeds s s.close := by
  rw [close_eq]
  exact (proceeds_apply s .beginClose nofun).trans
    (proceeds_apply s.beginClose (.commit s.pending.length) nofun)

end Session
end ScriptHost
