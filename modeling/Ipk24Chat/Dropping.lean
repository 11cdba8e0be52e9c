import Ipk24Chat.FilterPass

/-!
# What the filter drops

`filterResentMessages` as a whole, on any queue and in any state.

* `Drops`: messages are dropped one after the other, in the state that each one finds;
* `drops_filtered`: the filter drops what may be dropped;
* `filter_ends`: it stops at a message that is to be sent, or reports a time-out.
-/

namespace Ipk24Chat

/-- What may be dropped in a state. -/
def Droppable (cfg : NetworkConfig) (state : Fsm) (m : Message) : Prop :=
  m.msgFlags = .msgFlagRejected ∨ m.confirmed = true ∧ m.msgFlags ≠ .msgFlagAuth ∨
    cfg.udpMaxRetries.val < m.sendCount ∧ (state = .fsmErrW84Conf ∨ state = .fsmEndW84Conf)

/-- The state behind a message that is dropped: a BYE that timed out ends the program. -/
def Fsm.afterDrop (cfg : NetworkConfig) (state : Fsm) (m : Message) : Fsm :=
  if cfg.udpMaxRetries.val < m.sendCount ∧ state = .fsmEndW84Conf then .fsmEnd else state

/-- Messages that may be dropped are dropped from the front of the queue. -/
inductive Drops (cfg : NetworkConfig) : Fsm → MessageQueue → Fsm → MessageQueue → Prop
  | refl (state : Fsm) (queue : MessageQueue) : Drops cfg state queue state queue
  | drop {state state' : Fsm} {m : Message} {rest queue' : MessageQueue}
    (may : Droppable cfg state m) (more : Drops cfg (state.afterDrop cfg m) rest state' queue') :
    Drops cfg state (m :: rest) state' queue'

section
variable {cfg : NetworkConfig} {state state' state'' : Fsm} {queue queue' queue'' : MessageQueue}

theorem Drops.trans (h : Drops cfg state queue state' queue')
    (h' : Drops cfg state' queue' state'' queue'') : Drops cfg state queue state'' queue'' := by
  induction h with
  | refl => exact h'
  | drop may _ ih => exact .drop may (ih h')

theorem Drops.suffix (h : Drops cfg state queue state' queue') : queue' <:+ queue := by
  induction h with
  | refl => exact List.suffix_refl _
  | drop _ _ ih => exact ih.trans (List.suffix_cons _ _)

/-- The state moves only where the BYE is waited for. -/
theorem Drops.moves (h : Drops cfg state queue state' queue') :
    state' = state ∨ state = .fsmEndW84Conf ∧ state' = .fsmEnd := by
  induction h with
  | refl => exact Or.inl rfl
  | @drop state state' m rest queue' _ _ ih =>
    unfold Fsm.afterDrop at ih
    split at ih
    · rename_i ends
      exact Or.inr ⟨ends.2, ih.elim id fun h => h.2⟩
    · exact ih

/-- What the filter skips may be dropped, and the state stays. -/
theorem drops_filtered (cfg : NetworkConfig) (state : Fsm) (queue : MessageQueue) :
    Drops cfg state queue state (queue.filtered cfg state) := by
  induction queue with
  | nil => exact .refl state []
  | cons m rest ih =>
    unfold MessageQueue.filtered
    rw [List.dropWhile_cons]
    split
    · rename_i gone
      have may : Droppable cfg state m ∧ state.afterDrop cfg m = state := by
        unfold Droppable Fsm.afterDrop
        simp only [Message.dropped, Bool.or_eq_true, Bool.and_eq_true, decide_eq_true_eq] at gone
        rcases gone with ⟨early, rejected | ⟨other, confirmed⟩⟩ | ⟨rfl, late⟩
        · exact ⟨Or.inl rejected, if_neg fun h => absurd h.1 (by omega)⟩
        · exact ⟨Or.inr (Or.inl ⟨confirmed, other⟩), if_neg fun h => absurd h.1 (by omega)⟩
        · exact ⟨Or.inr (Or.inr ⟨late, Or.inl rfl⟩), if_neg fun h => by cases h.2⟩
      refine .drop may.1 ?_
      rw [may.2]
      exact ih
    · exact .refl state (m :: rest)

end

/-- Way (a): a suffix of the queue is left, behind messages that may be dropped. -/
structure FilterStops (cfg : NetworkConfig) (c : Client) (resetLoop : Bool) (c' : Client) :
    Prop where
  suffix : c'.sendingQueue <:+ c.sendingQueue
  dropped : Drops cfg c.fsmState c.sendingQueue c'.fsmState c'.sendingQueue
  head : ∀ m rest, c'.sendingQueue = m :: rest → m.sendCount ≤ cfg.udpMaxRetries.val ∧
    m.msgFlags ≠ .msgFlagRejected ∧ (m.msgFlags = .msgFlagAuth ∨ m.confirmed = false)
  moved : c'.fsmState ≠ c.fsmState → c.fsmState = .fsmEndW84Conf ∧ c'.fsmState = .fsmEnd
  reset : c'.fsmState ≠ c.fsmState ↔ resetLoop = true

/-- Way (b): a message at the head has timed out, and the queue becomes an ERR and a BYE. -/
structure FilterReports (cfg : NetworkConfig) (c c' : Client) : Prop where
  late : ∃ state m rest, Drops cfg c.fsmState c.sendingQueue state (m :: rest) ∧
    cfg.udpMaxRetries.val < m.sendCount ∧ state ≠ .fsmErrW84Conf ∧ state ≠ .fsmEndW84Conf
  queue : ∃ err bye uid uid', c'.sendingQueue = [err, bye] ∧
    err.Fresh uid CommandType.cmdErr.toUChar .msgFlagErr ∧
    bye.Fresh uid' MsgType.msgBye.toUChar .msgFlagBye
  state : c'.fsmState = .fsmErr

section
variable {cfg : NetworkConfig} {t : Thread} {c : Client}

/-- What the filter leaves at the head is to be sent, if it is not late. -/
theorem filtered_sendable {state : Fsm} {queue : MessageQueue}
    (early : (queue.filtered cfg state).headLate cfg = false) :
    ∀ m rest, queue.filtered cfg state = m :: rest → m.sendCount ≤ cfg.udpMaxRetries.val ∧
      m.msgFlags ≠ .msgFlagRejected ∧ (m.msgFlags = .msgFlagAuth ∨ m.confirmed = false) := by
  intro m rest filtered
  have kept := (filtered_head filtered).1
  rw [filtered] at early
  have few : m.sendCount ≤ cfg.udpMaxRetries.val := by
    simpa [MessageQueue.headLate] using early
  simp only [Message.dropped, few, decide_true, Bool.true_and, Bool.or_eq_false_iff,
    decide_eq_false_iff_not, Bool.and_eq_false_iff, not_not] at kept
  exact ⟨few, kept⟩

/-- A head that is late starts an error report, unless an ERR or a BYE was sent. -/
theorem filterReports_of_timedOut {state : Fsm} {queue : MessageQueue} {c' : Client}
    (dropped : Drops cfg c.fsmState c.sendingQueue state queue)
    (bye : state = .fsmEndW84Conf → (queue.filtered cfg state).headLate cfg = false)
    (late : (queue.filtered cfg state).headLate cfg = true) (timedOut : TimedOut t c') :
    FilterReports cfg c c' := by
  refine ⟨?_, timedOut.queue, timedOut.state⟩
  cases filtered : queue.filtered cfg state with
  | nil =>
    rw [filtered] at late
    cases late
  | cons m rest =>
    have many : cfg.udpMaxRetries.val < m.sendCount := by
      rw [filtered] at late
      simpa [MessageQueue.headLate] using late
    refine ⟨state, m, rest, ?_, many, fun err => (filtered_head filtered).2 err many, ?_⟩
    · rw [← filtered]
      exact dropped.trans (drops_filtered cfg state queue)
    · intro waits
      rw [bye waits] at late
      cases late

/-- **The filter drops only what may be dropped.** On every queue, in every state and for
every limit, if a display name is stored, the filter ends in one of its two ways. -/
theorem filter_ends (cfg : NetworkConfig) (t : Thread) (running : c.status = .running)
    (named : Named c) {fuel : Nat} (enough : c.sendingQueue.length < fuel) :
    ∃ resetLoop c', (filterResentMessages cfg fuel).exec (Client.perform t) c =
        .done resetLoop c' ∧
      (FilterStops cfg c resetLoop c' ∨ FilterReports cfg c c') := by
  have start : (filterResentMessages cfg fuel).exec (Client.perform t) c =
      (filterLoop cfg fuel c.sendingQueue.getMessage false).exec (Client.perform t) c := by
    unfold filterResentMessages
    rw [queueGetMessage, exec_take_bind running]
    rfl
  rw [start]
  by_cases bye : c.fsmState = .fsmEndW84Conf →
      (c.sendingQueue.filtered cfg c.fsmState).headLate cfg = false
  · have ends : Filtered cfg t c (filterLoop cfg fuel c.sendingQueue.getMessage false) false _ :=
      filterLoop_filtered running enough bye false
    have dropped := drops_filtered cfg c.fsmState c.sendingQueue
    cases ends with
    | stops early run =>
      refine ⟨_, _, run, Or.inl ?_⟩
      exact ⟨dropped.suffix, dropped, filtered_sendable early, fun moved => absurd rfl moved,
        fun moved => absurd rfl moved, by rintro ⟨⟩⟩
    | reports late _ run timedOut =>
      exact ⟨_, _, run, Or.inr (filterReports_of_timedOut (.refl _ _) bye late timedOut)⟩
    | fails _ nameless => exact absurd named nameless
  · -- a BYE that timed out ends the program, and the filter goes on behind it
    obtain ⟨waits, late⟩ := Classical.not_imp.mp bye
    cases filtered : c.sendingQueue.filtered cfg c.fsmState with
    | nil =>
      rw [filtered] at late
      exact absurd rfl late
    | cons m rest =>
      have many : cfg.udpMaxRetries.val < m.sendCount := by
        rw [filtered] at late
        simpa [MessageQueue.headLate] using late
      obtain ⟨n, fuel', enough', run⟩ := filterLoop_filtered_bye (t := t) running enough waits
        filtered many false
      rw [Program.exec_advance run]
      have ends : Filtered cfg t { c with fsmState := .fsmEnd, sendingQueue := rest }
          (filterLoop cfg fuel' (MessageQueue.getMessage rest) true) true _ :=
        filterLoop_filtered (c := { c with fsmState := .fsmEnd, sendingQueue := rest })
          running enough' (by rintro ⟨⟩) true
      have first : Drops cfg c.fsmState c.sendingQueue .fsmEnd rest := by
        have front := drops_filtered cfg c.fsmState c.sendingQueue
        rw [filtered] at front
        refine front.trans (.drop (Or.inr (Or.inr ⟨many, Or.inr waits⟩)) ?_)
        rw [Fsm.afterDrop, if_pos ⟨many, waits⟩]
        exact .refl _ _
      have dropped := first.trans (drops_filtered cfg .fsmEnd rest)
      cases ends with
      | stops early run' =>
        refine ⟨_, _, run', Or.inl ?_⟩
        refine ⟨dropped.suffix, dropped, filtered_sendable early, fun _ => ⟨waits, rfl⟩,
          fun _ => rfl, fun _ same => ?_⟩
        rw [waits] at same
        cases same
      | reports late' _ run' timedOut =>
        exact ⟨_, _, run', Or.inr (filterReports_of_timedOut first (by rintro ⟨⟩) late' timedOut)⟩
      | fails _ nameless => exact absurd named nameless

end

/-- A client that waits for the CONFIRM of its BYE, which was sent twice. -/
def byeSentTwice : Client :=
  { programInterfaceInit (fun _ _ => 0xC4) ⟨some fun _ => 0, 10, 10⟩ with
    fsmState := .fsmEndW84Conf
    sendingQueue := [⟨0, [0xFF, 0, 0], 2, false, MsgType.msgBye.toUChar, .msgFlagBye⟩]
    comDetails := ⟨⟨some fun _ => 97, 1, 1⟩, .init, 0⟩
    nextUid := 1 }

theorem filter_ends_bye : ∃ resetLoop c',
    (filterResentMessages ⟨.protUDP, 1⟩ 2).exec (Client.perform .sender) byeSentTwice =
      .done resetLoop c' ∧
    (FilterStops ⟨.protUDP, 1⟩ byeSentTwice resetLoop c' ∨
      FilterReports ⟨.protUDP, 1⟩ byeSentTwice c') :=
  filter_ends (c := byeSentTwice) ⟨.protUDP, 1⟩ .sender rfl rfl (by decide)

end Ipk24Chat
