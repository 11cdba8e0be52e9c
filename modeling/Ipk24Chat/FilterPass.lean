import Ipk24Chat.ErrorReport

/-!
# The filter of the sender, run at once

`filterResentMessages` when no other thread moves in between.

* `MessageQueue.filtered`: the queue that is left when messages are thrown away;
* `filterLoop_drops`: the loop comes to that queue;
* `filterLoop_stops`, `filterLoop_late`, `filterLoop_bye`: what it does there;
* `requestTimedOut_exec`: a time-out is reported, if there is a name;
* `filterLoop_filtered`, `filterLoop_filtered_bye`: the filter as a whole.
-/

namespace Ipk24Chat

section
variable {cfg : NetworkConfig} {t : Thread} {c c' : Client}

/-- Messages that the filter throws away although they have not timed out. -/
def Message.dropped (cfg : NetworkConfig) (m : Message) : Bool :=
  m.sendCount ≤ cfg.udpMaxRetries.val &&
    (m.msgFlags = .msgFlagRejected || (m.msgFlags ≠ .msgFlagAuth && m.confirmed))

/-- The queue at which `filterResentMessages` comes to a stop or to a time-out. Behind an
ERR that was sent, messages that timed out are thrown away too. -/
def MessageQueue.filtered (cfg : NetworkConfig) (state : Fsm) (queue : MessageQueue) :
    MessageQueue :=
  queue.dropWhile fun m =>
    m.dropped cfg || (state = .fsmErrW84Conf && cfg.udpMaxRetries.val < m.sendCount)

theorem filtered_head {state : Fsm} {queue : MessageQueue} {m : Message} {rest : MessageQueue}
    (filtered : queue.filtered cfg state = m :: rest) :
    m.dropped cfg = false ∧ (state = .fsmErrW84Conf → ¬ cfg.udpMaxRetries.val < m.sendCount) := by
  have head := List.head?_dropWhile_not (fun m : Message =>
    m.dropped cfg || (state = .fsmErrW84Conf && cfg.udpMaxRetries.val < m.sendCount)) queue
  rw [← MessageQueue.filtered, filtered] at head
  simpa using head

/-- The end of a round that throws the head away. -/
theorem filterNext_advance (running : c.status = .running) {m : Message} {rest : MessageQueue}
    (queue : c.sendingQueue = m :: rest) (fuel : Nat) (resetLoop : Bool) :
    (queuePopMessage >>= fun _ => queueGetMessage >>= fun msgToBeSend =>
        filterLoop cfg fuel msgToBeSend resetLoop).advance (Client.perform t) 2 c =
      some (filterLoop cfg fuel (MessageQueue.getMessage rest) resetLoop,
        { c with sendingQueue := rest }) := by
  rw [queuePopMessage, advance_take_bind running]
  simp only [Client.act, queue, MessageQueue.popMessage, List.tail_cons]
  rw [queueGetMessage, advance_take_bind (by exact running)]
  simp only [Client.act, Program.advance]

theorem filterLoop_round (running : c.status = .running) {m : Message} {rest : MessageQueue}
    (queue : c.sendingQueue = m :: rest)
    (gone : (m.dropped cfg || (c.fsmState = .fsmErrW84Conf &&
      cfg.udpMaxRetries.val < m.sendCount)) = true) (fuel : Nat) (resetLoop : Bool) :
    (filterLoop cfg (fuel + 1) (some m.uid) resetLoop).advance (Client.perform t) 4 c =
      some (filterLoop cfg fuel (MessageQueue.getMessage rest) resetLoop,
        { c with sendingQueue := rest }) := by
  have next : (queuePopMessage >>= fun _ => queueGetMessage >>= fun msgToBeSend =>
      filterLoop cfg fuel msgToBeSend resetLoop).advance (Client.perform t) 2 c = _ :=
    filterNext_advance running queue fuel resetLoop
  rw [filterLoop, queueGetSendedCounter, advance_take_bind running]
  simp only [Client.act, queue]
  by_cases late : cfg.udpMaxRetries.val < m.sendCount
  · have sent : c.fsmState = .fsmErrW84Conf := by
      simp only [Message.dropped, Bool.or_eq_true, Bool.and_eq_true, decide_eq_true_eq] at gone
      rcases gone with early | known
      · omega
      · exact known.1
    rw [if_pos late, getProgramState, advance_take_bind running]
    simp only [Client.act, if_pos sent]
    exact next
  · have out : m.msgFlags = .msgFlagRejected ∨
        m.msgFlags ≠ .msgFlagAuth ∧ m.confirmed = true := by
      simp only [Message.dropped, late, decide_false, Bool.and_false, Bool.or_false,
        Bool.and_eq_true, Bool.or_eq_true, decide_eq_true_eq] at gone
      exact gone.2
    rw [if_neg late, message, advance_take_bind running]
    simp only [Client.act, queue, deref_head]
    by_cases rejected : m.msgFlags = .msgFlagRejected
    · rw [if_pos rejected]
      exact next
    · obtain ⟨other, confirmed⟩ := out.resolve_left rejected
      rw [if_neg rejected, if_neg other, if_neg (by simp [confirmed])]
      exact next

/-- The loop comes to the filtered queue. -/
theorem filterLoop_drops (running : c.status = .running) {fuel : Nat}
    (enough : c.sendingQueue.length < fuel) (resetLoop : Bool) :
    ∃ n fuel', (c.sendingQueue.filtered cfg c.fsmState).length ≤ fuel' ∧
      (filterLoop cfg fuel c.sendingQueue.getMessage resetLoop).advance (Client.perform t) n c =
        some (filterLoop cfg (fuel' + 1)
            (c.sendingQueue.filtered cfg c.fsmState).getMessage resetLoop,
          { c with sendingQueue := c.sendingQueue.filtered cfg c.fsmState }) := by
  obtain ⟨fuel, rfl⟩ : ∃ k, fuel = k + 1 := ⟨fuel - 1, by omega⟩
  induction queue : c.sendingQueue generalizing c fuel with
  | nil =>
    have same : MessageQueue.filtered cfg c.fsmState [] = [] := rfl
    rw [same, ← queue]
    exact ⟨0, fuel, by omega, rfl⟩
  | cons m rest ih =>
    by_cases gone : (m.dropped cfg || (c.fsmState = .fsmErrW84Conf &&
      cfg.udpMaxRetries.val < m.sendCount)) = true
    · have first := filterLoop_round (t := t) running queue gone fuel resetLoop
      obtain ⟨fuel, rfl⟩ : ∃ k, fuel = k + 1 := by
        rw [queue, List.length_cons] at enough
        exact ⟨fuel - 1, by omega⟩
      obtain ⟨n, fuel', enough', run⟩ := ih (c := { c with sendingQueue := rest }) running fuel
        (by rw [queue, List.length_cons] at enough; simpa using enough) rfl
      refine ⟨4 + n, fuel', ?_⟩
      have same : MessageQueue.filtered cfg c.fsmState (m :: rest) =
          MessageQueue.filtered cfg c.fsmState rest := by
        simp only [MessageQueue.filtered, List.dropWhile_cons, gone, if_true]
      rw [same]
      refine ⟨enough', ?_⟩
      simp only [MessageQueue.getMessage, List.head?_cons, Option.map_some]
      rw [Program.advance_add first]
      exact run
    · have same : MessageQueue.filtered cfg c.fsmState (m :: rest) = m :: rest := by
        simp only [MessageQueue.filtered, List.dropWhile_cons, gone]
        rfl
      rw [same, ← queue]
      exact ⟨0, fuel, by omega, rfl⟩

/-- A message that is neither dropped nor too late stays at the head. -/
theorem filterLoop_stops (running : c.status = .running) {m : Message} {rest : MessageQueue}
    (queue : c.sendingQueue = m :: rest) (kept : m.dropped cfg = false)
    (early : m.sendCount ≤ cfg.udpMaxRetries.val) (fuel : Nat) (resetLoop : Bool) :
    (filterLoop cfg (fuel + 1) (some m.uid) resetLoop).exec (Client.perform t) c =
      .done resetLoop c := by
  have stays : m.msgFlags ≠ .msgFlagRejected ∧
      (m.msgFlags = .msgFlagAuth ∨ m.confirmed = false) := by
    simp only [Message.dropped, early, decide_true, Bool.true_and, Bool.or_eq_false_iff,
      decide_eq_false_iff_not, Bool.and_eq_false_iff] at kept
    exact ⟨kept.1, kept.2.imp_left fun h => not_not.mp h⟩
  unfold filterLoop
  rw [queueGetSendedCounter, exec_take_bind running]
  simp only [Client.act, queue]
  rw [if_neg (by omega), message, exec_take_bind running]
  simp only [Client.act, queue, deref_head]
  rw [if_neg stays.1]
  by_cases auth : m.msgFlags = .msgFlagAuth
  · rw [if_pos auth]
    rfl
  · rw [if_neg auth, if_pos (stays.2.resolve_left auth)]
    rfl

theorem filterLoop_late (running : c.status = .running) {m : Message} {rest : MessageQueue}
    (queue : c.sendingQueue = m :: rest) (late : cfg.udpMaxRetries.val < m.sendCount)
    (err : c.fsmState ≠ .fsmErrW84Conf) (bye : c.fsmState ≠ .fsmEndW84Conf) (fuel : Nat)
    (resetLoop : Bool) :
    (filterLoop cfg (fuel + 1) (some m.uid) resetLoop).advance (Client.perform t) 3 c =
      some (requestTimedOut cfg >>= fun _ => pure resetLoop, c) := by
  rw [filterLoop, queueGetSendedCounter, advance_take_bind running]
  simp only [Client.act, queue]
  rw [if_pos late, getProgramState, advance_take_bind running]
  simp only [Client.act, if_neg err]
  rw [advance_take_bind running]
  simp only [Client.act, if_neg bye, Program.advance]

/-- A loop that is to be reset stays so. -/
theorem filterLoop_resets (fuel : Nat) (p : MsgPtr) :
    (filterLoop cfg fuel p true).Results (fun _ _ => True) fun reset => reset = true := by
  induction fuel generalizing p with
  | zero => exact fun none => none.elim
  | succ fuel ih =>
    have next : (queuePopMessage >>= fun _ => queueGetMessage >>= fun msgToBeSend =>
        filterLoop cfg fuel msgToBeSend true).Results (fun _ _ => True) fun reset =>
          reset = true := Program.results_bind fun _ => Program.results_bind fun p => ih p
    cases p with
    | none => rfl
    | some uid =>
      unfold filterLoop
      refine Program.results_bind fun sended => ?_
      split
      · refine Program.results_bind fun state => ?_
        split
        · exact next
        · refine Program.results_bind fun state => ?_
          split
          · exact Program.results_bind fun _ => Program.results_bind fun _ => next
          · exact Program.results_bind fun _ => rfl
      · refine Program.results_bind fun m => ?_
        split
        · exact next
        · split
          · rfl
          · split
            · rfl
            · exact next

/-- While a CONFIRM of the BYE is waited for, a time-out ends the program and resets the
loop. -/
theorem filterLoop_bye (running : c.status = .running) {m : Message} {rest : MessageQueue}
    (queue : c.sendingQueue = m :: rest) (late : cfg.udpMaxRetries.val < m.sendCount)
    (bye : c.fsmState = .fsmEndW84Conf) (fuel : Nat) (resetLoop : Bool) :
    (filterLoop cfg (fuel + 1) (some m.uid) resetLoop).advance (Client.perform t) 7 c =
      some (filterLoop cfg fuel (MessageQueue.getMessage rest) true,
        { c with fsmState := .fsmEnd, sendingQueue := rest }) := by
  have next : (queuePopMessage >>= fun _ => queueGetMessage >>= fun msgToBeSend =>
      filterLoop cfg fuel msgToBeSend true).advance (Client.perform t) 2
        { c with fsmState := .fsmEnd } = _ :=
    filterNext_advance (c := { c with fsmState := .fsmEnd }) running queue fuel true
  rw [filterLoop, queueGetSendedCounter, advance_take_bind running]
  simp only [Client.act, queue]
  rw [if_pos late, getProgramState, advance_take_bind running]
  simp only [Client.act]
  rw [if_neg (by simp [bye]), advance_take_bind running]
  simp only [Client.act]
  rw [if_pos bye, setProgramState, advance_take_bind running]
  simp only [Client.act]
  rw [pthreadCondSignal, advance_take_bind (by exact running)]
  simp only [Client.act]
  exact next

/-- What a time-out leaves behind. -/
structure TimedOut (t : Thread) (c : Client) : Prop where
  running : c.status = .running
  held : c.lock = some t
  state : c.fsmState = .fsmErr
  named : Named c
  queue : ∃ err bye uid uid', c.sendingQueue = [err, bye] ∧
    err.Fresh uid CommandType.cmdErr.toUChar .msgFlagErr ∧
    bye.Fresh uid' MsgType.msgBye.toUChar .msgFlagBye

/-- A time-out is reported by an ERR and a BYE, unless there is no name for the ERR. -/
theorem requestTimedOut_exec (cfg : NetworkConfig) (t : Thread) (running : c.status = .running)
    (named : Named c) :
    ∃ c', (requestTimedOut cfg).exec (Client.perform t) c = .done () c' ∧ TimedOut t c' := by
  unfold requestTimedOut
  rw [safePrint, exec_take_bind running]
  simp only [Client.act]
  rw [queuePopAllMessages, exec_take_bind running]
  simp only [Client.act]
  rw [setProgramState, exec_take_bind (by exact running)]
  simp only [Client.act]
  rw [queueUnlock, exec_take_bind (by exact running)]
  simp only [Client.act]
  obtain ⟨err, scratch, reallocs, fresh, run⟩ := sendError_named cfg t
    (c := { c with sendingQueue := [], fsmState := .fsmErr, lock := none }) running rfl named
    .protocolToSendedBySender "Request timed out"
  rw [Program.exec_bind, run, Outcome.bind_done]
  obtain ⟨bye, scratch', reallocs', fresh', run'⟩ := sendBye_exec
    (c := { c with sendingQueue := [], fsmState := .fsmErr, lock := none }.appended err scratch
      reallocs) running rfl cfg t
  rw [Program.exec_bind, run', Outcome.bind_done]
  rw [pthreadCondSignal, exec_take_bind (by exact running)]
  simp only [Client.act]
  rw [queueLock, exec_take (by exact running)]
  exact ⟨_, rfl, running, rfl, rfl, named, err, bye, _, _, rfl, fresh, fresh'⟩

/-- Without a name `errHandling` is called with the lock held. -/
theorem sendError_unnamed (running : c.status = .running) (unlocked : c.lock = none)
    (nameless : ¬ Named c) (buffer : Scratch) (text : String) :
    Fails cfg t (sendError cfg buffer text) c := by
  obtain ⟨fsmState, queue, lock, com, input, scratch, response, seen, heap, reallocs, nextUid,
    status, history⟩ := c
  obtain rfl : status = .running := running
  obtain rfl : lock = none := unlocked
  obtain ⟨protocol, retries⟩ := cfg
  obtain ⟨⟨data, size, used⟩, channel, counter⟩ := com
  cases data with
  | none =>
    cases protocol <;>
      exact ⟨4, ⟨"Assembling of error protocol failed\n", .errInternalUnexpectedResult⟩, _, rfl⟩
  | some mem => exact absurd rfl nameless

theorem requestTimedOut_unnamed (running : c.status = .running) (nameless : ¬ Named c) :
    Fails cfg t (requestTimedOut cfg) c := by
  have failed : Fails cfg t (sendError cfg .protocolToSendedBySender "Request timed out")
      { c with sendingQueue := [], fsmState := .fsmErr, lock := none } :=
    sendError_unnamed (by exact running) rfl (by exact nameless) _ _
  have first : (requestTimedOut cfg).advance (Client.perform t) 4 c =
      some (do
        sendError cfg .protocolToSendedBySender "Request timed out"
        sendBye cfg
        pthreadCondSignal .mainCond
        queueLock,
      { c with sendingQueue := [], fsmState := .fsmErr, lock := none }) := by
    obtain ⟨fsmState, queue, lock, com, input, scratch, response, seen, heap, reallocs, nextUid,
      status, history⟩ := c
    obtain rfl : status = .running := running
    rfl
  exact Fails.of_advance first (failed.bind _)

/-! ## The whole filter -/

/-- How the loop body goes on behind its filter. -/
def filteredBody (cfg : NetworkConfig) (bytesTx : Int) (resetLoop : Bool) : Prog Point :=
  if resetLoop then pure .protocolSender else senderBody cfg bytesTx

/-- The message at the head was sent too often. -/
def MessageQueue.headLate (cfg : NetworkConfig) : MessageQueue → Bool
  | [] => false
  | m :: _ => cfg.udpMaxRetries.val < m.sendCount

/-- How the filter ends: at a head that it leaves alone, or with a time-out, which fails
without a name. -/
inductive Filtered (cfg : NetworkConfig) (t : Thread) (c : Client) (q : Prog Bool)
    (resetLoop : Bool) (queue : MessageQueue) : Prop
  | stops (early : queue.headLate cfg = false)
    (run : q.exec (Client.perform t) c = .done resetLoop { c with sendingQueue := queue })
  | reports {c' : Client} (late : queue.headLate cfg = true) (named : Named c)
    (run : q.exec (Client.perform t) c = .done resetLoop c') (timedOut : TimedOut t c')
  | fails (late : queue.headLate cfg = true) (nameless : ¬ Named c) (failed : Fails cfg t q c)

theorem filterLoop_filtered (running : c.status = .running) {fuel : Nat}
    (enough : c.sendingQueue.length < fuel)
    (bye : c.fsmState = .fsmEndW84Conf →
      (c.sendingQueue.filtered cfg c.fsmState).headLate cfg = false) (resetLoop : Bool) :
    Filtered cfg t c (filterLoop cfg fuel c.sendingQueue.getMessage resetLoop) resetLoop
      (c.sendingQueue.filtered cfg c.fsmState) := by
  obtain ⟨n, fuel', -, drops⟩ : ∃ n fuel', _ := filterLoop_drops (t := t) running enough resetLoop
  have comes := Program.exec_advance drops
  cases queue : c.sendingQueue.filtered cfg c.fsmState with
  | nil =>
    rw [queue] at comes
    exact .stops rfl comes
  | cons m rest =>
    obtain ⟨kept, errs⟩ := filtered_head queue
    rw [queue] at comes drops bye
    by_cases late : cfg.udpMaxRetries.val < m.sendCount
    · have state : c.fsmState ≠ .fsmEndW84Conf := by
        intro waits
        simpa [MessageQueue.headLate, late] using bye waits
      have timedOut := filterLoop_late (t := t) (c := { c with sendingQueue := m :: rest })
        running rfl late (fun err => errs err late) state fuel' resetLoop
      have run := comes.trans (Program.exec_advance timedOut)
      by_cases named : Named c
      · obtain ⟨c', report, behind⟩ := requestTimedOut_exec cfg t
          (c := { c with sendingQueue := m :: rest }) running named
        rw [Program.exec_bind, report, Outcome.bind_done] at run
        exact .reports (by simpa [MessageQueue.headLate] using late) named run behind
      · have failed : Fails cfg t (requestTimedOut cfg) { c with sendingQueue := m :: rest } :=
          requestTimedOut_unnamed (by exact running) (by exact named)
        refine .fails (by simpa [MessageQueue.headLate] using late) named ?_
        exact .of_advance drops (.of_advance timedOut (failed.bind _))
    · refine .stops (by simpa [MessageQueue.headLate] using late) (comes.trans ?_)
      exact filterLoop_stops (by exact running) rfl kept (by omega) fuel' resetLoop

/-- While the CONFIRM of the BYE is waited for, a head that timed out ends the program,
and the filter goes on behind it. -/
theorem filterLoop_filtered_bye (running : c.status = .running) {fuel : Nat}
    (enough : c.sendingQueue.length < fuel) (state : c.fsmState = .fsmEndW84Conf)
    {m : Message} {rest : MessageQueue}
    (queue : c.sendingQueue.filtered cfg c.fsmState = m :: rest)
    (late : cfg.udpMaxRetries.val < m.sendCount) (resetLoop : Bool) :
    ∃ n fuel', rest.length < fuel' ∧
      (filterLoop cfg fuel c.sendingQueue.getMessage resetLoop).advance (Client.perform t) n c =
        some (filterLoop cfg fuel' (MessageQueue.getMessage rest) true,
          { c with fsmState := .fsmEnd, sendingQueue := rest }) := by
  obtain ⟨n, fuel', enough', drops⟩ : ∃ n fuel', _ :=
    filterLoop_drops (t := t) running enough resetLoop
  rw [queue] at drops enough'
  have bye := filterLoop_bye (t := t) (c := { c with sendingQueue := m :: rest }) running rfl late
    state fuel' resetLoop
  refine ⟨n + 7, fuel', ?_, ?_⟩
  · rw [List.length_cons] at enough'
    omega
  · rw [Program.advance_add drops]
    exact bye

end

end Ipk24Chat
