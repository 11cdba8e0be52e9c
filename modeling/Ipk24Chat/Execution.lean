import Ipk24Chat.Run
import Ipk24Chat.Effects

/-!
# Functions run at once

What the functions of the receiver do when no other thread moves in between. A
running process takes its actions as `Client.act` says.

* `sendConfirm_exec`, `lockedConfirm_exec`: a CONFIRM is put in front of the queue;
* `handleConfirmUDP_exec`: a CONFIRM is compared with the head of the queue;
* `handleReplyUDP_positive`, `handleReplyUDP_negative`, `handleReplyUDP_exec_ignored`:
  what becomes of a REPLY.
-/

namespace Ipk24Chat

section
variable {t : Thread} {c : Client} {α : Type}

theorem exec_take (running : c.status = .running) (a : Act) :
    (take a).exec (Client.perform t) c =
      match c.act t a with
      | .ok r c' => .done r c'
      | .halt c' => .halted c'
      | .blocked => .halted c := by
  simp only [take, Program.exec_perform, Client.perform, running]
  cases c.act t a <;> rfl

theorem exec_take_bind (running : c.status = .running) (a : Act) (f : a.Answer → Prog α) :
    (take a >>= f).exec (Client.perform t) c =
      match c.act t a with
      | .ok r c' => (f r).exec (Client.perform t) c'
      | .halt c' => .halted c'
      | .blocked => .halted c := by
  rw [Program.exec_bind, exec_take running]
  cases c.act t a <;> rfl

/-- A process that has stopped takes no action any more. -/
theorem exec_take_bind_stopped (stopped : c.status ≠ .running) (a : Act)
    (f : a.Answer → Prog α) : (take a >>= f).exec (Client.perform t) c = .halted c := by
  rw [Program.exec_bind, take, Program.exec_perform]
  cases status : c.status with
  | running => exact absurd status stopped
  | faulted | exited _ => simp [Client.perform, status]

end

/-- The CONFIRM of a received message, as `sendConfirm` makes it. -/
structure Message.IsConfirm (m : Message) (uid : Nat) (flags : MsgFlags) : Prop where
  uid : m.uid = uid
  type : m.type = MsgType.msgConf.toUChar
  msgFlags : m.msgFlags = flags

/-- A CONFIRM was put in front of the queue, by way of a buffer. -/
def Client.prioritized (c : Client) (m : Message) (scratch : Scratch → Buffer) (reallocs : Nat) :
    Client :=
  { c with
    sendingQueue := m :: c.sendingQueue
    nextUid := c.nextUid + 1
    history := .queued m :: c.history
    scratch := scratch
    reallocs := reallocs }

theorem sendConfirm_exec {c : Client} (running : c.status = .running) (cfg : NetworkConfig)
    (t : Thread) (serverResponse : Buffer) (flags : MsgFlags) :
    ∃ m scratch reallocs, m.IsConfirm c.nextUid flags ∧
      (sendConfirm cfg serverResponse flags).exec (Client.perform t) c =
        .done () (c.prioritized m scratch reallocs) := by
  unfold sendConfirm
  rw [exec_take_bind running]
  simp only [Client.act]
  rw [assembleProtocol, exec_take_bind (by exact running)]
  simp only [Client.act, assemble, assembleProtocolUDP, ProtocolBlocks.reset,
    uchar2CommandType_toUChar, Assembled.complete, if_true]
  rw [queueAddMessagePriority, exec_take (by exact running)]
  simp only [Client.act]
  exact ⟨_, _, _, ⟨rfl, rfl, rfl⟩, rfl⟩

theorem lockedConfirm_exec {c : Client} (running : c.status = .running) (unlocked : c.lock = none)
    (cfg : NetworkConfig) (t : Thread) (serverResponse : Buffer) :
    ∃ m scratch reallocs, m.IsConfirm c.nextUid .msgFlagConfirm ∧
      (lockedConfirm cfg serverResponse).exec (Client.perform t) c =
        .done () (c.prioritized m scratch reallocs) := by
  unfold lockedConfirm
  rw [queueLock, exec_take_bind running]
  simp only [Client.act, unlocked]
  obtain ⟨m, scratch, reallocs, confirm, run⟩ := sendConfirm_exec
    (c := { c with lock := some t }) running cfg t serverResponse .msgFlagConfirm
  rw [Program.exec_bind, run, Outcome.bind_done, queueUnlock, exec_take (by exact running)]
  refine ⟨m, scratch, reallocs, confirm, ?_⟩
  simp only [Client.act, Client.prioritized, unlocked]

/-! ## The handlers of the receiver -/

/-- The state behind an accepted CONFIRM. -/
def Fsm.afterConfirm : Fsm → Fsm
  | .fsmAuthSended => .fsmW84Reply
  | .fsmEndW84Conf => .fsmEnd
  | state => state

/-- What `handleConfirmUDP` makes of the state: only the head of the queue is looked
at. -/
def Client.confirmHead (c : Client) (msgID : Nat) : Client :=
  match c.sendingQueue with
  | [] => c
  | m :: _ =>
    if msgID ≠ m.msgID ∧ m.type ≠ MsgType.msgAuth.toUChar then c
    else
      { c with
        sendingQueue := c.sendingQueue.confirm (some m.uid)
        comDetails := { c.comDetails with msgCounter := (msgID + 1) % 65536 }
        fsmState := c.fsmState.afterConfirm
        history := .confirmed m (c.serverResponse.mem 1) (c.serverResponse.mem 2) :: c.history }

theorem deref_head (m : Message) (rest : MessageQueue) :
    MessageQueue.deref (m :: rest) (some m.uid) = some m := by
  simp [MessageQueue.deref]

theorem handleConfirmUDP_exec {c : Client} (running : c.status = .running)
    (unlocked : c.lock = none) (t : Thread) (msgID : Nat) :
    (handleConfirmUDP msgID).exec (Client.perform t) c = .done () (c.confirmHead msgID) := by
  obtain ⟨fsmState, queue, lock, com, input, scratch, response, seen, heap, reallocs, nextUid,
    status, history⟩ := c
  obtain rfl : status = .running := running
  obtain rfl : lock = none := unlocked
  cases queue with
  | nil => rfl
  | cons m rest =>
    unfold handleConfirmUDP
    rw [queueLock, exec_take_bind rfl]
    simp only [Client.act]
    rw [queueGetMessage, exec_take_bind rfl]
    simp only [Client.act, MessageQueue.getMessage, List.head?_cons, Option.map_some]
    rw [queueGetMessageID, exec_take_bind rfl]
    simp only [Client.act, MessageQueue.getMessageID]
    rw [message, exec_take_bind rfl]
    simp only [Client.act, deref_head, Client.confirmHead]
    split
    · rfl
    · rw [setConfirmed, exec_take_bind rfl]
      simp only [Client.act, deref_head]
      cases fsmState <;> rfl

/-- What an answered REPLY leaves behind: a CONFIRM in front of the queue. -/
structure Replied (c c' : Client) (flags : MsgFlags) (queue : MessageQueue) (state : Fsm) :
    Prop where
  running : c'.status = .running
  unlocked : c'.lock = none
  state : c'.fsmState = state
  queue : ∃ m, m.IsConfirm c.nextUid flags ∧ c'.sendingQueue = m :: queue

theorem flagAuthConfirmed_exec {c : Client} (running : c.status = .running)
    (unlocked : c.lock = none) (t : Thread) :
    flagAuthConfirmed.exec (Client.perform t) c =
      .done () { c with sendingQueue := if c.fsmState = .fsmW84Reply then
        c.sendingQueue.setMessageFlags .msgFlagConfirmed else c.sendingQueue } := by
  obtain ⟨fsmState, queue, lock, com, input, scratch, response, seen, heap, reallocs, nextUid,
    status, history⟩ := c
  obtain rfl : status = .running := running
  obtain rfl : lock = none := unlocked
  cases fsmState <;> rfl

theorem handlePositiveReplyUDP_exec {c : Client} (running : c.status = .running)
    (unlocked : c.lock = none) (cfg : NetworkConfig) (t : Thread) (tested : Fsm)
    (pBlocks : ProtocolBlocks) (serverResponse : Buffer) :
    ∃ c', (handlePositiveReplyUDP cfg tested pBlocks serverResponse).exec (Client.perform t) c =
        .done () c' ∧
      Replied c c' .msgFlagConfirm (if c.fsmState = .fsmW84Reply then
        c.sendingQueue.setMessageFlags .msgFlagConfirmed else c.sendingQueue) .fsmW84ReplyConf := by
  unfold handlePositiveReplyUDP
  rw [note, exec_take_bind running]
  simp only [Client.act]
  rw [Program.exec_bind, flagAuthConfirmed_exec (by exact running) (by exact unlocked),
    Outcome.bind_done, setProgramState, exec_take_bind (by exact running)]
  simp only [Client.act]
  rw [queueLock, exec_take_bind (by exact running)]
  simp only [Client.act, Client.log, unlocked]
  obtain ⟨m, scratch, reallocs, confirm, run⟩ := sendConfirm_exec
    (c := { c with
      sendingQueue := if c.fsmState = .fsmW84Reply then
        c.sendingQueue.setMessageFlags .msgFlagConfirmed else c.sendingQueue
      fsmState := .fsmW84ReplyConf
      history := .replyOk tested :: c.history
      lock := some t })
    running cfg t serverResponse .msgFlagConfirm
  rw [Program.exec_bind, run, Outcome.bind_done, queueUnlock, exec_take_bind (by exact running)]
  simp only [Client.act, Client.prioritized]
  rw [pthreadCondSignal, exec_take_bind (by exact running)]
  simp only [Client.act]
  rw [pthreadCondSignal, exec_take_bind (by exact running)]
  simp only [Client.act]
  rw [exec_take (by exact running)]
  exact ⟨_, rfl, running, rfl, rfl, m, confirm, rfl⟩

/-- What a negative REPLY makes of the message at the head and of the state. -/
def rejected (m : Message) (state : Fsm) : Message × Fsm :=
  if m.msgFlags = .msgFlagAuth then ({ m with msgFlags := .msgFlagRejected }, .fsmStart)
  else if state = .fsmJoinAtempt then (m, .fsmOpen)
  else (m, state)

theorem rejectAuth_leaveJoin_exec {c : Client} {α : Type} (running : c.status = .running)
    (t : Thread) {m : Message} {rest : MessageQueue} (queue : c.sendingQueue = m :: rest)
    (f : Prog α) :
    (rejectAuth >>= fun _ => leaveJoin >>= fun _ => f).exec (Client.perform t) c =
      f.exec (Client.perform t) { c with
        sendingQueue := (rejected m c.fsmState).1 :: rest
        fsmState := (rejected m c.fsmState).2 } := by
  obtain ⟨fsmState, _, lock, com, input, scratch, response, seen, heap, reallocs, nextUid, status,
    history⟩ := c
  obtain rfl : status = .running := running
  obtain rfl := queue
  rw [Program.exec_bind, rejectAuth, queueGetMessageFlags, exec_take_bind rfl]
  simp only [Client.act]
  by_cases auth : m.msgFlags = .msgFlagAuth
  · simp only [rejected, auth, if_true]
    rfl
  · simp only [rejected, auth, if_false, Program.pure_eq, Program.exec_ret, Outcome.bind_done]
    cases fsmState <;> rfl

theorem handleNegativeReplyUDP_exec {c : Client} (running : c.status = .running)
    (unlocked : c.lock = none) (cfg : NetworkConfig) (t : Thread)
    (pBlocks : ProtocolBlocks) (serverResponse : Buffer) {m : Message} {rest : MessageQueue}
    (queue : c.sendingQueue = m :: rest) :
    ∃ c', (handleNegativeReplyUDP cfg pBlocks serverResponse).exec (Client.perform t) c =
        .done () c' ∧
      Replied c c' .msgFlagNokReply ((rejected m c.fsmState).1 :: rest)
        (rejected m c.fsmState).2 := by
  unfold handleNegativeReplyUDP
  rw [queueLock, exec_take_bind running]
  simp only [Client.act, unlocked]
  rw [note, exec_take_bind (by exact running)]
  simp only [Client.act, Client.log]
  rw [rejectAuth_leaveJoin_exec (by exact running) t (by exact queue)]
  obtain ⟨n, scratch, reallocs, confirm, run⟩ := sendConfirm_exec
    (c := { c with
      sendingQueue := (rejected m c.fsmState).1 :: rest
      fsmState := (rejected m c.fsmState).2
      history := .replyNok :: c.history
      lock := some t })
    running cfg t serverResponse .msgFlagNokReply
  rw [Program.exec_bind, run, Outcome.bind_done, queueUnlock, exec_take_bind (by exact running)]
  simp only [Client.act, Client.prioritized]
  rw [exec_take_bind (by exact running)]
  simp only [Client.act]
  rw [pthreadCondSignal, exec_take (by exact running)]
  exact ⟨_, rfl, running, rfl, rfl, n, confirm, rfl⟩

/-- The states in which a REPLY is waited for in the UDP variant. -/
def Fsm.awaitsReply (state : Fsm) : Bool :=
  state == .fsmW84Reply || state == .fsmJoinAtempt

/-- In other states a REPLY is not even confirmed. -/
theorem handleReplyUDP_exec_ignored {c : Client} (running : c.status = .running)
    (cfg : NetworkConfig) (t : Thread) (msgID : Nat) (pBlocks : ProtocolBlocks)
    (serverResponse : Buffer) (ignored : c.fsmState.awaitsReply = false) :
    (handleReplyUDP cfg msgID pBlocks serverResponse).exec (Client.perform t) c = .done () c := by
  unfold handleReplyUDP
  rw [getProgramState, exec_take_bind running]
  simp only [Client.act]
  rw [if_neg (by rintro eq; simp [eq, Fsm.awaitsReply] at ignored), exec_take_bind running]
  simp only [Client.act]
  rw [if_neg (by rintro eq; simp [eq, Fsm.awaitsReply] at ignored)]
  rfl

/-- In the states that wait for it, a REPLY is answered as its result says. -/
theorem handleReplyUDP_exec {c : Client} (running : c.status = .running)
    (cfg : NetworkConfig) (t : Thread) (msgID : Nat) (pBlocks : ProtocolBlocks)
    (serverResponse : Buffer) (awaited : c.fsmState.awaitsReply = true) :
    (handleReplyUDP cfg msgID pBlocks serverResponse).exec (Client.perform t) c =
      ((answerReply cfg pBlocks serverResponse c.fsmState).exec (Client.perform t) c).bind
        fun _ c' => (note (.replyCounter msgID) >>= fun _ =>
          setMsgCounter (msgID + 1)).exec (Client.perform t) c' := by
  unfold handleReplyUDP
  rw [getProgramState, exec_take_bind running]
  simp only [Client.act]
  by_cases auth : c.fsmState = .fsmW84Reply
  · rw [if_pos auth, Program.exec_bind, auth]
  · have join : c.fsmState = .fsmJoinAtempt := by
      simpa [Fsm.awaitsReply, auth] using awaited
    rw [if_neg auth, exec_take_bind running]
    simp only [Client.act]
    rw [if_pos join, Program.exec_bind, join]

theorem replyCounter_exec {c c₀ : Client} {flags : MsgFlags} {queue : MessageQueue} {state : Fsm}
    (replied : Replied c₀ c flags queue state) (t : Thread) (msgID : Nat) :
    ∃ c', (note (.replyCounter msgID) >>= fun _ => setMsgCounter (msgID + 1)).exec
        (Client.perform t) c = .done () c' ∧ Replied c₀ c' flags queue state := by
  rw [note, exec_take_bind replied.running]
  simp only [Client.act]
  rw [setMsgCounter, exec_take (by exact replied.running)]
  exact ⟨_, rfl, replied.running, replied.unlocked, replied.state, replied.queue⟩

section
variable {c : Client} (running : c.status = .running) (unlocked : c.lock = none)
  (cfg : NetworkConfig) (t : Thread) (msgID : Nat) {pBlocks : ProtocolBlocks}
  (serverResponse : Buffer) (awaited : c.fsmState.awaitsReply = true)
include running unlocked awaited

theorem handleReplyUDP_positive (positive : positiveUDP pBlocks = true) :
    ∃ c', (handleReplyUDP cfg msgID pBlocks serverResponse).exec (Client.perform t) c =
        .done () c' ∧
      Replied c c' .msgFlagConfirm (if c.fsmState = .fsmW84Reply then
        c.sendingQueue.setMessageFlags .msgFlagConfirmed else c.sendingQueue) .fsmW84ReplyConf := by
  rw [handleReplyUDP_exec running cfg t msgID pBlocks serverResponse awaited, answerReply,
    if_pos positive]
  obtain ⟨c', run, replied⟩ := handlePositiveReplyUDP_exec running unlocked cfg t c.fsmState pBlocks
    serverResponse
  rw [run, Outcome.bind_done]
  exact replyCounter_exec replied t msgID

theorem handleReplyUDP_negative (negative : positiveUDP pBlocks = false) {m : Message}
    {rest : MessageQueue} (queue : c.sendingQueue = m :: rest) :
    ∃ c', (handleReplyUDP cfg msgID pBlocks serverResponse).exec (Client.perform t) c =
        .done () c' ∧
      Replied c c' .msgFlagNokReply ((rejected m c.fsmState).1 :: rest)
        (rejected m c.fsmState).2 := by
  rw [handleReplyUDP_exec running cfg t msgID pBlocks serverResponse awaited, answerReply,
    if_neg (by simp [negative])]
  obtain ⟨c', run, replied⟩ := handleNegativeReplyUDP_exec running unlocked cfg t pBlocks
    serverResponse queue
  rw [run, Outcome.bind_done]
  exact replyCounter_exec replied t msgID

end

end Ipk24Chat
