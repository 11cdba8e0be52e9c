import Ipk24Chat.Display

/-!
# What a REPLY can change

A REPLY carries the ID of the request it refers to. The decoder finds it, and
nothing reads it: whether a REPLY is acted on is decided by the state and by what
was received before.

* `afterReply_moved`: the states in which a REPLY changes anything;
* `receiverFSM_refMsgID`: the ID a REPLY refers to plays no part.
-/

namespace Ipk24Chat

/-- The flags of the AUTHs in the queue. -/
def MessageQueue.authFlags (queue : MessageQueue) : List (Nat × MsgFlags) :=
  (queue.filter fun m => m.type == MsgType.msgAuth.toUChar).map fun m => (m.uid, m.msgFlags)

theorem MessageQueue.authFlags_cons {m : Message} (queue : MessageQueue)
    (other : m.type ≠ MsgType.msgAuth.toUChar) : authFlags (m :: queue) = queue.authFlags := by
  simp [authFlags, other]

/-- The call left the state of the machine and the flags of the AUTHs alone. -/
def Unmoved (c c' : Client) : Prop :=
  c'.fsmState = c.fsmState ∧ c'.sendingQueue.authFlags = c.sendingQueue.authFlags

section
variable {cfg : NetworkConfig} {c : Client} {msgID : Nat} {pBlocks : ProtocolBlocks}

/-- A process that ended, or whose lock is taken, does not get into the filter. -/
theorem receiverFSM_blocked (udp : cfg.protocol = .protUDP) (serverResponse : Buffer)
    (blocked : ¬ (c.status = .running ∧ c.lock = none)) :
    ((receiverFSM cfg msgID pBlocks serverResponse).exec (Client.perform .receiver) c).state =
      c := by
  have stuck : Client.perform .receiver .queueLock c = .blocked := by
    unfold Client.perform
    split
    · rename_i running
      cases lock : c.lock with
      | none => exact absurd ⟨running, lock⟩ blocked
      | some t => simp [Client.act, lock]
    · rfl
  unfold receiverFSM
  simp only [udp, repetitive]
  rw [queueLock, take, Program.perform, Program.act_bind, Program.act_bind, Program.exec]
  rw [stuck]
  rfl

/-- A repetitive REPLY is confirmed once more. -/
theorem receiverFSM_repetitive (udp : cfg.protocol = .protUDP) (running : c.status = .running)
    (unlocked : c.lock = none) (header : 3 ≤ c.serverResponse.used)
    (reply : uchar2msgType pBlocks.type = .msgReply)
    (seen : queueContainsMessageId c.confirmedMessages c.serverResponse pBlocks.type = true) :
    Unmoved c ((receiverFSM cfg msgID pBlocks c.serverResponse).exec (Client.perform .receiver)
      c).state := by
  have filtered : (repetitive cfg pBlocks c.serverResponse).exec (Client.perform .receiver) c =
    _ := repetitive_exec pBlocks running unlocked header
  rw [seen] at filtered
  obtain ⟨m, scratch, reallocs, confirm, run⟩ := lockedConfirm_exec
    (c := { c with
      confirmedMessages := remember c.confirmedMessages c.serverResponse pBlocks.type })
    running unlocked cfg .receiver c.serverResponse
  unfold receiverFSM
  simp only [udp, receiverAction, reply]
  rw [Program.exec_bind, filtered, Outcome.bind_done, if_pos rfl, run]
  refine ⟨rfl, MessageQueue.authFlags_cons _ ?_⟩
  rw [confirm.type]
  decide

/-- A REPLY that is not waited for is remembered, and that is all. -/
theorem receiverFSM_ignored (udp : cfg.protocol = .protUDP) (running : c.status = .running)
    (unlocked : c.lock = none) (header : 3 ≤ c.serverResponse.used)
    (reply : uchar2msgType pBlocks.type = .msgReply)
    (new : queueContainsMessageId c.confirmedMessages c.serverResponse pBlocks.type = false)
    (ignored : c.fsmState.awaitsReply = false) :
    (receiverFSM cfg msgID pBlocks c.serverResponse).exec (Client.perform .receiver) c =
      .done () { c with
        confirmedMessages := remember c.confirmedMessages c.serverResponse pBlocks.type } := by
  have filtered : (repetitive cfg pBlocks c.serverResponse).exec (Client.perform .receiver) c =
    _ := repetitive_exec pBlocks running unlocked header
  rw [new] at filtered
  unfold receiverFSM
  simp only [udp, receiverAction, reply]
  rw [Program.exec_bind, filtered, Outcome.bind_done, if_neg (by decide)]
  exact handleReplyUDP_exec_ignored (by exact running) _ _ _ _ _ (by exact ignored)

/-- The client behind the call of `receiverFSM` for what is in the receive buffer. -/
def Client.afterReply (c : Client) (cfg : NetworkConfig) (d : Disassembled) : Client :=
  ((receiverFSM cfg d.msgId d.pBlocks c.serverResponse).exec (Client.perform .receiver) c).state

/-- A REPLY moves the state of the machine or the flags of a queued AUTH only if the state
waits for a REPLY and this one is not recognised as received before (or it is shorter than
its own header, which is an internal error). -/
theorem afterReply_moved (udp : cfg.protocol = .protUDP) {d : Disassembled}
    (reply : uchar2msgType d.pBlocks.type = .msgReply) (moved : ¬ Unmoved c (c.afterReply cfg d)) :
    c.fsmState.awaitsReply = true ∧
        queueContainsMessageId c.confirmedMessages c.serverResponse d.pBlocks.type = false ∨
      c.serverResponse.used < 3 := by
  by_cases short : c.serverResponse.used < 3
  · exact Or.inr short
  have header : 3 ≤ c.serverResponse.used := by omega
  left
  by_contra closed
  apply moved
  by_cases open' : c.status = .running ∧ c.lock = none
  · obtain ⟨running, unlocked⟩ := open'
    cases seen : queueContainsMessageId c.confirmedMessages c.serverResponse d.pBlocks.type with
    | true => exact receiverFSM_repetitive udp running unlocked header reply seen
    | false =>
      have ignored : c.fsmState.awaitsReply = false := by simpa [seen] using closed
      unfold Client.afterReply
      rw [receiverFSM_ignored udp running unlocked header reply seen ignored]
      exact ⟨rfl, rfl⟩
  · unfold Client.afterReply
    rw [receiverFSM_blocked udp _ open']
    exact ⟨rfl, rfl⟩

end

/-- The ID that a REPLY refers to is not read. -/
theorem receiverFSM_refMsgID (cfg : NetworkConfig) (msgID : Nat) (pBlocks : ProtocolBlocks)
    (serverResponse : Buffer) (refMsgID : BytesBlock)
    (reply : uchar2msgType pBlocks.type = .msgReply) :
    receiverFSM cfg msgID { pBlocks with first := refMsgID } serverResponse =
      receiverFSM cfg msgID pBlocks serverResponse := by
  unfold receiverFSM repetitive receiverAction
  simp only [reply]
  rfl

/-- The client when a datagram is in its receive buffer. -/
def Client.receiving (c : Client) (datagram : List UInt8) : Client :=
  { c with serverResponse := Client.receive c.serverResponse datagram }

theorem receiving_header (c : Client) (type low high : UInt8) (behind : List UInt8) :
    (c.receiving (type :: low :: high :: behind)).serverResponse.mem 0 = type ∧
      (c.receiving (type :: low :: high :: behind)).serverResponse.mem 1 = low ∧
      (c.receiving (type :: low :: high :: behind)).serverResponse.mem 2 = high := by
  have spelled : (c.receiving (type :: low :: high :: behind)).serverResponse.mem.read 0
      (type :: low :: high :: behind).length = type :: low :: high :: behind :=
    Memory.read_write_self _ 0 _
  refine ⟨Memory.read_eq_cons spelled, ?_, ?_⟩
  · exact Memory.read_eq_cons (Memory.read_split (a := [_]) spelled).2
  · exact Memory.read_eq_cons (Memory.read_split (a := [_, _]) spelled).2

end Ipk24Chat
