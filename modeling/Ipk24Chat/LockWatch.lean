import Ipk24Chat.ErrorReport

/-!
# Watching the lock of the queue

The calls of `queueLock` and `queueUnlock` along the code of the sender and of the
receiver.

* `lockWatch`: the calls alternate and the queue is touched with the lock held only;
* `KeepsLock`: a program that follows these rules from a free lock to a free lock;
* `Guarded`: code that follows the rules on every path on which it returns. All of the
  sender's code behind the first lock is, and all of the receiver's but the answer to an
  unknown message in the UDP variant.
-/

namespace Ipk24Chat

/-- Actions that read or change `sendingQueue` or a message in it. The queue of the
message IDs that were received is another one. -/
def Act.touchesQueue : Act → Bool
  | .queueIsEmpty | .queueGetMessage | .queueGetMessageMsgType | .queueGetMessageFlags => true
  | .queueSetMessageFlags _ | .queueGetMessageID | .queueSetMessageID => true
  | .queueGetSendedCounter | .queueMessageSended | .queuePopMessage | .queuePopAllMessages => true
  | .queueAddMessage .. | .queueAddMessagePriority .. => true
  | .message _ | .setConfirmed _ | .sendto _ => true
  | _ => false

/-- The monitor of one thread: whether it holds the lock. -/
def lockWatch : Act → Bool → Option Bool
  | .queueLock, held => if held then none else some true
  | .queueUnlock, held => if held then some false else none
  | a, held => if a.touchesQueue && !held then none else some held

/-- The program follows the rules from a free lock to a free lock. A program that ends
in `errHandling` does not: the queue is destroyed there, or locked once more. -/
def KeepsLock {α : Type} (t : Thread) (q : Prog α) (c : Client) : Prop :=
  ∃ a c', q.monitored (Client.perform t) lockWatch false c = some (false, a, c')

/-! ## Code that heeds the lock -/

/-- On every path on which it returns, the code follows the rules, from `held` to `Q`. -/
abbrev Guarded {α : Type} (held : Bool) (q : Prog α) (Q : α → Bool → Prop) : Prop :=
  q.Heeds lockWatch Q held

section
variable {α β : Type} {cfg : NetworkConfig} {held : Bool}

theorem guarded_take {a : Act} {f : a.Answer → Prog α} {Q : α → Bool → Prop} {held' : Bool}
    (follows : lockWatch a held = some held') (rest : ∀ r, Guarded held' (f r) Q) :
    Guarded held (take a >>= f) Q := Program.heeds_act follows rest

theorem guarded_only {a : Act} {held' : Bool} (follows : lockWatch a held = some held') :
    Guarded held (take a) fun _ h => h = held' := Program.heeds_act follows fun _ => rfl

/-- A part that ends with the lock held or not held, whatever its value. -/
theorem guarded_bind {p : Prog α} {f : α → Prog β} {Q : β → Bool → Prop} {held' : Bool}
    (hp : Guarded held p fun _ h => h = held') (rest : ∀ a, Guarded held' (f a) Q) :
    Guarded held (p >>= f) Q :=
  Program.heeds_bind hp fun a _ eq => eq ▸ rest a

theorem guarded_errHandling (f : Failure) (Q : α → Bool → Prop) :
    Guarded held (errHandling cfg f : Prog α) Q :=
  Program.heeds_of_results (errHandling_results _ f)

theorem sendBye_guarded : Guarded false (sendBye cfg) fun _ h => h = false := by
  unfold sendBye
  refine guarded_take rfl fun _ => guarded_take rfl fun _ => guarded_take rfl fun _ => ?_
  exact guarded_only rfl

theorem sendConfirm_guarded (serverResponse : Buffer) (flags : MsgFlags) :
    Guarded true (sendConfirm cfg serverResponse flags) fun _ h => h = true := by
  unfold sendConfirm
  refine guarded_take rfl fun _ => guarded_take rfl fun result => ?_
  cases result with
  | error f => exact guarded_errHandling f _
  | ok r =>
    change Guarded true (if r.canBeSended = true then _ else _) _
    split
    · exact guarded_only rfl
    · exact guarded_errHandling _ _

theorem sendError_guarded (buffer : Scratch) (text : String) :
    Guarded false (sendError cfg buffer text) fun _ h => h = false := by
  unfold sendError
  refine guarded_take rfl fun _ => guarded_take rfl fun _ => guarded_take rfl fun result => ?_
  cases result with
  | error f => exact guarded_errHandling f _
  | ok r =>
    refine guarded_take rfl fun _ => ?_
    split
    · exact guarded_take rfl fun _ => guarded_only rfl
    · exact guarded_errHandling _ _

theorem lockedConfirm_guarded (serverResponse : Buffer) :
    Guarded false (lockedConfirm cfg serverResponse) fun _ h => h = false := by
  unfold lockedConfirm
  refine guarded_take rfl fun _ => ?_
  exact guarded_bind (sendConfirm_guarded serverResponse _) fun _ => guarded_only rfl

theorem wakeSender_guarded : Guarded held wakeSender fun _ h => h = held :=
  guarded_take rfl fun _ => guarded_only rfl

theorem printIncomingMessage_guarded (pBlocks : ProtocolBlocks) :
    Guarded held (printIncomingMessage cfg pBlocks) fun _ h => h = held := by
  unfold printIncomingMessage
  simp only
  split
  · exact guarded_errHandling _ _
  · exact guarded_only rfl

/-! ### The sender -/

theorem labelMessage_guarded : Guarded true (labelMessage cfg) fun _ h => h = true := by
  unfold labelMessage
  split <;> exact guarded_only rfl

theorem messageWasSended_guarded (p : MsgPtr) (flags : MsgFlags) :
    Guarded true (messageWasSended cfg p flags) fun _ h => h = true := by
  unfold messageWasSended
  split
  · split <;> exact guarded_only rfl
  · refine guarded_take rfl fun m => ?_
    split
    · exact guarded_take rfl fun _ => guarded_only rfl
    · exact guarded_only rfl

theorem sendHead_guarded (bytesTx : Int) :
    Guarded true (sendHead cfg bytesTx) fun _ h => h = false := by
  unfold sendHead
  refine guarded_take rfl fun p => guarded_bind labelMessage_guarded fun _ => ?_
  refine guarded_take rfl fun _ => guarded_take rfl fun flags => ?_
  split
  · exact guarded_errHandling _ _
  · exact guarded_bind (messageWasSended_guarded p flags) fun _ => guarded_take rfl fun _ => rfl

/-- Where the lock is after `logicFSM`: it is given up for a wait. -/
def HeldFor (result : LogicResult) (held : Bool) : Prop := held = (result == .proceed)

theorem authIsSended_guarded (flags : MsgFlags) :
    Guarded true (authIsSended flags) fun _ h => h = true := by
  unfold authIsSended
  split
  · refine guarded_take rfl fun state => ?_
    split
    · exact guarded_only rfl
    · rfl
  · rfl

theorem logicBeforeAuth_guarded (p : MsgPtr) (type : MsgType) (flags : MsgFlags) :
    Guarded true (logicBeforeAuth p type flags) HeldFor := by
  unfold logicBeforeAuth
  refine guarded_bind (authIsSended_guarded flags) fun _ => ?_
  split
  · exact guarded_take rfl fun _ => rfl
  · split
    · refine guarded_take rfl fun m => ?_
      split
      · exact guarded_take rfl fun _ => rfl
      · rfl
    · rfl

theorem logicErr_guarded (flags : MsgFlags) : Guarded true (logicErr cfg flags) HeldFor := by
  unfold logicErr
  split
  · split
    · exact guarded_take rfl fun _ => rfl
    · exact guarded_take rfl fun _ => guarded_take rfl fun _ => rfl
  · split
    · exact guarded_take rfl fun _ => rfl
    · rfl
  · rfl
  · exact guarded_errHandling _ _

theorem logicFSM_guarded : Guarded true (logicFSM cfg) HeldFor := by
  unfold logicFSM
  refine guarded_take rfl fun p => guarded_take rfl fun type => ?_
  refine guarded_take rfl fun flags => guarded_take rfl fun state => ?_
  cases state with
  | fsmStart | fsmAuthW82BeSended | fsmAuthSended | fsmW84Reply =>
    exact logicBeforeAuth_guarded p type flags
  | fsmW84ReplyConf =>
    change Guarded true (logicReplyConf type) HeldFor
    unfold logicReplyConf
    split
    · exact guarded_take rfl fun _ => guarded_take rfl fun _ => rfl
    · rfl
  | fsmOpen =>
    change Guarded true (logicOpen type) HeldFor
    unfold logicOpen
    split
    · exact guarded_take rfl fun _ => guarded_take rfl fun _ => guarded_take rfl fun _ => rfl
    · exact guarded_take rfl fun _ => rfl
    · rfl
  | fsmErr | fsmErrW84Conf => exact logicErr_guarded flags
  | _ => rfl

theorem logicAndSend_guarded (bytesTx : Int) :
    Guarded true (logicAndSend cfg bytesTx) fun _ h => h = false := by
  unfold logicAndSend
  refine Program.heeds_bind logicFSM_guarded fun result held' known => ?_
  cases result with
  | proceed =>
    obtain rfl : held' = true := known
    exact sendHead_guarded bytesTx
  | waitSend => exact known
  | waitAgain => exact known

theorem endsWhenEmpty_guarded : Guarded true endsWhenEmpty fun _ h => h = true := by
  unfold endsWhenEmpty
  refine guarded_take rfl fun state => ?_
  split
  · rfl
  · exact guarded_take rfl fun _ => rfl

theorem senderBody_guarded (bytesTx : Int) :
    Guarded true (senderBody cfg bytesTx) fun _ h => h = false := by
  unfold senderBody
  refine guarded_take rfl fun empty => ?_
  split
  · refine guarded_bind endsWhenEmpty_guarded fun stop => ?_
    split
    · refine guarded_take rfl fun _ => guarded_take rfl fun _ => ?_
      exact guarded_take rfl fun _ => rfl
    · exact guarded_take rfl fun _ => rfl
  · refine guarded_take rfl fun _ => guarded_take rfl fun _ => guarded_take rfl fun _ => ?_
    exact logicAndSend_guarded bytesTx

theorem requestTimedOut_guarded : Guarded true (requestTimedOut cfg) fun _ h => h = true := by
  unfold requestTimedOut
  refine guarded_take rfl fun _ => guarded_take rfl fun _ => ?_
  refine guarded_take rfl fun _ => guarded_take rfl fun _ => ?_
  refine guarded_bind (sendError_guarded _ _) fun _ => guarded_bind sendBye_guarded fun _ => ?_
  exact guarded_take rfl fun _ => guarded_only rfl

theorem filterLoop_guarded (fuel : Nat) (p : MsgPtr) (resetLoop : Bool) :
    Guarded true (filterLoop cfg fuel p resetLoop) fun _ h => h = true := by
  induction fuel generalizing p resetLoop with
  | zero => exact Program.heeds_of_results fun none => none.elim
  | succ fuel ih =>
    have next (resetLoop : Bool) : Guarded true (do
        queuePopMessage
        let msgToBeSend ← queueGetMessage
        filterLoop cfg fuel msgToBeSend resetLoop) fun _ h => h = true :=
      guarded_take rfl fun _ => guarded_take rfl fun p => ih p resetLoop
    cases p with
    | none => rfl
    | some uid =>
      unfold filterLoop
      refine guarded_take rfl fun sended => ?_
      split
      · refine guarded_take rfl fun state => ?_
        split
        · exact next resetLoop
        · refine guarded_take rfl fun state => ?_
          split
          · exact guarded_take rfl fun _ => guarded_take rfl fun _ => next true
          · exact guarded_bind requestTimedOut_guarded fun _ => rfl
      · refine guarded_take rfl fun m => ?_
        split
        · exact next resetLoop
        · split
          · rfl
          · split
            · rfl
            · exact next resetLoop

/-! ### The receiver -/

theorem handleConfirmUDP_guarded (msgID : Nat) :
    Guarded false (handleConfirmUDP msgID) fun _ h => h = false := by
  have states (state : Fsm) : Guarded true (confirmedInState state) fun _ h => h = true := by
    unfold confirmedInState
    split
    · exact guarded_only rfl
    · exact guarded_take rfl fun _ => guarded_only rfl
    · exact guarded_only rfl
    · rfl
  unfold handleConfirmUDP
  refine guarded_take rfl fun _ => guarded_take rfl fun p => ?_
  cases p with
  | none => exact guarded_only rfl
  | some uid =>
    refine guarded_take rfl fun _ => guarded_take rfl fun _ => ?_
    split
    · exact guarded_only rfl
    · refine guarded_take rfl fun _ => guarded_take rfl fun _ => ?_
      refine guarded_take rfl fun state => guarded_bind (states state) fun _ => ?_
      exact guarded_take rfl fun _ => guarded_only rfl

theorem answerReply_guarded (pBlocks : ProtocolBlocks) (serverResponse : Buffer) (tested : Fsm) :
    Guarded false (answerReply cfg pBlocks serverResponse tested) fun _ h => h = false := by
  have flagged : Guarded false flagAuthConfirmed fun _ h => h = false := by
    unfold flagAuthConfirmed
    refine guarded_take rfl fun state => ?_
    split
    · exact guarded_take rfl fun _ => guarded_take rfl fun _ => guarded_only rfl
    · rfl
  have rejects : Guarded true rejectAuth fun _ h => h = true := by
    unfold rejectAuth
    refine guarded_take rfl fun flags => ?_
    split
    · exact guarded_take rfl fun _ => guarded_only rfl
    · rfl
  have leaves : Guarded true leaveJoin fun _ h => h = true := by
    unfold leaveJoin
    refine guarded_take rfl fun state => ?_
    split
    · exact guarded_only rfl
    · rfl
  unfold answerReply
  split
  · refine guarded_take rfl fun _ => guarded_bind flagged fun _ => ?_
    refine guarded_take rfl fun _ => guarded_take rfl fun _ => ?_
    refine guarded_bind (sendConfirm_guarded serverResponse _) fun _ => guarded_take rfl fun _ => ?_
    exact guarded_take rfl fun _ => guarded_take rfl fun _ => guarded_only rfl
  · refine guarded_take rfl fun _ => guarded_take rfl fun _ => ?_
    refine guarded_bind rejects fun _ => guarded_bind leaves fun _ => ?_
    refine guarded_bind (sendConfirm_guarded serverResponse _) fun _ => ?_
    exact guarded_take rfl fun _ => guarded_take rfl fun _ => guarded_only rfl

theorem handleReplyUDP_guarded (msgID : Nat) (pBlocks : ProtocolBlocks) (serverResponse : Buffer) :
    Guarded false (handleReplyUDP cfg msgID pBlocks serverResponse) fun _ h => h = false := by
  have handled (tested : Fsm) : Guarded false (do
      answerReply cfg pBlocks serverResponse tested
      note (.replyCounter msgID)
      setMsgCounter (msgID + 1)) fun _ h => h = false := by
    refine guarded_bind (answerReply_guarded pBlocks serverResponse tested) fun _ => ?_
    exact guarded_take rfl fun _ => guarded_only rfl
  unfold handleReplyUDP
  refine guarded_take rfl fun state => ?_
  split
  · exact handled _
  · refine guarded_take rfl fun state => ?_
    split
    · exact handled _
    · rfl

theorem handleReplyTCP_guarded (pBlocks : ProtocolBlocks) :
    Guarded false (handleReplyTCP pBlocks) fun _ h => h = false := by
  have answered (tested : Fsm) :
      Guarded false (answerReplyTCP pBlocks tested) fun _ h => h = false := by
    unfold answerReplyTCP
    split
    · exact guarded_take rfl fun _ => guarded_take rfl fun _ => guarded_only rfl
    · refine guarded_take rfl fun _ => guarded_take rfl fun state => ?_
      split <;> exact guarded_only rfl
  have states (state : Fsm) :
      Guarded false (replyInState pBlocks state) fun _ h => h = false := by
    unfold replyInState
    split
    · exact answered _
    · exact answered _
    · rfl
  exact guarded_take rfl fun state => guarded_bind (states state) fun _ => guarded_only rfl

theorem repetitive_guarded (pBlocks : ProtocolBlocks) (serverResponse : Buffer) :
    Guarded false (repetitive cfg pBlocks serverResponse) fun _ h => h = false := by
  unfold repetitive
  refine guarded_take rfl fun _ => guarded_take rfl fun seen => ?_
  split
  · exact guarded_take rfl fun _ => rfl
  · split
    · exact guarded_errHandling _ _
    · exact guarded_take rfl fun _ => guarded_take rfl fun _ => rfl

/-- The types of message whose handling asks for no CONFIRM without the lock. -/
def MsgType.known : MsgType → Bool
  | .msgConf | .msgReply | .msgMsg | .msgBye | .msgErr => true
  | _ => false

/-- Everything but an unknown message in the UDP variant, which is confirmed without the
lock. -/
theorem receiverAction_guarded (msgID : Nat) (pBlocks : ProtocolBlocks) (serverResponse : Buffer)
    (repetitiveMsg : Bool)
    (handled : cfg.protocol = .protTCP ∨ (uchar2msgType pBlocks.type).known = true) :
    Guarded false (receiverAction cfg msgID pBlocks serverResponse repetitiveMsg)
      fun _ h => h = false := by
  have confirmed : Guarded false (lockedConfirm cfg serverResponse) fun _ h => h = false :=
    lockedConfirm_guarded serverResponse
  have inUDP {p : Prog Unit} {held : Bool} (h : Guarded held p fun _ h => h = held) :
      Guarded held (inUDP cfg p) fun _ h => h = held := by
    unfold Ipk24Chat.inUDP
    split
    · exact h
    · rfl
  unfold receiverAction
  split
  · split
    · exact handleConfirmUDP_guarded msgID
    · exact guarded_errHandling _ _
  · split
    · split
      · exact confirmed
      · exact handleReplyUDP_guarded msgID pBlocks serverResponse
    · exact handleReplyTCP_guarded pBlocks
  · split
    · refine guarded_bind confirmed fun _ => ?_
      split
      · rfl
      · exact guarded_bind wakeSender_guarded fun _ => printIncomingMessage_guarded pBlocks
    · exact printIncomingMessage_guarded pBlocks
  · refine guarded_bind (inUDP confirmed) fun _ => ?_
    exact guarded_take rfl fun _ => guarded_only rfl
  · refine guarded_take rfl fun _ => guarded_take rfl fun _ => ?_
    refine guarded_bind (inUDP (sendConfirm_guarded serverResponse _)) fun _ => ?_
    refine guarded_take rfl fun _ => guarded_bind sendBye_guarded fun _ => ?_
    refine guarded_bind wakeSender_guarded fun _ => guarded_take rfl fun _ => ?_
    exact guarded_bind (printIncomingMessage_guarded pBlocks) fun _ => guarded_only rfl
  · rename_i conf reply msg bye err
    have tcp : cfg.protocol = .protTCP := by
      refine handled.resolve_right fun known => ?_
      cases type : uchar2msgType pBlocks.type <;> simp_all [MsgType.known]
    refine guarded_take rfl fun _ => guarded_take rfl fun _ => guarded_take rfl fun _ => ?_
    refine guarded_take rfl fun _ => ?_
    simp only [Ipk24Chat.inUDP, tcp, Program.pure_eq, Program.ret_bind]
    refine guarded_bind (sendError_guarded _ _) fun _ => guarded_bind sendBye_guarded fun _ => ?_
    exact guarded_bind wakeSender_guarded fun _ => guarded_take rfl fun _ => guarded_only rfl

end

end Ipk24Chat
