import Ipk24Chat.Receiver

/-!
# The sender thread

`protocolSender.c`. The recursion of `logicFSM` passes through a wait, so the
code is cut there: a pass ends at the wait and another one resumes behind it.
-/

namespace Ipk24Chat

/-- How `logicFSM` goes on: to the sending, or into one of its two waits. -/
inductive LogicResult where
  | proceed
  | waitSend
  | waitAgain
  deriving DecidableEq, Repr

/-- An AUTH that waits to be sent is sent now. -/
def authIsSended (flags : MsgFlags) : Prog Unit :=
  if flags = .msgFlagAuth then do
    if (← getProgramState).toNat ≤ Fsm.fsmAuthW82BeSended.toNat then
      setProgramState .fsmAuthSended
    else pure ()
  else pure ()

/-- The branch of `logicFSM` before a successful authentication. -/
def logicBeforeAuth (msgToBeSend : MsgPtr) (msgType : MsgType) (flags : MsgFlags) :
    Prog LogicResult := do
  authIsSended flags
  if msgType ≠ .msgAuth ∧ flags ≠ .msgFlagNokReply then
    queueUnlock
    pure .waitSend
  else if msgType = .msgAuth then
    let m ← message msgToBeSend
    if m.confirmed ∧ 0 < m.sendCount then
      queueUnlock
      pure .waitAgain
    else pure .proceed
  else pure .proceed

/-- The branch with a REPLY whose CONFIRM has to be sent first. -/
def logicReplyConf (msgType : MsgType) : Prog LogicResult :=
  if msgType = .msgConf then do
    setProgramState .fsmOpen
    pthreadCondSignal .mainCond
    pure .proceed
  else pure .proceed

def logicOpen (msgType : MsgType) : Prog LogicResult :=
  match msgType with
  | .msgAuth => do
    safePrint "ERR: You are already autheticated, this message will be ignored."
    note .authDiscarded
    queuePopMessage
    pure .proceed
  | .msgJoin => do
    setProgramState .fsmJoinAtempt
    pure .proceed
  | _ => pure .proceed

def logicErr (cfg : NetworkConfig) (flags : MsgFlags) : Prog LogicResult :=
  match flags with
  | .msgFlagBye =>
    match cfg.protocol with
    | .protUDP => do
      setProgramState .fsmEndW84Conf
      pure .proceed
    | .protTCP => do
      setProgramState .fsmEnd
      pthreadCondSignal .mainCond
      pure .proceed
  | .msgFlagErr =>
    match cfg.protocol with
    | .protUDP => do
      setProgramState .fsmErrW84Conf
      pure .proceed
    | .protTCP => pure .proceed
  | .msgFlagConfirm => pure .proceed
  | _ =>
    errHandling cfg ⟨"ERR: Sender send message that is not BYE in ERROR state\n",
      .errInternalBadArg⟩

def logicFSM (cfg : NetworkConfig) : Prog LogicResult := do
  let msgToBeSend ← queueGetMessage
  let msgType ← queueGetMessageMsgType
  let flags ← queueGetMessageFlags
  match ← getProgramState with
  | .fsmStart | .fsmAuthW82BeSended | .fsmAuthSended | .fsmW84Reply =>
    logicBeforeAuth msgToBeSend msgType flags
  | .fsmW84ReplyConf => logicReplyConf msgType
  | .fsmOpen => logicOpen msgType
  | .fsmErrW84Conf | .fsmErr => logicErr cfg flags
  | _ => pure .proceed

/-- The branch of `filterResentMessages` for a request that timed out. -/
def requestTimedOut (cfg : NetworkConfig) : Prog Unit := do
  safePrint "ERR: Request timed out.\n"
  queuePopAllMessages
  setProgramState .fsmErr
  queueUnlock
  sendError cfg .protocolToSendedBySender "Request timed out"
  sendBye cfg
  pthreadCondSignal .mainCond
  queueLock

/-- The loop of `filterResentMessages`, for at most `fuel` rounds. -/
def filterLoop (cfg : NetworkConfig) : (fuel : Nat) → MsgPtr → (resetLoop : Bool) → Prog Bool
  | 0, _, _ => diverge
  | _ + 1, none, resetLoop => pure resetLoop
  | fuel + 1, some uid, resetLoop => do
    let next (resetLoop : Bool) : Prog Bool := do
      queuePopMessage
      let msgToBeSend ← queueGetMessage
      filterLoop cfg fuel msgToBeSend resetLoop
    let sended ← queueGetSendedCounter
    if cfg.udpMaxRetries.val < sended then
      if (← getProgramState) = .fsmErrW84Conf then next resetLoop
      else if (← getProgramState) = .fsmEndW84Conf then
        setProgramState .fsmEnd
        pthreadCondSignal .mainCond
        next true
      else
        requestTimedOut cfg
        pure resetLoop
    else
      let m ← message (some uid)
      if m.msgFlags = .msgFlagRejected then next resetLoop
      else if m.msgFlags = .msgFlagAuth then pure resetLoop
      else if m.confirmed = false then pure resetLoop
      else next resetLoop

def filterResentMessages (cfg : NetworkConfig) (fuel : Nat) : Prog Bool := do
  let msgToBeSend ← queueGetMessage
  filterLoop cfg fuel msgToBeSend false

/-- The label with the message ID, set right before sending. -/
def labelMessage (cfg : NetworkConfig) : Prog Unit :=
  match cfg.protocol with
  | .protUDP => queueSetMessageID
  | .protTCP => take .addMsgCounter

/-- What becomes of the message that was sent. -/
def messageWasSended (cfg : NetworkConfig) (msgToBeSend : MsgPtr) (sendedMessageFlags : MsgFlags) :
    Prog Unit :=
  match cfg.protocol with
  | .protUDP =>
    match sendedMessageFlags with
    | .msgFlagDoNotResend | .msgFlagConfirm | .msgFlagNokReply => queuePopMessage
    | _ => queueMessageSended
  | .protTCP => do
    if (← message msgToBeSend).type = MsgType.msgMsg.toUChar then
      pthreadCondSignal .mainCond
      queuePopMessage
    else queuePopMessage

/-- From the label with the message ID to the end of the loop body; `bytesTx`
is what `sendto` returns. -/
def sendHead (cfg : NetworkConfig) (bytesTx : Int) : Prog Point := do
  let msgToBeSend ← queueGetMessage
  labelMessage cfg
  sendto msgToBeSend
  let sendedMessageFlags ← queueGetMessageFlags
  if bytesTx < 0 then
    errHandling cfg ⟨"Sending bytes was not successful", .errCommunication⟩
  else
    messageWasSended cfg msgToBeSend sendedMessageFlags
    queueUnlock
    pure .protocolSender

/-- `logicFSM` with the lock held, and the sending if it does not wait. -/
def logicAndSend (cfg : NetworkConfig) (bytesTx : Int) : Prog Point := do
  match ← logicFSM cfg with
  | .proceed => sendHead cfg bytesTx
  | .waitSend => pure .logicWaitSend
  | .waitAgain => pure .logicWaitAgain

/-- The states in which an empty queue ends the program. -/
def endsWhenEmpty : Prog Bool := do
  if (← getProgramState) = .fsmEmptyQBye then pure true
  else pure (decide ((← getProgramState) = .fsmSigintBye))

/-- The loop body behind the filter. In the TCP variant the lock is not held
at its start. -/
def senderBody (cfg : NetworkConfig) (bytesTx : Int) : Prog Point := do
  if ← queueIsEmpty then
    if ← endsWhenEmpty then
      setProgramState .fsmEnd
      queueUnlock
      pthreadCondSignal .mainCond
      pure .protocolSender
    else
      queueUnlock
      pure .protocolSender
  else
    queueUnlock
    queueLock
    note .senderResumed
    logicAndSend cfg bytesTx

/-- A pass of the sender's loop. -/
def protocolSender (cfg : NetworkConfig) (fuel : Nat) (bytesTx : Int) : Prog Point := do
  if (← getProgramState) = .fsmEnd then pure .ended
  else
    match cfg.protocol with
    | .protUDP =>
      queueLock
      -- the lock is kept when the loop is reset
      if ← filterResentMessages cfg fuel then pure .protocolSender
      else senderBody cfg bytesTx
    | .protTCP => senderBody cfg bytesTx

/-- Behind the wait for a message that is not AUTH. -/
def resumeSend (cfg : NetworkConfig) (bytesTx : Int) : Prog Point := do
  queueLock
  note .senderResumed
  sendHead cfg bytesTx

/-- Behind the wait for a confirmed AUTH. -/
def resumeLogic (cfg : NetworkConfig) (bytesTx : Int) : Prog Point := do
  queueLock
  note .senderResumed
  logicAndSend cfg bytesTx

end Ipk24Chat
