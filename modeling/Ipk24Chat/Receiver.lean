import Ipk24Chat.Client

/-!
# The receiver thread

`protocolReceiver.c`, with `errHandling` of `main.c`, which all threads call.
-/

namespace Ipk24Chat

def sendBye (cfg : NetworkConfig) : Prog Unit := do
  queueLock
  -- the result is ignored: a BYE can always be assembled
  let _ ← assembleProtocol cfg.protocol .protocolToSendedByMain (.reset CommandType.cmdExit.toUChar)
  queueAddMessage .protocolToSendedByMain .msgFlagBye MsgType.msgBye.toUChar
  queueUnlock

/-- Never returns. After an internal error the process waits for the sender to
send the BYE and is destroyed then; other errors destroy it at once. -/
def errHandling {α : Type} (cfg : NetworkConfig) (f : Failure) : Prog α :=
  match f.errorCode with
  | .errInternalUnexpectedResult | .errInternalBadArg => do
    setProgramState .fsmErr
    safePrint ("ERR: " ++ f.msg ++ "\n")
    pthreadCondSignal .mainCond
    queueLock
    queuePopAllMessages
    queueUnlock
    sendBye cfg
    park
  | errorCode => do
    safePrint ("ERR: " ++ f.msg ++ "\n")
    exit errorCode

/-- Prints a MSG on stdout and an ERR on stderr. -/
def printIncomingMessage (cfg : NetworkConfig) (pBlocks : ProtocolBlocks) : Prog Unit :=
  let displayname := pBlocks.msgMsgDisplayname
  let contents := pBlocks.msgMsgMsgContents
  if displayname.start.isNone || contents.start.isNone then
    errHandling cfg
      ⟨"ERR: Received empty displayname/message contents to print\n", .errMisingProgramArg⟩
  else take (.display pBlocks.type displayname.bytes contents.bytes)

def sendConfirm (cfg : NetworkConfig) (serverResponse : Buffer) (flags : MsgFlags) : Prog Unit := do
  take (.bufferResize .protocolToSendedByReceiver 4)
  let data : CharPtr := ⟨serverResponse.mem, 0⟩
  let pBlocks : ProtocolBlocks :=
    { ProtocolBlocks.reset CommandType.cmdConf.toUChar with
      zeroth := ⟨some (data.shift 1), 1⟩
      first := ⟨some (data.shift 2), 1⟩ }
  match ← assembleProtocol .protUDP .protocolToSendedByReceiver pBlocks with
  | .error f => errHandling cfg f
  | .ok r =>
    if r.canBeSended then
      queueAddMessagePriority .protocolToSendedByReceiver flags r.pBlocks.type
    else
      errHandling cfg ⟨"Assembling of confrim protocol failed\n", .errInternalUnexpectedResult⟩

def sendError (cfg : NetworkConfig) (receiverSendMsgs : Scratch) (text : String) : Prog Unit := do
  let comDetails ← getComDetails
  take (.bufferResize receiverSendMsgs ((ascii text).length + comDetails.displayName.used + 5))
  let pBlocks :=
    { ProtocolBlocks.reset CommandType.cmdErr.toUChar with zeroth := literal text }
  match ← assembleProtocol cfg.protocol receiverSendMsgs pBlocks with
  | .error f => errHandling cfg f
  | .ok r =>
    queueLock
    if r.canBeSended then
      queueAddMessage receiverSendMsgs .msgFlagErr CommandType.cmdErr.toUChar
      queueUnlock
    else
      errHandling cfg ⟨"Assembling of error protocol failed\n", .errInternalUnexpectedResult⟩

/-- The `switch` of `handleConfirmUDP` over the state. -/
def confirmedInState : Fsm → Prog Unit
  | .fsmAuthSended => setProgramState .fsmW84Reply
  | .fsmEndW84Conf => do
    setProgramState .fsmEnd
    pthreadCondSignal .mainCond
  | .fsmOpen => pthreadCondSignal .mainCond
  | _ => pure ()

def handleConfirmUDP (msgID : Nat) : Prog Unit := do
  queueLock
  match ← queueGetMessage with
  | none => queueUnlock
  | some uid =>
    let queueTopMsgID ← queueGetMessageID
    let topOfQueue ← message (some uid)
    if msgID ≠ queueTopMsgID ∧ topOfQueue.type ≠ MsgType.msgAuth.toUChar then queueUnlock
    else
      setConfirmed (some uid)
      setMsgCounter (msgID + 1)
      confirmedInState (← getProgramState)
      pthreadCondSignal .rec2SenderCond
      queueUnlock

/-- Marks the AUTH whose REPLY came as one that needs no more sending. -/
def flagAuthConfirmed : Prog Unit := do
  if (← getProgramState) = .fsmW84Reply then
    queueLock
    queueSetMessageFlags .msgFlagConfirmed
    queueUnlock

/-- The part of `handleReplyUDP` for a positive result; `tested` is the state
in which the REPLY was found to be waited for. -/
def handlePositiveReplyUDP (cfg : NetworkConfig) (tested : Fsm) (pBlocks : ProtocolBlocks)
    (serverResponse : Buffer) : Prog Unit := do
  note (.replyOk tested)
  flagAuthConfirmed
  setProgramState .fsmW84ReplyConf
  queueLock
  sendConfirm cfg serverResponse .msgFlagConfirm
  queueUnlock
  pthreadCondSignal .senderEmptyQueueCond
  pthreadCondSignal .rec2SenderCond
  take (.print (.reply "Success: " pBlocks.msgReplyMsgContents.start))

/-- A rejected AUTH at the head of the queue sends the client back to the start. -/
def rejectAuth : Prog Unit := do
  if (← queueGetMessageFlags) = .msgFlagAuth then
    queueSetMessageFlags .msgFlagRejected
    setProgramState .fsmStart

/-- A refused JOIN leaves the client where it was. -/
def leaveJoin : Prog Unit := do
  if (← getProgramState) = .fsmJoinAtempt then setProgramState .fsmOpen

def handleNegativeReplyUDP (cfg : NetworkConfig) (pBlocks : ProtocolBlocks)
    (serverResponse : Buffer) : Prog Unit := do
  queueLock
  note .replyNok
  rejectAuth
  leaveJoin
  sendConfirm cfg serverResponse .msgFlagNokReply
  queueUnlock
  take (.print (.reply "Failure: " pBlocks.msgReplyMsgContents.start))
  pthreadCondSignal .mainCond

/-- The result byte is compared with `true`, so every byte but 1 is negative. -/
def positiveUDP (pBlocks : ProtocolBlocks) : Bool :=
  pBlocks.msgReplyResult.start.map (·.get 0) = some 1

/-- A REPLY that is waited for, `tested` being the state it was tested in. -/
def answerReply (cfg : NetworkConfig) (pBlocks : ProtocolBlocks) (serverResponse : Buffer)
    (tested : Fsm) : Prog Unit :=
  if positiveUDP pBlocks then handlePositiveReplyUDP cfg tested pBlocks serverResponse
  else handleNegativeReplyUDP cfg pBlocks serverResponse

def handleReplyUDP (cfg : NetworkConfig) (msgID : Nat) (pBlocks : ProtocolBlocks)
    (serverResponse : Buffer) : Prog Unit := do
  let handle (tested : Fsm) : Prog Unit := do
    answerReply cfg pBlocks serverResponse tested
    note (.replyCounter msgID)
    setMsgCounter (msgID + 1)
  if (← getProgramState) = .fsmW84Reply then handle .fsmW84Reply
  else if (← getProgramState) = .fsmJoinAtempt then handle .fsmJoinAtempt
  else pure ()

/-- Filters out messages received before: `true` if this one was. The ID-only
queue is used by this thread alone, so its own lock is left out. -/
def repetitive (cfg : NetworkConfig) (pBlocks : ProtocolBlocks) (serverResponse : Buffer) :
    Prog Bool := do
  queueLock
  if ← take (.queueContainsMessageId pBlocks.type) then
    queueUnlock
    pure true
  else if serverResponse.used < 3 then
    errHandling cfg ⟨"Buffer provided in queueAddMessageOnlyIDis shorter than 3 bytes!",
      .errInternalBadArg⟩
  else
    take (.queueAddMessageOnlyID pBlocks.type)
    queueUnlock
    pure false

def lockedConfirm (cfg : NetworkConfig) (serverResponse : Buffer) : Prog Unit := do
  queueLock
  sendConfirm cfg serverResponse .msgFlagConfirm
  queueUnlock

def wakeSender : Prog Unit := do
  pthreadCondSignal .senderEmptyQueueCond
  pthreadCondSignal .rec2SenderCond

/-- A REPLY that is waited for in the TCP variant. -/
def answerReplyTCP (pBlocks : ProtocolBlocks) (tested : Fsm) : Prog Unit := do
  if pBlocks.msgReplyResultBool then
    take (.print (.reply "Success: " pBlocks.msgReplyMsgContents.start))
    note (.replyOk tested)
    setProgramState .fsmOpen
  else
    take (.print (.reply "Failure: " pBlocks.msgReplyMsgContents.start))
    if (← getProgramState) = .fsmJoinAtempt then setProgramState .fsmOpen
    else setProgramState .fsmStart

/-- The states in which a REPLY is waited for in the TCP variant. -/
def replyInState (pBlocks : ProtocolBlocks) : Fsm → Prog Unit
  | .fsmAuthSended => answerReplyTCP pBlocks .fsmAuthSended
  | .fsmJoinAtempt => answerReplyTCP pBlocks .fsmJoinAtempt
  | _ => pure ()

/-- The REPLY branch of `receiverFSM` in the TCP variant. -/
def handleReplyTCP (pBlocks : ProtocolBlocks) : Prog Unit := do
  replyInState pBlocks (← getProgramState)
  pthreadCondSignal .mainCond

/-- `UDP_VARIANT` without a counterpart for TCP. -/
def inUDP (cfg : NetworkConfig) (p : Prog Unit) : Prog Unit :=
  match cfg.protocol with
  | .protUDP => p
  | .protTCP => pure ()

/-- What follows the duplicate filter, by message type. -/
def receiverAction (cfg : NetworkConfig) (msgID : Nat) (pBlocks : ProtocolBlocks)
    (serverResponse : Buffer) (repetitiveMsg : Bool) : Prog Unit :=
  match uchar2msgType pBlocks.type with
  | .msgConf =>
    match cfg.protocol with
    | .protUDP => handleConfirmUDP msgID
    | .protTCP => errHandling cfg ⟨"Received CONFIRM message in TCP mode", .errCommunication⟩
  | .msgReply =>
    match cfg.protocol with
    | .protUDP =>
      -- a repetitive REPLY is only confirmed, and nobody is signaled
      if repetitiveMsg then lockedConfirm cfg serverResponse
      else handleReplyUDP cfg msgID pBlocks serverResponse
    | .protTCP => handleReplyTCP pBlocks
  | .msgMsg =>
    match cfg.protocol with
    | .protUDP => do
      lockedConfirm cfg serverResponse
      if repetitiveMsg then pure ()
      else
        wakeSender
        printIncomingMessage cfg pBlocks
    | .protTCP => printIncomingMessage cfg pBlocks
  | .msgBye => do
    inUDP cfg (lockedConfirm cfg serverResponse)
    setProgramState .fsmEnd
    pthreadCondSignal .mainCond
  | .msgErr => do
    queueLock
    queuePopAllMessages
    inUDP cfg (sendConfirm cfg serverResponse .msgFlagConfirm)
    queueUnlock
    sendBye cfg
    wakeSender
    setProgramState .fsmErr
    printIncomingMessage cfg pBlocks
    pthreadCondSignal .mainCond
  | _ => do
    setProgramState .fsmErr
    queueLock
    queuePopAllMessages
    queueUnlock
    -- the lock is not taken again for the CONFIRM
    inUDP cfg (sendConfirm cfg serverResponse .msgFlagConfirm)
    sendError cfg .protocolToSendedByReceiver "Unknown message format"
    sendBye cfg
    wakeSender
    safePrint "ERR: Received unknown message from server. Ending program\n"
    pthreadCondSignal .mainCond

def receiverFSM (cfg : NetworkConfig) (msgID : Nat) (pBlocks : ProtocolBlocks)
    (serverResponse : Buffer) : Prog Unit :=
  match cfg.protocol with
  | .protUDP => do
    let repetitiveMsg ← repetitive cfg pBlocks serverResponse
    receiverAction cfg msgID pBlocks serverResponse repetitiveMsg
  | .protTCP => receiverAction cfg msgID pBlocks serverResponse false

/-- In the start state everything but REPLY and CONFIRM is thrown away. -/
def dispatch (cfg : NetworkConfig) (msgID : Nat) (pBlocks : ProtocolBlocks)
    (serverResponse : Buffer) : Prog Unit := do
  if (← getProgramState) = .fsmStart ∧ pBlocks.type ≠ MsgType.msgReply.toUChar ∧
      pBlocks.type ≠ MsgType.msgConf.toUChar then pure ()
  else receiverFSM cfg msgID pBlocks serverResponse

/-- What the loop does with received bytes. -/
def handleDatagram (cfg : NetworkConfig) (serverResponse : Buffer) : Prog Unit :=
  match cfg.protocol with
  | .protUDP =>
    match disassebleProtocolUDP serverResponse with
    | .error f => errHandling cfg f
    | .ok d => dispatch cfg d.msgId d.pBlocks serverResponse
  | .protTCP =>
    -- the message ID is not set in this variant and nothing reads it
    dispatch cfg 0 (disassebleProtocolTCP serverResponse (.reset 0)) serverResponse

/-- A pass of the receiver's loop; no bytes are the timeout of `recvfrom`. -/
def protocolReceiver (cfg : NetworkConfig) (datagram : List UInt8) : Prog Point := do
  if (← getProgramState) = .fsmEnd then pure .ended
  else if datagram = [] then pure .protocolReceiver
  else
    let serverResponse ← take (.recvfrom datagram)
    handleDatagram cfg serverResponse
    pure .protocolReceiver

end Ipk24Chat
