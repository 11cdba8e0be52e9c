import Ipk24Chat.Receiver

/-!
# The main thread

`filterCommandsByFSM` and the loop of `userCommandHandling`, with `sigintHandler` of
`cleanUpMaster.c`.
-/

namespace Ipk24Chat

def notConnectedText : String :=
  "ERR: You are not connected to server! " ++
    "Use /auth to connect to server or /help for more information.\n"

/-- Whether the command is to be sent, and the flags of its message. -/
def filterCommandsByFSM (pBlocks : ProtocolBlocks) (flags : MsgFlags) : Prog (Bool × MsgFlags) :=
  let refuse : Prog (Bool × MsgFlags) := do
    safePrint notConnectedText
    pure (false, flags)
  match uchar2CommandType pBlocks.type with
  | .cmdNone => pure (false, flags)
  | .cmdAuth => do
    -- the name is stored before the state is looked at
    take (.storeDisplayName pBlocks.cmdAuthDisplayname)
    if (← getProgramState) = .fsmStart then
      setProgramState .fsmAuthW82BeSended
      pure (true, .msgFlagAuth)
    else refuse
  | .cmdHelp => do
    take (.print .userHelpMenu)
    pure (false, flags)
  | .cmdJoin => do
    if (← getProgramState) = .fsmOpen then
      take (.storeChannelID pBlocks.cmdJoinChannelID)
      pure (true, flags)
    else refuse
  | .cmdRename => do
    if (← getProgramState) = .fsmOpen then
      take (.storeDisplayName pBlocks.cmdRenameDisplayname)
      pure (false, flags)
    else refuse
  | .cmdMsg => do
    if (← getProgramState) = .fsmOpen then pure (true, flags) else refuse
  | .cmdExit => pure (true, flags)
  | .cmdMissing => do
    safePrint "ERR: Bad command argument / not enough arguments.\n"
    pure (false, flags)
  | _ => refuse

/-- The sender is signaled if it waits on an empty queue, and for an AUTH. -/
def signalSenderIf (signalSender : Bool) (type : UInt8) : Prog Unit :=
  if signalSender ∨ type = MsgType.msgAuth.toUChar ∨ type = CommandType.cmdAuth.toUChar then
    pthreadCondSignal .senderEmptyQueueCond
  else pure ()

/-- Adds the assembled message to the queue; `/exit` also ends the loop. -/
def enqueueCommand (flags : MsgFlags) (type : UInt8) : Prog Unit := do
  queueLock
  let signalSender ← queueIsEmpty
  queueAddMessage .protocolToSendedByMain flags type
  signalSenderIf signalSender type
  queueUnlock
  if type = CommandType.cmdExit.toUChar ∨ type = MsgType.msgBye.toUChar then
    setProgramState .fsmEmptyQBye
    pthreadCondSignal .senderEmptyQueueCond
  else pure ()

/-- What `controlWord` prints about a word it refuses. -/
def printComplaint : Option WordError → Prog Unit
  | some e => take (.print (.complaint e))
  | none => pure ()

/-- Assembles a command and queues it. -/
def assembleCommand (cfg : NetworkConfig) (pBlocks : ProtocolBlocks) (flags : MsgFlags) :
    Prog Unit := do
  match ← assembleProtocol cfg.protocol .protocolToSendedByMain pBlocks with
  | .error f => errHandling cfg f
  | .ok r => if r.canBeSended then enqueueCommand flags r.pBlocks.type else pure ()

/-- What becomes of a line that was read: parsed, filtered, assembled, queued. -/
def handleLine (cfg : NetworkConfig) (clientInput : Buffer) : Prog Unit := do
  let parsed := userInputToCmds clientInput (.reset CommandType.cmdNone.toUChar) .msgFlagNone
  printComplaint parsed.complaint
  let (canBeSended, flags) ← filterCommandsByFSM parsed.pBlocks parsed.flags
  if canBeSended then assembleCommand cfg parsed.pBlocks flags else pure ()

/-- A pass of the loop, on what stdin holds from here on. -/
def userCommandHandling (cfg : NetworkConfig) (eofDetected : Bool) (stdin : List UInt8) :
    Prog Point := do
  if (← getProgramState).toNat < Fsm.fsmEmptyQBye.toNat then
    if eofDetected then
      setProgramState .fsmEmptyQBye
      sendBye cfg
      pthreadCondSignal .senderEmptyQueueCond
      pure (.userCommandHandling true)
    else
      let loaded ← take (.loadBufferFromStdin eofDetected stdin)
      handleLine cfg { loaded.buffer with used := loaded.used }
      pure (.userCommandHandling loaded.eofDetected)
  else pure .ended

/-- The handler of SIGINT. It waits until the sender has sent the BYE; then the process
ends. -/
def sigintHandler {α : Type} (cfg : NetworkConfig) : Prog α := do
  setProgramState .fsmSigintBye
  pthreadCondSignal .mainCond
  queueLock
  queuePopAllMessages
  queueUnlock
  sendBye cfg
  pthreadCondSignal .senderEmptyQueueCond
  pthreadCondSignal .rec2SenderCond
  park

end Ipk24Chat
