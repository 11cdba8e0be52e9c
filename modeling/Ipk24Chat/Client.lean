import Ipk24Chat.Threads
import Ipk24Chat.Disassemble
import Ipk24Chat.UserInput
import Ipk24Chat.Queue

/-!
# The client's shared state

`ProgramInterface` and the atomic actions on it. The three threads only meet
here: through the state of the machine, the sending queue and its lock, the
communication details and the message buffers.
-/

namespace Ipk24Chat

inductive Thread where
  | main
  | sender
  | receiver
  deriving DecidableEq, Repr

/-- `udpMaxRetries` is an 8-bit number. -/
structure NetworkConfig where
  protocol : Protocols
  udpMaxRetries : Fin 256

/-- The message buffers of `CleanUp`; `sendBye` uses the one of main from every thread. -/
inductive Scratch where
  | protocolToSendedByMain
  | protocolToSendedByReceiver
  | protocolToSendedBySender
  deriving DecidableEq, Repr

/-- The conditions the threads wait on. -/
inductive Cond where
  | senderEmptyQueueCond
  | rec2SenderCond
  | mainCond
  deriving DecidableEq, Repr

/-- What happened so far. Only proofs look at it. -/
inductive Event where
  | received (datagram : List UInt8)
  | queued (m : Message)
  | transmitted (m : Message)
  /-- A received CONFIRM with these ID bytes set `confirmed` on the message. -/
  | confirmed (m : Message) (low high : UInt8)
  /-- A positive REPLY is acted on, the state being the one it was tested in. -/
  | replyOk (state : Fsm)
  /-- A negative REPLY is acted on, with the lock of the queue held. -/
  | replyNok
  /-- The counter is about to be set from the ID of a REPLY. -/
  | replyCounter (msgID : Nat)
  /-- `logicFSM` is about to discard an AUTH in the open state. -/
  | authDiscarded
  /-- The sender holds the lock again, behind its test for an empty queue or
  behind a wait. -/
  | senderResumed
  | displayed (type low high : UInt8) (displayname contents : List UInt8)
  deriving DecidableEq, Repr

/-- `faulted` is a dereference of NULL or of freed memory. -/
inductive Status where
  | running
  | faulted
  | exited (errorCode : ErrorCode)
  deriving DecidableEq, Repr

structure Client where
  fsmState : Fsm
  sendingQueue : MessageQueue
  /-- the thread that holds the lock of `sendingQueue` -/
  lock : Option Thread
  comDetails : CommunicationDetails
  clientInput : Buffer
  scratch : Scratch → Buffer
  serverResponse : Buffer
  confirmedMessages : List SeenMessage
  /-- what the k-th call of `realloc` finds in the new memory -/
  heap : Nat → Memory
  reallocs : Nat
  /-- identity of the next message to be allocated -/
  nextUid : Nat
  status : Status
  /-- newest first -/
  history : List Event

/-- Texts on the output; `reply` prints the C string that starts at `contents`. -/
inductive Output where
  | text (s : String)
  | complaint (e : WordError)
  | userHelpMenu
  | reply (label : String) (contents : Option CharPtr)

inductive Act where
  | getProgramState
  | setProgramState (newState : Fsm)
  | queueLock
  | queueUnlock
  | queueIsEmpty
  | queueGetMessage
  | queueGetMessageMsgType
  | queueGetMessageFlags
  | queueSetMessageFlags (newFlag : MsgFlags)
  | queueGetMessageID
  | queueSetMessageID
  | queueGetSendedCounter
  | queueMessageSended
  | queuePopMessage
  | queuePopAllMessages
  | queueAddMessage (buffer : Scratch) (msgFlags : MsgFlags) (type : UInt8)
  | queueAddMessagePriority (buffer : Scratch) (msgFlags : MsgFlags) (type : UInt8)
  /-- read the message a pointer points at -/
  | message (p : MsgPtr)
  /-- `p->confirmed = true` -/
  | setConfirmed (p : MsgPtr)
  | queueContainsMessageId (type : UInt8)
  | queueAddMessageOnlyID (type : UInt8)
  | getComDetails
  | setMsgCounter (value : Nat)
  | addMsgCounter
  | storeDisplayName (src : BytesBlock)
  | storeChannelID (src : BytesBlock)
  | bufferResize (buffer : Scratch) (newSize : Int)
  /-- an encoder, which also prints its complaint if it refuses -/
  | assembleProtocol (protocol : Protocols) (buffer : Scratch) (pBlocks : ProtocolBlocks)
  | loadBufferFromStdin (eofDetected : Bool) (stdin : List UInt8)
  | recvfrom (datagram : List UInt8)
  | sendto (p : MsgPtr)
  | display (type : UInt8) (displayname contents : List UInt8)
  | print (o : Output)
  | signal (c : Cond)
  | note (e : Event)
  | exit (errorCode : ErrorCode)
  /-- waits in `errHandling` until the process ends -/
  | park
  /-- a loop that has not ended within its fuel -/
  | diverge

@[reducible] def Act.Answer : Act → Type
  | .getProgramState => Fsm
  | .queueIsEmpty => Bool
  | .queueGetMessage => MsgPtr
  | .queueGetMessageMsgType => MsgType
  | .queueGetMessageFlags => MsgFlags
  | .queueGetMessageID => Nat
  | .queueGetSendedCounter => Nat
  | .message _ => Message
  | .queueContainsMessageId _ => Bool
  | .getComDetails => CommunicationDetails
  | .assembleProtocol .. => Except Failure Assembled
  | .loadBufferFromStdin .. => Loaded
  | .recvfrom _ => Buffer
  | .exit _ | .park | .diverge => Empty
  | _ => Unit

abbrev Prog := Program Act.Answer

namespace Client

def fault (c : Client) : Client := { c with status := .faulted }

def log (c : Client) (e : Event) : Client := { c with history := e :: c.history }

/-- A fresh message from one of the buffers. -/
def newMessage (c : Client) (buffer : Scratch) (msgFlags : MsgFlags) (type : UInt8) : Message :=
  createMessage c.nextUid (c.scratch buffer) msgFlags type

/-- The bytes `realloc` finds in new memory. -/
def fresh (c : Client) : Memory := c.heap c.reallocs

def setScratch (c : Client) (which : Scratch) (buffer : Buffer) : Client :=
  { c with
    scratch := fun s => if s = which then buffer else c.scratch s
    reallocs := c.reallocs + 1 }

/-- Replaces a stored name by a block of the parsed line and ends it with zero. -/
def storeName (fresh : Memory) (stored : Buffer) (src : BytesBlock) : Buffer :=
  let stored := Ipk24Chat.bufferResize fresh stored (src.len + 1)
  let mem := stringReplace stored.mem 0 src.start src.len
  { stored with data := some (mem.write (unsigned src.len) [0]), used := unsigned src.len }

/-- Bytes a datagram leaves behind itself stay from the ones before. -/
def receive (buffer : Buffer) (datagram : List UInt8) : Buffer :=
  { buffer with data := some (buffer.mem.write 0 datagram), used := datagram.length }

/-- One atomic action of a running process. -/
def act (t : Thread) (c : Client) : (a : Act) → Effect a.Answer Client
  | .getProgramState => .ok c.fsmState c
  | .setProgramState newState => .ok () { c with fsmState := newState }
  | .queueLock =>
    match c.lock with
    | none => .ok () { c with lock := some t }
    | some _ => .blocked
  | .queueUnlock => .ok () { c with lock := none }
  | .queueIsEmpty => .ok c.sendingQueue.isEmpty c
  | .queueGetMessage => .ok c.sendingQueue.getMessage c
  | .queueGetMessageMsgType => .ok c.sendingQueue.getMessageMsgType c
  | .queueGetMessageFlags =>
    match c.sendingQueue with
    | [] => .halt c.fault
    | m :: _ => .ok m.msgFlags c
  | .queueSetMessageFlags newFlag =>
    .ok () { c with sendingQueue := c.sendingQueue.setMessageFlags newFlag }
  | .queueGetMessageID => .ok c.sendingQueue.getMessageID c
  | .queueSetMessageID =>
    .ok () { c with sendingQueue := c.sendingQueue.setMessageID c.comDetails.msgCounter }
  | .queueGetSendedCounter =>
    match c.sendingQueue with
    | [] => .halt c.fault
    | m :: _ => .ok m.sendCount c
  | .queueMessageSended =>
    match c.sendingQueue.messageSended with
    | none => .halt c.fault
    | some queue => .ok () { c with sendingQueue := queue }
  | .queuePopMessage => .ok () { c with sendingQueue := c.sendingQueue.popMessage }
  | .queuePopAllMessages => .ok () { c with sendingQueue := [] }
  | .queueAddMessage buffer msgFlags type =>
    let m := c.newMessage buffer msgFlags type
    .ok () ({ c with
      sendingQueue := c.sendingQueue.addMessage m, nextUid := c.nextUid + 1 }.log (.queued m))
  | .queueAddMessagePriority buffer msgFlags type =>
    let m := c.newMessage buffer msgFlags type
    .ok () ({ c with
      sendingQueue := c.sendingQueue.addMessagePriority m
      nextUid := c.nextUid + 1 }.log (.queued m))
  | .message p =>
    match c.sendingQueue.deref p with
    | none => .halt c.fault
    | some m => .ok m c
  | .setConfirmed p =>
    match c.sendingQueue.deref p with
    | none => .halt c.fault
    | some m =>
      .ok () ({ c with sendingQueue := c.sendingQueue.confirm p }.log
        (.confirmed m (c.serverResponse.mem 1) (c.serverResponse.mem 2)))
  | .queueContainsMessageId type =>
    .ok (Ipk24Chat.queueContainsMessageId c.confirmedMessages c.serverResponse type) c
  | .queueAddMessageOnlyID type =>
    .ok () { c with
      confirmedMessages :=
        Ipk24Chat.queueAddMessageOnlyID c.confirmedMessages c.serverResponse type }
  | .getComDetails => .ok c.comDetails c
  | .setMsgCounter value =>
    .ok () { c with comDetails := { c.comDetails with msgCounter := value % 65536 } }
  | .addMsgCounter =>
    .ok () { c with
      comDetails := { c.comDetails with msgCounter := (c.comDetails.msgCounter + 1) % 65536 } }
  | .storeDisplayName src =>
    .ok () { c with
      comDetails := { c.comDetails with
        displayName := storeName c.fresh c.comDetails.displayName src }
      reallocs := c.reallocs + 1 }
  | .storeChannelID src =>
    .ok () { c with
      comDetails := { c.comDetails with
        channelID := storeName c.fresh c.comDetails.channelID src }
      reallocs := c.reallocs + 1 }
  | .bufferResize buffer newSize =>
    .ok () (c.setScratch buffer (Ipk24Chat.bufferResize c.fresh (c.scratch buffer) newSize))
  | .assembleProtocol protocol buffer pBlocks =>
    match assemble c.fresh protocol pBlocks (c.scratch buffer) c.comDetails with
    | .error f => .ok (.error f) c
    | .ok r => .ok (.ok r) (c.setScratch buffer r.buffer)
  | .loadBufferFromStdin eofDetected stdin =>
    let loaded := Ipk24Chat.loadBufferFromStdin c.fresh c.clientInput eofDetected stdin
    .ok loaded { c with
      clientInput := { loaded.buffer with used := loaded.used }, reallocs := c.reallocs + 1 }
  | .recvfrom datagram =>
    let buffer := receive c.serverResponse datagram
    .ok buffer ({ c with serverResponse := buffer }.log (.received datagram))
  | .sendto p =>
    match c.sendingQueue.deref p with
    | none => .halt c.fault
    | some m => .ok () (c.log (.transmitted m))
  | .display type displayname contents =>
    .ok () (c.log (.displayed type (c.serverResponse.mem 1) (c.serverResponse.mem 2)
      displayname contents))
  | .print _ => .ok () c
  | .signal _ => .ok () c
  | .note e => .ok () (c.log e)
  | .exit errorCode => .halt { c with status := .exited errorCode }
  | .park => .halt c
  | .diverge => .blocked

/-- A process that faulted or exited takes no action any more. -/
def perform (t : Thread) (a : Act) (c : Client) : Effect a.Answer Client :=
  match c.status with
  | .running => c.act t a
  | _ => .blocked

end Client

/-! ## Actions under the names of the source -/

/-- The program of one action. -/
def take (a : Act) : Prog a.Answer := Program.perform a

def getProgramState : Prog Fsm := take .getProgramState
def setProgramState (newState : Fsm) : Prog Unit := take (.setProgramState newState)
def queueLock : Prog Unit := take .queueLock
def queueUnlock : Prog Unit := take .queueUnlock
def queueIsEmpty : Prog Bool := take .queueIsEmpty
def queueGetMessage : Prog MsgPtr := take .queueGetMessage
def queueGetMessageMsgType : Prog MsgType := take .queueGetMessageMsgType
def queueGetMessageFlags : Prog MsgFlags := take .queueGetMessageFlags
def queueSetMessageFlags (newFlag : MsgFlags) : Prog Unit :=
  take (.queueSetMessageFlags newFlag)
def queueGetMessageID : Prog Nat := take .queueGetMessageID
def queueSetMessageID : Prog Unit := take .queueSetMessageID
def queueGetSendedCounter : Prog Nat := take .queueGetSendedCounter
def queueMessageSended : Prog Unit := take .queueMessageSended
def queuePopMessage : Prog Unit := take .queuePopMessage
def queuePopAllMessages : Prog Unit := take .queuePopAllMessages
def queueAddMessage (buffer : Scratch) (msgFlags : MsgFlags) (type : UInt8) : Prog Unit :=
  take (.queueAddMessage buffer msgFlags type)
def queueAddMessagePriority (buffer : Scratch) (msgFlags : MsgFlags) (type : UInt8) : Prog Unit :=
  take (.queueAddMessagePriority buffer msgFlags type)
def message (p : MsgPtr) : Prog Message := take (.message p)
def setConfirmed (p : MsgPtr) : Prog Unit := take (.setConfirmed p)
def getComDetails : Prog CommunicationDetails := take .getComDetails
def setMsgCounter (value : Nat) : Prog Unit := take (.setMsgCounter value)
def assembleProtocol (protocol : Protocols) (buffer : Scratch) (pBlocks : ProtocolBlocks) :
    Prog (Except Failure Assembled) :=
  take (.assembleProtocol protocol buffer pBlocks)
def sendto (p : MsgPtr) : Prog Unit := take (.sendto p)
def safePrint (s : String) : Prog Unit := take (.print (.text s))
def pthreadCondSignal (c : Cond) : Prog Unit := take (.signal c)
def note (e : Event) : Prog Unit := take (.note e)

def exit {α : Type} (errorCode : ErrorCode) : Prog α :=
  .act (.exit errorCode) fun none => Empty.elim none

def park {α : Type} : Prog α := .act .park fun none => Empty.elim none

def diverge {α : Type} : Prog α := .act .diverge fun none => Empty.elim none

/-- Where a thread stands between two pieces of its code. -/
inductive Point where
  /-- head of main's loop, or its wait for `mainCond` at the loop's end -/
  | userCommandHandling (eofDetected : Bool)
  | protocolReceiver
  /-- head of the sender's loop, with its waits before the next pass -/
  | protocolSender
  /-- the wait of `logicFSM` for a message that is not AUTH; the message at the
  head is sent afterwards without another look at the state -/
  | logicWaitSend
  /-- the wait of `logicFSM` for a confirmed AUTH; `logicFSM` is called again -/
  | logicWaitAgain
  | ended
  deriving DecidableEq, Repr

end Ipk24Chat
