import Ipk24Chat.Protocol

/-!
# Message queues

`msgQueue.c` with a queue as the list of its messages, first message first.
The accessors that dereference `queue->first` unchecked return `none` on an
empty queue.
-/

namespace Ipk24Chat

/-- `uid` is the identity of the node, as its address is in C. -/
structure Message where
  uid : Nat
  buffer : List UInt8
  sendCount : Nat
  confirmed : Bool
  type : UInt8
  msgFlags : MsgFlags
  deriving DecidableEq, Repr

abbrev MessageQueue := List Message

/-- A `Message*`. -/
abbrev MsgPtr := Option Nat

namespace Message

def lowMsgIdByte (m : Message) : UInt8 := m.buffer.getD 1 0

def highMsgIdByte (m : Message) : UInt8 := m.buffer.getD 2 0

def msgID (m : Message) : Nat := convert2BytesToU16Int m.lowMsgIdByte m.highMsgIdByte

def setMsgID (m : Message) (msgCounter : Nat) : Message :=
  let (high, low) := breakU16IntToBytes msgCounter
  { m with buffer := (m.buffer.set 2 high).set 1 low }

/-- The message without its flags and the count of its transmissions. -/
def core (m : Message) : Message := { m with sendCount := 0, msgFlags := .msgFlagNone }

end Message

/-- `createMessage`: the bytes of the buffer are copied, nothing was sent yet. -/
def createMessage (uid : Nat) (buffer : Buffer) (msgFlags : MsgFlags) (type : UInt8) : Message :=
  ⟨uid, bufferCopy buffer, 0, false, type, msgFlags⟩

namespace MessageQueue

def getMessage (queue : MessageQueue) : MsgPtr := queue.head?.map (·.uid)

/-- The message a pointer points at, if it was not freed. -/
def deref (queue : MessageQueue) (p : MsgPtr) : Option Message :=
  match p with
  | none => none
  | some uid => queue.find? (·.uid == uid)

def addMessage (queue : MessageQueue) (m : Message) : MessageQueue := queue ++ [m]

def addMessagePriority (queue : MessageQueue) (m : Message) : MessageQueue := m :: queue

def popMessage (queue : MessageQueue) : MessageQueue := queue.tail

def getMessageMsgType (queue : MessageQueue) : MsgType :=
  match queue with
  | [] => .msgUnknown
  | m :: _ => uchar2msgType m.type

def setMessageFlags (queue : MessageQueue) (newFlag : MsgFlags) : MessageQueue :=
  match queue with
  | [] => []
  | m :: rest => { m with msgFlags := newFlag } :: rest

/-- Messages flagged as confirmations keep the ID they answer. -/
def setMessageID (queue : MessageQueue) (msgCounter : Nat) : MessageQueue :=
  match queue with
  | [] => []
  | m :: rest =>
    if m.msgFlags ≠ .msgFlagConfirm ∧ m.msgFlags ≠ .msgFlagNokReply then
      m.setMsgID msgCounter :: rest
    else m :: rest

def getMessageID (queue : MessageQueue) : Nat :=
  match queue with
  | [] => 0
  | m :: _ => m.msgID

/-- `sendCount` is an 8-bit counter. -/
def messageSended (queue : MessageQueue) : Option MessageQueue :=
  match queue with
  | [] => none
  | m :: rest => some ({ m with sendCount := (m.sendCount + 1) % 256 } :: rest)

def confirm (queue : MessageQueue) (p : MsgPtr) : MessageQueue :=
  queue.map fun m => if some m.uid = p then { m with confirmed := true } else m

section length
variable (queue : MessageQueue)

@[simp] theorem length_setMessageFlags (newFlag : MsgFlags) :
    (queue.setMessageFlags newFlag).length = queue.length := by
  cases queue <;> rfl

@[simp] theorem length_setMessageID (msgCounter : Nat) :
    (queue.setMessageID msgCounter).length = queue.length := by
  cases queue with
  | nil => rfl
  | cons m rest =>
    simp only [setMessageID]
    split <;> rfl

@[simp] theorem length_messageSended : (queue.messageSended.getD []).length = queue.length := by
  cases queue <;> rfl

@[simp] theorem length_confirm (p : MsgPtr) : (queue.confirm p).length = queue.length := by
  simp [confirm]

end length

/-- The identities of the messages in the queue. -/
def uids (queue : MessageQueue) : List Nat := queue.map (·.uid)

section uids
variable (queue : MessageQueue)

@[simp] theorem uids_setMessageFlags (newFlag : MsgFlags) :
    (queue.setMessageFlags newFlag).uids = queue.uids := by
  cases queue <;> rfl

@[simp] theorem uids_setMessageID (msgCounter : Nat) :
    (queue.setMessageID msgCounter).uids = queue.uids := by
  cases queue with
  | nil => rfl
  | cons m rest =>
    simp only [setMessageID]
    split <;> rfl

@[simp] theorem uids_messageSended : uids (queue.messageSended.getD []) = queue.uids := by
  cases queue <;> rfl

@[simp] theorem uids_confirm (p : MsgPtr) : (queue.confirm p).uids = queue.uids := by
  simp only [uids, confirm, List.map_map]
  apply List.map_congr_left
  intro m _
  simp only [Function.comp_apply]
  split <;> rfl

@[simp] theorem uids_popMessage : queue.popMessage.uids = queue.uids.tail := by
  simp [uids, popMessage]

@[simp] theorem uids_addMessage (m : Message) :
    (queue.addMessage m).uids = queue.uids ++ [m.uid] := by
  simp [uids, addMessage]

@[simp] theorem uids_addMessagePriority (m : Message) :
    (queue.addMessagePriority m).uids = m.uid :: queue.uids := rfl

@[simp] theorem uids_nil : uids [] = [] := rfl

end uids

/-- The types and flags of the messages in the queue. -/
def marks (queue : MessageQueue) : List (UInt8 × MsgFlags) :=
  queue.map fun m => (m.type, m.msgFlags)

section marks
variable (queue : MessageQueue)

@[simp] theorem marks_setMessageID (msgCounter : Nat) :
    (queue.setMessageID msgCounter).marks = queue.marks := by
  cases queue with
  | nil => rfl
  | cons m rest =>
    simp only [setMessageID]
    split <;> rfl

@[simp] theorem marks_messageSended : marks (queue.messageSended.getD []) = queue.marks := by
  cases queue <;> rfl

@[simp] theorem marks_confirm (p : MsgPtr) : (queue.confirm p).marks = queue.marks := by
  simp only [marks, confirm, List.map_map]
  apply List.map_congr_left
  intro m _
  simp only [Function.comp_apply]
  split <;> rfl

end marks

section core
variable (queue : MessageQueue)

@[simp] theorem core_setMessageFlags (newFlag : MsgFlags) :
    (queue.setMessageFlags newFlag).map Message.core = queue.map Message.core := by
  cases queue <;> rfl

@[simp] theorem core_messageSended :
    (queue.messageSended.getD []).map Message.core = queue.map Message.core := by
  cases queue <;> rfl

end core

end MessageQueue

/-! ## The store of received message IDs -/

/-- A message of the ID-only queue: the two ID bytes as `unsigned char`. -/
structure SeenMessage where
  highMsgId : UInt8
  lowMsgId : UInt8
  type : UInt8
  deriving DecidableEq, Repr

/-- The ID bytes of the incoming message are plain `char` and the stored ones
`unsigned char`, so both sides are compared after integer promotion. -/
def queueContainsMessageId (queue : List SeenMessage) (incoming : Buffer) (type : UInt8) : Bool :=
  queue.any fun m =>
    schar (incoming.mem 2) == (m.highMsgId.toNat : Int) &&
      schar (incoming.mem 1) == (m.lowMsgId.toNat : Int) && type == m.type

def queueAddMessageOnlyID (queue : List SeenMessage) (buffer : Buffer) (type : UInt8) :
    List SeenMessage :=
  ⟨buffer.mem 2, buffer.mem 1, type⟩ :: queue

end Ipk24Chat
