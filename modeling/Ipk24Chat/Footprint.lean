import Ipk24Chat.Run
import Ipk24Chat.Effects
import Ipk24Chat.Encoding

/-!
# What the threads do

The actions that the threads can take, whatever the state is. A discipline is
any property that can be followed along a program, see `Program.Compositional`.
The few functions whose actions only make sense together are `Pieces`, and a
discipline may have its own reasons for them.

* `starts_obeys`: all code of the receiver and the sender obeys a discipline that
  admits the usual actions and the pieces;
* `userCommandHandling_obeys`: the same for main, by what it does with a command.

Only `handleReplyUDP`, `handleReplyTCP` and `logicFSM` ever move the state behind
the authentication; this has its own hypotheses `behind` and `accepted`.
-/

namespace Ipk24Chat

/-- The states the client can only be in after a positive REPLY to its AUTH. -/
def Fsm.authenticated : Fsm → Bool
  | .fsmW84ReplyConf | .fsmOpen | .fsmJoinAtempt => true
  | _ => false

/-- The state in which the first positive REPLY can be acted on. -/
def NetworkConfig.acceptState (cfg : NetworkConfig) : Fsm :=
  match cfg.protocol with
  | .protUDP => .fsmW84Reply
  | .protTCP => .fsmAuthSended

/-- What is known about an answer in every state. -/
def Act.Truthful : (a : Act) → a.Answer → Prop
  | .assembleProtocol _ _ pBlocks, result =>
    ∀ r, result = .ok r → r.canBeSended = true →
      ∃ type, (uchar2CommandType pBlocks.type).sentAs = some type ∧ r.pBlocks.type = type.toUChar
  | .loadBufferFromStdin _ _, loaded => loaded.buffer.mem loaded.used = 0
  | _, _ => True

theorem assemble_type {fresh : Memory} {protocol : Protocols} {pBlocks : ProtocolBlocks}
    {buffer : Buffer} {com : CommunicationDetails} {r : Assembled}
    (h : assemble fresh protocol pBlocks buffer com = .ok r) (sendable : r.canBeSended = true) :
    ∃ type, (uchar2CommandType pBlocks.type).sentAs = some type ∧
      r.pBlocks.type = type.toUChar := by
  rcases assemble_cases h with ⟨text, b, c, rfl, -⟩ | ⟨type, b, c, sent, rfl, -⟩
  · cases sendable
  · exact ⟨type, sent, rfl⟩

theorem Client.act_truthful {t : Thread} {c c' : Client} {a : Act} {r : a.Answer}
    (h : c.act t a = .ok r c') : a.Truthful r := by
  cases a <;> try trivial
  case assembleProtocol protocol buffer pBlocks =>
    intro assembled eq sendable
    simp only [Client.act] at h
    split at h
    · cases h
      cases eq
    · rename_i assembled' run
      cases h
      cases eq
      exact assemble_type run sendable
  case loadBufferFromStdin eofDetected stdin =>
    cases h
    exact Memory.read_eq_cons (Memory.read_write_self _ _ [0])

/-- The actions that can be taken anywhere in the receiver and the sender. -/
def Act.Usual : Act → Prop
  | .setProgramState newState => newState.authenticated = false
  | .queueSetMessageFlags newFlag => newFlag = .msgFlagConfirmed ∨ newFlag = .msgFlagRejected
  | .queueAddMessage .. | .queueAddMessagePriority .. | .assembleProtocol .. => False
  | .bufferResize .. | .storeDisplayName _ | .storeChannelID _ | .loadBufferFromStdin .. => False
  | .queueSetMessageID | .sendto _ | .queueMessageSended | .setConfirmed _ => False
  | .setMsgCounter _ | .addMsgCounter => False
  | .recvfrom _ | .queueAddMessageOnlyID _ | .display .. => False
  | .note e => e = .replyNok ∨ e = .authDiscarded ∨ e = .senderResumed
  | _ => True

/-- The usual actions that do not end the program. -/
def Act.Calm (a : Act) : Prop := a.Usual ∧ a ≠ .setProgramState .fsmEnd

theorem calm_of_usual {allowed : Act → Prop} (usual : ∀ a, a.Usual → allowed a) (a : Act)
    (h : a.Calm) : allowed a := usual a h.1

/-- The calm actions that are not the sender's alone. -/
def Act.Still (a : Act) : Prop := a.Calm ∧ a.bySender = false

theorem still_of_calm {allowed : Act → Prop} (calm : ∀ a, a.Calm → allowed a) (a : Act)
    (h : a.Still) : allowed a := calm a h.1

/-- The actions by which the receiver and the sender make a message. They assemble
nothing but CONFIRM, ERR and BYE, and use the buffer of main for BYE only. None of these
has the flags of an AUTH. -/
def Act.Making (cfg : NetworkConfig) : Act → Prop
  | .queueAddMessage _ msgFlags type =>
    msgFlags ≠ .msgFlagAuth ∧
      (type = MsgType.msgBye.toUChar ∨ type = CommandType.cmdErr.toUChar)
  | .queueAddMessagePriority _ msgFlags type =>
    msgFlags ≠ .msgFlagAuth ∧ type = MsgType.msgConf.toUChar
  | .assembleProtocol protocol buffer pBlocks =>
    pBlocks.Measured ∧
      match uchar2CommandType pBlocks.type with
      | .cmdExit => protocol = cfg.protocol
      | .cmdErr => protocol = cfg.protocol ∧ buffer ≠ .protocolToSendedByMain
      | .cmdConf => protocol = .protUDP ∧ buffer ≠ .protocolToSendedByMain
      | _ => False
  | .bufferResize buffer _ => buffer ≠ .protocolToSendedByMain
  | _ => False

/-- The actions by which a message is labelled, sent, confirmed and counted. -/
def Act.Wiring : Act → Prop
  | .queueSetMessageID | .sendto _ | .queueMessageSended | .setConfirmed _ => True
  | .setMsgCounter _ | .addMsgCounter => True
  | .note e => ∃ msgID, e = .replyCounter msgID
  | _ => False

/-- The functions in which a message is made, sent or counted. -/
structure Pieces (cfg : NetworkConfig) (G : {α : Type} → Prog α → Prop) : Prop where
  sendBye : G (sendBye cfg)
  sendConfirm : ∀ serverResponse flags, flags ≠ .msgFlagAuth →
    G (sendConfirm cfg serverResponse flags)
  sendError : ∀ buffer, buffer ≠ .protocolToSendedByMain → ∀ text, G (sendError cfg buffer text)
  sendHead : ∀ bytesTx, G (sendHead cfg bytesTx)
  replyCounter : ∀ msgID, G (note (.replyCounter msgID) >>= fun _ => setMsgCounter (msgID + 1))

/-- The last branch of `receiverAction`. -/
def unknownMessage (cfg : NetworkConfig) (serverResponse : Buffer) : Prog Unit := do
  setProgramState .fsmErr
  queueLock
  queuePopAllMessages
  queueUnlock
  inUDP cfg (sendConfirm cfg serverResponse .msgFlagConfirm)
  sendError cfg .protocolToSendedByReceiver "Unknown message format"
  sendBye cfg
  wakeSender
  safePrint "ERR: Received unknown message from server. Ending program\n"
  pthreadCondSignal .mainCond

/-- The functions of `Pieces`, with those in place of `sendError` that call it. -/
structure Parts (cfg : NetworkConfig) (G : {α : Type} → Prog α → Prop) : Prop where
  sendBye : G (sendBye cfg)
  sendConfirm : ∀ serverResponse flags, flags ≠ .msgFlagAuth →
    G (sendConfirm cfg serverResponse flags)
  sendHead : ∀ bytesTx, G (sendHead cfg bytesTx)
  replyCounter : ∀ msgID, G (note (.replyCounter msgID) >>= fun _ => setMsgCounter (msgID + 1))
  requestTimedOut : G (requestTimedOut cfg)
  unknownMessage : ∀ serverResponse, G (unknownMessage cfg serverResponse)

/-- The functions of `Parts` that are called while one datagram is handled. -/
structure ReceiverParts (cfg : NetworkConfig) (serverResponse : Buffer)
    (G : {α : Type} → Prog α → Prop) : Prop where
  sendBye : G (sendBye cfg)
  sendConfirm : G (sendConfirm cfg serverResponse .msgFlagConfirm)
  sendNokConfirm : G (Ipk24Chat.sendConfirm cfg serverResponse .msgFlagNokReply)
  replyCounter : ∀ msgID, G (note (.replyCounter msgID) >>= fun _ => setMsgCounter (msgID + 1))
  unknownMessage : G (unknownMessage cfg serverResponse)

theorem Parts.receiver {cfg : NetworkConfig} {G : {α : Type} → Prog α → Prop} (parts : Parts cfg G)
    (serverResponse : Buffer) : ReceiverParts cfg serverResponse G :=
  ⟨parts.sendBye, parts.sendConfirm serverResponse _ nofun,
    parts.sendConfirm serverResponse _ nofun, parts.replyCounter,
    parts.unknownMessage serverResponse⟩

section
variable {cfg : NetworkConfig} {allowed : Act → Prop} {answers : (a : Act) → a.Answer → Prop}
  {G : {α : Type} → Prog α → Prop} (rules : Program.Compositional allowed answers G)
include rules

theorem take_bind {α : Type} {a : Act} {f : a.Answer → Prog α} (ok : allowed a)
    (rest : ∀ r, answers a r → G (f r)) : G (take a >>= f) := rules.perform_bind ok rest

theorem take_only {a : Act} (ok : allowed a) : G (take a) := rules.performed ok

theorem inUDP_obeys {p : Prog Unit} (h : G p) : G (inUDP cfg p) := by
  unfold inUDP
  split
  · exact h
  · exact rules.ret _

section Still
variable (still : ∀ a, a.Still → allowed a)
include still

theorem errHandling_still {α : Type} (bye : G (sendBye cfg)) (f : Failure) :
    G (errHandling cfg f : Prog α) := by
  have destroyed (e : ErrorCode) :
      G (safePrint ("ERR: " ++ f.msg ++ "\n") >>= fun _ => exit e : Prog α) :=
    take_bind rules (still _ ⟨⟨trivial, nofun⟩, rfl⟩) fun _ _ =>
      rules.act (still _ ⟨⟨trivial, nofun⟩, rfl⟩) fun none => none.elim
  have waits : G (do
      setProgramState .fsmErr
      safePrint ("ERR: " ++ f.msg ++ "\n")
      pthreadCondSignal .mainCond
      queueLock
      queuePopAllMessages
      queueUnlock
      sendBye cfg
      park : Prog α) := by
    refine take_bind rules (still _ ⟨⟨rfl, nofun⟩, rfl⟩) fun _ _ => ?_
    iterate 5 refine take_bind rules (still _ ⟨⟨trivial, nofun⟩, rfl⟩) fun _ _ => ?_
    refine rules.bind bye fun _ => ?_
    exact rules.act (still _ ⟨⟨trivial, nofun⟩, rfl⟩) fun none => none.elim
  unfold errHandling
  split
  · exact waits
  · exact waits
  · exact destroyed _

theorem authIsSended_still (flags : MsgFlags) : G (authIsSended flags) := by
  unfold authIsSended
  split
  · refine take_bind rules (still _ ⟨⟨trivial, nofun⟩, rfl⟩) fun state _ => ?_
    split
    · exact take_only rules (still _ ⟨⟨rfl, nofun⟩, rfl⟩)
    · exact rules.ret _
  · exact rules.ret _

theorem logicBeforeAuth_still (msgToBeSend : MsgPtr) (msgType : MsgType) (flags : MsgFlags) :
    G (logicBeforeAuth msgToBeSend msgType flags) := by
  unfold logicBeforeAuth
  refine rules.bind (authIsSended_still rules still flags) fun _ => ?_
  split
  · exact take_bind rules (still _ ⟨⟨trivial, nofun⟩, rfl⟩) fun _ _ => rules.ret _
  · split
    · refine take_bind rules (still _ ⟨⟨trivial, nofun⟩, rfl⟩) fun m _ => ?_
      split
      · exact take_bind rules (still _ ⟨⟨trivial, nofun⟩, rfl⟩) fun _ _ => rules.ret _
      · exact rules.ret _
    · exact rules.ret _

theorem endsWhenEmpty_still : G endsWhenEmpty := by
  unfold endsWhenEmpty
  refine take_bind rules (still _ ⟨⟨trivial, nofun⟩, rfl⟩) fun state _ => ?_
  split
  · exact rules.ret _
  · exact take_bind rules (still _ ⟨⟨trivial, nofun⟩, rfl⟩) fun _ _ => rules.ret _

theorem requestTimedOut_still
    (error : G (sendError cfg .protocolToSendedBySender "Request timed out"))
    (bye : G (sendBye cfg)) : G (requestTimedOut cfg) := by
  unfold requestTimedOut
  refine take_bind rules (still _ ⟨⟨trivial, nofun⟩, rfl⟩) fun _ _ => ?_
  refine take_bind rules (still _ ⟨⟨trivial, nofun⟩, rfl⟩) fun _ _ => ?_
  refine take_bind rules (still _ ⟨⟨rfl, nofun⟩, rfl⟩) fun _ _ => ?_
  refine take_bind rules (still _ ⟨⟨trivial, nofun⟩, rfl⟩) fun _ _ => ?_
  refine rules.bind error fun _ => ?_
  refine rules.bind bye fun _ => ?_
  refine take_bind rules (still _ ⟨⟨trivial, nofun⟩, rfl⟩) fun _ _ => ?_
  exact take_only rules (still _ ⟨⟨trivial, nofun⟩, rfl⟩)

end Still

variable (calm : ∀ a, a.Calm → allowed a)
include calm

theorem errHandling_obeys {α : Type} (bye : G (sendBye cfg)) (f : Failure) :
    G (errHandling cfg f : Prog α) := errHandling_still rules (still_of_calm calm) bye f

theorem wakeSender_obeys : G wakeSender := by
  refine take_bind rules (calm _ ⟨trivial, nofun⟩) fun _ _ => ?_
  exact take_only rules (calm _ ⟨trivial, nofun⟩)

theorem confirmedInState_obeys (stops : allowed (.setProgramState .fsmEnd))
    (state : Fsm) : G (confirmedInState state) := by
  unfold confirmedInState
  split
  · exact take_only rules (calm _ ⟨rfl, nofun⟩)
  · exact take_bind rules stops fun _ _ => take_only rules (calm _ ⟨trivial, nofun⟩)
  · exact take_only rules (calm _ ⟨trivial, nofun⟩)
  · exact rules.ret _

theorem messageWasSended_obeys (counts : allowed .queueMessageSended) (msgToBeSend : MsgPtr)
    (flags : MsgFlags) : G (messageWasSended cfg msgToBeSend flags) := by
  unfold messageWasSended
  split
  · split <;> first | exact take_only rules counts | exact take_only rules (calm _ ⟨trivial, nofun⟩)
  · refine take_bind rules (calm _ ⟨trivial, nofun⟩) fun m _ => ?_
    split
    · refine take_bind rules (calm _ ⟨trivial, nofun⟩) fun _ _ => ?_
      exact take_only rules (calm _ ⟨trivial, nofun⟩)
    · exact take_only rules (calm _ ⟨trivial, nofun⟩)

theorem flagAuthConfirmed_obeys : G flagAuthConfirmed := by
  unfold flagAuthConfirmed
  refine take_bind rules (calm _ ⟨trivial, nofun⟩) fun state _ => ?_
  split
  · refine take_bind rules (calm _ ⟨trivial, nofun⟩) fun _ _ => ?_
    refine take_bind rules (calm _ ⟨Or.inl rfl, nofun⟩) fun _ _ => ?_
    exact take_only rules (calm _ ⟨trivial, nofun⟩)
  · exact rules.ret _

theorem rejectAuth_obeys : G rejectAuth := by
  unfold rejectAuth
  refine take_bind rules (calm _ ⟨trivial, nofun⟩) fun flags _ => ?_
  split
  · refine take_bind rules (calm _ ⟨Or.inr rfl, nofun⟩) fun _ _ => ?_
    exact take_only rules (calm _ ⟨rfl, nofun⟩)
  · exact rules.ret _

theorem printIncomingMessage_obeys (bye : G (sendBye cfg)) {pBlocks : ProtocolBlocks}
    (shows : allowed (.display pBlocks.type pBlocks.zeroth.bytes pBlocks.first.bytes)) :
    G (printIncomingMessage cfg pBlocks) := by
  unfold printIncomingMessage
  simp only
  split
  · exact errHandling_obeys rules calm bye _
  · exact take_only rules shows

theorem repetitive_obeys (bye : G (sendBye cfg))
    (remembers : ∀ type, allowed (.queueAddMessageOnlyID type)) (pBlocks : ProtocolBlocks)
    (serverResponse : Buffer) : G (repetitive cfg pBlocks serverResponse) := by
  unfold repetitive
  refine take_bind rules (calm _ ⟨trivial, nofun⟩) fun _ _ => ?_
  refine take_bind rules (calm _ ⟨trivial, nofun⟩) fun seen _ => ?_
  split
  · exact take_bind rules (calm _ ⟨trivial, nofun⟩) fun _ _ => rules.ret _
  · split
    · exact errHandling_obeys rules calm bye _
    · refine take_bind rules (remembers _) fun _ _ => ?_
      exact take_bind rules (calm _ ⟨trivial, nofun⟩) fun _ _ => rules.ret _

/-! ## The pieces, action by action -/

section
variable (making : ∀ a, a.Making cfg → allowed a) (wiring : ∀ a, a.Wiring → allowed a)

include making in
theorem sendBye_obeys : G (sendBye cfg) := by
  unfold sendBye
  refine take_bind rules (calm _ ⟨trivial, nofun⟩) fun _ _ => ?_
  refine take_bind rules (making _ ⟨.reset _, rfl⟩) fun _ _ => ?_
  refine take_bind rules (making _ ⟨nofun, Or.inl rfl⟩) fun _ _ => ?_
  exact take_only rules (calm _ ⟨trivial, nofun⟩)

/-- Nothing is sent here. -/
theorem handleConfirmUDP_obeys (stops : allowed (.setProgramState .fsmEnd))
    (wiring : ∀ a, a.Wiring → (∀ p, a ≠ .sendto p) → allowed a) (msgID : Nat) :
    G (handleConfirmUDP msgID) := by
  unfold handleConfirmUDP
  refine take_bind rules (calm _ ⟨trivial, nofun⟩) fun _ _ => ?_
  refine take_bind rules (calm _ ⟨trivial, nofun⟩) fun head _ => ?_
  cases head with
  | none => exact take_only rules (calm _ ⟨trivial, nofun⟩)
  | some uid =>
    refine take_bind rules (calm _ ⟨trivial, nofun⟩) fun queueTopMsgID _ => ?_
    refine take_bind rules (calm _ ⟨trivial, nofun⟩) fun topOfQueue _ => ?_
    split
    · exact take_only rules (calm _ ⟨trivial, nofun⟩)
    · refine take_bind rules (wiring _ trivial nofun) fun _ _ => ?_
      refine take_bind rules (wiring _ trivial nofun) fun _ _ => ?_
      refine take_bind rules (calm _ ⟨trivial, nofun⟩) fun state _ => ?_
      refine rules.bind (confirmedInState_obeys rules calm stops state) fun _ => ?_
      refine take_bind rules (calm _ ⟨trivial, nofun⟩) fun _ _ => ?_
      exact take_only rules (calm _ ⟨trivial, nofun⟩)

/-- Nothing is confirmed here. -/
theorem sendHead_obeys (wiring : ∀ a, a.Wiring → (∀ p, a ≠ .setConfirmed p) → allowed a)
    (bye : G (sendBye cfg)) (bytesTx : Int) : G (sendHead cfg bytesTx) := by
  unfold sendHead
  refine take_bind rules (calm _ ⟨trivial, nofun⟩) fun msgToBeSend _ => ?_
  refine rules.bind ?_ fun _ => ?_
  · unfold labelMessage
    split <;> exact take_only rules (wiring _ trivial nofun)
  refine take_bind rules (wiring _ trivial nofun) fun _ _ => ?_
  refine take_bind rules (calm _ ⟨trivial, nofun⟩) fun flags _ => ?_
  split
  · exact errHandling_obeys rules calm bye _
  · refine rules.bind (messageWasSended_obeys rules calm (wiring _ trivial nofun) _ _) fun _ => ?_
    exact take_bind rules (calm _ ⟨trivial, nofun⟩) fun _ _ => rules.ret _

include making in
theorem sendError_obeys (buffer : Scratch) (other : buffer ≠ .protocolToSendedByMain)
    (text : String) : G (sendError cfg buffer text) := by
  have bye := sendBye_obeys rules calm making
  unfold sendError
  refine take_bind rules (calm _ ⟨trivial, nofun⟩) fun comDetails _ => ?_
  refine take_bind rules (making _ other) fun _ _ => ?_
  refine take_bind rules (making _ ?_) fun result _ => ?_
  · exact ⟨⟨Int.natCast_nonneg _, Int.le_refl 0, Int.le_refl 0, Int.le_refl 0⟩, rfl, other⟩
  · cases result with
    | error f => exact errHandling_obeys rules calm bye f
    | ok r =>
      refine take_bind rules (calm _ ⟨trivial, nofun⟩) fun _ _ => ?_
      split
      · refine take_bind rules (making _ ⟨nofun, Or.inr rfl⟩) fun _ _ => ?_
        exact take_only rules (calm _ ⟨trivial, nofun⟩)
      · exact errHandling_obeys rules calm bye _

omit making in
/-- A CONFIRM is not added at the end of the queue. -/
theorem sendConfirm_obeys
    (making : ∀ a, a.Making cfg → (∀ buffer flags type, a ≠ .queueAddMessage buffer flags type) →
      allowed a) (bye : G (sendBye cfg)) (truthful : ∀ a r, answers a r → a.Truthful r)
    (serverResponse : Buffer) (flags : MsgFlags) (other : flags ≠ .msgFlagAuth) :
    G (sendConfirm cfg serverResponse flags) := by
  unfold sendConfirm
  refine take_bind rules (making _ (by simp [Act.Making]) nofun) fun _ _ => ?_
  refine take_bind rules (making _ ?_ nofun) fun result answer => ?_
  · exact ⟨⟨Int.one_nonneg, Int.one_nonneg, Int.le_refl 0, Int.le_refl 0⟩, rfl,
      show Scratch.protocolToSendedByReceiver ≠ .protocolToSendedByMain by decide⟩
  · cases result with
    | error f => exact errHandling_obeys rules calm bye f
    | ok r =>
      simp only
      split
      · rename_i sendable
        obtain ⟨type, sent, eq⟩ := truthful _ _ answer r rfl sendable
        have conf : type = .msgConf := by
          simpa [ProtocolBlocks.reset, CommandType.sentAs, eq_comm] using sent
        exact take_only rules (making _ (by rw [Act.Making, eq, conf]; exact ⟨other, rfl⟩) nofun)
      · exact errHandling_obeys rules calm bye _

include making in
/-- Nothing is confirmed in the pieces. -/
theorem pieces_of_sending (wiring : ∀ a, a.Wiring → (∀ p, a ≠ .setConfirmed p) → allowed a)
    (truthful : ∀ a r, answers a r → a.Truthful r) : Pieces cfg G where
  sendBye := sendBye_obeys rules calm making
  sendConfirm := sendConfirm_obeys rules calm (fun a h _ => making a h)
    (sendBye_obeys rules calm making) truthful
  sendError := sendError_obeys rules calm making
  sendHead := sendHead_obeys rules calm wiring (sendBye_obeys rules calm making)
  replyCounter msgID := by
    refine take_bind rules (wiring _ ⟨msgID, rfl⟩ nofun) fun _ _ => ?_
    exact take_only rules (wiring _ trivial nofun)

include making wiring in
/-- A discipline for single actions needs no more than to admit them. -/
theorem pieces_of_actions (truthful : ∀ a r, answers a r → a.Truthful r) : Pieces cfg G :=
  pieces_of_sending rules calm making (fun a h _ => wiring a h) truthful

end

theorem unknownMessage_obeys {serverResponse : Buffer}
    (confirm : G (sendConfirm cfg serverResponse .msgFlagConfirm))
    (error : G (sendError cfg .protocolToSendedByReceiver "Unknown message format"))
    (bye : G (sendBye cfg)) : G (unknownMessage cfg serverResponse) := by
  unfold unknownMessage
  refine take_bind rules (calm _ ⟨rfl, nofun⟩) fun _ _ => ?_
  iterate 3 refine take_bind rules (calm _ ⟨trivial, nofun⟩) fun _ _ => ?_
  refine rules.bind (inUDP_obeys rules confirm) fun _ => ?_
  refine rules.bind error fun _ => ?_
  refine rules.bind bye fun _ => ?_
  refine rules.bind (wakeSender_obeys rules calm) fun _ => ?_
  refine take_bind rules (calm _ ⟨trivial, nofun⟩) fun _ _ => ?_
  exact take_only rules (calm _ ⟨trivial, nofun⟩)

omit rules calm in
theorem Pieces.parts (rules : Program.Compositional allowed answers G)
    (calm : ∀ a, a.Calm → allowed a) (pieces : Pieces cfg G) : Parts cfg G where
  sendBye := pieces.sendBye
  sendConfirm := pieces.sendConfirm
  sendHead := pieces.sendHead
  replyCounter := pieces.replyCounter
  requestTimedOut := requestTimedOut_still rules (still_of_calm calm)
    (pieces.sendError _ (by decide) _) pieces.sendBye
  unknownMessage serverResponse :=
    unknownMessage_obeys rules calm (pieces.sendConfirm _ _ nofun)
      (pieces.sendError _ (by decide) _) pieces.sendBye

/-! ## The receiver -/

section
variable {serverResponse : Buffer} (parts : ReceiverParts cfg serverResponse G)
include parts

theorem lockedConfirm_obeys : G (lockedConfirm cfg serverResponse) := by
  unfold lockedConfirm
  refine take_bind rules (calm _ ⟨trivial, nofun⟩) fun _ _ => ?_
  refine rules.bind parts.sendConfirm fun _ => ?_
  exact take_only rules (calm _ ⟨trivial, nofun⟩)

theorem handlePositiveReplyUDP_obeys (tested : Fsm) (pBlocks : ProtocolBlocks)
    (noted : allowed (.note (.replyOk tested)))
    (opens : ∀ r, answers (.note (.replyOk tested)) r →
        ∀ s', s'.authenticated = true → allowed (.setProgramState s')) :
    G (handlePositiveReplyUDP cfg tested pBlocks serverResponse) := by
  unfold handlePositiveReplyUDP
  refine take_bind rules noted fun r answer => ?_
  refine rules.bind (flagAuthConfirmed_obeys rules calm) fun _ => ?_
  refine take_bind rules (opens r answer _ rfl) fun _ _ => ?_
  refine take_bind rules (calm _ ⟨trivial, nofun⟩) fun _ _ => ?_
  refine rules.bind parts.sendConfirm fun _ => ?_
  iterate 3 refine take_bind rules (calm _ ⟨trivial, nofun⟩) fun _ _ => ?_
  exact take_only rules (calm _ ⟨trivial, nofun⟩)

/-- The handlers of `receiverAction`. The two that may end the program, and the two
that may move the state behind the authentication, are given. -/
theorem receiverAction_branches {H : Prog Unit → Prop} (lift : ∀ q, G q → H q) {msgID : Nat}
    {pBlocks : ProtocolBlocks}
    (confirm : uchar2msgType pBlocks.type = .msgConf → H (handleConfirmUDP msgID))
    (replied : cfg.protocol = .protUDP → uchar2msgType pBlocks.type = .msgReply →
      G (handleReplyUDP cfg msgID pBlocks serverResponse))
    (repliedTCP : cfg.protocol = .protTCP → G (handleReplyTCP pBlocks))
    (printed : uchar2msgType pBlocks.type = .msgMsg ∨ uchar2msgType pBlocks.type = .msgErr →
      G (printIncomingMessage cfg pBlocks))
    (ended : H (do
      inUDP cfg (lockedConfirm cfg serverResponse)
      setProgramState .fsmEnd
      pthreadCondSignal .mainCond)) (repetitiveMsg : Bool) :
    H (receiverAction cfg msgID pBlocks serverResponse repetitiveMsg) := by
  have confirmed := lockedConfirm_obeys rules calm parts
  unfold receiverAction
  split
  · rename_i type
    split
    · exact confirm type
    · exact lift _ (errHandling_obeys rules calm parts.sendBye _)
  · rename_i type
    split
    · split
      · exact lift _ confirmed
      · exact lift _ (replied ‹_› type)
    · exact lift _ (repliedTCP ‹_›)
  · rename_i type
    split
    · refine lift _ (rules.bind confirmed fun _ => ?_)
      split
      · exact rules.ret _
      · exact rules.bind (wakeSender_obeys rules calm) fun _ => printed (Or.inl type)
    · exact lift _ (printed (Or.inl type))
  · exact ended
  · rename_i type
    apply lift
    refine take_bind rules (calm _ ⟨trivial, nofun⟩) fun _ _ => ?_
    refine take_bind rules (calm _ ⟨trivial, nofun⟩) fun _ _ => ?_
    refine rules.bind (inUDP_obeys rules parts.sendConfirm) fun _ => ?_
    refine take_bind rules (calm _ ⟨trivial, nofun⟩) fun _ _ => ?_
    refine rules.bind parts.sendBye fun _ => ?_
    refine rules.bind (wakeSender_obeys rules calm) fun _ => ?_
    refine take_bind rules (calm _ ⟨rfl, nofun⟩) fun _ _ => ?_
    refine rules.bind (printed (Or.inr type)) fun _ => ?_
    exact take_only rules (calm _ ⟨trivial, nofun⟩)
  · exact lift _ (parts.unknownMessage)

theorem handleNegativeReplyUDP_obeys
    (moves : ∀ s, s.authenticated = true → answers .getProgramState s →
      ∀ s', s'.authenticated = true → allowed (.setProgramState s')) (pBlocks : ProtocolBlocks) :
    G (handleNegativeReplyUDP cfg pBlocks serverResponse) := by
  have left : G leaveJoin := by
    unfold leaveJoin
    refine take_bind rules (calm _ ⟨trivial, nofun⟩) fun state answer => ?_
    split
    · rename_i join
      subst join
      exact take_only rules (moves .fsmJoinAtempt rfl answer _ rfl)
    · exact rules.ret _
  unfold handleNegativeReplyUDP
  refine take_bind rules (calm _ ⟨trivial, nofun⟩) fun _ _ => ?_
  refine take_bind rules (calm _ ⟨Or.inl rfl, nofun⟩) fun _ _ => ?_
  refine rules.bind (rejectAuth_obeys rules calm) fun _ => ?_
  refine rules.bind left fun _ => ?_
  refine rules.bind parts.sendNokConfirm fun _ => ?_
  refine take_bind rules (calm _ ⟨trivial, nofun⟩) fun _ _ => ?_
  refine take_bind rules (calm _ ⟨trivial, nofun⟩) fun _ _ => ?_
  exact take_only rules (calm _ ⟨trivial, nofun⟩)

/-- The states in which a REPLY is answered. -/
theorem handleReplyUDP_of_answers {msgID : Nat} {pBlocks : ProtocolBlocks}
    (answered : ∀ tested, (tested.authenticated = true → answers .getProgramState tested) →
      (tested = .fsmW84Reply ∨ tested = .fsmJoinAtempt) →
      G (answerReply cfg pBlocks serverResponse tested)) :
    G (handleReplyUDP cfg msgID pBlocks serverResponse) := by
  have handle (tested : Fsm) (h : G (answerReply cfg pBlocks serverResponse tested)) :
      G (answerReply cfg pBlocks serverResponse tested >>= fun _ => note (.replyCounter msgID) >>=
        fun _ => setMsgCounter (msgID + 1)) :=
    rules.bind h fun _ => parts.replyCounter msgID
  unfold handleReplyUDP
  refine take_bind rules (calm _ ⟨trivial, nofun⟩) fun state _ => ?_
  split
  · exact handle _ (answered _ nofun (Or.inl rfl))
  · refine take_bind rules (calm _ ⟨trivial, nofun⟩) fun state answer => ?_
    split
    · rename_i join
      subst join
      exact handle _ (answered _ (fun _ => answer) (Or.inr rfl))
    · exact rules.ret _

/-- A negative REPLY moves nothing behind the authentication. -/
theorem handleReplyUDP_refused
    (moves : ∀ s, s.authenticated = true → answers .getProgramState s →
      ∀ s', s'.authenticated = true → allowed (.setProgramState s')) {msgID : Nat}
    {pBlocks : ProtocolBlocks} (negative : positiveUDP pBlocks = false) :
    G (handleReplyUDP cfg msgID pBlocks serverResponse) := by
  apply handleReplyUDP_of_answers rules calm parts
  intro tested _ _
  unfold answerReply
  rw [negative]
  exact handleNegativeReplyUDP_obeys rules calm parts moves _

omit parts in
/-- Only a positive REPLY is noted. -/
theorem answerReplyTCP_obeys
    (moves : ∀ s, s.authenticated = true → answers .getProgramState s →
      ∀ s', s'.authenticated = true → allowed (.setProgramState s')) {tested : Fsm}
    {pBlocks : ProtocolBlocks}
    (noted : pBlocks.msgReplyResultBool = true → allowed (.note (.replyOk tested)) ∧
      ∀ r, answers (.note (.replyOk tested)) r → allowed (.setProgramState .fsmOpen)) :
    G (answerReplyTCP pBlocks tested) := by
  unfold answerReplyTCP
  split
  · obtain ⟨admitted, opens⟩ := noted ‹_›
    refine take_bind rules (calm _ ⟨trivial, nofun⟩) fun _ _ => ?_
    exact take_bind rules admitted fun r answer => take_only rules (opens r answer)
  · refine take_bind rules (calm _ ⟨trivial, nofun⟩) fun _ _ => ?_
    refine take_bind rules (calm _ ⟨trivial, nofun⟩) fun state answer => ?_
    split
    · rename_i join
      subst join
      exact take_only rules (moves .fsmJoinAtempt rfl answer _ rfl)
    · exact take_only rules (calm _ ⟨rfl, nofun⟩)

omit parts in
/-- The states in which a REPLY is answered in the TCP variant. -/
theorem handleReplyTCP_of_answers {pBlocks : ProtocolBlocks}
    (answered : ∀ tested, (tested.authenticated = true → answers .getProgramState tested) →
      (tested = .fsmAuthSended ∨ tested = .fsmJoinAtempt) → G (answerReplyTCP pBlocks tested)) :
    G (handleReplyTCP pBlocks) := by
  unfold handleReplyTCP
  refine take_bind rules (calm _ ⟨trivial, nofun⟩) fun state admitted => ?_
  refine rules.bind ?_ fun _ => take_only rules (calm _ ⟨trivial, nofun⟩)
  unfold replyInState
  split
  · exact answered _ nofun (Or.inl rfl)
  · exact answered _ (fun _ => admitted) (Or.inr rfl)
  · exact rules.ret _

variable (behind : ∀ s, s.authenticated = true → answers .getProgramState s →
    ∀ s', s'.authenticated = true → allowed (.setProgramState s') ∧ allowed (.note (.replyOk s')))
  (accepted : allowed (.note (.replyOk cfg.acceptState)) ∧
    ∀ r, answers (.note (.replyOk cfg.acceptState)) r →
      ∀ s', s'.authenticated = true → allowed (.setProgramState s'))
include behind

include accepted

theorem handleReplyUDP_obeys (udp : cfg.protocol = .protUDP) (msgID : Nat)
    (pBlocks : ProtocolBlocks) : G (handleReplyUDP cfg msgID pBlocks serverResponse) := by
  have first : cfg.acceptState = .fsmW84Reply := by simp [NetworkConfig.acceptState, udp]
  rw [first] at accepted
  apply handleReplyUDP_of_answers rules calm parts
  intro tested join state
  unfold answerReply
  split
  · rcases state with rfl | rfl
    · exact handlePositiveReplyUDP_obeys rules calm parts _ _ accepted.1 accepted.2
    · have all := behind .fsmJoinAtempt rfl (join rfl)
      exact handlePositiveReplyUDP_obeys rules calm parts _ _ (all _ rfl).2
        fun _ _ s' auth => (all s' auth).1
  · have moves (s : Fsm) (auth : s.authenticated = true) (answer : answers .getProgramState s)
        (s' : Fsm) (auth' : s'.authenticated = true) : allowed (.setProgramState s') :=
      (behind s auth answer s' auth').1
    exact handleNegativeReplyUDP_obeys rules calm parts moves _

omit parts in
theorem handleReplyTCP_obeys (tcp : cfg.protocol = .protTCP) (pBlocks : ProtocolBlocks) :
    G (handleReplyTCP pBlocks) := by
  have moves (s : Fsm) (auth : s.authenticated = true) (answer : answers .getProgramState s)
      (s' : Fsm) (auth' : s'.authenticated = true) : allowed (.setProgramState s') :=
    (behind s auth answer s' auth').1
  have first : cfg.acceptState = .fsmAuthSended := by simp [NetworkConfig.acceptState, tcp]
  rw [first] at accepted
  apply handleReplyTCP_of_answers rules calm
  intro tested join state
  apply answerReplyTCP_obeys rules calm moves
  intro _
  rcases state with rfl | rfl
  · exact ⟨accepted.1, fun r answer => accepted.2 r answer _ rfl⟩
  · have all := behind .fsmJoinAtempt rfl (join rfl)
    exact ⟨(all _ rfl).2, fun _ _ => (all _ rfl).1⟩

variable (shows : ∀ type displayname contents, allowed (.display type displayname contents))
include shows

/-- What the handlers have in common; the two that may end the program apart. -/
theorem receiverAction_cases {H : Prog Unit → Prop} (lift : ∀ q, G q → H q) (msgID : Nat)
    (pBlocks : ProtocolBlocks)
    (confirm : uchar2msgType pBlocks.type = .msgConf → H (handleConfirmUDP msgID))
    (ended : H (do
      inUDP cfg (lockedConfirm cfg serverResponse)
      setProgramState .fsmEnd
      pthreadCondSignal .mainCond)) (repetitiveMsg : Bool) :
    H (receiverAction cfg msgID pBlocks serverResponse repetitiveMsg) :=
  receiverAction_branches rules calm parts lift confirm
    (fun udp _ => handleReplyUDP_obeys rules calm parts behind accepted udp msgID pBlocks)
    (fun tcp => handleReplyTCP_obeys rules calm behind accepted tcp pBlocks)
    (fun _ => printIncomingMessage_obeys rules calm parts.sendBye (shows _ _ _)) ended repetitiveMsg

theorem receiverAction_obeys (stops : allowed (.setProgramState .fsmEnd))
    (msgID : Nat) (pBlocks : ProtocolBlocks)
    (confirm : uchar2msgType pBlocks.type = .msgConf → G (handleConfirmUDP msgID))
    (repetitiveMsg : Bool) : G (receiverAction cfg msgID pBlocks serverResponse repetitiveMsg) := by
  refine receiverAction_cases rules calm parts behind accepted shows (fun _ h => h) msgID pBlocks
    confirm ?_ repetitiveMsg
  have confirmed := lockedConfirm_obeys rules calm parts
  refine rules.bind (inUDP_obeys rules confirmed) fun _ => ?_
  exact take_bind rules stops fun _ _ => take_only rules (calm _ ⟨trivial, nofun⟩)

variable (remembers : ∀ type, allowed (.queueAddMessageOnlyID type))
include remembers

omit parts behind accepted shows in
theorem dispatch_of_action (bye : G (sendBye cfg)) {msgID : Nat} {pBlocks : ProtocolBlocks}
    (acts : ∀ repetitiveMsg,
      G (receiverAction cfg msgID pBlocks serverResponse repetitiveMsg)) :
    G (dispatch cfg msgID pBlocks serverResponse) := by
  unfold dispatch
  refine take_bind rules (calm _ ⟨trivial, nofun⟩) fun state _ => ?_
  split
  · exact rules.ret _
  · unfold receiverFSM
    split
    · exact rules.bind (repetitive_obeys rules calm bye remembers _ _) acts
    · exact acts false

theorem dispatch_obeys (stops : allowed (.setProgramState .fsmEnd))
    (msgID : Nat) (pBlocks : ProtocolBlocks)
    (confirm : uchar2msgType pBlocks.type = .msgConf → G (handleConfirmUDP msgID)) :
    G (dispatch cfg msgID pBlocks serverResponse) :=
  dispatch_of_action rules calm remembers parts.sendBye
    (receiverAction_obeys rules calm parts behind accepted shows stops msgID pBlocks confirm)

omit parts behind accepted shows remembers in
theorem handleDatagram_of_dispatch (bye : G (sendBye cfg))
    (udp : cfg.protocol = .protUDP → ∀ d, disassebleProtocolUDP serverResponse = .ok d →
      G (dispatch cfg d.msgId d.pBlocks serverResponse))
    (tcp : cfg.protocol = .protTCP →
      G (dispatch cfg 0 (disassebleProtocolTCP serverResponse (.reset 0)) serverResponse)) :
    G (handleDatagram cfg serverResponse) := by
  unfold handleDatagram
  split
  · split
    · exact errHandling_obeys rules calm bye _
    · exact udp ‹_› _ ‹_›
  · exact tcp ‹_›

theorem handleDatagram_obeys (stops : allowed (.setProgramState .fsmEnd))
    (confirm : ∀ d, disassebleProtocolUDP serverResponse = .ok d →
      uchar2msgType d.pBlocks.type = .msgConf → G (handleConfirmUDP d.msgId))
    (unnumbered : cfg.protocol = .protTCP → G (handleConfirmUDP 0)) :
    G (handleDatagram cfg serverResponse) := by
  have handles := dispatch_obeys rules calm parts behind accepted shows remembers stops
  exact handleDatagram_of_dispatch rules calm parts.sendBye
    (fun _ d decoded => handles _ _ (confirm d decoded)) fun tcp =>
      handles _ _ fun _ => unnumbered tcp

omit parts behind accepted shows remembers in
theorem protocolReceiver_of_datagram {datagram : List UInt8}
    (receives : allowed (.recvfrom datagram))
    (handles : ∀ serverResponse, answers (.recvfrom datagram) serverResponse →
      G (handleDatagram cfg serverResponse)) : G (protocolReceiver cfg datagram) := by
  unfold protocolReceiver
  refine take_bind rules (calm _ ⟨trivial, nofun⟩) fun state _ => ?_
  split
  · exact rules.ret _
  · split
    · exact rules.ret _
    · refine take_bind rules receives fun serverResponse received => ?_
      exact rules.bind (handles serverResponse received) fun _ => rules.ret _

omit parts in
theorem protocolReceiver_obeys (parts : Parts cfg G) (stops : allowed (.setProgramState .fsmEnd))
    (confirm : ∀ msgID, G (handleConfirmUDP msgID))
    (receives : ∀ datagram, allowed (.recvfrom datagram)) (datagram : List UInt8) :
    G (protocolReceiver cfg datagram) := by
  apply protocolReceiver_of_datagram rules calm (receives datagram)
  intro serverResponse _
  exact handleDatagram_obeys rules calm (parts.receiver serverResponse) behind accepted shows
    remembers stops (fun d _ _ => confirm d.msgId) fun _ => confirm 0

end

/-! ## The sender -/

theorem filterLoop_obeys (timedOut : G (requestTimedOut cfg))
    (stops : allowed (.setProgramState .fsmEnd)) (fuel : Nat) (msgToBeSend : MsgPtr)
    (resetLoop : Bool) : G (filterLoop cfg fuel msgToBeSend resetLoop) := by
  induction fuel generalizing msgToBeSend resetLoop with
  | zero => exact rules.act (calm _ ⟨trivial, nofun⟩) fun none => none.elim
  | succ fuel ih =>
    have next (resetLoop : Bool) : G (do
        queuePopMessage
        let msgToBeSend ← queueGetMessage
        filterLoop cfg fuel msgToBeSend resetLoop : Prog Bool) := by
      refine take_bind rules (calm _ ⟨trivial, nofun⟩) fun _ _ => ?_
      exact take_bind rules (calm _ ⟨trivial, nofun⟩) fun p _ => ih p resetLoop
    cases msgToBeSend with
    | none => exact rules.ret _
    | some uid =>
      unfold filterLoop
      refine take_bind rules (calm _ ⟨trivial, nofun⟩) fun sended _ => ?_
      split
      · refine take_bind rules (calm _ ⟨trivial, nofun⟩) fun state _ => ?_
        split
        · exact next resetLoop
        · refine take_bind rules (calm _ ⟨trivial, nofun⟩) fun state _ => ?_
          split
          · refine take_bind rules stops fun _ _ => ?_
            exact take_bind rules (calm _ ⟨trivial, nofun⟩) fun _ _ => next true
          · exact rules.bind timedOut fun _ => rules.ret _
      · refine take_bind rules (calm _ ⟨trivial, nofun⟩) fun m _ => ?_
        split
        · exact next resetLoop
        · split
          · exact rules.ret _
          · split
            · exact rules.ret _
            · exact next resetLoop

section
variable (bye : G (sendBye cfg)) (head : ∀ bytesTx, G (sendHead cfg bytesTx))
include bye

theorem logicErr_obeys (stops : allowed (.setProgramState .fsmEnd))
    (flags : MsgFlags) : G (logicErr cfg flags) := by
  unfold logicErr
  split
  · split
    · exact take_bind rules (calm _ ⟨rfl, nofun⟩) fun _ _ => rules.ret _
    · refine take_bind rules stops fun _ _ => ?_
      exact take_bind rules (calm _ ⟨trivial, nofun⟩) fun _ _ => rules.ret _
  · split
    · exact take_bind rules (calm _ ⟨rfl, nofun⟩) fun _ _ => rules.ret _
    · exact rules.ret _
  · exact rules.ret _
  · exact errHandling_obeys rules calm bye _

variable (behind : ∀ s, s.authenticated = true → answers .getProgramState s →
    ∀ s', s'.authenticated = true → allowed (.setProgramState s'))
include behind

theorem logicFSM_obeys (stops : allowed (.setProgramState .fsmEnd)) : G (logicFSM cfg) := by
  unfold logicFSM
  refine take_bind rules (calm _ ⟨trivial, nofun⟩) fun msgToBeSend _ => ?_
  refine take_bind rules (calm _ ⟨trivial, nofun⟩) fun msgType _ => ?_
  refine take_bind rules (calm _ ⟨trivial, nofun⟩) fun flags _ => ?_
  refine take_bind rules (calm _ ⟨trivial, nofun⟩) fun state answer => ?_
  cases state with
  | fsmStart | fsmAuthW82BeSended | fsmAuthSended | fsmW84Reply =>
    exact logicBeforeAuth_still rules (still_of_calm calm) _ _ _
  | fsmW84ReplyConf =>
    change G (logicReplyConf msgType)
    unfold logicReplyConf
    split
    · refine take_bind rules (behind _ rfl answer _ rfl) fun _ _ => ?_
      exact take_bind rules (calm _ ⟨trivial, nofun⟩) fun _ _ => rules.ret _
    · exact rules.ret _
  | fsmOpen =>
    change G (logicOpen msgType)
    unfold logicOpen
    split
    · refine take_bind rules (calm _ ⟨trivial, nofun⟩) fun _ _ => ?_
      refine take_bind rules (calm _ ⟨by simp [Act.Usual], nofun⟩) fun _ _ => ?_
      exact take_bind rules (calm _ ⟨trivial, nofun⟩) fun _ _ => rules.ret _
    · exact take_bind rules (behind _ rfl answer _ rfl) fun _ _ => rules.ret _
    · exact rules.ret _
  | fsmErr | fsmErrW84Conf => exact logicErr_obeys rules calm bye stops flags
  | _ => exact rules.ret _

include head

theorem logicAndSend_obeys (stops : allowed (.setProgramState .fsmEnd))
    (bytesTx : Int) : G (logicAndSend cfg bytesTx) := by
  unfold logicAndSend
  refine rules.bind (logicFSM_obeys rules calm bye behind stops) fun result => ?_
  cases result with
  | proceed => exact head _
  | waitSend => exact rules.ret _
  | waitAgain => exact rules.ret _

theorem senderBody_obeys (stops : allowed (.setProgramState .fsmEnd))
    (bytesTx : Int) : G (senderBody cfg bytesTx) := by
  unfold senderBody
  refine take_bind rules (calm _ ⟨trivial, nofun⟩) fun empty _ => ?_
  split
  · refine rules.bind (endsWhenEmpty_still rules (still_of_calm calm)) fun stop => ?_
    split
    · refine take_bind rules stops fun _ _ => ?_
      refine take_bind rules (calm _ ⟨trivial, nofun⟩) fun _ _ => ?_
      exact take_bind rules (calm _ ⟨trivial, nofun⟩) fun _ _ => rules.ret _
    · exact take_bind rules (calm _ ⟨trivial, nofun⟩) fun _ _ => rules.ret _
  · refine take_bind rules (calm _ ⟨trivial, nofun⟩) fun _ _ => ?_
    refine take_bind rules (calm _ ⟨trivial, nofun⟩) fun _ _ => ?_
    refine take_bind rules (calm _ ⟨by simp [Act.Usual], nofun⟩) fun _ _ => ?_
    exact logicAndSend_obeys rules calm bye head behind stops _

end

section
variable (parts : Parts cfg G)
  (behind : ∀ s, s.authenticated = true → answers .getProgramState s →
    ∀ s', s'.authenticated = true → allowed (.setProgramState s'))
include parts behind

theorem protocolSender_obeys (stops : allowed (.setProgramState .fsmEnd))
    (fuel : Nat) (bytesTx : Int) :
    G (protocolSender cfg fuel bytesTx) := by
  have body := senderBody_obeys rules calm parts.sendBye parts.sendHead behind stops bytesTx
  unfold protocolSender
  refine take_bind rules (calm _ ⟨trivial, nofun⟩) fun state _ => ?_
  split
  · exact rules.ret _
  · split
    · refine take_bind rules (calm _ ⟨trivial, nofun⟩) fun _ _ => ?_
      refine rules.bind ?_ fun resetLoop => ?_
      · refine take_bind rules (calm _ ⟨trivial, nofun⟩) fun p _ => ?_
        exact filterLoop_obeys rules calm parts.requestTimedOut stops fuel p false
      · split
        · exact rules.ret _
        · exact body
    · exact body

/-- All code of the sender. -/
theorem sender_obeys (stops : allowed (.setProgramState .fsmEnd))
    {p : Point} {q : Prog Point} (h : Starts cfg .sender p q) : G q := by
  cases h with
  | protocolSender fuel bytesTx =>
    exact protocolSender_obeys rules calm parts behind stops fuel bytesTx
  | logicWaitSend bytesTx =>
    unfold resumeSend
    refine take_bind rules (calm _ ⟨trivial, nofun⟩) fun _ _ => ?_
    refine take_bind rules (calm _ ⟨by simp [Act.Usual], nofun⟩) fun _ _ => ?_
    exact parts.sendHead _
  | logicWaitAgain bytesTx =>
    unfold resumeLogic
    refine take_bind rules (calm _ ⟨trivial, nofun⟩) fun _ _ => ?_
    refine take_bind rules (calm _ ⟨by simp [Act.Usual], nofun⟩) fun _ _ => ?_
    exact logicAndSend_obeys rules calm parts.sendBye parts.sendHead behind stops _

end

/-! ## The main thread -/

/-- Commands that `filterCommandsByFSM` lets through; a JOIN or MSG only if it
saw the open state. -/
def Sendable (answers : (a : Act) → a.Answer → Prop) (pBlocks : ProtocolBlocks) : Prop :=
  match uchar2CommandType pBlocks.type with
  | .cmdAuth | .cmdExit => True
  | .cmdJoin | .cmdMsg => answers .getProgramState .fsmOpen
  | _ => False

/-- The display name that `filterCommandsByFSM` may store for a command. -/
def ProtocolBlocks.storedName (pBlocks : ProtocolBlocks) : Option BytesBlock :=
  match uchar2CommandType pBlocks.type with
  | .cmdAuth => some pBlocks.cmdAuthDisplayname
  | .cmdRename => some pBlocks.cmdRenameDisplayname
  | _ => none

/-- The flags a command is queued with. -/
def CommandFlags (pBlocks : ProtocolBlocks) (flags : MsgFlags) : Prop :=
  flags = .msgFlagNone ∨ flags = .msgFlagAuth ∧ uchar2CommandType pBlocks.type = .cmdAuth

omit rules calm in
theorem filterCommandsByFSM_results (pBlocks : ProtocolBlocks) {flags : MsgFlags}
    (plain : CommandFlags pBlocks flags) :
    (filterCommandsByFSM pBlocks flags).Results answers
      fun result => CommandFlags pBlocks result.2 ∧
        (result.1 = true → Sendable answers pBlocks) := by
  have refuse (text : String) : (safePrint text >>= fun _ => pure (false, flags)).Results answers
      fun result => CommandFlags pBlocks result.2 ∧ (result.1 = true → Sendable answers pBlocks) :=
    Program.results_bind fun _ => ⟨plain, nofun⟩
  unfold filterCommandsByFSM
  cases cmd : uchar2CommandType pBlocks.type with
  | cmdAuth =>
    refine Program.results_bind fun _ => Program.results_bind fun state => ?_
    split
    · exact Program.results_bind fun _ => ⟨Or.inr ⟨rfl, cmd⟩, fun _ => by simp [Sendable, cmd]⟩
    · exact refuse _
  | cmdExit => exact ⟨plain, fun _ => by simp [Sendable, cmd]⟩
  | cmdJoin =>
    intro state answer
    change (if state = .fsmOpen then _ else _ : Prog _).Results answers _
    split
    · rename_i isOpen
      refine Program.results_bind fun _ => ⟨plain, fun _ => ?_⟩
      simpa [Sendable, cmd] using isOpen ▸ answer
    · exact refuse _
  | cmdMsg =>
    intro state answer
    change (if state = .fsmOpen then _ else _ : Prog _).Results answers _
    split
    · rename_i isOpen
      exact ⟨plain, fun _ => by simpa [Sendable, cmd] using isOpen ▸ answer⟩
    · exact refuse _
  | cmdRename =>
    refine Program.results_bind fun state => ?_
    split
    · exact Program.results_bind fun _ => ⟨plain, nofun⟩
    · exact refuse _
  | cmdNone => exact ⟨plain, nofun⟩
  | cmdHelp => exact Program.results_bind fun _ => ⟨plain, nofun⟩
  | _ => exact refuse _

omit rules calm in
/-- An AUTH is let through only behind the store of its display name. -/
theorem filterCommandsByFSM_stores (pBlocks : ProtocolBlocks) (flags : MsgFlags) :
    (filterCommandsByFSM pBlocks flags).Results answers fun _ =>
      uchar2CommandType pBlocks.type = .cmdAuth →
        answers (.storeDisplayName pBlocks.cmdAuthDisplayname) () := by
  by_cases auth : uchar2CommandType pBlocks.type = .cmdAuth
  · unfold filterCommandsByFSM
    rw [auth]
    intro stored answer
    exact Program.results_mono (Program.results_true _) fun _ _ _ => answer
  · exact Program.results_mono (Program.results_true _) fun _ _ command => absurd command auth

theorem filterCommandsByFSM_obeys {pBlocks : ProtocolBlocks}
    (names : ∀ src, pBlocks.storedName = some src → allowed (.storeDisplayName src))
    (channels : ∀ src, allowed (.storeChannelID src)) (flags : MsgFlags) :
    G (filterCommandsByFSM pBlocks flags) := by
  unfold ProtocolBlocks.storedName at names
  have refuse (text : String) : G (safePrint text >>= fun _ => pure (false, flags)) :=
    take_bind rules (calm _ ⟨trivial, nofun⟩) fun _ _ => rules.ret _
  unfold filterCommandsByFSM
  cases cmd : uchar2CommandType pBlocks.type with simp only [cmd] at names
  | cmdAuth =>
    refine take_bind rules (names _ rfl) fun _ _ => ?_
    refine take_bind rules (calm _ ⟨trivial, nofun⟩) fun state _ => ?_
    split
    · exact take_bind rules (calm _ ⟨rfl, nofun⟩) fun _ _ => rules.ret _
    · exact refuse _
  | cmdJoin =>
    refine take_bind rules (calm _ ⟨trivial, nofun⟩) fun state _ => ?_
    split
    · exact take_bind rules (channels _) fun _ _ => rules.ret _
    · exact refuse _
  | cmdRename =>
    refine take_bind rules (calm _ ⟨trivial, nofun⟩) fun state _ => ?_
    split
    · exact take_bind rules (names _ rfl) fun _ _ => rules.ret _
    · exact refuse _
  | cmdMsg =>
    refine take_bind rules (calm _ ⟨trivial, nofun⟩) fun state _ => ?_
    split
    · exact rules.ret _
    · exact refuse _
  | cmdHelp => exact take_bind rules (calm _ ⟨trivial, nofun⟩) fun _ _ => rules.ret _
  | cmdNone | cmdExit => exact rules.ret _
  | _ => exact refuse _

/-- What becomes of the message in the buffer of main. -/
theorem enqueueCommand_obeys (flags : MsgFlags) (type : UInt8)
    (adds : allowed (.queueAddMessage .protocolToSendedByMain flags type)) :
    G (enqueueCommand flags type) := by
  have signaled (signalSender : Bool) : G (signalSenderIf signalSender type) := by
    unfold signalSenderIf
    split
    · exact take_only rules (calm _ ⟨trivial, nofun⟩)
    · exact rules.ret _
  unfold enqueueCommand
  refine take_bind rules (calm _ ⟨trivial, nofun⟩) fun _ _ => ?_
  refine take_bind rules (calm _ ⟨trivial, nofun⟩) fun signalSender _ => ?_
  refine take_bind rules adds fun _ _ => ?_
  refine rules.bind (signaled _) fun _ => ?_
  refine take_bind rules (calm _ ⟨trivial, nofun⟩) fun _ _ => ?_
  split
  · exact take_bind rules (calm _ ⟨rfl, nofun⟩) fun _ _ => take_only rules (calm _ ⟨trivial, nofun⟩)
  · exact rules.ret _

theorem assembleCommand_obeys (bye : G (sendBye cfg))
    (truthful : ∀ a r, answers a r → a.Truthful r) (pBlocks : ProtocolBlocks) (flags : MsgFlags)
    (assembles : allowed (.assembleProtocol cfg.protocol .protocolToSendedByMain pBlocks))
    (adds : ∀ type, (uchar2CommandType pBlocks.type).sentAs = some type →
      allowed (.queueAddMessage .protocolToSendedByMain flags type.toUChar)) :
    G (assembleCommand cfg pBlocks flags) := by
  unfold assembleCommand
  refine take_bind rules assembles fun result answer => ?_
  cases result with
  | error f => exact errHandling_obeys rules calm bye f
  | ok r =>
    change G (if r.canBeSended = true then _ else _ : Prog Unit)
    split
    · rename_i complete
      obtain ⟨type, sent, eq⟩ := truthful _ _ answer r rfl complete
      exact enqueueCommand_obeys rules calm _ _ (by rw [eq]; exact adds type sent)
    · exact rules.ret _

/-- What main does with a line, by what is known of a command it lets through. -/
theorem userCommandHandling_of_results (bye : G (sendBye cfg))
    (truthful : ∀ a r, answers a r → a.Truthful r)
    (names : ∀ pBlocks : ProtocolBlocks, Accepted pBlocks → ∀ src,
      pBlocks.storedName = some src → allowed (.storeDisplayName src))
    (channels : ∀ src, allowed (.storeChannelID src))
    (loads : ∀ eofDetected stdin, allowed (.loadBufferFromStdin eofDetected stdin))
    (sent : ProtocolBlocks → MsgFlags → Prop)
    (filtered : ∀ pBlocks flags, CommandFlags pBlocks flags →
      (filterCommandsByFSM pBlocks flags).Results answers
        fun result => result.1 = true → sent pBlocks result.2)
    (commands : ∀ pBlocks flags, Accepted pBlocks → pBlocks.Measured → sent pBlocks flags →
      G (assembleCommand cfg pBlocks flags))
    (eofDetected : Bool) (stdin : List UInt8) :
    G (userCommandHandling cfg eofDetected stdin) := by
  have complained (e : Option WordError) : G (printComplaint e) := by
    unfold printComplaint
    split
    · exact take_only rules (calm _ ⟨trivial, nofun⟩)
    · exact rules.ret _
  unfold userCommandHandling
  refine take_bind rules (calm _ ⟨trivial, nofun⟩) fun state _ => ?_
  split
  · split
    · refine take_bind rules (calm _ ⟨rfl, nofun⟩) fun _ _ => ?_
      refine rules.bind bye fun _ => ?_
      exact take_bind rules (calm _ ⟨trivial, nofun⟩) fun _ _ => rules.ret _
    · refine take_bind rules (loads _ _) fun loaded answer => ?_
      refine rules.bind ?_ fun _ => rules.ret _
      have zero : loaded.buffer.mem loaded.used = 0 := truthful _ _ answer
      obtain ⟨accepted, measured⟩ := userInputToCmds_accepted
        { loaded.buffer with used := loaded.used } .msgFlagNone zero
        (.reset CommandType.cmdNone.toUChar)
      have plain := userInputToCmds_flags { loaded.buffer with used := loaded.used }
        (.reset CommandType.cmdNone.toUChar) .msgFlagNone
      unfold handleLine
      refine rules.bind (complained _) fun _ => ?_
      refine rules.bind_of_results
        (filterCommandsByFSM_obeys rules calm (names _ accepted) channels _)
        (filtered _ _ plain) fun result sendable => ?_
      change G (if result.1 = true then _ else _ : Prog Unit)
      split
      · exact commands _ _ accepted measured (sendable ‹_›)
      · exact rules.ret _
  · exact rules.ret _

/-- **Footprint of main**, by what it may do with a command it lets through. -/
theorem userCommandHandling_obeys (bye : G (sendBye cfg))
    (truthful : ∀ a r, answers a r → a.Truthful r)
    (stores : ∀ src, allowed (.storeDisplayName src) ∧ allowed (.storeChannelID src))
    (loads : ∀ eofDetected stdin, allowed (.loadBufferFromStdin eofDetected stdin))
    (commands : ∀ pBlocks flags, Accepted pBlocks → pBlocks.Measured → Sendable answers pBlocks →
      CommandFlags pBlocks flags → G (assembleCommand cfg pBlocks flags))
    (eofDetected : Bool) (stdin : List UInt8) :
    G (userCommandHandling cfg eofDetected stdin) := by
  apply userCommandHandling_of_results rules calm bye truthful (fun _ _ src _ => (stores src).1)
    (fun src => (stores src).2) loads
    fun pBlocks flags => Sendable answers pBlocks ∧ CommandFlags pBlocks flags
  · intro pBlocks flags plain
    exact Program.results_mono (filterCommandsByFSM_results pBlocks plain)
      fun result known sendable => ⟨known.2 sendable, known.1⟩
  · intro pBlocks flags accepted measured known
    exact commands pBlocks flags accepted measured known.1 known.2

/-! ## Disciplines for single actions -/

/-- **Footprint of the receiver and the sender.** -/
theorem starts_obeys (stops : allowed (.setProgramState .fsmEnd))
    (making : ∀ a, a.Making cfg → allowed a) (wiring : ∀ a, a.Wiring → allowed a)
    (receives : ∀ datagram, allowed (.recvfrom datagram))
    (remembers : ∀ type, allowed (.queueAddMessageOnlyID type))
    (shows : ∀ type displayname contents, allowed (.display type displayname contents))
    (truthful : ∀ a r, answers a r → a.Truthful r)
    (behind : ∀ s, s.authenticated = true → answers .getProgramState s →
      ∀ s', s'.authenticated = true → allowed (.setProgramState s') ∧ allowed (.note (.replyOk s')))
    (accepted : allowed (.note (.replyOk cfg.acceptState)) ∧
      ∀ r, answers (.note (.replyOk cfg.acceptState)) r →
      ∀ s', s'.authenticated = true → allowed (.setProgramState s'))
    {t : Thread} {p : Point} {q : Prog Point} (h : Starts cfg t p q) (other : t ≠ .main) : G q := by
  have pieces : Pieces cfg G := pieces_of_actions rules calm making wiring truthful
  have parts := pieces.parts rules calm
  cases t with
  | main => exact absurd rfl other
  | sender =>
    exact sender_obeys rules calm parts
      (fun s auth answer s' auth' => (behind s auth answer s' auth').1) stops h
  | receiver =>
    cases h with
    | protocolReceiver datagram _ =>
      exact protocolReceiver_obeys rules calm behind accepted shows remembers parts stops
        (handleConfirmUDP_obeys rules calm stops fun a h _ => wiring a h) receives datagram

end

end Ipk24Chat
