import Ipk24Chat.DecodeUDP
import Ipk24Chat.Delivery
import Ipk24Chat.Silence
import Ipk24Chat.Waking

/-!
# The shutdown after a protocol error

An ERR from the server, or a message of unknown type, empties the queue. What goes out
then is told from the sender's passes over the messages that replace it.

* `Finishes`: the datagrams that the sender transmits until it ends;
* `pass_sends`, `pass_ends`: the passes that occur;
* `finishes_resent`: a message is transmitted until its retries are used up;
* `unknownMessage_queues`, `receiverAction_answers`: what the receiver leaves in the queue;
* `shutdown_exact`: both together.
-/

namespace Ipk24Chat

/-- From the `k`-th pass on the sender transmits these datagrams and comes to its end. None
is of a message that was allocated before `first`. -/
inductive Finishes (cfg : NetworkConfig) (bytesTx : Nat → Int) (first : Nat) :
    Nat → Client → List (List UInt8) → Prop
  | ended {k : Nat} {c : Client} (state : c.fsmState = .fsmEnd) : Finishes cfg bytesTx first k c []
  | quiet {k : Nat} {c c' : Client} {datagrams : List (List UInt8)}
    (run : (senderPass cfg c (bytesTx k)).exec (Client.perform .sender) c =
      .done .protocolSender c')
    (nothing : sentMessages c'.history = sentMessages c.history)
    (more : Finishes cfg bytesTx first (k + 1) c' datagrams) :
    Finishes cfg bytesTx first k c datagrams
  | sends {k : Nat} {c c' : Client} {m : Message} {datagrams : List (List UInt8)}
    (run : (senderPass cfg c (bytesTx k)).exec (Client.perform .sender) c =
      .done .protocolSender c')
    (out : sentMessages c'.history = sentMessages c.history ++ [m]) (new : first ≤ m.uid)
    (more : Finishes cfg bytesTx first (k + 1) c' datagrams) :
    Finishes cfg bytesTx first k c (m.buffer :: datagrams)

/-- The client between two passes of the sender. -/
structure Client.At (c : Client) (msgCounter : Nat) (state : Fsm) (queue : MessageQueue) :
    Prop where
  running : c.status = .running
  unlocked : c.lock = none
  msgCounter : c.comDetails.msgCounter = msgCounter
  state : c.fsmState = state
  queue : c.sendingQueue = queue

section
variable {cfg : NetworkConfig} (udp : cfg.protocol = .protUDP) {c : Client} {msgCounter : Nat}
  {state state' : Fsm} {queue rest : MessageQueue} {m : Message}
include udp

/-! ## A pass -/

/-- The head is labelled and goes out. -/
theorem pass_sends (known : c.At msgCounter state queue) (busy : state ≠ .fsmEnd)
    (filtered : queue.filtered cfg state = m :: rest)
    (early : m.sendCount ≤ cfg.udpMaxRetries.val)
    (goes : logic cfg m state = some (.proceed, state')) {bytesTx : Int} (sent : 0 ≤ bytesTx) :
    ∃ c', (senderPass cfg c bytesTx).exec (Client.perform .sender) c = .done .protocolSender c' ∧
      c'.At msgCounter state' ((m.labelled cfg msgCounter).kept cfg ++ rest) ∧
      sentMessages c'.history = sentMessages c.history ++ [m.labelled cfg msgCounter] := by
  obtain ⟨running, unlocked, rfl, rfl, rfl⟩ := known
  have onTime : MessageQueue.headLate cfg (m :: rest) = false := by
    simpa [MessageQueue.headLate] using early
  have first : (filtering cfg c).advance (Client.perform .sender) 2 c = _ :=
    filtering_advance running unlocked
  cases filterLoop_filtered (t := .sender) (c := { c with lock := some .sender }) running
    (Nat.lt_succ_self _) (fun _ => by rw [filtered, onTime]) false with
  | stops _ run =>
    rw [filtered] at run
    have pass : (senderPass cfg c bytesTx).exec (Client.perform .sender) c =
        (logicAndSend cfg bytesTx).exec (Client.perform .sender)
          ((c.filteredTo (m :: rest)).resumed .sender) :=
      senderPass_logic udp running busy (by exact running) rfl
        ((Program.exec_advance first).trans run)
    refine ⟨_, pass.trans (logicAndSend_sends (c := (c.filteredTo (m :: rest)).resumed .sender)
      running cfg .sender rfl goes sent), ⟨running, rfl, ?_, rfl, rfl⟩, ?_⟩
    · simp only [Client.sentHead, NetworkConfig.counted, udp]
      rfl
    · simp [Client.sentHead, Client.resumed, Client.filteredTo, sentMessages,
        Event.transmitted?, List.filterMap_cons]
  | reports late =>
    rw [filtered, onTime] at late
    cases late
  | fails late =>
    rw [filtered, onTime] at late
    cases late

/-- The last retry of the BYE is used up. -/
theorem pass_ends (known : c.At msgCounter .fsmEndW84Conf [m]) (kept : m.dropped cfg = false)
    (late : cfg.udpMaxRetries.val < m.sendCount) (bytesTx : Int) :
    ∃ c', (senderPass cfg c bytesTx).exec (Client.perform .sender) c = .done .protocolSender c' ∧
      c'.fsmState = .fsmEnd ∧ sentMessages c'.history = sentMessages c.history := by
  obtain ⟨running, unlocked, -, state, queue⟩ := known
  have first : (filtering cfg c).advance (Client.perform .sender) 2 c = _ :=
    filtering_advance running unlocked
  have filtered : c.sendingQueue.filtered cfg c.fsmState = [m] := by
    rw [state, queue]
    simp [MessageQueue.filtered, kept]
  obtain ⟨n, fuel, enough, byes⟩ : ∃ n fuel, 0 < fuel ∧ _ :=
    filterLoop_filtered_bye (t := .sender) (c := { c with lock := some .sender }) running
      (Nat.lt_succ_self _) state filtered late false
  have run := (Program.exec_advance first).trans (Program.exec_advance byes)
  obtain ⟨fuel, rfl⟩ : ∃ k, fuel = k + 1 := ⟨fuel - 1, by omega⟩
  exact ⟨_, senderPass_exec udp running (by rw [state]; decide) bytesTx run, rfl, rfl⟩

/-! ## Over and over again -/

/-- A message that goes out as the same datagram each time. -/
structure Message.Repeats (m : Message) (msgCounter uid : Nat) (flags : MsgFlags)
    (datagram : List UInt8) : Prop where
  uid : m.uid = uid
  msgFlags : m.msgFlags = flags
  confirmed : m.confirmed = false
  datagram : (m.setMsgID msgCounter).buffer = datagram

omit udp in
theorem setMsgID_setMsgID (m : Message) (msgCounter : Nat) :
    ((m.setMsgID msgCounter).setMsgID msgCounter).buffer = (m.setMsgID msgCounter).buffer := by
  simp only [Message.setMsgID]
  rw [List.set_comm _ _ (by decide), List.set_set, List.set_comm _ _ (by decide), List.set_set]

section
variable {uid : Nat} {flags : MsgFlags} {datagram : List UInt8}
  (repeats : m.Repeats msgCounter uid flags datagram) (numbered : flags.sentOnce = false)
include repeats numbered

theorem Message.Repeats.labelled : m.labelled cfg msgCounter = m.setMsgID msgCounter := by
  have other : m.msgFlags ≠ .msgFlagConfirm ∧ m.msgFlags ≠ .msgFlagNokReply := by
    constructor
    all_goals
      rintro eq
      rw [repeats.msgFlags] at eq
      subst eq
      cases numbered
  simp only [Message.labelled, udp, if_pos other]

/-- It stays in the queue with one transmission more. -/
theorem Message.Repeats.kept (room : m.sendCount ≤ 254) :
    ∃ m', (m.labelled cfg msgCounter).kept cfg = [m'] ∧
      m'.Repeats msgCounter uid flags datagram ∧ m'.sendCount = m.sendCount + 1 := by
  rw [repeats.labelled udp numbered, kept_eq udp]
  have again : (m.setMsgID msgCounter).msgFlags.sentOnce = false := by
    rw [← numbered, ← repeats.msgFlags]
    rfl
  rw [again]
  refine ⟨_, rfl, ⟨repeats.uid, repeats.msgFlags, repeats.confirmed, ?_⟩, ?_⟩
  · exact (setMsgID_setMsgID m msgCounter).trans repeats.datagram
  · exact Nat.mod_eq_of_lt (by simp only [Message.setMsgID]; omega)

omit udp numbered in
theorem Message.Repeats.not_dropped (other : flags ≠ .msgFlagRejected) :
    m.dropped cfg = false := by
  simp [Message.dropped, repeats.msgFlags, repeats.confirmed, other]

end

section
variable {bytesTx : Nat → Int} (sent : ∀ k, 0 ≤ bytesTx k) {first uid : Nat} (new : first ≤ uid)
  {flags : MsgFlags} {datagram : List UInt8} {datagrams : List (List UInt8)}
  (numbered : flags.sentOnce = false) (other : flags ≠ .msgFlagRejected)
  (room : cfg.udpMaxRetries.val ≤ 254)
include sent new numbered room

/-- One transmission of it, and what follows. -/
theorem finishes_sends {k : Nat} (known : c.At msgCounter state queue) (busy : state ≠ .fsmEnd)
    (filtered : queue.filtered cfg state = m :: rest)
    (repeats : m.Repeats msgCounter uid flags datagram)
    (early : m.sendCount ≤ cfg.udpMaxRetries.val)
    (goes : logic cfg m state = some (.proceed, state'))
    (more : ∀ c' m', c'.At msgCounter state' (m' :: rest) →
      m'.Repeats msgCounter uid flags datagram → m'.sendCount = m.sendCount + 1 →
      Finishes cfg bytesTx first (k + 1) c' datagrams) :
    Finishes cfg bytesTx first k c (datagram :: datagrams) := by
  obtain ⟨c', run, known', out⟩ := pass_sends udp known busy filtered early goes (sent k)
  obtain ⟨m', kept, repeats', count⟩ := repeats.kept udp numbered (Nat.le_trans early room)
  rw [kept, List.singleton_append] at known'
  rw [repeats.labelled udp numbered] at out
  have sends : Finishes cfg bytesTx first k c _ :=
    .sends run out (by exact repeats.uid ▸ new) (more c' m' known' repeats' count)
  rwa [repeats.datagram] at sends

include other

/-- Once its state is reached, it goes out until its retries are used up. -/
theorem finishes_again (busy : state ≠ .fsmEnd)
    (stays : ∀ m : Message, m.msgFlags = flags → logic cfg m state = some (.proceed, state))
    (behind : ∀ k c m, c.At msgCounter state (m :: rest) →
      m.Repeats msgCounter uid flags datagram → cfg.udpMaxRetries.val < m.sendCount →
      Finishes cfg bytesTx first k c datagrams) {gap k : Nat}
    (known : c.At msgCounter state (m :: rest)) (repeats : m.Repeats msgCounter uid flags datagram)
    (left : m.sendCount + gap = cfg.udpMaxRetries.val + 1) :
    Finishes cfg bytesTx first k c (List.replicate gap datagram ++ datagrams) := by
  induction gap generalizing k c m with
  | zero => exact behind k c m known repeats (by omega)
  | succ gap ih =>
    have early : m.sendCount ≤ cfg.udpMaxRetries.val := by omega
    have filtered : MessageQueue.filtered cfg state (m :: rest) = m :: rest := by
      have short : ¬ cfg.udpMaxRetries.val < m.sendCount := by omega
      simp [MessageQueue.filtered, repeats.not_dropped other, short]
    rw [List.replicate_succ, List.cons_append]
    exact finishes_sends udp sent new numbered room known busy filtered repeats early
      (stays m repeats.msgFlags) fun c' m' known' repeats' count =>
        ih known' repeats' (by omega)

/-- A message that was not sent yet goes out once and with all its retries. -/
theorem finishes_resent {k : Nat} (known : c.At msgCounter state queue) (busy : state ≠ .fsmEnd)
    (busy' : state' ≠ .fsmEnd) (filtered : queue.filtered cfg state = m :: rest)
    (repeats : m.Repeats msgCounter uid flags datagram) (unsent : m.sendCount = 0)
    (goes : logic cfg m state = some (.proceed, state'))
    (stays : ∀ m : Message, m.msgFlags = flags → logic cfg m state' = some (.proceed, state'))
    (behind : ∀ k c m, c.At msgCounter state' (m :: rest) →
      m.Repeats msgCounter uid flags datagram → cfg.udpMaxRetries.val < m.sendCount →
      Finishes cfg bytesTx first k c datagrams) :
    Finishes cfg bytesTx first k c
      (List.replicate (cfg.udpMaxRetries.val + 1) datagram ++ datagrams) := by
  rw [List.replicate_succ, List.cons_append]
  exact finishes_sends udp sent new numbered room known busy filtered repeats (by omega) goes
    fun c' m' known' repeats' count =>
      finishes_again udp sent new numbered other room busy' stays behind known' repeats' (by omega)

end

/-! ## The messages of the end -/

section
variable {bytesTx : Nat → Int} (sent : ∀ k, 0 ≤ bytesTx k) {first : Nat}
include sent

/-- The CONFIRM goes out as it is, and once. -/
theorem finishes_confirm {datagrams : List (List UInt8)} {k : Nat}
    (known : c.At msgCounter .fsmErr (m :: rest)) (new : first ≤ m.uid)
    (confirm : m.msgFlags = .msgFlagConfirm) (unsent : m.sendCount = 0)
    (unconfirmed : m.confirmed = false)
    (more : ∀ c', c'.At msgCounter .fsmErr rest → Finishes cfg bytesTx first (k + 1) c' datagrams) :
    Finishes cfg bytesTx first k c (m.buffer :: datagrams) := by
  have filtered : MessageQueue.filtered cfg .fsmErr (m :: rest) = m :: rest := by
    simp [MessageQueue.filtered, Message.dropped, confirm, unconfirmed]
  have goes : logic cfg m .fsmErr = some (.proceed, .fsmErr) := by
    simp only [logic, confirm]
  obtain ⟨c', run, known', out⟩ :=
    pass_sends udp known (by decide) filtered (by omega) goes (sent k)
  have same : m.labelled cfg msgCounter = m := by
    simp [Message.labelled, udp, confirm]
  have popped : m.kept cfg = [] := by
    rw [kept_eq udp, confirm]
    rfl
  rw [same, popped, List.nil_append] at known'
  rw [same] at out
  exact .sends run out new (more c' known')

variable (room : cfg.udpMaxRetries.val ≤ 254) {uid : Nat} (new : first ≤ uid)
  {datagram : List UInt8}
include room new

theorem finishes_bye {k : Nat} (known : c.At msgCounter state queue)
    (error : state = .fsmErr ∨ state = .fsmErrW84Conf) (filtered : queue.filtered cfg state = [m])
    (repeats : m.Repeats msgCounter uid .msgFlagBye datagram) (unsent : m.sendCount = 0) :
    Finishes cfg bytesTx first k c (List.replicate (cfg.udpMaxRetries.val + 1) datagram) := by
  have busy : state ≠ .fsmEnd := by
    rcases error with rfl | rfl <;> decide
  have goes : logic cfg m state = some (.proceed, .fsmEndW84Conf) := by
    rcases error with rfl | rfl <;> simp only [logic, repeats.msgFlags, udp]
  rw [← List.append_nil (List.replicate _ datagram)]
  refine finishes_resent udp sent new (by rfl) (by decide) room known busy (by decide) filtered
    repeats unsent goes (fun _ _ => rfl) fun k c m known' repeats' late => ?_
  obtain ⟨c', run, state', nothing⟩ :=
    pass_ends udp known' (repeats'.not_dropped (by decide)) late (bytesTx k)
  exact .quiet run nothing (.ended state')

/-- The ERR is given up when its retries are used up, and the BYE takes its place. -/
theorem finishes_err {err bye : Message} {uid' : Nat} (new' : first ≤ uid')
    {datagram' : List UInt8} {k : Nat} (known : c.At msgCounter .fsmErr [err, bye])
    (repeats : err.Repeats msgCounter uid .msgFlagErr datagram) (unsent : err.sendCount = 0)
    (repeats' : bye.Repeats msgCounter uid' .msgFlagBye datagram') (unsent' : bye.sendCount = 0) :
    Finishes cfg bytesTx first k c (List.replicate (cfg.udpMaxRetries.val + 1) datagram ++
      List.replicate (cfg.udpMaxRetries.val + 1) datagram') := by
  have filtered : MessageQueue.filtered cfg .fsmErr [err, bye] = [err, bye] := by
    simp [MessageQueue.filtered, repeats.not_dropped]
  have goes {m : Message} {state : Fsm} (error : state = .fsmErr ∨ state = .fsmErrW84Conf)
      (flags : m.msgFlags = .msgFlagErr) :
      logic cfg m state = some (.proceed, .fsmErrW84Conf) := by
    rcases error with rfl | rfl <;> simp only [logic, flags, udp]
  refine finishes_resent udp sent new (by rfl) (by decide) room known (by decide) (by decide)
    filtered repeats unsent (goes (Or.inl rfl) repeats.msgFlags)
    (fun _ flags => goes (Or.inr rfl) flags) fun k c m known _ late => ?_
  have behind : MessageQueue.filtered cfg .fsmErrW84Conf [m, bye] = [bye] := by
    simp [MessageQueue.filtered, repeats'.not_dropped, late, unsent']
  exact finishes_bye udp sent room new' known (Or.inr rfl) behind repeats' unsent'

end

end

/-! ## What the receiver queues -/

/-- A message under the label that the sender gives it. -/
def numberedUDP (msgCounter : Nat) (type : MsgType) (fields : List (List UInt8)) : List UInt8 :=
  formatUDP type (breakU16IntToBytes msgCounter).2 (breakU16IntToBytes msgCounter).1 fields

/-- The bytes of a message, up to its label. -/
def Message.Spelled (m : Message) (type : MsgType) (fields : List (List UInt8)) : Prop :=
  ∃ low high, m.buffer = formatUDP type low high fields

theorem Message.Fresh.repeats {m : Message} {uid : Nat} {type : UInt8} {flags : MsgFlags}
    (fresh : m.Fresh uid type flags) {sentAs : MsgType} {fields : List (List UInt8)}
    (spelled : m.Spelled sentAs fields) (msgCounter : Nat) :
    m.Repeats msgCounter uid flags (numberedUDP msgCounter sentAs fields) where
  uid := fresh.uid
  msgFlags := fresh.msgFlags
  confirmed := fresh.confirmed
  datagram := by
    obtain ⟨low, high, wire⟩ := spelled
    simp only [Message.setMsgID, wire, formatUDP, numberedUDP, List.set_cons_succ,
      List.set_cons_zero]

section
variable {t : Thread} {c : Client} (running : c.status = .running)
include running

/-- A CONFIRM carries the ID bytes that were received. -/
theorem sendConfirm_spelled (cfg : NetworkConfig) (serverResponse : Buffer) (flags : MsgFlags) :
    ∃ m scratch reallocs, m.Fresh c.nextUid MsgType.msgConf.toUChar flags ∧
      m.buffer = [MsgType.msgConf.toUChar, serverResponse.mem 1, serverResponse.mem 2] ∧
      (sendConfirm cfg serverResponse flags).exec (Client.perform t) c =
        .done () (c.prioritized m scratch reallocs) := by
  obtain ⟨fsmState, queue, lock, com, input, scratch, response, seen, heap, reallocs, nextUid,
    status, history⟩ := c
  obtain rfl : status = .running := running
  refine ⟨_, _, _, ⟨rfl, rfl, rfl, rfl, rfl⟩, ?_, rfl⟩
  exact Memory.read_write_self _ 0 _

variable {cfg : NetworkConfig} (unlocked : c.lock = none) (udp : cfg.protocol = .protUDP)
include unlocked udp

theorem sendBye_spelled :
    ∃ m scratch reallocs, m.Fresh c.nextUid MsgType.msgBye.toUChar .msgFlagBye ∧
      m.Spelled .msgBye [] ∧
      (sendBye cfg).exec (Client.perform t) c = .done () (c.appended m scratch reallocs) := by
  obtain ⟨protocol, retries⟩ := cfg
  obtain rfl : protocol = .protUDP := udp
  obtain ⟨fsmState, queue, lock, com, input, scratch, response, seen, heap, reallocs, nextUid,
    status, history⟩ := c
  obtain rfl : status = .running := running
  obtain rfl : lock = none := unlocked
  refine ⟨_, _, _, ⟨rfl, rfl, rfl, rfl, rfl⟩, ?_, rfl⟩
  exact ⟨_, _, taken_headerUDP .msgBye _⟩

theorem sendError_spelled (named : Named c) (buffer : Scratch) (text : String) :
    ∃ m scratch reallocs, m.Fresh c.nextUid CommandType.cmdErr.toUChar .msgFlagErr ∧
      m.Spelled .msgErr [c.comDetails.displayName.bytes, (literal text).bytes] ∧
      (sendError cfg buffer text).exec (Client.perform t) c =
        .done () (c.appended m scratch reallocs) := by
  unfold sendError
  rw [getComDetails, exec_take_bind running]
  simp only [Client.act]
  rw [exec_take_bind running]
  simp only [Client.act]
  have command : (uchar2CommandType ({ ProtocolBlocks.reset CommandType.cmdErr.toUChar with
      zeroth := literal text } : ProtocolBlocks).type).message = some .msgErr := rfl
  obtain ⟨b, cursor, assembled, bytes⟩ : ∃ b cursor, _ :=
    assembleProtocolUDP_bytes (c.heap (c.reallocs + 1))
      (bufferResize c.fresh (c.scratch buffer)
        ((ascii text).length + c.comDetails.displayName.used + 5)) command
      (show Given .protUDP _ c.comDetails from ⟨named, rfl⟩)
  rw [assembleProtocol, exec_take_bind (by exact running)]
  simp only [Client.act, assemble, udp, Client.setScratch, Client.fresh, if_true]
  rw [Client.fresh] at assembled
  rw [assembled]
  simp only [Assembled.complete, if_true]
  rw [queueLock, exec_take_bind (by exact running)]
  simp only [Client.act, unlocked]
  rw [queueAddMessage, exec_take_bind (by exact running)]
  simp only [Client.act]
  rw [queueUnlock, exec_take (by exact running)]
  simp only [Client.act, Client.appended, unlocked]
  refine ⟨_, _, _, ⟨rfl, rfl, rfl, rfl, rfl⟩, ?_, rfl⟩
  refine ⟨_, _, Eq.trans ?_ bytes⟩
  simp only [Client.newMessage, createMessage, if_true]
  rfl

/-- A message of unknown type is confirmed and reported, in place of what was queued. -/
theorem unknownMessage_queues (named : Named c) (serverResponse : Buffer) :
    ∃ c' confirm err bye, (unknownMessage cfg serverResponse).exec (Client.perform t) c =
        .done () c' ∧
      c'.At c.comDetails.msgCounter .fsmErr [confirm, err, bye] ∧
      sentMessages c'.history = sentMessages c.history ∧
      confirm.Fresh c.nextUid MsgType.msgConf.toUChar .msgFlagConfirm ∧
      confirm.buffer = [MsgType.msgConf.toUChar, serverResponse.mem 1, serverResponse.mem 2] ∧
      err.Fresh (c.nextUid + 1) CommandType.cmdErr.toUChar .msgFlagErr ∧
      err.Spelled .msgErr
        [c.comDetails.displayName.bytes, (literal "Unknown message format").bytes] ∧
      bye.Fresh (c.nextUid + 2) MsgType.msgBye.toUChar .msgFlagBye ∧ bye.Spelled .msgBye [] := by
  unfold unknownMessage
  rw [setProgramState, exec_take_bind running]
  simp only [Client.act]
  rw [queueLock, exec_take_bind (by exact running)]
  simp only [Client.act, unlocked]
  rw [queuePopAllMessages, exec_take_bind (by exact running)]
  simp only [Client.act]
  rw [queueUnlock, exec_take_bind (by exact running)]
  simp only [Client.act, inUDP, udp]
  obtain ⟨confirm, scratch, reallocs, fresh, wire, run⟩ := sendConfirm_spelled (t := t)
    (c := { c with fsmState := .fsmErr, sendingQueue := [], lock := none }) running cfg
    serverResponse .msgFlagConfirm
  rw [Program.exec_bind, run, Outcome.bind_done]
  obtain ⟨err, scratch', reallocs', fresh', spelled', run'⟩ := sendError_spelled (t := t)
    (c := { c with fsmState := .fsmErr, sendingQueue := [], lock := none }.prioritized confirm
      scratch reallocs) running rfl udp (by exact named) .protocolToSendedByReceiver
    "Unknown message format"
  rw [Program.exec_bind, run', Outcome.bind_done]
  obtain ⟨bye, scratch'', reallocs'', fresh'', spelled'', run''⟩ := sendBye_spelled (t := t)
    (c := ({ c with fsmState := .fsmErr, sendingQueue := [], lock := none }.prioritized confirm
      scratch reallocs).appended err scratch' reallocs') running rfl udp
  rw [Program.exec_bind, run'', Outcome.bind_done, wakeSender, Program.bind_assoc,
    pthreadCondSignal, exec_take_bind (by exact running)]
  simp only [Client.act]
  rw [pthreadCondSignal, exec_take_bind (by exact running)]
  simp only [Client.act]
  rw [safePrint, exec_take_bind (by exact running)]
  simp only [Client.act]
  rw [pthreadCondSignal, exec_take (by exact running)]
  exact ⟨_, confirm, err, bye, rfl, ⟨running, rfl, rfl, rfl, rfl⟩, rfl, fresh, wire, fresh',
    spelled', fresh'', spelled''⟩

/-- An ERR is confirmed and answered by the BYE, in place of what was queued. -/
theorem receiverAction_answers (msgID : Nat) {pBlocks : ProtocolBlocks} (serverResponse : Buffer)
    (repetitiveMsg : Bool) (type : uchar2msgType pBlocks.type = .msgErr)
    (name : pBlocks.msgMsgDisplayname.start.isSome)
    (contents : pBlocks.msgMsgMsgContents.start.isSome) :
    ∃ c' confirm bye,
      (receiverAction cfg msgID pBlocks serverResponse repetitiveMsg).exec (Client.perform t) c =
        .done () c' ∧
      c'.At c.comDetails.msgCounter .fsmErr [confirm, bye] ∧
      sentMessages c'.history = sentMessages c.history ∧
      confirm.Fresh c.nextUid MsgType.msgConf.toUChar .msgFlagConfirm ∧
      confirm.buffer = [MsgType.msgConf.toUChar, serverResponse.mem 1, serverResponse.mem 2] ∧
      bye.Fresh (c.nextUid + 1) MsgType.msgBye.toUChar .msgFlagBye ∧ bye.Spelled .msgBye [] := by
  simp only [receiverAction, type, inUDP, udp]
  rw [queueLock, exec_take_bind running]
  simp only [Client.act, unlocked]
  rw [queuePopAllMessages, exec_take_bind (by exact running)]
  simp only [Client.act]
  obtain ⟨confirm, scratch, reallocs, fresh, wire, run⟩ := sendConfirm_spelled (t := t)
    (c := { c with sendingQueue := [], lock := some t }) running cfg serverResponse
    .msgFlagConfirm
  rw [Program.exec_bind, run, Outcome.bind_done, queueUnlock, exec_take_bind (by exact running)]
  simp only [Client.act]
  obtain ⟨bye, scratch', reallocs', fresh', spelled', run'⟩ := sendBye_spelled (t := t)
    (c := { { c with sendingQueue := [], lock := some t }.prioritized confirm scratch reallocs with
      lock := none }) running rfl udp
  rw [Program.exec_bind, run', Outcome.bind_done, wakeSender, Program.bind_assoc,
    pthreadCondSignal, exec_take_bind (by exact running)]
  simp only [Client.act]
  rw [pthreadCondSignal, exec_take_bind (by exact running)]
  simp only [Client.act]
  rw [setProgramState, exec_take_bind (by exact running)]
  simp only [Client.act, printIncomingMessage, Option.isNone_eq_false_iff.mpr name,
    Option.isNone_eq_false_iff.mpr contents, Bool.or_self, Bool.false_eq_true, if_false]
  rw [exec_take_bind (by exact running)]
  simp only [Client.act]
  rw [pthreadCondSignal, exec_take (by exact running)]
  exact ⟨_, confirm, bye, rfl, ⟨running, rfl, rfl, rfl, rfl⟩, rfl, fresh, wire, fresh', spelled'⟩

end

/-! ## Both together -/

/-- The receiver handles a datagram at once, and then the sender transmits these datagrams, of
new messages only, and comes to its end, if no `sendto` fails. -/
def ShutsDown (cfg : NetworkConfig) (c : Client) (datagram : List UInt8)
    (datagrams : List (List UInt8)) : Prop :=
  ∃ d c', disassebleProtocolUDP (c.receiving datagram).serverResponse = .ok d ∧
    (receiverFSM cfg d.msgId d.pBlocks (c.receiving datagram).serverResponse).exec
      (Client.perform .receiver) (c.receiving datagram) = .done () c' ∧
    sentMessages c'.history = sentMessages c.history ∧
    ∀ bytesTx, (∀ k, 0 ≤ bytesTx k) → Finishes cfg bytesTx c.nextUid 0 c' datagrams

/-- An ERR with both its fields is taken apart. -/
theorem receiving_err (c : Client) (low high : UInt8) {behind : List UInt8}
    {fields : List (List UInt8)} (taken : takeFields 2 behind = some fields)
    (full : [] ∉ fields) :
    ∃ d, disassebleProtocolUDP
        (c.receiving (MsgType.msgErr.toUChar :: low :: high :: behind)).serverResponse = .ok d ∧
      uchar2msgType d.pBlocks.type = .msgErr ∧ d.pBlocks.msgMsgDisplayname.start.isSome ∧
      d.pBlocks.msgMsgMsgContents.start.isSome := by
  have first := (receiving_header c MsgType.msgErr.toUChar low high behind).1
  have bytes :
      (c.receiving (MsgType.msgErr.toUChar :: low :: high :: behind)).serverResponse.bytes =
        MsgType.msgErr.toUChar :: low :: high :: behind := Memory.read_write_self _ 0 _
  generalize (c.receiving (MsgType.msgErr.toUChar :: low :: high :: behind)).serverResponse = rx
    at first bytes
  have long : 3 ≤ rx.bytes.length := by
    rw [bytes]
    simp
  have given : takeFields 2 (rx.bytes.drop 3) = some fields := by
    rw [bytes]
    exact taken
  have err : uchar2msgType (rx.mem 0) = .msgErr := by
    rw [first]
    rfl
  obtain ⟨-, found, count, -⟩ := findFields_drop long given
  obtain ⟨id, decoded⟩ := disassebleProtocolUDP_eq err rfl
  refine ⟨_, decoded.trans (congrArg _ (found full)), ?_⟩
  match fields, count with
  | [name, contents], _ => exact ⟨rfl, rfl, rfl⟩

section
variable {cfg : NetworkConfig} (udp : cfg.protocol = .protUDP) {c : Client}
  (running : c.status = .running) (unlocked : c.lock = none)
include udp running unlocked

/-- Behind the duplicate filter the message is handled by its type. -/
theorem receiverFSM_exec (msgID : Nat) (pBlocks : ProtocolBlocks)
    (long : 3 ≤ c.serverResponse.used) :
    ∃ store repetitiveMsg,
      (receiverFSM cfg msgID pBlocks c.serverResponse).exec (Client.perform .receiver) c =
        (receiverAction cfg msgID pBlocks c.serverResponse repetitiveMsg).exec
          (Client.perform .receiver) { c with confirmedMessages := store } := by
  obtain ⟨store, run, -⟩ := repetitive_runs running unlocked cfg pBlocks (Or.inr long)
  refine ⟨store, queueContainsMessageId c.confirmedMessages c.serverResponse pBlocks.type, ?_⟩
  simp only [receiverFSM, udp]
  rw [Program.exec_bind, run, Outcome.bind_done]

variable (room : cfg.udpMaxRetries.val ≤ 254) (low high : UInt8) (behind : List UInt8)
include room

theorem shutsDown_unknown (named : Named c) {type : UInt8}
    (unknown : uchar2msgType type = .msgUnknown) :
    ShutsDown cfg c (type :: low :: high :: behind)
      ([MsgType.msgConf.toUChar, low, high] ::
        (List.replicate (cfg.udpMaxRetries.val + 1) (numberedUDP c.comDetails.msgCounter .msgErr
          [c.comDetails.displayName.bytes, (literal "Unknown message format").bytes]) ++
        List.replicate (cfg.udpMaxRetries.val + 1)
          (numberedUDP c.comDetails.msgCounter .msgBye []))) := by
  obtain ⟨first, second, third⟩ := receiving_header c type low high behind
  obtain ⟨d, decoded, unknown⟩ : ∃ d, disassebleProtocolUDP
      (c.receiving (type :: low :: high :: behind)).serverResponse = .ok d ∧
        uchar2msgType d.pBlocks.type = .msgUnknown :=
    ⟨_, disassebleProtocolUDP_unknown (by rw [first, unknown]) rfl, rfl⟩
  obtain ⟨store, repetitiveMsg, handles⟩ := receiverFSM_exec
    (c := c.receiving (type :: low :: high :: behind)) udp running unlocked d.msgId d.pBlocks
    (by simp [Client.receiving, Client.receive])
  obtain ⟨c', confirm, err, bye, run, known, nothing, fresh, wire, fresh', spelled', fresh'',
      spelled''⟩ := unknownMessage_queues (t := .receiver)
    (c := { c.receiving (type :: low :: high :: behind) with confirmedMessages := store }) running
    unlocked udp named (c.receiving (type :: low :: high :: behind)).serverResponse
  refine ⟨d, c', decoded, ?_, nothing, fun bytesTx sent => ?_⟩
  · rw [handles]
    simp only [receiverAction, unknown]
    exact run
  · rw [second, third] at wire
    rw [← wire]
    refine finishes_confirm udp sent known (Nat.le_of_eq fresh.uid.symm) fresh.msgFlags
      fresh.sendCount fresh.confirmed fun c' known' => ?_
    exact finishes_err udp sent room (Nat.le_add_right _ 1) (Nat.le_add_right _ 2) known'
      (fresh'.repeats spelled' _) fresh'.sendCount (fresh''.repeats spelled'' _) fresh''.sendCount

theorem shutsDown_err {fields : List (List UInt8)} (taken : takeFields 2 behind = some fields)
    (full : [] ∉ fields) :
    ShutsDown cfg c (MsgType.msgErr.toUChar :: low :: high :: behind)
      ([MsgType.msgConf.toUChar, low, high] :: List.replicate (cfg.udpMaxRetries.val + 1)
        (numberedUDP c.comDetails.msgCounter .msgBye [])) := by
  obtain ⟨first, second, third⟩ :=
    receiving_header c MsgType.msgErr.toUChar low high behind
  obtain ⟨d, decoded, type, name, contents⟩ : ∃ d, disassebleProtocolUDP
      (c.receiving (MsgType.msgErr.toUChar :: low :: high :: behind)).serverResponse = .ok d ∧
        uchar2msgType d.pBlocks.type = .msgErr ∧ d.pBlocks.msgMsgDisplayname.start.isSome ∧
        d.pBlocks.msgMsgMsgContents.start.isSome :=
    receiving_err c low high taken full
  obtain ⟨store, repetitiveMsg, handles⟩ := receiverFSM_exec
    (c := c.receiving (MsgType.msgErr.toUChar :: low :: high :: behind)) udp running unlocked
    d.msgId d.pBlocks (by simp [Client.receiving, Client.receive])
  obtain ⟨c', confirm, bye, run, known, nothing, fresh, wire, fresh', spelled'⟩ :=
    receiverAction_answers (t := .receiver)
      (c := { c.receiving (MsgType.msgErr.toUChar :: low :: high :: behind) with
        confirmedMessages := store }) running unlocked udp d.msgId
      (c.receiving (MsgType.msgErr.toUChar :: low :: high :: behind)).serverResponse repetitiveMsg
      type name contents
  refine ⟨d, c', decoded, handles.trans run, nothing, fun bytesTx sent => ?_⟩
  rw [second, third] at wire
  rw [← wire]
  refine finishes_confirm udp sent known (Nat.le_of_eq fresh.uid.symm) fresh.msgFlags
    fresh.sendCount fresh.confirmed fun c' known' => ?_
  exact finishes_bye udp sent room (Nat.le_add_right _ 1) known' (Or.inl rfl)
    (by simp [MessageQueue.filtered, (fresh'.repeats spelled' 0).not_dropped])
    (fresh'.repeats spelled' _) fresh'.sendCount

/-- **The shutdown is exact.** Whatever is queued, and in every state, a datagram of at least
three bytes whose type is unknown is answered by a CONFIRM, the ERR and the BYE, and an ERR
with both its fields by a CONFIRM and the BYE; the ERR and the BYE go out once and with all
their retries, and nothing else does. -/
theorem shutdown_exact (named : Named c) (type : UInt8) :
    (uchar2msgType type = .msgUnknown →
      ShutsDown cfg c (type :: low :: high :: behind)
        ([MsgType.msgConf.toUChar, low, high] ::
          (List.replicate (cfg.udpMaxRetries.val + 1) (numberedUDP c.comDetails.msgCounter .msgErr
            [c.comDetails.displayName.bytes, (literal "Unknown message format").bytes]) ++
          List.replicate (cfg.udpMaxRetries.val + 1)
            (numberedUDP c.comDetails.msgCounter .msgBye [])))) ∧
      (∀ fields, type = MsgType.msgErr.toUChar → takeFields 2 behind = some fields → [] ∉ fields →
        ShutsDown cfg c (type :: low :: high :: behind)
          ([MsgType.msgConf.toUChar, low, high] :: List.replicate (cfg.udpMaxRetries.val + 1)
            (numberedUDP c.comDetails.msgCounter .msgBye []))) := by
  refine ⟨shutsDown_unknown udp running unlocked room low high behind named, ?_⟩
  rintro fields rfl taken full
  exact shutsDown_err udp running unlocked room low high behind taken full

end

/-- A client in the open state with a message in its queue. -/
def annWithOne : Client :=
  { programInterfaceInit (fun _ _ => 0xC4) ⟨some fun _ => 0, 10, 10⟩ with
    fsmState := .fsmOpen
    comDetails := ⟨⟨some fun _ => 97, 1, 1⟩, .init, 5⟩
    sendingQueue := [⟨0, [4, 5, 0, 97, 0, 104, 0], 1, false, MsgType.msgMsg.toUChar, .msgFlagNone⟩]
    nextUid := 1 }

/-- The type 0x55 is unknown: the CONFIRM, the ERR and the BYE go out, the last two twice. -/
theorem shutdown_exact_unknown :
    ShutsDown ⟨.protUDP, 1⟩ annWithOne [0x55, 7, 8]
      [[0, 7, 8], numberedUDP 5 .msgErr [[97], ascii "Unknown message format"],
        numberedUDP 5 .msgErr [[97], ascii "Unknown message format"], [0xFF, 5, 0],
        [0xFF, 5, 0]] :=
  (shutdown_exact (c := annWithOne) rfl rfl rfl (by decide) 7 8 [] rfl
    0x55).1 rfl

end Ipk24Chat
