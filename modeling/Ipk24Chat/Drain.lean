import Ipk24Chat.Matching
import Ipk24Chat.Shutdown

/-!
# The way out

The end of the input and SIGINT take the program to states in which an empty queue ends it.
What goes out until then is told for a server that leaves some transmissions unanswered and
confirms the next one.

* `protocolReceiver_handles`, `receiver_confirms`: a pass of the receiver, run at once;
* `Drains`: the datagrams that the sender transmits until it ends;
* `leaving_sends`, `leaving_ends`: its passes in these states;
* `MessageQueue.wire`, `drains_queue`: what becomes of a queue;
* `eof_drains`, `sigint_drains`: both ways out.
-/

namespace Ipk24Chat

/-! ## A pass of the receiver -/

/-- The client with a datagram that was taken from the socket. -/
def Client.taking (c : Client) (datagram : List UInt8) : Client :=
  (c.receiving datagram).log (.received datagram)

section
variable {cfg : NetworkConfig} (udp : cfg.protocol = .protUDP) {c c' : Client}
  (running : c.status = .running) (unlocked : c.lock = none)
include udp running unlocked

/-- A datagram is taken apart and handled by its type, unless it is thrown away in the start
state. -/
theorem protocolReceiver_handles {datagram : List UInt8} (long : 3 ≤ datagram.length)
    (busy : c.fsmState ≠ .fsmEnd) {d : Disassembled}
    (decoded : disassebleProtocolUDP (c.taking datagram).serverResponse = .ok d)
    (taken : c.fsmState = .fsmStart → d.pBlocks.type = MsgType.msgReply.toUChar ∨
      d.pBlocks.type = MsgType.msgConf.toUChar)
    (handled : (receiverAction cfg d.msgId d.pBlocks (c.taking datagram).serverResponse
        (queueContainsMessageId c.confirmedMessages (c.taking datagram).serverResponse
          d.pBlocks.type)).exec (Client.perform .receiver)
        { c.taking datagram with
          confirmedMessages := remember c.confirmedMessages (c.taking datagram).serverResponse
            d.pBlocks.type } = .done () c') :
    (protocolReceiver cfg datagram).exec (Client.perform .receiver) c =
      .done .protocolReceiver c' := by
  have given : datagram ≠ [] := by
    rintro rfl
    simp at long
  have thrown : ¬ (c.fsmState = .fsmStart ∧ d.pBlocks.type ≠ MsgType.msgReply.toUChar ∧
      d.pBlocks.type ≠ MsgType.msgConf.toUChar) := by
    rintro ⟨start, noReply, noConf⟩
    exact (taken start).elim noReply noConf
  have received : 3 ≤ (c.taking datagram).serverResponse.used := long
  have filter : (repetitive cfg d.pBlocks (c.taking datagram).serverResponse).exec
      (Client.perform .receiver) (c.taking datagram) = _ :=
    repetitive_exec d.pBlocks running unlocked received
  unfold protocolReceiver
  rw [getProgramState, exec_take_bind running]
  simp only [Client.act, if_neg busy, if_neg given]
  rw [exec_take_bind running]
  simp only [Client.act]
  have handling : (handleDatagram cfg (Client.receive c.serverResponse datagram)).exec
      (Client.perform .receiver) (c.taking datagram) = .done () c' := by
    have bytes : Client.receive c.serverResponse datagram = (c.taking datagram).serverResponse :=
      rfl
    rw [handleDatagram, bytes]
    simp only [udp, decoded, dispatch]
    rw [getProgramState, exec_take_bind (by exact running)]
    simp only [Client.act]
    rw [if_neg (by exact thrown)]
    simp only [receiverFSM, udp]
    rw [Program.exec_bind, filter, Outcome.bind_done]
    exact handled
  rw [Program.exec_bind]
  exact congrArg (Outcome.bind · _) handling

/-- A CONFIRM is compared with the head of the queue. -/
theorem receiver_confirms (busy : c.fsmState ≠ .fsmEnd) (started : c.fsmState ≠ .fsmStart)
    (low high : UInt8) (behind : List UInt8) :
    ∃ store, (protocolReceiver cfg (confirmDatagram low high behind)).exec
        (Client.perform .receiver) c =
      .done .protocolReceiver ({ c.taking (confirmDatagram low high behind) with
        confirmedMessages := store }.confirmHead (convert2BytesToU16Int low high)) := by
  obtain ⟨d, decoded, conf, id⟩ := receiving_confirm c low high behind
  exists remember c.confirmedMessages
    (c.taking (confirmDatagram low high behind)).serverResponse d.pBlocks.type
  apply protocolReceiver_handles udp running unlocked (by simp [confirmDatagram]) busy decoded
  · intro start
    exact absurd start started
  · rw [receiverAction]
    simp only [conf, udp]
    rw [← id]
    apply handleConfirmUDP_exec
    · exact running
    · exact unlocked

end

/-! ## A pass of the sender -/

/-- The states in which an empty queue ends the program. -/
def Fsm.Leaving (state : Fsm) : Prop := state = .fsmEmptyQBye ∨ state = .fsmSigintBye

/-- The UDP variant throws messages away that are confirmed or rejected. -/
def Message.skipped (cfg : NetworkConfig) (m : Message) : Bool :=
  cfg.protocol = .protUDP && m.dropped cfg

/-- A message that goes out until the server confirms it. -/
def Message.awaits (cfg : NetworkConfig) (m : Message) : Bool :=
  cfg.protocol = .protUDP && !m.msgFlags.sentOnce

section
variable {cfg : NetworkConfig} {c : Client} {msgCounter : Nat} {state : Fsm}
  {front rest : MessageQueue} {m : Message} {bytesTx : Int}

theorem Fsm.Leaving.busy (leaving : state.Leaving) : state ≠ .fsmEnd := by
  rcases leaving with rfl | rfl <;> decide

theorem Fsm.Leaving.logic (leaving : state.Leaving) (cfg : NetworkConfig) (m : Message) :
    logic cfg m state = some (.proceed, state) := by
  rcases leaving with rfl | rfl <;> rfl

theorem filtered_skipped (udp : cfg.protocol = .protUDP)
    (skipped : ∀ x ∈ front, x.skipped cfg = true) (leaving : state.Leaving) :
    MessageQueue.filtered cfg state (front ++ rest) = rest.dropWhile (·.dropped cfg) := by
  have other : decide (state = .fsmErrW84Conf) = false := by
    rcases leaving with rfl | rfl <;> rfl
  unfold MessageQueue.filtered
  simp only [other, Bool.false_and, Bool.or_false]
  apply List.dropWhile_append_of_pos
  intro x hx
  simpa [Message.skipped, udp] using skipped x hx

theorem skipped_eq_nil (tcp : cfg.protocol = .protTCP)
    (skipped : ∀ x ∈ front, x.skipped cfg = true) : front = [] := by
  cases front with
  | nil => rfl
  | cons x front =>
    have gone := skipped x List.mem_cons_self
    simp [Message.skipped, tcp] at gone

variable (known : c.At msgCounter state (front ++ rest)) (leaving : state.Leaving)
  (skipped : ∀ x ∈ front, x.skipped cfg = true)
include known leaving

theorem senderPass_TCP (tcp : cfg.protocol = .protTCP) :
    (senderPass cfg c bytesTx).exec (Client.perform .sender) c =
      (senderBody cfg bytesTx).exec (Client.perform .sender) c := by
  have busy : c.fsmState ≠ .fsmEnd := known.state ▸ leaving.busy
  unfold senderPass protocolSender
  rw [getProgramState, exec_take_bind known.running]
  simp only [Client.act, if_neg busy, tcp]

include skipped

/-- Behind the messages that are thrown away the next one goes out. -/
theorem leaving_sends (head : rest = m :: tail) (kept : m.skipped cfg = false)
    (early : cfg.protocol = .protUDP → m.sendCount ≤ cfg.udpMaxRetries.val)
    (sent : 0 ≤ bytesTx) :
    ∃ c', (senderPass cfg c bytesTx).exec (Client.perform .sender) c = .done .protocolSender c' ∧
      c'.At (cfg.counted msgCounter) state ((m.labelled cfg msgCounter).kept cfg ++ tail) ∧
      sentMessages c'.history = sentMessages c.history ++ [m.labelled cfg msgCounter] := by
  subst head
  cases protocol : cfg.protocol with
  | protUDP =>
    have filtered : MessageQueue.filtered cfg state (front ++ m :: tail) = m :: tail := by
      rw [filtered_skipped protocol skipped leaving]
      have stays : m.dropped cfg = false := by simpa [Message.skipped, protocol] using kept
      simp [stays]
    have same : cfg.counted msgCounter = msgCounter := by simp [NetworkConfig.counted, protocol]
    rw [same]
    exact pass_sends protocol known leaving.busy filtered (early protocol) (leaving.logic cfg m)
      sent
  | protTCP =>
    obtain rfl := skipped_eq_nil protocol skipped
    have pass : (senderPass cfg c bytesTx).exec (Client.perform .sender) c = _ :=
      senderPass_TCP known leaving protocol
    obtain ⟨running, -, rfl, rfl, queue⟩ := known
    have body := Program.exec_advance (senderBody_advance running cfg .sender queue bytesTx)
    have sends := logicAndSend_sends (c := c.resumed .sender) running cfg .sender queue
      (leaving.logic cfg m) sent
    refine ⟨_, pass.trans (body.trans sends), ⟨running, rfl, rfl, rfl, rfl⟩, ?_⟩
    simp [Client.sentHead, Client.resumed, sentMessages, Event.transmitted?, List.filterMap_cons]

/-- When nothing is left, the program ends. -/
theorem leaving_ends (none : rest = []) :
    ∃ c', (senderPass cfg c bytesTx).exec (Client.perform .sender) c = .done .protocolSender c' ∧
      c'.status = .running ∧ c'.fsmState = .fsmEnd ∧
      sentMessages c'.history = sentMessages c.history := by
  subst none
  have ends : (if state = .fsmEmptyQBye ∨ state = .fsmSigintBye then Fsm.fsmEnd else state) =
      .fsmEnd := if_pos leaving
  cases protocol : cfg.protocol with
  | protUDP =>
    have filtered : c.sendingQueue.filtered cfg c.fsmState = [] := by
      rw [known.queue, known.state, filtered_skipped protocol skipped leaving]
      rfl
    have busy : c.fsmState ≠ .fsmEnd := known.state ▸ leaving.busy
    obtain ⟨running, unlocked, rfl, rfl, queue⟩ := known
    have first : (filtering cfg c).advance (Client.perform .sender) 2 c = _ :=
      filtering_advance running unlocked
    have waits : (c.sendingQueue.filtered cfg c.fsmState).headLate cfg = false := by
      rw [filtered]
      rfl
    cases filterLoop_filtered (t := .sender) (c := { c with lock := some .sender }) running
      (Nat.lt_succ_self _) (fun _ => waits) false with
    | stops _ run =>
      rw [filtered] at run
      have filter := (Program.exec_advance first).trans run
      have body := senderBody_empty (c := c.filteredTo []) running cfg .sender rfl bytesTx
      exact ⟨_, (senderPass_exec protocol running busy bytesTx filter).trans body, running, ends,
        rfl⟩
    | reports late =>
      rw [waits] at late
      cases late
    | fails late =>
      rw [waits] at late
      cases late
  | protTCP =>
    obtain rfl := skipped_eq_nil protocol skipped
    have pass : (senderPass cfg c bytesTx).exec (Client.perform .sender) c = _ :=
      senderPass_TCP known leaving protocol
    obtain ⟨running, -, rfl, rfl, queue⟩ := known
    exact ⟨_, pass.trans (senderBody_empty running cfg .sender queue bytesTx), running, ends, rfl⟩

end

/-- In the end state the sender leaves its loop. -/
theorem senderPass_end {cfg : NetworkConfig} {c : Client} (running : c.status = .running)
    (state : c.fsmState = .fsmEnd) (bytesTx : Int) :
    (senderPass cfg c bytesTx).exec (Client.perform .sender) c = .done .ended c := by
  unfold senderPass protocolSender
  rw [getProgramState, exec_take_bind running]
  simp only [Client.act, if_pos state]
  rfl

/-! ## Over and over again -/

/-- The CONFIRM of this message. -/
def Message.confirmation (m : Message) : List UInt8 :=
  confirmDatagram m.lowMsgIdByte m.highMsgIdByte []

/-- The sender is at the head of its loop or in a wait before it, and over UDP the receiver at
the head of its own. -/
structure Looping (cfg : NetworkConfig) (point : Thread → Option Point) : Prop where
  sender : point .sender = some .protocolSender
  receiver : cfg.protocol = .protUDP → point .receiver = some .protocolReceiver

/-- From the `k`-th pass on the sender transmits these datagrams and leaves its loop, if of
every message the server leaves the first `lost` transmissions unanswered and confirms the
next one at once. -/
inductive Drains (cfg : NetworkConfig) (bytesTx : Nat → Int) (lost : Nat → Nat) :
    Nat → Passes Thread Client Point → List (List UInt8) → Prop
  | ended {k : Nat} {s : Passes Thread Client Point} {c' : Client}
    (loop : s.point .sender = some .protocolSender)
    (run : (senderPass cfg s.shared (bytesTx k)).exec (Client.perform .sender) s.shared =
      .done .ended c') (nothing : sentMessages c'.history = sentMessages s.shared.history) :
    Drains cfg bytesTx lost k s []
  | quiet {k : Nat} {s : Passes Thread Client Point} {c' : Client} {datagrams : List (List UInt8)}
    (loop : s.point .sender = some .protocolSender)
    (run : (senderPass cfg s.shared (bytesTx k)).exec (Client.perform .sender) s.shared =
      .done .protocolSender c')
    (nothing : sentMessages c'.history = sentMessages s.shared.history)
    (more : Drains cfg bytesTx lost (k + 1) ⟨c', s.point⟩ datagrams) :
    Drains cfg bytesTx lost k s datagrams
  | unanswered {k : Nat} {s : Passes Thread Client Point} {c' : Client} {m : Message}
    {datagrams : List (List UInt8)} (loop : s.point .sender = some .protocolSender)
    (run : (senderPass cfg s.shared (bytesTx k)).exec (Client.perform .sender) s.shared =
      .done .protocolSender c')
    (out : sentMessages c'.history = sentMessages s.shared.history ++ [m])
    (early : m.awaits cfg = true → m.sendCount < lost m.uid)
    (more : Drains cfg bytesTx lost (k + 1) ⟨c', s.point⟩ datagrams) :
    Drains cfg bytesTx lost k s (m.buffer :: datagrams)
  | answered {k : Nat} {s : Passes Thread Client Point} {c' c'' : Client} {m : Message}
    {datagrams : List (List UInt8)} (loop : s.point .sender = some .protocolSender)
    (run : (senderPass cfg s.shared (bytesTx k)).exec (Client.perform .sender) s.shared =
      .done .protocolSender c')
    (out : sentMessages c'.history = sentMessages s.shared.history ++ [m])
    (awaits : m.awaits cfg = true) (late : lost m.uid ≤ m.sendCount)
    (listens : s.point .receiver = some .protocolReceiver)
    (confirms : (protocolReceiver cfg m.confirmation).exec (Client.perform .receiver) c' =
      .done .protocolReceiver c'')
    (more : Drains cfg bytesTx lost (k + 1) ⟨c'', s.point⟩ datagrams) :
    Drains cfg bytesTx lost k s (m.buffer :: datagrams)

/-- What goes out of a message while the program leaves. -/
def Message.wire (cfg : NetworkConfig) (lost : Nat → Nat) (msgCounter : Nat) (m : Message) :
    List (List UInt8) :=
  if m.skipped cfg then []
  else if m.awaits cfg then
    List.replicate (lost m.uid - m.sendCount + 1) (m.labelled cfg msgCounter).buffer
  else [(m.labelled cfg msgCounter).buffer]

/-- The counter behind it, which a CONFIRM sets. -/
def Message.counted (cfg : NetworkConfig) (msgCounter : Nat) (m : Message) : Nat :=
  if m.skipped cfg then msgCounter
  else if m.awaits cfg then ((m.labelled cfg msgCounter).msgID + 1) % 65536
  else cfg.counted msgCounter

/-- The messages go out in their order, each under the counter that the last one left. -/
def MessageQueue.wire (cfg : NetworkConfig) (lost : Nat → Nat) :
    Nat → MessageQueue → List (List UInt8)
  | _, [] => []
  | msgCounter, m :: rest =>
    m.wire cfg lost msgCounter ++ wire cfg lost (m.counted cfg msgCounter) rest

theorem wire_append (cfg : NetworkConfig) (lost : Nat → Nat) (msgCounter : Nat)
    (queue queue' : MessageQueue) :
    MessageQueue.wire cfg lost msgCounter (queue ++ queue') = queue.wire cfg lost msgCounter ++
      queue'.wire cfg lost (queue.foldl (Message.counted cfg) msgCounter) := by
  induction queue generalizing msgCounter with
  | nil => rfl
  | cons m rest ih =>
    rw [List.cons_append]
    simp only [MessageQueue.wire, List.foldl_cons, List.append_assoc, ih]

section
variable {cfg : NetworkConfig} {c : Client} {msgCounter : Nat} {state : Fsm}
  {front rest : MessageQueue} {m : Message}

theorem confirm_cons (other : m.uid ∉ rest.uids) :
    MessageQueue.confirm (m :: rest) (some m.uid) = { m with confirmed := true } :: rest := by
  have same : ∀ x ∈ rest, (if some x.uid = some m.uid then { x with confirmed := true } else x) =
      id x := by
    intro x hx
    apply if_neg
    intro eq
    exact other (Option.some.inj eq ▸ List.mem_map_of_mem hx)
  unfold MessageQueue.confirm
  rw [List.map_cons, if_pos rfl, List.map_congr_left same, List.map_id]

/-- The CONFIRM of the head takes no more than a pass of the receiver. -/
theorem receiver_confirms_head (udp : cfg.protocol = .protUDP) (leaving : state.Leaving)
    (known : c.At msgCounter state (m :: rest)) (other : m.uid ∉ rest.uids) :
    ∃ c', (protocolReceiver cfg m.confirmation).exec (Client.perform .receiver) c =
        .done .protocolReceiver c' ∧
      c'.At ((m.msgID + 1) % 65536) state ({ m with confirmed := true } :: rest) := by
  obtain ⟨running, unlocked, -, rfl, queue⟩ := known
  have started : c.fsmState ≠ .fsmStart := by
    rcases leaving with eq | eq <;> rw [eq] <;> decide
  have same : c.fsmState.afterConfirm = c.fsmState := by
    rcases leaving with eq | eq <;> rw [eq] <;> rfl
  obtain ⟨store, run⟩ := receiver_confirms udp running unlocked leaving.busy started
    m.lowMsgIdByte m.highMsgIdByte []
  refine ⟨_, run, ?_⟩
  have own : ¬ (convert2BytesToU16Int m.lowMsgIdByte m.highMsgIdByte ≠ m.msgID ∧
      m.type ≠ MsgType.msgAuth.toUChar) := fun h => h.1 rfl
  unfold Client.confirmHead
  simp only [Client.taking, Client.receiving, Client.log, queue, if_neg own]
  constructor
  case running => exact running
  case unlocked => exact unlocked
  case msgCounter => rfl
  case state => exact same
  case queue => exact confirm_cons other

/-- The label is the same when a message goes out again. -/
theorem labelled_again (cfg : NetworkConfig) (msgCounter count : Nat) (m : Message) :
    ({ m.labelled cfg msgCounter with sendCount := count }.labelled cfg msgCounter).buffer =
      (m.labelled cfg msgCounter).buffer := by
  unfold Message.labelled
  cases cfg.protocol with
  | protTCP => rfl
  | protUDP =>
    by_cases numbered : m.msgFlags ≠ .msgFlagConfirm ∧ m.msgFlags ≠ .msgFlagNokReply
    · simp only [if_pos numbered]
      rw [if_pos (by exact numbered)]
      exact setMsgID_setMsgID m msgCounter
    · simp only [if_neg numbered]

/-- It stays in the queue with one transmission more. -/
def Message.resent (cfg : NetworkConfig) (msgCounter : Nat) (m : Message) : Message :=
  { m.labelled cfg msgCounter with sendCount := m.sendCount + 1 }

/-- A message that has retries left and is no AUTH without an answer. -/
structure Message.Sendable (cfg : NetworkConfig) (m : Message) : Prop where
  notAuth : m.msgFlags ≠ .msgFlagAuth
  early : m.sendCount < cfg.udpMaxRetries.val

instance : Decidable (m.Sendable cfg) :=
  decidable_of_iff (m.msgFlags ≠ .msgFlagAuth ∧ m.sendCount < cfg.udpMaxRetries.val)
    ⟨fun ⟨notAuth, early⟩ => ⟨notAuth, early⟩, fun ⟨notAuth, early⟩ => ⟨notAuth, early⟩⟩

theorem kept_resent (udp : cfg.protocol = .protUDP) (awaits : m.awaits cfg = true)
    (sendable : m.Sendable cfg) :
    (m.labelled cfg msgCounter).kept cfg = [m.resent cfg msgCounter] := by
  have alike : m.Alike (m.labelled cfg msgCounter) := labelled_alike msgCounter
  have again : (m.labelled cfg msgCounter).msgFlags.sentOnce = false := by
    rw [alike.msgFlags]
    simpa [Message.awaits, udp] using awaits
  have room := cfg.udpMaxRetries.isLt
  have early := sendable.early
  have count : ((m.labelled cfg msgCounter).sendCount + 1) % 256 = m.sendCount + 1 := by
    rw [alike.sendCount]
    omega
  rw [kept_eq udp, again, count]
  rfl

theorem kept_once (once : m.awaits cfg = false) : (m.labelled cfg msgCounter).kept cfg = [] := by
  cases protocol : cfg.protocol with
  | protUDP =>
    have alike : m.Alike (m.labelled cfg msgCounter) := labelled_alike msgCounter
    have sentOnce : m.msgFlags.sentOnce = true := by
      simpa [Message.awaits, protocol] using once
    rw [kept_eq protocol, alike.msgFlags, if_pos sentOnce]
  | protTCP => simp only [Message.kept, protocol]

@[simp] theorem labelled_awaits : (m.labelled cfg msgCounter).awaits cfg = m.awaits cfg := by
  simp only [Message.awaits, Message.labelled_msgFlags]

@[simp] theorem resent_awaits : (m.resent cfg msgCounter).awaits cfg = m.awaits cfg :=
  labelled_awaits

@[simp] theorem resent_uid : (m.resent cfg msgCounter).uid = m.uid := Message.labelled_uid ..

theorem Message.Sendable.resent (sendable : m.Sendable cfg)
    (early : m.sendCount + 1 < cfg.udpMaxRetries.val) :
    (m.resent cfg msgCounter).Sendable cfg where
  notAuth := by
    have same : (m.resent cfg msgCounter).msgFlags = m.msgFlags := Message.labelled_msgFlags ..
    rw [same]
    exact sendable.notAuth
  early := early

theorem skipped_resent (kept : m.skipped cfg = false) (sendable : m.Sendable cfg) :
    (m.resent cfg msgCounter).skipped cfg = false := by
  have alike : m.Alike (m.labelled cfg msgCounter) := labelled_alike msgCounter
  unfold Message.skipped at kept ⊢
  simp only [Bool.and_eq_false_iff] at kept ⊢
  apply kept.imp_right
  intro stays
  exact dropped_alike stays (Nat.le_of_lt sendable.early) alike.msgFlags alike.confirmed

theorem skipped_confirmed (udp : cfg.protocol = .protUDP) (sendable : m.Sendable cfg) :
    ({ m.resent cfg msgCounter with confirmed := true } : Message).skipped cfg = true := by
  have flags : (m.resent cfg msgCounter).msgFlags ≠ .msgFlagAuth := by
    have alike : m.Alike (m.labelled cfg msgCounter) := labelled_alike msgCounter
    exact alike.msgFlags ▸ sendable.notAuth
  have early : (m.resent cfg msgCounter).sendCount ≤ cfg.udpMaxRetries.val := sendable.early
  simp [Message.skipped, Message.dropped, udp, flags, early]

variable {bytesTx : Nat → Int} (sent : ∀ k, 0 ≤ bytesTx k) {lost : Nat → Nat}
  (leaving : state.Leaving) {datagrams : List (List UInt8)} {point : Thread → Option Point}
  (looping : Looping cfg point)
include sent leaving

omit sent in
theorem leaving_resends (udp : cfg.protocol = .protUDP) (sendable : m.Sendable cfg)
    (awaits : m.awaits cfg = true) (kept : m.skipped cfg = false)
    (skipped : ∀ x ∈ front, x.skipped cfg = true)
    (known : c.At msgCounter state (front ++ m :: rest)) {bytesTx : Int} (sent : 0 ≤ bytesTx) :
    ∃ c', (senderPass cfg c bytesTx).exec (Client.perform .sender) c = .done .protocolSender c' ∧
      c'.At msgCounter state (m.resent cfg msgCounter :: rest) ∧
      sentMessages c'.history = sentMessages c.history ++ [m.labelled cfg msgCounter] := by
  obtain ⟨c', run, known', out⟩ := leaving_sends known leaving skipped rfl kept
    (fun _ => Nat.le_of_lt sendable.early) sent
  have same : cfg.counted msgCounter = msgCounter := by simp [NetworkConfig.counted, udp]
  rw [kept_resent udp awaits sendable, List.singleton_append, same] at known'
  exact ⟨c', run, known', out⟩

include looping in
/-- The head goes out until it is confirmed. -/
theorem drains_head (udp : cfg.protocol = .protUDP) (other : m.uid ∉ rest.uids)
    (timely : lost m.uid < cfg.udpMaxRetries.val) (sendable : m.Sendable cfg)
    (awaits : m.awaits cfg = true) (kept : m.skipped cfg = false)
    (skipped : ∀ x ∈ front, x.skipped cfg = true)
    {gap k : Nat} (left : gap = lost m.uid - m.sendCount)
    (known : c.At msgCounter state (front ++ m :: rest))
    (behind : ∀ k c m', c.At (((m.labelled cfg msgCounter).msgID + 1) % 65536) state (m' :: rest) →
      m'.skipped cfg = true → Drains cfg bytesTx lost k ⟨c, point⟩ datagrams) :
    Drains cfg bytesTx lost k ⟨c, point⟩
      (List.replicate (gap + 1) (m.labelled cfg msgCounter).buffer ++ datagrams) := by
  induction gap generalizing k c front m with
  | zero =>
    obtain ⟨c', run, known', out⟩ :=
      leaving_resends leaving udp sendable awaits kept skipped known (sent k)
    have uid : (m.labelled cfg msgCounter).uid = m.uid := Message.labelled_uid ..
    have alike : m.Alike (m.labelled cfg msgCounter) := labelled_alike msgCounter
    obtain ⟨c'', confirms, known''⟩ := receiver_confirms_head udp leaving known'
      (by rwa [resent_uid])
    apply Drains.answered (s := ⟨c, point⟩) looping.sender run out
    case listens => exact looping.receiver udp
    case awaits => rwa [labelled_awaits]
    case late =>
      rw [uid, alike.sendCount]
      omega
    case confirms => exact confirms
    case more => exact behind _ _ _ known'' (skipped_confirmed udp sendable)
  | succ gap ih =>
    obtain ⟨c', run, known', out⟩ :=
      leaving_resends leaving udp sendable awaits kept skipped known (sent k)
    have uid : (m.labelled cfg msgCounter).uid = m.uid := Message.labelled_uid ..
    have alike : m.Alike (m.labelled cfg msgCounter) := labelled_alike msgCounter
    have count : (m.resent cfg msgCounter).sendCount = m.sendCount + 1 := rfl
    have known' : c'.At msgCounter state ([] ++ m.resent cfg msgCounter :: rest) := known'
    have bytes : ((m.resent cfg msgCounter).labelled cfg msgCounter).buffer =
        (m.labelled cfg msgCounter).buffer := labelled_again cfg msgCounter _ m
    have id : ((m.resent cfg msgCounter).labelled cfg msgCounter).msgID =
        (m.labelled cfg msgCounter).msgID := by
      simp only [Message.msgID, Message.lowMsgIdByte, Message.highMsgIdByte, bytes]
    rw [List.replicate_succ, List.cons_append]
    apply Drains.unanswered (s := ⟨c, point⟩) looping.sender run out
    case early =>
      intro _
      rw [uid, alike.sendCount]
      omega
    case more =>
      rw [← bytes]
      apply ih (m := m.resent cfg msgCounter)
      case other => rwa [resent_uid]
      case timely => rwa [resent_uid]
      case sendable => exact sendable.resent (by omega)
      case awaits => rwa [resent_awaits]
      case kept => exact skipped_resent kept sendable
      case skipped => exact List.forall_mem_nil _
      case left =>
        rw [resent_uid, count]
        omega
      case known => exact known'
      case behind =>
        rw [id]
        exact behind

/-- In the UDP variant the server answers while there are retries left. -/
structure Timely (cfg : NetworkConfig) (lost : Nat → Nat) (queue : MessageQueue) : Prop where
  answers : ∀ uid, lost uid < cfg.udpMaxRetries.val
  sendable : ∀ m ∈ queue, m.skipped cfg = true ∨ m.Sendable cfg

omit sent leaving in
theorem Timely.tail (timely : Timely cfg lost (m :: rest)) : Timely cfg lost rest where
  answers := timely.answers
  sendable x hx := timely.sendable x (List.mem_cons_of_mem _ hx)

include looping in
/-- **A queue is brought out.** Message by message, in its order. -/
theorem drains_queue {queue : MessageQueue} {k : Nat} (distinct : queue.uids.Nodup)
    (timely : cfg.protocol = .protUDP → Timely cfg lost queue)
    (skipped : ∀ x ∈ front, x.skipped cfg = true) (known : c.At msgCounter state (front ++ queue)) :
    Drains cfg bytesTx lost k ⟨c, point⟩ (queue.wire cfg lost msgCounter) := by
  induction queue generalizing k c front msgCounter with
  | nil =>
    obtain ⟨c', run, running, ends, nothing⟩ :
        ∃ c', (senderPass cfg c (bytesTx k)).exec (Client.perform .sender) c = _ ∧ _ :=
      leaving_ends known leaving skipped rfl
    apply Drains.quiet (s := ⟨c, point⟩) looping.sender run nothing
    exact .ended looping.sender (senderPass_end running ends _) rfl
  | cons m rest ih =>
    have later : cfg.protocol = .protUDP → Timely cfg lost rest := fun udp => (timely udp).tail
    obtain ⟨other, others⟩ := List.nodup_cons.mp distinct
    unfold MessageQueue.wire Message.wire Message.counted
    by_cases gone : m.skipped cfg = true
    · rw [if_pos gone, if_pos gone, List.nil_append]
      have behind : c.At msgCounter state (front ++ [m] ++ rest) := by rwa [List.append_assoc]
      apply ih others later
      case skipped =>
        intro x hx
        rcases List.mem_append.mp hx with hx | hx
        · exact skipped x hx
        · exact List.mem_singleton.mp hx ▸ gone
      case known => exact behind
    have kept : m.skipped cfg = false := by simpa using gone
    rw [if_neg gone, if_neg gone]
    by_cases awaits : m.awaits cfg = true
    · have udp : cfg.protocol = .protUDP := by
        simp only [Message.awaits, Bool.and_eq_true, decide_eq_true_eq] at awaits
        exact awaits.1
      have sendable : m.Sendable cfg :=
        ((timely udp).sendable m List.mem_cons_self).resolve_left gone
      rw [if_pos awaits, if_pos awaits]
      apply drains_head sent leaving looping udp other ((timely udp).answers m.uid) sendable
        awaits kept skipped rfl known
      intro k c m' known' skipped'
      have behind : c.At _ state ([m'] ++ rest) := known'
      apply ih others later
      case skipped =>
        intro x hx
        exact List.mem_singleton.mp hx ▸ skipped'
      case known => exact behind
    · rw [if_neg awaits, if_neg awaits, List.singleton_append]
      have early : cfg.protocol = .protUDP → m.sendCount ≤ cfg.udpMaxRetries.val := fun udp =>
        Nat.le_of_lt (((timely udp).sendable m List.mem_cons_self).resolve_left gone).early
      obtain ⟨c', run, known', out⟩ :=
        leaving_sends known leaving skipped rfl kept early (sent k)
      rw [kept_once (by simpa using awaits)] at known'
      apply Drains.unanswered (s := ⟨c, point⟩) looping.sender run out
      · rw [labelled_awaits]
        exact fun eq => absurd eq awaits
      · exact ih others later (List.forall_mem_nil _) known'

end

/-! ## Both ways out -/

/-- The BYE that the program leaves with. -/
def goodbye (cfg : NetworkConfig) (lost msgCounter : Nat) : List (List UInt8) :=
  match cfg.protocol with
  | .protUDP => List.replicate (lost + 1) (numberedUDP msgCounter .msgBye [])
  | .protTCP => [formatTCP .msgBye []]

section
variable {cfg : NetworkConfig} {t : Thread} {c : Client} (running : c.status = .running)
  (unlocked : c.lock = none)
include running unlocked

theorem sendBye_line (tcp : cfg.protocol = .protTCP) :
    ∃ m scratch reallocs, m.Fresh c.nextUid MsgType.msgBye.toUChar .msgFlagBye ∧
      m.buffer = formatTCP .msgBye [] ∧
      (sendBye cfg).exec (Client.perform t) c = .done () (c.appended m scratch reallocs) := by
  obtain ⟨b, cursor, assembled, bytes⟩ := assembleProtocolTCP_exit c.fresh
    (c.scratch .protocolToSendedByMain) c.comDetails
    (show uchar2CommandType (ProtocolBlocks.reset CommandType.cmdExit.toUChar).type = .cmdExit
      from rfl)
  rw [Client.fresh] at assembled
  unfold sendBye
  rw [queueLock, exec_take_bind running]
  simp only [Client.act, unlocked]
  rw [assembleProtocol, exec_take_bind (by exact running)]
  simp only [Client.act, assemble, tcp, Client.fresh, assembled]
  rw [queueAddMessage, exec_take_bind (by exact running)]
  simp only [Client.act]
  rw [queueUnlock, exec_take (by exact running)]
  simp only [Client.act, Client.appended, unlocked]
  refine ⟨_, _, _, ⟨rfl, rfl, rfl, rfl, rfl⟩, ?_, rfl⟩
  exact bytes

theorem sendBye_goodbye (cfg : NetworkConfig) (t : Thread) (lost : Nat → Nat) :
    ∃ m scratch reallocs, m.Fresh c.nextUid MsgType.msgBye.toUChar .msgFlagBye ∧
      (∀ msgCounter, MessageQueue.wire cfg lost msgCounter [m] =
        goodbye cfg (lost c.nextUid) msgCounter) ∧
      (sendBye cfg).exec (Client.perform t) c = .done () (c.appended m scratch reallocs) := by
  cases protocol : cfg.protocol with
  | protUDP =>
    obtain ⟨m, scratch, reallocs, fresh, spelled, run⟩ :=
      sendBye_spelled (t := t) running unlocked protocol
    refine ⟨m, scratch, reallocs, fresh, ?_, run⟩
    intro msgCounter
    have kept : m.dropped cfg = false := fresh.not_dropped (by decide)
    have bytes : m.labelled cfg msgCounter = _ :=
      (fresh.repeats spelled msgCounter).labelled protocol rfl
    have datagram := (fresh.repeats spelled msgCounter).datagram
    simp [MessageQueue.wire, Message.wire, Message.skipped, Message.awaits, goodbye, protocol,
      kept, fresh.msgFlags, MsgFlags.sentOnce, fresh.uid, fresh.sendCount, bytes, datagram]
  | protTCP =>
    obtain ⟨m, scratch, reallocs, fresh, bytes, run⟩ :=
      sendBye_line (t := t) running unlocked protocol
    refine ⟨m, scratch, reallocs, fresh, ?_, run⟩
    intro msgCounter
    simp [MessageQueue.wire, Message.wire, Message.skipped, Message.awaits, goodbye, protocol,
      Message.labelled, bytes]

omit running unlocked in
/-- A queue is brought out with a BYE behind it. -/
theorem drains_goodbye {lost : Nat → Nat} {msgCounter uid : Nat} {state : Fsm}
    {queue : MessageQueue} {m : Message} {point : Thread → Option Point}
    (looping : Looping cfg point) (leaving : state.Leaving)
    (known : c.At msgCounter state (queue ++ [m])) {type : UInt8}
    (fresh : m.Fresh uid type .msgFlagBye) (distinct : queue.uids.Nodup)
    (old : ∀ uid' ∈ queue.uids, uid' < uid)
    (bye : ∀ msgCounter, MessageQueue.wire cfg lost msgCounter [m] =
      goodbye cfg (lost uid) msgCounter)
    (timely : cfg.protocol = .protUDP → Timely cfg lost queue) {bytesTx : Nat → Int}
    (sent : ∀ k, 0 ≤ bytesTx k) :
    Drains cfg bytesTx lost 0 ⟨c, point⟩ (queue.wire cfg lost msgCounter ++
      goodbye cfg (lost uid) (queue.foldl (Message.counted cfg) msgCounter)) := by
  have known : c.At msgCounter state ([] ++ (queue ++ [m])) := known
  rw [← bye, ← wire_append]
  apply drains_queue sent leaving looping
  case distinct =>
    have new : uid ∉ queue.uids := fun mem => Nat.lt_irrefl _ (old uid mem)
    have uids : MessageQueue.uids (queue ++ [m]) = queue.uids ++ [uid] := by
      simp [MessageQueue.uids, fresh.uid]
    rw [uids, ← List.concat_eq_append]
    exact distinct.concat new
  case timely =>
    intro udp
    constructor
    case answers => exact (timely udp).answers
    case sendable =>
      intro x hx
      rcases List.mem_append.mp hx with hx | hx
      · exact (timely udp).sendable x hx
      obtain rfl := List.mem_singleton.mp hx
      right
      constructor
      · rw [fresh.msgFlags]
        decide
      · have := (timely udp).answers 0
        rw [fresh.sendCount]
        omega
  case skipped => exact List.forall_mem_nil _
  case known => exact known

omit running unlocked in
theorem Looping.update {point : Thread → Option Point} (looping : Looping cfg point)
    {t : Thread} (notSender : t ≠ .sender) (notReceiver : cfg.protocol = .protUDP → t ≠ .receiver)
    (p : Option Point) : Looping cfg (Function.update point t p) where
  sender := by rw [Function.update_of_ne notSender.symm, looping.sender]
  receiver udp := by rw [Function.update_of_ne (notReceiver udp).symm, looping.receiver udp]

end

section
variable {cfg : NetworkConfig} {s : Passes Thread Client Point}
  (running : s.shared.status = .running) (unlocked : s.shared.lock = none)
  (looping : Looping cfg s.point)
include running unlocked looping

/-- **The end of the input is orderly.** In every state in which main still reads and the sender
is at the head of its loop, the end of the input queues a BYE behind the messages that wait. If
the server confirms each message before its retries are used up, then the sender transmits
exactly these messages, in their order, with as many copies as went unanswered, leaves out only
those that were confirmed or rejected, transmits the BYE behind them and ends. -/
theorem eof_drains (reads : s.point .main = some (.userCommandHandling true))
    (reading : s.shared.fsmState.toNat < Fsm.fsmEmptyQBye.toNat)
    (identified : Identified s.shared) (lost : Nat → Nat)
    (timely : cfg.protocol = .protUDP → Timely cfg lost s.shared.sendingQueue)
    (stdin : List UInt8) :
    (machine cfg).Pass s (runPass (machine cfg) .main (userCommandHandling cfg true stdin) s) ∧
      ∀ bytesTx, (∀ k, 0 ≤ bytesTx k) → Drains cfg bytesTx lost 0
        (runPass (machine cfg) .main (userCommandHandling cfg true stdin) s)
        (s.shared.sendingQueue.wire cfg lost s.shared.comDetails.msgCounter ++
          goodbye cfg (lost s.shared.nextUid)
            (s.shared.sendingQueue.foldl (Message.counted cfg)
              s.shared.comDetails.msgCounter)) := by
  obtain ⟨m, scratch, reallocs, fresh, bye, run⟩ := sendBye_goodbye
    (c := { s.shared with fsmState := .fsmEmptyQBye }) running unlocked cfg .main lost
  have handled : (userCommandHandling cfg true stdin).exec ((machine cfg).perform .main) s.shared =
      .done (.userCommandHandling true)
        (Client.appended { s.shared with fsmState := .fsmEmptyQBye } m scratch reallocs) := by
    change (userCommandHandling cfg true stdin).exec (Client.perform .main) s.shared = _
    unfold userCommandHandling
    rw [getProgramState, exec_take_bind running]
    simp only [Client.act, if_pos reading, if_true]
    rw [setProgramState, exec_take_bind running]
    simp only [Client.act]
    rw [Program.exec_bind, run, Outcome.bind_done, pthreadCondSignal,
      exec_take_bind (by exact running)]
    simp only [Client.act]
    rfl
  simp only [runPass, handled]
  refine ⟨.done reads (.userCommandHandling true stdin) handled, ?_⟩
  intro bytesTx sent
  have stays := looping.update (t := .main) (by decide) (fun _ => by decide)
    (some (.userCommandHandling true))
  apply drains_goodbye stays (Or.inl rfl) _ fresh identified.distinct identified.fresh bye timely
    sent
  constructor
  case running => exact running
  case unlocked => exact unlocked
  all_goals rfl

/-- **SIGINT leaves with a BYE alone.** If the handler runs in main, or in the receiver in the TCP
variant, and the sender is at the head of its loop, then what is queued is thrown away, and the
sender transmits nothing but the BYE, with as many copies as the server leaves unanswered, and
ends. -/
theorem sigint_drains {t : Thread} (notSender : t ≠ .sender)
    (notReceiver : cfg.protocol = .protUDP → t ≠ .receiver) (lost : Nat → Nat)
    (answers : cfg.protocol = .protUDP → ∀ uid, lost uid < cfg.udpMaxRetries.val) :
    (runPass (machine cfg) t (sigintHandler cfg) s).point t = none ∧
      ∀ bytesTx, (∀ k, 0 ≤ bytesTx k) →
        Drains cfg bytesTx lost 0 (runPass (machine cfg) t (sigintHandler cfg) s)
          (goodbye cfg (lost s.shared.nextUid) s.shared.comDetails.msgCounter) := by
  obtain ⟨m, scratch, reallocs, fresh, bye, run⟩ := sendBye_goodbye
    (c := { s.shared with fsmState := .fsmSigintBye, sendingQueue := [], lock := none }) running
    rfl cfg t lost
  have handled : (sigintHandler cfg : Prog Point).exec ((machine cfg).perform t) s.shared =
      .halted (Client.appended { s.shared with
        fsmState := .fsmSigintBye, sendingQueue := [], lock := none } m scratch reallocs) := by
    change (sigintHandler cfg : Prog Point).exec (Client.perform t) s.shared = _
    unfold sigintHandler
    rw [setProgramState, exec_take_bind running]
    simp only [Client.act]
    rw [pthreadCondSignal, exec_take_bind (by exact running)]
    simp only [Client.act]
    rw [queueLock, exec_take_bind (by exact running)]
    simp only [Client.act, unlocked]
    rw [queuePopAllMessages, exec_take_bind (by exact running)]
    simp only [Client.act]
    rw [queueUnlock, exec_take_bind (by exact running)]
    simp only [Client.act]
    rw [Program.exec_bind, run, Outcome.bind_done, pthreadCondSignal,
      exec_take_bind (by exact running)]
    simp only [Client.act]
    rw [pthreadCondSignal, exec_take_bind (by exact running)]
    simp only [Client.act, park, Program.exec, Client.perform, Client.appended, running]
  simp only [runPass, handled]
  refine ⟨Function.update_self .., ?_⟩
  intro bytesTx sent
  have timely : cfg.protocol = .protUDP → Timely cfg lost [] :=
    fun udp => ⟨answers udp, List.forall_mem_nil _⟩
  have known : (Client.appended { s.shared with
      fsmState := .fsmSigintBye, sendingQueue := [], lock := none } m scratch reallocs).At
      s.shared.comDetails.msgCounter .fsmSigintBye ([] ++ [m]) := by
    constructor
    case running => exact running
    all_goals rfl
  exact drains_goodbye (looping.update notSender notReceiver none) (Or.inr rfl) known fresh
    List.nodup_nil (List.forall_mem_nil _) bye timely sent

end

/-- A MSG of which a transmission went unanswered, and the CONFIRM of a message. -/
def annWithTwo : Client :=
  { annWithOne with
    sendingQueue := [⟨1, [0, 9, 9], 0, false, MsgType.msgConf.toUChar, .msgFlagConfirm⟩,
      ⟨0, [4, 0, 0, 97, 0, 104, 0], 1, false, MsgType.msgMsg.toUChar, .msgFlagNone⟩]
    nextUid := 2 }

/-- This client where all threads are at the heads of their loops and the input has ended. -/
def annLeaving : Passes Thread Client Point where
  shared := annWithTwo
  point
    | .main => some (.userCommandHandling true)
    | .sender => some .protocolSender
    | .receiver => some .protocolReceiver

/-- The CONFIRM goes out once, the MSG twice more and the BYE three times, each with its ID. -/
theorem eof_drains_two :
    let s' := runPass (machine ⟨.protUDP, 3⟩) .main (userCommandHandling ⟨.protUDP, 3⟩ true [])
      annLeaving
    (machine ⟨.protUDP, 3⟩).Pass annLeaving s' ∧
      ∀ bytesTx, (∀ k, 0 ≤ bytesTx k) → Drains ⟨.protUDP, 3⟩ bytesTx (fun _ => 2) 0 s'
        [[0, 9, 9], [4, 5, 0, 97, 0, 104, 0], [4, 5, 0, 97, 0, 104, 0], [0xFF, 6, 0],
          [0xFF, 6, 0], [0xFF, 6, 0]] :=
  eof_drains (s := annLeaving) rfl rfl ⟨rfl, fun _ => rfl⟩ rfl (by decide)
    ⟨by decide, by decide, by rintro _ ⟨⟩⟩ (fun _ => 2)
    (fun _ => ⟨fun _ => by decide, by decide⟩) []

theorem sigint_drains_two :
    let s' := runPass (machine ⟨.protUDP, 3⟩) .main (sigintHandler ⟨.protUDP, 3⟩) annLeaving
    s'.point .main = none ∧
      ∀ bytesTx, (∀ k, 0 ≤ bytesTx k) → Drains ⟨.protUDP, 3⟩ bytesTx (fun _ => 1) 0 s'
        [[0xFF, 5, 0], [0xFF, 5, 0]] :=
  sigint_drains (s := annLeaving) rfl rfl ⟨rfl, fun _ => rfl⟩ (t := .main) nofun (fun _ => nofun)
    (fun _ => 1) fun _ _ => by decide

end Ipk24Chat
