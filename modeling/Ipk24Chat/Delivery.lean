import Ipk24Chat.SenderPass
import Ipk24Chat.Channel
import Ipk24Chat.Footprint

/-!
# Delivery in the TCP variant

Whole passes of the loops, as long as `errHandling` is not called. The sending queue is
a channel: what was queued is sent in the same order and once, but for what is flushed
when the server sends an ERR or a message nobody knows.

`Fsm.Place` says which messages there can be in which state. It is what keeps
`logicFSM` from waiting or discarding an AUTH in this variant.
-/

namespace Ipk24Chat

/-! ## The queue as a channel -/

def Event.queued? : Event → Option Message
  | .queued m => some m
  | _ => none

def Event.transmitted? : Event → Option Message
  | .transmitted m => some m
  | _ => none

/-- Oldest first, as are the sent ones. -/
def queuedMessages (history : List Event) : List Message :=
  (history.filterMap Event.queued?).reverse

def sentMessages (history : List Event) : List Message :=
  (history.filterMap Event.transmitted?).reverse

def Client.channel (c : Client) (lost : List Message) : Channel Message :=
  ⟨queuedMessages c.history, sentMessages c.history, c.sendingQueue, lost⟩

/-- The messages there can be between two passes. -/
def Fsm.Place (state : Fsm) (queue : MessageQueue) : Prop :=
  match state with
  | .fsmStart | .fsmAuthSended => queue = []
  | .fsmAuthW82BeSended => queue = [] ∨ ∃ m, queue = [m] ∧ uchar2msgType m.type = .msgAuth
  | .fsmOpen | .fsmJoinAtempt => ∀ m ∈ queue, uchar2msgType m.type ≠ .msgAuth
  | .fsmEmptyQBye | .fsmErr | .fsmEnd => True
  | _ => False

namespace Delivery

/-- What holds between two passes. -/
structure Orderly (lost : List Message) (c : Client) : Prop where
  running : c.status = .running
  unlocked : c.lock = none
  order : (c.channel lost).InOrder
  fresh : ∀ m ∈ queuedMessages c.history, m.uid < c.nextUid ∧ m.confirmed = false
  kept : .authDiscarded ∉ c.history
  place : c.fsmState.Place c.sendingQueue

/-- Events that are no concern of the channel. -/
def Silent (e : Event) : Prop :=
  e.queued? = none ∧ e.transmitted? = none ∧ e ≠ .authDiscarded

section
variable {lost : List Message} {c : Client} (h : Orderly lost c)
include h

/-- What else changes does not matter. -/
theorem Orderly.moved {c' : Client} (new : List Event) (running : c'.status = .running)
    (unlocked : c'.lock = none) (queue : c'.sendingQueue = c.sendingQueue)
    (uid : c'.nextUid = c.nextUid) (history : c'.history = new ++ c.history)
    (silent : ∀ e ∈ new, Silent e) (place : c'.fsmState.Place c.sendingQueue) :
    Orderly lost c' := by
  have queued : queuedMessages c'.history = queuedMessages c.history := by
    have none : new.filterMap Event.queued? = [] :=
      List.filterMap_eq_nil_iff.mpr fun e he => (silent e he).1
    simp [history, queuedMessages, none]
  have sent : sentMessages c'.history = sentMessages c.history := by
    have none : new.filterMap Event.transmitted? = [] :=
      List.filterMap_eq_nil_iff.mpr fun e he => (silent e he).2.1
    simp [history, sentMessages, none]
  refine ⟨running, unlocked, ?_, ?_, ?_, queue ▸ place⟩
  · have same : c'.channel lost = c.channel lost := by
      simp only [Client.channel, queued, sent, queue]
    exact same ▸ h.order
  · rw [queued, uid]
    exact h.fresh
  · rw [history]
    intro discarded
    rcases List.mem_append.mp discarded with discarded | discarded
    · exact (silent _ discarded).2.2 rfl
    · exact h.kept discarded

theorem Orderly.appended {m : Message} {type : UInt8} {flags : MsgFlags}
    (fresh : m.Fresh c.nextUid type flags) (scratch : Scratch → Buffer) (reallocs : Nat)
    (state : Fsm) (place : state.Place (c.sendingQueue ++ [m])) :
    Orderly lost { c.appended m scratch reallocs with fsmState := state } := by
  have accepted : queuedMessages (.queued m :: c.history) = queuedMessages c.history ++ [m] := by
    simp [queuedMessages, Event.queued?]
  have sent : sentMessages (.queued m :: c.history) = sentMessages c.history := rfl
  refine ⟨h.running, h.unlocked, ?_, ?_, ?_, place⟩
  · have new : m ∉ (c.channel lost).accepted := fun old => by
      have below := (h.fresh m old).1
      rw [fresh.uid] at below
      exact Nat.lt_irrefl _ below
    have put := h.order.accept new
    simpa only [Channel.accept, Client.channel, Client.appended, accepted, sent] using put
  · intro x hx
    simp only [Client.appended, accepted, List.mem_append, List.mem_singleton] at hx ⊢
    rcases hx with old | rfl
    · exact ⟨Nat.lt_succ_of_lt (h.fresh x old).1, (h.fresh x old).2⟩
    · exact ⟨by rw [fresh.uid]; exact Nat.lt_succ_self _, fresh.confirmed⟩
  · simpa [Client.appended] using h.kept

end

/-- A pass of the loop; no wait of `logicFSM` is reached. -/
def Delivers (cfg : NetworkConfig) (t : Thread) (q : Prog Point) (lost : List Message)
    (c : Client) : Prop :=
  Ends cfg t q (fun p c' => Orderly lost c' ∧ p ≠ .logicWaitSend ∧ p ≠ .logicWaitAgain) c

section
variable {cfg : NetworkConfig} {lost : List Message} {c : Client}

/-! ## The sender -/

/-- In this variant `logicFSM` lets every message pass, or fails. -/
theorem Orderly.logic (h : Orderly lost c) (tcp : cfg.protocol = .protTCP) {m : Message}
    {rest : MessageQueue} (queue : c.sendingQueue = m :: rest) (going : c.fsmState ≠ .fsmEnd) :
    (Ipk24Chat.logic cfg m c.fsmState = none ∧ c.fsmState ≠ .fsmOpen) ∨
      ∃ state, Ipk24Chat.logic cfg m c.fsmState = some (.proceed, state) ∧ state.Place rest := by
  have place := h.place
  have unconfirmed : m.confirmed = false := by
    have accepted : m ∈ queuedMessages c.history :=
      h.order.pending_accepted (x := m) (by simp [Client.channel, queue])
    exact (h.fresh m accepted).2
  rw [queue] at place
  cases state : c.fsmState with
  | fsmAuthW82BeSended =>
    simp only [state, Fsm.Place, reduceCtorEq, List.cons.injEq, false_or] at place
    obtain ⟨_, ⟨rfl, rfl⟩, auth⟩ := place
    right
    refine ⟨_, by simp [Ipk24Chat.logic, Message.beforeAuth, auth, unconfirmed]; rfl, ?_⟩
    unfold Message.authState
    split
    · rfl
    · exact Or.inl rfl
  | fsmOpen =>
    simp only [state, Fsm.Place, List.forall_mem_cons] at place
    right
    simp only [Ipk24Chat.logic]
    split
    · exact absurd ‹_› place.1
    · exact ⟨_, rfl, place.2⟩
    · exact ⟨_, rfl, place.2⟩
  | fsmJoinAtempt =>
    simp only [state, Fsm.Place, List.forall_mem_cons] at place
    exact Or.inr ⟨_, rfl, place.2⟩
  | fsmErr =>
    simp only [Ipk24Chat.logic, tcp]
    cases m.msgFlags with
    | msgFlagBye | msgFlagErr | msgFlagConfirm => exact Or.inr ⟨_, rfl, trivial⟩
    | _ => exact Or.inl ⟨rfl, by rintro ⟨⟩⟩
  | fsmEmptyQBye => exact Or.inr ⟨_, rfl, trivial⟩
  | fsmEnd => exact absurd state going
  | _ => simp [state, Fsm.Place] at place

/-- The message at the head goes out as it was queued. -/
theorem Orderly.sent (h : Orderly lost c) (tcp : cfg.protocol = .protTCP) {m : Message}
    {rest : MessageQueue} (queue : c.sendingQueue = m :: rest) {state : Fsm}
    (place : state.Place rest) :
    Orderly lost ({ c.resumed .sender with fsmState := state }.sentHead cfg m rest) := by
  have label : m.labelled cfg c.comDetails.msgCounter = m := by simp [Message.labelled, tcp]
  have gone : m.kept cfg = [] := by simp [Message.kept, tcp]
  have moved : ({ c.resumed .sender with fsmState := state }.sentHead cfg m rest).channel lost =
      (c.channel lost).send := by
    simp [Client.channel, Client.sentHead, Client.resumed, label, gone, Channel.send, queue,
      queuedMessages, sentMessages, Event.queued?, Event.transmitted?, List.filterMap_cons]
  refine ⟨h.running, rfl, moved ▸ h.order.send, ?_, ?_, ?_⟩
  · intro x hx
    exact h.fresh x (by simpa [Client.sentHead, Client.resumed, queuedMessages, Event.queued?,
      List.filterMap_cons] using hx)
  · simpa [Client.sentHead, Client.resumed] using h.kept
  · simpa [Client.sentHead, Client.resumed, label, gone] using place

theorem protocolSender_delivers (h : Orderly lost c) (tcp : cfg.protocol = .protTCP) (fuel : Nat)
    (bytesTx : Int) : Delivers cfg .sender (protocolSender cfg fuel bytesTx) lost c := by
  unfold protocolSender
  refine ends_take_bind h.running rfl ?_
  split
  · exact ends_ret ⟨h, nofun, nofun⟩
  rename_i going
  rw [tcp]
  cases queue : c.sendingQueue with
  | nil =>
    refine Or.inr ⟨_, _, senderBody_empty h.running cfg .sender queue bytesTx, ?_, nofun, nofun⟩
    refine h.moved [] h.running rfl rfl rfl rfl nofun ?_
    split
    · trivial
    · exact h.place
  | cons m rest =>
    refine ends_of_advance (senderBody_advance h.running cfg .sender queue bytesTx) ?_
    have fails := @logicAndSend_fails (c.resumed .sender) h.running cfg .sender m rest queue bytesTx
    rcases h.logic tcp queue going with ⟨refused, other⟩ | ⟨state, decided, place⟩
    · exact Or.inl (fails (Or.inl ⟨refused, other⟩))
    · by_cases failed : bytesTx < 0
      · exact Or.inl (fails (Or.inr ⟨⟨state, decided⟩, failed⟩))
      · have sends := logicAndSend_sends (c := c.resumed .sender) h.running cfg .sender queue
          decided (Int.not_lt.mp failed)
        exact Or.inr ⟨_, _, sends, h.sent tcp queue place, nofun, nofun⟩

/-! ## The main thread -/

/-- What `filterCommandsByFSM` leaves behind: a command passes in the states it is made
for. -/
theorem filterCommandsByFSM_exec (running : c.status = .running) (pBlocks : ProtocolBlocks)
    (flags : MsgFlags) :
    ∃ passes flags' state com reallocs,
      (filterCommandsByFSM pBlocks flags).exec (Client.perform .main) c = .done (passes, flags')
        { c with fsmState := state, comDetails := com, reallocs := reallocs } ∧
      (state = c.fsmState ∧ (passes = true →
          uchar2CommandType pBlocks.type = .cmdExit ∨ c.fsmState = .fsmOpen ∧
            (uchar2CommandType pBlocks.type = .cmdJoin ∨
              uchar2CommandType pBlocks.type = .cmdMsg)) ∨
        c.fsmState = .fsmStart ∧ state = .fsmAuthW82BeSended ∧
          uchar2CommandType pBlocks.type = .cmdAuth) := by
  obtain ⟨fsmState, queue, lock, com, input, scratch, response, seen, heap, reallocs, nextUid,
    status, history⟩ := c
  obtain rfl : status = .running := running
  unfold filterCommandsByFSM
  cases uchar2CommandType pBlocks.type with
  | cmdAuth =>
    cases fsmState with
    | fsmStart => exact ⟨_, _, _, _, _, rfl, Or.inr ⟨rfl, rfl, rfl⟩⟩
    | _ => exact ⟨_, _, _, _, _, rfl, Or.inl ⟨rfl, nofun⟩⟩
  | cmdJoin | cmdMsg =>
    cases fsmState with
    | fsmOpen => exact ⟨_, _, _, _, _, rfl, Or.inl ⟨rfl, by simp⟩⟩
    | _ => exact ⟨_, _, _, _, _, rfl, Or.inl ⟨rfl, nofun⟩⟩
  | cmdRename => cases fsmState <;> exact ⟨_, _, _, _, _, rfl, Or.inl ⟨rfl, nofun⟩⟩
  | _ => exact ⟨_, _, _, _, _, rfl, Or.inl ⟨rfl, by simp⟩⟩

theorem enqueueCommand_exec (running : c.status = .running) (unlocked : c.lock = none)
    (flags : MsgFlags) (type : MsgType) :
    ∃ m scratch reallocs, m.Fresh c.nextUid type.toUChar flags ∧
      (enqueueCommand flags type.toUChar).exec (Client.perform .main) c = .done ()
        { c.appended m scratch reallocs with
          fsmState := if type = .msgBye then .fsmEmptyQBye else c.fsmState } := by
  obtain ⟨fsmState, queue, lock, com, input, scratch, response, seen, heap, reallocs, nextUid,
    status, history⟩ := c
  obtain rfl : status = .running := running
  obtain rfl : lock = none := unlocked
  cases type <;> cases queue <;> exact ⟨_, _, _, ⟨rfl, rfl, rfl, rfl, rfl⟩, rfl⟩

/-- A command that passes is queued, and `/exit` ends the loop. -/
theorem assembleCommand_exec (cfg : NetworkConfig) (running : c.status = .running)
    (unlocked : c.lock = none) (pBlocks : ProtocolBlocks) (flags : MsgFlags) :
    Fails cfg .main (assembleCommand cfg pBlocks flags) c ∨
      (∃ scratch reallocs, (assembleCommand cfg pBlocks flags).exec (Client.perform .main) c =
        .done () { c with scratch := scratch, reallocs := reallocs }) ∨
      ∃ type m scratch reallocs, (uchar2CommandType pBlocks.type).sentAs = some type ∧
        m.Fresh c.nextUid type.toUChar flags ∧
        (assembleCommand cfg pBlocks flags).exec (Client.perform .main) c = .done ()
          { c.appended m scratch reallocs with
            fsmState := if type = .msgBye then .fsmEmptyQBye else c.fsmState } := by
  cases assembled : assemble c.fresh cfg.protocol pBlocks (c.scratch .protocolToSendedByMain)
    c.comDetails with
  | error f =>
    left
    refine ⟨1, f, c, ?_⟩
    rw [assembleCommand, assembleProtocol, advance_take_bind running]
    simp only [Client.act, assembled]
    rfl
  | ok r =>
    right
    have run : (assembleCommand cfg pBlocks flags).exec (Client.perform .main) c =
        (if r.canBeSended then enqueueCommand flags r.pBlocks.type else pure ()).exec
          (Client.perform .main) (c.setScratch .protocolToSendedByMain r.buffer) := by
      rw [assembleCommand, assembleProtocol, exec_take_bind running]
      simp only [Client.act, assembled]
    rw [run]
    by_cases sendable : r.canBeSended = true
    · obtain ⟨type, sent, eq⟩ := assemble_type assembled sendable
      rw [if_pos sendable, eq]
      obtain ⟨m, scratch, reallocs, fresh, queued⟩ := enqueueCommand_exec
        (c := c.setScratch .protocolToSendedByMain r.buffer) running unlocked flags type
      exact Or.inr ⟨type, m, scratch, reallocs, sent, fresh, queued⟩
    · rw [if_neg sendable]
      exact Or.inl ⟨_, _, rfl⟩

theorem sentAs_auth {command : CommandType} {type : MsgType} (h : command.sentAs = some type)
    (auth : uchar2msgType type.toUChar = .msgAuth) : command = .cmdAuth := by
  cases command <;> cases h <;> first | rfl | cases auth

/-- A command that passes finds the queue as it should be. -/
theorem assembleCommand_delivers (h : Orderly lost c) {state : Fsm} {com : CommunicationDetails}
    {reallocs : Nat} {pBlocks : ProtocolBlocks} (flags : MsgFlags)
    (states : state = c.fsmState ∧ (uchar2CommandType pBlocks.type = .cmdExit ∨
        c.fsmState = .fsmOpen ∧ (uchar2CommandType pBlocks.type = .cmdJoin ∨
          uchar2CommandType pBlocks.type = .cmdMsg)) ∨
      c.fsmState = .fsmStart ∧ state = .fsmAuthW82BeSended ∧
        uchar2CommandType pBlocks.type = .cmdAuth) :
    Ends cfg .main (assembleCommand cfg pBlocks flags) (fun _ c' => Orderly lost c')
      { c with fsmState := state, comDetails := com, reallocs := reallocs } := by
  have place : state.Place c.sendingQueue := by
    rcases states with ⟨rfl, -⟩ | ⟨start, rfl, -⟩
    · exact h.place
    · have empty := h.place
      rw [start] at empty
      exact Or.inl empty
  have before :
      Orderly lost { c with fsmState := state, comDetails := com, reallocs := reallocs } :=
    h.moved [] h.running h.unlocked rfl rfl rfl nofun place
  rcases assembleCommand_exec cfg before.running before.unlocked pBlocks flags with
    fails | ⟨scratch, reallocs', run⟩ | ⟨type, m, scratch, reallocs', sent, fresh, run⟩
  · exact Or.inl fails
  · exact Or.inr ⟨(), _, run, before.moved [] h.running h.unlocked rfl rfl rfl nofun place⟩
  · refine Or.inr ⟨(), _, run, before.appended fresh _ _ _ ?_⟩
    by_cases bye : type = .msgBye
    · rw [if_pos bye]
      trivial
    rw [if_neg bye]
    have type_eq := fresh.type
    rcases states with ⟨rfl, exit | ⟨opened, other⟩⟩ | ⟨start, rfl, auth⟩
    · rw [exit] at sent
      exact absurd (Option.some.inj sent).symm bye
    · have others := h.place
      simp only [opened, Fsm.Place] at others ⊢
      intro x hx auth
      rcases List.mem_append.mp hx with hx | hx
      · exact others x hx auth
      · obtain rfl := List.mem_singleton.mp hx
        rw [type_eq] at auth
        have same := sentAs_auth sent auth
        rcases other with other | other <;> rw [same] at other <;> cases other
    · have empty := h.place
      rw [start] at empty
      rw [auth] at sent
      obtain rfl := Option.some.inj sent
      right
      refine ⟨m, ?_, by rw [type_eq]; rfl⟩
      change c.sendingQueue ++ [m] = [m]
      rw [show c.sendingQueue = [] from empty, List.nil_append]

theorem handleLine_delivers (h : Orderly lost c) (input : Buffer) :
    Ends cfg .main (handleLine cfg input) (fun _ c' => Orderly lost c') c := by
  unfold handleLine
  generalize userInputToCmds input (.reset CommandType.cmdNone.toUChar) .msgFlagNone = parsed
  have printed : Ends cfg .main (printComplaint parsed.complaint) (fun _ c' => c' = c) c := by
    unfold printComplaint
    split
    · exact Or.inr ⟨(), c, by rw [exec_take h.running]; rfl, rfl⟩
    · exact ends_ret rfl
  refine ends_bind printed ?_
  rintro _ _ rfl
  obtain ⟨passes, flags, state, com, reallocs, filtered, states⟩ :=
    filterCommandsByFSM_exec h.running parsed.pBlocks parsed.flags
  refine ends_bind (Q := fun r c' => r = (passes, flags) ∧ c' = _)
    (Or.inr ⟨_, _, filtered, rfl, rfl⟩) ?_
  rintro _ _ ⟨rfl, rfl⟩
  cases passes with
  | true =>
    exact assembleCommand_delivers h flags (states.imp_left fun known => ⟨known.1, known.2 rfl⟩)
  | false =>
    refine ends_ret (h.moved [] h.running h.unlocked rfl rfl rfl nofun ?_)
    rcases states with ⟨rfl, -⟩ | ⟨start, rfl, -⟩
    · exact h.place
    · have empty := h.place
      rw [start] at empty
      exact Or.inl empty

theorem userCommandHandling_delivers (h : Orderly lost c) (eofDetected : Bool)
    (stdin : List UInt8) :
    Delivers cfg .main (userCommandHandling cfg eofDetected stdin) lost c := by
  unfold userCommandHandling
  refine ends_take_bind h.running rfl ?_
  split
  · split
    · refine ends_take_bind h.running rfl ?_
      obtain ⟨m, scratch, reallocs, fresh, run⟩ := sendBye_exec
        (c := { c with fsmState := .fsmEmptyQBye }) h.running h.unlocked cfg .main
      refine ends_bind (Q := fun _ c' => c' = _) (Or.inr ⟨(), _, run, rfl⟩) ?_
      rintro _ _ rfl
      refine ends_take_bind h.running rfl (ends_ret ⟨?_, nofun, nofun⟩)
      exact h.appended fresh scratch reallocs .fsmEmptyQBye trivial
    · refine ends_take_bind h.running rfl ?_
      refine ends_bind (handleLine_delivers ?_ _) fun _ c' good => ends_ret ⟨good, nofun, nofun⟩
      exact h.moved [] h.running h.unlocked rfl rfl rfl nofun h.place
  · exact ends_ret ⟨h, nofun, nofun⟩

end

end Delivery

/-! ## The receiver -/

/-- The message type the receiver finds. -/
def Client.typeReceived (c : Client) (datagram : List UInt8) : MsgType :=
  uchar2msgType
    (disassebleProtocolTCP (Client.receive c.serverResponse datagram) (.reset 0)).type

/-- The queue is flushed if the message is an ERR or nobody knows it. In the start state
such a message is thrown away. -/
def Client.flushed (c : Client) (datagram : List UInt8) : List Message :=
  if datagram = [] ∨ c.fsmState = .fsmEnd ∨ c.fsmState = .fsmStart then []
  else
    match c.typeReceived datagram with
    | .msgConf | .msgReply | .msgMsg | .msgBye => []
    | _ => c.sendingQueue

namespace Delivery
section
variable {cfg : NetworkConfig} {lost : List Message} {c : Client}

theorem handleReplyTCP_delivers (h : Orderly lost c) (pBlocks : ProtocolBlocks) :
    Ends cfg .receiver (handleReplyTCP pBlocks) (fun _ c' => Orderly lost c') c := by
  have answered (tested : Fsm) (opens : Fsm.fsmOpen.Place c.sendingQueue)
      (back : c.fsmState ≠ .fsmJoinAtempt → Fsm.fsmStart.Place c.sendingQueue) :
      Ends cfg .receiver (answerReplyTCP pBlocks tested) (fun _ c' => Orderly lost c') c := by
    unfold answerReplyTCP
    split
    · refine ends_take_bind h.running rfl ?_
      refine ends_take_bind h.running rfl ?_
      refine ends_take h.running rfl ?_
      refine h.moved [.replyOk tested] h.running h.unlocked rfl rfl rfl ?_ opens
      simp [Silent, Event.queued?, Event.transmitted?]
    · refine ends_take_bind h.running rfl ?_
      refine ends_take_bind h.running rfl ?_
      split
      · exact ends_take h.running rfl
          (h.moved [] h.running h.unlocked rfl rfl rfl nofun opens)
      · exact ends_take h.running rfl
          (h.moved [] h.running h.unlocked rfl rfl rfl nofun (back ‹_›))
  unfold handleReplyTCP
  refine ends_take_bind h.running rfl ?_
  refine ends_bind (Q := fun _ c' => Orderly lost c') ?_ fun _ c' good =>
    ends_take good.running rfl good
  have place := h.place
  cases state : c.fsmState with
  | fsmAuthSended =>
    rw [state] at place
    have empty : c.sendingQueue = [] := place
    exact answered _ (by simp [Fsm.Place, empty]) fun _ => empty
  | fsmJoinAtempt =>
    rw [state] at place
    exact answered _ place fun other => absurd state other
  | _ => exact ends_ret h

theorem printIncomingMessage_delivers (h : Orderly lost c) (pBlocks : ProtocolBlocks) :
    Ends cfg .receiver (printIncomingMessage cfg pBlocks) (fun _ c' => Orderly lost c') c := by
  unfold printIncomingMessage
  simp only
  split
  · exact ends_errHandling _
  · refine ends_take h.running rfl ?_
    refine h.moved [_] h.running h.unlocked rfl rfl rfl ?_ h.place
    simp [Silent, Event.queued?, Event.transmitted?]

theorem wakeSender_ends (running : c.status = .running) :
    Ends cfg .receiver wakeSender (fun _ c' => c' = c) c :=
  ends_take_bind running rfl (ends_take running rfl rfl)

theorem receiverAction_delivers (h : Orderly lost c) (tcp : cfg.protocol = .protTCP)
    (pBlocks : ProtocolBlocks) (serverResponse : Buffer) :
    Ends cfg .receiver (receiverAction cfg 0 pBlocks serverResponse false) (fun _ c' =>
      Orderly (lost ++ match uchar2msgType pBlocks.type with
        | .msgConf | .msgReply | .msgMsg | .msgBye => []
        | _ => c.sendingQueue) c') c := by
  have locked (state : Fsm) : Client.act .receiver { c with fsmState := state } .queueLock =
      .ok () { c with fsmState := state, lock := some .receiver } := by
    simp only [Client.act, h.unlocked]
  have flushed : Orderly (lost ++ c.sendingQueue)
      { c with sendingQueue := [], fsmState := .fsmErr, lock := none } :=
    ⟨h.running, rfl, h.order.flush, h.fresh, h.kept, trivial⟩
  unfold receiverAction
  simp only [tcp, inUDP]
  cases uchar2msgType pBlocks.type with
  | msgConf => exact ends_errHandling _
  | msgReply => simpa only [List.append_nil] using handleReplyTCP_delivers h pBlocks
  | msgMsg => simpa only [List.append_nil] using printIncomingMessage_delivers h pBlocks
  | msgBye =>
    simp only [List.append_nil]
    refine ends_take_bind h.running rfl ?_
    exact ends_take h.running rfl
      (h.moved [] h.running h.unlocked rfl rfl rfl (List.forall_mem_nil _) trivial)
  | msgErr =>
    refine ends_take_bind h.running (locked c.fsmState) ?_
    refine ends_take_bind h.running rfl ?_
    refine ends_take_bind h.running rfl ?_
    -- the state is set behind the BYE, which does not look at it
    obtain ⟨m, scratch, reallocs, fresh, run⟩ := sendBye_exec
      (c := { c with sendingQueue := [], lock := none }) h.running rfl cfg .receiver
    refine ends_bind (Q := fun _ c' => c' = _) (Or.inr ⟨(), _, run, rfl⟩) ?_
    rintro _ _ rfl
    refine ends_bind (wakeSender_ends h.running) ?_
    rintro _ _ rfl
    refine ends_take_bind h.running rfl ?_
    have behind := flushed.appended fresh scratch reallocs .fsmErr trivial
    refine ends_bind (printIncomingMessage_delivers behind pBlocks) fun _ c' good => ?_
    exact ends_take good.running rfl good
  | _ =>
    refine ends_take_bind h.running rfl ?_
    refine ends_take_bind h.running (locked .fsmErr) ?_
    refine ends_take_bind h.running rfl ?_
    refine ends_take_bind h.running rfl ?_
    have error : Ends cfg .receiver (sendError cfg .protocolToSendedByReceiver
        "Unknown message format") (fun _ c' => Orderly (lost ++ c.sendingQueue) c' ∧
          c'.fsmState = .fsmErr)
        { c with sendingQueue := [], fsmState := .fsmErr, lock := none } := by
      rcases sendError_exec flushed.running flushed.unlocked cfg .receiver
        .protocolToSendedByReceiver "Unknown message format" with
        ⟨m, scratch, reallocs, fresh, run⟩ | failed
      · exact Or.inr ⟨(), _, run, flushed.appended fresh scratch reallocs _ trivial, rfl⟩
      · exact Or.inl failed
    rw [Program.pure_eq, Program.ret_bind]
    refine ends_bind error ?_
    rintro _ c₁ ⟨good, state⟩
    obtain ⟨m, scratch, reallocs, fresh, run⟩ := sendBye_exec good.running good.unlocked cfg
      .receiver
    refine ends_bind (Q := fun _ c' => c' = _) (Or.inr ⟨(), _, run, rfl⟩) ?_
    rintro _ _ rfl
    refine ends_bind (wakeSender_ends good.running) ?_
    rintro _ _ rfl
    refine ends_take_bind good.running rfl ?_
    refine ends_take good.running rfl ?_
    exact good.appended fresh scratch reallocs _ (by rw [state]; trivial)

theorem protocolReceiver_delivers (h : Orderly lost c) (tcp : cfg.protocol = .protTCP)
    (datagram : List UInt8) :
    Delivers cfg .receiver (protocolReceiver cfg datagram) (lost ++ c.flushed datagram) c := by
  unfold protocolReceiver
  refine ends_take_bind h.running rfl ?_
  split
  · rename_i ended
    refine ends_ret ⟨?_, nofun, nofun⟩
    simpa [Client.flushed, ended] using h
  rename_i going
  split
  · rename_i empty
    refine ends_ret ⟨?_, nofun, nofun⟩
    simpa [Client.flushed, empty] using h
  rename_i given
  refine ends_take_bind h.running rfl ?_
  have silent : ∀ e ∈ [Event.received datagram], Silent e := by
    simp [Silent, Event.queued?, Event.transmitted?]
  have received : Orderly lost { c with
      serverResponse := Client.receive c.serverResponse datagram
      history := .received datagram :: c.history } :=
    h.moved [.received datagram] h.running h.unlocked rfl rfl rfl silent h.place
  refine ends_bind (Q := fun _ c' => Orderly (lost ++ c.flushed datagram) c') ?_ fun _ c' good =>
    ends_ret ⟨good, nofun, nofun⟩
  unfold handleDatagram
  simp only [tcp]
  unfold dispatch
  refine ends_take_bind h.running rfl ?_
  split
  · rename_i thrown
    refine ends_ret ?_
    have start : c.fsmState = .fsmStart := thrown.1
    have none : c.flushed datagram = [] := by simp [Client.flushed, start]
    rw [none, List.append_nil]
    exact received
  · rename_i taken
    unfold receiverFSM
    simp only [tcp]
    refine ends_mono (receiverAction_delivers received tcp _ _) fun _ c' good => ?_
    have same : c.flushed datagram = match c.typeReceived datagram with
        | .msgConf | .msgReply | .msgMsg | .msgBye => []
        | _ => c.sendingQueue := by
      unfold Client.flushed
      by_cases start : c.fsmState = .fsmStart
      · -- only REPLY and CONFIRM get here
        rw [if_pos (Or.inr (Or.inr start))]
        by_cases reply : (disassebleProtocolTCP (Client.receive c.serverResponse datagram)
            (.reset 0)).type = MsgType.msgReply.toUChar
        · rw [Client.typeReceived, reply]
          rfl
        · have conf : (disassebleProtocolTCP (Client.receive c.serverResponse datagram)
              (.reset 0)).type = MsgType.msgConf.toUChar := by
            by_contra other
            exact taken ⟨start, reply, other⟩
          rw [Client.typeReceived, conf]
          rfl
      · rw [if_neg (by simp [given, going, start])]
    rw [same]
    exact good

end
end Delivery

/-! ## Runs -/

/-- Runs of whole passes in which `errHandling` is not called, with the messages that
were flushed. -/
inductive Delivered (cfg : NetworkConfig) (s₀ : Passes Thread Client Point) :
    List Message → Passes Thread Client Point → Prop where
  | refl : Delivered cfg s₀ [] s₀
  | pass {lost : List Message} {s : Passes Thread Client Point} {t : Thread} {p : Point}
      {q : Prog Point} : Delivered cfg s₀ lost s → t ≠ .receiver → s.point t = some p →
      Starts cfg t p q → ¬ Fails cfg t q s.shared →
      Delivered cfg s₀ lost (runPass (machine cfg) t q s)
  | receive {lost : List Message} {s : Passes Thread Client Point} {datagram : List UInt8} :
      Delivered cfg s₀ lost s → s.point .receiver = some .protocolReceiver →
      datagram.length ≤ 1500 → ¬ Fails cfg .receiver (protocolReceiver cfg datagram) s.shared →
      Delivered cfg s₀ (lost ++ s.shared.flushed datagram)
        (runPass (machine cfg) .receiver (protocolReceiver cfg datagram) s)

namespace Delivery
variable {cfg : NetworkConfig} {lost : List Message}

/-- No wait of `logicFSM` is ever reached. -/
structure Settled (lost : List Message) (s : Passes Thread Client Point) : Prop where
  orderly : Orderly lost s.shared
  awake : s.point .sender ≠ some .logicWaitSend ∧ s.point .sender ≠ some .logicWaitAgain

theorem runPass_delivers {lost' : List Message} {t : Thread} {q : Prog Point}
    {s : Passes Thread Client Point} (h : Settled lost s) (ends : Delivers cfg t q lost' s.shared)
    (passes : ¬ Fails cfg t q s.shared) : Settled lost' (runPass (machine cfg) t q s) := by
  rcases ends with failed | ⟨p, c', run, good, send, again⟩
  · exact absurd failed passes
  · have done : runPass (machine cfg) t q s = ⟨c', Function.update s.point t (some p)⟩ := by
      have exec : q.exec ((machine cfg).perform t) s.shared = .done p c' := run
      simp only [runPass, exec]
    rw [done]
    refine ⟨good, ?_⟩
    by_cases sender : t = .sender
    · subst sender
      simpa using ⟨send, again⟩
    · simpa [Function.update_of_ne (Ne.symm sender)] using h.awake

theorem starts_deliver {s : Passes Thread Client Point} (h : Settled lost s)
    (tcp : cfg.protocol = .protTCP) {t : Thread} {p : Point} {q : Prog Point}
    (point : s.point t = some p) (start : Starts cfg t p q) (other : t ≠ .receiver) :
    Delivers cfg t q lost s.shared := by
  cases start with
  | userCommandHandling eofDetected stdin => exact userCommandHandling_delivers h.orderly _ _
  | protocolReceiver datagram _ => exact absurd rfl other
  | protocolSender fuel bytesTx => exact protocolSender_delivers h.orderly tcp fuel bytesTx
  | logicWaitSend bytesTx => exact absurd point h.awake.1
  | logicWaitAgain bytesTx => exact absurd point h.awake.2

theorem settled_run (tcp : cfg.protocol = .protTCP) {s₀ s : Passes Thread Client Point}
    (run : Delivered cfg s₀ lost s) (init : Settled [] s₀) : Settled lost s := by
  induction run with
  | refl => exact init
  | pass _ other point start passes ih =>
    exact runPass_delivers ih (starts_deliver ih tcp point start other) passes
  | @receive _ s datagram _ _ _ passes ih =>
    exact runPass_delivers ih (protocolReceiver_delivers ih.orderly tcp datagram) passes

theorem settled_init (heap : Nat → Memory) (ipAddress : Buffer) :
    Settled [] (initialPasses (programInterfaceInit heap ipAddress)) where
  orderly := ⟨rfl, rfl, Channel.inOrder_empty, nofun, nofun, rfl⟩
  awake := ⟨nofun, nofun⟩

end Delivery

/-- **The TCP variant delivers in order and once.** In every run of whole passes without
a call of `errHandling`, the messages sent and those still queued are, in order, the
messages queued without those that were flushed; no AUTH was discarded; and every pass
without such a call ends, so that the sender is not stopped by an empty queue. -/
theorem tcp_in_order {cfg : NetworkConfig} {heap : Nat → Memory} {ipAddress : Buffer}
    {lost : List Message} {s : Passes Thread Client Point} (tcp : cfg.protocol = .protTCP)
    (run : Delivered cfg (initialPasses (programInterfaceInit heap ipAddress)) lost s) :
    sentMessages s.shared.history ++ s.shared.sendingQueue =
        (queuedMessages s.shared.history).filter (· ∉ lost) ∧
      (queuedMessages s.shared.history).Nodup ∧ .authDiscarded ∉ s.shared.history ∧
      ∀ t p q, s.point t = some p → Starts cfg t p q → ¬ Fails cfg t q s.shared →
        ∃ p' c', q.exec (Client.perform t) s.shared = .done p' c' := by
  have settled := Delivery.settled_run tcp run (Delivery.settled_init heap ipAddress)
  obtain ⟨nodup, -, order⟩ := settled.orderly.order
  refine ⟨order, nodup, settled.orderly.kept, fun t p q point start passes => ?_⟩
  have delivers : ∃ lost', Delivery.Delivers cfg t q lost' s.shared := by
    by_cases receiver : t = .receiver
    · subst receiver
      cases start with
      | protocolReceiver datagram _ =>
        exact ⟨_, Delivery.protocolReceiver_delivers settled.orderly tcp datagram⟩
    · exact ⟨lost, Delivery.starts_deliver settled tcp point start receiver⟩
  obtain ⟨_, failed | ⟨p', c', ended, -⟩⟩ := delivers
  · exact absurd failed passes
  · exact ⟨p', c', ended⟩

/-- Plays a run of passes that all end, with the messages that are flushed. -/
def deliverAll (cfg : NetworkConfig) (lost : List Message) (s : Passes Thread Client Point) :
    List Cue → Option (List Message × Passes Thread Client Point)
  | [] => some (lost, s)
  | cue :: cues => (cued cfg s cue).bind fun (t, q) =>
    let flushed := match cue with
      | .receiver datagram => s.shared.flushed datagram
      | _ => []
    match q.exec (Client.perform t) s.shared with
    | .halted _ => none
    | .done .. => deliverAll cfg (lost ++ flushed) (runPass (machine cfg) t q s) cues

theorem delivered_of_deliverAll {cfg : NetworkConfig} {s₀ s s' : Passes Thread Client Point}
    {lost lost' : List Message} {cues : List Cue} (run : Delivered cfg s₀ lost s)
    (played : deliverAll cfg lost s cues = some (lost', s')) : Delivered cfg s₀ lost' s' := by
  induction cues generalizing lost s with
  | nil =>
    cases played
    exact run
  | cons cue cues ih =>
    simp only [deliverAll, Option.bind_eq_some_iff] at played
    obtain ⟨⟨t, q⟩, started, rest⟩ := played
    split at rest
    · cases rest
    rename_i p c' ended
    have passes : ¬ Fails cfg t q s.shared := fun failed => by
      obtain ⟨c'', halted⟩ := failed.halted
      cases ended.symm.trans halted
    refine ih ?_ rest
    obtain ⟨_, point, start⟩ := starts_of_cued started
    cases cue <;> simp only [cued] at started
    case receiver datagram =>
      split at started
      · split at started <;> cases started
        exact .receive run ‹_› ‹_› passes
      · cases started
    case main stdin =>
      split at started <;> cases started
      rw [List.append_nil]
      exact .pass run (by rintro ⟨⟩) point start passes
    case sender bytesTx =>
      rw [List.append_nil]
      split at started <;> cases started <;> exact .pass run (by rintro ⟨⟩) point start passes

/-- Two messages are queued, one of them is sent, and the ERR of the server takes the
other. -/
theorem tcp_in_order_err :
    ∃ lost s, Delivered ⟨.protTCP, 3⟩ (initialPasses
        (programInterfaceInit (fun _ _ => 0xC4) ⟨some fun _ => 0, 10, 10⟩)) lost s ∧
      lost.length = 1 ∧ (sentMessages s.shared.history).length = 2 ∧
      sentMessages s.shared.history ++ s.shared.sendingQueue =
        (queuedMessages s.shared.history).filter (· ∉ lost) := by
  have played : ((deliverAll ⟨.protTCP, 3⟩ [] (initialPasses
      (programInterfaceInit (fun _ _ => 0xC4) ⟨some fun _ => 0, 10, 10⟩))
      [.main (ascii "/auth u s d\n"), .sender 1, .receiver (ascii "REPLY OK IS hi\r\n"),
        .main (ascii "a\n"), .main (ascii "b\n"), .sender 1,
        .receiver (ascii "ERR FROM s IS x\r\n")]).any fun r =>
      r.1.length = 1 ∧ (sentMessages r.2.shared.history).length = 2) = true := by decide +kernel
  rw [Option.any_eq_true] at played
  obtain ⟨⟨lost, s⟩, run, good⟩ := played
  simp only [decide_eq_true_eq] at good
  have delivered := delivered_of_deliverAll .refl run
  exact ⟨lost, s, delivered, good.1, good.2, (tcp_in_order rfl delivered).1⟩

end Ipk24Chat
