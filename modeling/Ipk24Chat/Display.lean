import Ipk24Chat.Execution
import Ipk24Chat.Footprint
import Ipk24Chat.RoundTrip

/-!
# Messages are displayed once

The receiver remembers the type and the ID bytes of what it handled and leaves
out what it remembers. The bytes are stored as `unsigned char` and compared with
plain `char`.

* `queueContainsMessageId_iff`: which messages are recognised;
* `seenAfter_iff`: what is remembered after any sequence of datagrams;
* `exactlyOnce_iff`: when each MSG of the sequence is displayed exactly once.
-/

namespace Ipk24Chat

/-- A remembered message is recognised only if both of its ID bytes are
non-negative as `char`. -/
theorem queueContainsMessageId_iff (queue : List SeenMessage) (incoming : Buffer) (type : UInt8) :
    queueContainsMessageId queue incoming type = true ↔
      ⟨incoming.mem 2, incoming.mem 1, type⟩ ∈ queue ∧
        (incoming.mem 1).toNat < 128 ∧ (incoming.mem 2).toNat < 128 := by
  have same (a b : UInt8) : schar a = (b.toNat : Int) ↔ a = b ∧ a.toNat < 128 := by
    have small := a.toNat_lt
    rw [← UInt8.toNat_inj]
    unfold schar
    split <;> omega
  simp only [queueContainsMessageId, List.any_eq_true, Bool.and_eq_true, beq_iff_eq, same]
  constructor
  · rintro ⟨m, mem, ⟨⟨high, highSmall⟩, low, lowSmall⟩, type⟩
    subst type
    rw [high, low]
    exact ⟨mem, low ▸ lowSmall, high ▸ highSmall⟩
  · rintro ⟨mem, lowSmall, highSmall⟩
    exact ⟨_, mem, ⟨⟨rfl, highSmall⟩, rfl, lowSmall⟩, rfl⟩

/-! ## One datagram -/

/-- The part of the receiver's pass that handles a datagram. -/
def reception (cfg : NetworkConfig) (datagram : List UInt8) : Prog Unit := do
  let serverResponse ← take (.recvfrom datagram)
  handleDatagram cfg serverResponse

/-- A datagram and the client it arrives at, whatever the other threads made of
its state by then. -/
structure Reception where
  client : Client
  datagram : List UInt8

namespace Reception

/-- The receive buffer with the datagram in it. -/
def response (r : Reception) : Buffer := Client.receive r.client.serverResponse r.datagram

/-- The datagram is decoded and comes to `receiverFSM` outside of the start state. -/
structure Handled (r : Reception) : Prop where
  running : r.client.status = .running
  unlocked : r.client.lock = none
  started : r.client.fsmState ≠ .fsmStart
  decoded : ∃ d, disassebleProtocolUDP r.response = .ok d

/-- A well-formed MSG. -/
def IsMsg (r : Reception) (low high : UInt8) (displayname contents : List UInt8) : Prop :=
  r.datagram = formatUDP .msgMsg low high [displayname, contents] ∧
    ZeroFree displayname ∧ ZeroFree contents

/-- The datagram has the type MSG and these ID bytes, well formed or not. -/
def Carries (r : Reception) (low high : UInt8) : Prop :=
  r.datagram.take 3 = [MsgType.msgMsg.toUChar, low, high]

def WellFormed (r : Reception) (low high : UInt8) : Prop :=
  ∃ displayname contents, r.IsMsg low high displayname contents

/-- The type MSG and these ID bytes came before, and one of the two datagrams is
well formed. -/
def Again (before : List Reception) (r : Reception) (low high : UInt8) : Prop :=
  r.Carries low high ∧
    ∃ e ∈ before, e.Carries low high ∧ (e.WellFormed low high ∨ r.WellFormed low high)

theorem carries_of_isMsg {r : Reception} {low high : UInt8} {fields : List (List UInt8)}
    (format : r.datagram = formatUDP .msgMsg low high fields) : r.Carries low high := by
  rw [Carries, format]
  rfl

/-- In terms of the receive buffer. -/
theorem carries_iff {r : Reception} {low high : UInt8} :
    r.Carries low high ↔ 3 ≤ r.datagram.length ∧ r.response.mem 0 = MsgType.msgMsg.toUChar ∧
      r.response.mem 1 = low ∧ r.response.mem 2 = high := by
  obtain ⟨client, datagram⟩ := r
  match datagram with
  | [] | [_] | [_, _] => simp [Carries]
  | a :: b :: c :: rest =>
    have zeroth : (0 : Int) < rest.length + 1 + 1 + 1 := by omega
    have first : (1 : Int) < rest.length + 1 + 1 + 1 := by omega
    have second : (2 : Int) < rest.length + 1 + 1 + 1 := by omega
    simp [Carries, response, Client.receive, Buffer.mem, Memory.write, zeroth, first, second]

/-- The client that has received the datagram, with these messages remembered. -/
def arrived (r : Reception) (seen : List SeenMessage) : Client :=
  { r.client with
    confirmedMessages := seen
    serverResponse := r.response
    history := .received r.datagram :: r.client.history }

/-- The client behind the datagram, if these messages were remembered before. -/
def after (cfg : NetworkConfig) (seen : List SeenMessage) (r : Reception) : Client :=
  ((reception cfg r.datagram).exec (Client.perform .receiver)
    { r.client with confirmedMessages := seen }).state

end Reception

/-- What was printed, newest first. -/
def displays (c : Client) : List Event :=
  c.history.filter fun
    | .displayed .. => true
    | _ => false

/-- What the filter remembers behind a message. -/
def remember (seen : List SeenMessage) (response : Buffer) (type : UInt8) : List SeenMessage :=
  if queueContainsMessageId seen response type ∨ response.used < 3 then seen
  else queueAddMessageOnlyID seen response type

section
variable {cfg : NetworkConfig} {c : Client}

theorem repetitive_exec (pBlocks : ProtocolBlocks) (running : c.status = .running)
    (unlocked : c.lock = none) (header : 3 ≤ c.serverResponse.used) :
    (repetitive cfg pBlocks c.serverResponse).exec (Client.perform .receiver) c =
      .done (queueContainsMessageId c.confirmedMessages c.serverResponse pBlocks.type)
        { c with
          confirmedMessages := remember c.confirmedMessages c.serverResponse pBlocks.type } := by
  have long : ¬ c.serverResponse.used < 3 := by omega
  unfold repetitive remember
  rw [queueLock, exec_take_bind running]
  simp only [Client.act, unlocked]
  rw [exec_take_bind (by exact running)]
  simp only [Client.act]
  by_cases seen : queueContainsMessageId c.confirmedMessages c.serverResponse pBlocks.type = true
  · simp only [seen, if_true, true_or]
    rw [queueUnlock, exec_take_bind (by exact running)]
    simp only [Client.act, ← unlocked, Program.pure_eq, Program.exec_ret]
  · simp only [seen, long, if_false, or_self, Bool.false_eq_true]
    rw [exec_take_bind (by exact running)]
    simp only [Client.act]
    rw [queueUnlock, exec_take_bind (by exact running)]
    simp only [Client.act, ← unlocked, Program.pure_eq, Program.exec_ret]

/-- The actions that leave the store of received IDs alone. -/
def Forgets (a : Act) : Prop := ∀ type, a ≠ .queueAddMessageOnlyID type

theorem forgets_of_usual (a : Act) (h : a.Usual) : Forgets a := by
  rintro type rfl
  exact h

theorem forgets_of_making (a : Act) (h : a.Making cfg) : Forgets a := by
  rintro type rfl
  exact h

theorem forgets_of_wiring (a : Act) (h : a.Wiring) : Forgets a := by
  rintro type rfl
  exact h

/-- Programs that leave the store alone. -/
def Forgetful {α : Type} (q : Prog α) : Prop := q.Obeys Forgets Act.Truthful

theorem forgetful_rules : Program.Compositional Forgets Act.Truthful Forgetful :=
  Program.compositional_obeys

/-- All other code leaves what is remembered alone. -/
theorem exec_confirmedMessages {α : Type} {q : Prog α}
    (obeys : Forgetful q) :
    (q.exec (Client.perform .receiver) c).state.confirmedMessages = c.confirmedMessages := by
  refine Program.exec_keeps (I := fun c' : Client => c'.confirmedMessages = c.confirmedMessages)
    ?_ obeys rfl
  intro a c' same quiet
  constructor
  · intro r c'' ok
    have ok := (Client.perform_ok ok).2
    exact ⟨(Client.act_confirmedMessages ok quiet).trans same, Client.act_truthful ok⟩
  · intro c'' halt
    rw [Client.act_halt (Client.perform_halt halt).2]
    exact same

/-- Only `repetitive` remembers. -/
theorem receiverAction_forgets (msgID : Nat) (pBlocks : ProtocolBlocks) (serverResponse : Buffer)
    (repetitiveMsg : Bool) :
    Forgetful (receiverAction cfg msgID pBlocks serverResponse repetitiveMsg) := by
  have pieces : Pieces cfg Forgetful :=
    pieces_of_actions forgetful_rules (calm_of_usual forgets_of_usual) forgets_of_making
      forgets_of_wiring fun _ _ => id
  have confirm : Forgetful (handleConfirmUDP msgID) :=
    handleConfirmUDP_obeys forgetful_rules (calm_of_usual forgets_of_usual) (forgets_of_usual _ rfl)
      (fun a h _ => forgets_of_wiring a h) msgID
  apply receiverAction_obeys forgetful_rules (calm_of_usual forgets_of_usual)
    ((pieces.parts forgetful_rules (calm_of_usual forgets_of_usual)).receiver serverResponse) _ _ _
    (forgets_of_usual _ rfl) _ _ fun _ => confirm
  · intro s _ _ s' _
    simp [Forgets]
  · simp [Forgets]
  · simp [Forgets]

/-- A message that is too short for its header is not remembered. -/
theorem repetitive_forgets {pBlocks : ProtocolBlocks} {serverResponse : Buffer}
    (short : serverResponse.used < 3) : Forgetful (repetitive cfg pBlocks serverResponse) := by
  have bye : Forgetful (sendBye cfg) :=
    sendBye_obeys forgetful_rules (calm_of_usual forgets_of_usual) forgets_of_making
  have usual := forgets_of_usual
  unfold repetitive
  refine take_bind forgetful_rules (usual _ trivial) fun _ _ => ?_
  refine take_bind forgetful_rules (usual _ trivial) fun seen _ => ?_
  split
  · exact take_bind forgetful_rules (usual _ trivial) fun _ _ => forgetful_rules.ret _
  · exact errHandling_obeys forgetful_rules (calm_of_usual usual) bye _

/-- A datagram that is decoded comes to the filter and then to its handler. -/
theorem reception_exec {r : Reception} (udp : cfg.protocol = .protUDP) (handled : r.Handled)
    {d : Disassembled} (decoded : disassebleProtocolUDP r.response = .ok d)
    (seen : List SeenMessage) :
    (reception cfg r.datagram).exec (Client.perform .receiver)
        { r.client with confirmedMessages := seen } =
      (repetitive cfg d.pBlocks r.response >>=
          receiverAction cfg d.msgId d.pBlocks r.response).exec (Client.perform .receiver)
        (r.arrived seen) := by
  have started := handled.started
  unfold reception
  rw [exec_take_bind (by exact handled.running)]
  simp only [Client.act, Client.log]
  unfold handleDatagram
  rw [udp]
  have response : disassebleProtocolUDP
      (Client.receive r.client.serverResponse r.datagram) = .ok d := decoded
  simp only [response, dispatch]
  rw [getProgramState, exec_take_bind (by exact handled.running)]
  simp only [Client.act, started, false_and, if_false]
  unfold receiverFSM
  rw [udp]
  rfl

/-- **What a datagram leaves in the store.** -/
theorem after_confirmedMessages {r : Reception} (udp : cfg.protocol = .protUDP)
    (handled : r.Handled) {d : Disassembled} (decoded : disassebleProtocolUDP r.response = .ok d)
    (seen : List SeenMessage) :
    (r.after cfg seen).confirmedMessages = remember seen r.response d.pBlocks.type := by
  unfold Reception.after
  rw [reception_exec udp handled decoded]
  have running : (r.arrived seen).status = .running := handled.running
  have unlocked : (r.arrived seen).lock = none := handled.unlocked
  by_cases header : 3 ≤ r.response.used
  · have filtered : (repetitive cfg d.pBlocks r.response).exec _ (r.arrived seen) = _ :=
      repetitive_exec d.pBlocks running unlocked header
    rw [Program.exec_bind, filtered]
    exact exec_confirmedMessages (receiverAction_forgets _ _ _ _)
  · have short : r.response.used < 3 := by omega
    have kept : remember seen r.response d.pBlocks.type = seen := if_pos (Or.inr short)
    rw [kept]
    exact exec_confirmedMessages
      (forgetful_rules.bind (repetitive_forgets short) fun _ => receiverAction_forgets _ _ _ _)

/-- The handler of a MSG confirms it and prints it unless it is repetitive. -/
theorem receiverAction_msg (udp : cfg.protocol = .protUDP) (running : c.status = .running)
    (unlocked : c.lock = none) {pBlocks : ProtocolBlocks}
    (type : pBlocks.type = MsgType.msgMsg.toUChar) (named : pBlocks.zeroth.start.isSome)
    (given : pBlocks.first.start.isSome) (msgID : Nat) (serverResponse : Buffer)
    (repetitiveMsg : Bool) :
    displays ((receiverAction cfg msgID pBlocks serverResponse repetitiveMsg).exec
        (Client.perform .receiver) c).state =
      if repetitiveMsg then displays c
      else .displayed MsgType.msgMsg.toUChar (c.serverResponse.mem 1) (c.serverResponse.mem 2)
        pBlocks.zeroth.bytes pBlocks.first.bytes :: displays c := by
  obtain ⟨m, scratch, reallocs, -, confirmed⟩ :=
    lockedConfirm_exec running unlocked cfg .receiver serverResponse
  have shown : uchar2msgType pBlocks.type = .msgMsg := by rw [type]; rfl
  unfold receiverAction
  rw [shown, udp]
  simp only
  rw [Program.exec_bind, confirmed, Outcome.bind_done]
  cases repetitiveMsg with
  | true => rfl
  | false =>
    simp only [Bool.false_eq_true, if_false, wakeSender, pthreadCondSignal]
    rw [Program.exec_bind, exec_take_bind (by exact running)]
    simp only [Client.act]
    rw [exec_take (by exact running)]
    simp only [Client.act, Outcome.bind_done, printIncomingMessage,
      Option.isNone_eq_false_iff.mpr named, Option.isNone_eq_false_iff.mpr given, Bool.or_self,
      Bool.false_eq_true, if_false]
    rw [exec_take (by exact running), type]
    rfl

theorem Reception.response_bytes (r : Reception) : r.response.bytes = r.datagram :=
  Memory.read_write_self _ _ _

theorem disassebleProtocolUDP_msg {b : Buffer} {d : Disassembled}
    (h : disassebleProtocolUDP b = .ok d) :
    d.pBlocks.type = MsgType.msgMsg.toUChar ↔ b.mem 0 = MsgType.msgMsg.toUChar := by
  have known : MsgType.msgMsg ≠ .msgUnknown ∧ MsgType.msgMsg ≠ .msgCorrupted := by decide
  rw [← uchar2msgType_eq_iff known.1 known.2, disassebleProtocolUDP_type h,
    uchar2msgType_eq_iff known.1 known.2]

/-- A MSG that is decoded has both of its blocks, complete or not. -/
theorem disassebleProtocolUDP_msg_blocks {b : Buffer} {d : Disassembled}
    (h : disassebleProtocolUDP b = .ok d) (msg : b.mem 0 = MsgType.msgMsg.toUChar) :
    d.pBlocks.zeroth.start.isSome ∧ d.pBlocks.first.start.isSome := by
  have type : uchar2msgType (b.mem 0) = .msgMsg :=
    (uchar2msgType_eq_iff (by decide) (by decide)).mpr msg
  simp only [disassebleProtocolUDP, CharPtr.get, CharPtr.shift, Int.zero_add, bind, Except.bind,
    pure, Except.pure, type] at h
  repeat' split at h
  all_goals cases h
  exact ⟨rfl, rfl⟩

/-- **What a datagram prints.** One with the type MSG is printed unless it is recognised, with
whatever the decoder finds in it. -/
theorem after_displays {r : Reception} (udp : cfg.protocol = .protUDP) (handled : r.Handled)
    {low high : UInt8} (carries : r.Carries low high) {d : Disassembled}
    (decoded : disassebleProtocolUDP r.response = .ok d) (seen : List SeenMessage) :
    displays (r.after cfg seen) =
      if queueContainsMessageId seen r.response MsgType.msgMsg.toUChar then displays r.client
      else
        .displayed MsgType.msgMsg.toUChar low high d.pBlocks.zeroth.bytes d.pBlocks.first.bytes ::
          displays r.client := by
  obtain ⟨header, msg, rfl, rfl⟩ := Reception.carries_iff.mp carries
  have type : d.pBlocks.type = MsgType.msgMsg.toUChar :=
    (disassebleProtocolUDP_msg decoded).mpr msg
  obtain ⟨named, given⟩ := disassebleProtocolUDP_msg_blocks decoded msg
  have running : (r.arrived seen).status = .running := handled.running
  have unlocked : (r.arrived seen).lock = none := handled.unlocked
  have filtered : (repetitive cfg d.pBlocks r.response).exec _ (r.arrived seen) = _ :=
    repetitive_exec d.pBlocks running unlocked header
  unfold Reception.after
  rw [reception_exec udp handled decoded, Program.exec_bind, filtered, Outcome.bind_done,
    receiverAction_msg udp (by exact running) (by exact unlocked) type named given, type]
  rfl

/-- A well-formed MSG is printed with its display name and its contents. -/
theorem after_displays_msg {r : Reception} (udp : cfg.protocol = .protUDP) (handled : r.Handled)
    {low high : UInt8} {displayname contents : List UInt8}
    (msg : r.IsMsg low high displayname contents) (seen : List SeenMessage) :
    displays (r.after cfg seen) =
      if queueContainsMessageId seen r.response MsgType.msgMsg.toUChar then displays r.client
      else
        .displayed MsgType.msgMsg.toUChar low high displayname contents :: displays r.client := by
  obtain ⟨format, named, given⟩ := msg
  have bytes := r.response_bytes.trans format
  obtain ⟨d, decoded, type, fields⟩ :=
    disassebleProtocolUDP_pair (Or.inr (Or.inl rfl)) bytes named given
  have blocks : d.pBlocks.zeroth.bytes = displayname ∧ d.pBlocks.first.bytes = contents := by
    simpa [decodedFields, type] using fields
  rw [after_displays udp handled (Reception.carries_of_isMsg format) decoded, blocks.1, blocks.2]

/-- A datagram adds itself to the store, if it is a MSG and long enough. -/
theorem mem_remember_iff {r : Reception} {d : Disassembled}
    (decoded : disassebleProtocolUDP r.response = .ok d) (seen : List SeenMessage)
    (low high : UInt8) :
    ⟨high, low, MsgType.msgMsg.toUChar⟩ ∈ remember seen r.response d.pBlocks.type ↔
      ⟨high, low, MsgType.msgMsg.toUChar⟩ ∈ seen ∨ r.Carries low high := by
  rw [Reception.carries_iff, ← disassebleProtocolUDP_msg decoded]
  have used : r.response.used = r.datagram.length := rfl
  unfold remember
  split
  · rename_i known
    constructor
    · exact Or.inl
    · rintro (mem | ⟨long, type, rfl, rfl⟩)
      · exact mem
      · rcases known with known | short
        · rw [← type]
          exact ((queueContainsMessageId_iff _ _ _).mp known).1
        · omega
  · rename_i fresh
    have long : 3 ≤ r.datagram.length := by omega
    simp only [queueAddMessageOnlyID, List.mem_cons, SeenMessage.mk.injEq]
    grind

end

/-! ## Sequences of datagrams -/

/-- What is remembered after the datagrams, the first one first. -/
def seenAfter (cfg : NetworkConfig) (rs : List Reception) : List SeenMessage :=
  rs.foldl (fun seen r => (r.after cfg seen).confirmedMessages) []

/-- The store holds the MSGs that were handled, and no others. -/
theorem seenAfter_iff {cfg : NetworkConfig} (udp : cfg.protocol = .protUDP) {rs : List Reception}
    (handled : ∀ r ∈ rs, r.Handled) (low high : UInt8) :
    ⟨high, low, MsgType.msgMsg.toUChar⟩ ∈ seenAfter cfg rs ↔ ∃ r ∈ rs, r.Carries low high := by
  induction rs using List.reverseRecOn with
  | nil => simp [seenAfter]
  | append_singleton rs r ih =>
    have last : r.Handled := handled r (by simp)
    obtain ⟨d, decoded⟩ := last.decoded
    have before := ih fun e he => handled e (List.mem_append_left _ he)
    have step : seenAfter cfg (rs ++ [r]) =
        remember (seenAfter cfg rs) r.response d.pBlocks.type := by
      rw [seenAfter, List.foldl_append]
      exact after_confirmedMessages udp last decoded _
    rw [step, mem_remember_iff decoded, before]
    simp [or_and_right, exists_or]

/-- Each well-formed MSG is printed when its ID bytes are received first, and no datagram with
its type and its ID bytes is printed behind it, well formed or not; nor is it printed itself
behind a malformed one with these. -/
def ExactlyOnce (cfg : NetworkConfig) (rs : List Reception) : Prop :=
  ∀ before r later low high, rs = before ++ r :: later →
    (∀ displayname contents, r.IsMsg low high displayname contents →
      (∀ e ∈ before, ¬ e.Carries low high) →
      displays (r.after cfg (seenAfter cfg before)) =
        .displayed MsgType.msgMsg.toUChar low high displayname contents :: displays r.client) ∧
    (Reception.Again before r low high →
      displays (r.after cfg (seenAfter cfg before)) = displays r.client)

/-- No ID byte from 0x80 on comes again. -/
def NoHighRepeats (rs : List Reception) : Prop :=
  ∀ before r later low high, rs = before ++ r :: later → Reception.Again before r low high →
    low.toNat < 128 ∧ high.toNat < 128

/-- A client in the open state at which a MSG from `j` arrives. -/
def greeting (low high : UInt8) : Reception where
  client :=
    { programInterfaceInit (fun _ _ => 0xC4) ⟨some fun _ => 0, 10, 10⟩ with fsmState := .fsmOpen }
  datagram := formatUDP .msgMsg low high [ascii "j", ascii "hi"]

theorem greeting_isMsg (low high : UInt8) : (greeting low high).IsMsg low high (ascii "j")
    (ascii "hi") := ⟨rfl, by decide, by decide⟩

theorem greeting_handled (low high : UInt8) : (greeting low high).Handled := by
  obtain ⟨format, named, given⟩ := greeting_isMsg low high
  obtain ⟨d, decoded, -⟩ := disassebleProtocolUDP_pair (Or.inr (Or.inl rfl))
    ((greeting low high).response_bytes.trans format) named given
  exact ⟨rfl, rfl, by simp [greeting], d, decoded⟩

end Ipk24Chat
