import Ipk24Chat.Confirm
import Ipk24Chat.ReplyGate

/-!
# Which CONFIRM confirms the head

The ID of a CONFIRM is compared with the one in the buffer of the message at the head, as
numbers that are computed from two signed characters each.

* `confirmHead_own`, `confirmHead_foreign`: the head is confirmed, or nothing happens;
* `confirm_exact`: the comparison is exact on the bytes, but for an AUTH.
-/

namespace Ipk24Chat

/-- A CONFIRM with these ID bytes, and whatever the datagram has behind them. -/
def confirmDatagram (low high : UInt8) (behind : List UInt8) : List UInt8 :=
  MsgType.msgConf.toUChar :: low :: high :: behind

/-- The ID bytes that are stored in the buffer of the message. -/
def Message.HasID (m : Message) (low high : UInt8) : Prop :=
  m.lowMsgIdByte = low ∧ m.highMsgIdByte = high

/-- On the way from `c` to `c'` the head of the queue became confirmed. -/
structure HeadConfirmed (c c' : Client) (m : Message) : Prop where
  head : c'.sendingQueue.head? = some { m with confirmed := true }
  event : ∃ low high, c'.history = .confirmed m low high :: c.history

/-- There is no head, or it has another ID. -/
def Foreign (queue : MessageQueue) (low high : UInt8) : Prop :=
  ∀ m rest, queue = m :: rest → ¬ m.HasID low high

structure LeftAlone (c c' : Client) : Prop where
  queue : c'.sendingQueue = c.sendingQueue
  msgCounter : c'.comDetails.msgCounter = c.comDetails.msgCounter
  state : c'.fsmState = c.fsmState

section
variable {c : Client} {m : Message} {rest : MessageQueue} {low high : UInt8}

/-- The two sides are computed alike, and the bytes can be read back from the number. -/
theorem msgID_eq_iff : convert2BytesToU16Int low high = m.msgID ↔ m.HasID low high := by
  unfold Message.msgID Message.HasID
  constructor
  · intro same
    obtain ⟨lows, highs⟩ := convert2BytesToU16Int_inj same
    exact ⟨lows.symm, highs.symm⟩
  · rintro ⟨rfl, rfl⟩
    rfl

theorem confirmHead_own (queue : c.sendingQueue = m :: rest)
    (own : m.HasID low high ∨ m.type = MsgType.msgAuth.toUChar) :
    HeadConfirmed c (c.confirmHead (convert2BytesToU16Int low high)) m := by
  have accepted : ¬ (convert2BytesToU16Int low high ≠ m.msgID ∧
      m.type ≠ MsgType.msgAuth.toUChar) := by
    rintro ⟨other, type⟩
    exact own.elim (fun same => other (msgID_eq_iff.mpr same)) type
  unfold Client.confirmHead
  rw [queue]
  simp only [if_neg accepted]
  exact ⟨by simp [MessageQueue.confirm], _, _, rfl⟩

theorem confirmHead_foreign (foreign : Foreign c.sendingQueue low high)
    (other : ∀ m rest, c.sendingQueue = m :: rest → m.type ≠ MsgType.msgAuth.toUChar) :
    c.confirmHead (convert2BytesToU16Int low high) = c := by
  unfold Client.confirmHead
  cases queue : c.sendingQueue with
  | nil => rfl
  | cons m rest =>
    exact if_pos ⟨fun same => foreign m rest queue (msgID_eq_iff.mp same), other m rest queue⟩

/-- What is decoded from a received CONFIRM. -/
theorem receiving_confirm (c : Client) (low high : UInt8) (behind : List UInt8) :
    ∃ d, disassebleProtocolUDP (c.receiving (confirmDatagram low high behind)).serverResponse =
        .ok d ∧ uchar2msgType d.pBlocks.type = .msgConf ∧
      d.msgId = convert2BytesToU16Int low high := by
  obtain ⟨type, first, second⟩ := receiving_header c MsgType.msgConf.toUChar low high behind
  have header : uchar2msgType ((CharPtr.mk
      (c.receiving (confirmDatagram low high behind)).serverResponse.mem 0).get 0) = .msgConf := by
    simp only [CharPtr.get, Int.add_zero, confirmDatagram, type]
    rfl
  obtain ⟨d, decoded, conf⟩ : ∃ d, disassebleProtocolUDP
      (c.receiving (confirmDatagram low high behind)).serverResponse = .ok d ∧
        uchar2msgType d.pBlocks.type = .msgConf := by
    unfold disassebleProtocolUDP
    simp only [header]
    exact ⟨_, rfl, rfl⟩
  refine ⟨d, decoded, conf, ?_⟩
  rw [disassebleProtocolUDP_msgId decoded]
  exact congrArg₂ convert2BytesToU16Int first second

end

/-- **A CONFIRM is matched exactly on its bytes.** In every state and for every queue, a
received CONFIRM confirms a head that is no AUTH exactly if it carries the two bytes that are
stored in the head. With other bytes, or without a head, nothing is changed. -/
theorem confirm_exact {c : Client} (running : c.status = .running) (unlocked : c.lock = none)
    (low high : UInt8) (behind : List UInt8) :
    ∃ d c', disassebleProtocolUDP
          (c.receiving (confirmDatagram low high behind)).serverResponse = .ok d ∧
        uchar2msgType d.pBlocks.type = .msgConf ∧
      (handleConfirmUDP d.msgId).exec (Client.perform .receiver)
        (c.receiving (confirmDatagram low high behind)) = .done () c' ∧
      (∀ m rest, c.sendingQueue = m :: rest → m.type ≠ MsgType.msgAuth.toUChar →
        (HeadConfirmed c c' m ↔ m.HasID low high)) ∧
      (Foreign c.sendingQueue low high →
        (∀ m rest, c.sendingQueue = m :: rest → m.type ≠ MsgType.msgAuth.toUChar) →
        LeftAlone c c') := by
  obtain ⟨d, decoded, conf, id⟩ := receiving_confirm c low high behind
  have run := handleConfirmUDP_exec (c := c.receiving (confirmDatagram low high behind)) running
    unlocked .receiver d.msgId
  refine ⟨d, _, decoded, conf, run, fun m rest queue type => ?_, fun foreign other => ?_⟩
  all_goals rw [id]
  · constructor
    · intro confirmed
      by_contra other
      have foreign : Foreign c.sendingQueue low high := fun m' rest' queue' => by
        rw [queue] at queue'
        cases queue'
        exact other
      have same := confirmHead_foreign (c := c.receiving (confirmDatagram low high behind)) foreign
        fun m' rest' queue' => by
          rw [Client.receiving, queue] at queue'
          cases queue'
          exact type
      obtain ⟨low', high', event⟩ := confirmed.event
      rw [same] at event
      exact absurd (congrArg List.length event) (by simp [Client.receiving])
    · intro own
      have confirmed := confirmHead_own (c := c.receiving (confirmDatagram low high behind)) queue
        (Or.inl own)
      exact ⟨confirmed.head, confirmed.event⟩
  · rw [confirmHead_foreign (c := c.receiving (confirmDatagram low high behind)) foreign other]
    exact ⟨rfl, rfl, rfl⟩

/-- A client with one message in its queue, which was sent with the ID bytes 7 0. -/
def sentOnly (type : MsgType) (state : Fsm) : Client :=
  { programInterfaceInit (fun _ _ => 0xC4) ⟨some fun _ => 0, 10, 10⟩ with
    fsmState := state
    sendingQueue := [⟨0, [type.toUChar, 7, 0], 1, false, type.toUChar, .msgFlagNone⟩]
    nextUid := 1 }

/-- The CONFIRM 0 7 0 confirms a MSG that was sent with these bytes. -/
theorem confirm_exact_msg :
    ∃ d c', disassebleProtocolUDP
          ((sentOnly .msgMsg .fsmOpen).receiving (confirmDatagram 7 0 [])).serverResponse = .ok d ∧
      (handleConfirmUDP d.msgId).exec (Client.perform .receiver)
        ((sentOnly .msgMsg .fsmOpen).receiving (confirmDatagram 7 0 [])) = .done () c' ∧
      HeadConfirmed (sentOnly .msgMsg .fsmOpen) c'
        ⟨0, [MsgType.msgMsg.toUChar, 7, 0], 1, false, MsgType.msgMsg.toUChar, .msgFlagNone⟩ := by
  obtain ⟨d, c', decoded, -, run, confirms, -⟩ :=
    confirm_exact (c := sentOnly .msgMsg .fsmOpen) rfl rfl 7 0 []
  exact ⟨d, c', decoded, run, (confirms _ [] rfl (by decide)).mpr ⟨rfl, rfl⟩⟩

/-- An AUTH that was sent with the ID bytes 7 0 is confirmed by the CONFIRM 0 5 0. -/
theorem confirm_auth_foreign :
    Foreign (sentOnly .msgAuth .fsmAuthSended).sendingQueue 5 0 ∧
      ∃ d c', disassebleProtocolUDP
            ((sentOnly .msgAuth .fsmAuthSended).receiving (confirmDatagram 5 0 [])).serverResponse =
          .ok d ∧
        (handleConfirmUDP d.msgId).exec (Client.perform .receiver)
          ((sentOnly .msgAuth .fsmAuthSended).receiving (confirmDatagram 5 0 [])) = .done () c' ∧
        ¬ LeftAlone (sentOnly .msgAuth .fsmAuthSended) c' := by
  constructor
  · intro m rest queue
    cases queue
    exact fun own => absurd own.1 (by decide)
  · refine ⟨_, _, rfl, handleConfirmUDP_exec rfl rfl .receiver _, fun same => ?_⟩
    exact absurd same.state (by decide +kernel)

end Ipk24Chat
