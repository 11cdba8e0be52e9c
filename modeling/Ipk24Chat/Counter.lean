import Ipk24Chat.Execution
import Ipk24Chat.MessageId

/-!
# The counter behind a CONFIRM

A message is labelled with the counter, the server sends the two ID bytes back, and
the counter is set from what is read there.
-/

namespace Ipk24Chat

/-- Reading the two bytes of a number gives the number again only if its low byte is a
nonnegative `char`. -/
theorem convert_break_iff {v : Nat} (small : v < 65536) :
    convert2BytesToU16Int (breakU16IntToBytes v).2 (breakU16IntToBytes v).1 = v ↔
      v % 256 < 128 := by
  have low : (UInt8.ofNat (v % 256)).toNat = v % 256 := by
    simp
  have high : (UInt8.ofNat (v / 256)).toNat = v / 256 := by
    simpa using Nat.mod_eq_of_lt (by omega : v / 256 < 256)
  simp only [breakU16IntToBytes, convert2BytesToU16Int, schar, low, high]
  split <;> split <;> omega

/-- The head is labelled with the counter. -/
def Client.labelHead (c : Client) : Client :=
  { c with sendingQueue := c.sendingQueue.setMessageID c.comDetails.msgCounter }

/-- The label reads as the counter, and a CONFIRM with the same two ID bytes advances
the counter by one. -/
def AdvancesByOne (c : Client) : Prop :=
  c.labelHead.sendingQueue.getMessageID = c.comDetails.msgCounter ∧
    ∀ rx : Buffer, rx.mem 0 = MsgType.msgConf.toUChar →
      (∀ m ∈ c.labelHead.sendingQueue.head?,
        rx.mem 1 = m.lowMsgIdByte ∧ rx.mem 2 = m.highMsgIdByte) →
      ∃ d c', disassebleProtocolUDP rx = .ok d ∧
        (handleConfirmUDP d.msgId).exec (Client.perform .receiver)
          { c.labelHead with serverResponse := rx } = .done () c' ∧
        c'.comDetails.msgCounter = (c.comDetails.msgCounter + 1) % 65536

theorem advancesByOne_iff {c : Client} (running : c.status = .running) (unlocked : c.lock = none)
    (small : c.comDetails.msgCounter < 65536) {m : Message} {rest : MessageQueue}
    (queue : c.sendingQueue = m :: rest) (long : 3 ≤ m.buffer.length)
    (own : m.msgFlags ≠ .msgFlagConfirm ∧ m.msgFlags ≠ .msgFlagNokReply) :
    AdvancesByOne c ↔ c.comDetails.msgCounter % 256 < 128 := by
  generalize counter : c.comDetails.msgCounter = v at small ⊢
  have labelled : c.labelHead.sendingQueue = m.setMsgID v :: rest := by
    simp only [Client.labelHead, queue, MessageQueue.setMessageID, if_pos own, counter]
  have carries : (m.setMsgID v).Carries v := Message.carries_setMsgID long
  have bytes := carries
  simp only [Message.Carries, breakU16IntToBytes, Prod.mk.injEq] at bytes
  have id : (m.setMsgID v).msgID =
      convert2BytesToU16Int (breakU16IntToBytes v).2 (breakU16IntToBytes v).1 := by
    simp only [Message.msgID, bytes, breakU16IntToBytes]
  unfold AdvancesByOne
  rw [labelled, counter, MessageQueue.getMessageID, id, convert_break_iff small]
  constructor
  · exact fun advances => advances.1
  · intro readable
    refine ⟨readable, fun rx conf echoed => ?_⟩
    obtain ⟨low, high⟩ := echoed _ rfl
    have decoded : disassebleProtocolUDP rx = .ok
        ⟨⟨MsgType.msgConf.toUChar, ⟨some ⟨rx.mem, 3⟩, 0⟩, .null, .null, .null, false⟩, v⟩ := by
      have same : convert2BytesToU16Int (rx.mem 1) (rx.mem 2) = v := by
        rw [low, high]
        exact id.trans ((convert_break_iff small).mpr readable)
      simp only [disassebleProtocolUDP, CharPtr.get, CharPtr.shift, Int.zero_add, conf,
        uchar2msgType_toUChar, same]
      rfl
    refine ⟨_, _, decoded, handleConfirmUDP_exec (c := { c.labelHead with serverResponse := rx })
      running unlocked .receiver v, ?_⟩
    have same : (m.setMsgID v).msgID = v := id.trans ((convert_break_iff small).mpr readable)
    simp [Client.confirmHead, labelled, same]

/-- A client whose counter is `v`, with a BYE in the queue. -/
def withCounter (v : Nat) : Client :=
  { programInterfaceInit (fun _ _ => 0xC4) .init with
    sendingQueue := [⟨0, [0xFF, 0, 0], 0, false, 0xFF, .msgFlagBye⟩]
    comDetails := ⟨.init, .init, v⟩ }

theorem advancesByOne_five : AdvancesByOne (withCounter 5) :=
  (advancesByOne_iff rfl rfl (by decide) rfl (by decide) (by decide)).mpr (by decide)

/-- The label 128 is read as 65408. -/
theorem not_advancesByOne_low : ¬ AdvancesByOne (withCounter 128) := by
  intro advances
  have label : (withCounter 128).labelHead.sendingQueue.getMessageID = 65408 := by decide
  rw [AdvancesByOne, label] at advances
  cases advances.1

end Ipk24Chat
