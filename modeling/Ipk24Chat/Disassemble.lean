import Ipk24Chat.Protocol

/-!
# Taking received messages apart

`disassebleProtocolUDP` and `disassebleProtocolTCP`. Both leave pointers into
the receive buffer in the blocks and bound their scans by differences of
`size_t`, which wrap when a datagram is shorter than its type needs.
-/

namespace Ipk24Chat

def BytesBlock.endPtr (p : CharPtr) (len : Int) : CharPtr := p.shift len

/-- `BBLOCK_END_W_ZERO_BYTE`: the byte behind the zero that ends the block. -/
def BytesBlock.endPtrWithZeroByte (p : CharPtr) (len : Int) : CharPtr := p.shift (len + 1)

def typeIdLen : Int := 3

/-- Blocks of the message, and the message ID computed from bytes 1 and 2. -/
structure Disassembled where
  pBlocks : ProtocolBlocks
  msgId : Nat

def disassebleProtocolUDP (buffer : Buffer) : Except Failure Disassembled := do
  let data : CharPtr := ⟨buffer.mem, 0⟩
  let type := uchar2msgType (data.get 0)
  let msgId := convert2BytesToU16Int (data.get 1) (data.get 2)
  let zeroth := data.shift 3
  let blank : ProtocolBlocks :=
    ⟨type.toUChar, ⟨some zeroth, 0⟩, .null, .null, .null, false⟩
  match type with
  | .msgConf => return ⟨blank, msgId⟩
  | .msgReply =>
    let refMsgID := BytesBlock.endPtr zeroth 1
    let contents := BytesBlock.endPtr refMsgID 2
    let index ← findZeroInString contents (buffer.used - (typeIdLen + 1 + 2))
    return ⟨{ blank with
      zeroth := ⟨some zeroth, 1⟩
      first := ⟨some refMsgID, 2⟩
      second := ⟨some contents, index⟩ }, msgId⟩
  | .msgAuth =>
    let username ← findZeroInString zeroth (buffer.used - typeIdLen)
    let first := BytesBlock.endPtrWithZeroByte zeroth username
    let displayname ← findZeroInString first (buffer.used - (typeIdLen + username))
    let second := BytesBlock.endPtrWithZeroByte first displayname
    let secret ← findZeroInString second (buffer.used - (typeIdLen + username + displayname))
    return ⟨{ blank with
      zeroth := ⟨some zeroth, username⟩
      first := ⟨some first, displayname⟩
      second := ⟨some second, secret⟩ }, msgId⟩
  | .msgMsg | .msgJoin | .msgErr =>
    let len ← findZeroInString zeroth (buffer.used - typeIdLen)
    let first := BytesBlock.endPtrWithZeroByte zeroth len
    let index ← findZeroInString first (buffer.used - (typeIdLen + len))
    return ⟨{ blank with zeroth := ⟨some zeroth, len⟩, first := ⟨some first, index⟩ }, msgId⟩
  | .msgBye => return ⟨blank, msgId⟩
  | _ => return ⟨{ blank with type := MsgType.msgUnknown.toUChar }, msgId⟩

/-- A decoded datagram has the type of its first byte. -/
theorem disassebleProtocolUDP_type {b : Buffer} {d : Disassembled}
    (h : disassebleProtocolUDP b = .ok d) :
    uchar2msgType d.pBlocks.type = uchar2msgType (b.mem 0) := by
  simp only [disassebleProtocolUDP, CharPtr.get, CharPtr.shift, Int.zero_add, bind, Except.bind,
    pure, Except.pure] at h
  cases first : uchar2msgType (b.mem 0) <;> simp only [first] at h <;>
    (repeat' split at h) <;> cases h <;>
    first | rfl | exact absurd first (uchar2msgType_ne_corrupted _)

def lenOf (constString : String) : Int := (ascii constString).length

def startsWith (p : CharPtr) (constString : String) : Bool :=
  strncmpEq p (ascii constString) (ascii constString).length

/-- The branch shared by "MSG FROM " and "ERR FROM ". -/
def disassebleNamed (type : MsgType) (buffer : Buffer) (pBlocks : ProtocolBlocks) :
    ProtocolBlocks :=
  let displayname := (CharPtr.mk buffer.mem 0).shift (lenOf "MSG FROM ")
  let nameLen := findBlankCharInString displayname (buffer.used - lenOf "MSG FROM ")
  let pBlocks := { pBlocks with zeroth := ⟨some displayname, nameLen⟩ }
  if startsWith (BytesBlock.endPtr displayname nameLen) " IS " then
    let contents := displayname.shift (nameLen + lenOf " IS ")
    let index := findNewLineInString contents (buffer.used - lenOf "MSG FROM " - nameLen)
    { pBlocks with first := ⟨some contents, index⟩, type := type.toUChar }
  else { pBlocks with type := MsgType.msgCorrupted.toUChar }

/-- `pBlocks` are the blocks of the message before, which are not reset. -/
def disassebleProtocolTCP (buffer : Buffer) (pBlocks : ProtocolBlocks) : ProtocolBlocks :=
  let data : CharPtr := ⟨buffer.mem, 0⟩
  if startsWith data "MSG FROM " then disassebleNamed .msgMsg buffer pBlocks
  else if startsWith data "REPLY " then
    let result := data.shift (lenOf "REPLY ")
    let reply (len : Int) (ok : Bool) : ProtocolBlocks :=
      let contents := result.shift (len + lenOf " IS ")
      let index := findBlankCharInString contents (buffer.used - (lenOf "REPLY " + len))
      { pBlocks with
        zeroth := ⟨some result, len⟩
        second := ⟨some contents, index⟩
        msgReplyResultBool := ok
        type := MsgType.msgReply.toUChar }
    if startsWith result "OK IS " then reply 2 true
    else if startsWith result "NOK IS " then reply 3 false
    else
      { pBlocks with
        zeroth := ⟨some result, pBlocks.zeroth.len⟩
        type := MsgType.msgCorrupted.toUChar }
  else if startsWith data "BYE" then { pBlocks with type := MsgType.msgBye.toUChar }
  else if startsWith data "ERR FROM " then disassebleNamed .msgErr buffer pBlocks
  else { pBlocks with type := MsgType.msgUnknown.toUChar }

end Ipk24Chat
