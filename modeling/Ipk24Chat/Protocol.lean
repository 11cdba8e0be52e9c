import Ipk24Chat.Buffer

/-!
# Message formats

The structures of `ipk24protocol.h`, the message types and flags of
`msgQueue.h`, and the two encoders of `ipk24protocol.c`.
-/

namespace Ipk24Chat

inductive MsgFlags where
  | msgFlagNone
  | msgFlagDoNotResend
  | msgFlagNokReply
  | msgFlagAuth
  | msgFlagRejected
  | msgFlagConfirmed
  | msgFlagErr
  | msgFlagConfirm
  | msgFlagBye
  deriving DecidableEq, Repr

inductive MsgType where
  | msgConf
  | msgReply
  | msgAuth
  | msgJoin
  | msgMsg
  | msgErr
  | msgBye
  | msgUnknown
  | msgCorrupted
  deriving DecidableEq, Repr

def MsgType.toUChar : MsgType → UInt8
  | .msgConf => 0x00
  | .msgReply => 0x01
  | .msgAuth => 0x02
  | .msgJoin => 0x03
  | .msgMsg => 0x04
  | .msgErr => 0xFE
  | .msgBye => 0xFF
  | .msgUnknown => 0xAA
  | .msgCorrupted => 0xAB

def uchar2msgType (input : UInt8) : MsgType :=
  match input.toNat with
  | 0x00 => .msgConf
  | 0x01 => .msgReply
  | 0x02 => .msgAuth
  | 0x03 => .msgJoin
  | 0x04 => .msgMsg
  | 0xFE => .msgErr
  | 0xFF => .msgBye
  | _ => .msgUnknown

/-- A corrupted message is not a type of its own on the wire. -/
@[simp] theorem uchar2msgType_toUChar (t : MsgType) :
    uchar2msgType t.toUChar = if t = .msgCorrupted then .msgUnknown else t := by
  cases t <;> rfl

/-- Only unknown types are read as the same. -/
theorem eq_toUChar_of_uchar2msgType {input : UInt8} {t : MsgType} (h : uchar2msgType input = t)
    (known : t ≠ .msgUnknown) : input = t.toUChar := by
  apply UInt8.toNat_inj.mp
  unfold uchar2msgType at h
  split at h <;> subst h <;> first | assumption | exact absurd rfl known

theorem uchar2msgType_ne_corrupted (input : UInt8) : uchar2msgType input ≠ .msgCorrupted := by
  unfold uchar2msgType
  split <;> nofun

theorem uchar2msgType_eq_iff {input : UInt8} {t : MsgType} (known : t ≠ .msgUnknown)
    (sent : t ≠ .msgCorrupted) : uchar2msgType input = t ↔ input = t.toUChar := by
  constructor
  · exact fun h => eq_toUChar_of_uchar2msgType h known
  · rintro rfl
    rw [uchar2msgType_toUChar, if_neg sent]

inductive Protocols where
  | protUDP
  | protTCP
  deriving DecidableEq, Repr

/-- What the client tells about itself: the stored names, and the counter its
message IDs are taken from. -/
structure CommunicationDetails where
  displayName : Buffer
  channelID : Buffer
  msgCounter : Nat

/-- The four blocks a message is taken apart into. The C unions give each block
a name per message; `msgReplyResultBool` shares its storage with `third`. -/
structure ProtocolBlocks where
  type : UInt8
  zeroth : BytesBlock
  first : BytesBlock
  second : BytesBlock
  third : BytesBlock
  msgReplyResultBool : Bool

namespace ProtocolBlocks

/-- `resetProtocolBlocks`, with the type the caller sets next. -/
def reset (type : UInt8) : ProtocolBlocks :=
  ⟨type, .null, .null, .null, .null, false⟩

abbrev cmdCommand (b : ProtocolBlocks) := b.zeroth
abbrev cmdMsgMsgContents (b : ProtocolBlocks) := b.zeroth
abbrev cmdErrMsgContents (b : ProtocolBlocks) := b.zeroth
abbrev cmdConfLowMsgID (b : ProtocolBlocks) := b.zeroth
abbrev msgReplyResult (b : ProtocolBlocks) := b.zeroth
abbrev msgAuthUsername (b : ProtocolBlocks) := b.zeroth
abbrev msgJoinChannelID (b : ProtocolBlocks) := b.zeroth
abbrev msgMsgDisplayname (b : ProtocolBlocks) := b.zeroth
abbrev msgErrDisplayname (b : ProtocolBlocks) := b.zeroth

abbrev cmdAuthUsername (b : ProtocolBlocks) := b.first
abbrev cmdJoinChannelID (b : ProtocolBlocks) := b.first
abbrev cmdRenameDisplayname (b : ProtocolBlocks) := b.first
abbrev cmdConfHighMsgID (b : ProtocolBlocks) := b.first
abbrev msgReplyRefMsgID (b : ProtocolBlocks) := b.first
abbrev msgAuthDisplayname (b : ProtocolBlocks) := b.first
abbrev msgJoinDisplayname (b : ProtocolBlocks) := b.first
abbrev msgMsgMsgContents (b : ProtocolBlocks) := b.first
abbrev msgErrMsgContents (b : ProtocolBlocks) := b.first

abbrev cmdAuthSecret (b : ProtocolBlocks) := b.second
abbrev msgReplyMsgContents (b : ProtocolBlocks) := b.second
abbrev msgAuthSecret (b : ProtocolBlocks) := b.second

abbrev cmdAuthDisplayname (b : ProtocolBlocks) := b.third

end ProtocolBlocks

/-! ## Writing a message -/

/-- The bytes written so far and the position counter `ptrPos` behind them. -/
structure Cursor where
  data : Memory
  ptrPos : Nat

namespace Cursor

def addBlock (c : Cursor) (src : BytesBlock) : Cursor :=
  ⟨stringReplace c.data c.ptrPos src.start src.len, c.ptrPos + unsigned src.len⟩

def addZeroByte (c : Cursor) : Cursor := ⟨c.data.write c.ptrPos [0], c.ptrPos + 1⟩

def addStoredInfo (c : Cursor) (src : Buffer) : Cursor :=
  ⟨stringReplace c.data c.ptrPos src.ptr src.used, c.ptrPos + src.used⟩

def addString (c : Cursor) (string : String) : Cursor :=
  ⟨c.data.write c.ptrPos (ascii string), c.ptrPos + (ascii string).length⟩

/-- Everything up to the position counter. -/
def taken (c : Cursor) : List UInt8 := c.data.read 0 c.ptrPos

end Cursor

/-- Result of an encoder that returns: whether the message can be sent, the
blocks with their new type, the buffer, and what it printed on stderr. -/
structure Assembled where
  canBeSended : Bool
  pBlocks : ProtocolBlocks
  buffer : Buffer
  stderr : Option String

/-- The buffer of a message that was refused halfway: bytes written, `used` not. -/
def Assembled.refused (text : String) (pBlocks : ProtocolBlocks) (buffer : Buffer)
    (c : Cursor) : Assembled :=
  ⟨false, pBlocks, { buffer with data := some c.data }, some text⟩

def Assembled.complete (type : MsgType) (pBlocks : ProtocolBlocks) (buffer : Buffer)
    (c : Cursor) : Assembled :=
  ⟨true, { pBlocks with type := type.toUChar },
    { buffer with data := some c.data, used := c.ptrPos }, none⟩

def cannotJoinText : String :=
  "System: Displayname not provided, cannot join! Use /help for help.\n"

def noNameText : String :=
  "System: ChannelID not provided, cannot rename!" ++
    "(Did you use /auth before this commands?). Use /help for help.\n"

/-- Sum of the block lengths, the base of both size estimates. -/
def ProtocolBlocks.totalLen (b : ProtocolBlocks) : Int :=
  b.zeroth.len + b.first.len + b.second.len + b.third.len

/-- The type byte; the two message ID bytes behind it are skipped, the sender
sets them right before sending. -/
def headerUDP (type : MsgType) (buffer : Buffer) : Cursor :=
  ⟨buffer.mem.write 0 [type.toUChar], 3⟩

def assembleProtocolUDP (fresh : Memory) (pBlocks : ProtocolBlocks) (buffer : Buffer)
    (comDetails : CommunicationDetails) : Except Failure Assembled :=
  let expectedSize := pBlocks.totalLen + 10
  let buffer := bufferResize fresh buffer expectedSize
  -- cmd_ERR and cmd_MSG share one branch
  let textMessage (type : MsgType) : Assembled :=
    let buffer := bufferResize fresh buffer (expectedSize + comDetails.displayName.used)
    let c := headerUDP type buffer
    if comDetails.displayName.data.isNone then .refused noNameText pBlocks buffer c
    else
      let c := c.addStoredInfo comDetails.displayName |>.addZeroByte
        |>.addBlock pBlocks.cmdMsgMsgContents |>.addZeroByte
      .complete type pBlocks buffer c
  match uchar2CommandType pBlocks.type with
  | .cmdAuth =>
    let c := (headerUDP .msgAuth buffer).addBlock pBlocks.cmdAuthUsername |>.addZeroByte
      |>.addBlock pBlocks.cmdAuthDisplayname |>.addZeroByte
      |>.addBlock pBlocks.cmdAuthSecret |>.addZeroByte
    .ok (.complete .msgAuth pBlocks buffer c)
  | .cmdJoin =>
    -- the stored channel ID is counted here, not the display name that is written
    let buffer := bufferResize fresh buffer (expectedSize + comDetails.channelID.used)
    let c := (headerUDP .msgJoin buffer).addBlock pBlocks.cmdJoinChannelID |>.addZeroByte
    if comDetails.displayName.data.isNone then .ok (.refused cannotJoinText pBlocks buffer c)
    else
      let c := c.addStoredInfo comDetails.displayName |>.addZeroByte
      .ok (.complete .msgJoin pBlocks buffer c)
  | .cmdErr => .ok (textMessage .msgErr)
  | .cmdMsg => .ok (textMessage .msgMsg)
  | .cmdConf =>
    let low := (pBlocks.cmdConfLowMsgID.start.map (·.get 0)).getD 0
    let high := (pBlocks.cmdConfHighMsgID.start.map (·.get 0)).getD 0
    let c : Cursor := ⟨buffer.mem.write 0 [MsgType.msgConf.toUChar, low, high], 3⟩
    .ok (.complete .msgConf pBlocks buffer c)
  | .cmdExit => .ok (.complete .msgBye pBlocks buffer (headerUDP .msgBye buffer))
  | _ =>
    .error ⟨"Unknown command type in assembleProtocolUDP() function", .errInternalBadArg⟩

def assembleProtocolTCP (fresh : Memory) (pBlocks : ProtocolBlocks) (buffer : Buffer)
    (comDetails : CommunicationDetails) : Except Failure Assembled :=
  let expectedSize := pBlocks.totalLen + 1
  -- the last 2 are "\r\n"
  let resized (extra : Int) : Buffer := bufferResize fresh buffer (expectedSize + extra + 2)
  let textMessage (type : MsgType) (title : String) : Assembled :=
    let buffer := resized (9 + 4 + comDetails.displayName.used)
    let c : Cursor := ⟨buffer.mem, 0⟩
    if comDetails.displayName.data.isNone then .refused noNameText pBlocks buffer c
    else
      let c := c.addString title |>.addStoredInfo comDetails.displayName
        |>.addString " IS " |>.addBlock pBlocks.cmdMsgMsgContents |>.addString "\r\n"
      .complete type pBlocks buffer c
  match uchar2CommandType pBlocks.type with
  | .cmdAuth =>
    let buffer := resized (5 + 4 + 7)
    let c := (Cursor.mk buffer.mem 0).addString "AUTH " |>.addBlock pBlocks.cmdAuthUsername
      |>.addString " AS " |>.addBlock pBlocks.cmdAuthDisplayname
      |>.addString " USING " |>.addBlock pBlocks.cmdAuthSecret |>.addString "\r\n"
    .ok (.complete .msgAuth pBlocks buffer c)
  | .cmdMsg => .ok (textMessage .msgMsg "MSG FROM ")
  | .cmdErr => .ok (textMessage .msgErr "ERR FROM ")
  | .cmdJoin =>
    let buffer := resized (5 + 4 + comDetails.channelID.used)
    let c : Cursor := ⟨buffer.mem, 0⟩
    if comDetails.displayName.data.isNone then .ok (.refused cannotJoinText pBlocks buffer c)
    else
      let c := c.addString "JOIN " |>.addStoredInfo comDetails.channelID
        |>.addString " AS " |>.addStoredInfo comDetails.displayName |>.addString "\r\n"
      .ok (.complete .msgJoin pBlocks buffer c)
  | .cmdExit =>
    let buffer := resized 3
    let c := (Cursor.mk buffer.mem 0).addString "BYE" |>.addString "\r\n"
    .ok (.complete .msgBye pBlocks buffer c)
  | _ =>
    .error ⟨"Unknown command type in assembleProtocolUDP() function", .errInternalBadArg⟩

/-- The encoder of the variant. -/
def assemble (fresh : Memory) (protocol : Protocols) (pBlocks : ProtocolBlocks) (buffer : Buffer)
    (comDetails : CommunicationDetails) : Except Failure Assembled :=
  match protocol with
  | .protUDP => assembleProtocolUDP fresh pBlocks buffer comDetails
  | .protTCP => assembleProtocolTCP fresh pBlocks buffer comDetails

end Ipk24Chat
