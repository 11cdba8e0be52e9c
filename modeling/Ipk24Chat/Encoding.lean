import Ipk24Chat.Disassemble

/-!
# What the encoders write

The fields of a message and the two wire formats, stated on byte strings. The
encoders write exactly these strings, whatever the buffer held before.

* `assembleProtocolUDP_bytes`, `assembleProtocolTCP_bytes`: the bytes of an
  AUTH, JOIN, MSG or ERR;
* `assembleProtocolUDP_exit`, `assembleProtocolTCP_exit`: the bytes of a BYE.
-/

namespace Ipk24Chat

/-- The message a command is sent as, for commands with fields. -/
def CommandType.message : CommandType → Option MsgType
  | .cmdAuth => some .msgAuth
  | .cmdJoin => some .msgJoin
  | .cmdMsg => some .msgMsg
  | .cmdErr => some .msgErr
  | _ => none

/-- The fields an encoder is given, in the order of the message. The channel of
a JOIN is taken from the line in one variant and from the store in the other. -/
def encodedFields (protocol : Protocols) (pBlocks : ProtocolBlocks) (com : CommunicationDetails) :
    List (List UInt8) :=
  match uchar2CommandType pBlocks.type with
  | .cmdAuth =>
    [pBlocks.cmdAuthUsername.bytes, pBlocks.cmdAuthDisplayname.bytes, pBlocks.cmdAuthSecret.bytes]
  | .cmdJoin =>
    match protocol with
    | .protUDP => [pBlocks.cmdJoinChannelID.bytes, com.displayName.bytes]
    | .protTCP => [com.channelID.bytes, com.displayName.bytes]
  | .cmdMsg | .cmdErr => [com.displayName.bytes, pBlocks.cmdMsgMsgContents.bytes]
  | _ => []

/-- The fields a decoder found. -/
def decodedFields (pBlocks : ProtocolBlocks) : List (List UInt8) :=
  match uchar2msgType pBlocks.type with
  | .msgAuth =>
    [pBlocks.msgAuthUsername.bytes, pBlocks.msgAuthDisplayname.bytes, pBlocks.msgAuthSecret.bytes]
  | .msgJoin => [pBlocks.msgJoinChannelID.bytes, pBlocks.msgJoinDisplayname.bytes]
  | .msgMsg | .msgErr => [pBlocks.msgMsgDisplayname.bytes, pBlocks.msgMsgMsgContents.bytes]
  | _ => []

/-- Each field followed by a zero byte. -/
def terminated (fields : List (List UInt8)) : List UInt8 := fields.flatMap (· ++ [0])

def formatUDP (type : MsgType) (low high : UInt8) (fields : List (List UInt8)) : List UInt8 :=
  type.toUChar :: low :: high :: terminated fields

def formatTCP (type : MsgType) (fields : List (List UInt8)) : List UInt8 :=
  match type, fields with
  | .msgAuth, [username, displayname, secret] =>
    ascii "AUTH " ++ username ++ ascii " AS " ++ displayname ++ ascii " USING " ++ secret ++
      ascii "\r\n"
  | .msgJoin, [channelID, displayname] =>
    ascii "JOIN " ++ channelID ++ ascii " AS " ++ displayname ++ ascii "\r\n"
  | .msgMsg, [displayname, contents] =>
    ascii "MSG FROM " ++ displayname ++ ascii " IS " ++ contents ++ ascii "\r\n"
  | .msgErr, [displayname, contents] =>
    ascii "ERR FROM " ++ displayname ++ ascii " IS " ++ contents ++ ascii "\r\n"
  | .msgBye, [] => ascii "BYE" ++ ascii "\r\n"
  | _, _ => []

/-! ## Writing behind the position counter -/

namespace Cursor
variable (c : Cursor)

@[simp] theorem length_taken : c.taken.length = c.ptrPos := by simp [taken]

/-- Writing `bytes` at the counter and moving it behind them appends them. -/
theorem taken_write (bytes : List UInt8) {n : Nat} (len : n = bytes.length) :
    (Cursor.mk (c.data.write c.ptrPos bytes) (c.ptrPos + n)).taken = c.taken ++ bytes := by
  subst len
  have append := Memory.read_write_append c.data 0 c.ptrPos bytes
  simpa [taken] using append

theorem taken_addBlock {src : BytesBlock} (given : src.start.isSome) :
    (c.addBlock src).taken = c.taken ++ src.bytes := by
  obtain ⟨start, len⟩ := src
  cases start with
  | none => simp at given
  | some p => exact c.taken_write (p.read (unsigned len)) (by simp [CharPtr.read])

theorem taken_addZeroByte : c.addZeroByte.taken = c.taken ++ [0] :=
  c.taken_write [0] rfl

theorem taken_addStoredInfo {src : Buffer} (given : src.data.isSome) :
    (c.addStoredInfo src).taken = c.taken ++ src.bytes := by
  obtain ⟨data, allocated, used⟩ := src
  cases data with
  | none => simp at given
  | some m =>
    have write := c.taken_write (m.read 0 used) (n := used) (by simp)
    simpa [addStoredInfo, stringReplace, Buffer.ptr, Buffer.bytes, Buffer.mem, CharPtr.read]
      using write

theorem taken_addString (s : String) : (c.addString s).taken = c.taken ++ ascii s :=
  c.taken_write (ascii s) rfl

end Cursor

theorem taken_headerUDP (type : MsgType) (b : Buffer) :
    (headerUDP type b).taken = [type.toUChar, b.mem 1, b.mem 2] := by
  simp [headerUDP, Cursor.taken, Memory.read_cons, Memory.write]

theorem taken_start (m : Memory) : (Cursor.mk m 0).taken = [] := rfl

theorem Assembled.complete_bytes (type : MsgType) (p : ProtocolBlocks) (b : Buffer) (c : Cursor) :
    (Assembled.complete type p b c).buffer.bytes = c.taken := rfl

/-! ## The bytes of a message -/

/-- Every field of the command is there: no NULL stands for one. -/
def Given (protocol : Protocols) (pBlocks : ProtocolBlocks) (com : CommunicationDetails) : Prop :=
  match uchar2CommandType pBlocks.type with
  | .cmdAuth =>
    pBlocks.cmdAuthUsername.start.isSome ∧ pBlocks.cmdAuthDisplayname.start.isSome ∧
      pBlocks.cmdAuthSecret.start.isSome
  | .cmdJoin =>
    com.displayName.data.isSome ∧
      match protocol with
      | .protUDP => pBlocks.cmdJoinChannelID.start.isSome
      | .protTCP => com.channelID.data.isSome
  | .cmdMsg | .cmdErr =>
    com.displayName.data.isSome ∧ pBlocks.cmdMsgMsgContents.start.isSome
  | _ => True

section
variable {fresh : Memory} {pBlocks : ProtocolBlocks} {buffer : Buffer}
  {com : CommunicationDetails} {type : MsgType}

theorem assembleProtocolUDP_bytes (fresh : Memory) (buffer : Buffer)
    (command : (uchar2CommandType pBlocks.type).message = some type)
    (given : Given .protUDP pBlocks com) :
    ∃ b c, assembleProtocolUDP fresh pBlocks buffer com = .ok (.complete type pBlocks b c) ∧
      c.taken = formatUDP type (b.mem 1) (b.mem 2) (encodedFields .protUDP pBlocks com) := by
  have header (type : MsgType) (b : Buffer) (fields : List (List UInt8)) :
      (headerUDP type b).taken ++ terminated fields =
        formatUDP type (b.mem 1) (b.mem 2) fields := by
    rw [taken_headerUDP]
    rfl
  unfold encodedFields
  unfold Given at given
  unfold assembleProtocolUDP
  cases cmd : uchar2CommandType pBlocks.type <;> simp only [cmd, CommandType.message] at command <;>
    cases command <;> simp only [cmd] at given ⊢
  case cmdAuth =>
    obtain ⟨username, displayname, secret⟩ := given
    refine ⟨_, _, rfl, ?_⟩
    rw [← header, Cursor.taken_addZeroByte, Cursor.taken_addBlock _ secret,
      Cursor.taken_addZeroByte, Cursor.taken_addBlock _ displayname, Cursor.taken_addZeroByte,
      Cursor.taken_addBlock _ username]
    simp [terminated]
  case cmdJoin =>
    obtain ⟨displayname, channelID⟩ := given
    rw [Option.isNone_eq_false_iff.mpr displayname]
    refine ⟨_, _, rfl, ?_⟩
    rw [← header, Cursor.taken_addZeroByte, Cursor.taken_addStoredInfo _ displayname,
      Cursor.taken_addZeroByte, Cursor.taken_addBlock _ channelID]
    simp [terminated]
  all_goals
    obtain ⟨displayname, contents⟩ := given
    rw [Option.isNone_eq_false_iff.mpr displayname]
    refine ⟨_, _, rfl, ?_⟩
    rw [← header, Cursor.taken_addZeroByte, Cursor.taken_addBlock _ contents,
      Cursor.taken_addZeroByte, Cursor.taken_addStoredInfo _ displayname]
    simp [terminated]

theorem assembleProtocolTCP_bytes (fresh : Memory) (buffer : Buffer)
    (command : (uchar2CommandType pBlocks.type).message = some type)
    (given : Given .protTCP pBlocks com) :
    ∃ b c, assembleProtocolTCP fresh pBlocks buffer com = .ok (.complete type pBlocks b c) ∧
      c.taken = formatTCP type (encodedFields .protTCP pBlocks com) := by
  unfold encodedFields
  unfold Given at given
  unfold assembleProtocolTCP
  cases cmd : uchar2CommandType pBlocks.type <;> simp only [cmd, CommandType.message] at command <;>
    cases command <;> simp only [cmd] at given ⊢
  case cmdAuth =>
    obtain ⟨username, displayname, secret⟩ := given
    refine ⟨_, _, rfl, ?_⟩
    rw [Cursor.taken_addString, Cursor.taken_addBlock _ secret, Cursor.taken_addString,
      Cursor.taken_addBlock _ displayname, Cursor.taken_addString,
      Cursor.taken_addBlock _ username, Cursor.taken_addString, taken_start]
    rfl
  case cmdJoin =>
    obtain ⟨displayname, channelID⟩ := given
    rw [Option.isNone_eq_false_iff.mpr displayname]
    refine ⟨_, _, rfl, ?_⟩
    rw [Cursor.taken_addString, Cursor.taken_addStoredInfo _ displayname, Cursor.taken_addString,
      Cursor.taken_addStoredInfo _ channelID, Cursor.taken_addString, taken_start]
    rfl
  all_goals
    obtain ⟨displayname, contents⟩ := given
    rw [Option.isNone_eq_false_iff.mpr displayname]
    refine ⟨_, _, rfl, ?_⟩
    rw [Cursor.taken_addString, Cursor.taken_addBlock _ contents, Cursor.taken_addString,
      Cursor.taken_addStoredInfo _ displayname, Cursor.taken_addString, taken_start]
    rfl

theorem assembleProtocolUDP_exit (fresh : Memory) (buffer : Buffer) (com : CommunicationDetails)
    (command : uchar2CommandType pBlocks.type = .cmdExit) :
    ∃ b c, assembleProtocolUDP fresh pBlocks buffer com = .ok (.complete .msgBye pBlocks b c) ∧
      c.taken = formatUDP .msgBye (b.mem 1) (b.mem 2) [] := by
  unfold assembleProtocolUDP
  simp only [command]
  exact ⟨_, _, rfl, taken_headerUDP _ _⟩

theorem assembleProtocolTCP_exit (fresh : Memory) (buffer : Buffer) (com : CommunicationDetails)
    (command : uchar2CommandType pBlocks.type = .cmdExit) :
    ∃ b c, assembleProtocolTCP fresh pBlocks buffer com = .ok (.complete .msgBye pBlocks b c) ∧
      c.taken = formatTCP .msgBye [] := by
  unfold assembleProtocolTCP
  simp only [command]
  refine ⟨_, _, rfl, ?_⟩
  rw [Cursor.taken_addString, Cursor.taken_addString, taken_start]
  rfl

end

/-! ## What an encoder returns -/

/-- The message a command is sent as. -/
def CommandType.sentAs : CommandType → Option MsgType
  | .cmdConf => some .msgConf
  | .cmdExit => some .msgBye
  | command => command.message

/-- What the size estimates count besides the blocks and their base. -/
def extraSize (protocol : Protocols) (command : CommandType) (com : CommunicationDetails) : Int :=
  match protocol, command with
  | .protUDP, .cmdJoin => com.channelID.used
  | .protUDP, .cmdMsg | .protUDP, .cmdErr => com.displayName.used
  | .protTCP, .cmdAuth => 5 + 4 + 7
  | .protTCP, .cmdJoin => 5 + 4 + com.channelID.used
  | .protTCP, .cmdMsg | .protTCP, .cmdErr => 9 + 4 + com.displayName.used
  | .protTCP, .cmdExit => 3
  | _, _ => 0

/-- The capacity an encoder establishes for a buffer that had `allocated` bytes. -/
def capacity (protocol : Protocols) (pBlocks : ProtocolBlocks) (com : CommunicationDetails)
    (allocated : Nat) : Nat :=
  let extra := extraSize protocol (uchar2CommandType pBlocks.type) com
  match protocol with
  | .protUDP =>
    max (max allocated (unsigned (pBlocks.totalLen + 10)))
      (unsigned (pBlocks.totalLen + 10 + extra))
  | .protTCP => max allocated (unsigned (pBlocks.totalLen + 1 + extra + 2))

/-- The number of bytes an encoder writes. -/
def writtenSize (protocol : Protocols) (pBlocks : ProtocolBlocks) (com : CommunicationDetails) :
    Nat :=
  match protocol, uchar2CommandType pBlocks.type with
  | .protUDP, .cmdAuth =>
    3 + unsigned pBlocks.cmdAuthUsername.len + 1 + unsigned pBlocks.cmdAuthDisplayname.len + 1 +
      unsigned pBlocks.cmdAuthSecret.len + 1
  | .protUDP, .cmdJoin =>
    3 + unsigned pBlocks.cmdJoinChannelID.len + 1 + com.displayName.used + 1
  | .protUDP, .cmdMsg | .protUDP, .cmdErr =>
    3 + com.displayName.used + 1 + unsigned pBlocks.cmdMsgMsgContents.len + 1
  | .protTCP, .cmdAuth =>
    5 + unsigned pBlocks.cmdAuthUsername.len + 4 + unsigned pBlocks.cmdAuthDisplayname.len + 7 +
      unsigned pBlocks.cmdAuthSecret.len + 2
  | .protTCP, .cmdJoin => 5 + com.channelID.used + 4 + com.displayName.used + 2
  | .protTCP, .cmdMsg | .protTCP, .cmdErr =>
    9 + com.displayName.used + 4 + unsigned pBlocks.cmdMsgMsgContents.len + 2
  | .protTCP, .cmdExit => 3 + 2
  | .protTCP, _ => 0
  | .protUDP, _ => 3

/-- A message is refused, with the buffer written to but still as long as it
was, or it is complete. -/
theorem assemble_cases {fresh : Memory} {protocol : Protocols} {pBlocks : ProtocolBlocks}
    {buffer : Buffer} {com : CommunicationDetails} {r : Assembled}
    (h : assemble fresh protocol pBlocks buffer com = .ok r) :
    (∃ text b c, r = .refused text pBlocks b c ∧ b.used = buffer.used ∧
      buffer.allocated ≤ b.allocated) ∨
    ∃ type b c, (uchar2CommandType pBlocks.type).sentAs = some type ∧
      r = .complete type pBlocks b c ∧
      b.allocated = capacity protocol pBlocks com buffer.allocated ∧
      c.ptrPos = writtenSize protocol pBlocks com := by
  unfold capacity writtenSize extraSize
  cases protocol <;> simp only [assemble, assembleProtocolUDP, assembleProtocolTCP] at h <;>
    cases cmd : uchar2CommandType pBlocks.type <;> simp only [cmd] at h ⊢ <;>
    (try split at h) <;> cases h
  all_goals
    first
    | exact Or.inr ⟨_, _, _, rfl, rfl, by simp [bufferResize_allocated], rfl⟩
    | exact Or.inl ⟨_, _, _, rfl, by simp [bufferResize_used],
        by simp only [bufferResize_allocated]; omega⟩

/-! ## Fields without zero bytes -/

/-- A field as the zero-terminated format needs it. -/
def ZeroFree (field : List UInt8) : Prop := field ≠ [] ∧ 0 ∉ field

instance : DecidablePred ZeroFree := fun field =>
  inferInstanceAs (Decidable (field ≠ [] ∧ 0 ∉ field))

theorem ZeroFree.block {block : BytesBlock} (h : ZeroFree block.bytes) : block.start.isSome := by
  cases start : block.start with
  | none => simp [ZeroFree, BytesBlock.bytes, start] at h
  | some p => rfl

/-- The bytes of a NULL buffer count as zeros, so a name without zeros is stored. -/
theorem ZeroFree.buffer {b : Buffer} (h : ZeroFree b.bytes) : b.data.isSome := by
  obtain ⟨data, allocated, used⟩ := b
  cases data with
  | some m => rfl
  | none =>
    cases used with
    | zero => simp [ZeroFree, Buffer.bytes] at h
    | succ n => simp [ZeroFree, Buffer.bytes, Buffer.mem, Memory.read_cons] at h

theorem given_of_zeroFree {protocol : Protocols} {pBlocks : ProtocolBlocks}
    {com : CommunicationDetails} (h : ∀ f ∈ encodedFields protocol pBlocks com, ZeroFree f) :
    Given protocol pBlocks com := by
  unfold encodedFields at h
  unfold Given
  cases cmd : uchar2CommandType pBlocks.type <;> simp only [cmd, List.forall_mem_cons] at h ⊢
  case cmdAuth => exact ⟨h.1.block, h.2.1.block, h.2.2.1.block⟩
  case cmdJoin =>
    cases protocol <;> simp only [List.forall_mem_cons] at h
    · exact ⟨h.2.1.buffer, h.1.block⟩
    · exact ⟨h.2.1.buffer, h.1.buffer⟩
  all_goals exact ⟨h.1.buffer, h.2.1.block⟩

end Ipk24Chat
