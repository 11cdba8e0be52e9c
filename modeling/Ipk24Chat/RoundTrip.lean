import Ipk24Chat.Encoding

/-!
# Decoding undoes encoding

* `disassebleProtocolUDP_assembleProtocolUDP`: the fields of an AUTH, JOIN, MSG
  or ERR are found again between their zero bytes, whatever the ID bytes are and
  whatever the receive buffer holds behind the message.
* `disassebleProtocolTCP_assembleProtocolTCP`: the name and contents of a MSG or
  ERR are found again, even if the contents look like another message.
-/

namespace Ipk24Chat

/-! ## Zero-terminated fields -/

/-- A field, the zero behind it, and what follows. -/
theorem Memory.read_field {m : Memory} {pos : Int} {n : Nat} {field rest : List UInt8}
    (h : m.read pos n = field ++ 0 :: rest) :
    m.read pos field.length = field ∧ m (pos + field.length) = 0 ∧
      m.read (pos + (field.length + 1 : Nat)) rest.length = rest := by
  obtain ⟨front, back⟩ := Memory.read_split h
  refine ⟨front, Memory.read_eq_cons back, ?_⟩
  have tail := (Memory.read_split (a := [0]) (b := rest) back).2
  have next : pos + (field.length : Int) + (1 : Nat) = pos + (field.length + 1 : Nat) := by omega
  simpa only [List.length_singleton, next] using tail

theorem findZeroInString_field {p : CharPtr} {field : List UInt8} {len : Int}
    (clear : ZeroFree field) (spelled : p.read field.length = field)
    (zero : p.get field.length = 0) (bound : field.length < len) :
    findZeroInString p len = .ok field.length := by
  have within : field.length < unsigned len := by
    rw [unsigned_of_nonneg (by omega)]
    omega
  have hit : p.scan (· == 0) (unsigned len) = some field.length := by
    apply Memory.scan_eq_some _ _ within
    · intro b hb
      rw [show p.mem.read p.off field.length = field from spelled] at hb
      simp only [beq_eq_false_iff_ne]
      rintro rfl
      exact clear.2 hb
    · simpa [CharPtr.get] using zero
  have nonempty : field.length ≠ 0 := by
    simpa using clear.1
  simp [findZeroInString, hit, nonempty]

/-- One field of the decoder: its length is found, the block spells it, and the
pointer behind its zero byte is where the rest begins. -/
theorem decode_field {p : CharPtr} {n : Nat} {field rest : List UInt8} (len : Int)
    (h : p.read n = field ++ 0 :: rest) (clear : ZeroFree field) (bound : field.length < len) :
    findZeroInString p len = .ok field.length ∧
      BytesBlock.bytes ⟨some p, field.length⟩ = field ∧
      (BytesBlock.endPtrWithZeroByte p field.length).read rest.length = rest := by
  obtain ⟨spelled, zero, behind⟩ := Memory.read_field h
  refine ⟨findZeroInString_field clear spelled zero bound, ?_, ?_⟩
  · simpa [BytesBlock.bytes, CharPtr.read] using spelled
  · simpa [BytesBlock.endPtrWithZeroByte, CharPtr.shift, CharPtr.read] using behind

section
variable {rx : Buffer} {type : MsgType} {low high : UInt8}

/-- The type byte of a received message and the bytes behind its header. -/
theorem read_formatUDP {fields : List (List UInt8)}
    (h : rx.bytes = formatUDP type low high fields) :
    rx.mem 0 = type.toUChar ∧ rx.used = 3 + (terminated fields).length ∧
      (CharPtr.mk rx.mem 3).read (terminated fields).length = terminated fields := by
  have split : rx.mem.read 0 rx.used = [type.toUChar, low, high] ++ terminated fields := h
  refine ⟨Memory.read_eq_cons h, ?_, ?_⟩
  · have := congrArg List.length split
    simp at this
    omega
  · simpa [CharPtr.read] using (Memory.read_split split).2

theorem disassebleProtocolUDP_auth {username displayname secret : List UInt8}
    (h : rx.bytes = formatUDP .msgAuth low high [username, displayname, secret])
    (hu : ZeroFree username) (hd : ZeroFree displayname) (hs : ZeroFree secret) :
    ∃ d, disassebleProtocolUDP rx = .ok d ∧ d.pBlocks.type = MsgType.msgAuth.toUChar ∧
      decodedFields d.pBlocks = [username, displayname, secret] := by
  obtain ⟨first, used, body⟩ := read_formatUDP h
  simp only [terminated, List.flatMap_cons, List.flatMap_nil, List.append_nil, List.append_assoc,
    List.cons_append, List.nil_append, List.length_append, List.length_cons,
    List.length_nil] at body used
  obtain ⟨len0, field0, rest0⟩ := decode_field (rx.used - typeIdLen) body hu
    (by unfold typeIdLen; omega)
  obtain ⟨len1, field1, rest1⟩ := decode_field (rx.used - (typeIdLen + username.length))
    rest0 hd (by unfold typeIdLen; omega)
  obtain ⟨len2, field2, _⟩ := decode_field
    (rx.used - (typeIdLen + username.length + displayname.length))
    rest1 hs (by unfold typeIdLen; omega)
  simp only [disassebleProtocolUDP, CharPtr.get, CharPtr.shift, Int.zero_add, first,
    uchar2msgType_toUChar, len0, len1, len2, bind, Except.bind]
  refine ⟨_, rfl, rfl, ?_⟩
  simp [decodedFields, field0, field1, field2]

theorem disassebleProtocolUDP_pair {zeroth second : List UInt8}
    (pair : type = .msgJoin ∨ type = .msgMsg ∨ type = .msgErr)
    (h : rx.bytes = formatUDP type low high [zeroth, second])
    (hz : ZeroFree zeroth) (hs : ZeroFree second) :
    ∃ d, disassebleProtocolUDP rx = .ok d ∧ d.pBlocks.type = type.toUChar ∧
      decodedFields d.pBlocks = [zeroth, second] := by
  obtain ⟨first, used, body⟩ := read_formatUDP h
  simp only [terminated, List.flatMap_cons, List.flatMap_nil, List.append_nil, List.append_assoc,
    List.cons_append, List.nil_append, List.length_append, List.length_cons,
    List.length_nil] at body used
  obtain ⟨len0, field0, rest0⟩ := decode_field (rx.used - typeIdLen) body hz
    (by unfold typeIdLen; omega)
  obtain ⟨len1, field1, _⟩ := decode_field (rx.used - (typeIdLen + zeroth.length))
    rest0 hs (by unfold typeIdLen; omega)
  rcases pair with rfl | rfl | rfl
  all_goals
    simp only [disassebleProtocolUDP, CharPtr.get, CharPtr.shift, Int.zero_add, first,
      uchar2msgType_toUChar, len0, len1, bind, Except.bind]
    refine ⟨_, rfl, rfl, ?_⟩
    simp [decodedFields, field0, field1]

/-- **UDP decode undoes encode.** -/
theorem disassebleProtocolUDP_assembleProtocolUDP (fresh : Memory) (pBlocks : ProtocolBlocks)
    (buffer : Buffer) (com : CommunicationDetails) (type : MsgType)
    (command : (uchar2CommandType pBlocks.type).message = some type)
    (fields : ∀ f ∈ encodedFields .protUDP pBlocks com, ZeroFree f) :
    ∃ r, assembleProtocolUDP fresh pBlocks buffer com = .ok r ∧ r.canBeSended = true ∧
      ∀ (low high : UInt8) (rx : Buffer), rx.bytes = (r.buffer.bytes.set 1 low).set 2 high →
        ∃ d, disassebleProtocolUDP rx = .ok d ∧ d.pBlocks.type = type.toUChar ∧
          r.pBlocks.type = type.toUChar ∧
          decodedFields d.pBlocks = encodedFields .protUDP pBlocks com := by
  obtain ⟨b, c, run, bytes⟩ := assembleProtocolUDP_bytes fresh buffer command
    (given_of_zeroFree fields)
  refine ⟨_, run, rfl, ?_⟩
  intro low high rx same
  rw [Assembled.complete_bytes, bytes] at same
  have received : rx.bytes = formatUDP type low high (encodedFields .protUDP pBlocks com) := same
  unfold encodedFields at received fields ⊢
  cases cmd : uchar2CommandType pBlocks.type <;> simp only [cmd, CommandType.message] at command <;>
    cases command <;> simp only [cmd, List.forall_mem_cons] at received fields ⊢
  case cmdAuth =>
    obtain ⟨d, ok, decoded⟩ :=
      disassebleProtocolUDP_auth received fields.1 fields.2.1 fields.2.2.1
    exact ⟨d, ok, decoded.1, rfl, decoded.2⟩
  all_goals
    obtain ⟨d, ok, decoded⟩ :=
      disassebleProtocolUDP_pair (by simp) received fields.1 fields.2.1
    exact ⟨d, ok, decoded.1, rfl, decoded.2⟩

end

/-- A message that says hi, from joe. -/
theorem disassebleProtocolUDP_assembleProtocolUDP_hi :
    ∃ r, assembleProtocolUDP (fun _ => 0xC4)
        { ProtocolBlocks.reset CommandType.cmdMsg.toUChar with zeroth := literal "hi" } .init
        ⟨⟨some (Memory.write (fun _ => 0) 0 (ascii "joe")), 4, 3⟩, .init, 0⟩ = .ok r ∧
      r.canBeSended = true ∧
      ∀ (low high : UInt8) (rx : Buffer), rx.bytes = (r.buffer.bytes.set 1 low).set 2 high →
        ∃ d, disassebleProtocolUDP rx = .ok d ∧ d.pBlocks.type = MsgType.msgMsg.toUChar ∧
          r.pBlocks.type = MsgType.msgMsg.toUChar ∧
          decodedFields d.pBlocks = [ascii "joe", ascii "hi"] :=
  disassebleProtocolUDP_assembleProtocolUDP (fun _ => 0xC4)
    { ProtocolBlocks.reset CommandType.cmdMsg.toUChar with zeroth := literal "hi" } .init
    ⟨⟨some (Memory.write (fun _ => 0) 0 (ascii "joe")), 4, 3⟩, .init, 0⟩ .msgMsg rfl (by decide)

/-! ## Fields of the text format -/

theorem findBlankCharInString_word {p : CharPtr} {word : List UInt8} {len : Int}
    (clear : ∀ b ∈ word, isBlankOrEnd b = false) (spelled : p.read word.length = word)
    (hit : isBlankOrEnd (p.get word.length) = true) (bound : word.length ≤ len) :
    findBlankCharInString p len = word.length := by
  have within : word.length < unsigned len + 1 := by
    rw [unsigned_of_nonneg (by omega)]
    omega
  have found : p.scan isBlankOrEnd (unsigned len + 1) = some word.length :=
    Memory.scan_eq_some (by rw [show p.mem.read p.off _ = _ from spelled]; exact clear) hit within
  simp [findBlankCharInString, found]

theorem findNewLineInString_line {p : CharPtr} {line : List UInt8} {len : Int}
    (clear : ∀ b ∈ line, isLineEnd b = false) (spelled : p.read line.length = line)
    (hit : isLineEnd (p.get line.length) = true) (bound : line.length ≤ len) :
    findNewLineInString p len = line.length := by
  have within : line.length < unsigned len + 1 := by
    rw [unsigned_of_nonneg (by omega)]
    omega
  have found : p.scan isLineEnd (unsigned len + 1) = some line.length :=
    Memory.scan_eq_some (by rw [show p.mem.read p.off _ = _ from spelled]; exact clear) hit within
  simp [findNewLineInString, found]

/-- Five pieces read one after the other. -/
theorem CharPtr.read_pieces {m : Memory} {n : Nat} {title name is contents tail : List UInt8}
    (h : m.read 0 n = title ++ name ++ is ++ contents ++ tail) :
    (CharPtr.mk m 0).read title.length = title ∧
      (CharPtr.mk m title.length).read name.length = name ∧
      (CharPtr.mk m (title.length + name.length)).read is.length = is ∧
      (CharPtr.mk m (title.length + name.length + is.length)).read contents.length = contents ∧
      (CharPtr.mk m (title.length + name.length + is.length + contents.length)).read tail.length =
        tail := by
  simp only [List.append_assoc] at h
  obtain ⟨p0, h⟩ := Memory.read_split h
  obtain ⟨p1, h⟩ := Memory.read_split h
  obtain ⟨p2, h⟩ := Memory.read_split h
  obtain ⟨p3, h⟩ := Memory.read_split h
  simp only [Int.zero_add] at p0 p1 p2 p3 h
  exact ⟨p0, p1, p2, p3, h⟩

section
variable {rx : Buffer} {type : MsgType} {title : String} {name contents : List UInt8}

/-- The branch for a named message finds the name and the contents. -/
theorem disassebleNamed_format (previous : ProtocolBlocks)
    (nine : (ascii title).length = 9) (hn : ∀ b ∈ name, isBlankOrEnd b = false)
    (hc : ∀ b ∈ contents, isLineEnd b = false)
    (h : rx.bytes = ascii title ++ name ++ ascii " IS " ++ contents ++ ascii "\r\n") :
    (disassebleNamed type rx previous).type = type.toUChar ∧
      (disassebleNamed type rx previous).msgMsgDisplayname.bytes = name ∧
      (disassebleNamed type rx previous).msgMsgMsgContents.bytes = contents := by
  have four : (ascii " IS ").length = 4 := rfl
  have used : rx.used = 9 + name.length + 4 + contents.length + 2 := by
    have := congrArg List.length h
    simp only [Buffer.bytes, Memory.length_read, List.length_append, nine, four,
      show (ascii "\r\n").length = 2 from rfl] at this
    exact this
  obtain ⟨-, nameRead, isRead, contentsRead, endRead⟩ := CharPtr.read_pieces h
  simp only [nine, four, Int.cast_ofNat_Int] at nameRead isRead contentsRead endRead
  have nameLen : findBlankCharInString ⟨rx.mem, 9⟩ (rx.used - 9) = name.length := by
    refine findBlankCharInString_word hn nameRead ?_ (by omega)
    have space : rx.mem (9 + name.length) = ch ' ' := Memory.read_eq_cons isRead
    simp [CharPtr.get, space, isBlankOrEnd]
  have contentsLen : findNewLineInString ⟨rx.mem, 9 + (name.length + 4)⟩
      (rx.used - 9 - name.length) = contents.length := by
    have start : (9 : Int) + (name.length + 4) = 9 + name.length + 4 := by omega
    rw [start]
    refine findNewLineInString_line hc contentsRead ?_ (by omega)
    have cr : rx.mem (9 + name.length + 4 + contents.length) = ch '\r' :=
      Memory.read_eq_cons endRead
    simp [CharPtr.get, cr, isLineEnd]
  have is : startsWith ⟨rx.mem, 9 + name.length⟩ " IS " = true := strncmpEq_of_read isRead
  simp only [disassebleNamed, show lenOf "MSG FROM " = 9 from rfl, show lenOf " IS " = 4 from rfl,
    CharPtr.shift, BytesBlock.endPtr, Int.zero_add, nameLen, is, ↓reduceIte, contentsLen]
  refine ⟨trivial, ?_, ?_⟩
  · simpa [BytesBlock.bytes] using nameRead
  · have start : (9 : Int) + (name.length + 4) = 9 + name.length + 4 := by omega
    simpa [BytesBlock.bytes, start] using contentsRead

/-- A line with this title and the decoder's branch for it. -/
theorem disassebleProtocolTCP_msg (previous : ProtocolBlocks)
    (h : rx.bytes = ascii "MSG FROM " ++ name ++ ascii " IS " ++ contents ++ ascii "\r\n") :
    disassebleProtocolTCP rx previous = disassebleNamed .msgMsg rx previous := by
  have title : startsWith ⟨rx.mem, 0⟩ "MSG FROM " = true :=
    strncmpEq_of_read (CharPtr.read_pieces h).1
  rw [disassebleProtocolTCP, if_pos title]

theorem disassebleProtocolTCP_err (previous : ProtocolBlocks)
    (h : rx.bytes = ascii "ERR FROM " ++ name ++ ascii " IS " ++ contents ++ ascii "\r\n") :
    disassebleProtocolTCP rx previous = disassebleNamed .msgErr rx previous := by
  have title : startsWith ⟨rx.mem, 0⟩ "ERR FROM " = true :=
    strncmpEq_of_read (CharPtr.read_pieces h).1
  -- the first byte rules the other titles out
  have first : rx.mem 0 = ch 'E' := Memory.read_eq_cons h
  have no_msg : startsWith ⟨rx.mem, 0⟩ "MSG FROM " = false :=
    strncmpEq_of_ne (by rw [first]; decide)
  have no_reply : startsWith ⟨rx.mem, 0⟩ "REPLY " = false :=
    strncmpEq_of_ne (by rw [first]; decide)
  have no_bye : startsWith ⟨rx.mem, 0⟩ "BYE" = false :=
    strncmpEq_of_ne (by rw [first]; decide)
  simp only [disassebleProtocolTCP, no_msg, no_reply, no_bye, title, Bool.false_eq_true,
    ↓reduceIte]

/-- **TCP decode undoes encode.** `previous` are the blocks of the message
received before, which the decoder does not reset. -/
theorem disassebleProtocolTCP_assembleProtocolTCP (fresh : Memory) (pBlocks : ProtocolBlocks)
    (buffer : Buffer) (com : CommunicationDetails) (previous : ProtocolBlocks) (type : MsgType)
    (command : uchar2CommandType pBlocks.type = .cmdMsg ∧ type = .msgMsg ∨
      uchar2CommandType pBlocks.type = .cmdErr ∧ type = .msgErr)
    (named : com.displayName.bytes ≠ [])
    (name : ∀ b ∈ com.displayName.bytes, isBlankOrEnd b = false)
    (given : pBlocks.cmdMsgMsgContents.start.isSome)
    (contents : ∀ b ∈ pBlocks.cmdMsgMsgContents.bytes, isLineEnd b = false) :
    ∃ r, assembleProtocolTCP fresh pBlocks buffer com = .ok r ∧ r.canBeSended = true ∧
      r.pBlocks.type = type.toUChar ∧
      ∀ rx : Buffer, rx.bytes = r.buffer.bytes →
        (disassebleProtocolTCP rx previous).type = type.toUChar ∧
        (disassebleProtocolTCP rx previous).msgMsgDisplayname.bytes = com.displayName.bytes ∧
        (disassebleProtocolTCP rx previous).msgMsgMsgContents.bytes =
          pBlocks.cmdMsgMsgContents.bytes := by
  have stored : ZeroFree com.displayName.bytes := by
    refine ⟨named, fun zero => ?_⟩
    have := name 0 zero
    simp [isBlankOrEnd] at this
  have both : Given .protTCP pBlocks com := by
    rcases command with ⟨cmd, -⟩ | ⟨cmd, -⟩ <;> simp [Given, cmd, stored.buffer, given]
  rcases command with ⟨cmd, rfl⟩ | ⟨cmd, rfl⟩
  · obtain ⟨b, c, run, bytes⟩ := assembleProtocolTCP_bytes fresh buffer
      (show _ = some MsgType.msgMsg by rw [cmd]; rfl) both
    refine ⟨_, run, rfl, rfl, fun rx same => ?_⟩
    rw [Assembled.complete_bytes, bytes] at same
    simp only [encodedFields, cmd, formatTCP] at same
    rw [disassebleProtocolTCP_msg previous same]
    exact disassebleNamed_format previous rfl name contents same
  · obtain ⟨b, c, run, bytes⟩ := assembleProtocolTCP_bytes fresh buffer
      (show _ = some MsgType.msgErr by rw [cmd]; rfl) both
    refine ⟨_, run, rfl, rfl, fun rx same => ?_⟩
    rw [Assembled.complete_bytes, bytes] at same
    simp only [encodedFields, cmd, formatTCP] at same
    rw [disassebleProtocolTCP_err previous same]
    exact disassebleNamed_format previous rfl name contents same

end

/-- Contents that look like a message of their own, with blanks around them. -/
theorem disassebleProtocolTCP_assembleProtocolTCP_blanks :
    ∃ r, assembleProtocolTCP (fun _ => 0xC4)
        { ProtocolBlocks.reset CommandType.cmdErr.toUChar with
          zeroth := literal "  MSG FROM ann IS hi " } .init
        ⟨⟨some (Memory.write (fun _ => 0) 0 (ascii "joe")), 4, 3⟩, .init, 0⟩ = .ok r ∧
      r.canBeSended = true ∧ r.pBlocks.type = MsgType.msgErr.toUChar ∧
      ∀ rx : Buffer, rx.bytes = r.buffer.bytes →
        (disassebleProtocolTCP rx (.reset 0)).type = MsgType.msgErr.toUChar ∧
        (disassebleProtocolTCP rx (.reset 0)).msgMsgDisplayname.bytes = ascii "joe" ∧
        (disassebleProtocolTCP rx (.reset 0)).msgMsgMsgContents.bytes =
          ascii "  MSG FROM ann IS hi " :=
  disassebleProtocolTCP_assembleProtocolTCP (fun _ => 0xC4)
    { ProtocolBlocks.reset CommandType.cmdErr.toUChar with
      zeroth := literal "  MSG FROM ann IS hi " } .init
    ⟨⟨some (Memory.write (fun _ => 0) 0 (ascii "joe")), 4, 3⟩, .init, 0⟩ (.reset 0) .msgErr
    (Or.inr ⟨rfl, rfl⟩) (by decide +kernel) (by decide +kernel) rfl (by decide +kernel)

end Ipk24Chat
