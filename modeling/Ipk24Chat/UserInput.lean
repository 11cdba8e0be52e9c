import Ipk24Chat.Protocol

/-!
# User input

`controlWord` and `userInputToCmds` of `ipk24protocol.c` in the release build:
a line becomes a command with its arguments, or a message.
-/

namespace Ipk24Chat

/-- The C code compares signed characters; a byte from 0x80 on fails the lower
bounds there and the upper bounds here. -/
def allowedCharsInCredentials (input : UInt8) : Bool :=
  (ch 'a' ≤ input && input ≤ ch 'z') || (ch 'A' ≤ input && input ≤ ch 'Z') ||
    (ch '0' ≤ input && input ≤ ch '9') || input == ch '-'

def allowedCharsInName (input : UInt8) : Bool := 0x21 ≤ input && input ≤ 0x7E

def allowedCharsInMessage (input : UInt8) : Bool := 0x20 ≤ input && input ≤ 0x7E

/-- Types of words (`ToW_…`). -/
inductive TypeOfWord where
  | username
  | channelID
  | secret
  | displayName
  | messageContent
  deriving DecidableEq, Repr

def TypeOfWord.allowed : TypeOfWord → UInt8 → Bool
  | .username | .channelID | .secret => allowedCharsInCredentials
  | .displayName => allowedCharsInName
  | .messageContent => allowedCharsInMessage

/-- Why a word is refused; the last two are what is printed about it. -/
inductive WordError where
  | empty
  | exceededLength (word : List UInt8) (maxLen : Nat)
  | invalidCharacter (word : List UInt8) (position : Nat)
  deriving DecidableEq, Repr

def controlWord (wordBlock : BytesBlock) (maxLen : Nat) (typeOfWord : TypeOfWord) :
    Except WordError Unit :=
  if unsigned wordBlock.len = 0 then .error .empty
  else if maxLen < unsigned wordBlock.len then
    .error (.exceededLength wordBlock.bytes maxLen)
  else
    match wordBlock.bytes.findIdx? fun c => !typeOfWord.allowed c with
    | some i => .error (.invalidCharacter wordBlock.bytes i)
    | none => .ok ()

/-- Outcome of `userInputToCmds`: the return value, the blocks, the message
flags, and the complaint of `controlWord` if a word was refused. -/
structure Parsed where
  result : Bool
  pBlocks : ProtocolBlocks
  flags : MsgFlags
  complaint : Option WordError

def userInputToCmds (buffer : Buffer) (pBlocks : ProtocolBlocks) (flags : MsgFlags) : Parsed :=
  if buffer.used = 0 then
    ⟨false, { pBlocks with type := CommandType.cmdNone.toUChar }, flags, none⟩
  else
    let data : CharPtr := ⟨buffer.mem, 0⟩
    let used : Int := buffer.used
    let cmdLen := findBlankCharInString data used
    let pBlocks : ProtocolBlocks :=
      { pBlocks with
        zeroth := ⟨some data, cmdLen⟩
        first := .null, second := .null, third := .null
        type := CommandType.cmdNone.toUChar }
    let behind := data.shift cmdLen
    let missing : Parsed :=
      ⟨false, { pBlocks with type := CommandType.cmdMissing.toUChar }, flags, none⟩
    let refused (e : WordError) : Parsed := ⟨false, pBlocks, flags, some e⟩
    let is (command : String) : Bool := strncmpEq data (ascii command) (unsigned cmdLen)
    if is "/auth" then
      match getWord .null behind (used - cmdLen) with
      | (true, ⟨some p1, len1⟩) =>
        match getWord .null (p1.shift len1) (used - (cmdLen + len1)) with
        | (true, ⟨some p2, len2⟩) =>
          match getWord .null (p2.shift len2) (used - (cmdLen + len1 + len2)) with
          | (true, ⟨some p3, len3⟩) =>
            let first : BytesBlock := ⟨some p1, len1⟩
            let second : BytesBlock := ⟨some p2, len2⟩
            let third : BytesBlock := ⟨some p3, len3⟩
            match controlWord first 20 .username, controlWord second 128 .secret,
              controlWord third 20 .displayName with
            | .error e, _, _ => refused e
            | .ok _, .error e, _ => refused e
            | .ok _, .ok _, .error e => refused e
            | .ok _, .ok _, .ok _ =>
              ⟨true, { pBlocks with
                type := CommandType.cmdAuth.toUChar
                first := first, second := second, third := third }, .msgFlagAuth, none⟩
          | _ => missing
        | _ => missing
      | _ => missing
    else if is "/join" || is "/rename" then
      let start := behind.shift (skipBlankCharsInString behind (used - cmdLen))
      let len := findNewLineInString start (used - cmdLen)
      if len = -1 then missing
      else
        let first : BytesBlock := ⟨some start, len⟩
        if is "/join" then
          match controlWord first 20 .channelID with
          | .error e => refused e
          | .ok _ =>
            ⟨true, { pBlocks with
              type := CommandType.cmdJoin.toUChar, first := first }, flags, none⟩
        else
          match controlWord first 20 .displayName with
          | .error e => refused e
          | .ok _ =>
            ⟨true, { pBlocks with
              type := CommandType.cmdRename.toUChar, first := first }, flags, none⟩
    else if is "/help" then
      ⟨true, { pBlocks with type := CommandType.cmdHelp.toUChar }, flags, none⟩
    else if is "/exit" then
      ⟨true, { pBlocks with type := CommandType.cmdExit.toUChar }, flags, none⟩
    else
      let contents : BytesBlock := ⟨some data, used⟩
      match controlWord contents 14000 .messageContent with
      | .error e => ⟨false, { pBlocks with zeroth := contents }, flags, some e⟩
      | .ok _ =>
        ⟨true, { pBlocks with
          type := CommandType.cmdMsg.toUChar, zeroth := contents }, flags, none⟩

/-! ## What is accepted -/

/-- The bytes that a type of word is made of: letters, digits and the hyphen; the visible
characters; these and the blank. -/
def TypeOfWord.ranges : TypeOfWord → List (UInt8 × UInt8)
  | .username | .channelID | .secret => [(0x61, 0x7A), (0x41, 0x5A), (0x30, 0x39), (0x2D, 0x2D)]
  | .displayName => [(0x21, 0x7E)]
  | .messageContent => [(0x20, 0x7E)]

def TypeOfWord.Class (type : TypeOfWord) (c : UInt8) : Prop :=
  ∃ r ∈ type.ranges, r.1 ≤ c ∧ c ≤ r.2

instance (type : TypeOfWord) (c : UInt8) : Decidable (type.Class c) :=
  inferInstanceAs (Decidable (∃ r ∈ type.ranges, r.1 ≤ c ∧ c ≤ r.2))

/-- The tests of the source are for these bytes. -/
theorem TypeOfWord.allowed_iff (type : TypeOfWord) (c : UInt8) :
    type.allowed c = true ↔ type.Class c := by
  have hyphen : c = ch '-' ↔ 0x2D ≤ c ∧ c ≤ 0x2D := by
    rw [← UInt8.toNat_inj, UInt8.le_iff_toNat_le, UInt8.le_iff_toNat_le, Nat.le_antisymm_iff,
      and_comm]
    rfl
  have letters : ch 'a' = 0x61 ∧ ch 'z' = 0x7A ∧ ch 'A' = 0x41 ∧ ch 'Z' = 0x5A ∧ ch '0' = 0x30 ∧
      ch '9' = 0x39 := by decide
  obtain ⟨a, z, upperA, upperZ, zero, nine⟩ := letters
  cases type with
  | username | channelID | secret =>
    simp only [allowed, allowedCharsInCredentials, Bool.or_eq_true, Bool.and_eq_true,
      decide_eq_true_eq, beq_iff_eq, Class, ranges, List.mem_cons, List.not_mem_nil, or_false,
      exists_eq_or_imp, exists_eq_left, hyphen, a, z, upperA, upperZ, zero, nine, or_assoc]
  | displayName => simp [allowed, allowedCharsInName, Class, ranges]
  | messageContent => simp [allowed, allowedCharsInMessage, Class, ranges]

/-- A word of the given type: between 1 and `maxLen` bytes of its class. -/
def Controlled (maxLen : Nat) (type : TypeOfWord) (word : List UInt8) : Prop :=
  1 ≤ word.length ∧ word.length ≤ maxLen ∧ ∀ c ∈ word, type.Class c

/-- A block that passed `controlWord`. -/
structure ControlledBlock (maxLen : Nat) (type : TypeOfWord) (block : BytesBlock) : Prop where
  given : block.start.isSome
  nonneg : 0 ≤ block.len
  word : Controlled maxLen type block.bytes

theorem BytesBlock.length_bytes {block : BytesBlock} (given : block.start.isSome) :
    block.bytes.length = unsigned block.len := by
  obtain ⟨start, len⟩ := block
  cases start with
  | none => simp at given
  | some p => simp [BytesBlock.bytes, CharPtr.read]

theorem controlWord_ok {block : BytesBlock} {maxLen : Nat} {type : TypeOfWord} {u : Unit}
    (given : block.start.isSome) (low : -1 ≤ block.len) (max : maxLen < 2 ^ 64 - 1)
    (h : controlWord block maxLen type = .ok u) : ControlledBlock maxLen type block := by
  have len := BytesBlock.length_bytes given
  unfold controlWord at h
  split at h
  · cases h
  · rename_i nonzero
    split at h
    · cases h
    · rename_i short
      split at h
      · cases h
      · rename_i none
        refine ⟨given, ?_, by omega, by omega, ?_⟩
        · unfold unsigned at short
          split at short <;> omega
        · intro c hc
          have passed := List.findIdx?_eq_none_iff.mp none c hc
          exact (type.allowed_iff c).mp (by simpa using passed)

/-- The blocks a command is handed on with. -/
def Accepted (pBlocks : ProtocolBlocks) : Prop :=
  match uchar2CommandType pBlocks.type with
  | .cmdAuth =>
    ControlledBlock 20 .username pBlocks.cmdAuthUsername ∧
      ControlledBlock 128 .secret pBlocks.cmdAuthSecret ∧
      ControlledBlock 20 .displayName pBlocks.cmdAuthDisplayname
  | .cmdJoin => ControlledBlock 20 .channelID pBlocks.cmdJoinChannelID
  | .cmdRename => ControlledBlock 20 .displayName pBlocks.cmdRenameDisplayname
  | .cmdMsg => ControlledBlock 14000 .messageContent pBlocks.cmdMsgMsgContents
  | .cmdHelp | .cmdExit | .cmdMissing | .cmdNone => True
  | _ => False

theorem findBlankCharInString_ge (p : CharPtr) (len : Int) : -1 ≤ findBlankCharInString p len := by
  unfold findBlankCharInString
  split <;> omega

theorem findNewLineInString_ge (p : CharPtr) (len : Int) : -1 ≤ findNewLineInString p len := by
  unfold findNewLineInString
  split <;> omega

theorem getWord_ge {block : BytesBlock} {p q : CharPtr} {size len : Int}
    (h : getWord block p size = (true, ⟨some q, len⟩)) : -1 ≤ len := by
  unfold getWord at h
  split at h
  · cases h
  · simp only [Prod.mk.injEq, BytesBlock.mk.injEq] at h
    rw [← h.2.2]
    exact findBlankCharInString_ge _ _

/-- Blocks whose lengths are not wrapped around. -/
structure ProtocolBlocks.Measured (b : ProtocolBlocks) : Prop where
  zeroth : 0 ≤ b.zeroth.len
  first : 0 ≤ b.first.len
  second : 0 ≤ b.second.len
  third : 0 ≤ b.third.len

theorem ProtocolBlocks.Measured.reset (type : UInt8) : (ProtocolBlocks.reset type).Measured :=
  ⟨Int.le_refl 0, Int.le_refl 0, Int.le_refl 0, Int.le_refl 0⟩

/-- The zero byte behind the line ends the search for the end of the command. -/
theorem findBlankCharInString_line {m : Memory} {used : Nat} (zero : m used = 0) :
    0 ≤ findBlankCharInString ⟨m, 0⟩ used := by
  obtain ⟨j, hit⟩ : ∃ j, m.scan isBlankOrEnd 0 (used + 1) = some j :=
    Memory.scan_of_hit used (by rw [Int.zero_add, zero]; rfl) (by omega)
  simp [findBlankCharInString, CharPtr.scan, hit]

/-- Whatever the line is: a command comes with the words it needs, and on every
path that refuses one the type is left as no command. -/
theorem userInputToCmds_accepted (buffer : Buffer) {pBlocks : ProtocolBlocks} (flags : MsgFlags)
    (zero : buffer.mem buffer.used = 0) (before : pBlocks.Measured) :
    Accepted (userInputToCmds buffer pBlocks flags).pBlocks ∧
      (userInputToCmds buffer pBlocks flags).pBlocks.Measured := by
  have cmd := findBlankCharInString_line zero
  unfold userInputToCmds
  split
  · exact ⟨trivial, before.zeroth, before.first, before.second, before.third⟩
  · have none {type : CommandType} {len : Int} (p : CharPtr) (nonneg : 0 ≤ len)
        (h : Accepted ⟨type.toUChar, ⟨some p, len⟩, .null, .null, .null, false⟩) :
        Accepted ⟨type.toUChar, ⟨some p, len⟩, .null, .null, .null, pBlocks.msgReplyResultBool⟩ ∧
        ProtocolBlocks.Measured
          ⟨type.toUChar, ⟨some p, len⟩, .null, .null, .null, pBlocks.msgReplyResultBool⟩ :=
      ⟨h, nonneg, Int.le_refl 0, Int.le_refl 0, Int.le_refl 0⟩
    simp only
    split
    · split
      · rename_i w1
        split
        · rename_i w2
          split
          · rename_i w3
            split
            · exact none _ cmd trivial
            · exact none _ cmd trivial
            · exact none _ cmd trivial
            · rename_i c1 c2 c3
              have first := controlWord_ok rfl (getWord_ge w1) (by decide) c1
              have second := controlWord_ok rfl (getWord_ge w2) (by decide) c2
              have third := controlWord_ok rfl (getWord_ge w3) (by decide) c3
              exact ⟨⟨first, second, third⟩, cmd, first.nonneg, second.nonneg, third.nonneg⟩
          · exact none _ cmd trivial
        · exact none _ cmd trivial
      · exact none _ cmd trivial
    · split
      · split
        · exact none _ cmd trivial
        · split
          · split
            · exact none _ cmd trivial
            · rename_i c
              have first := controlWord_ok rfl (findNewLineInString_ge _ _) (by decide) c
              exact ⟨first, cmd, first.nonneg, Int.le_refl 0, Int.le_refl 0⟩
          · split
            · exact none _ cmd trivial
            · rename_i c
              have first := controlWord_ok rfl (findNewLineInString_ge _ _) (by decide) c
              exact ⟨first, cmd, first.nonneg, Int.le_refl 0, Int.le_refl 0⟩
      · split
        · exact none _ cmd trivial
        · split
          · exact none _ cmd trivial
          · have used : 0 ≤ (buffer.used : Int) := by omega
            split
            · exact none _ used trivial
            · rename_i c
              exact none _ used (controlWord_ok rfl (by simp) (by decide) c)

/-- Only an AUTH changes the flags its message gets. -/
theorem userInputToCmds_flags (buffer : Buffer) (pBlocks : ProtocolBlocks) (flags : MsgFlags) :
    (userInputToCmds buffer pBlocks flags).flags = flags ∨
      (userInputToCmds buffer pBlocks flags).flags = .msgFlagAuth ∧
        uchar2CommandType (userInputToCmds buffer pBlocks flags).pBlocks.type = .cmdAuth := by
  unfold userInputToCmds
  simp only
  repeat' first
    | exact Or.inl rfl
    | exact Or.inr ⟨rfl, rfl⟩
    | split

end Ipk24Chat
