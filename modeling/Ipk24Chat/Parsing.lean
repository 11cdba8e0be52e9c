import Ipk24Chat.Scanning
import Ipk24Chat.UserInput

/-!
# Taking a typed line apart

`userInputToCmds` on a line with a zero byte behind it. The command is the text in front
of the first blank.

* `userInputToCmds_typed`: which branch a command takes;
* `getWord_word`, `getWord_end`, `getWord_blank`: what `getWord` finds;
* `authParsed_arguments`, `argumentParsed_argument`: the arguments of a command;
* `parsedAs_of_wellFormed`: well-formed commands are parsed completely.
-/

namespace Ipk24Chat

/-! ## Words -/

/-- Bytes up to the next blank. -/
def IsWord (w : List UInt8) : Prop := w ≠ [] ∧ ∀ x ∈ w, isBlankOrEnd x = false

/-- Spaces and tabs. -/
def IsGap (b : List UInt8) : Prop := b ≠ [] ∧ ∀ x ∈ b, isSpace x = true

/-- What stands behind a word: nothing, or a blank. -/
def Behind (rest : List UInt8) : Prop := ∀ x ∈ rest.head?, isBlankOrEnd x = true

instance (w : List UInt8) : Decidable (IsWord w) := inferInstanceAs (Decidable (_ ∧ _))

instance (b : List UInt8) : Decidable (IsGap b) := inferInstanceAs (Decidable (_ ∧ _))

instance (rest : List UInt8) : Decidable (Behind rest) :=
  inferInstanceAs (Decidable (∀ x ∈ rest.head?, _))

theorem isBlankOrEnd_of_isSpace {x : UInt8} (h : isSpace x = true) : isBlankOrEnd x = true := by
  simp only [isSpace, Bool.or_eq_true] at h
  rcases h with h | h <;> simp [isBlankOrEnd, h]

theorem isSpace_of_clear {x : UInt8} (h : isBlankOrEnd x = false) : isSpace x = false := by
  by_contra space
  rw [isBlankOrEnd_of_isSpace (by simpa using space)] at h
  cases h

theorem IsGap.behind {b : List UInt8} (gap : IsGap b) (rest : List UInt8) : Behind (b ++ rest) := by
  intro x first
  cases b with
  | nil => exact absurd rfl gap.1
  | cons y b =>
    obtain rfl : y = x := by simpa using first
    exact isBlankOrEnd_of_isSpace (gap.2 y List.mem_cons_self)

/-- The zero byte behind the line ends its last word. -/
theorem Behind.next {rest : List UInt8} (behind : Behind rest) :
    ∃ c more, rest ++ [0] = c :: more ∧ isBlankOrEnd c = true := by
  cases rest with
  | nil => exact ⟨0, [], rfl, by decide⟩
  | cons c more => exact ⟨c, more ++ [0], rfl, behind c rfl⟩

theorem exists_command (line : List UInt8) :
    ∃ cmd tail, line = cmd ++ tail ∧ (∀ x ∈ cmd, isBlankOrEnd x = false) ∧ Behind tail := by
  rcases exists_split isBlankOrEnd line with clear | ⟨cmd, c, more, rfl, clear, hit⟩
  · exact ⟨line, [], by simp, clear, nofun⟩
  · refine ⟨cmd, c :: more, rfl, clear, fun x first => ?_⟩
    obtain rfl : c = x := by simpa using first
    exact hit

/-- What follows a word: only spaces, the end, or the next word. -/
theorem tail_cases (tail : List UInt8) :
    (∀ x ∈ tail, isSpace x = true) ∨
      (∃ b c more, tail = b ++ c :: more ∧ (∀ x ∈ b, isSpace x = true) ∧ isSpace c = false ∧
        isBlankOrEnd c = true) ∨
      ∃ b w rest, tail = b ++ w ++ rest ∧ (∀ x ∈ b, isSpace x = true) ∧ IsWord w ∧ Behind rest := by
  rcases exists_split (fun x => !isSpace x) tail with all | ⟨b, c, more, rfl, before, hit⟩
  · exact Or.inl (by simpa using all)
  have spaces : ∀ x ∈ b, isSpace x = true := by simpa using before
  have other : isSpace c = false := by simpa using hit
  by_cases stop : isBlankOrEnd c = true
  · exact Or.inr (Or.inl ⟨b, c, more, rfl, spaces, other, stop⟩)
  · obtain ⟨w, rest, split, clear, behind⟩ := exists_command more
    refine Or.inr (Or.inr ⟨b, c :: w, rest, by simp [split], spaces, ⟨by simp, ?_⟩, behind⟩)
    exact List.forall_mem_cons.mpr ⟨by simpa using stop, clear⟩

/-! ## `getWord` -/

section
variable {p : CharPtr} {b w rest more : List UInt8} {c : UInt8} {size : Int}

theorem getWord_word (spelled : p.Spells (b ++ (w ++ (rest ++ [0]))))
    (spaces : ∀ x ∈ b, isSpace x = true) (word : IsWord w) (behind : Behind rest)
    (before : b.length < size) (bound : w.length ≤ size) :
    getWord .null p size = (true, ⟨some (p.shift b.length), w.length⟩) := by
  have given : unsigned size ≠ 0 := by
    rw [unsigned_of_nonneg (by omega)]
    omega
  obtain ⟨x, w', rfl⟩ : ∃ x w', w = x :: w' := List.exists_cons_of_ne_nil word.1
  have first : isSpace x = false := isSpace_of_clear (word.2 x List.mem_cons_self)
  have skipped : skipBlankCharsInString p size = b.length :=
    skipBlankCharsInString_hit spelled spaces first before
  obtain ⟨c, more, next, hit⟩ := behind.next
  have found : findBlankCharInString (p.shift b.length) (size - 0) = (x :: w').length := by
    have right := spelled.right
    rw [next] at right
    exact findBlankCharInString_hit right word.2 hit (by omega)
  simp only [getWord, given, if_false, skipped, BytesBlock.null, found]
  simp
  omega

/-- No word: the line or its first part ends behind the spaces. -/
theorem getWord_end (spelled : p.Spells (b ++ c :: more)) (spaces : ∀ x ∈ b, isSpace x = true)
    (other : isSpace c = false) (hit : isBlankOrEnd c = true) (bound : b.length < size) :
    (getWord .null p size).1 = false := by
  have given : unsigned size ≠ 0 := by
    rw [unsigned_of_nonneg (by omega)]
    omega
  have skipped : skipBlankCharsInString p size = b.length :=
    skipBlankCharsInString_hit spelled spaces other bound
  have found : findBlankCharInString (p.shift b.length) (size - 0) = ([] : List UInt8).length :=
    findBlankCharInString_hit spelled.right nofun hit (by simp; omega)
  simp only [getWord, given, if_false, skipped, BytesBlock.null, found]
  simp

theorem getWord_none : getWord .null p 0 = (false, .null) := rfl

/-- Only spaces in the searched part: the result -1 of the search steps back onto the byte
in front of them. -/
theorem getWord_blank {x : UInt8} (spelled : (p.shift (-1)).Spells ([x] ++ (b ++ more)))
    (spaces : ∀ y ∈ b, isSpace y = true) (nonempty : b ≠ []) (clear : isBlankOrEnd x = false) :
    getWord .null p b.length = (true, ⟨some (p.shift (-1)), 1⟩) := by
  have long : 0 < b.length := List.length_pos_iff.mpr nonempty
  have here : p.Spells (b ++ more) := by simpa using spelled.right
  have missed : skipBlankCharsInString p b.length = -1 :=
    skipBlankCharsInString_miss here.left spaces
  obtain ⟨y, b', rfl⟩ : ∃ y b', b = y :: b' := List.exists_cons_of_ne_nil nonempty
  have found : findBlankCharInString (p.shift (-1)) ((y :: b').length - 0) = [x].length :=
    findBlankCharInString_hit spelled (by simpa using clear)
      (isBlankOrEnd_of_isSpace (spaces y List.mem_cons_self))
      (by simp only [List.length_cons, List.length_nil]; omega)
  simp only [getWord, unsigned_natCast, missed, BytesBlock.null, found]
  simp

end

/-! ## The branches of the parser -/

section
variable (buffer : Buffer) (base : ProtocolBlocks) (flags : MsgFlags) (cmdLen : Int)

/-- The blocks while the command is looked at. -/
def commandBlocks (buffer : Buffer) (pBlocks : ProtocolBlocks) (cmdLen : Int) : ProtocolBlocks :=
  { pBlocks with
    zeroth := ⟨some ⟨buffer.mem, 0⟩, cmdLen⟩
    first := .null, second := .null, third := .null
    type := CommandType.cmdNone.toUChar }

/-- The arguments are missing. -/
def missingParsed : Parsed :=
  ⟨false, { base with type := CommandType.cmdMissing.toUChar }, flags, none⟩

/-- The end of the branch of "/auth", with all three arguments there. -/
def authControlled (first second third : BytesBlock) : Parsed :=
  match controlWord first 20 .username, controlWord second 128 .secret,
    controlWord third 20 .displayName with
  | .error e, _, _ => ⟨false, base, flags, some e⟩
  | .ok _, .error e, _ => ⟨false, base, flags, some e⟩
  | .ok _, .ok _, .error e => ⟨false, base, flags, some e⟩
  | .ok _, .ok _, .ok _ =>
    ⟨true, { base with
      type := CommandType.cmdAuth.toUChar
      first := first, second := second, third := third }, .msgFlagAuth, none⟩

/-- The branch of "/auth". -/
def authParsed : Parsed :=
  let behind := (CharPtr.mk buffer.mem 0).shift cmdLen
  let used : Int := buffer.used
  match getWord .null behind (used - cmdLen) with
  | (true, ⟨some p1, len1⟩) =>
    match getWord .null (p1.shift len1) (used - (cmdLen + len1)) with
    | (true, ⟨some p2, len2⟩) =>
      match getWord .null (p2.shift len2) (used - (cmdLen + len1 + len2)) with
      | (true, ⟨some p3, len3⟩) =>
        let first : BytesBlock := ⟨some p1, len1⟩
        let second : BytesBlock := ⟨some p2, len2⟩
        let third : BytesBlock := ⟨some p3, len3⟩
        authControlled base flags first second third
      | _ => missingParsed base flags
    | _ => missingParsed base flags
  | _ => missingParsed base flags

/-- The branch of "/join" and "/rename". -/
def argumentParsed (join : Bool) : Parsed :=
  let behind := (CharPtr.mk buffer.mem 0).shift cmdLen
  let used : Int := buffer.used
  let start := behind.shift (skipBlankCharsInString behind (used - cmdLen))
  let len := findNewLineInString start (used - cmdLen)
  if len = -1 then missingParsed base flags
  else
    let first : BytesBlock := ⟨some start, len⟩
    if join then
      match controlWord first 20 .channelID with
      | .error e => ⟨false, base, flags, some e⟩
      | .ok _ =>
        ⟨true, { base with type := CommandType.cmdJoin.toUChar, first := first }, flags, none⟩
    else
      match controlWord first 20 .displayName with
      | .error e => ⟨false, base, flags, some e⟩
      | .ok _ =>
        ⟨true, { base with type := CommandType.cmdRename.toUChar, first := first }, flags, none⟩

/-- The branch of a message. -/
def messageParsed : Parsed :=
  let contents : BytesBlock := ⟨some ⟨buffer.mem, 0⟩, buffer.used⟩
  match controlWord contents 14000 .messageContent with
  | .error e => ⟨false, { base with zeroth := contents }, flags, some e⟩
  | .ok _ =>
    ⟨true, { base with type := CommandType.cmdMsg.toUChar, zeroth := contents }, flags, none⟩

/-- The parser with its branches named. -/
theorem userInputToCmds_eq (pBlocks : ProtocolBlocks) (given : buffer.used ≠ 0) :
    let cmdLen := findBlankCharInString ⟨buffer.mem, 0⟩ buffer.used
    let base := commandBlocks buffer pBlocks cmdLen
    let is (command : String) : Bool :=
      strncmpEq ⟨buffer.mem, 0⟩ (ascii command) (unsigned cmdLen)
    userInputToCmds buffer pBlocks flags =
      if is "/auth" then authParsed buffer base flags cmdLen
      else if is "/join" || is "/rename" then argumentParsed buffer base flags cmdLen (is "/join")
      else if is "/help" then
        ⟨true, { base with type := CommandType.cmdHelp.toUChar }, flags, none⟩
      else if is "/exit" then
        ⟨true, { base with type := CommandType.cmdExit.toUChar }, flags, none⟩
      else messageParsed buffer base flags := by
  rw [userInputToCmds, if_neg given]
  rfl

end

/-- A line as `loadBufferFromStdin` leaves it, with a zero byte behind. -/
structure Typed (buffer : Buffer) (line : List UInt8) : Prop where
  bytes : buffer.bytes = line
  zero : buffer.mem buffer.used = 0

namespace Typed
variable {buffer : Buffer} {line : List UInt8} (typed : Typed buffer line)
include typed

theorem used : buffer.used = line.length := by
  rw [← typed.bytes, Buffer.bytes, Memory.length_read]

theorem spells : CharPtr.Spells ⟨buffer.mem, 0⟩ (line ++ [0]) := by
  apply CharPtr.spells_append.mpr
  constructor
  · rw [CharPtr.Spells, ← typed.used]
    exact typed.bytes
  · rw [← typed.used]
    simp [CharPtr.Spells, CharPtr.read, CharPtr.shift, Memory.read_cons, typed.zero]

end Typed

section
variable {buffer : Buffer} {cmd tail : List UInt8} (pBlocks : ProtocolBlocks) (flags : MsgFlags)
  (typed : Typed buffer (cmd ++ tail)) (clear : ∀ x ∈ cmd, isBlankOrEnd x = false)
  (behind : Behind tail)
include typed clear behind

theorem findBlankCharInString_command :
    findBlankCharInString ⟨buffer.mem, 0⟩ buffer.used = cmd.length := by
  have spelled := typed.spells
  rw [List.append_assoc] at spelled
  obtain ⟨c, more, next, hit⟩ := behind.next
  rw [next] at spelled
  refine findBlankCharInString_hit spelled clear hit ?_
  rw [typed.used, List.length_append]
  omega

omit behind in
/-- Every beginning of a command is taken for it. -/
theorem strncmpEq_command (s : String) :
    strncmpEq ⟨buffer.mem, 0⟩ (ascii s) cmd.length = decide (cmd <+: ascii s) := by
  have spelled := typed.spells
  rw [List.append_assoc] at spelled
  have zero : 0 ∉ cmd := fun zero => by
    have no := clear 0 zero
    revert no
    decide
  rw [Bool.eq_iff_iff, decide_eq_true_eq]
  exact strncmpEq_word spelled.left zero

/-- Which branch is taken. -/
theorem userInputToCmds_typed (nonempty : cmd ++ tail ≠ []) :
    userInputToCmds buffer pBlocks flags =
      if cmd <+: ascii "/auth" then
        authParsed buffer (commandBlocks buffer pBlocks cmd.length) flags cmd.length
      else if cmd <+: ascii "/join" ∨ cmd <+: ascii "/rename" then
        argumentParsed buffer (commandBlocks buffer pBlocks cmd.length) flags cmd.length
          (cmd <+: ascii "/join")
      else if cmd <+: ascii "/help" then
        ⟨true, { commandBlocks buffer pBlocks cmd.length with
          type := CommandType.cmdHelp.toUChar }, flags, none⟩
      else if cmd <+: ascii "/exit" then
        ⟨true, { commandBlocks buffer pBlocks cmd.length with
          type := CommandType.cmdExit.toUChar }, flags, none⟩
      else messageParsed buffer (commandBlocks buffer pBlocks cmd.length) flags := by
  have given : buffer.used ≠ 0 := by
    rw [typed.used]
    exact fun zero => nonempty (List.eq_nil_of_length_eq_zero zero)
  rw [userInputToCmds_eq buffer flags pBlocks given]
  simp only [findBlankCharInString_command typed clear behind, unsigned_natCast,
    strncmpEq_command typed clear, Bool.or_eq_true, decide_eq_true_eq]

end

/-! ## Arguments -/

/-- The block of a word at an offset. -/
def wordBlock (m : Memory) (off : Int) (w : List UInt8) : BytesBlock := ⟨some ⟨m, off⟩, w.length⟩

instance (maxLen : Nat) (type : TypeOfWord) (w : List UInt8) :
    Decidable (Controlled maxLen type w) := inferInstanceAs (Decidable (_ ∧ _ ∧ _))

theorem getWord_at {m : Memory} {off size : Int} {b w rest : List UInt8}
    (spelled : CharPtr.Spells ⟨m, off⟩ (b ++ (w ++ (rest ++ [0]))))
    (spaces : ∀ x ∈ b, isSpace x = true) (word : IsWord w) (behind : Behind rest)
    (before : b.length < size) (bound : w.length ≤ size) :
    getWord .null ⟨m, off⟩ size = (true, wordBlock m (off + b.length) w) :=
  getWord_word spelled spaces word behind before bound

theorem controlWord_iff {m : Memory} {off : Int} {w : List UInt8}
    (spelled : CharPtr.Spells ⟨m, off⟩ w) {maxLen : Nat} {type : TypeOfWord} :
    controlWord (wordBlock m off w) maxLen type = .ok () ↔ Controlled maxLen type w := by
  have bytes : (wordBlock m off w).bytes = w := CharPtr.spells_block spelled
  have len : unsigned (wordBlock m off w).len = w.length := unsigned_natCast _
  unfold controlWord Controlled
  simp only [← TypeOfWord.allowed_iff]
  rw [bytes, len]
  by_cases empty : w.length = 0
  · simp [empty]
  by_cases long : maxLen < w.length
  · simp [empty, long]
  · simp only [empty, long, if_false]
    cases found : w.findIdx? fun c => !type.allowed c with
    | some i =>
      have bad : ¬ ∀ c ∈ w, type.allowed c = true := by
        intro all
        have none : w.findIdx? (fun c => !type.allowed c) = none :=
          List.findIdx?_eq_none_iff.mpr (by simpa using all)
        rw [found] at none
        cases none
      simp [bad]
    | none =>
      have all := List.findIdx?_eq_none_iff.mp found
      simp only [Bool.not_eq_false'] at all
      simp only [true_iff]
      exact ⟨by omega, by omega, all⟩

/-- Three words with gaps in front of them. -/
structure Arguments (tail b1 u b2 s b3 n rest : List UInt8) : Prop where
  split : tail = b1 ++ (u ++ (b2 ++ (s ++ (b3 ++ (n ++ rest)))))
  gap1 : IsGap b1
  username : IsWord u
  gap2 : IsGap b2
  secret : IsWord s
  gap3 : IsGap b3
  displayname : IsWord n
  ends : Behind rest

section
variable {buffer : Buffer} {cmd tail b1 u b2 s b3 n rest : List UInt8} (base : ProtocolBlocks)
  (flags : MsgFlags) (typed : Typed buffer (cmd ++ tail))
  (arguments : Arguments tail b1 u b2 s b3 n rest)
include typed arguments

/-- Where the arguments are. -/
theorem Arguments.spells :
    CharPtr.Spells ⟨buffer.mem, cmd.length + b1.length⟩ u ∧
    CharPtr.Spells ⟨buffer.mem, cmd.length + b1.length + u.length + b2.length⟩ s ∧
    CharPtr.Spells
      ⟨buffer.mem, cmd.length + b1.length + u.length + b2.length + s.length + b3.length⟩ n := by
  have whole := typed.spells
  rw [arguments.split] at whole
  simp only [List.append_assoc] at whole
  have first := whole.right.right
  have second := first.right.right
  have third := second.right.right
  simp only [CharPtr.shift, Int.zero_add] at first second third
  exact ⟨first.left, second.left, third.left⟩

/-- The three words are found whatever the gaps are: the bounds, which do not count
them, only grow too large. -/
theorem authParsed_arguments :
    authParsed buffer base flags cmd.length =
      authControlled base flags (wordBlock buffer.mem (cmd.length + b1.length) u)
        (wordBlock buffer.mem (cmd.length + b1.length + u.length + b2.length) s)
        (wordBlock buffer.mem
          (cmd.length + b1.length + u.length + b2.length + s.length + b3.length) n) := by
  have whole := typed.spells
  have used := typed.used
  rw [arguments.split] at whole used
  simp only [List.append_assoc] at whole
  simp only [List.length_append] at used
  have nonzero {l : List UInt8} (word : IsWord l) : 0 < l.length := List.length_pos_iff.mpr word.1
  have some1 := nonzero arguments.username
  have some2 := nonzero arguments.secret
  have some3 := nonzero arguments.displayname
  have at1 := whole.right
  have at2 := at1.right.right
  have at3 := at2.right.right
  simp only [CharPtr.shift, Int.zero_add] at at1 at2 at3
  have word1 : getWord .null ⟨buffer.mem, cmd.length⟩ (buffer.used - cmd.length) =
      (true, wordBlock buffer.mem (cmd.length + b1.length) u) := by
    have spelled : CharPtr.Spells ⟨buffer.mem, cmd.length⟩
        (b1 ++ (u ++ ((b2 ++ (s ++ (b3 ++ (n ++ rest)))) ++ [0]))) := by
      simpa only [List.append_assoc] using at1
    exact getWord_at spelled arguments.gap1.2 arguments.username (arguments.gap2.behind _)
      (by omega) (by omega)
  have word2 : getWord .null ⟨buffer.mem, cmd.length + b1.length + u.length⟩
      (buffer.used - (cmd.length + u.length)) =
      (true, wordBlock buffer.mem (cmd.length + b1.length + u.length + b2.length) s) := by
    have spelled : CharPtr.Spells ⟨buffer.mem, cmd.length + b1.length + u.length⟩
        (b2 ++ (s ++ ((b3 ++ (n ++ rest)) ++ [0]))) := by
      simpa only [List.append_assoc] using at2
    exact getWord_at spelled arguments.gap2.2 arguments.secret (arguments.gap3.behind _)
      (by omega) (by omega)
  have word3 : getWord .null
      ⟨buffer.mem, cmd.length + b1.length + u.length + b2.length + s.length⟩
      (buffer.used - (cmd.length + u.length + s.length)) =
      (true, wordBlock buffer.mem
        (cmd.length + b1.length + u.length + b2.length + s.length + b3.length) n) :=
    getWord_at at3 arguments.gap3.2 arguments.displayname arguments.ends (by omega) (by omega)
  simp only [wordBlock] at word1 word2 word3
  simp only [authParsed, CharPtr.shift, Int.zero_add, word1, word2, word3, wordBlock]

end

/-- The argument of "/join" or "/rename" goes on to the end of the line. -/
theorem argumentParsed_argument {buffer : Buffer} {cmd b w : List UInt8} {x : UInt8}
    (base : ProtocolBlocks) (flags : MsgFlags) (typed : Typed buffer (cmd ++ (b ++ x :: w)))
    (spaces : ∀ y ∈ b, isSpace y = true) (first : isSpace x = false)
    (open_ : ∀ y ∈ x :: w, isLineEnd y = false) (join : Bool) :
    argumentParsed buffer base flags cmd.length join =
      match controlWord (wordBlock buffer.mem (cmd.length + b.length) (x :: w)) 20
        (if join then .channelID else .displayName) with
      | .error e => ⟨false, base, flags, some e⟩
      | .ok _ =>
        ⟨true, { base with
          type := (if join then CommandType.cmdJoin else .cmdRename).toUChar
          first := wordBlock buffer.mem (cmd.length + b.length) (x :: w) }, flags, none⟩ := by
  have whole := typed.spells
  have used := typed.used
  simp only [List.append_assoc] at whole
  simp only [List.length_append] at used
  have here := whole.right
  have there := here.right
  simp only [CharPtr.shift, Int.zero_add] at here there
  have skipped : skipBlankCharsInString ⟨buffer.mem, cmd.length⟩ (buffer.used - cmd.length) =
      b.length := by
    apply skipBlankCharsInString_hit here spaces first
    simp only [List.length_cons] at used
    omega
  have found : findNewLineInString ⟨buffer.mem, cmd.length + b.length⟩
      (buffer.used - cmd.length) = (x :: w).length :=
    findNewLineInString_hit there open_ (by decide) (by omega)
  have hit : ¬ ((x :: w).length : Int) = -1 := by omega
  simp only [argumentParsed, CharPtr.shift, Int.zero_add, skipped, found, hit, if_false]
  cases join <;> rfl

/-! ## Well-formed commands -/

/-- The commands with arguments, as they are typed. -/
inductive TypedCommand where
  | auth (b1 username b2 secret b3 displayname rest : List UInt8)
  | join (b1 channelID : List UInt8)
  | rename (b1 displayname : List UInt8)

namespace TypedCommand

def text : TypedCommand → List UInt8
  | .auth b1 username b2 secret b3 displayname rest =>
    ascii "/auth" ++ (b1 ++ (username ++ (b2 ++ (secret ++ (b3 ++ (displayname ++ rest))))))
  | .join b1 channelID => ascii "/join" ++ (b1 ++ channelID)
  | .rename b1 displayname => ascii "/rename" ++ (b1 ++ displayname)

def WellFormed : TypedCommand → Prop
  | .auth b1 username b2 secret b3 displayname rest =>
    IsGap b1 ∧ Controlled 20 .username username ∧ IsGap b2 ∧ Controlled 128 .secret secret ∧
      IsGap b3 ∧ Controlled 20 .displayName displayname ∧ Behind rest
  | .join b1 channelID => IsGap b1 ∧ Controlled 20 .channelID channelID
  | .rename b1 displayname => IsGap b1 ∧ Controlled 20 .displayName displayname

/-- Accepted, and every argument is in its block. -/
def ParsedAs : TypedCommand → Parsed → Prop
  | .auth _ username _ secret _ displayname _, r =>
    r.result = true ∧ r.pBlocks.type = CommandType.cmdAuth.toUChar ∧ r.flags = .msgFlagAuth ∧
      r.pBlocks.cmdAuthUsername.bytes = username ∧ r.pBlocks.cmdAuthSecret.bytes = secret ∧
      r.pBlocks.cmdAuthDisplayname.bytes = displayname
  | .join _ channelID, r =>
    r.result = true ∧ r.pBlocks.type = CommandType.cmdJoin.toUChar ∧
      r.pBlocks.cmdJoinChannelID.bytes = channelID
  | .rename _ displayname, r =>
    r.result = true ∧ r.pBlocks.type = CommandType.cmdRename.toUChar ∧
      r.pBlocks.cmdRenameDisplayname.bytes = displayname

end TypedCommand

/-- No byte of a name or of credentials is a blank. -/
theorem class_clear {type : TypeOfWord} (other : type ≠ .messageContent) {c : UInt8}
    (h : type.Class c) : isBlankOrEnd c = false := by
  by_contra blank
  simp only [isBlankOrEnd, Bool.not_eq_false, Bool.or_eq_true, beq_iff_eq] at blank
  cases type with
  | messageContent => exact absurd rfl other
  | username | channelID | secret | displayName =>
    rcases blank with (((rfl | rfl) | rfl) | rfl) | rfl <;> revert h <;> decide

theorem Controlled.isWord {maxLen : Nat} {type : TypeOfWord} {w : List UInt8}
    (h : Controlled maxLen type w) (other : type ≠ .messageContent) : IsWord w := by
  refine ⟨fun empty => ?_, fun x mem => class_clear other (h.2.2 x mem)⟩
  have some := h.1
  rw [empty] at some
  cases some

theorem isLineEnd_of_clear {x : UInt8} (h : isBlankOrEnd x = false) : isLineEnd x = false := by
  simp only [isBlankOrEnd, Bool.or_eq_false_iff] at h
  simp [isLineEnd, h]

theorem authControlled_ok {m : Memory} {o1 o2 o3 : Int} {u s n : List UInt8}
    (base : ProtocolBlocks) (flags : MsgFlags) (first : CharPtr.Spells ⟨m, o1⟩ u)
    (second : CharPtr.Spells ⟨m, o2⟩ s) (third : CharPtr.Spells ⟨m, o3⟩ n)
    (username : Controlled 20 .username u) (secret : Controlled 128 .secret s)
    (displayname : Controlled 20 .displayName n) :
    authControlled base flags (wordBlock m o1 u) (wordBlock m o2 s) (wordBlock m o3 n) =
      ⟨true, { base with
        type := CommandType.cmdAuth.toUChar
        first := wordBlock m o1 u, second := wordBlock m o2 s, third := wordBlock m o3 n },
        .msgFlagAuth, none⟩ := by
  simp only [authControlled, (controlWord_iff first).mpr username,
    (controlWord_iff second).mpr secret, (controlWord_iff third).mpr displayname]

/-- The argument of a "/join" or "/rename". -/
theorem argumentParsed_ok {buffer : Buffer} {cmd b w : List UInt8} {type : TypeOfWord}
    (base : ProtocolBlocks) (flags : MsgFlags) (typed : Typed buffer (cmd ++ (b ++ w)))
    (spaces : ∀ y ∈ b, isSpace y = true) (word : Controlled 20 type w) (join : Bool)
    (kind : type = if join then .channelID else .displayName) :
    argumentParsed buffer base flags cmd.length join =
        ⟨true, { base with
          type := (if join then CommandType.cmdJoin else .cmdRename).toUChar
          first := wordBlock buffer.mem (cmd.length + b.length) w }, flags, none⟩ ∧
      (wordBlock buffer.mem (cmd.length + b.length) w).bytes = w := by
  have other : type ≠ .messageContent := by
    rw [kind]
    cases join <;> exact nofun
  obtain ⟨nonempty, clear⟩ := word.isWord other
  have spelled : CharPtr.Spells ⟨buffer.mem, cmd.length + b.length⟩ w := by
    have whole := typed.spells
    simp only [List.append_assoc] at whole
    have there := whole.right.right.left
    simpa only [CharPtr.shift, Int.zero_add] using there
  have controlled := (controlWord_iff spelled).mpr word
  obtain ⟨x, w', rfl⟩ : ∃ x w', w = x :: w' := List.exists_cons_of_ne_nil nonempty
  rw [argumentParsed_argument base flags typed spaces
    (isSpace_of_clear (clear x List.mem_cons_self))
    (fun y mem => isLineEnd_of_clear (clear y mem)) join, ← kind, controlled]
  exact ⟨rfl, CharPtr.spells_block spelled⟩

/-- **Well-formed commands are parsed completely**, whatever the gaps are. -/
theorem parsedAs_of_wellFormed {buffer : Buffer} (command : TypedCommand)
    (formed : command.WellFormed) (typed : Typed buffer command.text) (pBlocks : ProtocolBlocks)
    (flags : MsgFlags) : command.ParsedAs (userInputToCmds buffer pBlocks flags) := by
  cases command with
  | auth b1 username b2 secret b3 displayname rest =>
    obtain ⟨gap1, user, gap2, sec, gap3, display, ends⟩ := formed
    have arguments : Arguments _ b1 username b2 secret b3 displayname rest :=
      ⟨rfl, gap1, user.isWord nofun, gap2, sec.isWord nofun, gap3, display.isWord nofun, ends⟩
    obtain ⟨first, second, third⟩ := arguments.spells typed
    rw [userInputToCmds_typed pBlocks flags typed (by decide +kernel) (gap1.behind _) nofun,
      if_pos (List.prefix_refl _), authParsed_arguments _ flags typed arguments,
      authControlled_ok _ flags first second third user sec display]
    exact ⟨rfl, rfl, rfl, CharPtr.spells_block first, CharPtr.spells_block second,
      CharPtr.spells_block third⟩
  | join b1 channelID =>
    obtain ⟨gap, channel⟩ := formed
    obtain ⟨ok, bytes⟩ := argumentParsed_ok (commandBlocks buffer pBlocks (ascii "/join").length)
      flags typed gap.2 channel true rfl
    rw [userInputToCmds_typed pBlocks flags typed (by decide +kernel) (gap.behind _) nofun,
      if_neg (by decide), if_pos (by decide),
      show decide (ascii "/join" <+: ascii "/join") = true by decide, ok]
    exact ⟨rfl, rfl, bytes⟩
  | rename b1 displayname =>
    obtain ⟨gap, name⟩ := formed
    obtain ⟨ok, bytes⟩ := argumentParsed_ok (commandBlocks buffer pBlocks (ascii "/rename").length)
      flags typed gap.2 name false rfl
    rw [userInputToCmds_typed pBlocks flags typed (by decide +kernel) (gap.behind _) nofun,
      if_neg (by decide), if_pos (by decide),
      show decide (ascii "/rename" <+: ascii "/join") = false by decide, ok]
    exact ⟨rfl, rfl, bytes⟩

/-- The input buffer with a line in it. -/
def typedBuffer (line : List UInt8) : Buffer :=
  ⟨some (Memory.write (fun _ => 0xC4) 0 (line ++ [0])), 256, line.length⟩

theorem typedBuffer_typed (line : List UInt8) : Typed (typedBuffer line) line := by
  have whole : CharPtr.Spells ⟨(typedBuffer line).mem, 0⟩ (line ++ [0]) :=
    Memory.read_write_self (fun _ => 0xC4) 0 (line ++ [0])
  refine ⟨whole.left, ?_⟩
  have last := whole.get
  change (typedBuffer line).mem line.length = 0
  simpa [CharPtr.get] using last

theorem parsedAs_of_wellFormed_auth :
    (TypedCommand.auth (ascii "  ") (ascii "ann") (ascii "\t") (ascii "s3cret") (ascii " ")
      (ascii "Ann!") (ascii " and more")).ParsedAs
      (userInputToCmds (typedBuffer (ascii "/auth  ann\ts3cret Ann! and more")) (.reset 0)
        .msgFlagNone) := by
  have formed : (TypedCommand.auth (ascii "  ") (ascii "ann") (ascii "\t") (ascii "s3cret")
      (ascii " ") (ascii "Ann!") (ascii " and more")).WellFormed :=
    ⟨by decide +kernel, by decide +kernel, by decide +kernel, by decide +kernel, by decide +kernel,
      by decide +kernel, by decide +kernel⟩
  exact parsedAs_of_wellFormed _ formed (typedBuffer_typed _) _ _

end Ipk24Chat
