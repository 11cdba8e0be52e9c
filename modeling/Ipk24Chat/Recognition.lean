import Ipk24Chat.Parsing

/-!
# Which lines are commands

The parser compares the first word of a line with each command over the length of the
word, so that every beginning of a command is taken for it.

* `authParsed_takes`, `argumentParsed_takes`: the branch of a command always treats the
  line as one;
* `recognized_iff_word`: the line is recognized there exactly if its first word is the
  command;
* `recognized_iff`: on which lines exactly only the five commands are.
-/

namespace Ipk24Chat

/-- The commands and their texts. -/
def commandTexts : List (CommandType × String) :=
  [(.cmdAuth, "/auth"), (.cmdJoin, "/join"), (.cmdRename, "/rename"), (.cmdHelp, "/help"),
    (.cmdExit, "/exit")]

/-- The text before the first blank. -/
def commandWord (line : List UInt8) : List UInt8 := line.takeWhile fun x => !isSpace x

/-- The arguments of a command are reported as missing or invalid. A complaint about a
message is one about the whole line. -/
def Parsed.ReportsArguments (r : Parsed) (line : List UInt8) : Prop :=
  r.pBlocks.type = CommandType.cmdMissing.toUChar ∨
    r.complaint ≠ none ∧ r.pBlocks.cmdCommand.bytes ≠ line

/-- Only the five commands are taken for a command, and what is none is a message. -/
structure Recognized (line : List UInt8) (r : Parsed) : Prop where
  command : ∀ c ∈ commandTexts, r.pBlocks.type = c.1.toUChar → commandWord line = ascii c.2
  arguments : r.ReportsArguments line → ∃ c ∈ commandTexts, commandWord line = ascii c.2
  message : (∀ c ∈ commandTexts, commandWord line ≠ ascii c.2) → line.length ≤ 14000 →
    (∀ x ∈ line, 0x20 ≤ x ∧ x ≤ 0x7E) →
    r.result = true ∧ r.pBlocks.type = CommandType.cmdMsg.toUChar ∧
      r.pBlocks.cmdMsgMsgContents.bytes = line

section
variable (buffer : Buffer) (base : ProtocolBlocks) (flags : MsgFlags) (cmdLen : Int)

theorem authParsed_outcome :
    (authParsed buffer base flags cmdLen).pBlocks.type = CommandType.cmdAuth.toUChar ∨
      authParsed buffer base flags cmdLen = missingParsed base flags ∨
      (authParsed buffer base flags cmdLen).pBlocks = base ∧
        (authParsed buffer base flags cmdLen).complaint ≠ none := by
  unfold authParsed
  simp only
  split
  · split
    · split
      · unfold authControlled
        split
        · exact Or.inr (Or.inr ⟨rfl, nofun⟩)
        · exact Or.inr (Or.inr ⟨rfl, nofun⟩)
        · exact Or.inr (Or.inr ⟨rfl, nofun⟩)
        · exact Or.inl rfl
      · exact Or.inr (Or.inl rfl)
    · exact Or.inr (Or.inl rfl)
  · exact Or.inr (Or.inl rfl)

theorem argumentParsed_outcome (join : Bool) :
    (argumentParsed buffer base flags cmdLen join).pBlocks.type =
        (if join then CommandType.cmdJoin else .cmdRename).toUChar ∨
      argumentParsed buffer base flags cmdLen join = missingParsed base flags ∨
      (argumentParsed buffer base flags cmdLen join).pBlocks = base ∧
        (argumentParsed buffer base flags cmdLen join).complaint ≠ none := by
  unfold argumentParsed
  simp only
  split
  · exact Or.inr (Or.inl rfl)
  cases join
  all_goals
    simp only [if_true, Bool.false_eq_true, if_false]
    split
    · exact Or.inr (Or.inr ⟨rfl, nofun⟩)
    · exact Or.inl rfl

end

section
variable {buffer : Buffer} {cmd : List UInt8} (base : ProtocolBlocks) (flags : MsgFlags)
  (typed : Typed buffer cmd)
include typed

/-- Nothing behind the command. -/
theorem authParsed_bare : authParsed buffer base flags cmd.length = missingParsed base flags := by
  simp only [authParsed, typed.used, Int.sub_self, getWord_none]

theorem argumentParsed_bare (nonempty : cmd ≠ []) (clear : ∀ x ∈ cmd, isBlankOrEnd x = false)
    (join : Bool) :
    argumentParsed buffer base flags cmd.length join = missingParsed base flags := by
  obtain ⟨front, last, rfl⟩ : ∃ front last, cmd = front ++ [last] :=
    ⟨_, _, (List.dropLast_append_getLast nonempty).symm⟩
  have used := typed.used
  have whole := typed.spells
  rw [List.append_assoc] at whole
  have spelled : CharPtr.Spells ⟨buffer.mem, 0 + ((front ++ [last]).length : Int) + -1⟩ [last] := by
    have there := whole.right.left
    have back : (0 : Int) + ((front ++ [last]).length : Int) + -1 = 0 + front.length := by
      rw [List.length_append, List.length_singleton]
      omega
    rw [back]
    exact there
  have skipped (p : CharPtr) : skipBlankCharsInString p 0 = -1 := rfl
  have missed := findNewLineInString_miss spelled
    (by simpa using isLineEnd_of_clear (clear last (by simp))) (by simp) (Int.le_refl 0)
  simp only [argumentParsed, used, Int.sub_self, skipped, CharPtr.shift, missed, if_true]

end

/-! ### Printable lines -/

/-- A byte of the lines that are looked at. -/
def Printable (x : UInt8) : Prop := x = ch '\t' ∨ 0x20 ≤ x ∧ x ≤ 0x7E

theorem Printable.blank {x : UInt8} (h : Printable x) : isBlankOrEnd x = isSpace x := by
  have ends : x ≠ 0 ∧ x ≠ ch '\n' ∧ x ≠ ch '\r' := by
    refine ⟨?_, ?_, ?_⟩ <;> rintro rfl <;> revert h <;> unfold Printable <;> decide
  simp [isBlankOrEnd, isSpace, beq_eq_false_iff_ne.mpr ends.1, beq_eq_false_iff_ne.mpr ends.2.1,
    beq_eq_false_iff_ne.mpr ends.2.2]

section
variable {buffer : Buffer} {line : List UInt8} (pBlocks : ProtocolBlocks) (flags : MsgFlags)

theorem commandWord_eq {cmd tail : List UInt8} (clear : ∀ x ∈ cmd, isBlankOrEnd x = false)
    (behind : Behind tail) (printable : ∀ x ∈ cmd ++ tail, Printable x) :
    commandWord (cmd ++ tail) = cmd := by
  have open_ : ∀ x ∈ cmd, isSpace x = false := fun x mem => isSpace_of_clear (clear x mem)
  cases tail with
  | nil => simpa [commandWord] using takeWhile_clear open_
  | cons c more =>
    have space : isSpace c = true := by
      rw [← (printable c (by simp)).blank]
      exact behind c rfl
    exact takeWhile_split open_ space

/-- No command is the beginning of another. -/
theorem commandTexts_begins : ∀ c ∈ commandTexts, ∀ c' ∈ commandTexts,
    ascii c'.2 <+: ascii c.2 → c' = c := by
  decide

/-- A complaint about the whole line would need a line without arguments. -/
theorem reportsArguments_of_refused {cmd tail : List UInt8} (typed : Typed buffer (cmd ++ tail))
    {r : Parsed} (some : tail ≠ []) (blocks : r.pBlocks = commandBlocks buffer pBlocks cmd.length)
    (refused : r.complaint ≠ none) : r.ReportsArguments (cmd ++ tail) := by
  refine Or.inr ⟨refused, fun same => some ?_⟩
  have bytes : r.pBlocks.cmdCommand.bytes = cmd := by
    have whole := typed.spells
    rw [List.append_assoc] at whole
    rw [blocks]
    exact CharPtr.spells_block whole.left
  rw [bytes] at same
  exact List.self_eq_append_right.mp same

/-- The branch of "/auth" always takes the line for a command. -/
theorem authParsed_command {cmd tail : List UInt8} (typed : Typed buffer (cmd ++ tail)) :
    (authParsed buffer (commandBlocks buffer pBlocks cmd.length) flags cmd.length).pBlocks.type =
        CommandType.cmdAuth.toUChar ∨
      (authParsed buffer (commandBlocks buffer pBlocks cmd.length) flags
        cmd.length).ReportsArguments (cmd ++ tail) := by
  by_cases bare : tail = []
  · subst bare
    rw [List.append_nil] at typed
    rw [authParsed_bare _ flags typed]
    exact Or.inr (Or.inl rfl)
  rcases authParsed_outcome buffer _ flags cmd.length with type | missing | ⟨blocks, refused⟩
  · exact Or.inl type
  · rw [missing]
    exact Or.inr (Or.inl rfl)
  · exact Or.inr (reportsArguments_of_refused pBlocks typed bare blocks refused)

theorem argumentParsed_command {cmd tail : List UInt8} (typed : Typed buffer (cmd ++ tail))
    (nonempty : cmd ≠ []) (clear : ∀ x ∈ cmd, isBlankOrEnd x = false) (join : Bool) :
    (argumentParsed buffer (commandBlocks buffer pBlocks cmd.length) flags cmd.length
        join).pBlocks.type = (if join then CommandType.cmdJoin else .cmdRename).toUChar ∨
      (argumentParsed buffer (commandBlocks buffer pBlocks cmd.length) flags cmd.length
        join).ReportsArguments (cmd ++ tail) := by
  by_cases bare : tail = []
  · subst bare
    rw [List.append_nil] at typed
    rw [argumentParsed_bare _ flags typed nonempty clear]
    exact Or.inr (Or.inl rfl)
  rcases argumentParsed_outcome buffer _ flags cmd.length join with
    type | missing | ⟨blocks, refused⟩
  · exact Or.inl type
  · rw [missing]
    exact Or.inr (Or.inl rfl)
  · exact Or.inr (reportsArguments_of_refused pBlocks typed bare blocks refused)

/-- A command in its own branch. -/
theorem recognized_command {r : Parsed} {c : CommandType × String} (listed : c ∈ commandTexts)
    (word : commandWord line = ascii c.2)
    (types : r.pBlocks.type = c.1.toUChar ∨ r.pBlocks.type = CommandType.cmdMissing.toUChar ∨
      r.pBlocks.type = CommandType.cmdNone.toUChar) : Recognized line r := by
  have own : ∀ c ∈ commandTexts, ∀ c' ∈ commandTexts, c.1.toUChar = c'.1.toUChar → c = c' := by
    decide
  have other : ∀ c ∈ commandTexts, CommandType.cmdMissing.toUChar ≠ c.1.toUChar ∧
      CommandType.cmdNone.toUChar ≠ c.1.toUChar := by decide
  refine ⟨fun c' listed' same => ?_, fun _ => ⟨c, listed, word⟩, fun none => ?_⟩
  · rcases types with type | type | type
    · rw [type] at same
      rw [← own c listed c' listed' same]
      exact word
    · exact absurd (type.symm.trans same) (other c' listed').1
    · exact absurd (type.symm.trans same) (other c' listed').2
  · exact absurd word (none c listed)

/-- The branch of a message: the contents are the whole line. -/
theorem messageParsed_recognized {base : ProtocolBlocks} (typed : Typed buffer line)
    (nonempty : line ≠ []) (noCommand : base.type = CommandType.cmdNone.toUChar) :
    Recognized line (messageParsed buffer base flags) := by
  have used : (buffer.used : Int) = line.length := by rw [typed.used]
  have spelled : CharPtr.Spells ⟨buffer.mem, 0⟩ line := typed.spells.left
  have bytes : (wordBlock buffer.mem 0 line).bytes = line := CharPtr.spells_block spelled
  have other : ∀ c ∈ commandTexts, CommandType.cmdMsg.toUChar ≠ c.1.toUChar ∧
      CommandType.cmdNone.toUChar ≠ c.1.toUChar := by decide
  have block : (⟨some ⟨buffer.mem, 0⟩, line.length⟩ : BytesBlock) = wordBlock buffer.mem 0 line :=
    rfl
  unfold messageParsed
  simp only [used, block]
  cases controlled : controlWord (wordBlock buffer.mem 0 line) 14000 .messageContent with
  | error e =>
    refine ⟨fun c listed same => ?_, ?_, fun _ short allowed => ?_⟩
    · exact absurd (noCommand.symm.trans same) (other c listed).2
    · rintro (missing | ⟨-, different⟩)
      · exact absurd (noCommand.symm.trans missing) (by decide)
      · exact absurd bytes different
    · have message : Controlled 14000 .messageContent line := by
        refine ⟨List.length_pos_iff.mpr nonempty, short, fun x mem => ?_⟩
        simpa [TypeOfWord.Class, TypeOfWord.ranges] using allowed x mem
      rw [(controlWord_iff spelled).mpr message] at controlled
      cases controlled
  | ok u =>
    refine ⟨fun c listed same => ?_, ?_, fun _ _ _ => ⟨rfl, rfl, bytes⟩⟩
    · exact absurd same (other c listed).1
    · rintro (missing | ⟨complaint, -⟩)
      · exact absurd (show CommandType.cmdMsg.toUChar = _ from missing) (by decide)
      · exact absurd rfl complaint

/-! ### One command word -/

/-- The outcome of a branch that takes the line for the command `c`: the command, or a report
on its arguments. -/
structure TakesFor (line : List UInt8) (r : Parsed) (c : CommandType × String) : Prop where
  taken : r.pBlocks.type = c.1.toUChar ∨ r.ReportsArguments line
  types : r.pBlocks.type = c.1.toUChar ∨ r.pBlocks.type = CommandType.cmdMissing.toUChar ∨
    r.pBlocks.type = CommandType.cmdNone.toUChar

theorem authParsed_takes {cmd tail : List UInt8} (typed : Typed buffer (cmd ++ tail)) :
    TakesFor (cmd ++ tail) (authParsed buffer (commandBlocks buffer pBlocks cmd.length) flags
      cmd.length) (.cmdAuth, "/auth") := by
  refine ⟨authParsed_command pBlocks flags typed, ?_⟩
  rcases authParsed_outcome buffer _ flags cmd.length with type | missing | ⟨blocks, -⟩
  · exact Or.inl type
  · rw [missing]
    exact Or.inr (Or.inl rfl)
  · rw [blocks]
    exact Or.inr (Or.inr rfl)

theorem argumentParsed_takes {cmd tail : List UInt8} (typed : Typed buffer (cmd ++ tail))
    (nonempty : cmd ≠ []) (clear : ∀ x ∈ cmd, isBlankOrEnd x = false) (join : Bool) :
    TakesFor (cmd ++ tail) (argumentParsed buffer (commandBlocks buffer pBlocks cmd.length) flags
      cmd.length join) (if join then (.cmdJoin, "/join") else (.cmdRename, "/rename")) := by
  have taken := argumentParsed_command pBlocks flags typed nonempty clear join
  have outcome := argumentParsed_outcome buffer (commandBlocks buffer pBlocks cmd.length) flags
    cmd.length join
  rw [show (if join then CommandType.cmdJoin else .cmdRename) =
    (if join then (CommandType.cmdJoin, "/join") else (.cmdRename, "/rename")).1 by
      cases join <;> rfl] at taken outcome
  refine ⟨taken, ?_⟩
  rcases outcome with type | missing | ⟨blocks, -⟩
  · exact Or.inl type
  · rw [missing]
    exact Or.inr (Or.inl rfl)
  · rw [blocks]
    exact Or.inr (Or.inr rfl)

/-- The first word of the line is the beginning of one command only. -/
theorem begins_iff {word : List UInt8} {c : CommandType × String} (listed : c ∈ commandTexts)
    (front : word <+: ascii c.2) :
    (∀ c' ∈ commandTexts, word <+: ascii c'.2 → word = ascii c'.2) ↔ word = ascii c.2 := by
  constructor
  · exact fun whole => whole c listed front
  · rintro rfl c' listed' front'
    rw [commandTexts_begins c' listed' c listed front']

/-- A line that a branch takes for a command has to be that command. -/
theorem recognized_iff_word {r : Parsed} {c : CommandType × String} (listed : c ∈ commandTexts)
    (front : commandWord line <+: ascii c.2) (takes : TakesFor line r c) :
    Recognized line r ↔ commandWord line = ascii c.2 := by
  constructor
  · intro recognized
    have word : ∃ c' ∈ commandTexts, commandWord line = ascii c'.2 := by
      rcases takes.taken with type | reports
      · exact ⟨c, listed, recognized.command c listed type⟩
      · exact recognized.arguments reports
    obtain ⟨c', listed', word⟩ := word
    rw [word] at front
    rw [word, commandTexts_begins c listed c' listed' front]
  · exact fun word => recognized_command listed word takes.types

/-- Commands are recognized exactly on lines whose first word is no proper beginning of a
command. -/
theorem recognized_iff (typed : Typed buffer line) (nonempty : line ≠ [])
    (printable : ∀ x ∈ line, Printable x) :
    Recognized line (userInputToCmds buffer pBlocks flags) ↔
      ∀ c ∈ commandTexts, commandWord line <+: ascii c.2 → commandWord line = ascii c.2 := by
  obtain ⟨cmd, tail, rfl, clear, behind⟩ := exists_command line
  have word := commandWord_eq clear behind printable
  have branch {r : Parsed} {c : CommandType × String} (listed : c ∈ commandTexts)
      (front : cmd <+: ascii c.2) (takes : TakesFor (cmd ++ tail) r c) :
      Recognized (cmd ++ tail) r ↔ ∀ c ∈ commandTexts,
        commandWord (cmd ++ tail) <+: ascii c.2 → commandWord (cmd ++ tail) = ascii c.2 := by
    rw [← word] at front
    exact (recognized_iff_word listed front takes).trans (begins_iff listed front).symm
  rw [userInputToCmds_typed pBlocks flags typed clear behind nonempty]
  split
  · rename_i auth
    exact branch (by decide) auth (authParsed_takes pBlocks flags typed)
  rename_i noAuth
  split
  · rename_i argument
    have nonempty : cmd ≠ [] := by
      rintro rfl
      exact noAuth List.nil_prefix
    have takes := argumentParsed_takes pBlocks flags typed nonempty clear (cmd <+: ascii "/join")
    by_cases join : cmd <+: ascii "/join"
    · simp only [join, decide_true, if_true] at takes ⊢
      exact branch (by decide) join takes
    · simp only [join, decide_false, Bool.false_eq_true, if_false] at takes ⊢
      exact branch (by decide) (argument.resolve_left join) takes
  rename_i noArgument
  split
  · rename_i help
    exact branch (c := (.cmdHelp, "/help")) (by decide) help ⟨Or.inl rfl, Or.inl rfl⟩
  rename_i noHelp
  split
  · rename_i exit
    exact branch (c := (.cmdExit, "/exit")) (by decide) exit ⟨Or.inl rfl, Or.inl rfl⟩
  rename_i noExit
  refine iff_of_true (messageParsed_recognized flags typed nonempty rfl) fun c listed front => ?_
  rw [word] at front
  simp only [commandTexts, List.mem_cons, List.not_mem_nil, or_false] at listed
  rcases listed with rfl | rfl | rfl | rfl | rfl
  · exact absurd front noAuth
  · exact absurd (Or.inl front) noArgument
  · exact absurd (Or.inr front) noArgument
  · exact absurd front noHelp
  · exact absurd front noExit

end

theorem recognized_iff_hello :
    Recognized (ascii "/authorize me") (userInputToCmds (typedBuffer (ascii "/authorize me"))
      (.reset 0) .msgFlagNone) :=
  (recognized_iff (.reset 0) .msgFlagNone (typedBuffer_typed _) (by decide)
    (by unfold Printable; decide +kernel)).mpr (by decide +kernel)

/-- "/h" prints the help. -/
theorem not_recognized_beginning :
    ¬ Recognized (ascii "/h") (userInputToCmds (typedBuffer (ascii "/h")) (.reset 0)
      .msgFlagNone) := by
  intro recognized
  have word := recognized.command (.cmdHelp, "/help") (by decide) (by decide +kernel)
  revert word
  decide

end Ipk24Chat
