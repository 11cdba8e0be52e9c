import Mathlib.Data.List.Infix
import Ipk24Chat.Reading
import Ipk24Chat.Recognition

/-!
# The words of an AUTH

`getWord` steps back in front of the blanks when only blanks are left, and takes the last
byte of the command for a word.

* `exact_of_words`, `exact_of_bare`, `exact_of_spaces`: what stands behind the command;
* `exact_of_separable`, `separable_of_exact`: on which lines this happens;
* `argumentsExact_iff`: both together.
-/

namespace Ipk24Chat

/-- Blanks between two words. -/
def IsBlank (b : List UInt8) : Prop := b ≠ [] ∧ ∀ x ∈ b, isBlankOrEnd x = true

/-- The blocks are the second, third and fourth word of the line, each up to the next
blank. -/
def FromArguments (m : Memory) (line : List UInt8) (b : ProtocolBlocks) : Prop :=
  ∃ b0 w b1 u b2 s b3 n rest,
    line = b0 ++ w ++ b1 ++ (u ++ (b2 ++ (s ++ (b3 ++ (n ++ rest))))) ∧
    (∀ x ∈ b0, isBlankOrEnd x = true) ∧ IsWord w ∧ IsBlank b1 ∧ IsWord u ∧ IsBlank b2 ∧ IsWord s ∧
    IsBlank b3 ∧ IsWord n ∧ Behind rest ∧
    b.cmdAuthUsername = wordBlock m (b0 ++ w ++ b1).length u ∧
    b.cmdAuthSecret = wordBlock m ((b0 ++ w ++ b1).length + u.length + b2.length) s ∧
    b.cmdAuthDisplayname = wordBlock m
      ((b0 ++ w ++ b1).length + u.length + b2.length + s.length + b3.length) n

/-- What is asked of the parser: the words of an AUTH come from the line, and only the
line is read. -/
structure ArgumentsExact (buffer : Buffer) (pBlocks : ProtocolBlocks) (flags : MsgFlags) :
    Prop where
  words : (userInputToCmds buffer pBlocks flags).result = true →
    (userInputToCmds buffer pBlocks flags).pBlocks.type = CommandType.cmdAuth.toUChar →
    FromArguments buffer.mem buffer.bytes (userInputToCmds buffer pBlocks flags).pBlocks
  reads : LineReads buffer.used (Reading.userInputToCmds buffer flags pBlocks).reads

/-- The line is not blank, is not an AUTH followed by three or more spaces and nothing
else, and does not start with a gap in front of the words of an AUTH. -/
structure Separable (line : List UInt8) : Prop where
  notBlank : line ≠ [] → ∃ x ∈ line, isSpace x = false
  notBare : ∀ cmd ∈ ["/a", "/au", "/aut", "/auth"], ∀ b, line = ascii cmd ++ b →
    (∀ x ∈ b, isSpace x = true) → b.length < 3
  notFirst : ∀ b1 u b2 s b3 n rest, Arguments line b1 u b2 s b3 n rest →
    Controlled 20 .username u → Controlled 128 .secret s → ¬ Controlled 20 .displayName n

section
variable {buffer : Buffer} {cmd tail : List UInt8} {pBlocks : ProtocolBlocks} {flags : MsgFlags}

/-- Only the branch of "/auth" makes an AUTH. -/
theorem auth_of_type (typed : Typed buffer (cmd ++ tail))
    (clear : ∀ x ∈ cmd, isBlankOrEnd x = false) (behind : Behind tail)
    (nonempty : cmd ++ tail ≠ [])
    (type : (userInputToCmds buffer pBlocks flags).pBlocks.type = CommandType.cmdAuth.toUChar) :
    cmd <+: ascii "/auth" := by
  by_contra other
  rw [userInputToCmds_typed pBlocks flags typed clear behind nonempty, if_neg other] at type
  split at type
  · rcases argumentParsed_outcome buffer (commandBlocks buffer pBlocks cmd.length) flags cmd.length
      (cmd <+: ascii "/join") with found | missing | ⟨blocks, -⟩
    · rw [found] at type
      revert type
      split <;> decide
    · rw [missing] at type
      cases type
    · rw [blocks] at type
      cases type
  split at type
  · cases type
  split at type
  · cases type
  · unfold messageParsed at type
    simp only at type
    split at type <;> cases type

/-- With its arguments there, an AUTH is made of controlled words. -/
theorem authControlled_result {base : ProtocolBlocks} {m : Memory} {o1 o2 o3 : Int}
    {u s n : List UInt8} (first : CharPtr.Spells ⟨m, o1⟩ u) (second : CharPtr.Spells ⟨m, o2⟩ s)
    (third : CharPtr.Spells ⟨m, o3⟩ n)
    (accepted : (authControlled base flags (wordBlock m o1 u) (wordBlock m o2 s)
      (wordBlock m o3 n)).result = true) :
    Controlled 20 .username u ∧ Controlled 128 .secret s ∧ Controlled 20 .displayName n := by
  unfold authControlled at accepted
  split at accepted
  · cases accepted
  · cases accepted
  · cases accepted
  · rename_i c1 c2 c3
    exact ⟨(controlWord_iff first).mp c1, (controlWord_iff second).mp c2,
      (controlWord_iff third).mp c3⟩

theorem lineReads_authParsed_bare (typed : Typed buffer cmd) (base : ProtocolBlocks) :
    LineReads buffer.used (Reading.authParsed buffer base flags cmd.length).reads := by
  simp only [Reading.authParsed, typed.used, Int.sub_self, Reading.reads_bind,
    Reading.value_getWord, getWord_none]
  exact LineReads.nil _

/-- The beginnings of "/auth". -/
theorem beginnings_auth : ∀ l ∈ (ascii "/auth").inits,
    l = [] ∨ l = ascii "/" ∨ ∃ s ∈ ["/a", "/au", "/aut", "/auth"], l = ascii s := by
  decide

/-- The last byte of the command. -/
theorem Typed.last {front : List UInt8} {x : UInt8} (typed : Typed buffer (front ++ [x] ++ tail)) :
    CharPtr.Spells ⟨buffer.mem, front.length⟩ [x] := by
  have whole := typed.spells
  simp only [List.append_assoc] at whole
  have there := whole.right.left
  simpa [CharPtr.shift] using there

theorem spaces_of_none {l : List UInt8} (none : ¬ ∃ x ∈ l, isSpace x = false) :
    ∀ x ∈ l, isSpace x = true := by
  intro x mem
  by_contra other
  exact none ⟨x, mem, by simpa using other⟩

theorem behind_of_spaces {l : List UInt8} (spaces : ∀ x ∈ l, isSpace x = true) : Behind l := by
  intro x mem
  exact isBlankOrEnd_of_isSpace (spaces x (List.mem_of_mem_head? mem))

/-! ### Where the words are those of the line -/

/-- There is a word behind the command. -/
theorem exact_of_words (typed : Typed buffer (cmd ++ tail))
    (clear : ∀ x ∈ cmd, isBlankOrEnd x = false) (behind : Behind tail)
    (some : ∃ x ∈ tail, isSpace x = false)
    (notFirst : ∀ b1 u b2 s b3 n rest, cmd = [] → Arguments tail b1 u b2 s b3 n rest →
      Controlled 20 .username u → Controlled 128 .secret s → ¬ Controlled 20 .displayName n) :
    ArgumentsExact buffer pBlocks flags := by
  have nonempty : cmd ++ tail ≠ [] := by
    obtain ⟨x, mem, -⟩ := some
    exact List.append_ne_nil_of_right_ne_nil _ (List.ne_nil_of_mem mem)
  constructor
  · intro accepted type
    have auth := auth_of_type typed clear behind nonempty type
    rw [userInputToCmds_typed pBlocks flags typed clear behind nonempty,
      if_pos auth] at accepted ⊢
    rcases (authParsed_words _ flags typed behind some).2 with missing |
      ⟨b1, u, b2, s, b3, n, rest, arguments⟩
    · rw [missing] at accepted
      cases accepted
    obtain ⟨first, second, third⟩ := arguments.spells typed
    rw [authParsed_arguments _ flags typed arguments] at accepted ⊢
    obtain ⟨username, secret, displayname⟩ := authControlled_result first second third accepted
    have command : IsWord cmd :=
      ⟨fun none => notFirst _ _ _ _ _ _ _ none arguments username secret displayname, clear⟩
    rw [authControlled_ok _ flags first second third username secret displayname]
    have blank {b : List UInt8} (gap : IsGap b) : IsBlank b :=
      ⟨gap.1, fun x mem => isBlankOrEnd_of_isSpace (gap.2 x mem)⟩
    refine ⟨[], cmd, b1, u, b2, s, b3, n, rest, ?_, List.forall_mem_nil _, command,
      blank arguments.gap1, arguments.username, blank arguments.gap2, arguments.secret,
      blank arguments.gap3, arguments.displayname, arguments.ends, ?_⟩
    · rw [typed.bytes, arguments.split]
      simp only [List.nil_append, List.append_assoc]
    · simp only [List.nil_append, List.length_append, Int.natCast_add, and_self]
  · apply (lineReads_userInputToCmds_iff flags typed pBlocks clear behind nonempty).mpr
    exact fun _ => (authParsed_words _ flags typed behind some).1

/-- There is nothing behind the command. -/
theorem exact_of_bare (typed : Typed buffer cmd) (clear : ∀ x ∈ cmd, isBlankOrEnd x = false)
    (nonempty : cmd ≠ []) : ArgumentsExact buffer pBlocks flags := by
  have behind : Behind ([] : List UInt8) := by rintro _ ⟨⟩
  have typed' : Typed buffer (cmd ++ []) := by rwa [List.append_nil]
  have nonempty' : cmd ++ [] ≠ [] := by rwa [List.append_nil]
  constructor
  · intro accepted type
    have auth := auth_of_type typed' clear behind nonempty' type
    rw [userInputToCmds_typed pBlocks flags typed' clear behind nonempty', if_pos auth,
      authParsed_bare _ flags typed] at accepted
    cases accepted
  · apply (lineReads_userInputToCmds_iff flags typed' pBlocks clear behind nonempty').mpr
    exact fun _ => lineReads_authParsed_bare typed _

/-- There are only spaces behind the command, and not three of them behind an AUTH. -/
theorem exact_of_spaces {front : List UInt8} {x : UInt8}
    (typed : Typed buffer (front ++ [x] ++ tail))
    (clear : ∀ y ∈ front ++ [x], isBlankOrEnd y = false) (behind : Behind tail)
    (bare : tail ≠ []) (spaces : ∀ y ∈ tail, isSpace y = true)
    (notBare : ∀ cmd ∈ ["/a", "/au", "/aut", "/auth"], front ++ [x] = ascii cmd →
      tail.length < 3) : ArgumentsExact buffer pBlocks flags := by
  have nonempty : front ++ [x] ++ tail ≠ [] := by simp
  have last : isBlankOrEnd x = false := clear x (by simp)
  constructor
  · intro accepted type
    have auth := auth_of_type typed clear behind nonempty type
    rw [userInputToCmds_typed pBlocks flags typed clear behind nonempty, if_pos auth,
      (authParsed_spaces _ flags typed last spaces bare).2] at accepted
    split at accepted
    · cases accepted
    rename_i three
    have spelled := typed.last
    obtain ⟨username, -, -⟩ := authControlled_result spelled spelled spelled accepted
    rcases beginnings_auth _ ((List.mem_inits _ _).mpr auth) with none | slash | ⟨s, listed, same⟩
    · exact absurd none (by simp)
    · -- a slash is no user name
      have letter : x = ch '/' := by
        have equal := congrArg List.getLast? slash
        simpa [ascii] using equal
      have allowed := username.2.2 x (by simp)
      rw [letter] at allowed
      exact absurd allowed (by decide)
    · exact absurd (notBare s listed same) three
  · apply (lineReads_userInputToCmds_iff flags typed pBlocks clear behind nonempty).mpr
    exact fun _ => (authParsed_spaces _ flags typed last spaces bare).1

theorem exact_of_separable {line : List UInt8} (typed : Typed buffer line)
    (separable : Separable line) : ArgumentsExact buffer pBlocks flags := by
  by_cases empty : line = []
  · have used : buffer.used = 0 := by rw [typed.used, empty]; rfl
    constructor
    · intro accepted
      rw [userInputToCmds, if_pos used] at accepted
      cases accepted
    · rw [Reading.userInputToCmds, if_pos used]
      exact LineReads.nil _
  obtain ⟨cmd, tail, rfl, clear, behind⟩ := exists_command line
  by_cases some : ∃ x ∈ tail, isSpace x = false
  · refine exact_of_words typed clear behind some ?_
    rintro b1 u b2 s b3 n rest rfl arguments
    exact separable.notFirst b1 u b2 s b3 n rest arguments
  by_cases bare : tail = []
  · subst bare
    rw [List.append_nil] at typed empty
    exact exact_of_bare typed clear empty
  -- only spaces behind the command, so there is a command
  have command : cmd ≠ [] := by
    rintro rfl
    exact some (separable.notBlank bare)
  obtain ⟨front, x, rfl⟩ : ∃ front x, cmd = front ++ [x] :=
    ⟨_, _, (List.dropLast_append_getLast command).symm⟩
  have spaces := spaces_of_none some
  refine exact_of_spaces typed clear behind bare spaces fun s listed same => ?_
  exact separable.notBare s listed tail (by rw [same]) spaces

/-! ### Where they are not -/

/-- What stands in front of the words ends in a word and blanks. -/
theorem FromArguments.front {m : Memory} {line : List UInt8} {b : ProtocolBlocks}
    (h : FromArguments m line b) {front behind u : List UInt8} (split : line = front ++ behind)
    (first : b.cmdAuthUsername = wordBlock m front.length u) :
    ∃ b0 w b1, front = b0 ++ w ++ b1 ∧ IsWord w ∧ IsBlank b1 := by
  obtain ⟨b0, w, b1, u', b2, s, b3, n, rest, parts, -, word, blank, -, -, -, -, -, -, place, -⟩ := h
  refine ⟨b0, w, b1, ?_, word, blank⟩
  rw [place] at first
  simp only [wordBlock, BytesBlock.mk.injEq, Option.some.injEq, CharPtr.mk.injEq, true_and] at first
  have len : (b0 ++ w ++ b1).length = front.length := by exact_mod_cast first.1
  exact ((List.append_inj (parts.symm.trans split) len).1).symm

/-- A beginning of "/auth" ends in a byte that could be a word. -/
theorem auth_beginning : ∀ cmd ∈ ["/a", "/au", "/aut", "/auth"], ∃ front x,
    ascii cmd = front ++ [x] ∧ (∀ y ∈ ascii cmd, isBlankOrEnd y = false) ∧
      ascii cmd <+: ascii "/auth" ∧ Controlled 20 .username [x] ∧ Controlled 128 .secret [x] ∧
      Controlled 20 .displayName [x] := by
  have all : ∀ cmd ∈ ["/a", "/au", "/aut", "/auth"],
      ascii cmd = (ascii cmd).dropLast ++ [(ascii cmd).getLastD 0] ∧
        (∀ y ∈ ascii cmd, isBlankOrEnd y = false) ∧ ascii cmd <+: ascii "/auth" ∧
        Controlled 20 .username [(ascii cmd).getLastD 0] ∧
        Controlled 128 .secret [(ascii cmd).getLastD 0] ∧
        Controlled 20 .displayName [(ascii cmd).getLastD 0] := by
    decide +kernel
  exact fun cmd listed => ⟨_, _, all cmd listed⟩

/-- On a blank line the byte in front of it is read. -/
theorem notBlank_of_reads {line : List UInt8} (typed : Typed buffer line) (nonempty : line ≠ [])
    (reads : LineReads buffer.used (Reading.userInputToCmds buffer flags pBlocks).reads) :
    ∃ x ∈ line, isSpace x = false := by
  by_contra none
  have spaces := spaces_of_none none
  have typed' : Typed buffer ([] ++ line) := typed
  have inside := (lineReads_userInputToCmds_iff flags typed' pBlocks nofun
    (behind_of_spaces spaces) nonempty).mp reads List.nil_prefix
  have used := typed.used
  have positive : 0 < line.length := List.length_pos_iff.mpr nonempty
  have missed : skipBlankCharsInString ⟨buffer.mem, 0⟩ buffer.used = -1 := by
    rw [used]
    exact skipBlankCharsInString_miss typed.spells.left spaces
  have before : -1 ∈ (Reading.getWord .null ⟨buffer.mem, 0⟩ buffer.used).reads := by
    have given : unsigned (buffer.used : Int) ≠ 0 := by
      rw [unsigned_natCast]
      omega
    simp only [Reading.getWord, given, if_false, Reading.reads_bind,
      Reading.skipBlankCharsInString, missed, Reading.findBlankCharInString, scanReads]
    simp [CharPtr.shift]
  have out := (lineReads_append.mp inside).1
  simp only [List.length_nil, Int.cast_ofNat_Int, CharPtr.shift_zero, Int.sub_zero] at out
  exact absurd (out (-1) before).1 (by decide)

/-- With three spaces behind it the last byte of "/auth" is taken for all three words. -/
theorem notBare_of_words {c : String} (listed : c ∈ ["/a", "/au", "/aut", "/auth"])
    (typed : Typed buffer (ascii c ++ tail)) (spaces : ∀ x ∈ tail, isSpace x = true)
    (words : (userInputToCmds buffer pBlocks flags).result = true →
      (userInputToCmds buffer pBlocks flags).pBlocks.type = CommandType.cmdAuth.toUChar →
      FromArguments buffer.mem buffer.bytes (userInputToCmds buffer pBlocks flags).pBlocks) :
    tail.length < 3 := by
  by_contra three
  obtain ⟨front, x, ends, clear, auth, username, secret, displayname⟩ := auth_beginning c listed
  rw [ends] at typed clear auth
  have nonempty : tail ≠ [] := by
    rintro rfl
    exact three (by decide)
  have last : isBlankOrEnd x = false := clear x (by simp)
  have spelled := typed.last
  have parsed := userInputToCmds_typed pBlocks flags typed clear (behind_of_spaces spaces)
    (by simp)
  rw [if_pos auth, (authParsed_spaces _ flags typed last spaces nonempty).2, if_neg three,
    authControlled_ok _ flags spelled spelled spelled username secret displayname] at parsed
  have words := words (by rw [parsed]) (by rw [parsed])
  rw [parsed, typed.bytes, List.append_assoc] at words
  obtain ⟨b0, w, b1, split, -, blank⟩ := words.front rfl rfl
  -- the command would have a blank
  obtain ⟨y, mem⟩ := List.exists_mem_of_ne_nil b1 blank.1
  have no := clear y (by simp [split, mem])
  rw [blank.2 y mem] at no
  cases no

/-- Behind a gap the words of an AUTH are taken without a command. -/
theorem notFirst_of_words {line : List UInt8} (typed : Typed buffer line)
    {b1 u b2 s b3 n rest : List UInt8} (arguments : Arguments line b1 u b2 s b3 n rest)
    (username : Controlled 20 .username u) (secret : Controlled 128 .secret s)
    (words : (userInputToCmds buffer pBlocks flags).result = true →
      (userInputToCmds buffer pBlocks flags).pBlocks.type = CommandType.cmdAuth.toUChar →
      FromArguments buffer.mem buffer.bytes (userInputToCmds buffer pBlocks flags).pBlocks) :
    ¬ Controlled 20 .displayName n := by
  intro displayname
  have typed' : Typed buffer ([] ++ line) := typed
  have behind : Behind line := by
    rw [arguments.split]
    exact arguments.gap1.behind _
  have nonempty : [] ++ line ≠ [] := by
    rw [arguments.split]
    simp [arguments.gap1.1]
  obtain ⟨first, second, third⟩ := arguments.spells typed'
  have parsed := userInputToCmds_typed pBlocks flags typed' nofun behind nonempty
  rw [if_pos List.nil_prefix, authParsed_arguments _ flags typed' arguments,
    authControlled_ok _ flags first second third username secret displayname] at parsed
  have words := words (by rw [parsed]) (by rw [parsed])
  rw [parsed, typed.bytes] at words
  have place : wordBlock buffer.mem (([] : List UInt8).length + b1.length) u =
      wordBlock buffer.mem b1.length u := by simp
  obtain ⟨b0, w, b1', split, word, -⟩ := words.front arguments.split place
  -- the gap would have a word
  obtain ⟨y, mem⟩ := List.exists_mem_of_ne_nil w word.1
  have no := isSpace_of_clear (word.2 y mem)
  rw [arguments.gap1.2 y (by simp [split, mem])] at no
  cases no

theorem separable_of_exact {line : List UInt8} (typed : Typed buffer line)
    (exact_ : ArgumentsExact buffer pBlocks flags) : Separable line := by
  refine ⟨fun nonempty => notBlank_of_reads typed nonempty exact_.reads, ?_, ?_⟩
  · rintro cmd listed b rfl spaces
    exact notBare_of_words listed typed spaces exact_.words
  · intro b1 u b2 s b3 n rest arguments username secret
    exact notFirst_of_words typed arguments username secret exact_.words

theorem argumentsExact_iff {line : List UInt8} (typed : Typed buffer line) :
    ArgumentsExact buffer pBlocks flags ↔ Separable line :=
  ⟨separable_of_exact typed, exact_of_separable typed⟩

end

theorem argumentsExact_ann :
    ArgumentsExact (typedBuffer (ascii "/auth ann pw Ann")) (.reset 0) .msgFlagNone := by
  have separable : Separable (ascii "/auth ann pw Ann") := by
    refine ⟨by decide, fun cmd listed b split spaces => ?_,
      fun b1 u b2 s b3 n rest arguments _ _ _ => ?_⟩
    · have rest : b = (ascii "/auth ann pw Ann").drop (ascii cmd).length := by
        rw [split, List.drop_left]
      have all : ∀ cmd ∈ ["/a", "/au", "/aut", "/auth"],
          ¬ ∀ x ∈ (ascii "/auth ann pw Ann").drop (ascii cmd).length, isSpace x = true := by
        decide
      exact absurd (rest ▸ spaces) (all cmd listed)
    · obtain ⟨y, b1, rfl⟩ := List.exists_cons_of_ne_nil arguments.gap1.1
      have first : ch '/' = y := (List.cons.inj arguments.split).1
      have space := arguments.gap1.2 y List.mem_cons_self
      rw [← first] at space
      revert space
      decide
  exact (argumentsExact_iff (typedBuffer_typed _)).mpr separable

/-- Three spaces behind "/auth": its last letter is user name, secret and display name. -/
theorem not_argumentsExact_spaces :
    ¬ ArgumentsExact (typedBuffer (ascii "/auth   ")) (.reset 0) .msgFlagNone := by
  intro exact_
  have separable := separable_of_exact (typedBuffer_typed _) exact_
  have short := separable.notBare "/auth" (by decide) (ascii "   ") (by decide) (by decide +kernel)
  revert short
  decide

end Ipk24Chat
