import Ipk24Chat.Parsing

/-!
# Which bytes the parser reads

The functions of `userInputToCmds` once more, with the offsets they read.

* `Reading.value_userInputToCmds`: the traced parser computes what the parser computes;
* `authParsed_words`, `authParsed_spaces`: the branch of "/auth" with and without anything
  but spaces behind the command;
* `lineReads_userInputToCmds_iff`: only that branch can leave the line.
-/

namespace Ipk24Chat

/-- A value, and the offsets of the bytes that were read for it. -/
structure Reading (α : Type) where
  value : α
  reads : List Int

instance : Monad Reading where
  pure a := ⟨a, []⟩
  bind x f := ⟨(f x.value).value, x.reads ++ (f x.value).reads⟩

namespace Reading
variable {α β : Type}

@[simp] theorem value_pure (a : α) : (pure a : Reading α).value = a := rfl

@[simp] theorem reads_pure (a : α) : (pure a : Reading α).reads = [] := rfl

@[simp] theorem value_bind (x : Reading α) (f : α → Reading β) :
    (x >>= f).value = (f x.value).value := rfl

@[simp] theorem reads_bind (x : Reading α) (f : α → Reading β) :
    (x >>= f).reads = x.reads ++ (f x.value).reads := rfl

end Reading

/-- A search reads up to its first stop byte. -/
def scanReads (stop : UInt8 → Bool) (p : CharPtr) : Nat → List Int
  | 0 => []
  | n + 1 => p.off :: if stop (p.get 0) then [] else scanReads stop (p.shift 1) n

/-- A comparison reads up to the first difference or zero byte. -/
def strncmpReads (p : CharPtr) : List UInt8 → Nat → List Int
  | _, 0 => []
  | [], _ + 1 => [p.off]
  | c :: text, n + 1 => p.off :: if p.get 0 == c then strncmpReads (p.shift 1) text n else []

/-- `controlWord` looks at every byte of the word, or prints the word. -/
def blockReads (block : BytesBlock) : List Int :=
  match block.start with
  | none => []
  | some p => (List.range (unsigned block.len)).map fun i : Nat => p.off + i

namespace Reading

def findBlankCharInString (string : CharPtr) (len : Int) : Reading Int :=
  ⟨Ipk24Chat.findBlankCharInString string len, scanReads isBlankOrEnd string (unsigned len + 1)⟩

def findNewLineInString (string : CharPtr) (len : Int) : Reading Int :=
  ⟨Ipk24Chat.findNewLineInString string len, scanReads isLineEnd string (unsigned len + 1)⟩

def skipBlankCharsInString (string : CharPtr) (len : Int) : Reading Int :=
  ⟨Ipk24Chat.skipBlankCharsInString string len,
    scanReads (fun c => !(c == ch ' ' || c == ch '\t')) string (unsigned len)⟩

def strncmpEq (p : CharPtr) (text : List UInt8) (n : Nat) : Reading Bool :=
  ⟨Ipk24Chat.strncmpEq p text n, strncmpReads p text n⟩

def controlWord (wordBlock : BytesBlock) (maxLen : Nat) (typeOfWord : TypeOfWord) :
    Reading (Except WordError Unit) :=
  ⟨Ipk24Chat.controlWord wordBlock maxLen typeOfWord, blockReads wordBlock⟩

def getWord (block : BytesBlock) (startOfLastWord : CharPtr) (bufferSize : Int) :
    Reading (Bool × BytesBlock) :=
  if unsigned bufferSize = 0 then return (false, block)
  else do
    let start := startOfLastWord.shift (← skipBlankCharsInString startOfLastWord bufferSize)
    let len ← findBlankCharInString start (bufferSize - block.len)
    return (decide (len ≠ 0), ⟨some start, len⟩)

@[simp] theorem value_getWord (block : BytesBlock) (p : CharPtr) (size : Int) :
    (getWord block p size).value = Ipk24Chat.getWord block p size := by
  unfold getWord Ipk24Chat.getWord
  split <;> rfl

section
variable (buffer : Buffer) (base : ProtocolBlocks) (flags : MsgFlags) (cmdLen : Int)

def authControlled (first second third : BytesBlock) : Reading Parsed := do
  match ← controlWord first 20 .username with
  | .error e => return ⟨false, base, flags, some e⟩
  | .ok _ =>
    match ← controlWord second 128 .secret with
    | .error e => return ⟨false, base, flags, some e⟩
    | .ok _ =>
      match ← controlWord third 20 .displayName with
      | .error e => return ⟨false, base, flags, some e⟩
      | .ok _ =>
        return ⟨true, { base with
          type := CommandType.cmdAuth.toUChar
          first := first, second := second, third := third }, .msgFlagAuth, none⟩

def authParsed : Reading Parsed := do
  let behind := (CharPtr.mk buffer.mem 0).shift cmdLen
  let used : Int := buffer.used
  match ← getWord .null behind (used - cmdLen) with
  | (true, ⟨some p1, len1⟩) =>
    match ← getWord .null (p1.shift len1) (used - (cmdLen + len1)) with
    | (true, ⟨some p2, len2⟩) =>
      match ← getWord .null (p2.shift len2) (used - (cmdLen + len1 + len2)) with
      | (true, ⟨some p3, len3⟩) =>
        authControlled base flags ⟨some p1, len1⟩ ⟨some p2, len2⟩ ⟨some p3, len3⟩
      | _ => return missingParsed base flags
    | _ => return missingParsed base flags
  | _ => return missingParsed base flags

def argumentParsed (join : Bool) : Reading Parsed := do
  let behind := (CharPtr.mk buffer.mem 0).shift cmdLen
  let used : Int := buffer.used
  let start := behind.shift (← skipBlankCharsInString behind (used - cmdLen))
  let len ← findNewLineInString start (used - cmdLen)
  if len = -1 then return missingParsed base flags
  else
    let first : BytesBlock := ⟨some start, len⟩
    if join then
      match ← controlWord first 20 .channelID with
      | .error e => return ⟨false, base, flags, some e⟩
      | .ok _ =>
        return ⟨true, { base with
          type := CommandType.cmdJoin.toUChar, first := first }, flags, none⟩
    else
      match ← controlWord first 20 .displayName with
      | .error e => return ⟨false, base, flags, some e⟩
      | .ok _ =>
        return ⟨true, { base with
          type := CommandType.cmdRename.toUChar, first := first }, flags, none⟩

def messageParsed : Reading Parsed := do
  let contents : BytesBlock := ⟨some ⟨buffer.mem, 0⟩, buffer.used⟩
  match ← controlWord contents 14000 .messageContent with
  | .error e => return ⟨false, { base with zeroth := contents }, flags, some e⟩
  | .ok _ =>
    return ⟨true, { base with type := CommandType.cmdMsg.toUChar, zeroth := contents }, flags, none⟩

def userInputToCmds (pBlocks : ProtocolBlocks) : Reading Parsed :=
  if buffer.used = 0 then
    return ⟨false, { pBlocks with type := CommandType.cmdNone.toUChar }, flags, none⟩
  else do
    let cmdLen ← findBlankCharInString ⟨buffer.mem, 0⟩ buffer.used
    let base := commandBlocks buffer pBlocks cmdLen
    let is (command : String) : Reading Bool :=
      strncmpEq ⟨buffer.mem, 0⟩ (ascii command) (unsigned cmdLen)
    if ← is "/auth" then authParsed buffer base flags cmdLen
    else if ← is "/join" then argumentParsed buffer base flags cmdLen true
    else if ← is "/rename" then argumentParsed buffer base flags cmdLen false
    else if ← is "/help" then
      return ⟨true, { base with type := CommandType.cmdHelp.toUChar }, flags, none⟩
    else if ← is "/exit" then
      return ⟨true, { base with type := CommandType.cmdExit.toUChar }, flags, none⟩
    else messageParsed buffer base flags

theorem value_authControlled (first second third : BytesBlock) :
    (authControlled base flags first second third).value =
      Ipk24Chat.authControlled base flags first second third := by
  unfold Ipk24Chat.authControlled
  cases c1 : Ipk24Chat.controlWord first 20 .username with
  | error e => simp [authControlled, controlWord, c1]
  | ok _ =>
    cases c2 : Ipk24Chat.controlWord second 128 .secret with
    | error e => simp [authControlled, controlWord, c1, c2]
    | ok _ =>
      cases c3 : Ipk24Chat.controlWord third 20 .displayName with
      | error e => simp [authControlled, controlWord, c1, c2, c3]
      | ok _ => simp [authControlled, controlWord, c1, c2, c3]

theorem value_authParsed :
    (authParsed buffer base flags cmdLen).value =
      Ipk24Chat.authParsed buffer base flags cmdLen := by
  unfold authParsed Ipk24Chat.authParsed
  simp only [value_bind, value_getWord]
  -- without a word in its block the match falls through to the missing arguments
  rcases Ipk24Chat.getWord .null _ _ with ⟨_ | _, ⟨_ | p1, len1⟩⟩ <;> try rfl
  simp only [value_bind, value_getWord]
  rcases Ipk24Chat.getWord .null _ _ with ⟨_ | _, ⟨_ | p2, len2⟩⟩ <;> try rfl
  simp only [value_bind, value_getWord]
  rcases Ipk24Chat.getWord .null _ _ with ⟨_ | _, ⟨_ | p3, len3⟩⟩ <;> try rfl
  exact value_authControlled base flags _ _ _

theorem value_argumentParsed (join : Bool) :
    (argumentParsed buffer base flags cmdLen join).value =
      Ipk24Chat.argumentParsed buffer base flags cmdLen join := by
  unfold argumentParsed Ipk24Chat.argumentParsed
  simp only [value_bind, skipBlankCharsInString, findNewLineInString]
  split
  · rfl
  cases join
  all_goals
    simp only [if_true, Bool.false_eq_true, if_false, value_bind, controlWord]
    cases Ipk24Chat.controlWord _ 20 _ <;> rfl

theorem value_messageParsed :
    (messageParsed buffer base flags).value = Ipk24Chat.messageParsed buffer base flags := by
  unfold messageParsed Ipk24Chat.messageParsed
  simp only [value_bind, controlWord]
  cases Ipk24Chat.controlWord _ 14000 _ <;> rfl

/-- The traced parser computes what the parser computes. -/
theorem value_userInputToCmds (pBlocks : ProtocolBlocks) :
    (userInputToCmds buffer flags pBlocks).value =
      Ipk24Chat.userInputToCmds buffer pBlocks flags := by
  by_cases empty : buffer.used = 0
  · rw [userInputToCmds, Ipk24Chat.userInputToCmds, if_pos empty, if_pos empty]
    rfl
  rw [userInputToCmds, if_neg empty, userInputToCmds_eq buffer flags pBlocks empty]
  simp only [value_bind, findBlankCharInString, strncmpEq]
  generalize Ipk24Chat.findBlankCharInString ⟨buffer.mem, 0⟩ buffer.used = cmdLen
  cases auth : Ipk24Chat.strncmpEq ⟨buffer.mem, 0⟩ (ascii "/auth") (unsigned cmdLen)
  case true => exact value_authParsed buffer _ flags cmdLen
  simp only [Bool.false_eq_true, if_false, value_bind]
  cases join : Ipk24Chat.strncmpEq ⟨buffer.mem, 0⟩ (ascii "/join") (unsigned cmdLen)
  case true => exact value_argumentParsed buffer _ flags cmdLen true
  simp only [Bool.false_eq_true, if_false, Bool.false_or, value_bind]
  cases rename : Ipk24Chat.strncmpEq ⟨buffer.mem, 0⟩ (ascii "/rename") (unsigned cmdLen)
  case true => exact value_argumentParsed buffer _ flags cmdLen false
  simp only [Bool.false_eq_true, if_false, value_bind]
  cases help : Ipk24Chat.strncmpEq ⟨buffer.mem, 0⟩ (ascii "/help") (unsigned cmdLen)
  case true => rfl
  simp only [Bool.false_eq_true, if_false, value_bind]
  by_cases exit : Ipk24Chat.strncmpEq ⟨buffer.mem, 0⟩ (ascii "/exit") (unsigned cmdLen) = true
  · rw [if_pos exit, if_pos exit]
    rfl
  · rw [if_neg exit, if_neg exit]
    exact value_messageParsed buffer _ flags

end

end Reading

/-! ## Reads inside the line -/

/-- Nothing outside 0 to `used` is read. -/
def LineReads (used : Nat) (reads : List Int) : Prop := ∀ o ∈ reads, 0 ≤ o ∧ o ≤ used

theorem LineReads.nil (used : Nat) : LineReads used [] := nofun

theorem lineReads_append {used : Nat} {a b : List Int} :
    LineReads used (a ++ b) ↔ LineReads used a ∧ LineReads used b := List.forall_mem_append

/-- A search stops at the next stop byte at the latest. -/
theorem scanReads_le {stop : UInt8 → Bool} {p : CharPtr} {n : Nat} {e : Int}
    (hit : stop (p.mem e) = true) (before : p.off ≤ e) :
    ∀ o ∈ scanReads stop p n, p.off ≤ o ∧ o ≤ e := by
  induction n generalizing p with
  | zero => exact nofun
  | succ n ih =>
    rw [scanReads, List.forall_mem_cons]
    refine ⟨⟨Int.le_refl _, before⟩, ?_⟩
    split
    · exact nofun
    · rename_i open_
      have other : p.off ≠ e := by
        intro same
        rw [CharPtr.get, Int.add_zero, same] at open_
        exact open_ hit
      intro o mem
      have next : (p.shift 1).off = p.off + 1 := rfl
      have found := ih (p := p.shift 1) hit (by omega) o mem
      omega

theorem strncmpReads_lt {p : CharPtr} {text : List UInt8} {n : Nat} :
    ∀ o ∈ strncmpReads p text n, p.off ≤ o ∧ o < p.off + n := by
  induction n generalizing p text with
  | zero => simp [strncmpReads]
  | succ n ih =>
    cases text with
    | nil =>
      rw [strncmpReads, List.forall_mem_singleton]
      omega
    | cons c text =>
      rw [strncmpReads, List.forall_mem_cons]
      refine ⟨by omega, ?_⟩
      split
      · intro o mem
        have next : (p.shift 1).off = p.off + 1 := rfl
        have found := ih o mem
        omega
      · exact nofun

section
variable {m : Memory} {used : Nat} (zero : m used = 0)
include zero

theorem lineReads_blank {off : Int} {n : Nat} (low : 0 ≤ off) (high : off ≤ used) :
    LineReads used (scanReads isBlankOrEnd ⟨m, off⟩ n) := by
  intro o mem
  have stop : isBlankOrEnd (m used) = true := by
    rw [zero]
    decide
  have found := scanReads_le (p := ⟨m, off⟩) stop high o mem
  exact ⟨Int.le_trans low found.1, found.2⟩

omit zero in
/-- A search does not go past a stop byte. -/
theorem scan_le {stop : UInt8 → Bool} {off e : Int} {n k : Nat} (hit : stop (m e) = true)
    (before : off ≤ e) (found : CharPtr.scan stop ⟨m, off⟩ n = some k) : off + k ≤ e := by
  obtain ⟨-, -, clear⟩ := Memory.scan_some found
  by_contra past
  have mem : m e ∈ m.read off k := by
    refine List.mem_map.mpr ⟨(e - off).toNat, List.mem_range.mpr (by omega), ?_⟩
    rw [show off + (((e - off).toNat : Nat) : Int) = e by omega]
  rw [clear _ mem] at hit
  cases hit

/-- Where a search for the next word can end up. -/
theorem skip_start {off : Int} (high : off ≤ used) (size : Int) :
    skipBlankCharsInString ⟨m, off⟩ size = -1 ∨
      0 ≤ skipBlankCharsInString ⟨m, off⟩ size ∧
        off + skipBlankCharsInString ⟨m, off⟩ size ≤ used := by
  have stop : (fun c => !(c == ch ' ' || c == ch '\t')) (m used) = true := by
    rw [zero]
    decide
  unfold skipBlankCharsInString
  cases found : CharPtr.scan (fun c => !(c == ch ' ' || c == ch '\t')) ⟨m, off⟩ (unsigned size) with
  | none => exact Or.inl rfl
  | some k =>
    have bound := scan_le stop high found
    exact Or.inr ⟨by simp, bound⟩

theorem lineReads_getWord (off size : Int) (low : 0 ≤ off) (high : off ≤ used)
    (back : skipBlankCharsInString ⟨m, off⟩ size = -1 → 1 ≤ off) :
    LineReads used (Reading.getWord .null ⟨m, off⟩ size).reads := by
  unfold Reading.getWord
  split
  · exact LineReads.nil used
  have stop : (fun c => !(c == ch ' ' || c == ch '\t')) (m used) = true := by
    rw [zero]
    decide
  simp only [Reading.reads_bind, Reading.reads_pure, lineReads_append,
    Reading.skipBlankCharsInString, Reading.findBlankCharInString]
  refine ⟨fun o mem => ?_, ?_, LineReads.nil used⟩
  · have found := scanReads_le (p := ⟨m, off⟩) stop high o mem
    exact ⟨Int.le_trans low found.1, found.2⟩
  · have start := skip_start zero high size
    change LineReads used
      (scanReads isBlankOrEnd ⟨m, off + skipBlankCharsInString ⟨m, off⟩ size⟩ _)
    apply lineReads_blank zero
    · omega
    · omega

omit zero in
theorem lineReads_block {off : Int} {n : Nat} (low : 0 ≤ off) (high : off + n ≤ used) :
    LineReads used (blockReads ⟨some ⟨m, off⟩, n⟩) := by
  intro o mem
  simp only [blockReads, unsigned_natCast, List.mem_map, List.mem_range] at mem
  obtain ⟨i, bound, rfl⟩ := mem
  omega

end

/-! ## The next word -/

/-- What `getWord` finds in the rest `t` of a line: nothing, or its first word. -/
theorem getWord_step {m : Memory} {off : Int} {t : List UInt8} (size : Int)
    (spelled : CharPtr.Spells ⟨m, off⟩ (t ++ [0])) (behind : Behind t)
    (enough : t.length < size ∨ t.length ≤ size ∧ ∃ x ∈ t, isSpace x = false) :
    (∃ block, getWord .null ⟨m, off⟩ size = (false, block)) ∨
      ∃ b w rest, t = b ++ (w ++ rest) ∧ IsGap b ∧ IsWord w ∧ Behind rest ∧
        getWord .null ⟨m, off⟩ size = (true, wordBlock m (off + b.length) w) := by
  have stops (no : (getWord .null ⟨m, off⟩ size).1 = false) :
      ∃ block, getWord .null ⟨m, off⟩ size = (false, block) := ⟨_, Prod.ext no rfl⟩
  rcases tail_cases t with spaces | ⟨b, c, more, rfl, spaces, other, hit⟩ |
    ⟨b, w, rest, rfl, spaces, word, ends⟩
  · -- behind the spaces is the zero byte
    have bound : t.length < size := by
      rcases enough with bound | ⟨-, x, mem, other⟩
      · exact bound
      · rw [spaces x mem] at other
        cases other
    exact Or.inl (stops (getWord_end spelled spaces (by decide) (by decide) bound))
  · have bound : b.length < size := by
      rw [List.length_append, List.length_cons] at enough
      omega
    rw [List.append_assoc] at spelled
    exact Or.inl (stops (getWord_end spelled spaces other hit bound))
  · have long : 0 < w.length := List.length_pos_iff.mpr word.1
    have bound : b.length + w.length ≤ size := by
      simp only [List.length_append] at enough
      omega
    have gap : IsGap b := by
      refine ⟨fun none => ?_, spaces⟩
      obtain ⟨x, w', rfl⟩ : ∃ x w', w = x :: w' := List.exists_cons_of_ne_nil word.1
      subst none
      have blank := behind x rfl
      rw [word.2 x List.mem_cons_self] at blank
      cases blank
    have here : CharPtr.Spells ⟨m, off⟩ (b ++ (w ++ (rest ++ [0]))) := by
      simpa only [List.append_assoc] using spelled
    exact Or.inr ⟨b, w, rest, List.append_assoc _ _ _, gap, word, ends,
      getWord_at here spaces word ends (by omega) (by omega)⟩

theorem lineReads_authControlled {used : Nat} {base : ProtocolBlocks} {flags : MsgFlags}
    {first second third : BytesBlock} (inside1 : LineReads used (blockReads first))
    (inside2 : LineReads used (blockReads second)) (inside3 : LineReads used (blockReads third)) :
    LineReads used (Reading.authControlled base flags first second third).reads := by
  unfold Reading.authControlled
  simp only [Reading.reads_bind, lineReads_append, Reading.controlWord]
  refine ⟨inside1, ?_⟩
  split
  · exact LineReads.nil used
  simp only [Reading.reads_bind, lineReads_append]
  refine ⟨inside2, ?_⟩
  split
  · exact LineReads.nil used
  simp only [Reading.reads_bind, lineReads_append]
  refine ⟨inside3, ?_⟩
  split <;> exact LineReads.nil used

section
variable {buffer : Buffer} {cmd tail : List UInt8} (base : ProtocolBlocks) (flags : MsgFlags)
  (typed : Typed buffer (cmd ++ tail))
include typed

/-- Behind the command are not only spaces: the arguments are missing, or they are the
next three words. All the bytes that are read belong to the line. -/
theorem authParsed_words (behind : Behind tail) (some : ∃ x ∈ tail, isSpace x = false) :
    LineReads buffer.used (Reading.authParsed buffer base flags cmd.length).reads ∧
      (authParsed buffer base flags cmd.length = missingParsed base flags ∨
        ∃ b1 u b2 s b3 n rest, Arguments tail b1 u b2 s b3 n rest) := by
  have used := typed.used
  have zero := typed.zero
  have whole := typed.spells
  rw [List.append_assoc] at whole
  rw [List.length_append] at used
  have at1 := whole.right
  simp only [CharPtr.shift, Int.zero_add] at at1
  have skips : skipBlankCharsInString ⟨buffer.mem, cmd.length⟩ (buffer.used - cmd.length) ≠ -1 := by
    rcases exists_split (fun x => !isSpace x) tail with all | ⟨b, c, more, rfl, before, hit⟩
    · obtain ⟨x, mem, other⟩ := some
      have space := all x mem
      simp [other] at space
    · rw [List.append_assoc] at at1
      rw [List.length_append, List.length_cons] at used
      rw [skipBlankCharsInString_hit at1 (by simpa using before) (by simpa using hit) (by omega)]
      omega
  have reads1 := lineReads_getWord zero cmd.length (buffer.used - cmd.length) (by omega) (by omega)
    (fun miss => absurd miss skips)
  simp only [Reading.authParsed, authParsed, CharPtr.shift, Int.zero_add, Reading.reads_bind,
    Reading.value_getWord, lineReads_append, reads1, true_and]
  rcases getWord_step (buffer.used - cmd.length) at1 behind (Or.inr ⟨by omega, some⟩) with
    ⟨block, stop⟩ | ⟨b1, u, rest1, rfl, gap1, word1, ends1, found⟩
  · simp only [stop]
    exact ⟨LineReads.nil _, Or.inl trivial⟩
  have positive1 : 0 < u.length := List.length_pos_iff.mpr word1.1
  have wide1 : 0 < b1.length := List.length_pos_iff.mpr gap1.1
  simp only [List.append_assoc] at at1
  simp only [List.length_append] at used
  have at2 := at1.right.right
  simp only [CharPtr.shift] at at2
  have reads2 := lineReads_getWord zero (cmd.length + b1.length + u.length)
    (buffer.used - (cmd.length + u.length)) (by omega) (by omega) (by omega)
  simp only [found, wordBlock, Reading.reads_bind, Reading.value_getWord, lineReads_append, reads2,
    true_and]
  rcases getWord_step (buffer.used - (cmd.length + u.length)) at2 ends1 (Or.inl (by omega)) with
    ⟨block, stop⟩ | ⟨b2, s, rest2, rfl, gap2, word2, ends2, found⟩
  · simp only [stop]
    exact ⟨LineReads.nil _, Or.inl trivial⟩
  have positive2 : 0 < s.length := List.length_pos_iff.mpr word2.1
  simp only [List.append_assoc] at at2
  simp only [List.length_append] at used
  have at3 := at2.right.right
  simp only [CharPtr.shift] at at3
  have reads3 := lineReads_getWord zero (cmd.length + b1.length + u.length + b2.length + s.length)
    (buffer.used - (cmd.length + u.length + s.length)) (by omega) (by omega) (by omega)
  simp only [found, wordBlock, Reading.reads_bind, Reading.value_getWord, lineReads_append, reads3,
    true_and]
  rcases getWord_step (buffer.used - (cmd.length + u.length + s.length)) at3 ends2
    (Or.inl (by omega)) with ⟨block, stop⟩ | ⟨b3, n, rest, rfl, gap3, word3, ends3, found⟩
  · simp only [stop]
    exact ⟨LineReads.nil _, Or.inl trivial⟩
  simp only [List.length_append] at used
  refine ⟨?_, Or.inr ⟨b1, u, b2, s, b3, n, rest, rfl, gap1, word1, gap2, word2, gap3, word3, ends3⟩⟩
  simp only [found, wordBlock]
  apply lineReads_authControlled
  · exact lineReads_block (by omega) (by omega)
  · exact lineReads_block (by omega) (by omega)
  · exact lineReads_block (by omega) (by omega)

end

section
variable {buffer : Buffer} {front tail : List UInt8} {x : UInt8} (base : ProtocolBlocks)
  (flags : MsgFlags) (typed : Typed buffer (front ++ [x] ++ tail))
  (clear : isBlankOrEnd x = false) (spaces : ∀ y ∈ tail, isSpace y = true)
include typed clear spaces

/-- Only spaces behind the command: its last byte is found for a word. -/
theorem getWord_spaces {j : Nat} (positive : 0 < j) (bound : j ≤ tail.length) :
    getWord .null ⟨buffer.mem, front.length + 1⟩ j =
      (true, wordBlock buffer.mem front.length [x]) := by
  have whole := typed.spells
  simp only [List.append_assoc] at whole
  have there := whole.right
  have len : (tail.take j).length = j := by simp [bound]
  have nonempty : tail.take j ≠ [] := by
    intro none
    rw [none] at len
    simp at len
    omega
  have back :
      (CharPtr.mk buffer.mem (front.length + 1)).shift (-1) = ⟨buffer.mem, front.length⟩ := by
    simp only [CharPtr.shift, CharPtr.mk.injEq, true_and]
    omega
  have spelled : ((CharPtr.mk buffer.mem (front.length + 1)).shift (-1)).Spells
      ([x] ++ (tail.take j ++ (tail.drop j ++ [0]))) := by
    rw [back, ← List.append_assoc (tail.take j), List.take_append_drop]
    simpa [CharPtr.shift] using there
  have found := getWord_blank spelled (fun y mem => spaces y (List.mem_of_mem_take mem)) nonempty
    clear
  rw [len, back] at found
  exact found

theorem authParsed_spaces (nonempty : tail ≠ []) :
    LineReads buffer.used (Reading.authParsed buffer base flags (front ++ [x]).length).reads ∧
      authParsed buffer base flags (front ++ [x]).length =
        if tail.length < 3 then missingParsed base flags
        else authControlled base flags (wordBlock buffer.mem front.length [x])
          (wordBlock buffer.mem front.length [x]) (wordBlock buffer.mem front.length [x]) := by
  have used := typed.used
  have zero := typed.zero
  have positive : 0 < tail.length := List.length_pos_iff.mpr nonempty
  simp only [List.length_append, List.length_singleton] at used
  have reads (size : Int) := lineReads_getWord zero (front.length + 1) size (by omega) (by omega)
    (fun _ => by omega)
  have block : LineReads buffer.used (blockReads (wordBlock buffer.mem front.length [x])) :=
    lineReads_block (by omega) (by simp; omega)
  have found {j : Nat} (positive : 0 < j) (bound : j ≤ tail.length) :=
    getWord_spaces typed clear spaces positive bound
  have cmdLen : ((front ++ [x]).length : Int) = front.length + 1 := by simp
  have size1 : (buffer.used : Int) - (front.length + 1) = (tail.length : Nat) := by omega
  have size2 : (buffer.used : Int) - (front.length + 1 + 1) = (tail.length - 1 : Nat) := by omega
  have size3 (two : 2 ≤ tail.length) :
      (buffer.used : Int) - (front.length + 1 + 1 + 1) = (tail.length - 2 : Nat) := by omega
  rw [cmdLen]
  simp only [Reading.authParsed, authParsed, CharPtr.shift, Int.zero_add, size1, Reading.reads_bind,
    Reading.value_getWord, lineReads_append, reads, true_and, found positive (Nat.le_refl _),
    wordBlock, List.length_singleton, Int.cast_ofNat_Int, size2]
  have stops {size : Nat} (none : size = 0) :
      getWord .null ⟨buffer.mem, front.length + 1⟩ size = (false, .null) := by
    rw [none]
    rfl
  by_cases one : tail.length = 1
  · simp only [stops (show tail.length - 1 = 0 by omega)]
    rw [if_pos (by omega)]
    exact ⟨LineReads.nil _, rfl⟩
  simp only [found (j := tail.length - 1) (by omega) (by omega), wordBlock, Reading.reads_bind,
    Reading.value_getWord, lineReads_append, reads, true_and, List.length_singleton,
    Int.cast_ofNat_Int]
  rw [size3 (by omega)]
  by_cases two : tail.length = 2
  · simp only [stops (show tail.length - 2 = 0 by omega)]
    rw [if_pos (by omega)]
    exact ⟨LineReads.nil _, rfl⟩
  simp only [found (j := tail.length - 2) (by omega) (by omega), wordBlock, List.length_singleton,
    Int.cast_ofNat_Int]
  rw [if_neg (by omega)]
  exact ⟨lineReads_authControlled block block block, rfl⟩

end

/-! ## The other branches -/

section
variable {buffer : Buffer} {cmd tail : List UInt8} (base : ProtocolBlocks) (flags : MsgFlags)
  (typed : Typed buffer (cmd ++ tail))
include typed

theorem lineReads_argumentParsed (nonempty : cmd ≠ []) (join : Bool) :
    LineReads buffer.used (Reading.argumentParsed buffer base flags cmd.length join).reads := by
  have used := typed.used
  have zero := typed.zero
  have positive : 0 < cmd.length := List.length_pos_iff.mpr nonempty
  rw [List.length_append] at used
  have high : (cmd.length : Int) ≤ buffer.used := by omega
  have stop : isLineEnd (buffer.mem buffer.used) = true := by
    rw [zero]
    decide
  have gap : (fun c => !(c == ch ' ' || c == ch '\t')) (buffer.mem buffer.used) = true := by
    rw [zero]
    decide
  have start := skip_start zero high (buffer.used - cmd.length)
  simp only [Reading.argumentParsed, CharPtr.shift, Int.zero_add, Reading.reads_bind,
    lineReads_append, Reading.skipBlankCharsInString, Reading.findNewLineInString]
  generalize skipBlankCharsInString ⟨buffer.mem, cmd.length⟩ (buffer.used - cmd.length) = skipped
    at start ⊢
  refine ⟨fun o mem => ?_, fun o mem => ?_, ?_⟩
  · have found := scanReads_le (p := ⟨buffer.mem, cmd.length⟩) gap high o mem
    simp only at found
    omega
  · have found := scanReads_le (p := ⟨buffer.mem, cmd.length + skipped⟩) stop
      (by simp only; omega) o mem
    simp only at found
    omega
  split
  · exact LineReads.nil _
  rename_i hit
  have block : LineReads buffer.used (blockReads ⟨some ⟨buffer.mem, cmd.length + skipped⟩,
      findNewLineInString ⟨buffer.mem, cmd.length + skipped⟩ (buffer.used - cmd.length)⟩) := by
    unfold findNewLineInString at hit ⊢
    cases found : CharPtr.scan isLineEnd ⟨buffer.mem, cmd.length + skipped⟩
      (unsigned (buffer.used - cmd.length) + 1) with
    | none => simp [found] at hit
    | some k =>
      have bound := scan_le stop (by omega) found
      exact lineReads_block (by omega) bound
  cases join
  all_goals
    simp only [Bool.false_eq_true, if_true, if_false, Reading.reads_bind, lineReads_append,
      Reading.controlWord]
    refine ⟨block, ?_⟩
    split <;> exact LineReads.nil _

omit typed in
theorem lineReads_messageParsed :
    LineReads buffer.used (Reading.messageParsed buffer base flags).reads := by
  simp only [Reading.messageParsed, Reading.reads_bind, lineReads_append, Reading.controlWord]
  refine ⟨lineReads_block (Int.le_refl 0) (by omega), ?_⟩
  split <;> exact LineReads.nil _

/-- Only the branch of "/auth" can leave the line. -/
theorem lineReads_userInputToCmds_iff (pBlocks : ProtocolBlocks)
    (clear : ∀ x ∈ cmd, isBlankOrEnd x = false) (behind : Behind tail)
    (nonempty : cmd ++ tail ≠ []) :
    LineReads buffer.used (Reading.userInputToCmds buffer flags pBlocks).reads ↔
      (cmd <+: ascii "/auth" → LineReads buffer.used
        (Reading.authParsed buffer (commandBlocks buffer pBlocks cmd.length) flags
          cmd.length).reads) := by
  have used := typed.used
  have given : buffer.used ≠ 0 := by
    rw [used]
    exact fun zero => nonempty (List.eq_nil_of_length_eq_zero zero)
  rw [List.length_append] at used
  have cmdLen := findBlankCharInString_command typed clear behind
  have is := strncmpEq_command typed clear
  have blank : LineReads buffer.used
      (scanReads isBlankOrEnd ⟨buffer.mem, 0⟩ (buffer.used + 1)) :=
    lineReads_blank typed.zero (Int.le_refl 0) (by omega)
  have compared (s : String) :
      LineReads buffer.used (strncmpReads ⟨buffer.mem, 0⟩ (ascii s) cmd.length) := by
    intro o mem
    have found := strncmpReads_lt o mem
    simp only at found
    omega
  rw [Reading.userInputToCmds, if_neg given]
  simp only [Reading.reads_bind, Reading.findBlankCharInString, Reading.strncmpEq, lineReads_append,
    blank, true_and, cmdLen, unsigned_natCast, compared, is]
  by_cases auth : cmd <+: ascii "/auth"
  · simp only [auth, decide_true, if_true, true_implies]
  have some : cmd ≠ [] := by
    rintro rfl
    exact auth List.nil_prefix
  simp only [auth, decide_false, Bool.false_eq_true, if_false, false_implies, iff_true,
    Reading.reads_bind, lineReads_append, compared, true_and]
  by_cases join : cmd <+: ascii "/join"
  · simp only [join, decide_true, if_true]
    exact lineReads_argumentParsed _ flags typed some true
  simp only [join, decide_false, Bool.false_eq_true, if_false, Reading.reads_bind, lineReads_append,
    compared, true_and]
  by_cases rename : cmd <+: ascii "/rename"
  · simp only [rename, decide_true, if_true]
    exact lineReads_argumentParsed _ flags typed some false
  simp only [rename, decide_false, Bool.false_eq_true, if_false, Reading.reads_bind,
    lineReads_append, compared, true_and]
  by_cases help : cmd <+: ascii "/help"
  · simp only [help, decide_true, if_true]
    exact LineReads.nil _
  simp only [help, decide_false, Bool.false_eq_true, if_false, Reading.reads_bind, lineReads_append,
    compared, true_and]
  by_cases exit : cmd <+: ascii "/exit"
  · simp only [exit, decide_true, if_true]
    exact LineReads.nil _
  · simp only [exit, decide_false, Bool.false_eq_true, if_false]
    exact lineReads_messageParsed _ flags

end

end Ipk24Chat
