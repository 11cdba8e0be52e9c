import Ipk24Chat.DecodeUDP
import Ipk24Chat.Segmentation

/-!
# Which lines the decoder takes apart

`disassebleProtocolTCP` looks for texts and for the ends of words.

* `startsWith_decided`: the received bytes decide whether a text is there, unless they end
  in the middle of it;
* `decoded_sound`: what is taken for a message;
* `bye_of_accepts`, `not_nameless_of_accepts`, `reported_of_plain`: one form of a line;
* `acceptsGrammar_iff`: on which lines exactly the grammar is accepted.
-/

namespace Ipk24Chat

/-! ## Deciding on a text -/

/-- The bytes `d` end before it is decided whether they start with `text`. -/
def Undecided (text d : List UInt8) : Prop := d <+: text ∧ d ≠ text

instance (text d : List UInt8) : Decidable (Undecided text d) := inferInstanceAs (Decidable (_ ∧ _))

theorem startsWith_decided {p : CharPtr} {d : List UInt8} (spelled : p.Spells d) (s : String)
    (decided : ¬ Undecided (ascii s) d) : startsWith p s = true ↔ ascii s <+: d := by
  rw [startsWith_iff]
  constructor
  · intro text
    rcases text.agree spelled with front | front
    · exact front
    · by_cases same : d = ascii s
      · exact same ▸ List.prefix_refl d
      · exact absurd ⟨front, same⟩ decided
  · exact spelled.start

/-- Bytes behind one that the text does not have decide nothing any more. -/
theorem not_undecided_of_mem {text d : List UInt8} {c : UInt8} (absent : c ∉ text) (mem : c ∈ d) :
    ¬ Undecided text d := fun open_ => absent (open_.1.subset mem)

/-! ## The branches of the decoder -/

/-- The branch for "REPLY ". -/
def disassebleReply (buffer : Buffer) (pBlocks : ProtocolBlocks) : ProtocolBlocks :=
  let result := (CharPtr.mk buffer.mem 0).shift (lenOf "REPLY ")
  let reply (len : Int) (ok : Bool) : ProtocolBlocks :=
    let contents := result.shift (len + lenOf " IS ")
    let index := findBlankCharInString contents (buffer.used - (lenOf "REPLY " + len))
    { pBlocks with
      zeroth := ⟨some result, len⟩
      second := ⟨some contents, index⟩
      msgReplyResultBool := ok
      type := MsgType.msgReply.toUChar }
  if startsWith result "OK IS " then reply 2 true
  else if startsWith result "NOK IS " then reply 3 false
  else
    { pBlocks with
      zeroth := ⟨some result, pBlocks.zeroth.len⟩
      type := MsgType.msgCorrupted.toUChar }

theorem disassebleProtocolTCP_eq (rx : Buffer) (pBlocks : ProtocolBlocks) :
    disassebleProtocolTCP rx pBlocks =
      if startsWith ⟨rx.mem, 0⟩ "MSG FROM " then disassebleNamed .msgMsg rx pBlocks
      else if startsWith ⟨rx.mem, 0⟩ "REPLY " then disassebleReply rx pBlocks
      else if startsWith ⟨rx.mem, 0⟩ "BYE" then { pBlocks with type := MsgType.msgBye.toUChar }
      else if startsWith ⟨rx.mem, 0⟩ "ERR FROM " then disassebleNamed .msgErr rx pBlocks
      else { pBlocks with type := MsgType.msgUnknown.toUChar } := rfl

section
variable {rx : Buffer} (pBlocks : ProtocolBlocks)

/-- The blocks of a MSG or an ERR. -/
def namedBlocks (rx : Buffer) (pBlocks : ProtocolBlocks) (type : MsgType) (name contents : Int) :
    ProtocolBlocks :=
  { pBlocks with
    zeroth := ⟨some ⟨rx.mem, 9⟩, name⟩
    first := ⟨some ⟨rx.mem, 9 + (name + 4)⟩, contents⟩
    type := type.toUChar }

/-- The blocks of a REPLY. -/
def replyBlocks (rx : Buffer) (pBlocks : ProtocolBlocks) (ok : Bool) (contents : Int) :
    ProtocolBlocks :=
  { pBlocks with
    zeroth := ⟨some ⟨rx.mem, 6⟩, if ok then 2 else 3⟩
    second := ⟨some ⟨rx.mem, if ok then 12 else 13⟩, contents⟩
    msgReplyResultBool := ok
    type := MsgType.msgReply.toUChar }

/-- The name ends at the first blank; the text behind it decides. -/
theorem disassebleNamed_of_name (type : MsgType) {name more : List UInt8} {c : UInt8}
    (spelled : CharPtr.Spells ⟨rx.mem, 9⟩ (name ++ c :: more))
    (clear : ∀ x ∈ name, isBlankOrEnd x = false) (hit : isBlankOrEnd c = true)
    (long : (name.length : Int) ≤ rx.used - 9) :
    disassebleNamed type rx pBlocks =
      if startsWith ⟨rx.mem, 9 + name.length⟩ " IS " then
        namedBlocks rx pBlocks type name.length
          (findNewLineInString ⟨rx.mem, 9 + (name.length + 4)⟩ (rx.used - 9 - name.length))
      else
        { pBlocks with
          zeroth := ⟨some ⟨rx.mem, 9⟩, name.length⟩
          type := MsgType.msgCorrupted.toUChar } := by
  have found : findBlankCharInString ⟨rx.mem, 9⟩ (rx.used - 9) = name.length :=
    findBlankCharInString_hit spelled clear hit long
  have nine : lenOf "MSG FROM " = 9 := by decide
  have four : lenOf " IS " = 4 := by decide
  simp only [disassebleNamed, nine, four, CharPtr.shift, Int.zero_add, found, BytesBlock.endPtr,
    namedBlocks]

theorem disassebleReply_eq :
    disassebleReply rx pBlocks =
      if startsWith ⟨rx.mem, 6⟩ "OK IS " then
        replyBlocks rx pBlocks true (findBlankCharInString ⟨rx.mem, 12⟩ (rx.used - 8))
      else if startsWith ⟨rx.mem, 6⟩ "NOK IS " then
        replyBlocks rx pBlocks false (findBlankCharInString ⟨rx.mem, 13⟩ (rx.used - 9))
      else
        { pBlocks with
          zeroth := ⟨some ⟨rx.mem, 6⟩, pBlocks.zeroth.len⟩
          type := MsgType.msgCorrupted.toUChar } := by
  have six : lenOf "REPLY " = 6 := by decide
  have four : lenOf " IS " = 4 := by decide
  simp only [disassebleReply, six, four, CharPtr.shift, Int.zero_add, replyBlocks]
  rfl

end

/-! ## Complete lines -/

/-- A text that stands in front of a byte it does not have ends before it. -/
theorem prefix_of_absent {text d behind : List UInt8} {c : UInt8} (absent : c ∉ text)
    (front : text <+: d ++ c :: behind) : text <+: d := by
  rcases List.prefix_or_prefix_of_prefix front (List.prefix_append d _) with inside | ⟨t, rfl⟩
  · exact inside
  · have tail : t <+: c :: behind := (List.prefix_append_right_inj d).mp front
    cases t with
    | nil => simp
    | cons x t =>
      have first : x = c := (List.cons_prefix_cons.mp tail).1
      exact absurd (List.mem_append_right d (first ▸ List.mem_cons_self)) absent

/-- In front of a byte that the text does not have nothing is undecided. -/
theorem startsWith_before {p : CharPtr} {d behind : List UInt8} {c : UInt8}
    (spelled : p.Spells (d ++ c :: behind)) (s : String) (absent : c ∉ ascii s) :
    startsWith p s = true ↔ ascii s <+: d := by
  have mem : c ∈ d ++ c :: behind := by simp
  rw [startsWith_decided spelled s (not_undecided_of_mem absent mem)]
  constructor
  · exact prefix_of_absent absent
  · intro front
    exact front.trans (List.prefix_append d _)

theorem startsWith_line {p : CharPtr} {line : List UInt8}
    (spelled : p.Spells (line ++ ascii "\r\n")) (s : String) (plain : ch '\r' ∉ ascii s) :
    startsWith p s = true ↔ ascii s <+: line :=
  startsWith_before spelled s plain

/-- Two texts a line starts with agree as far as both go. -/
theorem texts_differ {a b l : List UInt8} (ha : a <+: l) (hb : b <+: l)
    (differ : ¬ a <+: b ∧ ¬ b <+: a) : False := by
  rcases List.prefix_or_prefix_of_prefix ha hb with front | front
  · exact differ.1 front
  · exact differ.2 front

namespace ServerLine

/-- A line of the grammar: the name has a byte and no blank. -/
def Grammatical : ServerLine → Prop
  | .msg name _ | .err name _ => name ≠ [] ∧ ∀ x ∈ name, isBlankOrEnd x = false
  | .reply _ _ | .bye => True

/-- The blocks are the parts of the line. -/
def Reported : ServerLine → ProtocolBlocks → Prop
  | .msg name contents, b =>
    b.type = MsgType.msgMsg.toUChar ∧ b.msgMsgDisplayname.bytes = name ∧
      b.msgMsgMsgContents.bytes = contents
  | .err name contents, b =>
    b.type = MsgType.msgErr.toUChar ∧ b.msgErrDisplayname.bytes = name ∧
      b.msgErrMsgContents.bytes = contents
  | .reply ok contents, b =>
    b.type = MsgType.msgReply.toUChar ∧ b.msgReplyResultBool = ok ∧
      b.msgReplyResult.bytes = ascii (if ok then "OK" else "NOK") ∧
      b.msgReplyMsgContents.bytes = contents
  | .bye, b => b.type = MsgType.msgBye.toUChar

end ServerLine

/-- What is asked of the decoder for the received `line`: a line of the grammar is
reported with its parts, and any other line is no message. -/
structure AcceptsGrammar (line : List UInt8) (b : ProtocolBlocks) : Prop where
  accepts : ∀ s : ServerLine, s.Grammatical → line ++ ascii "\r\n" = s.bytes → s.Reported b
  rejects : (∀ s : ServerLine, s.Grammatical → line ++ ascii "\r\n" ≠ s.bytes) →
    b.type = MsgType.msgUnknown.toUChar ∨ b.type = MsgType.msgCorrupted.toUChar

/-- Nothing stands behind a BYE, no name is empty, and the contents of a REPLY are one
word. -/
structure PlainLine (line : List UInt8) : Prop where
  bye : ascii "BYE" <+: line → line = ascii "BYE"
  msg : ¬ ascii "MSG FROM  IS " <+: line
  err : ¬ ascii "ERR FROM  IS " <+: line
  reply : ∀ (ok : Bool) (contents : List UInt8),
    line = ascii "REPLY " ++ ascii (if ok then "OK IS " else "NOK IS ") ++ contents →
      ∀ x ∈ contents, isSpace x = false

section
variable {rx : Buffer} {line : List UInt8} (pBlocks : ProtocolBlocks)

/-- A line up to its first blank, and what is behind it. -/
theorem exists_word (line : List UInt8) :
    ∃ word behind c more, line = word ++ behind ∧ (∀ x ∈ word, isBlankOrEnd x = false) ∧
      behind ++ ascii "\r\n" = c :: more ∧ isBlankOrEnd c = true := by
  rcases exists_split isBlankOrEnd line with clear | ⟨word, c, more, rfl, clear, hit⟩
  · exact ⟨line, [], ch '\r', [ch '\n'], by simp, clear, rfl, by decide⟩
  · exact ⟨word, c :: more, c, more ++ ascii "\r\n", rfl, clear, rfl, hit⟩

theorem disassebleNamed_sound (type : MsgType) {rest : List UInt8}
    (spelled : CharPtr.Spells ⟨rx.mem, 9⟩ (rest ++ ascii "\r\n"))
    (used : rx.used = 9 + rest.length + 2) :
    (disassebleNamed type rx pBlocks).type = MsgType.msgCorrupted.toUChar ∨
      ∃ name contents, rest = name ++ ascii " IS " ++ contents ∧
        ∀ x ∈ name, isBlankOrEnd x = false := by
  obtain ⟨name, behind, c, more, rfl, clear, next, hit⟩ := exists_word rest
  rw [List.append_assoc] at spelled
  have decides := startsWith_line spelled.right " IS " (by decide)
  rw [next] at spelled
  rw [disassebleNamed_of_name pBlocks type spelled clear hit
    (by rw [used, List.length_append]; omega)]
  by_cases is : ascii " IS " <+: behind
  · obtain ⟨contents, rfl⟩ := is
    exact Or.inr ⟨name, contents, (List.append_assoc _ _ _).symm, clear⟩
  · have other : ¬ startsWith ⟨rx.mem, 9 + name.length⟩ " IS " = true :=
      fun yes => is (decides.mp yes)
    rw [if_neg other]
    exact Or.inl rfl

variable (arrived : rx.bytes = line ++ ascii "\r\n")
include arrived

theorem spells_arrived : CharPtr.Spells ⟨rx.mem, 0⟩ (line ++ ascii "\r\n") := by
  have used : rx.used = (line ++ ascii "\r\n").length := by
    rw [← arrived, Buffer.bytes, Memory.length_read]
  rw [CharPtr.Spells, ← used]
  exact arrived

theorem used_arrived : rx.used = line.length + 2 := by
  have len : rx.bytes.length = (line ++ ascii "\r\n").length := by rw [arrived]
  simpa [Buffer.bytes, ascii] using len

/-- Whatever is taken for a message has the form of one, a BYE apart. -/
theorem decoded_sound :
    (disassebleProtocolTCP rx pBlocks).type = MsgType.msgUnknown.toUChar ∨
      (disassebleProtocolTCP rx pBlocks).type = MsgType.msgCorrupted.toUChar ∨
      ascii "BYE" <+: line ∨
      (∃ name contents, line = ascii "MSG FROM " ++ (name ++ ascii " IS " ++ contents) ∧
        ∀ x ∈ name, isBlankOrEnd x = false) ∨
      (∃ name contents, line = ascii "ERR FROM " ++ (name ++ ascii " IS " ++ contents) ∧
        ∀ x ∈ name, isBlankOrEnd x = false) ∨
      ∃ (ok : Bool) (contents : List UInt8),
        line = ascii "REPLY " ++ ascii (if ok then "OK IS " else "NOK IS ") ++ contents := by
  have whole := spells_arrived arrived
  have used := used_arrived arrived
  have nine : ((ascii "MSG FROM ").length = 9) ∧ (ascii "ERR FROM ").length = 9 := by decide
  have six : (ascii "REPLY ").length = 6 := by decide
  have named (type : MsgType) {title : String} (long : (ascii title).length = 9)
      {rest : List UInt8} (split : line = ascii title ++ rest) :
      (disassebleNamed type rx pBlocks).type = MsgType.msgCorrupted.toUChar ∨
        ∃ name contents, line = ascii title ++ (name ++ ascii " IS " ++ contents) ∧
          ∀ x ∈ name, isBlankOrEnd x = false := by
    rw [split, List.append_assoc] at whole
    have behind := whole.right
    rw [long] at behind
    rcases disassebleNamed_sound pBlocks type (by simpa [CharPtr.shift] using behind)
      (by rw [used, split, List.length_append, long]) with corrupted | ⟨name, contents, rfl, clear⟩
    · exact Or.inl corrupted
    · exact Or.inr ⟨name, contents, split, clear⟩
  rw [disassebleProtocolTCP_eq]
  by_cases msg : startsWith ⟨rx.mem, 0⟩ "MSG FROM " = true
  · obtain ⟨rest, split⟩ := (startsWith_line whole "MSG FROM " (by decide)).mp msg
    rw [if_pos msg]
    rcases named .msgMsg nine.1 split.symm with corrupted | found
    · exact Or.inr (Or.inl corrupted)
    · exact Or.inr (Or.inr (Or.inr (Or.inl found)))
  rw [if_neg msg]
  by_cases reply : startsWith ⟨rx.mem, 0⟩ "REPLY " = true
  · obtain ⟨rest, split⟩ := (startsWith_line whole "REPLY " (by decide)).mp reply
    rw [if_pos reply, disassebleReply_eq]
    have behind : CharPtr.Spells ⟨rx.mem, 6⟩ (rest ++ ascii "\r\n") := by
      rw [← split, List.append_assoc] at whole
      simpa [CharPtr.shift, six] using whole.right
    by_cases ok : startsWith ⟨rx.mem, 6⟩ "OK IS " = true
    · obtain ⟨contents, rfl⟩ := (startsWith_line behind "OK IS " (by decide)).mp ok
      exact Or.inr (Or.inr (Or.inr (Or.inr (Or.inr ⟨true, contents, by
        rw [← split, List.append_assoc]; rfl⟩))))
    by_cases nok : startsWith ⟨rx.mem, 6⟩ "NOK IS " = true
    · obtain ⟨contents, rfl⟩ := (startsWith_line behind "NOK IS " (by decide)).mp nok
      exact Or.inr (Or.inr (Or.inr (Or.inr (Or.inr ⟨false, contents, by
        rw [← split, List.append_assoc]; rfl⟩))))
    rw [if_neg ok, if_neg nok]
    exact Or.inr (Or.inl rfl)
  rw [if_neg reply]
  by_cases bye : startsWith ⟨rx.mem, 0⟩ "BYE" = true
  · exact Or.inr (Or.inr (Or.inl ((startsWith_line whole "BYE" (by decide)).mp bye)))
  rw [if_neg bye]
  by_cases err : startsWith ⟨rx.mem, 0⟩ "ERR FROM " = true
  · obtain ⟨rest, split⟩ := (startsWith_line whole "ERR FROM " (by decide)).mp err
    rw [if_pos err]
    rcases named .msgErr nine.2 split.symm with corrupted | found
    · exact Or.inr (Or.inl corrupted)
    · exact Or.inr (Or.inr (Or.inr (Or.inr (Or.inl found))))
  rw [if_neg err]
  exact Or.inl rfl

/-- The contents of a REPLY are taken up to their first blank. -/
theorem reply_decodes {ok : Bool} {word behind more : List UInt8} {c : UInt8}
    (split : line =
      ascii "REPLY " ++ (ascii (if ok then "OK IS " else "NOK IS ") ++ (word ++ behind)))
    (clear : ∀ x ∈ word, isBlankOrEnd x = false) (next : behind ++ ascii "\r\n" = c :: more)
    (hit : isBlankOrEnd c = true) :
    disassebleProtocolTCP rx pBlocks = replyBlocks rx pBlocks ok word.length := by
  have whole := spells_arrived arrived
  have used := used_arrived arrived
  have title : ascii "REPLY " <+: line := split ▸ List.prefix_append _ _
  have reply := (startsWith_line whole "REPLY " (by decide)).mpr title
  have other : ¬ startsWith ⟨rx.mem, 0⟩ "MSG FROM " = true := fun msg =>
    texts_differ ((startsWith_line whole "MSG FROM " (by decide)).mp msg) title (by decide)
  rw [disassebleProtocolTCP_eq, if_neg other, if_pos reply, disassebleReply_eq]
  rw [split] at whole used
  simp only [List.append_assoc, next] at whole
  have result := whole.right
  have contents := result.right
  simp only [List.length_append, show (ascii "REPLY ").length = 6 by decide] at used result contents
  cases ok with
  | true =>
    have is : startsWith ⟨rx.mem, 6⟩ "OK IS " = true := (startsWith_iff _ _).mpr result.left
    have found : findBlankCharInString ⟨rx.mem, 12⟩ (rx.used - 8) = word.length := by
      apply findBlankCharInString_hit (p := ⟨rx.mem, 12⟩) (b := more) contents clear hit
      omega
    rw [if_pos is, found]
  | false =>
    have is : startsWith ⟨rx.mem, 6⟩ "NOK IS " = true := (startsWith_iff _ _).mpr result.left
    have no : ¬ startsWith ⟨rx.mem, 6⟩ "OK IS " = true := fun ok => by
      rcases ((startsWith_iff _ _).mp ok).agree ((startsWith_iff _ _).mp is) with front | front
      · exact absurd front (by decide)
      · exact absurd front (by decide)
    have found : findBlankCharInString ⟨rx.mem, 13⟩ (rx.used - 9) = word.length := by
      have seven : (ascii (if false = true then "OK IS " else "NOK IS ")).length = 7 := by decide
      apply findBlankCharInString_hit (p := ⟨rx.mem, 13⟩) (b := more) contents clear hit
      omega
    rw [if_neg no, if_pos is, found]

/-- The contents of a REPLY are reported whole exactly if they have no blank. -/
theorem reported_reply_iff {ok : Bool} {contents : List UInt8}
    (split : line = ascii "REPLY " ++ (ascii (if ok then "OK IS " else "NOK IS ") ++ contents))
    (clean : ∀ x ∈ line, isLineEnd x = false) :
    (ServerLine.reply ok contents).Reported (disassebleProtocolTCP rx pBlocks) ↔
      ∀ x ∈ contents, isSpace x = false := by
  have blank {x : UInt8} (mem : x ∈ contents) : isBlankOrEnd x = isSpace x := by
    have ends := clean x (split ▸ List.mem_append_right _ (List.mem_append_right _ mem))
    simp only [isLineEnd, Bool.or_eq_false_iff] at ends
    simp [isBlankOrEnd, isSpace, ends]
  obtain ⟨word, behind, c, more, rfl, clear, next, hit⟩ := exists_word contents
  rw [reply_decodes pBlocks arrived split clear next hit]
  have whole := spells_arrived arrived
  rw [split] at whole
  simp only [List.append_assoc] at whole
  have result := whole.right
  have place := result.right
  have text : BytesBlock.bytes ⟨some ⟨rx.mem, if ok then 12 else 13⟩, word.length⟩ = word := by
    apply CharPtr.spells_block
    cases ok <;> exact place.left
  have answer : BytesBlock.bytes ⟨some ⟨rx.mem, 6⟩, if ok then 2 else 3⟩ =
      ascii (if ok then "OK" else "NOK") := by
    cases ok with
    | true => exact CharPtr.spells_block (result.left.start (a := ascii "OK") (by decide))
    | false => exact CharPtr.spells_block (result.left.start (a := ascii "NOK") (by decide))
  constructor
  · rintro ⟨-, -, -, same⟩
    have empty : behind = [] := by
      rw [replyBlocks, text] at same
      exact List.self_eq_append_right.mp same
    subst empty
    intro x mem
    rw [← blank mem]
    exact clear x (by simpa using mem)
  · intro spaceless
    have empty : behind = [] := by
      cases behind with
      | nil => rfl
      | cons d behind =>
        have first : d = c := (List.cons.inj next).1
        have mem : d ∈ word ++ d :: behind := by simp
        rw [← first, blank mem, spaceless d mem] at hit
        cases hit
    subst empty
    exact ⟨rfl, rfl, answer, text.trans (List.append_nil word).symm⟩

theorem decoded_bye (title : ascii "BYE" <+: line) :
    (disassebleProtocolTCP rx pBlocks).type = MsgType.msgBye.toUChar := by
  have whole := spells_arrived arrived
  have bye := (startsWith_line whole "BYE" (by decide)).mpr title
  have no_msg : ¬ startsWith ⟨rx.mem, 0⟩ "MSG FROM " = true := fun msg =>
    texts_differ ((startsWith_line whole "MSG FROM " (by decide)).mp msg) title (by decide)
  have no_reply : ¬ startsWith ⟨rx.mem, 0⟩ "REPLY " = true := fun reply =>
    texts_differ ((startsWith_line whole "REPLY " (by decide)).mp reply) title (by decide)
  rw [disassebleProtocolTCP_eq, if_neg no_msg, if_neg no_reply, if_pos bye]

omit arrived in
/-- No line of the grammar has the blank of an empty name behind its title. -/
theorem grammatical_named {s : ServerLine} {title : String} {contents : List UInt8}
    (grammatical : s.Grammatical)
    (same : s.bytes = ascii title ++ [] ++ ascii " IS " ++ contents ++ ascii "\r\n")
    (which : title = "MSG FROM " ∨ title = "ERR FROM ") : False := by
  have front : ascii title ++ ascii " IS " <+: s.bytes :=
    same ▸ ⟨contents ++ ascii "\r\n", by simp⟩
  have blank {name rest : List UInt8} (named : name ≠ [])
      (clear : ∀ x ∈ name, isBlankOrEnd x = false) : ¬ ascii " IS " <+: name ++ rest := by
    intro front
    cases name with
    | nil => exact named rfl
    | cons x name =>
      have first : ch ' ' = x := (List.cons_prefix_cons.mp front).1
      have clear := clear x List.mem_cons_self
      rw [← first] at clear
      revert clear
      decide
  rcases which with rfl | rfl
  all_goals
    cases s
    case bye => exact absurd front (by decide)
    all_goals simp only [ServerLine.bytes, List.append_assoc] at front
    case reply => exact texts_differ front (List.prefix_append _ _) (by decide)
  case inl.msg =>
    exact blank grammatical.1 grammatical.2 ((List.prefix_append_right_inj _).mp front)
  case inl.err => exact texts_differ front (List.prefix_append _ _) (by decide)
  case inr.msg => exact texts_differ front (List.prefix_append _ _) (by decide)
  case inr.err =>
    exact blank grammatical.1 grammatical.2 ((List.prefix_append_right_inj _).mp front)

/-! ### One form of a line -/

omit arrived in
/-- A line that starts like a BYE is no other message. -/
theorem not_grammatical_bye (title : ascii "BYE" <+: line) (longer : line ≠ ascii "BYE")
    (s : ServerLine) : line ++ ascii "\r\n" ≠ s.bytes := by
  intro same
  have front : ascii "BYE" <+: s.bytes := same ▸ title.trans (List.prefix_append _ _)
  cases s with
  | bye => exact longer (List.append_cancel_right same)
  | msg name contents =>
    simp only [ServerLine.bytes, List.append_assoc] at front
    exact texts_differ front (List.prefix_append _ _) (by decide)
  | err name contents =>
    simp only [ServerLine.bytes, List.append_assoc] at front
    exact texts_differ front (List.prefix_append _ _) (by decide)
  | reply ok contents =>
    simp only [ServerLine.bytes, List.append_assoc] at front
    exact texts_differ front (List.prefix_append _ _) (by decide)

/-- Whatever stands behind a BYE is overlooked. -/
theorem bye_of_accepts (exactly : AcceptsGrammar line (disassebleProtocolTCP rx pBlocks))
    (title : ascii "BYE" <+: line) : line = ascii "BYE" := by
  by_contra longer
  have type := exactly.rejects fun s _ => not_grammatical_bye title longer s
  rw [decoded_bye pBlocks arrived title] at type
  revert type
  decide

/-- A message without a name is taken for one. -/
theorem not_nameless_of_accepts
    (exactly : AcceptsGrammar line (disassebleProtocolTCP rx pBlocks)) {s : ServerLine}
    {contents : List UInt8} (formed : s.WellFormed)
    (nameless : s = .msg [] contents ∨ s = .err [] contents) :
    line ++ ascii "\r\n" ≠ s.bytes := by
  intro same
  have carried := carries_decoded formed pBlocks (arrived.trans same)
  rcases nameless with rfl | rfl
  · have type := exactly.rejects fun s grammatical other =>
      grammatical_named grammatical (other.symm.trans same) (Or.inl rfl)
    rw [carried.1] at type
    revert type
    decide
  · have type := exactly.rejects fun s grammatical other =>
      grammatical_named grammatical (other.symm.trans same) (Or.inr rfl)
    rw [carried.1] at type
    revert type
    decide

/-- The decoder reports the parts of a plain line of the grammar. -/
theorem reported_of_plain (clean : ∀ x ∈ line, isLineEnd x = false) (plain : PlainLine line)
    {s : ServerLine} (grammatical : s.Grammatical) (same : line ++ ascii "\r\n" = s.bytes) :
    s.Reported (disassebleProtocolTCP rx pBlocks) := by
  cases s with
  | msg name contents =>
    have split : line = ascii "MSG FROM " ++ name ++ ascii " IS " ++ contents :=
      List.append_cancel_right same
    have formed : (ServerLine.msg name contents).WellFormed :=
      ⟨grammatical.2, fun x mem => clean x (split ▸ List.mem_append_right _ mem)⟩
    exact carries_decoded formed pBlocks (arrived.trans same)
  | err name contents =>
    have split : line = ascii "ERR FROM " ++ name ++ ascii " IS " ++ contents :=
      List.append_cancel_right same
    have formed : (ServerLine.err name contents).WellFormed :=
      ⟨grammatical.2, fun x mem => clean x (split ▸ List.mem_append_right _ mem)⟩
    exact carries_decoded formed pBlocks (arrived.trans same)
  | reply ok contents =>
    have split : line =
        ascii "REPLY " ++ ascii (if ok then "OK IS " else "NOK IS ") ++ contents :=
      List.append_cancel_right same
    apply (reported_reply_iff pBlocks arrived (by rw [split, List.append_assoc]) clean).mpr
    exact plain.reply ok contents split
  | bye =>
    have formed : ServerLine.bye.WellFormed := trivial
    exact carries_decoded formed pBlocks (arrived.trans same)

/-- What is no line of the grammar is no message, if it is plain. -/
theorem rejected_of_plain (plain : PlainLine line)
    (none : ∀ s : ServerLine, s.Grammatical → line ++ ascii "\r\n" ≠ s.bytes) :
    (disassebleProtocolTCP rx pBlocks).type = MsgType.msgUnknown.toUChar ∨
      (disassebleProtocolTCP rx pBlocks).type = MsgType.msgCorrupted.toUChar := by
  rcases decoded_sound pBlocks arrived with unknown | corrupted | bye |
    ⟨name, contents, rfl, clear⟩ | ⟨name, contents, rfl, clear⟩ | ⟨ok, contents, rfl⟩
  · exact Or.inl unknown
  · exact Or.inr corrupted
  · rw [plain.bye bye] at none
    exact absurd rfl (none .bye trivial)
  · have named : name ≠ [] := by
      rintro rfl
      exact plain.msg ⟨contents, by simp [ascii]⟩
    exact absurd (by simp [ServerLine.bytes]) (none (.msg name contents) ⟨named, clear⟩)
  · have named : name ≠ [] := by
      rintro rfl
      exact plain.err ⟨contents, by simp [ascii]⟩
    exact absurd (by simp [ServerLine.bytes]) (none (.err name contents) ⟨named, clear⟩)
  · exact absurd rfl (none (.reply ok contents) trivial)

/-- The decoder accepts the grammar exactly on the plain lines. -/
theorem acceptsGrammar_iff (clean : ∀ x ∈ line, isLineEnd x = false) :
    AcceptsGrammar line (disassebleProtocolTCP rx pBlocks) ↔ PlainLine line := by
  constructor
  · intro exactly
    refine ⟨bye_of_accepts pBlocks arrived exactly, ?_, ?_, fun ok contents split => ?_⟩
    · rintro ⟨contents, rfl⟩
      have ends : ∀ x ∈ contents, isLineEnd x = false := fun x mem =>
        clean x (List.mem_append_right _ mem)
      exact not_nameless_of_accepts pBlocks arrived exactly (s := .msg [] contents)
        ⟨List.forall_mem_nil _, ends⟩ (Or.inl rfl) (by simp [ServerLine.bytes, ascii])
    · rintro ⟨contents, rfl⟩
      have ends : ∀ x ∈ contents, isLineEnd x = false := fun x mem =>
        clean x (List.mem_append_right _ mem)
      exact not_nameless_of_accepts pBlocks arrived exactly (s := .err [] contents)
        ⟨List.forall_mem_nil _, ends⟩ (Or.inr rfl) (by simp [ServerLine.bytes, ascii])
    · rw [List.append_assoc] at split
      apply (reported_reply_iff pBlocks arrived split clean).mp
      apply exactly.accepts (.reply ok contents) trivial
      simp only [split, ServerLine.bytes, List.append_assoc]
  · intro plain
    exact ⟨fun s => reported_of_plain pBlocks arrived clean plain,
      rejected_of_plain pBlocks arrived plain⟩

end

theorem acceptsGrammar_msg :
    AcceptsGrammar (ascii "MSG FROM ann IS hi there")
      (disassebleProtocolTCP (arrived (ascii "MSG FROM ann IS hi there\r\n")) (.reset 0)) := by
  have plain : PlainLine (ascii "MSG FROM ann IS hi there") :=
    ⟨by decide, by decide, by decide, fun ok contents same => by
      have first := congrArg List.head? same
      simp [ascii, ch] at first⟩
  exact (acceptsGrammar_iff (.reset 0) (receive_bytes _ _) (by decide +kernel)).mpr plain

/-- Of the contents "all good" the block has the first word. -/
theorem not_acceptsGrammar_reply :
    ¬ AcceptsGrammar (ascii "REPLY OK IS all good")
      (disassebleProtocolTCP (arrived (ascii "REPLY OK IS all good\r\n")) (.reset 0)) := by
  intro exactly
  have reported := exactly.accepts (.reply true (ascii "all good")) trivial rfl
  have word :=
    (reported_reply_iff (.reset 0) (receive_bytes _ _) rfl (by decide +kernel)).mp reported
  revert word
  decide

end Ipk24Chat
