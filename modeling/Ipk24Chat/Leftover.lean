import Ipk24Chat.DecodeTCP

/-!
# What earlier messages leave behind

The receive buffer is reused and never cleared, and the TCP decoder does not stop at the
end of what was received.

* `isolated_of_complete`: a chunk that decides everything is decoded from its own bytes;
* `Isolated.title`, `Isolated.name`, `Isolated.reply`: otherwise two buffers with the same
  chunk are decoded differently;
* `isolated_iff`: both together.
-/

namespace Ipk24Chat

/-- Where a block starts, and its length. -/
def BytesBlock.place (b : BytesBlock) : Option Int × Int := (b.start.map CharPtr.off, b.len)

/-- The blocks that belong to a message of this type. -/
def ProtocolBlocks.reported (b : ProtocolBlocks) : List BytesBlock :=
  match uchar2msgType b.type with
  | .msgMsg | .msgErr => [b.zeroth, b.first]
  | .msgReply => [b.zeroth, b.second]
  | _ => []

/-- What is asked of the decoder for the received bytes `d`: type and places do not
depend on what stands behind them, and the blocks of the message are inside. -/
def Isolated (pBlocks : ProtocolBlocks) (d : List UInt8) : Prop :=
  ∀ rx rx' : Buffer, rx.bytes = d → rx'.bytes = d →
    (disassebleProtocolTCP rx pBlocks).type = (disassebleProtocolTCP rx' pBlocks).type ∧
    (disassebleProtocolTCP rx pBlocks).all.map BytesBlock.place =
      (disassebleProtocolTCP rx' pBlocks).all.map BytesBlock.place ∧
    ∀ b ∈ (disassebleProtocolTCP rx pBlocks).reported, b.Inside d.length

/-- Behind "MSG FROM " or "ERR FROM ": it is decided whether " IS " follows the name, and
if it does the line ends. -/
def NameComplete (rest : List UInt8) : Prop :=
  ¬ Undecided (ascii " IS ") (rest.dropWhile fun x => !isBlankOrEnd x) ∧
    ∀ contents, rest.dropWhile (fun x => !isBlankOrEnd x) = ascii " IS " ++ contents →
      ∃ x ∈ contents, isLineEnd x = true

/-- Behind "REPLY ": it is decided what the result is, and the contents end. -/
def ReplyComplete (rest : List UInt8) : Prop :=
  ∀ s ∈ ["OK IS ", "NOK IS "], ¬ Undecided (ascii s) rest ∧
    ∀ contents, rest = ascii s ++ contents → ∃ x ∈ contents, isBlankOrEnd x = true

/-- The received bytes decide everything. -/
structure Complete (d : List UInt8) : Prop where
  title : ∀ s ∈ ["MSG FROM ", "REPLY ", "BYE", "ERR FROM "], ¬ Undecided (ascii s) d
  name : ∀ s ∈ ["MSG FROM ", "ERR FROM "], ∀ rest, d = ascii s ++ rest → NameComplete rest
  reply : ∀ rest, d = ascii "REPLY " ++ rest → ReplyComplete rest

section
variable {rx : Buffer} {d : List UInt8} (pBlocks : ProtocolBlocks)

theorem spells_bytes (given : rx.bytes = d) :
    CharPtr.Spells ⟨rx.mem, 0⟩ d ∧ rx.used = d.length := by
  have used : rx.used = d.length := by
    rw [← given, Buffer.bytes, Memory.length_read]
  refine ⟨?_, used⟩
  rw [CharPtr.Spells, ← used]
  exact given

/-- It is enough that the blocks can be written down from the bytes. -/
theorem isolated_of (blocks : Memory → ProtocolBlocks)
    (decodes : ∀ rx : Buffer, rx.bytes = d → disassebleProtocolTCP rx pBlocks = blocks rx.mem)
    (type : ∀ m m', (blocks m).type = (blocks m').type)
    (places : ∀ m m', (blocks m).all.map BytesBlock.place = (blocks m').all.map BytesBlock.place)
    (inside : ∀ m, ∀ b ∈ (blocks m).reported, b.Inside d.length) : Isolated pBlocks d := by
  intro rx rx' given given'
  rw [decodes rx given, decodes rx' given']
  exact ⟨type _ _, places _ _, inside _⟩

/-- A complete named message. -/
theorem disassebleNamed_complete (type : MsgType) {rest : List UInt8}
    (complete : NameComplete rest) :
    (∃ name : Nat, ∀ rx : Buffer, CharPtr.Spells ⟨rx.mem, 9⟩ rest → rx.used = 9 + rest.length →
      disassebleNamed type rx pBlocks =
        { pBlocks with
          zeroth := ⟨some ⟨rx.mem, 9⟩, name⟩
          type := MsgType.msgCorrupted.toUChar }) ∨
    ∃ name contents : Nat, name + 4 + contents ≤ rest.length ∧
      ∀ rx : Buffer, CharPtr.Spells ⟨rx.mem, 9⟩ rest → rx.used = 9 + rest.length →
        disassebleNamed type rx pBlocks = namedBlocks rx pBlocks type name contents := by
  obtain ⟨decided, ends⟩ := complete
  rcases exists_split isBlankOrEnd rest with clear | ⟨name, c, more, rfl, clear, hit⟩
  · rw [dropWhile_clear clear] at decided
    exact absurd (by decide) decided
  rw [dropWhile_split clear hit] at decided ends
  by_cases is : ascii " IS " <+: c :: more
  · obtain ⟨contents, split⟩ := is
    obtain ⟨x, mem, stop⟩ := ends contents split.symm
    rcases exists_split isLineEnd contents with none | ⟨text, e, behind, rfl, open_, last⟩
    · rw [none x mem] at stop
      cases stop
    refine Or.inr ⟨name.length, text.length, ?_, fun rx spelled used => ?_⟩
    · rw [← split]
      simp only [List.length_append, List.length_cons, show (ascii " IS ").length = 4 by decide]
      omega
    have decides : startsWith ⟨rx.mem, 9 + name.length⟩ " IS " = true := by
      apply (startsWith_iff _ _).mpr
      rw [← split] at spelled
      exact spelled.right.left
    have found : findNewLineInString ⟨rx.mem, 9 + (name.length + 4)⟩ (rx.used - 9 - name.length) =
        text.length := by
      rw [← split] at spelled used
      have place := spelled.right.right
      simp only [CharPtr.shift] at place
      apply findNewLineInString_hit (p := ⟨rx.mem, _⟩) place open_ last
      simp only [List.length_append, List.length_cons] at used
      omega
    rw [disassebleNamed_of_name pBlocks type spelled clear hit
      (by rw [used, List.length_append]; omega), if_pos decides, found]
  · refine Or.inl ⟨name.length, fun rx spelled used => ?_⟩
    have decides : ¬ startsWith ⟨rx.mem, 9 + name.length⟩ " IS " = true := fun yes =>
      is ((startsWith_decided spelled.right " IS " decided).mp yes)
    rw [disassebleNamed_of_name pBlocks type spelled clear hit
      (by rw [used, List.length_append]; omega), if_neg decides]

/-- A complete REPLY. -/
theorem disassebleReply_complete {rest : List UInt8} (complete : ReplyComplete rest) :
    (∀ rx : Buffer, CharPtr.Spells ⟨rx.mem, 6⟩ rest → rx.used = 6 + rest.length →
      disassebleReply rx pBlocks =
        { pBlocks with
          zeroth := ⟨some ⟨rx.mem, 6⟩, pBlocks.zeroth.len⟩
          type := MsgType.msgCorrupted.toUChar }) ∨
    ∃ (ok : Bool) (contents : Nat), (if ok then 6 else 7) + contents ≤ rest.length ∧
      ∀ rx : Buffer, CharPtr.Spells ⟨rx.mem, 6⟩ rest → rx.used = 6 + rest.length →
        disassebleReply rx pBlocks = replyBlocks rx pBlocks ok contents := by
  obtain ⟨decidedOk, endsOk⟩ := complete "OK IS " (by decide)
  obtain ⟨decidedNok, endsNok⟩ := complete "NOK IS " (by decide)
  have word {contents : List UInt8} (ends : ∃ x ∈ contents, isBlankOrEnd x = true) :
      ∃ text e behind, contents = text ++ e :: behind ∧ (∀ x ∈ text, isBlankOrEnd x = false) ∧
        isBlankOrEnd e = true := by
    obtain ⟨x, mem, stop⟩ := ends
    rcases exists_split isBlankOrEnd contents with none | found
    · rw [none x mem] at stop
      cases stop
    · exact found
  by_cases ok : ascii "OK IS " <+: rest
  · obtain ⟨contents, rfl⟩ := ok
    obtain ⟨text, e, behind, rfl, open_, last⟩ := word (endsOk contents rfl)
    have six : (ascii "OK IS ").length = 6 := by decide
    refine Or.inr ⟨true, text.length, ?_, fun rx spelled used => ?_⟩
    · simp only [List.length_append, List.length_cons, six, if_true]
      omega
    have decides : startsWith ⟨rx.mem, 6⟩ "OK IS " = true := (startsWith_iff _ _).mpr spelled.left
    have found : findBlankCharInString ⟨rx.mem, 12⟩ (rx.used - 8) = text.length := by
      apply findBlankCharInString_hit (p := ⟨rx.mem, 12⟩) spelled.right open_ last
      simp only [List.length_append, List.length_cons, six] at used
      omega
    rw [disassebleReply_eq, if_pos decides, found]
  by_cases nok : ascii "NOK IS " <+: rest
  · obtain ⟨contents, rfl⟩ := nok
    obtain ⟨text, e, behind, rfl, open_, last⟩ := word (endsNok contents rfl)
    have seven : (ascii "NOK IS ").length = 7 := by decide
    refine Or.inr ⟨false, text.length, ?_, fun rx spelled used => ?_⟩
    · simp only [List.length_append, List.length_cons, seven, Bool.false_eq_true, if_false]
      omega
    have other : ¬ startsWith ⟨rx.mem, 6⟩ "OK IS " = true := fun yes =>
      ok ((startsWith_decided spelled "OK IS " decidedOk).mp yes)
    have decides : startsWith ⟨rx.mem, 6⟩ "NOK IS " = true := (startsWith_iff _ _).mpr spelled.left
    have found : findBlankCharInString ⟨rx.mem, 13⟩ (rx.used - 9) = text.length := by
      apply findBlankCharInString_hit (p := ⟨rx.mem, 13⟩) spelled.right open_ last
      simp only [List.length_append, List.length_cons, seven] at used
      omega
    rw [disassebleReply_eq, if_neg other, if_pos decides, found]
  · refine Or.inl fun rx spelled used => ?_
    have noOk : ¬ startsWith ⟨rx.mem, 6⟩ "OK IS " = true := fun yes =>
      ok ((startsWith_decided spelled "OK IS " decidedOk).mp yes)
    have noNok : ¬ startsWith ⟨rx.mem, 6⟩ "NOK IS " = true := fun yes =>
      nok ((startsWith_decided spelled "NOK IS " decidedNok).mp yes)
    rw [disassebleReply_eq, if_neg noOk, if_neg noNok]

theorem isolated_named {type : MsgType} (kind : type = .msgMsg ∨ type = .msgErr) {s : String}
    (nine : (ascii s).length = 9) {rest : List UInt8} (split : d = ascii s ++ rest)
    (complete : NameComplete rest)
    (branch : ∀ rx : Buffer, rx.bytes = d →
      disassebleProtocolTCP rx pBlocks = disassebleNamed type rx pBlocks) :
    Isolated pBlocks d := by
  have long : d.length = 9 + rest.length := by rw [split, List.length_append, nine]
  have place {rx : Buffer} (given : rx.bytes = d) :
      CharPtr.Spells ⟨rx.mem, 9⟩ rest ∧ rx.used = 9 + rest.length := by
    obtain ⟨whole, used⟩ := spells_bytes given
    rw [split] at whole
    refine ⟨?_, used.trans long⟩
    simpa [CharPtr.shift, nine] using whole.right
  rcases disassebleNamed_complete pBlocks type complete with
    ⟨name, decodes⟩ | ⟨name, contents, fits, decodes⟩
  · apply isolated_of pBlocks fun m => { pBlocks with
      zeroth := ⟨some ⟨m, 9⟩, name⟩
      type := MsgType.msgCorrupted.toUChar }
    · intro rx given
      rw [branch rx given]
      exact decodes rx (place given).1 (place given).2
    · exact fun _ _ => rfl
    · exact fun _ _ => rfl
    · exact fun _ => List.forall_mem_nil _
  · apply isolated_of pBlocks fun m => { pBlocks with
      zeroth := ⟨some ⟨m, 9⟩, name⟩
      first := ⟨some ⟨m, 9 + (name + 4)⟩, contents⟩
      type := type.toUChar }
    · intro rx given
      rw [branch rx given]
      exact decodes rx (place given).1 (place given).2
    · exact fun _ _ => rfl
    · exact fun _ _ => rfl
    · intro m b mem
      have which : b = ⟨some ⟨m, 9⟩, name⟩ ∨ b = ⟨some ⟨m, 9 + (name + 4)⟩, contents⟩ := by
        rcases kind with rfl | rfl <;> simpa [ProtocolBlocks.reported] using mem
      rcases which with rfl | rfl
      · apply BytesBlock.Inside.of_ptr <;> omega
      · apply BytesBlock.Inside.of_ptr <;> omega

theorem isolated_reply {rest : List UInt8} (split : d = ascii "REPLY " ++ rest)
    (complete : ReplyComplete rest)
    (branch : ∀ rx : Buffer, rx.bytes = d →
      disassebleProtocolTCP rx pBlocks = disassebleReply rx pBlocks) :
    Isolated pBlocks d := by
  have six : (ascii "REPLY ").length = 6 := by decide
  have long : d.length = 6 + rest.length := by rw [split, List.length_append, six]
  have place {rx : Buffer} (given : rx.bytes = d) :
      CharPtr.Spells ⟨rx.mem, 6⟩ rest ∧ rx.used = 6 + rest.length := by
    obtain ⟨whole, used⟩ := spells_bytes given
    rw [split] at whole
    refine ⟨?_, used.trans long⟩
    simpa [CharPtr.shift, six] using whole.right
  rcases disassebleReply_complete pBlocks complete with decodes | ⟨ok, contents, fits, decodes⟩
  · apply isolated_of pBlocks fun m => { pBlocks with
      zeroth := ⟨some ⟨m, 6⟩, pBlocks.zeroth.len⟩
      type := MsgType.msgCorrupted.toUChar }
    · intro rx given
      rw [branch rx given]
      exact decodes rx (place given).1 (place given).2
    · exact fun _ _ => rfl
    · exact fun _ _ => rfl
    · exact fun _ => List.forall_mem_nil _
  · apply isolated_of pBlocks fun m => { pBlocks with
      zeroth := ⟨some ⟨m, 6⟩, if ok then 2 else 3⟩
      second := ⟨some ⟨m, if ok then 12 else 13⟩, contents⟩
      msgReplyResultBool := ok
      type := MsgType.msgReply.toUChar }
    · intro rx given
      rw [branch rx given]
      exact decodes rx (place given).1 (place given).2
    · exact fun _ _ => rfl
    · exact fun _ _ => rfl
    · intro m b mem
      have which : b = ⟨some ⟨m, 6⟩, if ok then 2 else 3⟩ ∨
          b = ⟨some ⟨m, if ok then 12 else 13⟩, contents⟩ := by
        simpa [ProtocolBlocks.reported] using mem
      cases ok
      all_goals
        simp only [Bool.false_eq_true, if_true, if_false] at which fits
        rcases which with rfl | rfl
        · apply BytesBlock.Inside.of_ptr <;> omega
        · apply BytesBlock.Inside.of_ptr <;> omega

theorem isolated_of_complete (complete : Complete d) : Isolated pBlocks d := by
  have decides (s : String) (title : s ∈ ["MSG FROM ", "REPLY ", "BYE", "ERR FROM "])
      {rx : Buffer} (given : rx.bytes = d) : startsWith ⟨rx.mem, 0⟩ s = true ↔ ascii s <+: d :=
    startsWith_decided (spells_bytes given).1 s (complete.title s title)
  by_cases msg : ascii "MSG FROM " <+: d
  · obtain ⟨rest, split⟩ := msg
    apply isolated_named pBlocks (Or.inl rfl) (by decide) split.symm
      (complete.name "MSG FROM " (by decide) rest split.symm)
    intro rx given
    rw [disassebleProtocolTCP_eq,
      if_pos ((decides "MSG FROM " (by decide) given).mpr ⟨rest, split⟩)]
  have noMsg {rx : Buffer} (given : rx.bytes = d) : ¬ startsWith ⟨rx.mem, 0⟩ "MSG FROM " = true :=
    fun yes => msg ((decides "MSG FROM " (by decide) given).mp yes)
  by_cases reply : ascii "REPLY " <+: d
  · obtain ⟨rest, split⟩ := reply
    apply isolated_reply pBlocks split.symm (complete.reply rest split.symm)
    intro rx given
    rw [disassebleProtocolTCP_eq, if_neg (noMsg given),
      if_pos ((decides "REPLY " (by decide) given).mpr ⟨rest, split⟩)]
  have noReply {rx : Buffer} (given : rx.bytes = d) : ¬ startsWith ⟨rx.mem, 0⟩ "REPLY " = true :=
    fun yes => reply ((decides "REPLY " (by decide) given).mp yes)
  by_cases bye : ascii "BYE" <+: d
  · apply isolated_of pBlocks fun _ => { pBlocks with type := MsgType.msgBye.toUChar }
    · intro rx given
      rw [disassebleProtocolTCP_eq, if_neg (noMsg given), if_neg (noReply given),
        if_pos ((decides "BYE" (by decide) given).mpr bye)]
    · exact fun _ _ => rfl
    · exact fun _ _ => rfl
    · exact fun _ => nofun
  have noBye {rx : Buffer} (given : rx.bytes = d) : ¬ startsWith ⟨rx.mem, 0⟩ "BYE" = true :=
    fun yes => bye ((decides "BYE" (by decide) given).mp yes)
  by_cases err : ascii "ERR FROM " <+: d
  · obtain ⟨rest, split⟩ := err
    apply isolated_named pBlocks (Or.inr rfl) (by decide) split.symm
      (complete.name "ERR FROM " (by decide) rest split.symm)
    intro rx given
    rw [disassebleProtocolTCP_eq, if_neg (noMsg given), if_neg (noReply given),
      if_neg (noBye given), if_pos ((decides "ERR FROM " (by decide) given).mpr ⟨rest, split⟩)]
  have noErr {rx : Buffer} (given : rx.bytes = d) : ¬ startsWith ⟨rx.mem, 0⟩ "ERR FROM " = true :=
    fun yes => err ((decides "ERR FROM " (by decide) given).mp yes)
  · apply isolated_of pBlocks fun _ => { pBlocks with type := MsgType.msgUnknown.toUChar }
    · intro rx given
      rw [disassebleProtocolTCP_eq, if_neg (noMsg given), if_neg (noReply given),
        if_neg (noBye given), if_neg (noErr given)]
    · exact fun _ _ => rfl
    · exact fun _ _ => rfl
    · exact fun _ => nofun

/-- The receive buffer with `d` in it and `behind` left from before. -/
def leftBehind (d behind : List UInt8) : Buffer :=
  ⟨some (Memory.write (fun _ => 0xC4) 0 (d ++ behind)), 1500, d.length⟩

theorem leftBehind_bytes (d behind : List UInt8) : (leftBehind d behind).bytes = d := by
  have whole := Memory.read_write_self (fun _ => 0xC4) 0 (d ++ behind)
  rw [List.length_append, Memory.read_add] at whole
  exact (List.append_inj whole (by simp)).1

theorem leftBehind_spells (d behind : List UInt8) :
    CharPtr.Spells ⟨(leftBehind d behind).mem, 0⟩ (d ++ behind) :=
  Memory.read_write_self (fun _ => 0xC4) 0 (d ++ behind)

theorem type_unknown_iff :
    (disassebleProtocolTCP rx pBlocks).type = MsgType.msgUnknown.toUChar ↔
      ∀ s ∈ ["MSG FROM ", "REPLY ", "BYE", "ERR FROM "], ¬ startsWith ⟨rx.mem, 0⟩ s = true := by
  have named (type : MsgType) (kind : type = .msgMsg ∨ type = .msgErr) :
      (disassebleNamed type rx pBlocks).type ≠ MsgType.msgUnknown.toUChar := by
    rcases kind with rfl | rfl
    all_goals
      unfold disassebleNamed
      simp only
      split <;> exact nofun
  have reply : (disassebleReply rx pBlocks).type ≠ MsgType.msgUnknown.toUChar := by
    rw [disassebleReply_eq]
    split
    · exact nofun
    · split <;> exact nofun
  simp only [List.forall_mem_cons, List.not_mem_nil, false_implies, implies_true, and_true]
  rw [disassebleProtocolTCP_eq]
  by_cases msg : startsWith ⟨rx.mem, 0⟩ "MSG FROM " = true
  · rw [if_pos msg]
    exact ⟨fun type => absurd type (named _ (Or.inl rfl)), fun none => absurd msg none.1⟩
  by_cases answer : startsWith ⟨rx.mem, 0⟩ "REPLY " = true
  · rw [if_neg msg, if_pos answer]
    exact ⟨fun type => absurd type reply, fun none => absurd answer none.2.1⟩
  by_cases bye : startsWith ⟨rx.mem, 0⟩ "BYE" = true
  · rw [if_neg msg, if_neg answer, if_pos bye]
    exact ⟨nofun, fun none => absurd bye none.2.2.1⟩
  by_cases err : startsWith ⟨rx.mem, 0⟩ "ERR FROM " = true
  · rw [if_neg msg, if_neg answer, if_neg bye, if_pos err]
    exact ⟨fun type => absurd type (named _ (Or.inr rfl)), fun none => absurd err none.2.2.2⟩
  · rw [if_neg msg, if_neg answer, if_neg bye, if_neg err]
    exact ⟨fun _ => ⟨msg, answer, bye, err⟩, fun _ => rfl⟩

/-- None of the texts begins another. -/
theorem eq_of_title_begins : ∀ t ∈ ["MSG FROM ", "REPLY ", "BYE", "ERR FROM "],
    ∀ s ∈ ["MSG FROM ", "REPLY ", "BYE", "ERR FROM "], ascii t <+: ascii s → t = s := by
  decide

variable {pBlocks} in
theorem Isolated.title (isolated : Isolated pBlocks d) :
    ∀ s ∈ ["MSG FROM ", "REPLY ", "BYE", "ERR FROM "], ¬ Undecided (ascii s) d := by
  rintro s title ⟨⟨more, split⟩, short⟩
  have absent : ∀ t ∈ ["MSG FROM ", "REPLY ", "BYE", "ERR FROM "], (0xC4 : UInt8) ∉ ascii t := by
    decide
  -- in front of the rest of the text it is a message, in front of anything else it is not
  have goes := leftBehind_spells d more
  have stops := leftBehind_spells d [0xC4]
  obtain ⟨same, -, -⟩ := isolated _ _ (leftBehind_bytes d more) (leftBehind_bytes d [0xC4])
  have unknown : (disassebleProtocolTCP (leftBehind d [0xC4]) pBlocks).type =
      MsgType.msgUnknown.toUChar := by
    apply (type_unknown_iff pBlocks).mpr
    intro t other starts
    have front := (startsWith_before stops t (absent t other)).mp starts
    have equal := eq_of_title_begins t other s title (front.trans ⟨more, split⟩)
    subst equal
    exact short (List.IsPrefix.eq_of_length_le ⟨more, split⟩ front.length_le)
  rw [← same, type_unknown_iff] at unknown
  rw [split] at goes
  exact unknown s title ((startsWith_iff _ _).mpr goes)

/-- Only one title is there. -/
theorem named_branch {s : String} (which : s ∈ ["MSG FROM ", "ERR FROM "]) {rest : List UInt8}
    (split : d = ascii s ++ rest) :
    ∃ type, (type = .msgMsg ∨ type = .msgErr) ∧ ∀ rx : Buffer, rx.bytes = d →
      disassebleProtocolTCP rx pBlocks = disassebleNamed type rx pBlocks := by
  have only {rx : Buffer} (given : rx.bytes = d) (t : String)
      (differ : ¬ ascii t <+: ascii s ∧ ¬ ascii s <+: ascii t) :
      ¬ startsWith ⟨rx.mem, 0⟩ t = true := by
    intro starts
    have whole := (spells_bytes given).1
    rw [split] at whole
    rcases ((startsWith_iff _ _).mp starts).agree whole.left with front | front
    · exact differ.1 front
    · exact differ.2 front
  have is {rx : Buffer} (given : rx.bytes = d) : startsWith ⟨rx.mem, 0⟩ s = true := by
    have whole := (spells_bytes given).1
    rw [split] at whole
    exact (startsWith_iff _ _).mpr whole.left
  simp only [List.mem_cons, List.not_mem_nil, or_false] at which
  rcases which with rfl | rfl
  · refine ⟨.msgMsg, Or.inl rfl, fun rx given => ?_⟩
    rw [disassebleProtocolTCP_eq, if_pos (is given)]
  · refine ⟨.msgErr, Or.inr rfl, fun rx given => ?_⟩
    rw [disassebleProtocolTCP_eq, if_neg (only given "MSG FROM " (by decide)),
      if_neg (only given "REPLY " (by decide)), if_neg (only given "BYE" (by decide)),
      if_pos (is given)]

/-- With no blank in the received bytes nor behind them there is no name. -/
theorem disassebleNamed_unnamed (type : MsgType) {rest : List UInt8}
    (spelled : CharPtr.Spells ⟨rx.mem, 9⟩ (rest ++ [0xC4, 0xC4, 0xC4]))
    (used : rx.used = 9 + rest.length) (clear : ∀ x ∈ rest, isBlankOrEnd x = false) :
    (disassebleNamed type rx pBlocks).type = MsgType.msgCorrupted.toUChar := by
  have missed : findBlankCharInString ⟨rx.mem, 9⟩ (rx.used - 9) = -1 := by
    have next : CharPtr.Spells ⟨rx.mem, 9⟩ (rest ++ [0xC4]) :=
      spelled.start ⟨[0xC4, 0xC4], by simp⟩
    apply findBlankCharInString_miss next
    · intro x mem
      rcases List.mem_append.mp mem with inside | last
      · exact clear x inside
      · obtain rfl := List.mem_singleton.mp last
        decide
    · simp only [used, List.length_append, List.length_singleton]
      omega
    · omega
  have other : ¬ startsWith ⟨rx.mem, 8⟩ " IS " = true := by
    intro starts
    have is : CharPtr.Spells ⟨rx.mem, 9⟩ (ascii "IS ") :=
      CharPtr.Spells.right (a := ascii " ") ((startsWith_iff _ _).mp starts)
    have blank : ch ' ' ∈ rest := by
      have front := (startsWith_before spelled "IS " (by decide)).mp ((startsWith_iff _ _).mpr is)
      exact front.subset (by decide)
    have no := clear _ blank
    revert no
    decide
  have nine : lenOf "MSG FROM " = 9 := by decide
  simp only [disassebleNamed, nine, CharPtr.shift, Int.zero_add, missed, BytesBlock.endPtr]
  rw [show (9 : Int) + -1 = 8 by omega, if_neg other]

theorem leftBehind_split {title rest : List UInt8} (split : d = title ++ rest)
    (behind : List UInt8) :
    CharPtr.Spells ⟨(leftBehind d behind).mem, title.length⟩ (rest ++ behind) ∧
      (leftBehind d behind).used = title.length + rest.length := by
  have whole := leftBehind_spells d behind
  subst split
  rw [List.append_assoc] at whole
  refine ⟨?_, List.length_append⟩
  simpa [CharPtr.shift] using whole.right

/-- Bytes no text and no end of a word has. -/
abbrev leftover : List UInt8 := [0xC4, 0xC4, 0xC4, 0xC4, 0xC4]

/-- A name in front of the rest of " IS " is accepted. -/
theorem disassebleNamed_goesOn (type : MsgType) {name tail more : List UInt8}
    (spelled : CharPtr.Spells ⟨rx.mem, 9⟩ (name ++ (tail ++ more)))
    (used : rx.used = 9 + (name ++ tail).length) (clear : ∀ x ∈ name, isBlankOrEnd x = false)
    (text : tail ++ more = ascii " IS ") :
    (disassebleNamed type rx pBlocks).type = type.toUChar := by
  rw [text] at spelled
  have is : startsWith ⟨rx.mem, 9 + name.length⟩ " IS " = true :=
    (startsWith_iff _ _).mpr spelled.right
  have long : (name.length : Int) ≤ rx.used - 9 := by
    rw [used, List.length_append]
    omega
  rw [disassebleNamed_of_name pBlocks type (c := ch ' ') spelled clear (by decide) long, if_pos is]
  rfl

/-- Contents up to the first line end behind them. -/
theorem disassebleNamed_contents (type : MsgType) {name contents behind : List UInt8}
    (spelled : CharPtr.Spells ⟨rx.mem, 9⟩ (name ++ (ascii " IS " ++ (contents ++ behind))))
    (used : rx.used = 9 + (name ++ (ascii " IS " ++ contents)).length)
    (clear : ∀ x ∈ name, isBlankOrEnd x = false) :
    (disassebleNamed type rx pBlocks).first.len =
      findNewLineInString ⟨rx.mem, 9 + (name.length + 4)⟩ (contents.length + 4) := by
  have is : startsWith ⟨rx.mem, 9 + name.length⟩ " IS " = true :=
    (startsWith_iff _ _).mpr spelled.right.left
  have four : (ascii " IS ").length = 4 := by decide
  simp only [List.length_append, four] at used
  have bound : (rx.used : Int) - 9 - name.length = contents.length + 4 := by omega
  rw [disassebleNamed_of_name pBlocks type (c := ch ' ') spelled clear (by decide)
    (by rw [used]; omega), if_pos is, namedBlocks, bound]

variable {pBlocks} in
theorem Isolated.name (isolated : Isolated pBlocks d) :
    ∀ s ∈ ["MSG FROM ", "ERR FROM "], ∀ rest, d = ascii s ++ rest → NameComplete rest := by
  intro s which rest split
  obtain ⟨type, kind, branch⟩ := named_branch pBlocks which split
  have nine : (ascii s).length = 9 := by
    simp only [List.mem_cons, List.not_mem_nil, or_false] at which
    rcases which with rfl | rfl <;> decide
  have place (behind : List UInt8) := leftBehind_split split behind
  simp only [nine, Int.cast_ofNat_Int] at place
  have same (behind : List UInt8) := isolated _ _ (leftBehind_bytes d behind)
    (leftBehind_bytes d leftover)
  simp only [branch _ (leftBehind_bytes d _)] at same
  have other : type.toUChar ≠ MsgType.msgCorrupted.toUChar := by
    rcases kind with rfl | rfl <;> decide
  rcases exists_split isBlankOrEnd rest with clear | ⟨name, c, more, rfl, clear, hit⟩
  · have yes : (disassebleNamed type (leftBehind d (ascii " IS ")) pBlocks).type = type.toUChar :=
      disassebleNamed_goesOn pBlocks type (List.nil_append (ascii " IS ") ▸ (place _).1)
        (by simpa using (place _).2) clear (List.nil_append _)
    have no : (disassebleNamed type (leftBehind d leftover) pBlocks).type =
        MsgType.msgCorrupted.toUChar :=
      disassebleNamed_unnamed pBlocks type ((place leftover).1.start ⟨[0xC4, 0xC4], by simp⟩)
        (place _).2 clear
    exact absurd (yes.symm.trans ((same _).1.trans no)) other
  simp only [List.append_assoc] at place
  unfold NameComplete
  rw [dropWhile_split clear hit]
  constructor
  · rintro ⟨⟨behind, text⟩, short⟩
    have yes : (disassebleNamed type (leftBehind d behind) pBlocks).type = type.toUChar :=
      disassebleNamed_goesOn pBlocks type (place _).1 (place _).2 clear text
    have stops : ¬ startsWith ⟨(leftBehind d leftover).mem, 9 + name.length⟩ " IS " = true := by
      intro starts
      have front := (startsWith_before (place leftover).1.right " IS " (by decide)).mp starts
      exact short (List.IsPrefix.eq_of_length_le ⟨behind, text⟩ front.length_le)
    have no : (disassebleNamed type (leftBehind d leftover) pBlocks).type =
        MsgType.msgCorrupted.toUChar := by
      rw [disassebleNamed_of_name pBlocks type (place leftover).1 clear hit
        (by rw [(place _).2, List.length_append]; omega), if_neg stops]
    exact absurd (yes.symm.trans ((same _).1.trans no)) other
  · intro contents text
    by_contra endless
    have open_ : ∀ x ∈ contents, isLineEnd x = false := by
      intro x mem
      by_contra stop
      exact endless ⟨x, mem, by simpa using stop⟩
    simp only [text, List.append_assoc] at place
    have lens (behind : List UInt8) :=
      disassebleNamed_contents pBlocks type (place behind).1 (place behind).2 clear
    have spot (behind : List UInt8) : CharPtr.Spells
        ⟨(leftBehind d behind).mem, 9 + (name.length + 4)⟩ (contents ++ behind) := by
      have right := (place behind).1.right.right
      simpa [CharPtr.shift, Int.add_assoc, show (ascii " IS ").length = 4 by decide] using right
    have found : findNewLineInString ⟨(leftBehind d [ch '\n']).mem, 9 + (name.length + 4)⟩
        (contents.length + 4) = contents.length :=
      findNewLineInString_hit (spot [ch '\n']) open_ (by decide) (by omega)
    have missed : findNewLineInString ⟨(leftBehind d leftover).mem, 9 + (name.length + 4)⟩
        (contents.length + 4) = -1 :=
      findNewLineInString_miss (spot leftover)
        (by simpa [or_imp, forall_and] using ⟨open_, by decide⟩) (by simp; omega) (by omega)
    have equal : (disassebleNamed type (leftBehind d [ch '\n']) pBlocks).first.len =
        (disassebleNamed type (leftBehind d leftover) pBlocks).first.len :=
      congrArg (fun places => (places.getD 1 (none, 0)).2) (same [ch '\n']).2.1
    rw [lens, lens, found, missed] at equal
    omega

theorem reply_branch {rest : List UInt8} (split : d = ascii "REPLY " ++ rest)
    (given : rx.bytes = d) : disassebleProtocolTCP rx pBlocks = disassebleReply rx pBlocks := by
  have whole := (spells_bytes given).1
  rw [split] at whole
  have is : startsWith ⟨rx.mem, 0⟩ "REPLY " = true := (startsWith_iff _ _).mpr whole.left
  have only : ¬ startsWith ⟨rx.mem, 0⟩ "MSG FROM " = true := by
    intro starts
    rcases ((startsWith_iff _ _).mp starts).agree whole.left with front | front
    · revert front
      decide
    · revert front
      decide
  rw [disassebleProtocolTCP_eq, if_neg only, if_pos is]

theorem reply_type_iff :
    (disassebleReply rx pBlocks).type = MsgType.msgReply.toUChar ↔
      ∃ s ∈ ["OK IS ", "NOK IS "], startsWith ⟨rx.mem, 6⟩ s = true := by
  rw [disassebleReply_eq]
  simp only [List.mem_cons, List.not_mem_nil, or_false, exists_eq_or_imp, exists_eq_left]
  split
  · simp [*, replyBlocks]
  split
  · simp [*, replyBlocks]
  · have other : MsgType.msgCorrupted.toUChar ≠ MsgType.msgReply.toUChar := by decide
    exact ⟨fun same => absurd same other, fun some => absurd some (by simp [*])⟩

/-- Contents up to the first blank behind them. -/
theorem disassebleReply_contents {s : String} (which : s ∈ ["OK IS ", "NOK IS "])
    {contents behind : List UInt8}
    (spelled : CharPtr.Spells ⟨rx.mem, 6⟩ (ascii s ++ (contents ++ behind)))
    (used : rx.used = 6 + (ascii s ++ contents).length) :
    (disassebleReply rx pBlocks).second.len =
      findBlankCharInString ⟨rx.mem, 6 + (ascii s).length⟩ (contents.length + 4) := by
  have is := (startsWith_iff _ _).mpr spelled.left
  simp only [List.mem_cons, List.not_mem_nil, or_false] at which
  rw [List.length_append] at used
  rw [disassebleReply_eq]
  rcases which with rfl | rfl
  · have six : (ascii "OK IS ").length = 6 := by decide
    have bound : (rx.used : Int) - 8 = contents.length + 4 := by omega
    rw [if_pos is, replyBlocks, bound, six]
    rfl
  · have seven : (ascii "NOK IS ").length = 7 := by decide
    have bound : (rx.used : Int) - 9 = contents.length + 4 := by omega
    have other : ¬ startsWith ⟨rx.mem, 6⟩ "OK IS " = true := by
      intro ok
      rcases ((startsWith_iff _ _).mp ok).agree spelled.left with front | front
      · revert front
        decide
      · revert front
        decide
    rw [if_neg other, if_pos is, replyBlocks, bound, seven]
    rfl

variable {pBlocks} in
theorem Isolated.reply (isolated : Isolated pBlocks d) :
    ∀ rest, d = ascii "REPLY " ++ rest → ReplyComplete rest := by
  intro rest split s which
  have place (behind : List UInt8) := leftBehind_split split behind
  simp only [show (ascii "REPLY ").length = 6 by decide, Int.cast_ofNat_Int] at place
  have same (behind : List UInt8) := isolated _ _ (leftBehind_bytes d behind)
    (leftBehind_bytes d leftover)
  simp only [reply_branch pBlocks split (leftBehind_bytes d _)] at same
  constructor
  · rintro ⟨⟨behind, text⟩, short⟩
    have spelled := (place behind).1
    rw [text] at spelled
    have yes := (reply_type_iff pBlocks).mpr ⟨s, which, (startsWith_iff _ _).mpr spelled⟩
    rw [(same behind).1, reply_type_iff] at yes
    obtain ⟨t, other, starts⟩ := yes
    have absent : ∀ t ∈ ["OK IS ", "NOK IS "], (0xC4 : UInt8) ∉ ascii t := by decide
    have front := (startsWith_before (place leftover).1 t (absent t other)).mp starts
    have only : ∀ t ∈ ["OK IS ", "NOK IS "], ∀ s ∈ ["OK IS ", "NOK IS "],
        ascii t <+: ascii s → t = s := by decide
    obtain rfl := only t other s which (front.trans ⟨behind, text⟩)
    exact short (List.IsPrefix.eq_of_length_le ⟨behind, text⟩ front.length_le)
  · intro contents text
    by_contra endless
    have open_ : ∀ x ∈ contents, isBlankOrEnd x = false := by
      intro x mem
      by_contra stop
      exact endless ⟨x, mem, by simpa using stop⟩
    simp only [text, List.append_assoc] at place
    have lens (behind : List UInt8) :=
      disassebleReply_contents pBlocks which (place behind).1 (place behind).2
    have spot (behind : List UInt8) : CharPtr.Spells
        ⟨(leftBehind d behind).mem, 6 + (ascii s).length⟩ (contents ++ behind) :=
      (place behind).1.right
    have found : findBlankCharInString ⟨(leftBehind d [ch '\n']).mem, 6 + (ascii s).length⟩
        (contents.length + 4) = contents.length :=
      findBlankCharInString_hit (spot [ch '\n']) open_ (by decide) (by omega)
    have missed : findBlankCharInString ⟨(leftBehind d leftover).mem, 6 + (ascii s).length⟩
        (contents.length + 4) = -1 :=
      findBlankCharInString_miss (spot leftover)
        (by simpa [or_imp, forall_and] using ⟨open_, by decide⟩) (by simp; omega) (by omega)
    have equal : (disassebleReply (leftBehind d [ch '\n']) pBlocks).second.len =
        (disassebleReply (leftBehind d leftover) pBlocks).second.len :=
      congrArg (fun places => (places.getD 2 (none, 0)).2) (same [ch '\n']).2.1
    rw [lens, lens, found, missed] at equal
    omega

theorem isolated_iff : Isolated pBlocks d ↔ Complete d :=
  ⟨fun isolated => ⟨isolated.title, isolated.name, isolated.reply⟩, isolated_of_complete pBlocks⟩

end

/-- What was left behind the contents decides where they end. -/
theorem not_isolated_unended : ¬ Isolated (.reset 0) (ascii "MSG FROM a IS hi") := by
  intro isolated
  have complete := isolated.name "MSG FROM " (by decide) (ascii "a IS hi") (by decide)
  have ended := complete.2 (ascii "hi") (by decide)
  revert ended
  decide

end Ipk24Chat
