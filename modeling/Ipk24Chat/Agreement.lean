import Ipk24Chat.WellFormed
import Ipk24Chat.Execution
import Ipk24Chat.Parsing

/-!
# Both variants say the same

A line is parsed and filtered in the same way in both variants and then
encoded in the format of one of them. The encoders take a JOIN's channel from
different places.

* `Reads`: what the grammar of a format finds in a string; `reads_unique`: it
  finds one message at most;
* `assembleLine`: what a line comes to before it is queued (`handleLine_eq`);
* `variants_agree`: from the same state a line comes to the same message in
  both variants, or to none in both.
-/

namespace Ipk24Chat

/-! ## Reading a string back -/

/-- The grammar of a variant finds the message `type` with `fields` in `bytes`. -/
def Reads (protocol : Protocols) (bytes : List UInt8) (type : MsgType)
    (fields : List (List UInt8)) : Prop :=
  WellFormedFields type fields ∧
    match protocol with
    | .protUDP => ∃ low high, bytes = formatUDP type low high fields
    | .protTCP => bytes = formatTCP type fields

/-- A word ends at the first separator. -/
theorem append_separator_inj {α : Type} {sep : α} {x y r s : List α} (hx : sep ∉ x) (hy : sep ∉ y)
    (h : x ++ sep :: r = y ++ sep :: s) : x = y ∧ r = s := by
  induction x generalizing y with
  | nil =>
    cases y with
    | nil => simpa using h
    | cons b y =>
      simp only [List.nil_append, List.cons_append, List.cons.injEq] at h
      exact absurd (h.1 ▸ List.mem_cons_self) hy
  | cons a x ih =>
    cases y with
    | nil =>
      simp only [List.nil_append, List.cons_append, List.cons.injEq] at h
      exact absurd (h.1 ▸ List.mem_cons_self) hx
    | cons b y =>
      simp only [List.cons_append, List.cons.injEq] at h
      obtain ⟨rfl, rest⟩ := h
      obtain ⟨rfl, rfl⟩ := ih (List.not_mem_of_not_mem_cons hx) (List.not_mem_of_not_mem_cons hy)
        rest
      exact ⟨rfl, rfl⟩

theorem terminated_inj {fields fields' : List (List UInt8)} (h : ∀ f ∈ fields, ZeroFree f)
    (h' : ∀ f ∈ fields', ZeroFree f) (same : terminated fields = terminated fields') :
    fields = fields' := by
  induction fields generalizing fields' with
  | nil =>
    cases fields' with
    | nil => rfl
    | cons f fields' => simp [terminated] at same
  | cons f fields ih =>
    cases fields' with
    | nil => simp [terminated] at same
    | cons f' fields' =>
      simp only [terminated, List.flatMap_cons, List.append_assoc, List.singleton_append] at same
      simp only [List.forall_mem_cons] at h h'
      obtain ⟨rfl, rest⟩ := append_separator_inj h.1.2 h'.1.2 same
      rw [ih h.2 h'.2 rest]

/-- No word has a blank in it, message contents apart. -/
theorem Controlled.blank_notMem {n : Nat} {type : TypeOfWord} {word : List UInt8}
    (h : Controlled n type word) (other : type ≠ .messageContent) : ch ' ' ∉ word := by
  intro blank
  have allowed := h.2.2 _ blank
  revert allowed
  cases type <;> first | exact absurd rfl other | decide

/-- The first letter of a message in its TCP form. -/
def MsgType.initial : MsgType → UInt8
  | .msgAuth => ch 'A'
  | .msgJoin => ch 'J'
  | .msgMsg => ch 'M'
  | _ => ch 'B'

theorem formatTCP_head {type : MsgType} {fields : List (List UInt8)}
    (h : WellFormedFields type fields) : (formatTCP type fields).head? = some type.initial := by
  unfold WellFormedFields at h
  split at h
  case h_5 => exact h.elim
  all_goals
    simp only [formatTCP, List.append_assoc]
    rfl

/-- The messages of a client differ in their first letters. -/
theorem formatTCP_type {type type' : MsgType} {fields fields' : List (List UInt8)}
    (h : WellFormedFields type fields) (h' : WellFormedFields type' fields')
    (same : formatTCP type fields = formatTCP type' fields') : type = type' := by
  have heads := congrArg List.head? same
  rw [formatTCP_head h, formatTCP_head h', Option.some.injEq] at heads
  revert heads
  cases type <;> first | exact h.elim | (cases type' <;> first | exact h'.elim | decide)

/-- How many fields there are depends on the type only. -/
theorem wellFormedFields_length {type : MsgType} {fields fields' : List (List UInt8)}
    (h : WellFormedFields type fields) (h' : WellFormedFields type fields') :
    fields'.length = fields.length := by
  unfold WellFormedFields at h h'
  split at h <;> split at h' <;> first | rfl | contradiction

theorem formatTCP_inj {type type' : MsgType} {fields fields' : List (List UInt8)}
    (h : WellFormedFields type fields) (h' : WellFormedFields type' fields')
    (same : formatTCP type fields = formatTCP type' fields') : type = type' ∧ fields = fields' := by
  obtain rfl := formatTCP_type h h' same
  refine ⟨rfl, ?_⟩
  have word (s : String) (rest : List UInt8) (title : ascii s = ch ' ' :: (ascii s).tail) :
      ascii s ++ rest = ch ' ' :: ((ascii s).tail ++ rest) := by
    rw [← List.cons_append, ← title]
  have count := wellFormedFields_length h h'
  unfold WellFormedFields at h h'
  split at h
  · rename_i username displayname secret
    obtain ⟨username', displayname', secret', rfl⟩ := List.length_eq_three.mp count
    simp only [formatTCP, List.append_assoc, List.append_cancel_left_eq] at same
    rw [word " AS " _ rfl, word " AS " _ rfl] at same
    obtain ⟨rfl, named⟩ := append_separator_inj (h.1.blank_notMem (by decide))
      (h'.1.blank_notMem (by decide)) same
    rw [List.append_cancel_left_eq, word " USING " _ rfl, word " USING " _ rfl] at named
    obtain ⟨rfl, rest⟩ := append_separator_inj (h.2.1.blank_notMem (by decide))
      (h'.2.1.blank_notMem (by decide)) named
    rw [List.append_cancel_left_eq, List.append_cancel_right_eq] at rest
    rw [rest]
  · rename_i channelID displayname
    obtain ⟨channelID', displayname', rfl⟩ := List.length_eq_two.mp count
    simp only [formatTCP, List.append_assoc, List.append_cancel_left_eq] at same
    rw [word " AS " _ rfl, word " AS " _ rfl] at same
    obtain ⟨rfl, rest⟩ := append_separator_inj (h.1.blank_notMem (by decide))
      (h'.1.blank_notMem (by decide)) same
    rw [List.append_cancel_left_eq, List.append_cancel_right_eq] at rest
    rw [rest]
  · rename_i displayname contents
    obtain ⟨displayname', contents', rfl⟩ := List.length_eq_two.mp count
    simp only [formatTCP, List.append_assoc, List.append_cancel_left_eq] at same
    rw [word " IS " _ rfl, word " IS " _ rfl] at same
    obtain ⟨rfl, rest⟩ := append_separator_inj (h.1.blank_notMem (by decide))
      (h'.1.blank_notMem (by decide)) same
    rw [List.append_cancel_left_eq, List.append_cancel_right_eq] at rest
    rw [rest]
  · exact (List.eq_nil_of_length_eq_zero count).symm
  · exact h.elim

theorem reads_unique {protocol : Protocols} {bytes : List UInt8} {type type' : MsgType}
    {fields fields' : List (List UInt8)} (h : Reads protocol bytes type fields)
    (h' : Reads protocol bytes type' fields') : type = type' ∧ fields = fields' := by
  cases protocol with
  | protUDP =>
    obtain ⟨good, low, high, rfl⟩ := h
    obtain ⟨good', low', high', same⟩ := h'
    simp only [formatUDP, List.cons.injEq] at same
    have types : type = type' := by
      have numbers := same.1
      revert numbers
      cases type <;> first | exact good.elim | (cases type' <;> first | exact good'.elim | decide)
    exact ⟨types, terminated_inj (wellFormedFields_zeroFree good) (wellFormedFields_zeroFree good')
      same.2.2.2⟩
  | protTCP => exact formatTCP_inj h.1 h'.1 (h.2.symm.trans h'.2)

/-! ## What a line comes to -/

/-- The message a line is made to, with its flags; none if it is not to be sent. -/
abbrev Spoken := Option (Assembled × MsgFlags)

/-- A line, parsed, filtered and assembled. -/
def assembleLine (protocol : Protocols) (clientInput : Buffer) : Prog (Except Failure Spoken) := do
  let parsed := userInputToCmds clientInput (.reset CommandType.cmdNone.toUChar) .msgFlagNone
  printComplaint parsed.complaint
  let (canBeSended, flags) ← filterCommandsByFSM parsed.pBlocks parsed.flags
  if canBeSended then
    match ← assembleProtocol protocol .protocolToSendedByMain parsed.pBlocks with
    | .error f => pure (.error f)
    | .ok r => pure (.ok (if r.canBeSended then some (r, flags) else none))
  else pure (.ok none)

/-- Queues what a line came to. -/
def enqueueSpoken (cfg : NetworkConfig) : Except Failure Spoken → Prog Unit
  | .error f => errHandling cfg f
  | .ok none => pure ()
  | .ok (some (r, flags)) => enqueueCommand flags r.pBlocks.type

/-- This is what main does with a line. -/
theorem handleLine_eq (cfg : NetworkConfig) (clientInput : Buffer) :
    handleLine cfg clientInput = assembleLine cfg.protocol clientInput >>= enqueueSpoken cfg := by
  unfold handleLine assembleLine
  simp only
  rw [Program.bind_assoc]
  congr 1
  funext _
  rw [Program.bind_assoc]
  congr 1
  funext ⟨canBeSended, flags⟩
  cases canBeSended with
  | false => rfl
  | true =>
    change assembleCommand cfg _ flags = _
    rw [assembleCommand]
    change _ = (assembleProtocol _ _ _ >>= _) >>= _
    rw [Program.bind_assoc]
    congr 1
    funext result
    cases result with
    | error f => rfl
    | ok r =>
      cases sent : r.canBeSended <;> simp [sent, enqueueSpoken]

/-- What the user said: the words of the line and the name that is stored. -/
def spokenFields (pBlocks : ProtocolBlocks) (displayName : List UInt8) : List (List UInt8) :=
  match uchar2CommandType pBlocks.type with
  | .cmdAuth =>
    [pBlocks.cmdAuthUsername.bytes, pBlocks.cmdAuthDisplayname.bytes, pBlocks.cmdAuthSecret.bytes]
  | .cmdJoin => [pBlocks.cmdJoinChannelID.bytes, displayName]
  | .cmdMsg => [displayName, pBlocks.cmdMsgMsgContents.bytes]
  | _ => []

/-- The string is a message of this type and these fields and of no others. -/
def ReadBack (protocol : Protocols) (r : Assembled) (type : MsgType)
    (fields : List (List UInt8)) : Prop :=
  r.pBlocks.type = type.toUChar ∧
    ∀ type' fields', Reads protocol r.buffer.bytes type' fields' ↔ type' = type ∧ fields' = fields

/-- No message in either variant, or one of `fields` in both. -/
def SameMessage (fields : List (List UInt8)) : Spoken → Spoken → Prop
  | none, none => True
  | some (udp, flags), some (tcp, flags') =>
    flags = flags' ∧ ∃ type, ReadBack .protUDP udp type fields ∧ ReadBack .protTCP tcp type fields
  | _, _ => False

/-! ## Agreement -/

/-- What a command finds stored when it has passed the filter. -/
structure Stored (pBlocks : ProtocolBlocks) (com : CommunicationDetails) : Prop where
  displayName : NameStored 20 .displayName com.displayName
  channelID : uchar2CommandType pBlocks.type = .cmdJoin →
    com.channelID.bytes = pBlocks.cmdJoinChannelID.bytes

section
variable {c : Client} {pBlocks : ProtocolBlocks}

/-- The filter stores the channel of a JOIN before it lets it pass. -/
theorem filterCommandsByFSM_stored (running : c.status = .running) (accepted : Accepted pBlocks)
    (name : NameStored 20 .displayName c.comDetails.displayName) (flags : MsgFlags) :
    ∃ passes flags' c', (filterCommandsByFSM pBlocks flags).exec (Client.perform .main) c =
        .done (passes, flags') c' ∧ c'.status = .running ∧
      (passes = true → Sendable (fun _ _ => True) pBlocks ∧ Stored pBlocks c'.comDetails) := by
  obtain ⟨fsmState, queue, lock, com, input, scratch, response, seen, heap, reallocs, nextUid,
    status, history⟩ := c
  obtain rfl : status = .running := running
  unfold filterCommandsByFSM
  unfold Accepted at accepted
  cases cmd : uchar2CommandType pBlocks.type <;> simp only [cmd] at accepted ⊢
  case cmdAuth =>
    cases fsmState with
    | fsmStart =>
      exact ⟨_, _, _, rfl, rfl, fun _ => ⟨by simp [Sendable, cmd],
        Or.inr (storeName_stored accepted.2.2), by simp [cmd]⟩⟩
    | _ => exact ⟨_, _, _, rfl, rfl, by rintro ⟨⟩⟩
  case cmdJoin =>
    cases fsmState with
    | fsmOpen =>
      exact ⟨_, _, _, rfl, rfl, fun _ => ⟨by simp [Sendable, cmd], name,
        fun _ => storeName_bytes accepted.given⟩⟩
    | _ => exact ⟨_, _, _, rfl, rfl, by rintro ⟨⟩⟩
  case cmdRename => cases fsmState <;> exact ⟨_, _, _, rfl, rfl, by rintro ⟨⟩⟩
  case cmdMsg =>
    cases fsmState with
    | fsmOpen => exact ⟨_, _, _, rfl, rfl, fun _ => ⟨by simp [Sendable, cmd], name, by simp [cmd]⟩⟩
    | _ => exact ⟨_, _, _, rfl, rfl, by rintro ⟨⟩⟩
  case cmdExit => exact ⟨_, _, _, rfl, rfl, fun _ => ⟨by simp [Sendable, cmd], name, by simp [cmd]⟩⟩
  all_goals exact ⟨_, _, _, rfl, rfl, by rintro ⟨⟩⟩

variable {com : CommunicationDetails}

/-- Both encoders are given what the user said. -/
theorem encodedFields_stored (stored : Stored pBlocks com)
    (sendable : Sendable (fun _ _ => True) pBlocks) (protocol : Protocols) :
    encodedFields protocol pBlocks com = spokenFields pBlocks com.displayName.bytes := by
  unfold encodedFields spokenFields
  unfold Sendable at sendable
  cases cmd : uchar2CommandType pBlocks.type <;> simp only [cmd] at sendable ⊢
  cases protocol with
  | protUDP => rfl
  | protTCP => simp only [stored.channelID cmd]

/-- A JOIN or a MSG needs a name. -/
def Refused (pBlocks : ProtocolBlocks) (com : CommunicationDetails) : Bool :=
  (uchar2CommandType pBlocks.type == .cmdJoin || uchar2CommandType pBlocks.type == .cmdMsg) &&
    com.displayName.data.isNone

theorem spokenFields_wellFormed (accepted : Accepted pBlocks) (stored : Stored pBlocks com)
    (sendable : Sendable (fun _ _ => True) pBlocks) (named : Refused pBlocks com = false) :
    ∃ type, (uchar2CommandType pBlocks.type).sentAs = some type ∧
      WellFormedFields type (spokenFields pBlocks com.displayName.bytes) := by
  unfold spokenFields
  unfold Accepted at accepted
  unfold Sendable at sendable
  unfold Refused at named
  cases cmd : uchar2CommandType pBlocks.type <;> simp only [cmd] at accepted sendable ⊢
  case cmdAuth => exact ⟨_, rfl, accepted.1.word, accepted.2.2.word, accepted.2.1.word⟩
  case cmdJoin =>
    have name := stored.displayName.controlled (by simpa [cmd] using named)
    exact ⟨_, rfl, accepted.word, name⟩
  case cmdMsg =>
    have name := stored.displayName.controlled (by simpa [cmd] using named)
    exact ⟨_, rfl, name, accepted.word⟩
  case cmdExit => exact ⟨_, rfl, trivial⟩

/-- Neither encoder sends a JOIN or a MSG without a name. -/
theorem assemble_refused (refused : Refused pBlocks com = true) (fresh : Memory)
    (protocol : Protocols) (buffer : Buffer) :
    ∃ r, assemble fresh protocol pBlocks buffer com = .ok r ∧ r.canBeSended = false := by
  simp only [Refused, Bool.and_eq_true, Bool.or_eq_true, beq_iff_eq, Option.isNone_iff_eq_none]
    at refused
  obtain ⟨cmd | cmd, name⟩ := refused <;> cases protocol <;>
    simp only [assemble, assembleProtocolUDP, assembleProtocolTCP, cmd, name, Option.isNone_none,
      ↓reduceIte] <;>
    exact ⟨_, rfl, rfl⟩

/-- Everything else is encoded, and can be read back. -/
theorem assemble_readBack (accepted : Accepted pBlocks) (stored : Stored pBlocks com)
    (sendable : Sendable (fun _ _ => True) pBlocks) (named : Refused pBlocks com = false)
    (fresh : Memory) (protocol : Protocols) (buffer : Buffer) :
    ∃ r type, assemble fresh protocol pBlocks buffer com = .ok r ∧ r.canBeSended = true ∧
      (uchar2CommandType pBlocks.type).sentAs = some type ∧
      ReadBack protocol r type (spokenFields pBlocks com.displayName.bytes) := by
  obtain ⟨type, sent, good⟩ := spokenFields_wellFormed accepted stored sendable named
  have unique {r : Assembled} (code : r.pBlocks.type = type.toUChar)
      (read : Reads protocol r.buffer.bytes type (spokenFields pBlocks com.displayName.bytes)) :
      ReadBack protocol r type (spokenFields pBlocks com.displayName.bytes) := by
    refine ⟨code, fun type' fields' => ⟨fun read' => reads_unique read' read, ?_⟩⟩
    rintro ⟨rfl, rfl⟩
    exact read
  have encoded := encodedFields_stored stored sendable protocol
  by_cases exit : uchar2CommandType pBlocks.type = .cmdExit
  · rw [exit] at sent
    cases sent
    have fields : spokenFields pBlocks com.displayName.bytes = [] := by
      simp only [spokenFields, exit]
    cases protocol with
    | protUDP =>
      obtain ⟨b, c, run, bytes⟩ := assembleProtocolUDP_exit fresh buffer com exit
      refine ⟨_, _, run, rfl, by rw [exit]; rfl, unique rfl ⟨good, b.mem 1, b.mem 2, ?_⟩⟩
      rw [fields]
      exact bytes
    | protTCP =>
      obtain ⟨b, c, run, bytes⟩ := assembleProtocolTCP_exit fresh buffer com exit
      refine ⟨_, _, run, rfl, by rw [exit]; rfl, unique rfl ⟨good, ?_⟩⟩
      rw [fields]
      exact bytes
  · have message : (uchar2CommandType pBlocks.type).message = some type := by
      unfold Sendable at sendable
      rw [← sent]
      cases cmd : uchar2CommandType pBlocks.type <;> simp only [cmd] at sendable
      case cmdExit => exact absurd cmd exit
      all_goals rfl
    have given : Given protocol pBlocks com :=
      given_of_zeroFree (encoded ▸ wellFormedFields_zeroFree good)
    cases protocol with
    | protUDP =>
      obtain ⟨b, c, run, bytes⟩ := assembleProtocolUDP_bytes fresh buffer message given
      exact ⟨_, type, run, rfl, sent, unique rfl ⟨good, _, _, encoded ▸ bytes⟩⟩
    | protTCP =>
      obtain ⟨b, c, run, bytes⟩ := assembleProtocolTCP_bytes fresh buffer message given
      exact ⟨_, type, run, rfl, sent, unique rfl ⟨good, encoded ▸ bytes⟩⟩

end

theorem printComplaint_exec {c : Client} (running : c.status = .running)
    (complaint : Option WordError) :
    (printComplaint complaint).exec (Client.perform .main) c = .done () c := by
  cases complaint with
  | none => rfl
  | some e =>
    rw [printComplaint, exec_take running]
    rfl

/-- **The variants agree on what the user said.** -/
theorem variants_agree {c : Client} {clientInput : Buffer} (running : c.status = .running)
    (zero : clientInput.mem clientInput.used = 0)
    (name : NameStored 20 .displayName c.comDetails.displayName) :
    ∃ udp cUDP tcp cTCP,
      (assembleLine .protUDP clientInput).exec (Client.perform .main) c = .done (.ok udp) cUDP ∧
      (assembleLine .protTCP clientInput).exec (Client.perform .main) c = .done (.ok tcp) cTCP ∧
      cUDP.fsmState = cTCP.fsmState ∧ cUDP.comDetails = cTCP.comDetails ∧
      SameMessage (spokenFields
        (userInputToCmds clientInput (.reset CommandType.cmdNone.toUChar) .msgFlagNone).pBlocks
        cUDP.comDetails.displayName.bytes) udp tcp := by
  have accepted := (userInputToCmds_accepted clientInput .msgFlagNone zero
    (.reset CommandType.cmdNone.toUChar)).1
  obtain ⟨parsed, same⟩ : ∃ parsed, userInputToCmds clientInput
    (.reset CommandType.cmdNone.toUChar) .msgFlagNone = parsed := ⟨_, rfl⟩
  unfold assembleLine
  rw [same] at accepted ⊢
  simp only [Program.exec_bind, printComplaint_exec running, Outcome.bind_done]
  obtain ⟨passes, flags, c', filtered, running', known⟩ :=
    filterCommandsByFSM_stored running accepted name parsed.flags
  rw [filtered]
  cases passes with
  | false => exact ⟨_, _, _, _, rfl, rfl, rfl, rfl, trivial⟩
  | true =>
    obtain ⟨sendable, stored⟩ := known rfl
    simp only [Outcome.bind_done, if_true, assembleProtocol, exec_take_bind running', Client.act]
    cases named : Refused parsed.pBlocks c'.comDetails with
    | true =>
      obtain ⟨udp, runUDP, unsentUDP⟩ := assemble_refused named c'.fresh .protUDP
        (c'.scratch .protocolToSendedByMain)
      obtain ⟨tcp, runTCP, unsentTCP⟩ := assemble_refused named c'.fresh .protTCP
        (c'.scratch .protocolToSendedByMain)
      rw [runUDP, runTCP]
      simp only [unsentUDP, unsentTCP]
      exact ⟨_, _, _, _, rfl, rfl, rfl, rfl, trivial⟩
    | false =>
      obtain ⟨udp, type, runUDP, sentUDP, typed, readUDP⟩ := assemble_readBack accepted stored
        sendable named c'.fresh .protUDP (c'.scratch .protocolToSendedByMain)
      obtain ⟨tcp, type', runTCP, sentTCP, typed', readTCP⟩ := assemble_readBack accepted stored
        sendable named c'.fresh .protTCP (c'.scratch .protocolToSendedByMain)
      obtain rfl : type = type' := Option.some.inj (typed.symm.trans typed')
      rw [runUDP, runTCP]
      simp only [sentUDP, sentTCP]
      exact ⟨_, _, _, _, rfl, rfl, rfl, rfl, rfl, type, readUDP, readTCP⟩

/-- A client in the open state, under the name `ann`. -/
def annOpen : Client :=
  let c := programInterfaceInit (fun _ _ => 0xC4) ⟨some fun _ => 0, 10, 10⟩
  { c with
    fsmState := .fsmOpen
    comDetails := { c.comDetails with displayName := typedBuffer (ascii "ann") } }

/-- The string a line came to. -/
def spokenBytes : Outcome (Except Failure Spoken) Client → Option (List UInt8)
  | .done (.ok (some (r, _))) _ => some r.buffer.bytes
  | _ => none

example : spokenBytes ((assembleLine .protTCP (typedBuffer (ascii "/join brno"))).exec
    (Client.perform .main) annOpen) = some (ascii "JOIN brno AS ann\r\n") := by decide +kernel

theorem variants_agree_join :
    ∃ udp cUDP tcp cTCP,
      (assembleLine .protUDP (typedBuffer (ascii "/join brno"))).exec (Client.perform .main)
        annOpen = .done (.ok udp) cUDP ∧
      (assembleLine .protTCP (typedBuffer (ascii "/join brno"))).exec (Client.perform .main)
        annOpen = .done (.ok tcp) cTCP ∧
      cUDP.fsmState = cTCP.fsmState ∧ cUDP.comDetails = cTCP.comDetails ∧
      SameMessage (spokenFields (userInputToCmds (typedBuffer (ascii "/join brno"))
        (.reset CommandType.cmdNone.toUChar) .msgFlagNone).pBlocks
        cUDP.comDetails.displayName.bytes) udp tcp := by
  refine variants_agree rfl (typedBuffer_typed _).zero (Or.inr ⟨rfl, ?_⟩)
  decide +kernel

end Ipk24Chat
