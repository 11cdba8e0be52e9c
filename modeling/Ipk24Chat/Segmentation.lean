import Ipk24Chat.Execution
import Ipk24Chat.Footprint
import Ipk24Chat.RoundTrip
import Ipk24Chat.Scanning

/-!
# The stream of the TCP variant

The server sends lines, and TCP delivers bytes. The receiver takes what one call
of `recvfrom` returns for one message.

* `protocolReceiver_eq`: a pass up to its call of `receiverFSM`;
* `handed_of_received`: what the passes of a run hand to it;
* `carries_decoded`: a line that arrives alone is taken apart into its fields;
* `lines_handed_over`: lines that arrive one by one are handed over one by one.
-/

namespace Ipk24Chat

/-- What the server sends. -/
inductive ServerLine where
  | msg (displayname contents : List UInt8)
  | err (displayname contents : List UInt8)
  | reply (ok : Bool) (contents : List UInt8)
  | bye
  deriving DecidableEq, Repr

namespace ServerLine

def bytes : ServerLine → List UInt8
  | .msg name contents =>
    ascii "MSG FROM " ++ name ++ ascii " IS " ++ contents ++ ascii "\r\n"
  | .err name contents =>
    ascii "ERR FROM " ++ name ++ ascii " IS " ++ contents ++ ascii "\r\n"
  | .reply ok contents =>
    ascii "REPLY " ++ ascii (if ok then "OK IS " else "NOK IS ") ++ contents ++ ascii "\r\n"
  | .bye => ascii "BYE\r\n"

/-- Names have no blanks, and the text ends with the line. -/
def WellFormed : ServerLine → Prop
  | .msg name contents | .err name contents =>
    (∀ b ∈ name, isBlankOrEnd b = false) ∧ ∀ b ∈ contents, isLineEnd b = false
  | .reply _ contents => ∀ b ∈ contents, isLineEnd b = false
  | .bye => True

/-- The blocks are those of the line. Of a REPLY it is said where its contents are;
they are printed from there on, and are the block unless they have a blank. -/
def Carries : ServerLine → ProtocolBlocks → Prop
  | .msg name contents, b =>
    b.type = MsgType.msgMsg.toUChar ∧ b.msgMsgDisplayname.bytes = name ∧
      b.msgMsgMsgContents.bytes = contents
  | .err name contents, b =>
    b.type = MsgType.msgErr.toUChar ∧ b.msgErrDisplayname.bytes = name ∧
      b.msgErrMsgContents.bytes = contents
  | .reply ok contents, b =>
    b.type = MsgType.msgReply.toUChar ∧ b.msgReplyResultBool = ok ∧
      (∃ p, b.msgReplyMsgContents.start = some p ∧ p.read contents.length = contents) ∧
      ((∀ x ∈ contents, isBlankOrEnd x = false) → b.msgReplyMsgContents.bytes = contents)
  | .bye, b => b.type = MsgType.msgBye.toUChar

end ServerLine

/-! ## The receiver's loop -/

/-- What a pass hands to `receiverFSM`, if it does, with the bytes in the buffer. -/
def handedOver (state : Fsm) (serverResponse : Buffer) : Option ProtocolBlocks :=
  let pBlocks := disassebleProtocolTCP serverResponse (.reset 0)
  if state = .fsmStart ∧ pBlocks.type ≠ MsgType.msgReply.toUChar ∧
      pBlocks.type ≠ MsgType.msgConf.toUChar then none
  else some pBlocks

/-- What the loop hands over when these bytes arrive, each in the state the client is
in by then. Bytes of an earlier call stay in the buffer behind those of a shorter one. -/
def handedAll (serverResponse : Buffer) : List (Fsm × List UInt8) → List ProtocolBlocks
  | [] => []
  | (state, chunk) :: rest =>
    if state = .fsmEnd then []
    else
      let serverResponse := Client.receive serverResponse chunk
      (handedOver state serverResponse).toList ++ handedAll serverResponse rest

/-- A pass up to its call of `receiverFSM`: where it ends without one, or what that
is called with. -/
def untilReceiverFSM (chunk : List UInt8) : Prog (Except Point (ProtocolBlocks × Buffer)) := do
  if (← getProgramState) = .fsmEnd then pure (.error .ended)
  else if chunk = [] then pure (.error .protocolReceiver)
  else
    let serverResponse ← take (.recvfrom chunk)
    let pBlocks := disassebleProtocolTCP serverResponse (.reset 0)
    if (← getProgramState) = .fsmStart ∧ pBlocks.type ≠ MsgType.msgReply.toUChar ∧
        pBlocks.type ≠ MsgType.msgConf.toUChar then pure (.error .protocolReceiver)
    else pure (.ok (pBlocks, serverResponse))

/-- **A pass calls `receiverFSM` once or not at all.** -/
theorem protocolReceiver_eq {cfg : NetworkConfig} (tcp : cfg.protocol = .protTCP)
    (chunk : List UInt8) :
    protocolReceiver cfg chunk = untilReceiverFSM chunk >>= fun called =>
      match called with
      | .error p => pure p
      | .ok (pBlocks, serverResponse) =>
        receiverFSM cfg 0 pBlocks serverResponse >>= fun _ => pure .protocolReceiver := by
  unfold protocolReceiver untilReceiverFSM
  rw [Program.bind_assoc]
  congr 1
  funext state
  split
  · rfl
  · split
    · rfl
    · rw [Program.bind_assoc]
      congr 1
      funext serverResponse
      simp only [handleDatagram, tcp, dispatch]
      rw [Program.bind_assoc, Program.bind_assoc]
      congr 1
      funext state
      split
      · rfl
      · rfl

/-- It is called with what `handedOver` says. -/
theorem untilReceiverFSM_exec {c : Client} (running : c.status = .running)
    (goes : c.fsmState ≠ .fsmEnd) {chunk : List UInt8} (some' : chunk ≠ []) :
    let rx := Client.receive c.serverResponse chunk
    (untilReceiverFSM chunk).exec (Client.perform .receiver) c =
      .done ((handedOver c.fsmState rx).elim (.error .protocolReceiver) fun b => .ok (b, rx))
        { c with serverResponse := rx, history := .received chunk :: c.history } := by
  unfold untilReceiverFSM
  rw [getProgramState, exec_take_bind running]
  simp only [Client.act]
  rw [if_neg goes, if_neg some', exec_take_bind running]
  simp only [Client.act, Client.log, handedOver]
  rw [exec_take_bind (by exact running)]
  simp only [Client.act]
  split
  · rfl
  · rfl

/-! ### Runs -/

/-- A run of whole passes: what arrived, each in the state the client was in then, and
what `receiverFSM` was called with. -/
inductive Received (cfg : NetworkConfig) (s₀ : Passes Thread Client Point) :
    List (Fsm × List UInt8) → List ProtocolBlocks → Passes Thread Client Point → Prop where
  | refl : Received cfg s₀ [] [] s₀
  /-- a pass of another thread, or of the receiver if nothing arrives -/
  | other {s : Passes Thread Client Point} {arrivals : List (Fsm × List UInt8)}
      {handed : List ProtocolBlocks} {t : Thread} {p : Point} {q : Prog Point} :
      Received cfg s₀ arrivals handed s → s.point t = some p → Starts cfg t p q →
      (∀ chunk, t = .receiver → q = protocolReceiver cfg chunk →
        s.shared.fsmState = .fsmEnd ∨ chunk = []) →
      Received cfg s₀ arrivals handed (runPass (machine cfg) t q s)
  | receiver {s : Passes Thread Client Point} {arrivals : List (Fsm × List UInt8)}
      {handed : List ProtocolBlocks} {chunk : List UInt8}
      {called : Except Point (ProtocolBlocks × Buffer)} {c : Client} :
      Received cfg s₀ arrivals handed s → s.point .receiver = some .protocolReceiver →
      chunk.length ≤ 1500 → s.shared.fsmState ≠ .fsmEnd → chunk ≠ [] →
      (untilReceiverFSM chunk).exec (Client.perform .receiver) s.shared = .done called c →
      Received cfg s₀ (arrivals ++ [(s.shared.fsmState, chunk)])
        (handed ++ called.toOption.toList.map Prod.fst)
        (runPass (machine cfg) .receiver (protocolReceiver cfg chunk) s)

/-- The receive buffer behind these calls of `recvfrom`. -/
def receivedAll (serverResponse : Buffer) (arrivals : List (Fsm × List UInt8)) : Buffer :=
  arrivals.foldl (fun serverResponse a => Client.receive serverResponse a.2) serverResponse

theorem handedAll_append {arrivals : List (Fsm × List UInt8)} {state : Fsm} {chunk : List UInt8}
    (inside : ∀ a ∈ arrivals, a.1 ≠ .fsmEnd) (goes : state ≠ .fsmEnd) (serverResponse : Buffer) :
    handedAll serverResponse (arrivals ++ [(state, chunk)]) =
      handedAll serverResponse arrivals ++ (handedOver state
        (Client.receive (receivedAll serverResponse arrivals) chunk)).toList := by
  induction arrivals generalizing serverResponse with
  | nil => simp [handedAll, goes, receivedAll]
  | cons a rest ih =>
    have first := inside a List.mem_cons_self
    have others := ih (fun b hb => inside b (List.mem_cons_of_mem _ hb))
      (Client.receive serverResponse a.2)
    simp [handedAll, first, others, receivedAll]

/-! ### The receive buffer between the passes -/

section
variable {cfg : NetworkConfig} {rx : Buffer}

/-- The program leaves the receive buffer alone. -/
abbrev KeepsResponse (rx : Buffer) (t : Thread) {α : Type} (q : Prog α) : Prop :=
  q.Keeps (Client.perform t) fun c => c.serverResponse = rx

theorem keepsResponse_rules (t : Thread) :
    Program.Compositional (fun a => ∀ d, a ≠ .recvfrom d) Act.Truthful
      fun {α} (q : Prog α) => KeepsResponse rx t q := by
  apply Program.compositional_keeps
  · exact fun a c r c' ok => Client.act_truthful (Client.perform_ok ok).2
  · intro a c same unread
    refine ⟨fun r c' ok => ?_, fun c' halt => ?_⟩
    · exact (Client.act_serverResponse (Client.perform_ok ok).2 unread).trans same
    · rw [Client.act_halt (Client.perform_halt halt).2]
      exact same

theorem keepsResponse_of_calm (a : Act) (h : a.Calm) : ∀ d, a ≠ .recvfrom d := by
  rintro d rfl
  exact h.1

theorem keepsResponse_of_making (a : Act) (h : a.Making cfg) : ∀ d, a ≠ .recvfrom d := by
  rintro d rfl
  exact h

theorem keepsResponse_of_wiring (a : Act) (h : a.Wiring) : ∀ d, a ≠ .recvfrom d := by
  rintro d rfl
  exact h

theorem parts_keepsResponse (t : Thread) : Parts cfg fun {α} (q : Prog α) => KeepsResponse rx t q :=
  (pieces_of_actions (keepsResponse_rules t) keepsResponse_of_calm keepsResponse_of_making
    keepsResponse_of_wiring fun _ _ h => h).parts (keepsResponse_rules t) keepsResponse_of_calm

theorem receiverFSM_keepsResponse (tcp : cfg.protocol = .protTCP) (pBlocks : ProtocolBlocks)
    (serverResponse : Buffer) :
    KeepsResponse rx .receiver (receiverFSM cfg 0 pBlocks serverResponse) := by
  have rules : Program.Compositional _ _ fun {α} (q : Prog α) => KeepsResponse rx .receiver q :=
    keepsResponse_rules .receiver
  simp only [receiverFSM, tcp]
  exact receiverAction_obeys rules keepsResponse_of_calm
    ((parts_keepsResponse .receiver).receiver serverResponse)
    (fun _ _ _ _ _ => ⟨nofun, nofun⟩) ⟨nofun, fun _ _ _ _ => nofun⟩ (fun _ _ _ => nofun) nofun 0
    pBlocks
    (fun _ => handleConfirmUDP_obeys rules keepsResponse_of_calm nofun
      (fun a h _ => keepsResponse_of_wiring a h) 0) false

theorem starts_keepsResponse {t : Thread} {p : Point} {q : Prog Point} (h : Starts cfg t p q)
    (other : t ≠ .receiver) : KeepsResponse rx t q := by
  have rules : Program.Compositional _ _ fun {α} (q : Prog α) => KeepsResponse rx t q :=
    keepsResponse_rules t
  cases t with
  | receiver => exact absurd rfl other
  | main =>
    cases h with
    | userCommandHandling eofDetected stdin =>
      have bye : KeepsResponse rx .main (sendBye cfg) := (parts_keepsResponse .main).sendBye
      apply userCommandHandling_obeys rules keepsResponse_of_calm bye fun _ _ h => h
      case stores => exact fun src => ⟨nofun, nofun⟩
      case loads => exact fun _ _ => nofun
      case commands =>
        intro pBlocks flags _ _ _ _
        exact assembleCommand_obeys rules keepsResponse_of_calm bye (fun _ _ h => h) pBlocks flags
          nofun fun _ _ => nofun
  | sender =>
    exact sender_obeys rules keepsResponse_of_calm (parts_keepsResponse .sender)
      (fun _ _ _ _ _ => nofun) nofun h

/-- Behind a pass with bytes they are in the buffer. -/
theorem receiver_response (tcp : cfg.protocol = .protTCP) {c : Client}
    (running : c.status = .running) (goes : c.fsmState ≠ .fsmEnd) {chunk : List UInt8}
    (some' : chunk ≠ []) :
    ((protocolReceiver cfg chunk).exec (Client.perform .receiver) c).state.serverResponse =
      Client.receive c.serverResponse chunk := by
  have rules : Program.Compositional _ _ fun {α} (q : Prog α) =>
      KeepsResponse (Client.receive c.serverResponse chunk) .receiver q :=
    keepsResponse_rules .receiver
  rw [protocolReceiver_eq tcp, Program.exec_bind, untilReceiverFSM_exec running goes some']
  cases handedOver c.fsmState (Client.receive c.serverResponse chunk) with
  | none => rfl
  | some pBlocks =>
    exact rules.bind (receiverFSM_keepsResponse tcp pBlocks _) (fun _ => rules.ret _) _ rfl

/-- A pass at the end, or without bytes, receives nothing. -/
theorem nothing_received {c : Client} {chunk : List UInt8}
    (nothing : c.fsmState = .fsmEnd ∨ chunk = []) (cfg : NetworkConfig) :
    (protocolReceiver cfg chunk).exec (Client.perform .receiver) c = .halted c ∨
      ∃ p, (protocolReceiver cfg chunk).exec (Client.perform .receiver) c = .done p c := by
  unfold protocolReceiver
  rw [getProgramState]
  by_cases running : c.status = .running
  · right
    rw [exec_take_bind running]
    simp only [Client.act]
    by_cases ended : c.fsmState = .fsmEnd
    · rw [if_pos ended]
      exact ⟨.ended, rfl⟩
    · rw [if_neg ended, if_pos (nothing.resolve_left ended)]
      exact ⟨.protocolReceiver, rfl⟩
  · exact Or.inl (exec_take_bind_stopped running _ _)

end

/-- **What the receiver hands over in a run.** Whatever the other threads do between
its passes, `receiverFSM` is called with what the arrived bytes are taken apart into. -/
theorem handed_of_received {cfg : NetworkConfig} (tcp : cfg.protocol = .protTCP)
    {s₀ s : Passes Thread Client Point} {arrivals : List (Fsm × List UInt8)}
    {handed : List ProtocolBlocks} (h : Received cfg s₀ arrivals handed s) :
    handed = handedAll s₀.shared.serverResponse arrivals := by
  suffices known : handed = handedAll s₀.shared.serverResponse arrivals ∧
      s.shared.serverResponse = receivedAll s₀.shared.serverResponse arrivals ∧
      ∀ a ∈ arrivals, a.1 ≠ .fsmEnd from known.1
  induction h with
  | refl => exact ⟨rfl, rfl, nofun⟩
  | @other s arrivals handed t p q _ point start nothing ih =>
    obtain ⟨same, response, inside⟩ := ih
    refine ⟨same, ?_, inside⟩
    rw [← response, runPass_shared]
    by_cases receiver : t = .receiver
    · subst receiver
      cases start with
      | protocolReceiver datagram _ =>
        have still := nothing_received (nothing datagram rfl rfl) cfg
        rcases still with halted | ⟨p, done⟩
        · exact congrArg (·.state.serverResponse) halted
        · exact congrArg (·.state.serverResponse) done
    · exact starts_keepsResponse start receiver s.shared rfl
  | @receiver s arrivals handed chunk called c _ point _ goes some' run ih =>
    obtain ⟨same, response, inside⟩ := ih
    have running : s.shared.status = .running := by
      by_contra stopped
      unfold untilReceiverFSM at run
      rw [getProgramState, exec_take_bind_stopped stopped] at run
      cases run
    rw [untilReceiverFSM_exec running goes some'] at run
    obtain ⟨rfl, rfl⟩ := run
    refine ⟨?_, ?_, ?_⟩
    · rw [handedAll_append inside goes, same, response]
      cases handedOver s.shared.fsmState (Client.receive (receivedAll _ arrivals) chunk) <;> rfl
    · have behind := receiver_response tcp running goes some'
      rw [response] at behind
      rw [runPass_shared]
      exact behind.trans (by simp [receivedAll])
    · exact List.forall_mem_append.mpr ⟨inside, List.forall_mem_singleton.mpr goes⟩

/-! ## A line that arrives alone -/

section
variable {rx : Buffer}

/-- Contents without a blank end with the line. -/
theorem block_of_clear {p : CharPtr} {contents : List UInt8} {len : Int}
    (spelled : p.Spells (contents ++ ascii "\r\n"))
    (clear : ∀ x ∈ contents, isBlankOrEnd x = false) (bound : contents.length ≤ len) :
    BytesBlock.bytes ⟨some p, findBlankCharInString p len⟩ = contents := by
  have found := findBlankCharInString_hit (c := ch '\r') (b := [ch '\n']) spelled clear rfl bound
  rw [found]
  exact CharPtr.spells_block spelled.left

theorem reply_decoded (previous : ProtocolBlocks) {ok : Bool} {contents : List UInt8}
    (h : rx.bytes = (ServerLine.reply ok contents).bytes) :
    (ServerLine.reply ok contents).Carries (disassebleProtocolTCP rx previous) := by
  have first : rx.mem 0 = ch 'R' := Memory.read_eq_cons h
  have no_msg : startsWith ⟨rx.mem, 0⟩ "MSG FROM " = false :=
    strncmpEq_of_ne (by rw [first]; decide)
  have used : rx.bytes.length = rx.used := Memory.length_read _ _ _
  simp only [ServerLine.bytes, List.append_assoc] at h
  have long : contents.length + 14 ≤ rx.used := by
    rw [← used, h]
    simp only [List.length_append, show (ascii "REPLY ").length = 6 from rfl,
      show (ascii "\r\n").length = 2 from rfl]
    have verb : 6 ≤ (ascii (if ok then "OK IS " else "NOK IS ")).length := by
      cases ok <;> decide
    omega
  obtain ⟨title, rest⟩ := Memory.read_split h
  obtain ⟨result, rest⟩ := Memory.read_split rest
  have text := (Memory.read_split rest).1
  simp only [show (ascii "REPLY ").length = 6 from rfl, Int.zero_add, Int.cast_ofNat_Int] at *
  have is_reply : startsWith ⟨rx.mem, 0⟩ "REPLY " = true := strncmpEq_of_read title
  cases ok with
  | true =>
    have is_ok : startsWith ⟨rx.mem, 6⟩ "OK IS " = true := strncmpEq_of_read result
    simp only [ServerLine.Carries, disassebleProtocolTCP, no_msg, is_reply, CharPtr.shift,
      show lenOf "REPLY " = 6 from rfl, Int.zero_add, is_ok, Bool.false_eq_true, if_false, if_true]
    refine ⟨trivial, trivial, ⟨_, rfl, text⟩, fun clear => ?_⟩
    exact block_of_clear (p := ⟨rx.mem, 12⟩) rest clear (by omega)
  | false =>
    have letter : rx.mem 6 = ch 'N' := Memory.read_eq_cons result
    have no_ok : startsWith ⟨rx.mem, 6⟩ "OK IS " = false :=
      strncmpEq_of_ne (by rw [letter]; decide)
    have is_nok : startsWith ⟨rx.mem, 6⟩ "NOK IS " = true := strncmpEq_of_read result
    simp only [ServerLine.Carries, disassebleProtocolTCP, no_msg, is_reply, CharPtr.shift,
      show lenOf "REPLY " = 6 from rfl, Int.zero_add, no_ok, is_nok, Bool.false_eq_true, if_false,
      if_true]
    refine ⟨trivial, trivial, ⟨_, rfl, text⟩, fun clear => ?_⟩
    exact block_of_clear (p := ⟨rx.mem, 13⟩) rest clear (by omega)

/-- A line that arrives alone is taken apart into its fields, whatever was in the
buffer and the blocks before. -/
theorem carries_decoded {line : ServerLine} (wellFormed : line.WellFormed)
    (previous : ProtocolBlocks) (h : rx.bytes = line.bytes) :
    line.Carries (disassebleProtocolTCP rx previous) := by
  cases line with
  | msg name contents =>
    rw [disassebleProtocolTCP_msg previous h]
    exact disassebleNamed_format previous rfl wellFormed.1 wellFormed.2 h
  | err name contents =>
    rw [disassebleProtocolTCP_err previous h]
    exact disassebleNamed_format previous rfl wellFormed.1 wellFormed.2 h
  | reply ok contents => exact reply_decoded previous h
  | bye =>
    have first : rx.mem 0 = ch 'B' := Memory.read_eq_cons h
    have no_msg : startsWith ⟨rx.mem, 0⟩ "MSG FROM " = false :=
      strncmpEq_of_ne (by rw [first]; decide)
    have no_reply : startsWith ⟨rx.mem, 0⟩ "REPLY " = false :=
      strncmpEq_of_ne (by rw [first]; decide)
    have is_bye : startsWith ⟨rx.mem, 0⟩ "BYE" = true := by
      have title := (Memory.read_split (a := ascii "BYE") (b := ascii "\r\n") h).1
      exact strncmpEq_of_read title
    simp only [ServerLine.Carries, disassebleProtocolTCP, no_msg, no_reply, is_bye,
      Bool.false_eq_true, if_false, if_true]

end

/-- The bytes of one call of `recvfrom`, whatever the buffer held before. -/
theorem receive_bytes (serverResponse : Buffer) (chunk : List UInt8) :
    (Client.receive serverResponse chunk).bytes = chunk := Memory.read_write_self _ 0 chunk

/-- **Lines that arrive one by one are handed over one by one.** If each call of
`recvfrom` returns one well-formed line, while the client is not at its end, and in
its start state only REPLYs, the loop hands exactly these lines to `receiverFSM`. -/
theorem lines_handed_over (serverResponse : Buffer) (arrivals : List (Fsm × ServerLine))
    (wellFormed : ∀ a ∈ arrivals, a.2.WellFormed)
    (inside : ∀ a ∈ arrivals, a.1 ≠ .fsmEnd ∧
      (a.1 = .fsmStart → ∃ ok contents, a.2 = .reply ok contents)) :
    List.Forall₂ ServerLine.Carries (arrivals.map Prod.snd)
      (handedAll serverResponse (arrivals.map fun a => (a.1, a.2.bytes))) := by
  induction arrivals generalizing serverResponse with
  | nil => exact .nil
  | cons a rest ih =>
    obtain ⟨state, line⟩ := a
    obtain ⟨ended, start⟩ := inside _ List.mem_cons_self
    have decoded := carries_decoded (wellFormed _ List.mem_cons_self) (.reset 0)
      (receive_bytes serverResponse line.bytes)
    have others := ih (Client.receive serverResponse line.bytes)
      (fun a ha => wellFormed a (List.mem_cons_of_mem _ ha))
      fun a ha => inside a (List.mem_cons_of_mem _ ha)
    simp only [List.map_cons, handedAll, ended, handedOver, if_false]
    rw [if_neg]
    · exact .cons decoded others
    · rintro ⟨started, noReply, -⟩
      obtain ⟨ok, contents, rfl⟩ := start started
      exact noReply decoded.1

/-- A message and the BYE behind it, each in a call of its own. -/
theorem lines_handed_over_hi :
    List.Forall₂ ServerLine.Carries [.msg (ascii "ann") (ascii "hi all"), .bye]
      (handedAll ⟨some fun _ => 0xC4, 1500, 0⟩
        [(.fsmOpen, ascii "MSG FROM ann IS hi all\r\n"), (.fsmOpen, ascii "BYE\r\n")]) :=
  lines_handed_over ⟨some fun _ => 0xC4, 1500, 0⟩
    [(.fsmOpen, .msg (ascii "ann") (ascii "hi all")), (.fsmOpen, .bye)]
    (List.forall_mem_cons.mpr
      ⟨⟨by decide +kernel, by decide +kernel⟩, List.forall_mem_singleton.mpr trivial⟩) (by simp)

/-- The same bytes in one call: the BYE is not handed over. -/
theorem lines_joined_lost :
    ¬ ∀ (serverResponse : Buffer) (lines : List ServerLine) (chunks : List (Fsm × List UInt8)),
      (∀ line ∈ lines, line.WellFormed) →
      (chunks.map Prod.snd).flatten = (lines.map ServerLine.bytes).flatten →
      (∀ a ∈ chunks, a.1 = .fsmOpen ∧ a.2 ≠ [] ∧ a.2.length ≤ 1500) →
      List.Forall₂ ServerLine.Carries lines (handedAll serverResponse chunks) := by
  intro claim
  have carried := claim ⟨some fun _ => 0xC4, 1500, 0⟩
    [.msg (ascii "ann") (ascii "hi all"), .bye]
    [(.fsmOpen, ascii "MSG FROM ann IS hi all\r\nBYE\r\n")]
    (List.forall_mem_cons.mpr
      ⟨⟨by decide +kernel, by decide +kernel⟩, List.forall_mem_singleton.mpr trivial⟩)
    (by decide +kernel) (by decide +kernel)
  have length := carried.length_eq
  revert length
  decide +kernel

end Ipk24Chat
