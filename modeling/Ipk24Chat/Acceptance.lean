import Ipk24Chat.Footprint

/-!
# The REPLYs that are acted on

The client notes where it acts on a positive REPLY. Here the note is traced back to the bytes:
the datagram that was received last before it is a positive REPLY in the receive buffer.

* `PositiveReply`: the bytes of such a REPLY;
* `Heard`: the last datagram of a history is one;
* `answered_of_reachable`: each note comes behind one, in every interleaving.
-/

namespace Ipk24Chat

/-- The receive buffer behind a history, newest event first: a datagram leaves the bytes behind
its end as they were. -/
def receivedInto (buffer : Buffer) : List Event → Buffer
  | [] => buffer
  | .received datagram :: earlier => Client.receive (receivedInto buffer earlier) datagram
  | _ :: earlier => receivedInto buffer earlier

/-- A REPLY with the result byte 1 in the UDP variant, one with OK in the TCP variant. -/
def PositiveReply (cfg : NetworkConfig) (serverResponse : Buffer) : Prop :=
  match cfg.protocol with
  | .protUDP => serverResponse.mem 0 = MsgType.msgReply.toUChar ∧ serverResponse.mem 3 = 1
  | .protTCP => serverResponse.mem.read 0 12 = ascii "REPLY OK IS "

/-- The last datagram of the history is a positive REPLY in the receive buffer, which `buffer`
was at the start. -/
def Heard (cfg : NetworkConfig) (buffer : Buffer) (history : List Event) : Prop :=
  ∃ between datagram earlier, history = between ++ .received datagram :: earlier ∧
    (∀ later, Event.received later ∉ between) ∧
    PositiveReply cfg (Client.receive (receivedInto buffer earlier) datagram)

/-- Where a positive REPLY is acted on, it is the last datagram. -/
def Answered (cfg : NetworkConfig) (buffer : Buffer) (history : List Event) : Prop :=
  ∀ tested earlier, .replyOk tested :: earlier <:+ history → Heard cfg buffer earlier

section
variable {cfg : NetworkConfig} {buffer : Buffer} {history events : List Event}

/-- The buffer holds what was received last. -/
theorem heard_of_positive (some' : ∃ datagram, .received datagram ∈ history)
    (positive : PositiveReply cfg (receivedInto buffer history)) : Heard cfg buffer history := by
  induction history with
  | nil => simp at some'
  | cons e earlier ih =>
    by_cases received : ∃ datagram, e = .received datagram
    · obtain ⟨datagram, rfl⟩ := received
      exact ⟨[], datagram, earlier, rfl, by simp, positive⟩
    · have other : ∀ datagram, e ≠ .received datagram := fun d eq => received ⟨d, eq⟩
      have same : receivedInto buffer (e :: earlier) = receivedInto buffer earlier := by
        cases e <;> first | rfl | exact absurd rfl (other _)
      rw [same] at positive
      obtain ⟨d, mem⟩ := some'
      have before : .received d ∈ earlier :=
        (List.mem_cons.mp mem).resolve_left fun eq => other d eq.symm
      obtain ⟨between, datagram, older, rfl, quiet, holds⟩ := ih ⟨d, before⟩ positive
      refine ⟨e :: between, datagram, older, rfl, ?_, holds⟩
      intro later mem
      rcases List.mem_cons.mp mem with eq | mem
      · exact other later eq.symm
      · exact quiet later mem

/-- Another event than an accepted REPLY. -/
theorem Answered.add (h : Answered cfg buffer history) {e : Event}
    (heard : ∀ tested, e = .replyOk tested → Heard cfg buffer history) :
    Answered cfg buffer (e :: history) := by
  intro tested earlier suffix
  rcases List.suffix_cons_iff.mp suffix with eq | before
  · obtain ⟨rfl, rfl⟩ := List.cons.inj eq
    exact heard tested rfl
  · exact h tested earlier before

/-! ## The decoders -/

/-- A decoded REPLY is positive by the byte behind its header. -/
theorem reply_of_decoded {b : Buffer} {d : Disassembled}
    (decoded : disassebleProtocolUDP b = .ok d)
    (reply : uchar2msgType d.pBlocks.type = .msgReply) :
    b.mem 0 = MsgType.msgReply.toUChar ∧ (positiveUDP d.pBlocks = true ↔ b.mem 3 = 1) := by
  simp only [disassebleProtocolUDP, CharPtr.get, CharPtr.shift, Int.zero_add, bind, Except.bind,
    pure, Except.pure] at decoded
  cases type : uchar2msgType (b.mem 0) <;> simp only [type] at decoded <;>
    (repeat' split at decoded) <;> cases decoded <;> simp at reply
  refine ⟨eq_toUChar_of_uchar2msgType type (by decide), ?_⟩
  simp [positiveUDP, CharPtr.get]

/-- In the TCP variant only the words in front make a REPLY positive. -/
theorem positive_of_decoded {b : Buffer} {type : UInt8}
    (positive : (disassebleProtocolTCP b (.reset type)).msgReplyResultBool = true) :
    b.mem.read 0 12 = ascii "REPLY OK IS " := by
  have words : startsWith ⟨b.mem, 0⟩ "REPLY " = true ∧
      startsWith ((CharPtr.mk b.mem 0).shift (lenOf "REPLY ")) "OK IS " = true := by
    simp only [disassebleProtocolTCP, disassebleNamed] at positive
    repeat' split at positive
    all_goals first
      | cases positive
        done
      | exact ⟨‹_›, ‹_›⟩
  have front : b.mem.read 0 6 = ascii "REPLY " := read_of_strncmpEq words.1
  have back : b.mem.read (0 + (6 : Nat)) 6 = ascii "OK IS " := read_of_strncmpEq words.2
  rw [Memory.read_add b.mem 0 6 6, front, back]
  decide

end

/-! ## Every interleaving -/

/-- The receive buffer is what the history makes of it, and each REPLY that was acted on was the
last datagram then. -/
structure Told (cfg : NetworkConfig) (buffer : Buffer) (c : Client) : Prop where
  same : c.serverResponse = receivedInto buffer c.history
  answered : Answered cfg buffer c.history

namespace Told

/-- Actions that receive nothing, and act on a positive REPLY only if there is one. -/
def Admitted (positive : Prop) (a : Act) : Prop :=
  (∀ datagram, a ≠ .recvfrom datagram ∧ a ≠ .note (.received datagram)) ∧
    ∀ tested, a = .note (.replyOk tested) → positive

/-- The receiver relies on the receive buffer. -/
def Rely (t : Thread) (c c' : Client) : Prop :=
  t = .receiver → c'.serverResponse = c.serverResponse ∧ c.history <:+ c'.history

/-- While a datagram is handled it stays in the buffer. -/
structure Handling (cfg : NetworkConfig) (buffer serverResponse : Buffer) (c : Client) : Prop where
  told : Told cfg buffer c
  same : c.serverResponse = serverResponse
  some' : ∃ datagram, .received datagram ∈ c.history

theorem rely_refl (t : Thread) (c : Client) : Rely t c c :=
  fun _ => ⟨rfl, List.suffix_refl _⟩

theorem rely_trans (t : Thread) (c c' c'' : Client) (h : Rely t c c') (h' : Rely t c' c'') :
    Rely t c c'' :=
  fun receiver => ⟨(h' receiver).1.trans (h receiver).1, (h receiver).2.trans (h' receiver).2⟩

theorem admitted_of_usual {positive : Prop} (a : Act) (h : a.Usual) : Admitted positive a := by
  constructor
  · intro datagram
    constructor <;> rintro rfl
    · exact h
    · rcases h with h | h | h <;> cases h
  · rintro tested rfl
    rcases h with h | h | h <;> cases h

theorem admitted_of_making {cfg : NetworkConfig} {positive : Prop} (a : Act) (h : a.Making cfg) :
    Admitted positive a :=
  ⟨fun _ => ⟨by rintro rfl; exact h, by rintro rfl; exact h⟩, by rintro _ rfl; exact h.elim⟩

theorem admitted_of_wiring {positive : Prop} (a : Act) (h : a.Wiring) : Admitted positive a := by
  constructor
  · intro datagram
    constructor <;> rintro rfl
    · exact h
    · obtain ⟨msgID, h⟩ := h
      cases h
  · rintro tested rfl
    obtain ⟨msgID, h⟩ := h
    cases h

section
variable {cfg : NetworkConfig} {buffer : Buffer} {t : Thread} {c c' : Client} {a : Act}
  {positive : Prop}

theorem ended (status : Status) (told : Told cfg buffer c) :
    Told cfg buffer { c with status := status } :=
  ⟨told.same, told.answered⟩

theorem act {r : a.Answer} (told : Told cfg buffer c) (admitted : Admitted positive a)
    (heard : positive → Heard cfg buffer c.history) (ok : c.act t a = .ok r c') :
    Told cfg buffer c' ∧ c'.serverResponse = c.serverResponse ∧ c.history <:+ c'.history := by
  have rx : c'.serverResponse = c.serverResponse :=
    Client.act_serverResponse ok fun datagram => (admitted.1 datagram).1
  have history := Client.act_history ok
  refine ⟨?_, rx, history ▸ List.suffix_append _ _⟩
  cases emitted : c.emitted a with
  | none =>
    rw [emitted] at history
    exact ⟨by rw [rx, history]; exact told.same, by rw [history]; exact told.answered⟩
  | some e =>
    rw [emitted] at history
    have quiet : ∀ datagram, e ≠ .received datagram := by
      rintro datagram rfl
      cases a <;> simp [Client.emitted] at emitted
      case recvfrom d => exact (admitted.1 d).1 rfl
      case note e => exact (admitted.1 datagram).2 (by rw [emitted])
    have noted : ∀ tested, e = .replyOk tested → positive := by
      rintro tested rfl
      cases a <;> simp [Client.emitted] at emitted
      case note e => exact admitted.2 tested (by rw [emitted])
    constructor
    · rw [rx, history, told.same]
      cases e <;> first | rfl | exact absurd rfl (quiet _)
    · rw [history]
      exact told.answered.add fun tested eq => heard (noted tested eq)

theorem received {datagram : List UInt8} {r : Buffer} (told : Told cfg buffer c)
    (ok : c.act t (.recvfrom datagram) = .ok r c') : Handling cfg buffer r c' := by
  cases ok
  refine ⟨⟨?_, told.answered.add nofun⟩, rfl, datagram, List.mem_cons_self⟩
  simp only [receivedInto, Client.log]
  rw [told.same]

theorem Handling.heard {serverResponse : Buffer} (h : Handling cfg buffer serverResponse c)
    (positive : PositiveReply cfg serverResponse) : Heard cfg buffer c.history :=
  heard_of_positive h.some' (by rwa [← h.told.same, h.same])

end

/-! ## The threads -/

/-- The programs of thread `t` that are safe among the others, from every state. -/
abbrev Safe (cfg : NetworkConfig) (buffer : Buffer) (t : Thread) {α : Type} (q : Prog α)
    (c : Client) : Prop :=
  q.Safe ((machine cfg).perform t) (fun _ _ => True)
    (fun c c' => Told cfg buffer c' ∧ Rely t c c')
    (fun c c' => Told cfg buffer c' ∧ ∀ u, u ≠ t → Rely u c c') (fun _ _ => True) c

section
variable {cfg : NetworkConfig} {buffer : Buffer}

theorem others_rules {t : Thread} :
    Program.Compositional (Admitted False) Act.Truthful
      fun {α} (q : Prog α) => ∀ c, Safe cfg buffer t q c := by
  apply Program.compositional_safe
  · exact fun a c r c' ok => Client.act_truthful (Client.perform_ok ok).2
  · rintro a c₀ c ⟨told, -⟩ admitted
    refine ⟨trivial, fun r c' ok => ?_, fun c' halt => ?_⟩
    · obtain ⟨told', rest⟩ := told.act admitted False.elim (Client.perform_ok ok).2
      exact ⟨told', fun _ _ _ => rest⟩
    · rw [Client.act_halt (Client.perform_halt halt).2]
      exact ⟨told.ended _, fun _ _ _ => ⟨rfl, List.suffix_refl _⟩⟩

theorem handling_rules (serverResponse : Buffer) :
    Program.Compositional (Admitted (PositiveReply cfg serverResponse)) Act.Truthful
      fun {α} (q : Prog α) => Program.SafeFrom ((machine cfg).perform .receiver) (fun _ _ => True)
        (fun c c' => Told cfg buffer c' ∧ Rely .receiver c c')
        (fun c c' => Told cfg buffer c' ∧ ∀ u, u ≠ .receiver → Rely u c c')
        (Handling cfg buffer serverResponse) q fun _ => Handling cfg buffer serverResponse := by
  apply Program.compositional_safeFrom
  · rintro c c' ⟨told, rely⟩ h
    obtain ⟨same, longer⟩ := rely rfl
    obtain ⟨datagram, mem⟩ := h.some'
    exact ⟨told, same.trans h.same, datagram, longer.mem mem⟩
  · exact fun a c r c' ok => Client.act_truthful (Client.perform_ok ok).2
  · intro a c h admitted
    refine ⟨trivial, fun r c' ok => ?_, fun c' halt => ?_⟩
    · obtain ⟨told, same, longer⟩ :=
        h.told.act admitted (fun positive => h.heard positive) (Client.perform_ok ok).2
      obtain ⟨datagram, mem⟩ := h.some'
      exact ⟨⟨told, fun u other receiver => absurd receiver other⟩, told, same.trans h.same,
        datagram, longer.mem mem⟩
    · rw [Client.act_halt (Client.perform_halt halt).2]
      exact ⟨h.told.ended _, fun u other receiver => absurd receiver other⟩

/-- Main and the sender receive nothing. -/
theorem others_safe {t : Thread} {p : Point} {q : Prog Point} (h : Starts cfg t p q)
    (other : t ≠ .receiver) (c : Client) : Safe cfg buffer t q c := by
  have rules : Program.Compositional (Admitted False) Act.Truthful
    fun {α} (q : Prog α) => ∀ c, Safe cfg buffer t q c := others_rules
  have calm := calm_of_usual (@admitted_of_usual False)
  have free (a : Act) (plain : (∀ d, a ≠ .recvfrom d) ∧ ∀ e, a ≠ .note e) : Admitted False a :=
    ⟨fun d => ⟨plain.1 d, plain.2 _⟩, fun tested => (plain.2 _ · |>.elim)⟩
  refine (?_ : ∀ c, Safe cfg buffer t q c) c
  cases t with
  | receiver => exact absurd rfl other
  | main =>
    cases h with
    | userCommandHandling eofDetected stdin =>
      have bye : ∀ c, Safe cfg buffer .main (sendBye cfg) c :=
        sendBye_obeys rules calm admitted_of_making
      apply userCommandHandling_obeys rules calm bye (fun _ _ h => h)
      case stores => exact fun src => ⟨free _ ⟨nofun, nofun⟩, free _ ⟨nofun, nofun⟩⟩
      case loads => exact fun _ _ => free _ ⟨nofun, nofun⟩
      case commands =>
        intro pBlocks flags _ _ _ _
        exact assembleCommand_obeys rules calm bye (fun _ _ h => h) pBlocks flags
          (free _ ⟨nofun, nofun⟩) fun _ _ => free _ ⟨nofun, nofun⟩
  | sender =>
    have pieces : Pieces cfg fun {α} (q : Prog α) => ∀ c, Safe cfg buffer .sender q c :=
      pieces_of_actions rules calm admitted_of_making admitted_of_wiring fun _ _ h => h
    exact sender_obeys rules calm (pieces.parts rules calm)
      (fun _ _ _ _ _ => free _ ⟨nofun, nofun⟩) (free _ ⟨nofun, nofun⟩) h

section
variable {serverResponse : Buffer} {G : {α : Type} → Prog α → Prop}
  (rules : Program.Compositional (Admitted (PositiveReply cfg serverResponse)) Act.Truthful G)
include rules

theorem parts_admitted : Parts cfg G := by
  have calm := calm_of_usual (@admitted_of_usual (PositiveReply cfg serverResponse))
  have pieces : Pieces cfg G :=
    pieces_of_actions rules calm admitted_of_making admitted_of_wiring fun _ _ h => h
  exact pieces.parts rules calm

/-- A message is acted on as a positive REPLY only if the buffer has one. -/
theorem dispatch_admitted (msgID : Nat) {pBlocks : ProtocolBlocks}
    (udp : cfg.protocol = .protUDP → uchar2msgType pBlocks.type = .msgReply →
      positiveUDP pBlocks = true → PositiveReply cfg serverResponse)
    (tcp : cfg.protocol = .protTCP → pBlocks.msgReplyResultBool = true →
      PositiveReply cfg serverResponse) : G (dispatch cfg msgID pBlocks serverResponse) := by
  have calm := calm_of_usual (@admitted_of_usual (PositiveReply cfg serverResponse))
  have parts := (parts_admitted rules).receiver serverResponse
  have free (a : Act) (plain : (∀ d, a ≠ .recvfrom d) ∧ ∀ e, a ≠ .note e) :
      Admitted (PositiveReply cfg serverResponse) a :=
    ⟨fun d => ⟨plain.1 d, plain.2 _⟩, fun tested => (plain.2 _ · |>.elim)⟩
  have moves (s s' : Fsm) : Admitted (PositiveReply cfg serverResponse) (.setProgramState s') :=
    free _ ⟨nofun, nofun⟩
  have noted (positive : PositiveReply cfg serverResponse) (tested : Fsm) :
      Admitted (PositiveReply cfg serverResponse) (.note (.replyOk tested)) :=
    ⟨fun _ => ⟨nofun, nofun⟩, fun _ _ => positive⟩
  apply dispatch_of_action rules calm (fun _ => free _ ⟨nofun, nofun⟩) parts.sendBye
  apply receiverAction_branches rules calm parts fun _ h => h
  case confirm =>
    intro _
    exact handleConfirmUDP_obeys rules calm (moves .fsmEnd _)
      (fun a h _ => admitted_of_wiring a h) _
  case replied =>
    intro protocol reply
    apply handleReplyUDP_of_answers rules calm parts
    intro tested _ _
    unfold answerReply
    split
    · exact handlePositiveReplyUDP_obeys rules calm parts tested pBlocks
        (noted (udp protocol reply ‹_›) tested) fun _ _ s' _ => moves tested s'
    · exact handleNegativeReplyUDP_obeys rules calm parts (fun s _ _ s' _ => moves s s') _
  case repliedTCP =>
    intro protocol
    apply handleReplyTCP_of_answers rules calm
    intro tested _ _
    apply answerReplyTCP_obeys rules calm fun s _ _ s' _ => moves s s'
    exact fun positive => ⟨noted (tcp protocol positive) tested, fun _ _ => moves tested _⟩
  case printed =>
    exact fun _ => printIncomingMessage_obeys rules calm parts.sendBye (free _ ⟨nofun, nofun⟩)
  case ended =>
    refine rules.bind (inUDP_obeys rules (lockedConfirm_obeys rules calm parts)) fun _ => ?_
    exact take_bind rules (moves .fsmEnd _) fun _ _ =>
      take_only rules (admitted_of_usual _ trivial)

/-- Nothing but a positive REPLY in the buffer is acted on as one. -/
theorem handleDatagram_admitted : G (handleDatagram cfg serverResponse) := by
  have calm := calm_of_usual (@admitted_of_usual (PositiveReply cfg serverResponse))
  apply handleDatagram_of_dispatch rules calm (parts_admitted rules).sendBye
  case udp =>
    intro udp d decoded
    apply dispatch_admitted rules
    · intro _ reply positive
      obtain ⟨type, result⟩ := reply_of_decoded decoded reply
      simp only [PositiveReply, udp]
      exact ⟨type, result.mp positive⟩
    · exact fun tcp => absurd (udp.symm.trans tcp) nofun
  case tcp =>
    intro tcp
    apply dispatch_admitted rules
    · exact fun udp => absurd (udp.symm.trans tcp) nofun
    · intro _ positive
      simp only [PositiveReply, tcp]
      exact positive_of_decoded positive

end

theorem protocolReceiver_safe (datagram : List UInt8) (c : Client) :
    Safe cfg buffer .receiver (protocolReceiver cfg datagram) c := by
  have ended (p : Point) (c : Client) : Safe cfg buffer .receiver (pure p) c := trivial
  unfold protocolReceiver
  apply Program.safe_perform_bind
  rintro c₁ ⟨told, -⟩
  refine ⟨trivial, fun state c₂ ok => ?_, fun c₂ halt => nomatch (Client.perform_halt halt).2⟩
  have looks : Admitted False .getProgramState := admitted_of_usual _ trivial
  obtain ⟨told₂, -⟩ := told.act looks False.elim (Client.perform_ok ok).2
  refine ⟨⟨told₂, fun u other receiver => absurd receiver other⟩, ?_⟩
  change Program.Safe _ _ _ _ _ (if state = .fsmEnd then _ else _) _
  split
  · exact ended _ _
  split
  · exact ended _ _
  apply Program.safe_perform_bind
  rintro c₃ ⟨told₃, -⟩
  refine ⟨trivial, fun serverResponse c₄ ok => ?_,
    fun c₄ halt => nomatch (Client.perform_halt halt).2⟩
  have handling := told₃.received (Client.perform_ok ok).2
  refine ⟨⟨handling.told, fun u other receiver => absurd receiver other⟩, ?_⟩
  apply Program.safe_bind (handleDatagram_admitted (handling_rules serverResponse) c₄ handling)
  exact fun _ _ _ => trivial

end

end Told

/-- **Each positive REPLY that is acted on was received.** In every interleaving it is the last
datagram in front of the place where the client acts on it. -/
theorem answered_of_reachable {cfg : NetworkConfig} {heap : Nat → Memory} {ipAddress : Buffer}
    {s : Threads Thread Client Act.Answer Point} (h : Reachable cfg heap ipAddress s) :
    Answered cfg (programInterfaceInit heap ipAddress).serverResponse s.shared.history := by
  have start : Told cfg (programInterfaceInit heap ipAddress).serverResponse
      (programInterfaceInit heap ipAddress) := by
    refine ⟨rfl, fun tested earlier suffix => ?_⟩
    simp [programInterfaceInit] at suffix
  have told := Machine.invariant_of_safe (m := machine cfg) (Told cfg _) (fun _ _ _ => True)
    Told.Rely Told.rely_refl Told.rely_trans (fun t p q c starts _ => by
      by_cases receiver : t = .receiver
      · subst receiver
        cases starts with
        | protocolReceiver datagram _ => exact Told.protocolReceiver_safe datagram c
      · exact Told.others_safe starts receiver c)
    h start (fun t q idle => by cases idle; trivial)
  exact told.1.answered

end Ipk24Chat
