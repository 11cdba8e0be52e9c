import Ipk24Chat.Acceptance

/-!
# The authentication gate

Before the server accepted an AUTH, the client is in no state behind the
authentication and no MSG or JOIN is in its queue, in every interleaving of the
actions of its three threads.

* `Gate`: what holds until a positive REPLY was handled;
* `ServerAccepted`: the bytes of a positive REPLY were received and acted on;
* `authentication_gate`: the gate for every reachable state, and for every
  transmission in its history.
-/

namespace Ipk24Chat

/-- Messages that may only be sent by an authenticated client. -/
def gated (type : UInt8) : Bool :=
  type == MsgType.msgMsg.toUChar || type == MsgType.msgJoin.toUChar

/-- The client has acted on a positive REPLY in the state that waits for it: in
`fsmW84Reply` (UDP), or in `fsmAuthSended` (TCP). -/
def AuthAccepted (cfg : NetworkConfig) (history : List Event) : Prop :=
  Event.replyOk cfg.acceptState ∈ history

/-- In that state, the last datagram that had been received was a positive REPLY: with the
result byte 1 (UDP), or with OK (TCP). -/
def ServerAccepted (cfg : NetworkConfig) (buffer : Buffer) (history : List Event) : Prop :=
  ∃ earlier, .replyOk cfg.acceptState :: earlier <:+ history ∧ Heard cfg buffer earlier

theorem serverAccepted_of_answered {cfg : NetworkConfig} {buffer : Buffer} {history : List Event}
    (accepted : AuthAccepted cfg history) (answered : Answered cfg buffer history) :
    ServerAccepted cfg buffer history := by
  obtain ⟨later, earlier, rfl⟩ := List.append_of_mem accepted
  have noted : .replyOk cfg.acceptState :: earlier <:+
      later ++ .replyOk cfg.acceptState :: earlier := List.suffix_append _ _
  exact ⟨earlier, noted, answered _ earlier noted⟩

/-- Each MSG or JOIN in the history was transmitted after a REPLY was accepted. -/
def GateKept (cfg : NetworkConfig) : List Event → Prop
  | [] => True
  | e :: earlier =>
    (∀ m, e = .transmitted m → gated m.type = true → AuthAccepted cfg earlier) ∧
      GateKept cfg earlier

theorem gateKept_split {cfg : NetworkConfig} {later earlier : List Event} {m : Message}
    (h : GateKept cfg (later ++ .transmitted m :: earlier)) (g : gated m.type = true) :
    AuthAccepted cfg earlier := by
  induction later with
  | nil => exact h.1 m rfl g
  | cons e later ih => exact ih h.2

/-- Nothing behind the authentication is there yet. -/
structure Gate (cfg : NetworkConfig) (c : Client) : Prop where
  state : c.fsmState.authenticated = false
  queue : ∀ m ∈ c.sendingQueue, gated m.type = false
  kept : GateKept cfg c.history

/-- The gate is open for good. -/
def Opened (cfg : NetworkConfig) (c : Client) : Prop :=
  AuthAccepted cfg c.history ∧ GateKept cfg c.history

namespace Gate

/-- Actions that leave the gate closed, or open it by an accepted REPLY. -/
def Admitted (cfg : NetworkConfig) : Act → Prop
  | .setProgramState newState => newState.authenticated = false
  | .queueAddMessage _ _ type | .queueAddMessagePriority _ _ type => gated type = false
  | .note (.transmitted _) => False
  | .note (.replyOk tested) => tested = cfg.acceptState
  | _ => True

/-- While the gate is closed no state behind it is seen, and behind an accepted
REPLY it is not closed any more. -/
def Answers : (a : Act) → a.Answer → Prop
  | .getProgramState, state => state.authenticated = false
  | .note e, _ => ∀ tested, e ≠ .replyOk tested
  | a, r => a.Truthful r

theorem admitted_of_usual {cfg : NetworkConfig} (a : Act) (h : a.Usual) : Admitted cfg a := by
  cases a <;> first | trivial | exact h.elim | skip
  case note e => rcases h with rfl | rfl | rfl <;> trivial

theorem admitted_of_making {cfg : NetworkConfig} (a : Act) (h : a.Making cfg) :
    Admitted cfg a := by
  cases a <;> first | trivial | exact h.elim | skip
  case queueAddMessage b f type => rcases h.2 with h | h <;> rw [Admitted, h] <;> rfl
  case queueAddMessagePriority b f type => rw [Admitted, h.2]; rfl

theorem admitted_of_wiring {cfg : NetworkConfig} (a : Act) (h : a.Wiring) : Admitted cfg a := by
  cases a <;> first | trivial | skip
  case note e =>
    obtain ⟨msgID, rfl⟩ := h
    trivial

theorem answers_truthful (a : Act) (r : a.Answer) (h : Answers a r) : a.Truthful r := by
  cases a <;> first | exact h | trivial

section
variable {cfg : NetworkConfig} {t : Thread} {a : Act} {c c' : Client}

/-- An event other than a transmission of a gated message keeps the order. -/
theorem gateKept_emitted {r : a.Answer} (kept : GateKept cfg c.history)
    (ok : c.act t a = .ok r c')
    (sent : ∀ m, c.emitted a = some (.transmitted m) → gated m.type = true →
      AuthAccepted cfg c.history) : GateKept cfg c'.history := by
  rw [Client.act_history ok]
  cases e : c.emitted a with
  | none => exact kept
  | some e' => exact ⟨fun m hm g => sent m (by rw [e, hm]) g, kept⟩

/-- Only `sendto` transmits, and what it transmits is in the queue. -/
theorem emitted_transmitted {m : Message} (h : c.emitted a = some (.transmitted m)) :
    m ∈ c.sendingQueue ∨ a = .note (.transmitted m) := by
  cases a <;> simp [Client.emitted] at h
  case sendto p => exact Or.inl (Client.mem_of_deref h)
  case note e => exact Or.inr (by rw [h])

theorem step_closed (gate : Gate cfg c) (admitted : Admitted cfg a) {r : a.Answer}
    (ok : c.perform t a = .ok r c') : Opened cfg c' ∨ Gate cfg c' ∧ Answers a r := by
  have ok := (Client.perform_ok ok).2
  have kept : GateKept cfg c'.history := by
    refine gateKept_emitted gate.kept ok fun m em g => ?_
    rcases emitted_transmitted em with hm | rfl
    · rw [gate.queue m hm] at g
      cases g
    · exact admitted.elim
  by_cases reply : a = .note (.replyOk cfg.acceptState)
  · subst reply
    refine Or.inl ⟨?_, kept⟩
    rw [Client.act_history ok]
    exact List.mem_cons_self
  · right
    refine ⟨⟨?_, ?_, kept⟩, ?_⟩
    · rw [Client.act_fsmState ok]
      cases a <;> first | exact gate.state | exact admitted
    · intro m hm
      rw [Client.act_queue ok] at hm
      rcases Client.mem_queueAfter hm with ⟨m', hm', stays⟩ | ⟨b, f, type, rfl | rfl, rfl⟩
      · rw [← stays.type]
        exact gate.queue m' hm'
      · exact admitted
      · exact admitted
    · cases a <;> try exact Client.act_truthful ok
      case getProgramState =>
        cases ok
        exact gate.state
      case note e =>
        rintro tested rfl
        rw [show tested = cfg.acceptState from admitted] at reply
        exact reply rfl

theorem step_opened (opened : Opened cfg c) {r : a.Answer} (ok : c.perform t a = .ok r c') :
    Opened cfg c' := by
  have ok := (Client.perform_ok ok).2
  refine ⟨?_, gateKept_emitted opened.2 ok fun _ _ _ => opened.1⟩
  unfold AuthAccepted
  rw [Client.act_history ok]
  exact List.mem_append_right _ opened.1

theorem halt_closed (gate : Gate cfg c) (halt : c.perform t a = .halt c') : Gate cfg c' := by
  rw [Client.act_halt (Client.perform_halt halt).2]
  exact ⟨gate.state, gate.queue, gate.kept⟩

theorem halt_opened (opened : Opened cfg c) (halt : c.perform t a = .halt c') :
    Opened cfg c' := by
  rw [Client.act_halt (Client.perform_halt halt).2]
  exact opened

end

/-- Nothing any thread can start goes through the closed gate. -/
theorem starts_admitted {cfg : NetworkConfig} {t : Thread} {p : Point} {q : Prog Point}
    (h : Starts cfg t p q) : q.Obeys (Admitted cfg) Answers := by
  have behind : ∀ s, s.authenticated = true → Answers .getProgramState s → ∀ s',
      Admitted cfg (.setProgramState s') ∧ Admitted cfg (.note (.replyOk s')) := by
    intro s auth closed
    rw [show s.authenticated = false from closed] at auth
    cases auth
  have rules : Program.Compositional (Admitted cfg) Answers
      fun {α} (q : Prog α) => q.Obeys (Admitted cfg) Answers := Program.compositional_obeys
  by_cases main : t = .main
  · subst main
    have bye := sendBye_obeys rules (calm_of_usual admitted_of_usual) admitted_of_making
    cases h with
    | userCommandHandling eofDetected stdin =>
      refine userCommandHandling_obeys rules (calm_of_usual admitted_of_usual) bye answers_truthful
        (fun _ => ⟨trivial, trivial⟩) (fun _ _ => trivial) ?_ eofDetected stdin
      -- without the open state only AUTH and BYE are let through
      intro pBlocks flags _ _ sendable _
      apply assembleCommand_obeys rules (calm_of_usual admitted_of_usual) bye answers_truthful _ _
        trivial
      intro type sent
      unfold Sendable at sendable
      split at sendable <;> simp_all [CommandType.sentAs, CommandType.message, Answers,
        Fsm.authenticated] <;> subst sent <;> rfl
  · exact starts_obeys rules (calm_of_usual admitted_of_usual) (admitted_of_usual _ rfl)
      admitted_of_making admitted_of_wiring (fun _ => trivial) (fun _ => trivial)
      (fun _ _ _ => trivial) answers_truthful
      (fun s auth answer s' _ => behind s auth answer s')
      ⟨rfl, fun _ answer => absurd rfl (answer _)⟩ h main

end Gate

/-- **Authentication gate.** In every reachable state that is behind the
authentication or has a MSG or JOIN in the queue, a positive REPLY has been received
and handled; and each transmitted MSG or JOIN was transmitted after one had been. -/
theorem authentication_gate {cfg : NetworkConfig} {heap : Nat → Memory} {ipAddress : Buffer}
    {s : Threads Thread Client Act.Answer Point} (h : Reachable cfg heap ipAddress s) :
    (s.shared.fsmState.authenticated = true ∨
        (∃ m ∈ s.shared.sendingQueue, gated m.type = true) →
      ServerAccepted cfg (programInterfaceInit heap ipAddress).serverResponse s.shared.history) ∧
    ∀ later m earlier, s.shared.history = later ++ .transmitted m :: earlier →
      gated m.type = true →
      ServerAccepted cfg (programInterfaceInit heap ipAddress).serverResponse earlier := by
  have answered := answered_of_reachable h
  have initial : Gate cfg (programInterfaceInit heap ipAddress) :=
    ⟨rfl, by simp [programInterfaceInit], trivial⟩
  have reached : Opened cfg s.shared ∨ Gate cfg s.shared := by
    refine (Machine.invariant_of_obeys (Gate cfg) (Opened cfg) (Gate.Admitted cfg)
      Gate.Answers ?_ ?_ ?_ h initial ?_).imp_right And.left
    · exact fun t a c gate admitted => ⟨fun r c' ok => Gate.step_closed gate admitted ok,
        fun c' halt => Or.inr (Gate.halt_closed gate halt)⟩
    · exact fun t a c opened => ⟨fun r c' ok => Gate.step_opened opened ok,
        fun c' halt => Gate.halt_opened opened halt⟩
    · exact fun t p q start => Gate.starts_admitted start
    · intro t q idle
      cases idle
      trivial
  have kept : GateKept cfg s.shared.history := by
    rcases reached with opened | gate
    · exact opened.2
    · exact gate.kept
  constructor
  · intro behind
    refine serverAccepted_of_answered ?_ answered
    rcases reached with opened | gate
    · exact opened.1
    · rcases behind with auth | ⟨m, hm, g⟩
      · rw [gate.state] at auth
        cases auth
      · rw [gate.queue m hm] at g
        cases g
  · intro later m earlier split g
    rw [split] at kept answered
    have before : earlier <:+ later ++ .transmitted m :: earlier :=
      (List.suffix_cons _ _).trans (List.suffix_append _ _)
    refine serverAccepted_of_answered (gateKept_split kept g) ?_
    exact fun tested older suffix => answered tested older (suffix.trans before)

/-- A client that has authenticated and sends a message. -/
theorem authentication_gate_hello :
    ∃ s, Reachable ⟨.protUDP, 3⟩ (fun _ _ => 0xC4) ⟨some fun _ => 0, 10, 10⟩ s ∧
      (∃ m ∈ s.shared.sendingQueue, gated m.type = true) ∧
      ServerAccepted ⟨.protUDP, 3⟩
        (programInterfaceInit (fun _ _ => 0xC4) ⟨some fun _ => 0, 10, 10⟩).serverResponse
        s.shared.history := by
  obtain ⟨p, passed, good⟩ := passed_of_playAll ⟨.protUDP, 3⟩
    (fun _ _ => 0xC4) ⟨some fun _ => 0, 10, 10⟩
    [.main (ascii "/auth u s d\n"), .sender 1, .receiver [0, 0, 0],
      .receiver ([1, 0, 0, 1, 0, 0] ++ ascii "ok" ++ [0]), .sender 1,
      .main (ascii "hello\n")]
    (fun p => p.shared.sendingQueue.any fun m => gated m.type) (by decide +kernel)
  obtain ⟨s, reached, same⟩ := reachable_of_passed passed
  have queued : ∃ m ∈ s.shared.sendingQueue, gated m.type = true := by
    rw [same]
    simpa using good
  exact ⟨s, reached, queued, (authentication_gate reached).1 (Or.inr queued)⟩

end Ipk24Chat
