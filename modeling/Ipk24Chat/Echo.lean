import Ipk24Chat.Agreement
import Ipk24Chat.ClosedSystem
import Ipk24Chat.RoundTrip

/-!
# What comes back from the test server

The whole system once more: what the client transmits, and what it makes of the answers.

* `Sound`: all that is on its way is one message in the format of the protocol;
* `authorized_by_server`: the client is behind the authentication only if it has sent a
  request for a user whose name the server accepts;
* `echo_integrity`: what is displayed was sent by the client, or is the server's complaint.
-/

namespace Ipk24Chat

/-- The types of messages that do not have the fields of a command. -/
def bare (k : UInt8) : Prop :=
  k ≠ MsgType.msgAuth.toUChar ∧ k ≠ MsgType.msgJoin.toUChar ∧ k ≠ MsgType.msgMsg.toUChar

/-- Bare, or a well-formed message. -/
def Proper (bytes : List UInt8) : Prop := StartsWith bare bytes ∨ WellFormed .protUDP bytes

def NameGiven (c : Client) : Prop := c.comDetails.displayName.data.isSome

theorem named_act {t : Thread} {c c' : Client} {a : Act} {r : a.Answer} (named : NameGiven c)
    (h : c.act t a = .ok r c') : NameGiven c' := by
  by_cases stores : ∃ src, a = .storeDisplayName src
  · obtain ⟨src, rfl⟩ := stores
    cases h
    rfl
  · by_cases channel : ∃ src, a = .storeChannelID src
    · obtain ⟨src, rfl⟩ := channel
      cases h
      exact named
    · have same : c'.comDetails.displayName = c.comDetails.displayName :=
        (Client.act_names h fun src =>
          ⟨fun eq => stores ⟨src, eq⟩, fun eq => channel ⟨src, eq⟩⟩).1
      unfold NameGiven
      rw [same]
      exact named

/-- No command with fields is assembled before a display name is stored. -/
theorem opening_named : Opening bare True NameGiven where
  kept t a c named :=
    ⟨fun r c' ok => named_act named (Client.perform_ok ok).2, fun c' halt => by
      rw [Client.act_halt (Client.perform_halt halt).2]
      exact named⟩
  granted c x _ starts grants := by
    rcases grants.1 with auth | join
    · exact absurd rfl (starts _ auth).1
    · exact absurd rfl (starts _ join).2.1
  stored _ c t src r c' ok := by
    cases ok
    rfl
  own := by
    unfold bare
    decide
  auth := Or.inr trivial

/-- What is known of the encoder calls in the closed system. -/
noncomputable def prepared : Thread → Act → Client → Bool := fun _ a c =>
  haveI := Classical.propDecidable
  decide (∀ protocol buffer pBlocks type, a = .assembleProtocol protocol buffer pBlocks →
    (uchar2CommandType pBlocks.type).sentAs = some type → ¬ bare type.toUChar → NameGiven c)

theorem prepared_iff {t : Thread} {a : Act} {c : Client} :
    prepared t a c = true ↔ ∀ protocol buffer pBlocks type,
      a = .assembleProtocol protocol buffer pBlocks →
      (uchar2CommandType pBlocks.type).sentAs = some type → ¬ bare type.toUChar → NameGiven c := by
  simp [prepared]

section
variable {cfg : NetworkConfig} {around : Memory} {heap : Nat → Memory} {ipAddress : Buffer}
  {s : Threads Thread Client Act.Answer Point}

theorem reachable_prepared (udp : cfg.protocol = .protUDP)
    (h : ((machine cfg).restrict (closedSystem cfg around).answered).Reachable
      (initialThreads (programInterfaceInit heap ipAddress)) s) :
    (((machine cfg).restrict (closedSystem cfg around).answered).restrict prepared).Reachable
      (initialThreads (programInterfaceInit heap ipAddress)) s := by
  apply Machine.reachable_restrict _ h
  intro u reached t a next code
  rw [prepared_iff]
  rintro protocol buffer pBlocks type rfl sent fields
  rcases Shut.shut_until udp opening_named reached with named | ⟨-, obeys⟩
  · exact named
  · exact absurd ((obeys t _ code).1.2.2 type sent) fields

end

/-! ## All strings are proper -/

theorem proper_set (bytes : List UInt8) (low high : UInt8) (h : Proper bytes) :
    Proper ((bytes.set 2 high).set 1 low) := by
  rcases h with starts | ⟨type, fields, good, l, h, rfl⟩
  · exact Or.inl (startsWith_set bytes low high starts)
  · exact Or.inr ⟨type, fields, good, low, high, rfl⟩

/-- Main assembles well-formed messages only, since nothing is refused. -/
theorem assemble_wellFormedUDP {fresh : Memory} {pBlocks : ProtocolBlocks} {buffer : Buffer}
    {com : CommunicationDetails} {r : Assembled} (accepted : Accepted pBlocks)
    (sendable : Sendable Act.Truthful pBlocks) (stored : NameStored 20 .displayName com.displayName)
    (named : ∀ type, (uchar2CommandType pBlocks.type).sentAs = some type → ¬ bare type.toUChar →
      com.displayName.data.isSome)
    (h : assemble fresh .protUDP pBlocks buffer com = .ok r) :
    WellFormed .protUDP r.buffer.bytes := by
  have fields (type : MsgType) : ¬ bare type.toUChar ↔ type = .msgAuth ∨ type = .msgJoin ∨
      type = .msgMsg := by
    unfold bare
    cases type <;> decide
  unfold Accepted at accepted
  unfold Sendable at sendable
  cases cmd : uchar2CommandType pBlocks.type <;> simp only [cmd] at accepted sendable named
  case cmdAuth =>
    apply wellFormed_of_fields .msgAuth (by rw [cmd]; rfl) _ h
    simp only [encodedFields, cmd]
    exact ⟨accepted.1.word, accepted.2.2.word, accepted.2.1.word⟩
  case cmdJoin =>
    have given := named .msgJoin rfl ((fields _).mpr (by simp))
    apply wellFormed_of_fields .msgJoin (by rw [cmd]; rfl) _ h
    simp only [encodedFields, cmd]
    exact ⟨accepted.word, stored.controlled given⟩
  case cmdMsg =>
    have given := named .msgMsg rfl ((fields _).mpr (by simp))
    apply wellFormed_of_fields .msgMsg (by rw [cmd]; rfl) _ h
    simp only [encodedFields, cmd]
    exact ⟨stored.controlled given, accepted.word⟩
  case cmdExit => exact wellFormed_exit cmd h

/-- Whatever is on its way is proper. -/
structure Sound (c : Client) : Prop where
  name : NameStored 20 .displayName c.comDetails.displayName
  main : Proper (c.scratch .protocolToSendedByMain).bytes
  own : ∀ b, b ≠ .protocolToSendedByMain → (c.scratch b).Starts bare
  queue : ∀ m ∈ c.sendingQueue, Proper m.buffer
  sent : ∀ x ∈ transmissions c, Proper x

namespace Sound

/-- Actions that keep everything proper. -/
def Admitted : Act → Prop
  | .storeDisplayName src => ControlledBlock 20 .displayName src
  | .assembleProtocol protocol buffer pBlocks =>
    protocol = .protUDP ∧ pBlocks.Measured ∧
      (buffer = .protocolToSendedByMain → Accepted pBlocks ∧ Sendable Act.Truthful pBlocks) ∧
      (buffer ≠ .protocolToSendedByMain → ∀ type,
        (uchar2CommandType pBlocks.type).sentAs = some type → bare type.toUChar)
  | .bufferResize buffer _ => buffer ≠ .protocolToSendedByMain
  | .note e => ∀ m, e ≠ .transmitted m
  | _ => True

section
variable {t : Thread} {c c' : Client} {a : Act} {r : a.Answer}

theorem name_act (sound : Sound c) (admitted : Admitted a) (h : c.act t a = .ok r c') :
    NameStored 20 .displayName c'.comDetails.displayName := by
  by_cases stores : ∃ src, a = .storeDisplayName src
  · obtain ⟨src, rfl⟩ := stores
    cases h
    exact Or.inr (storeName_stored admitted)
  · by_cases channel : ∃ src, a = .storeChannelID src
    · obtain ⟨src, rfl⟩ := channel
      cases h
      exact sound.name
    · have same : c'.comDetails.displayName = c.comDetails.displayName :=
        (Client.act_names h fun src =>
          ⟨fun eq => stores ⟨src, eq⟩, fun eq => channel ⟨src, eq⟩⟩).1
      rw [same]
      exact sound.name

theorem main_act (sound : Sound c) (admitted : Admitted a) (ready : prepared t a c = true)
    (h : c.act t a = .ok r c') : Proper (c'.scratch .protocolToSendedByMain).bytes := by
  by_cases assembles : ∃ protocol pBlocks,
      a = .assembleProtocol protocol .protocolToSendedByMain pBlocks
  · obtain ⟨protocol, pBlocks, rfl⟩ := assembles
    obtain ⟨rfl, measured, command, -⟩ := admitted
    obtain ⟨accepted, sendable⟩ := command rfl
    simp only [Client.act] at h
    split at h
    · cases h
      exact sound.main
    · rename_i run
      cases h
      have formed := assemble_wellFormedUDP accepted sendable sound.name
        (fun type => prepared_iff.mp ready _ _ _ type rfl) run
      exact Or.inr (by simpa [Client.setScratch] using formed)
  · have same : c'.scratch .protocolToSendedByMain = c.scratch .protocolToSendedByMain := by
      apply Client.act_scratch h
      · rintro n rfl
        exact admitted rfl
      · exact fun protocol pBlocks eq => assembles ⟨protocol, pBlocks, eq⟩
    rw [same]
    exact sound.main

/-- **One action keeps everything proper.** -/
theorem step_sound (sound : Sound c) (admitted : Admitted a) (ready : prepared t a c = true)
    (h : c.act t a = .ok r c') : Sound c' := by
  have buffers (b : Scratch) : Proper (c.scratch b).bytes := by
    by_cases main : b = .protocolToSendedByMain
    · subst main
      exact sound.main
    · exact Or.inl (startsWith_bytes (sound.own b main))
  constructor
  case name => exact name_act sound admitted h
  case main => exact main_act sound admitted ready h
  case own =>
    intro b other
    apply starts_act _ (sound.own b other) h
    rintro protocol pBlocks rfl
    exact ⟨admitted.1, admitted.2.1, admitted.2.2.2 other⟩
  case queue => exact Client.act_strings proper_set sound.queue buffers h
  case sent =>
    intro x hx
    have honest : ∀ m, a ≠ .note (.transmitted m) := by
      rintro m rfl
      exact admitted m rfl
    rcases mem_transmissions h honest hx with old | ⟨m, queued, rfl⟩
    · exact sound.sent x old
    · exact sound.queue m queued

end

section
variable {cfg : NetworkConfig} (udp : cfg.protocol = .protUDP)

theorem admitted_of_usual (a : Act) (h : a.Usual) : Admitted a := by
  cases a <;> first | trivial | exact h.elim | skip
  case note e => rcases h with rfl | rfl | rfl <;> exact fun _ => nofun

theorem admitted_of_wiring (a : Act) (h : a.Wiring) : Admitted a := by
  cases a <;> first | trivial | exact h.elim | skip
  case note e =>
    obtain ⟨msgID, rfl⟩ := h
    exact fun _ => nofun

include udp

theorem admitted_of_making (a : Act) (h : a.Making cfg) : Admitted a := by
  cases a <;> first | trivial | exact h | exact h.elim | skip
  case assembleProtocol protocol buffer pBlocks =>
    obtain ⟨measured, made⟩ := h
    cases cmd : uchar2CommandType pBlocks.type <;> simp only [cmd] at made
    case cmdConf =>
      refine ⟨made.1, measured, fun main => absurd main made.2, fun _ type sent => ?_⟩
      simp only [cmd, CommandType.sentAs, Option.some.injEq] at sent
      subst sent
      unfold bare
      decide
    case cmdErr =>
      refine ⟨made.1.trans udp, measured, fun main => absurd main made.2, fun _ type sent => ?_⟩
      simp only [cmd, CommandType.sentAs, CommandType.message, Option.some.injEq] at sent
      subst sent
      unfold bare
      decide
    case cmdExit =>
      refine ⟨made.trans udp, measured, fun _ => ⟨?_, ?_⟩, fun _ type sent => ?_⟩
      · simp [Accepted, cmd]
      · simp [Sendable, cmd]
      · simp only [cmd, CommandType.sentAs, Option.some.injEq] at sent
        subst sent
        unfold bare
        decide

theorem starts_sound {t : Thread} {p : Point} {q : Prog Point} (h : Starts cfg t p q) :
    q.Obeys Admitted Act.Truthful := by
  have rules : Program.Compositional Admitted Act.Truthful
      fun {α} (q : Prog α) => q.Obeys Admitted Act.Truthful := Program.compositional_obeys
  have calm := calm_of_usual admitted_of_usual
  have making := admitted_of_making udp
  by_cases main : t = .main
  · subst main
    have bye := sendBye_obeys rules calm making
    cases h with
    | userCommandHandling eofDetected stdin =>
      apply userCommandHandling_of_results rules calm bye (fun _ _ => id) _ (fun _ => trivial)
        (fun _ _ => trivial) fun pBlocks _ => Sendable Act.Truthful pBlocks
      · intro pBlocks flags plain
        exact Program.results_mono (filterCommandsByFSM_results pBlocks plain)
          fun result known sendable => known.2 sendable
      · intro pBlocks flags accepted measured sendable
        apply assembleCommand_obeys rules calm bye (fun _ _ => id) _ _ _ fun _ _ => trivial
        exact ⟨udp, measured, fun _ => ⟨accepted, sendable⟩, fun other => absurd rfl other⟩
      · intro pBlocks accepted src stored
        unfold ProtocolBlocks.storedName at stored
        unfold Accepted at accepted
        cases cmd : uchar2CommandType pBlocks.type <;> simp only [cmd] at stored accepted
        case cmdAuth =>
          cases stored
          exact accepted.2.2
        case cmdRename =>
          cases stored
          exact accepted
        all_goals cases stored
  · exact starts_obeys rules calm (admitted_of_usual _ rfl) making admitted_of_wiring
      (fun _ => trivial) (fun _ => trivial) (fun _ _ _ => trivial) (fun _ _ => id)
      (fun _ _ _ s' _ => ⟨trivial, fun _ => nofun⟩)
      ⟨fun _ => nofun, fun _ _ _ _ => trivial⟩ h main

/-- **Whatever is on its way in the closed system is proper.** -/
theorem sound_of_run {around : Memory} {heap : Nat → Memory} {ipAddress : Buffer}
    {s : Threads Thread Client Act.Answer Point}
    (h : ((machine cfg).restrict (closedSystem cfg around).answered).Reachable
      (initialThreads (programInterfaceInit heap ipAddress)) s) : Sound s.shared := by
  have initial : Sound (programInterfaceInit heap ipAddress) := by
    refine ⟨Or.inl rfl, Or.inl ?_, fun _ _ => Or.inl rfl, List.forall_mem_nil _,
      List.forall_mem_nil _⟩
    exact startsWith_bytes (Or.inl rfl)
  refine ((Machine.invariant_of_obeys Sound (fun _ => False) Admitted Act.Truthful ?_
    (fun _ _ _ => False.elim) (fun _ _ _ start => starts_sound udp start)
    (reachable_prepared udp h) initial ?_).resolve_left id).1
  · intro t a c sound admitted
    constructor
    · intro r c' ok
      obtain ⟨ready, ok⟩ := Machine.restrict_perform_ok ok (by simp)
      have ok := (Client.perform_ok (Machine.restrict_perform_ok ok (by simp)).2).2
      exact Or.inr ⟨step_sound sound admitted ready ok, Client.act_truthful ok⟩
    · intro c' halt
      have halt := (Machine.restrict_perform_ok halt (by simp)).2
      have halt := (Machine.restrict_perform_ok halt (by simp)).2
      rw [Client.act_halt (Client.perform_halt halt).2]
      exact Or.inr ⟨sound.name, sound.main, sound.own, sound.queue, sound.sent⟩
  · intro t q idle
    cases idle
    trivial

end

end Sound

/-! ## The gate of the server -/

/-- A request for a user whose name starts with an `a`. -/
def Asked (c : Client) : Prop :=
  ∃ x ∈ transmissions c, x[0]? = some MsgType.msgAuth.toUChar ∧ x[3]? = some (ch 'a')

/-- A JOIN opens nothing: it is only sent behind the authentication. -/
theorem opening_asked :
    Opening (fun k => k ≠ MsgType.msgJoin.toUChar ∧ k ≠ MsgType.msgMsg.toUChar) False Asked where
  kept t a c asked := by
    obtain ⟨x, hx, request⟩ := asked
    constructor
    · intro r c' ok
      exact ⟨x, transmissions_subset (Client.perform_ok ok).2 hx, request⟩
    · intro c' halt
      exact ⟨x, (transmissions_of_halt (Client.perform_halt halt).2).symm ▸ hx, request⟩
  granted c x hx starts grants := by
    rcases grants.1 with auth | join
    · exact ⟨x, hx, auth, grants.2⟩
    · exact absurd rfl (starts _ join).1
  stored stores := stores.elim
  own := by decide
  auth := Or.inl (by decide)

/-- A proper string with the type of a command has its fields. -/
theorem fields_of_proper {type : MsgType} {x : List UInt8} (proper : Proper x)
    (starts : x[0]? = some type.toUChar) (fields : ¬ bare type.toUChar) :
    ∃ low high fields, x = formatUDP type low high fields ∧ WellFormedFields type fields := by
  rcases proper with none | ⟨type', fields', good, low, high, rfl⟩
  · exact absurd (none _ starts) fields
  · have same : type' = type := by
      have first : type'.toUChar = type.toUChar := Option.some.inj starts
      revert first
      cases type <;> cases type' <;> decide
    subst same
    exact ⟨low, high, fields', rfl, good⟩

/-- **The server's gate.** Whatever the network does, the client comes behind the
authentication only if it has sent an AUTH that the server accepts. -/
theorem authorized_by_server {cfg : NetworkConfig} (udp : cfg.protocol = .protUDP)
    {around : Memory} {heap : Nat → Memory} {ipAddress : Buffer}
    {s : (closedSystem cfg around).State}
    (h : (closedSystem cfg around).Reachable (initialSystem cfg around heap ipAddress) s)
    (auth : s.threads.shared.fsmState.authenticated = true) :
    ∃ low high username displayname secret,
      formatUDP .msgAuth low high [username, displayname, secret] ∈
          transmissions s.threads.shared ∧
        WellFormedFields .msgAuth [username, displayname, secret] ∧
        username.head? = some (ch 'a') := by
  have run := Network.run_of_answers (closedSystem_grows cfg around) h rfl
  have sound := Sound.sound_of_run udp run
  rcases Shut.shut_until udp opening_asked run with ⟨x, hx, request, named⟩ | ⟨shut, -⟩
  · have fields : ¬ bare MsgType.msgAuth.toUChar := fun none => none.1 rfl
    obtain ⟨low, high, fields, rfl, good⟩ := fields_of_proper (sound.sent x hx) request fields
    have shape := good
    unfold WellFormedFields at shape
    split at shape <;> try contradiction
    rename_i username displayname secret _
    refine ⟨low, high, username, displayname, secret, hx, good, ?_⟩
    cases username with
    | nil => exact absurd shape.1.1 (by decide)
    | cons c rest => simpa [formatUDP, terminated] using named
  · rw [shut.state] at auth
    cases auth

/-- A client that asks for the user `a`, up to the server's REPLY and its CONFIRM. -/
def login : List Turn :=
  [.pass (.main (ascii "/auth a s d\n")), .pass (.sender 1), .answer 0, .pass (.receiver [0, 0, 0]),
    .pass (.receiver ([1, 1, 0, 1, 0, 0] ++ ascii "OKE" ++ [0])), .pass (.sender 1)]

/-- The user `a` comes to the open state. -/
theorem authorized_by_server_login :
    ∃ s, (closedSystem ⟨.protUDP, 3⟩ fun _ => 0).Reachable
        (initialSystem ⟨.protUDP, 3⟩ (fun _ => 0) (fun _ _ => 0xC4) ⟨some fun _ => 0, 10, 10⟩) s ∧
      s.threads.shared.fsmState = .fsmOpen ∧
      ∃ low high username displayname secret,
        formatUDP .msgAuth low high [username, displayname, secret] ∈
            transmissions s.threads.shared ∧
          WellFormedFields .msgAuth [username, displayname, secret] ∧
          username.head? = some (ch 'a') := by
  obtain ⟨s, reached, opened⟩ := closedSystem_played ⟨.protUDP, 3⟩ (fun _ => 0)
    (fun _ _ => 0xC4) ⟨some fun _ => 0, 10, 10⟩ login (fun c => c.fsmState = .fsmOpen)
    (by decide +kernel)
  have state := of_decide_eq_true opened
  exact ⟨s, reached, state, authorized_by_server rfl reached (by rw [state]; rfl)⟩

/-! ## What is displayed -/

/-- A text on the wire: the fields of a MSG or ERR. -/
def OnWire (wire : List (List UInt8)) (type : UInt8) (displayname contents : List UInt8) : Prop :=
  ∃ (m : MsgType) (low high : UInt8), (m = .msgMsg ∨ m = .msgErr) ∧ m.toUChar = type ∧
    ZeroFree displayname ∧ ZeroFree contents ∧ formatUDP m low high [displayname, contents] ∈ wire

/-- Nothing on the wire is empty, and each MSG and ERR there has its two fields. -/
structure WireFormed (wire : List (List UInt8)) : Prop where
  given : [] ∉ wire
  fields : ∀ d ∈ wire, ∀ m : MsgType, m = .msgMsg ∨ m = .msgErr → d[0]? = some m.toUChar →
    ∃ low high displayname contents, d = formatUDP m low high [displayname, contents] ∧
      ZeroFree displayname ∧ ZeroFree contents

namespace WireFormed
variable {cfg : NetworkConfig} {wire : List (List UInt8)}

/-- Only texts on the wire are displayed. -/
def Admitted (wire : List (List UInt8)) : Act → Prop
  | .display type displayname contents => OnWire wire type displayname contents
  | .note e => ∀ type low high displayname contents,
    e ≠ .displayed type low high displayname contents
  | _ => True

/-- Only datagrams on the wire are received. -/
def Answers (wire : List (List UInt8)) : (a : Act) → a.Answer → Prop
  | .recvfrom _, serverResponse => serverResponse.bytes ∈ wire
  | a, r => a.Truthful r

def Displayed (wire : List (List UInt8)) (c : Client) : Prop :=
  ∀ type low high displayname contents,
    .displayed type low high displayname contents ∈ c.history →
    OnWire wire type displayname contents

variable (wire) in
theorem admitted_of_usual (a : Act) (h : a.Usual) : Admitted wire a := by
  cases a <;> first | trivial | exact h.elim | skip
  case note e => rcases h with rfl | rfl | rfl <;> exact fun _ _ _ _ _ => nofun

theorem admitted_of_making (a : Act) (h : a.Making cfg) : Admitted wire a := by
  cases a <;> trivial

theorem admitted_of_wiring (a : Act) (h : a.Wiring) : Admitted wire a := by
  cases a <;> first | trivial | exact h.elim | skip
  case note e =>
    obtain ⟨msgID, rfl⟩ := h
    exact fun _ _ _ _ _ => nofun

theorem answers_truthful (a : Act) (r : a.Answer) (h : Answers wire a r) : a.Truthful r := by
  cases a <;> first | exact h | trivial

theorem first_of_decoded {b : Buffer} {d : Disassembled} {m : MsgType}
    (decoded : disassebleProtocolUDP b = .ok d) (type : uchar2msgType d.pBlocks.type = m)
    (known : m ≠ .msgUnknown) : b.mem 0 = m.toUChar :=
  eq_toUChar_of_uchar2msgType ((disassebleProtocolUDP_type decoded).symm.trans type) known

/-- A decoded MSG or ERR has the fields it had on the wire. -/
theorem onWire_of_decoded (formed : WireFormed wire) {b : Buffer} (received : b.bytes ∈ wire)
    {d : Disassembled} (decoded : disassebleProtocolUDP b = .ok d)
    (text : uchar2msgType d.pBlocks.type = .msgMsg ∨ uchar2msgType d.pBlocks.type = .msgErr) :
    OnWire wire d.pBlocks.type d.pBlocks.zeroth.bytes d.pBlocks.first.bytes := by
  have starts : ∃ m : MsgType, (m = .msgMsg ∨ m = .msgErr) ∧ b.mem 0 = m.toUChar := by
    rcases text with msg | err
    · exact ⟨_, Or.inl rfl, first_of_decoded decoded msg nofun⟩
    · exact ⟨_, Or.inr rfl, first_of_decoded decoded err nofun⟩
  obtain ⟨m, pair, first⟩ := starts
  have byte : b.bytes[0]? = some m.toUChar := by
    cases used : b.used with
    | zero => exact absurd (by simpa [Buffer.bytes, used] using received) formed.given
    | succ n =>
      rw [Buffer.bytes, used, Memory.read_cons, first]
      rfl
  obtain ⟨low, high, displayname, contents, eq, named, given⟩ :=
    formed.fields _ received m pair byte
  obtain ⟨d', decoded', type, fields⟩ :=
    disassebleProtocolUDP_pair (by rcases pair with rfl | rfl <;> simp) eq named given
  cases decoded.symm.trans decoded'
  have blocks : d.pBlocks.zeroth.bytes = displayname ∧ d.pBlocks.first.bytes = contents := by
    rcases pair with rfl | rfl <;> simpa [decodedFields, type] using fields
  rw [blocks.1, blocks.2]
  exact ⟨m, low, high, pair, type.symm, named, given, eq ▸ received⟩

/-- An event that shows a text comes from an action that does. -/
theorem step_displayed {t : Thread} {c c' : Client} {a : Act} {r : a.Answer}
    (displayed : Displayed wire c) (admitted : Admitted wire a) (h : c.act t a = .ok r c') :
    Displayed wire c' := by
  intro type low high displayname contents shown
  rw [Client.act_history h] at shown
  rcases List.mem_append.mp shown with new | old
  · cases a <;> simp [Client.emitted] at new
    case display type' displayname' contents' =>
      obtain ⟨rfl, -, -, rfl, rfl⟩ := new
      exact admitted
    case note e => exact absurd new.symm (admitted _ _ _ _ _)
  · exact displayed type low high displayname contents old

section
variable (udp : cfg.protocol = .protUDP) (formed : WireFormed wire)
include udp formed

/-- What is printed in the pass for a datagram is in it. -/
theorem protocolReceiver_admitted (datagram : List UInt8) :
    (protocolReceiver cfg datagram).Obeys (Admitted wire) (Answers wire) := by
  have rules : Program.Compositional (Admitted wire) (Answers wire)
      fun {α} (q : Prog α) => q.Obeys (Admitted wire) (Answers wire) :=
    Program.compositional_obeys
  have calm := calm_of_usual (admitted_of_usual wire)
  have parts : Parts cfg fun {α} (q : Prog α) => q.Obeys (Admitted wire) (Answers wire) :=
    (pieces_of_actions rules calm admitted_of_making admitted_of_wiring
      answers_truthful).parts rules calm
  have noted (s : Fsm) : Admitted wire (.note (.replyOk s)) := fun _ _ _ _ _ => nofun
  apply protocolReceiver_of_datagram rules calm trivial
  intro serverResponse received
  apply handleDatagram_of_dispatch rules calm parts.sendBye
  · intro _ d decoded
    apply dispatch_of_action rules calm (fun _ => trivial) parts.sendBye
    apply receiverAction_branches rules calm (parts.receiver serverResponse) fun _ h => h
    · intro _
      exact handleConfirmUDP_obeys rules calm trivial (fun a h _ => admitted_of_wiring a h) _
    · intro _ _
      apply handleReplyUDP_obeys rules calm (parts.receiver serverResponse) _ _ udp
      · exact fun _ _ _ s' _ => ⟨trivial, noted s'⟩
      · exact ⟨noted _, fun _ _ _ _ => trivial⟩
    · exact fun tcp => absurd (udp.symm.trans tcp) nofun
    · intro text
      apply printIncomingMessage_obeys rules calm parts.sendBye
      exact onWire_of_decoded formed received decoded text
    · refine rules.bind (inUDP_obeys rules ?_) fun _ => ?_
      · exact lockedConfirm_obeys rules calm (parts.receiver serverResponse)
      · exact take_bind rules trivial fun _ _ => take_only rules trivial
  · exact fun tcp => absurd (udp.symm.trans tcp) nofun

theorem starts_admitted {t : Thread} {p : Point} {q : Prog Point} (h : Starts cfg t p q) :
    q.Obeys (Admitted wire) (Answers wire) := by
  have rules : Program.Compositional (Admitted wire) (Answers wire)
      fun {α} (q : Prog α) => q.Obeys (Admitted wire) (Answers wire) :=
    Program.compositional_obeys
  have calm := calm_of_usual (admitted_of_usual wire)
  cases t with
  | main =>
    have making (a : Act) (h : a.Making cfg) : Admitted wire a := admitted_of_making a h
    have bye := sendBye_obeys rules calm making
    cases h with
    | userCommandHandling eofDetected stdin =>
      apply userCommandHandling_obeys rules calm bye answers_truthful
        (fun _ => ⟨trivial, trivial⟩) fun _ _ => trivial
      intro pBlocks flags _ _ _ _
      exact assembleCommand_obeys rules calm bye answers_truthful _ _ trivial fun _ _ => trivial
  | receiver =>
    cases h with
    | protocolReceiver datagram _ => exact protocolReceiver_admitted udp formed datagram
  | sender =>
    apply sender_obeys rules calm _ _ trivial h
    · exact (pieces_of_actions rules calm admitted_of_making admitted_of_wiring
        answers_truthful).parts rules calm
    · exact fun _ _ _ _ _ => trivial

/-- **Provenance of the display.** If only datagrams on the wire are received, only texts
on the wire are displayed. -/
theorem displayed_of_run {around : Memory} {heap : Nat → Memory} {ipAddress : Buffer}
    {s : Threads Thread Client Act.Answer Point}
    (h : ((machine cfg).restrict ((closedSystem cfg around).delivers wire)).Reachable
      (initialThreads (programInterfaceInit heap ipAddress)) s) : Displayed wire s.shared := by
  refine ((Machine.invariant_of_obeys (Displayed wire) (fun _ => False) (Admitted wire)
    (Answers wire) ?_ (fun _ _ _ => False.elim)
    (fun _ _ _ start => starts_admitted udp formed start) h ?_ ?_).resolve_left id).1
  · intro t a c displayed admitted
    constructor
    · intro r c' ok
      obtain ⟨delivered, taken⟩ := Machine.restrict_perform_ok ok (by simp)
      have effect := (Client.perform_ok taken).2
      refine Or.inr ⟨step_displayed displayed admitted effect, ?_⟩
      cases a <;> try exact Client.act_truthful effect
      case recvfrom datagram =>
        cases effect
        have bytes : (Client.receive c.serverResponse datagram).bytes = datagram :=
          Memory.read_write_self _ _ _
        change (Client.receive c.serverResponse datagram).bytes ∈ wire
        rw [bytes]
        exact Network.delivers_iff.mp delivered datagram rfl
    · intro c' halt
      have halt := (Machine.restrict_perform_ok halt (by simp)).2
      rw [Client.act_halt (Client.perform_halt halt).2]
      exact Or.inr displayed
  · intro type low high displayname contents shown
    cases shown
  · intro t q idle
    cases idle
    trivial

end

end WireFormed

/-! ## The echo -/

/-- A proper MSG that fits into the server's buffer, and its echo. -/
theorem echo_of_proper {x : List UInt8} (proper : Proper x)
    (msg : x[0]? = some MsgType.msgMsg.toUChar) (fits : x.length ≤ ServerUDP.bufferSize) :
    ∃ low high displayname contents, x = formatUDP .msgMsg low high [displayname, contents] ∧
      ServerUDP.echoed x = formatUDP .msgMsg (low + 1) high [displayname, contents] ∧
      ZeroFree displayname ∧ ZeroFree contents := by
  have command : ¬ bare MsgType.msgMsg.toUChar := fun none => none.2.2 rfl
  obtain ⟨low, high, fields, rfl, good⟩ := fields_of_proper proper msg command
  have zeroFree := wellFormedFields_zeroFree good
  unfold WellFormedFields at good
  split at good <;> try contradiction
  simp only [List.forall_mem_cons] at zeroFree
  exact ⟨low, high, _, _, rfl, ServerUDP.echoed_formatUDP fits, zeroFree.1, zeroFree.2.1⟩

/-- What the server sends to a client whose MSGs fit into its buffer. -/
theorem wireFormed_of_answers {wire sent : List (List UInt8)}
    (answers : ∀ d ∈ wire, ∃ x ∈ sent, ServerUDP.Reply x d) (proper : ∀ x ∈ sent, Proper x)
    (fits : ∀ x ∈ sent, x[0]? = some MsgType.msgMsg.toUChar → x.length ≤ ServerUDP.bufferSize) :
    WireFormed wire := by
  constructor
  · intro empty
    obtain ⟨x, -, reply⟩ := answers _ empty
    exact reply.ne_nil rfl
  · intro d hd m pair starts
    obtain ⟨x, hx, reply⟩ := answers d hd
    have other {k : UInt8} (first : d[0]? = some k) (no : k ≠ MsgType.msgMsg.toUChar)
        (no' : k ≠ MsgType.msgErr.toUChar) : False := by
      have same := Option.some.inj (first.symm.trans starts)
      rcases pair with rfl | rfl
      · exact no same
      · exact no' same
    cases reply with
    | confirm rest => exact (other rfl (by decide) (by decide)).elim
    | bye rest => exact (other rfl (by decide) (by decide)).elim
    | unknown rest => exact (other rfl (by decide) (by decide)).elim
    | reply low high result rest granted => exact (other rfl (by decide) (by decide)).elim
    | error low high request asked =>
      rcases pair with rfl | rfl
      · cases starts
      · exact ⟨low, high, ascii "SERVER", ascii "ERROR", rfl, by decide, by decide⟩
    | echo msg =>
      rcases pair with rfl | rfl
      · obtain ⟨low, high, displayname, contents, -, echo, named, given⟩ :=
          echo_of_proper (proper x hx) msg (fits x hx msg)
        exact ⟨low + 1, high, displayname, contents, echo, named, given⟩
      · cases (ServerUDP.echoed_first msg).symm.trans starts

theorem formatUDP_inj {type type' : MsgType} {low high low' high' : UInt8}
    {fields fields' : List (List UInt8)} (clear : ∀ f ∈ fields, ZeroFree f)
    (clear' : ∀ f ∈ fields', ZeroFree f)
    (same : formatUDP type low high fields = formatUDP type' low' high' fields') :
    type.toUChar = type'.toUChar ∧ fields = fields' := by
  simp only [formatUDP, List.cons.injEq] at same
  obtain ⟨types, -, -, body⟩ := same
  exact ⟨types, terminated_inj clear clear' body⟩

/-- **What comes back.** Where the messages of the client fit into the server's buffer, the
client displays what it sent itself, and the server's complaint if it asked for that. -/
theorem echo_integrity {cfg : NetworkConfig} (udp : cfg.protocol = .protUDP) {around : Memory}
    {heap : Nat → Memory} {ipAddress : Buffer} {s : (closedSystem cfg around).State}
    (h : (closedSystem cfg around).Reachable (initialSystem cfg around heap ipAddress) s)
    (fits : ∀ x ∈ transmissions s.threads.shared, x[0]? = some MsgType.msgMsg.toUChar →
      x.length ≤ ServerUDP.bufferSize)
    {type low high : UInt8} {displayname contents : List UInt8}
    (shown : .displayed type low high displayname contents ∈ s.threads.shared.history) :
    (type = MsgType.msgMsg.toUChar ∧ ∃ low high,
      formatUDP .msgMsg low high [displayname, contents] ∈ transmissions s.threads.shared) ∨
    (type = MsgType.msgErr.toUChar ∧ displayname = ascii "SERVER" ∧ contents = ascii "ERROR" ∧
      ∃ x ∈ transmissions s.threads.shared,
        (x[0]? = some MsgType.msgAuth.toUChar ∨ x[0]? = some MsgType.msgJoin.toUChar) ∧
          ascii "sendMeErr" <+: x.drop 3) := by
  have grows := closedSystem_grows cfg around
  have answers : ∀ d ∈ s.wire, ∃ x ∈ transmissions s.threads.shared, ServerUDP.Reply x d := by
    intro d hd
    obtain ⟨x, hx, v, answer⟩ := Network.wire_answered grows h rfl d hd
    exact ⟨x, hx, ServerUDP.reply_of_answer answer⟩
  have proper := (Sound.sound_of_run udp (Network.run_of_answers grows h rfl)).sent
  have formed := wireFormed_of_answers answers proper fits
  obtain ⟨m, low', high', pair, rfl, named, given, wired⟩ :=
    WireFormed.displayed_of_run udp formed (Network.run_of_wire h) _ _ _ _ _ shown
  have clear : ∀ f ∈ [displayname, contents], ZeroFree f := by simp [named, given]
  obtain ⟨x, hx, reply⟩ := answers _ wired
  generalize echo : formatUDP m low' high' [displayname, contents] = d at reply
  have first : d[0]? = some m.toUChar := echo ▸ rfl
  cases reply with
  | error low high request asked =>
    obtain ⟨type, fields⟩ := formatUDP_inj clear (by decide) echo
    cases fields
    exact Or.inr ⟨type, rfl, rfl, x, hx, request, asked⟩
  | echo msg =>
    obtain ⟨low, high, displayname', contents', rfl, back, named', given'⟩ :=
      echo_of_proper (proper x hx) msg (fits x hx msg)
    obtain ⟨type, fields⟩ := formatUDP_inj clear (by simp [named', given']) (echo.trans back)
    cases fields
    exact Or.inl ⟨type, low, high, hx⟩
  | _ => rcases pair with rfl | rfl <;> cases first

/-- A message and its echo. -/
theorem echo_integrity_login :
    ∃ s, (closedSystem ⟨.protUDP, 3⟩ fun _ => 0).Reachable
        (initialSystem ⟨.protUDP, 3⟩ (fun _ => 0) (fun _ _ => 0xC4) ⟨some fun _ => 0, 10, 10⟩) s ∧
      .displayed 4 3 0 (ascii "d") (ascii "hi") ∈ s.threads.shared.history ∧
      ∃ low high, formatUDP .msgMsg low high [ascii "d", ascii "hi"] ∈
        transmissions s.threads.shared := by
  obtain ⟨s, reached, good⟩ := closedSystem_played ⟨.protUDP, 3⟩ (fun _ => 0)
    (fun _ _ => 0xC4) ⟨some fun _ => 0, 10, 10⟩
    (login ++ [.pass (.main (ascii "hi\n")), .pass (.sender 1), .answer 0,
      .pass (.receiver [0, 2, 0, 0]),
      .pass (.receiver (formatUDP .msgMsg 3 0 [ascii "d", ascii "hi"]))])
    (fun c => .displayed 4 3 0 (ascii "d") (ascii "hi") ∈ c.history ∧
      ∀ x ∈ transmissions c, x.length ≤ ServerUDP.bufferSize) (by decide +kernel)
  obtain ⟨shown, fits⟩ := of_decide_eq_true good
  refine ⟨s, reached, shown, ?_⟩
  rcases echo_integrity rfl reached (fun x hx _ => fits x hx) shown with own | error
  · exact own.2
  · cases error.1

end Ipk24Chat
