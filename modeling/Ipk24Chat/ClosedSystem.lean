import Ipk24Chat.AuthGate
import Ipk24Chat.Network
import Ipk24Chat.TestServer
import Ipk24Chat.WellFormed

/-!
# The client and the test server

The threads of the client in the UDP variant and `serverUDP`, over a network that may
lose, delay, duplicate and reorder datagrams.

* `starts_act`: what the first byte of a buffer can become;
* `Shut`: what holds until a request is out that the server grants;
* `Shut.shut_until`: it holds in every run up to such an opening.
-/

namespace Ipk24Chat

/-- What the client has transmitted so far. -/
def transmissions (c : Client) : List (List UInt8) :=
  c.history.filterMap fun
    | .transmitted m => some m.buffer
    | _ => none

/-- The datagram that an action needs. -/
def Act.takes : Act → Option (List UInt8)
  | .recvfrom datagram => some datagram
  | _ => none

/-- The client and the server; `around` is what lies outside of the server's buffer. -/
def closedSystem (cfg : NetworkConfig) (around : Memory) :
    Network Thread Client Act.Answer Point ServerUDP (List UInt8) (List UInt8) where
  machine := machine cfg
  sent := transmissions
  takes := Act.takes
  answer := ServerUDP.pass around

def initialSystem (cfg : NetworkConfig) (around : Memory) (heap : Nat → Memory)
    (ipAddress : Buffer) : (closedSystem cfg around).State :=
  ⟨initialThreads (programInterfaceInit heap ipAddress), ⟨false, false⟩, []⟩

/-! ## Playing a run -/

/-- What happens next: a pass of a thread, or the server takes the nth transmission,
counted from the last one. -/
inductive Turn where
  | pass (cue : Cue)
  | answer (n : Nat)

/-- The closed system between passes. -/
structure Played where
  passes : Passes Thread Client Point
  server : ServerUDP
  wire : List (List UInt8)

def playTurn (cfg : NetworkConfig) (around : Memory) (s : Played) : Turn → Option Played
  | .pass cue => (cued cfg s.passes cue).map fun (t, q) =>
      let m := (machine cfg).restrict ((closedSystem cfg around).delivers s.wire)
      { s with passes := runPass m t q s.passes }
  | .answer n => (transmissions s.passes.shared)[n]?.map fun datagram =>
      let (server, answers) := ServerUDP.pass around s.server datagram
      { s with server := server, wire := answers ++ s.wire }

def playTurns (cfg : NetworkConfig) (around : Memory) (s : Played) : List Turn → Option Played
  | [] => some s
  | turn :: turns => (playTurn cfg around s turn).bind (playTurns cfg around · turns)

section
variable {cfg : NetworkConfig} {around : Memory} {s s' : Played}

/-- A played state is one of the closed system, apart from the code of the threads. -/
def Played.Reached (s₀ : (closedSystem cfg around).State) (s : Played) : Prop :=
  ∃ u, (closedSystem cfg around).Reachable s₀ ⟨u, s.server, s.wire⟩ ∧ Machine.Matches s.passes u

theorem reached_of_playTurn {s₀ : (closedSystem cfg around).State} {turn : Turn}
    (before : s.Reached s₀) (played : playTurn cfg around s turn = some s') : s'.Reached s₀ := by
  obtain ⟨u, reached, same⟩ := before
  cases turn with
  | pass cue =>
    obtain ⟨⟨t, q⟩, cued, rfl⟩ := Option.map_eq_some_iff.mp played
    have pass := pass_runPass (m := (machine cfg).restrict
      ((closedSystem cfg around).delivers s.wire)) (fun _ _ _ start => start) cued
    obtain ⟨u', run, same'⟩ := Machine.steps_of_pass pass same
    exact ⟨u', Network.reachable_of_threads reached run, same'⟩
  | answer n =>
    obtain ⟨datagram, sent, rfl⟩ := Option.map_eq_some_iff.mp played
    have taken : datagram ∈ transmissions u.shared := same.1 ▸ List.mem_of_getElem? sent
    exact ⟨u, reached.step (.peer taken), same⟩

theorem reached_of_playTurns {s₀ : (closedSystem cfg around).State} {turns : List Turn}
    (before : s.Reached s₀) (played : playTurns cfg around s turns = some s') :
    s'.Reached s₀ := by
  induction turns generalizing s with
  | nil =>
    cases played
    exact before
  | cons turn turns ih =>
    obtain ⟨s₁, first, rest⟩ := Option.bind_eq_some_iff.mp played
    exact ih (reached_of_playTurn before first) rest

end

/-- A played run is a run of the closed system. -/
theorem closedSystem_played (cfg : NetworkConfig) (around : Memory) (heap : Nat → Memory)
    (ipAddress : Buffer) (turns : List Turn) (good : Client → Bool)
    (h : (playTurns cfg around ⟨initialPasses (programInterfaceInit heap ipAddress),
      ⟨false, false⟩, []⟩ turns).any (good ·.passes.shared) = true) :
    ∃ s, (closedSystem cfg around).Reachable (initialSystem cfg around heap ipAddress) s ∧
      good s.threads.shared = true := by
  obtain ⟨s, played, found⟩ := (Option.any_eq_true _ _).mp h
  have start : Played.Reached (initialSystem cfg around heap ipAddress)
      ⟨initialPasses (programInterfaceInit heap ipAddress), ⟨false, false⟩, []⟩ :=
    ⟨_, .refl, matches_initial _⟩
  obtain ⟨u, reached, same⟩ := reached_of_playTurns start played
  exact ⟨_, reached, same.1 ▸ found⟩

/-! ## What is transmitted -/

section transmissions
variable {t : Thread} {c c' : Client} {a : Act} {r : a.Answer}

/-- A message is transmitted from the queue. -/
theorem mem_transmissions (h : c.act t a = .ok r c') (honest : ∀ m, a ≠ .note (.transmitted m))
    {x : List UInt8} (sent : x ∈ transmissions c') :
    x ∈ transmissions c ∨ ∃ m ∈ c.sendingQueue, x = m.buffer := by
  unfold transmissions at sent ⊢
  rw [Client.act_history h, List.filterMap_append] at sent
  rcases List.mem_append.mp sent with new | old
  · obtain ⟨e, emitted, eq⟩ := List.mem_filterMap.mp new
    cases e <;> cases eq
    rcases Gate.emitted_transmitted (Option.mem_toList.mp emitted) with queued | noted
    · exact Or.inr ⟨_, queued, rfl⟩
    · exact absurd noted (honest _)
  · exact Or.inl old

theorem transmissions_subset (h : c.act t a = .ok r c') : transmissions c ⊆ transmissions c' := by
  unfold transmissions
  rw [Client.act_history h, List.filterMap_append]
  exact List.subset_append_right _ _

theorem transmissions_of_halt (h : c.act t a = .halt c') : transmissions c' = transmissions c := by
  rw [Client.act_halt h]
  rfl

end transmissions

theorem closedSystem_grows (cfg : NetworkConfig) (around : Memory) :
    (closedSystem cfg around).Grows := by
  intro t a c
  constructor
  · exact fun r c' ok => transmissions_subset (Client.perform_ok ok).2
  · intro c' halt
    have same : transmissions c' = transmissions c :=
      transmissions_of_halt (Client.perform_halt halt).2
    exact fun x hx => (congrArg (x ∈ ·) same.symm).mp hx

/-! ## First bytes -/

/-- The first byte of what is in the buffer, if anything is. -/
def Buffer.Starts (first : UInt8 → Prop) (b : Buffer) : Prop :=
  b.used = 0 ∨ 0 < b.allocated ∧ first (b.mem 0)

/-- The first byte of a string, if it has one. -/
def StartsWith (first : UInt8 → Prop) (bytes : List UInt8) : Prop :=
  ∀ k, bytes[0]? = some k → first k

theorem startsWith_set {first : UInt8 → Prop} (bytes : List UInt8) (low high : UInt8)
    (h : StartsWith first bytes) : StartsWith first ((bytes.set 2 high).set 1 low) := by
  intro k hk
  exact h k (by simpa using hk)

section
variable {first : UInt8 → Prop} {b : Buffer}

theorem startsWith_bytes (h : b.Starts first) : StartsWith first b.bytes := by
  intro k hk
  rcases h with empty | ⟨-, starts⟩
  · simp [Buffer.bytes, empty] at hk
  · obtain ⟨n, used⟩ : ∃ n, b.used = n + 1 := by
      cases used : b.used with
      | zero => simp [Buffer.bytes, used] at hk
      | succ n => exact ⟨n, rfl⟩
    rw [Buffer.bytes, used, Memory.read_cons] at hk
    exact Option.some.inj hk ▸ starts

theorem starts_bufferResize (fresh : Memory) (n : Int) (h : b.Starts first) :
    (bufferResize fresh b n).Starts first := by
  rcases h with empty | ⟨room, starts⟩
  · exact Or.inl (by rw [bufferResize_used, empty])
  · refine Or.inr ⟨?_, ?_⟩
    · rw [bufferResize_allocated]
      omega
    · unfold bufferResize
      split
      · exact starts
      · simpa [Buffer.mem, room] using starts

/-- The type of a message is written, and the position counter is behind it. -/
structure Cursor.Headed (type : MsgType) (c : Cursor) : Prop where
  behind : 0 < c.ptrPos
  first : c.data 0 = type.toUChar

namespace Cursor.Headed
variable {type : MsgType} {c : Cursor} (headed : c.Headed type)

theorem header (type : MsgType) (b : Buffer) : (headerUDP type b).Headed type :=
  ⟨by simp [headerUDP], by simp [headerUDP, Memory.write_byte]⟩

include headed

theorem write (bytes : List UInt8) (n : Nat) :
    (Cursor.mk (c.data.write c.ptrPos bytes) (c.ptrPos + n)).Headed type := by
  have before := headed.behind
  refine ⟨by simp; omega, ?_⟩
  rw [← headed.first]
  exact Memory.write_outside (Or.inl (by omega))

theorem stay (n : Nat) : (Cursor.mk c.data (c.ptrPos + n)).Headed type :=
  ⟨Nat.lt_of_lt_of_le headed.behind (Nat.le_add_right _ _), headed.first⟩

theorem addBlock (src : BytesBlock) : (c.addBlock src).Headed type := by
  unfold Cursor.addBlock stringReplace
  cases src.start with
  | none => exact headed.stay _
  | some p => exact headed.write _ _

theorem addStoredInfo (src : Buffer) : (c.addStoredInfo src).Headed type := by
  unfold Cursor.addStoredInfo stringReplace
  cases src.ptr with
  | none => exact headed.stay _
  | some p => exact headed.write _ _

theorem addZeroByte : c.addZeroByte.Headed type := headed.write [0] 1

end Cursor.Headed

/-- Refused or not, what was assembled starts with its type. -/
theorem assembleProtocolUDP_first {fresh : Memory} {pBlocks : ProtocolBlocks} {buffer : Buffer}
    {com : CommunicationDetails} {r : Assembled}
    (h : assembleProtocolUDP fresh pBlocks buffer com = .ok r) :
    ∃ type, (uchar2CommandType pBlocks.type).sentAs = some type ∧
      r.buffer.mem 0 = type.toUChar := by
  unfold assembleProtocolUDP at h
  cases cmd : uchar2CommandType pBlocks.type with simp only [cmd] at h
  | cmdAuth =>
    cases h
    refine ⟨.msgAuth, rfl, ?_⟩
    exact ((Cursor.Headed.header .msgAuth _).addBlock _).addZeroByte.addBlock _
      |>.addZeroByte.addBlock _ |>.addZeroByte.first
  | cmdJoin =>
    refine ⟨.msgJoin, rfl, ?_⟩
    split at h
    · cases h
      exact ((Cursor.Headed.header .msgJoin _).addBlock _).addZeroByte.first
    · cases h
      exact ((Cursor.Headed.header .msgJoin _).addBlock _).addZeroByte.addStoredInfo _
        |>.addZeroByte.first
  | cmdMsg =>
    refine ⟨.msgMsg, rfl, ?_⟩
    split at h
    · cases h
      exact (Cursor.Headed.header .msgMsg _).first
    · cases h
      exact ((Cursor.Headed.header .msgMsg _).addStoredInfo _).addZeroByte.addBlock _
        |>.addZeroByte.first
  | cmdErr =>
    refine ⟨.msgErr, rfl, ?_⟩
    split at h
    · cases h
      exact (Cursor.Headed.header .msgErr _).first
    · cases h
      exact ((Cursor.Headed.header .msgErr _).addStoredInfo _).addZeroByte.addBlock _
        |>.addZeroByte.first
  | cmdConf =>
    cases h
    exact ⟨.msgConf, rfl, by simp [Assembled.complete, Buffer.mem, Memory.write]⟩
  | cmdExit =>
    cases h
    exact ⟨.msgBye, rfl, (Cursor.Headed.header .msgBye _).first⟩
  | _ => cases h

theorem assemble_starts {fresh : Memory} {pBlocks : ProtocolBlocks} {buffer : Buffer}
    {com : CommunicationDetails} {r : Assembled} (measured : pBlocks.Measured)
    (permitted : ∀ type, (uchar2CommandType pBlocks.type).sentAs = some type → first type.toUChar)
    (before : buffer.Starts first) (h : assemble fresh .protUDP pBlocks buffer com = .ok r) :
    r.buffer.Starts first := by
  obtain ⟨type, sent, starts⟩ := assembleProtocolUDP_first h
  have begun : first (r.buffer.mem 0) := starts ▸ permitted type sent
  rcases assemble_cases h with ⟨text, b, c, rfl, used, room⟩ | ⟨_, b, c, -, rfl, room, -⟩
  · rcases before with empty | ⟨some, -⟩
    · exact Or.inl (used.trans empty)
    · exact Or.inr ⟨Nat.lt_of_lt_of_le some room, begun⟩
  · obtain ⟨h0, h1, h2, h3⟩ := measured
    have enough : 0 < unsigned (pBlocks.totalLen + 10) := by
      unfold ProtocolBlocks.totalLen
      rw [unsigned_of_nonneg (by omega)]
      omega
    refine Or.inr ⟨?_, begun⟩
    change 0 < b.allocated
    rw [room]
    exact Nat.lt_of_lt_of_le enough (Nat.le_trans (Nat.le_max_right _ _) (Nat.le_max_left _ _))

end

/-- A buffer changes where it is resized or assembled into. -/
theorem starts_act {first : UInt8 → Prop} {t : Thread} {c c' : Client} {a : Act} {r : a.Answer}
    {b : Scratch} (assembles : ∀ protocol pBlocks, a = .assembleProtocol protocol b pBlocks →
      protocol = .protUDP ∧ pBlocks.Measured ∧
        ∀ type, (uchar2CommandType pBlocks.type).sentAs = some type → first type.toUChar)
    (before : (c.scratch b).Starts first) (h : c.act t a = .ok r c') :
    (c'.scratch b).Starts first := by
  by_cases resized : ∃ n, a = .bufferResize b n
  · obtain ⟨n, rfl⟩ := resized
    cases h
    simpa [Client.setScratch] using starts_bufferResize c.fresh n before
  · by_cases assembled : ∃ protocol pBlocks, a = .assembleProtocol protocol b pBlocks
    · obtain ⟨protocol, pBlocks, rfl⟩ := assembled
      obtain ⟨rfl, measured, permitted⟩ := assembles protocol pBlocks rfl
      simp only [Client.act] at h
      split at h
      · cases h
        exact before
      · rename_i run
        cases h
        simpa [Client.setScratch] using assemble_starts measured permitted before run
    · have same : c'.scratch b = c.scratch b := by
        apply Client.act_scratch h
        · exact fun n eq => resized ⟨n, eq⟩
        · exact fun protocol pBlocks eq => assembled ⟨protocol, pBlocks, eq⟩
      exact same ▸ before

/-! ## Received datagrams -/

theorem receive_byte (buffer : Buffer) {datagram : List UInt8} {i : Nat} {b : UInt8}
    (h : datagram[i]? = some b) : (Client.receive buffer datagram).mem i = b := by
  obtain ⟨inside, eq⟩ := List.getElem?_eq_some_iff.mp h
  have byte := Memory.write_inside buffer.mem 0 inside
  rw [Int.zero_add, eq] at byte
  exact byte

/-- The buffer does not hold a positive REPLY. -/
def NotPositive (b : Buffer) : Prop := b.mem 0 = MsgType.msgReply.toUChar → b.mem 3 ≠ 1

/-- Where no request is granted, no REPLY of the server is positive. -/
theorem notPositive_of_reply {x d : List UInt8} (refused : ¬ ServerUDP.Grants x)
    (reply : ServerUDP.Reply x d) (buffer : Buffer) : NotPositive (Client.receive buffer d) := by
  have other {k : UInt8} (first : d[0]? = some k) (no : k ≠ MsgType.msgReply.toUChar) :
      NotPositive (Client.receive buffer d) := fun type =>
    absurd ((receive_byte buffer first).symm.trans type) no
  cases reply with
  | reply low high result rest granted =>
    intro _ positive
    have third : (Client.receive buffer (1 :: low :: high :: result :: rest)).mem 3 = result :=
      receive_byte buffer (i := 3) rfl
    exact refused (granted (third.symm.trans positive))
  | confirm rest => exact other rfl (by decide)
  | bye rest => exact other rfl (by decide)
  | unknown rest => exact other rfl (by decide)
  | error low high request asked => exact other rfl (by decide)
  | echo msg => exact other (ServerUDP.echoed_first msg) (by decide)

theorem negative_of_decoded {b : Buffer} {d : Disassembled}
    (decoded : disassebleProtocolUDP b = .ok d)
    (reply : uchar2msgType d.pBlocks.type = .msgReply) (notPositive : NotPositive b) :
    positiveUDP d.pBlocks = false := by
  obtain ⟨type, positive⟩ := reply_of_decoded decoded reply
  rw [← Bool.not_eq_true, positive]
  exact notPositive type

/-! ## The gate -/

/-- Nothing is behind the authentication, what is on its way starts as `first` permits,
and no request that the server grants is out. -/
structure Shut (first : UInt8 → Prop) (c : Client) : Prop where
  state : c.fsmState.authenticated = false
  buffers : ∀ b, (c.scratch b).Starts first
  queue : ∀ m ∈ c.sendingQueue, StartsWith first m.buffer
  sent : ∀ x ∈ transmissions c, ¬ ServerUDP.Grants x

/-- A condition until which the gate is shut: it holds when a request is granted, and if
no AUTH is permitted before, then from the store of a display name on. -/
structure Opening (first : UInt8 → Prop) (stores : Prop) (final : Client → Prop) : Prop where
  kept : ∀ t a c, final c → (∀ r c', c.perform t a = .ok r c' → final c') ∧
    ∀ c', c.perform t a = .halt c' → final c'
  granted : ∀ c, ∀ x ∈ transmissions c, StartsWith first x → ServerUDP.Grants x → final c
  stored : stores → ∀ (c : Client) t src r c', c.act t (.storeDisplayName src) = .ok r c' → final c'
  own : first MsgType.msgConf.toUChar ∧ first MsgType.msgErr.toUChar ∧
    first MsgType.msgBye.toUChar
  auth : first MsgType.msgAuth.toUChar ∨ stores

namespace Shut

/-- Actions that leave the gate shut. -/
def Admitted (first : UInt8 → Prop) : Act → Prop
  | .setProgramState newState => newState.authenticated = false
  | .assembleProtocol protocol _ pBlocks =>
    protocol = .protUDP ∧ pBlocks.Measured ∧
      ∀ type, (uchar2CommandType pBlocks.type).sentAs = some type → first type.toUChar
  | .note e => ∀ m, e ≠ .transmitted m
  | _ => True

/-- What a thread sees while it is. -/
def Answers (stores : Prop) : (a : Act) → a.Answer → Prop
  | .getProgramState, state => state.authenticated = false
  | .recvfrom _, serverResponse => NotPositive serverResponse
  | .storeDisplayName _, _ => ¬ stores
  | a, r => a.Truthful r

section
variable {cfg : NetworkConfig} {around : Memory} {first : UInt8 → Prop} {stores : Prop}
  {final : Client → Prop}

theorem answers_truthful (a : Act) (r : a.Answer) (h : Answers stores a r) : a.Truthful r := by
  cases a <;> first | exact h | trivial

/-- **One action at the shut gate.** -/
theorem step_shut (opening : Opening first stores final) {t : Thread} {c c' : Client} {a : Act}
    {r : a.Answer} (shut : Shut first c) (admitted : Admitted first a)
    (answered : (closedSystem cfg around).answered t a c = true) (h : c.act t a = .ok r c') :
    final c' ∨ Shut first c' ∧ Answers stores a r := by
  by_cases opened : final c'
  · exact Or.inl opened
  · refine Or.inr ⟨⟨?_, ?_, ?_, ?_⟩, ?_⟩
    · rw [Client.act_fsmState h]
      cases a <;> first | exact shut.state | exact admitted
    · intro b
      apply starts_act _ (shut.buffers b) h
      rintro protocol pBlocks rfl
      exact admitted
    · exact Client.act_strings startsWith_set shut.queue
        (fun b => startsWith_bytes (shut.buffers b)) h
    · intro x hx
      have honest : ∀ m, a ≠ .note (.transmitted m) := by
        rintro m rfl
        exact admitted m rfl
      rcases mem_transmissions h honest hx with old | ⟨m, queued, rfl⟩
      · exact shut.sent x old
      · exact fun grants => opened (opening.granted c' _ hx (shut.queue m queued) grants)
    · cases a <;> try exact Client.act_truthful h
      case getProgramState =>
        cases h
        exact shut.state
      case recvfrom datagram =>
        cases h
        obtain ⟨x, sent, v, answer⟩ := Network.answered_iff.mp answered datagram rfl
        exact notPositive_of_reply (shut.sent x sent) (ServerUDP.reply_of_answer answer) _
      case storeDisplayName src =>
        exact fun stored => opened (opening.stored stored c t src r c' h)

variable (first) in
theorem admitted_of_usual (a : Act) (h : a.Usual) : Admitted first a := by
  cases a <;> first | trivial | exact h.elim | skip
  case note e => rcases h with rfl | rfl | rfl <;> exact fun _ => nofun

theorem admitted_of_wiring (a : Act) (h : a.Wiring) : Admitted first a := by
  cases a <;> first | trivial | exact h.elim | skip
  case note e =>
    obtain ⟨msgID, rfl⟩ := h
    exact fun _ => nofun

section
variable (udp : cfg.protocol = .protUDP) (opening : Opening first stores final)
include udp opening

theorem admitted_of_making (a : Act) (h : a.Making cfg) : Admitted first a := by
  obtain ⟨confirm, error, bye⟩ := opening.own
  cases a <;> first | trivial | exact h.elim | skip
  case assembleProtocol protocol buffer pBlocks =>
    obtain ⟨measured, made⟩ := h
    refine ⟨?_, measured, ?_⟩
    · cases cmd : uchar2CommandType pBlocks.type <;> simp only [cmd] at made
      · exact made.1
      · exact made.1.trans udp
      · exact made.trans udp
    · intro type sent
      cases cmd : uchar2CommandType pBlocks.type <;> simp only [cmd] at made sent <;> cases sent
      · exact confirm
      · exact error
      · exact bye

/-- Without a granted request, nothing main does goes through the gate. -/
theorem userCommandHandling_shut (eofDetected : Bool) (stdin : List UInt8) :
    (userCommandHandling cfg eofDetected stdin).Obeys (Admitted first) (Answers stores) := by
  have rules : Program.Compositional (Admitted first) (Answers stores)
      fun {α} (q : Prog α) => q.Obeys (Admitted first) (Answers stores) :=
    Program.compositional_obeys
  have calm := calm_of_usual (admitted_of_usual first)
  have bye := sendBye_obeys rules calm (admitted_of_making udp opening)
  apply userCommandHandling_of_results rules calm bye answers_truthful
    (fun _ _ _ _ => trivial) (fun _ => trivial) (fun _ _ => trivial) fun pBlocks _ =>
      Sendable (Answers stores) pBlocks ∧ (uchar2CommandType pBlocks.type = .cmdAuth →
        Answers stores (.storeDisplayName pBlocks.cmdAuthDisplayname) ())
  · intro pBlocks flags plain
    apply Program.results_mono (Program.results_and (filterCommandsByFSM_results pBlocks plain)
      (filterCommandsByFSM_stores pBlocks flags))
    exact fun result known sendable => ⟨known.1.2 sendable, known.2⟩
  · intro pBlocks flags _ measured ⟨sendable, stored⟩
    apply assembleCommand_obeys rules calm bye answers_truthful _ _ ⟨udp, measured, ?_⟩
      fun _ _ => trivial
    intro type sent
    unfold Sendable at sendable
    cases cmd : uchar2CommandType pBlocks.type <;> simp only [cmd] at sendable sent stored
    case cmdAuth =>
      cases sent
      exact opening.auth.resolve_right (stored trivial)
    case cmdExit =>
      cases sent
      exact opening.own.2.2
    case cmdJoin => cases sendable
    case cmdMsg => cases sendable

/-- Nor what the receiver does. -/
theorem protocolReceiver_shut (datagram : List UInt8) :
    (protocolReceiver cfg datagram).Obeys (Admitted first) (Answers stores) := by
  have rules : Program.Compositional (Admitted first) (Answers stores)
      fun {α} (q : Prog α) => q.Obeys (Admitted first) (Answers stores) :=
    Program.compositional_obeys
  have calm := calm_of_usual (admitted_of_usual first)
  have parts : Parts cfg fun {α} (q : Prog α) => q.Obeys (Admitted first) (Answers stores) :=
    (pieces_of_actions rules calm (admitted_of_making udp opening) admitted_of_wiring
      answers_truthful).parts rules calm
  apply protocolReceiver_of_datagram rules calm trivial
  intro serverResponse notPositive
  apply handleDatagram_of_dispatch rules calm parts.sendBye
  · intro _ d decoded
    apply dispatch_of_action rules calm (fun _ => trivial) parts.sendBye
    apply receiverAction_branches rules calm (parts.receiver serverResponse) fun _ h => h
    · exact fun _ => handleConfirmUDP_obeys rules calm rfl (fun a h _ => admitted_of_wiring a h) _
    · intro _ reply
      apply handleReplyUDP_refused rules calm (parts.receiver serverResponse)
      · intro s auth closed
        rw [show s.authenticated = false from closed] at auth
        cases auth
      · exact negative_of_decoded decoded reply notPositive
    · exact fun tcp => absurd (udp.symm.trans tcp) nofun
    · exact fun _ => printIncomingMessage_obeys rules calm parts.sendBye trivial
    · refine rules.bind (inUDP_obeys rules ?_) fun _ => ?_
      · exact lockedConfirm_obeys rules calm (parts.receiver serverResponse)
      · exact take_bind rules rfl fun _ _ => take_only rules trivial
  · exact fun tcp => absurd (udp.symm.trans tcp) nofun

theorem starts_shut {t : Thread} {p : Point} {q : Prog Point} (h : Starts cfg t p q) :
    q.Obeys (Admitted first) (Answers stores) := by
  cases t with
  | main =>
    cases h with
    | userCommandHandling eofDetected stdin =>
      exact userCommandHandling_shut udp opening eofDetected stdin
  | receiver =>
    cases h with
    | protocolReceiver datagram _ => exact protocolReceiver_shut udp opening datagram
  | sender =>
    have rules : Program.Compositional (Admitted first) (Answers stores)
        fun {α} (q : Prog α) => q.Obeys (Admitted first) (Answers stores) :=
      Program.compositional_obeys
    have calm := calm_of_usual (admitted_of_usual first)
    apply sender_obeys rules calm _ _ rfl h
    · exact (pieces_of_actions rules calm (admitted_of_making udp opening) admitted_of_wiring
        answers_truthful).parts rules calm
    · intro s auth closed
      rw [show s.authenticated = false from closed] at auth
      cases auth

/-- **The gate stays shut** until the opening. -/
theorem shut_until {heap : Nat → Memory} {ipAddress : Buffer}
    {s : Threads Thread Client Act.Answer Point}
    (h : ((machine cfg).restrict (closedSystem cfg around).answered).Reachable
      (initialThreads (programInterfaceInit heap ipAddress)) s) :
    final s.shared ∨ Shut first s.shared ∧
      ∀ t q, s.code t = some q → q.Obeys (Admitted first) (Answers stores) := by
  have initial : Shut first (programInterfaceInit heap ipAddress) :=
    ⟨rfl, fun _ => Or.inl rfl, List.forall_mem_nil _, List.forall_mem_nil _⟩
  apply Machine.invariant_of_obeys (Shut first) final (Admitted first) (Answers stores) _ _
    (fun _ _ _ start => starts_shut udp opening start) h initial
  · intro t q idle
    cases idle
    trivial
  · intro t a c shut admitted
    constructor
    · intro r c' ok
      obtain ⟨answered, ok⟩ := Machine.restrict_perform_ok ok (by simp)
      exact step_shut opening shut admitted answered (Client.perform_ok ok).2
    · intro c' halt
      have halt := (Machine.restrict_perform_ok halt (by simp)).2
      rw [Client.act_halt (Client.perform_halt halt).2]
      exact Or.inr ⟨shut.state, shut.buffers, shut.queue, shut.sent⟩
  · intro t a c opened
    constructor
    · intro r c' ok
      exact (opening.kept t a c opened).1 r c' (Machine.restrict_perform_ok ok (by simp)).2
    · intro c' halt
      exact (opening.kept t a c opened).2 c' (Machine.restrict_perform_ok halt (by simp)).2

end

end

end Shut

end Ipk24Chat
