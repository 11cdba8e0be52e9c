import Ipk24Chat.Footprint

/-!
# Everything main puts on the wire is well formed

* `WellFormed`: one AUTH, JOIN, MSG or BYE in the format of the variant, with
  the field lengths and characters of the protocol;
* `wellFormed_single`: such a string holds no second message and no second field;
* `main_well_formed`: main queues well-formed strings only, whatever lines it
  reads, whatever the other threads do and however the state is changed.
-/

namespace Ipk24Chat

/-- The fields a client may send in a message. -/
def WellFormedFields : MsgType → List (List UInt8) → Prop
  | .msgAuth, [username, displayname, secret] =>
    Controlled 20 .username username ∧ Controlled 20 .displayName displayname ∧
      Controlled 128 .secret secret
  | .msgJoin, [channelID, displayname] =>
    Controlled 20 .channelID channelID ∧ Controlled 20 .displayName displayname
  | .msgMsg, [displayname, contents] =>
    Controlled 20 .displayName displayname ∧ Controlled 14000 .messageContent contents
  | .msgBye, [] => True
  | _, _ => False

def WellFormed (protocol : Protocols) (bytes : List UInt8) : Prop :=
  ∃ type fields, WellFormedFields type fields ∧
    match protocol with
    | .protUDP => ∃ low high, bytes = formatUDP type low high fields
    | .protTCP => bytes = formatTCP type fields

/-- A TCP string ends at its only line end; behind the header of a UDP string
there are no zero bytes but the ones that end its fields. -/
def SingleMessage (protocol : Protocols) (bytes : List UInt8) : Prop :=
  match protocol with
  | .protUDP => ∃ type low high fields, bytes = type :: low :: high :: terminated fields ∧
      ∀ f ∈ fields, ZeroFree f
  | .protTCP => ∃ body, bytes = body ++ [ch '\r', ch '\n'] ∧
      ∀ b ∈ body, b ≠ ch '\r' ∧ b ≠ ch '\n' ∧ b ≠ 0

/-! ## Characters -/

theorem class_printable {type : TypeOfWord} {c : UInt8} (h : type.Class c) :
    0x20 ≤ c ∧ c ≤ 0x7E := by
  obtain ⟨range, listed, low, high⟩ := h
  have inside : ∀ r ∈ type.ranges, 0x20 ≤ r.1 ∧ r.2 ≤ 0x7E := by
    cases type <;> simp [TypeOfWord.ranges]
  exact ⟨UInt8.le_trans (inside range listed).1 low, UInt8.le_trans high (inside range listed).2⟩

theorem printable_ne {c : UInt8} (h : 0x20 ≤ c ∧ c ≤ 0x7E) :
    c ≠ ch '\r' ∧ c ≠ ch '\n' ∧ c ≠ 0 := by
  refine ⟨?_, ?_, ?_⟩ <;> rintro rfl <;> revert h <;> decide

theorem Controlled.zeroFree {n : Nat} {type : TypeOfWord} {word : List UInt8}
    (h : Controlled n type word) : ZeroFree word := by
  refine ⟨fun empty => ?_, fun zero => ?_⟩
  · have := h.1
    simp [empty] at this
  · exact (printable_ne (class_printable (h.2.2 0 zero))).2.2 rfl

theorem Controlled.plain {n : Nat} {type : TypeOfWord} {word : List UInt8}
    (h : Controlled n type word) : ∀ b ∈ word, b ≠ ch '\r' ∧ b ≠ ch '\n' ∧ b ≠ 0 :=
  fun b hb => printable_ne (class_printable (h.2.2 b hb))

theorem wellFormedFields_zeroFree {type : MsgType} {fields : List (List UInt8)}
    (h : WellFormedFields type fields) : ∀ f ∈ fields, ZeroFree f := by
  unfold WellFormedFields at h
  split at h
  · simp [h.1.zeroFree, h.2.1.zeroFree, h.2.2.zeroFree]
  · simp [h.1.zeroFree, h.2.zeroFree]
  · simp [h.1.zeroFree, h.2.zeroFree]
  · simp
  · exact h.elim

/-- Nothing that is well formed can be taken for more than one message. -/
theorem wellFormed_single {protocol : Protocols} {bytes : List UInt8}
    (h : WellFormed protocol bytes) : SingleMessage protocol bytes := by
  obtain ⟨type, fields, good, format⟩ := h
  cases protocol with
  | protUDP =>
    obtain ⟨low, high, rfl⟩ := format
    exact ⟨_, low, high, fields, rfl, wellFormedFields_zeroFree good⟩
  | protTCP =>
    have tail : ascii "\r\n" = [ch '\r', ch '\n'] := rfl
    have title : ∀ s ∈ ["AUTH ", " AS ", " USING ", "JOIN ", "MSG FROM ", " IS ", "BYE"],
        ∀ b ∈ ascii s, b ≠ ch '\r' ∧ b ≠ ch '\n' ∧ b ≠ 0 := by decide +kernel
    simp only [List.forall_mem_cons] at title
    obtain ⟨auth, as, using_, join, msg, is, bye, -⟩ := title
    unfold WellFormedFields at good
    simp only at format
    split at good
    · refine ⟨_, by rw [format, formatTCP, tail], ?_⟩
      simp only [List.forall_mem_append]
      exact ⟨⟨⟨⟨⟨auth, good.1.plain⟩, as⟩, good.2.1.plain⟩, using_⟩, good.2.2.plain⟩
    · refine ⟨_, by rw [format, formatTCP, tail], ?_⟩
      simp only [List.forall_mem_append]
      exact ⟨⟨⟨join, good.1.plain⟩, as⟩, good.2.plain⟩
    · refine ⟨_, by rw [format, formatTCP, tail], ?_⟩
      simp only [List.forall_mem_append]
      exact ⟨⟨⟨msg, good.1.plain⟩, is⟩, good.2.plain⟩
    · exact ⟨_, by rw [format, formatTCP, tail], bye⟩
    · exact good.elim

/-! ## The encoders on accepted commands -/

/-- A stored name is one that passed `controlWord`, or none. -/
def NameStored (maxLen : Nat) (type : TypeOfWord) (stored : Buffer) : Prop :=
  stored.data = none ∨ stored.data.isSome ∧ Controlled maxLen type stored.bytes

theorem NameStored.controlled {n : Nat} {type : TypeOfWord} {stored : Buffer}
    (h : NameStored n type stored) (given : stored.data.isSome) :
    Controlled n type stored.bytes := by
  rcases h with none | h
  · simp [none] at given
  · exact h.2

theorem storeName_bytes {fresh : Memory} {stored : Buffer} {block : BytesBlock}
    (given : block.start.isSome) :
    (Client.storeName fresh stored block).bytes = block.bytes := by
  obtain ⟨start, len⟩ := block
  cases start with
  | none => simp at given
  | some p =>
    have length : (p.read (unsigned len)).length = unsigned len := by simp [CharPtr.read]
    have copied := Memory.read_write_self (bufferResize fresh stored (len + 1)).mem 0
      (p.read (unsigned len))
    rw [length] at copied
    simp only [Client.storeName, Buffer.bytes, Buffer.mem, stringReplace, Option.getD_some]
    rw [Memory.read_write_before (by omega)]
    exact copied

/-- Storing an accepted word stores its bytes. -/
theorem storeName_stored {fresh : Memory} {stored : Buffer} {block : BytesBlock} {n : Nat}
    {type : TypeOfWord} (h : ControlledBlock n type block) :
    (Client.storeName fresh stored block).data.isSome ∧
      Controlled n type (Client.storeName fresh stored block).bytes := by
  refine ⟨rfl, ?_⟩
  rw [storeName_bytes h.given]
  exact h.word

/-- What main needs to have stored when it assembles a command. -/
def Ready (pBlocks : ProtocolBlocks) (com : CommunicationDetails) : Prop :=
  uchar2CommandType pBlocks.type = .cmdJoin →
    com.channelID.data.isSome ∧ Controlled 20 .channelID com.channelID.bytes

section
variable {fresh : Memory} {protocol : Protocols} {pBlocks : ProtocolBlocks} {buffer : Buffer}
  {com : CommunicationDetails} {r : Assembled}

/-- Without a display name neither a JOIN nor a MSG is assembled. -/
theorem displayName_given (h : assemble fresh protocol pBlocks buffer com = .ok r)
    (sendable : r.canBeSended = true)
    (command : uchar2CommandType pBlocks.type = .cmdJoin ∨
      uchar2CommandType pBlocks.type = .cmdMsg) : com.displayName.data.isSome := by
  cases name : com.displayName.data with
  | some m => rfl
  | none =>
    rcases command with cmd | cmd <;> cases protocol <;>
      simp only [assemble, assembleProtocolUDP, assembleProtocolTCP, cmd, name, Option.isNone_none,
        ↓reduceIte] at h <;> cases h <;> cases sendable

theorem wellFormed_of_fields (type : MsgType)
    (command : (uchar2CommandType pBlocks.type).message = some type)
    (fields : WellFormedFields type (encodedFields protocol pBlocks com))
    (h : assemble fresh protocol pBlocks buffer com = .ok r) :
    WellFormed protocol r.buffer.bytes := by
  have given := given_of_zeroFree (wellFormedFields_zeroFree fields)
  cases protocol with
  | protUDP =>
    obtain ⟨b, c, run, bytes⟩ := assembleProtocolUDP_bytes fresh buffer command given
    cases run.symm.trans h
    exact ⟨type, _, fields, _, _, bytes⟩
  | protTCP =>
    obtain ⟨b, c, run, bytes⟩ := assembleProtocolTCP_bytes fresh buffer command given
    cases run.symm.trans h
    exact ⟨type, _, fields, bytes⟩

theorem wellFormed_exit (command : uchar2CommandType pBlocks.type = .cmdExit)
    (h : assemble fresh protocol pBlocks buffer com = .ok r) :
    WellFormed protocol r.buffer.bytes := by
  cases protocol with
  | protUDP =>
    obtain ⟨b, c, run, bytes⟩ := assembleProtocolUDP_exit fresh buffer com command
    cases run.symm.trans h
    exact ⟨.msgBye, [], trivial, _, _, bytes⟩
  | protTCP =>
    obtain ⟨b, c, run, bytes⟩ := assembleProtocolTCP_exit fresh buffer com command
    cases run.symm.trans h
    exact ⟨.msgBye, [], trivial, bytes⟩

/-- A command that was accepted is assembled to a well-formed string. -/
theorem assemble_wellFormed (accepted : Accepted pBlocks)
    (sendable : Sendable (fun _ _ => True) pBlocks)
    (name : NameStored 20 .displayName com.displayName) (ready : Ready pBlocks com)
    (h : assemble fresh protocol pBlocks buffer com = .ok r) (sent : r.canBeSended = true) :
    WellFormed protocol r.buffer.bytes := by
  unfold Accepted at accepted
  unfold Sendable at sendable
  cases cmd : uchar2CommandType pBlocks.type <;> simp only [cmd] at accepted sendable
  case cmdAuth =>
    refine wellFormed_of_fields .msgAuth (by rw [cmd]; rfl) ?_ h
    simp only [encodedFields, cmd]
    exact ⟨accepted.1.word, accepted.2.2.word, accepted.2.1.word⟩
  case cmdJoin =>
    have named := name.controlled (displayName_given h sent (Or.inl cmd))
    refine wellFormed_of_fields .msgJoin (by rw [cmd]; rfl) ?_ h
    cases protocol <;> simp only [encodedFields, cmd]
    · exact ⟨accepted.word, named⟩
    · exact ⟨(ready cmd).2, named⟩
  case cmdMsg =>
    have named := name.controlled (displayName_given h sent (Or.inr cmd))
    refine wellFormed_of_fields .msgMsg (by rw [cmd]; rfl) ?_ h
    simp only [encodedFields, cmd]
    exact ⟨named, accepted.word⟩
  case cmdExit => exact wellFormed_exit cmd h

end

/-! ## Main among the other threads -/

/-- The pieces of code of the client, and any change of the state at any time. -/
inductive StartsAnyState (cfg : NetworkConfig) : Thread → Point → Prog Point → Prop where
  | client {t : Thread} {p : Point} {q : Prog Point} (h : Starts cfg t p q) :
      StartsAnyState cfg t p q
  | setProgramState (newState : Fsm) :
      StartsAnyState cfg .receiver .protocolReceiver (do
        Ipk24Chat.setProgramState newState
        pure .protocolReceiver)

/-- The client with a state that changes on its own. -/
def anyStateMachine (cfg : NetworkConfig) : Machine Thread Client Act.Answer Point where
  perform := Client.perform
  starts := StartsAnyState cfg

namespace WellFormed
variable (cfg : NetworkConfig)

def Invariant (c : Client) : Prop := NameStored 20 .displayName c.comDetails.displayName

/-- The string in the buffer of main. -/
def InBuffer (c : Client) : Prop :=
  WellFormed cfg.protocol (c.scratch .protocolToSendedByMain).bytes

/-- Main relies on the stored names, and on a well-formed string in its buffer
being replaced by a well-formed one at most: BYE, by `sendBye`. -/
def Rely (t : Thread) (c c' : Client) : Prop :=
  t = .main → c'.comDetails.displayName = c.comDetails.displayName ∧
    c'.comDetails.channelID = c.comDetails.channelID ∧ (InBuffer cfg c → InBuffer cfg c')

/-- What main adds to the queue is well formed. -/
def Allowed (t : Thread) (a : Act) (c : Client) : Prop :=
  t = .main → ∀ buffer flags type, a = .queueAddMessage buffer flags type ∨
    a = .queueAddMessagePriority buffer flags type →
      WellFormed cfg.protocol (c.scratch buffer).bytes

theorem rely_refl (t : Thread) (c : Client) : Rely cfg t c c := fun _ => ⟨rfl, rfl, id⟩

theorem rely_trans (t : Thread) (a b c : Client) (hab : Rely cfg t a b) (hbc : Rely cfg t b c) :
    Rely cfg t a c := by
  intro main
  obtain ⟨name, channel, buffer⟩ := hab main
  obtain ⟨name', channel', buffer'⟩ := hbc main
  exact ⟨name'.trans name, channel'.trans channel, buffer' ∘ buffer⟩

/-- Actions that touch neither the stored names nor the buffer of main. -/
def Neutral : Act → Prop
  | .storeDisplayName _ | .storeChannelID _ => False
  | .bufferResize buffer _ | .assembleProtocol _ buffer _ => buffer ≠ .protocolToSendedByMain
  | _ => True

variable {cfg} {t : Thread} {a : Act} {c c' : Client} {r : a.Answer}

theorem act_neutral (h : c.act t a = .ok r c') (neutral : Neutral a) :
    c'.comDetails.displayName = c.comDetails.displayName ∧
      c'.comDetails.channelID = c.comDetails.channelID ∧
      c'.scratch .protocolToSendedByMain = c.scratch .protocolToSendedByMain := by
  have names := Client.act_names h (by rintro src; constructor <;> rintro rfl <;> exact neutral)
  refine ⟨names.1, names.2, Client.act_scratch h ?_ ?_⟩
  · rintro n rfl
    exact neutral rfl
  · rintro protocol pBlocks rfl
    exact neutral rfl

theorem rely_of_neutral (h : c.act t a = .ok r c') (neutral : Neutral a) (u : Thread) :
    Rely cfg u c c' := by
  obtain ⟨name, channel, buffer⟩ := act_neutral h neutral
  refine fun _ => ⟨name, channel, fun good => ?_⟩
  unfold InBuffer
  rw [buffer]
  exact good

/-- A BYE in the buffer of main is well formed. -/
theorem inBuffer_of_exit {pBlocks : ProtocolBlocks} {result : Except Failure Assembled}
    (exit : uchar2CommandType pBlocks.type = .cmdExit)
    (h : c.act t (.assembleProtocol cfg.protocol .protocolToSendedByMain pBlocks) = .ok result c') :
    InBuffer cfg c' := by
  simp only [Client.act] at h
  split at h
  · rename_i failed
    cases protocol : cfg.protocol <;>
      simp [protocol, assemble, assembleProtocolUDP, assembleProtocolTCP, exit] at failed
  · rename_i run
    cases h
    simpa [InBuffer, Client.setScratch] using wellFormed_exit exit run

/-! ### The other threads -/

/-- What the receiver and the sender do. -/
def Others (cfg : NetworkConfig) (a : Act) : Prop :=
  a.Making cfg ∨ Neutral a

theorem rely_of_others (h : c.act t a = .ok r c') (others : Others cfg a) (u : Thread) :
    Rely cfg u c c' := by
  rcases others with making | neutral
  · by_cases neutral : Neutral a
    · exact rely_of_neutral h neutral u
    · cases a <;> try exact absurd trivial neutral
      case assembleProtocol protocol buffer pBlocks =>
        have main : buffer = .protocolToSendedByMain := by simpa [Neutral] using neutral
        subst main
        have names := Client.act_names h (by simp)
        refine fun _ => ⟨names.1, names.2, fun _ => ?_⟩
        obtain ⟨-, made⟩ := making
        cases cmd : uchar2CommandType pBlocks.type <;> simp only [cmd] at made <;>
          try exact absurd rfl made.2
        subst made
        exact inBuffer_of_exit cmd h
      case bufferResize buffer n => exact absurd making neutral
      case storeDisplayName src => exact making.elim
      case storeChannelID src => exact making.elim
  · exact rely_of_neutral h neutral u

theorem others_safe (other : t ≠ .main) {q : Prog Point} (h : q.Obeys (Others cfg) Act.Truthful)
    (c : Client) : (anyStateMachine cfg).SafeFor Invariant (Allowed cfg) (Rely cfg) t q c := by
  refine Program.safe_of_obeys (fun a c c₁ move others => ?_) h c
  refine ⟨fun main => absurd main other, fun r c₂ ok => ?_, fun c₂ halt => ?_⟩
  · have ok := (Client.perform_ok ok).2
    have names := rely_of_others ok others .main rfl
    refine ⟨⟨?_, fun u _ => rely_of_others ok others u⟩, Client.act_truthful ok⟩
    unfold Invariant
    rw [names.1]
    exact move.1
  · have same := Client.act_halt (Client.perform_halt halt).2
    rw [same]
    exact ⟨move.1, fun u _ _ => ⟨rfl, rfl, id⟩⟩

theorem others_obey (other : t ≠ .main) {p : Point} {q : Prog Point}
    (h : StartsAnyState cfg t p q) : q.Obeys (Others cfg) Act.Truthful := by
  cases h with
  | client h =>
    have usual (a : Act) (h : a.Usual) : Others cfg a := by
      right
      cases a <;> trivial
    have wiring (a : Act) (h : a.Wiring) : Others cfg a := by
      right
      cases a <;> trivial
    exact starts_obeys Program.compositional_obeys (calm_of_usual usual) (usual _ rfl)
      (fun _ => Or.inl) wiring
      (fun _ => Or.inr trivial) (fun _ => Or.inr trivial) (fun _ _ _ => Or.inr trivial)
      (fun _ _ => id)
      (fun _ _ _ _ _ => ⟨Or.inr trivial, Or.inr trivial⟩)
      ⟨Or.inr trivial, fun _ _ _ _ => Or.inr trivial⟩ h other
  | setProgramState newState =>
    exact ⟨Or.inr trivial, fun _ _ => trivial⟩

/-! ### Main -/

section main
variable {α : Type}

/-- A program of main that is safe, returning with `Q`. -/
def MainSafe (cfg : NetworkConfig) (Q : α → Client → Prop) (q : Prog α) (c : Client) : Prop :=
  q.Safe (Client.perform .main) (Allowed cfg .main) (fun c c₁ => Invariant c₁ ∧ Rely cfg .main c c₁)
    (fun c₁ c₂ => Invariant c₂ ∧ ∀ u, u ≠ .main → Rely cfg u c₁ c₂) Q c

variable {Q : α → Client → Prop} {K : Client → Prop}

/-- One action of main, taken in a state that is known to have `K`. -/
theorem main_act {f : a.Answer → Prog α} (stable : ∀ c c', Rely cfg .main c c' → K c → K c')
    (k : K c) (permitted : ∀ c, K c → Allowed cfg .main a c)
    (step : ∀ c r c', Invariant c → K c → c.act .main a = .ok r c' →
      Invariant c' ∧ MainSafe cfg Q (f r) c') : MainSafe cfg Q (take a >>= f) c := by
  have free (c₁ c₂ : Client) (u : Thread) (other : u ≠ .main) : Rely cfg u c₁ c₂ :=
    fun main => absurd main other
  refine Program.safe_perform_bind fun c₁ ⟨inv, move⟩ => ?_
  refine ⟨permitted c₁ (stable c c₁ move k), fun r c₂ ok => ?_, fun c₂ halt => ?_⟩
  · obtain ⟨inv', rest⟩ := step c₁ r c₂ inv (stable c c₁ move k) (Client.perform_ok ok).2
    exact ⟨⟨inv', free c₁ c₂⟩, rest⟩
  · have same := Client.act_halt (Client.perform_halt halt).2
    rw [same]
    exact ⟨inv, fun u other main => absurd main other⟩

/-- Actions that queue nothing. -/
def Quiet (a : Act) : Prop :=
  ∀ buffer flags type, a ≠ .queueAddMessage buffer flags type ∧
    a ≠ .queueAddMessagePriority buffer flags type

theorem allowed_of_quiet (quiet : Quiet a) (c : Client) : Allowed cfg .main a c := by
  rintro - buffer flags type (rfl | rfl)
  · exact absurd rfl (quiet buffer flags type).1
  · exact absurd rfl (quiet buffer flags type).2

/-- What is known of main's names and buffer survives a neutral action. -/
theorem main_neutral {f : a.Answer → Prog α}
    (stable : ∀ c c', Rely cfg .main c c' → K c → K c') (k : K c) (neutral : Neutral a)
    (quiet : Quiet a)
    (rest : ∀ r c', a.Truthful r → K c' → MainSafe cfg Q (f r) c') :
    MainSafe cfg Q (take a >>= f) c := by
  refine main_act stable k (fun c _ => allowed_of_quiet quiet c) fun c r c' inv k ok => ?_
  have names := act_neutral ok neutral
  refine ⟨?_, rest r c' (Client.act_truthful ok) (stable c c' (rely_of_neutral ok neutral .main) k)⟩
  unfold Invariant
  rw [names.1]
  exact inv

/-- Nothing has to be known. -/
theorem main_free {f : a.Answer → Prog α} (neutral : Neutral a) (quiet : Quiet a)
    (rest : ∀ r c', a.Truthful r → MainSafe cfg Q (f r) c') : MainSafe cfg Q (take a >>= f) c :=
  main_neutral (K := fun _ => True) (fun _ _ _ _ => trivial) trivial neutral quiet
    fun r c' truth _ => rest r c' truth

theorem inBuffer_stable (c c' : Client) (move : Rely cfg .main c c') (h : InBuffer cfg c) :
    InBuffer cfg c' := (move rfl).2.2 h

theorem ready_stable {pBlocks : ProtocolBlocks} (c c' : Client) (move : Rely cfg .main c c')
    (h : Ready pBlocks c.comDetails) : Ready pBlocks c'.comDetails := by
  unfold Ready
  rw [(move rfl).2.1]
  exact h

/-- Queueing what is in the buffer. -/
theorem main_queue {f : Unit → Prog α} {flags : MsgFlags} {type : UInt8} (k : InBuffer cfg c)
    (rest : ∀ c', MainSafe cfg Q (f ()) c') :
    MainSafe cfg Q (queueAddMessage .protocolToSendedByMain flags type >>= f) c := by
  refine main_act (a := .queueAddMessage .protocolToSendedByMain flags type) inBuffer_stable k ?_ ?_
  · rintro c k - buffer flags type (eq | eq) <;> cases eq
    exact k
  · intro c r c' inv k ok
    refine ⟨?_, rest c'⟩
    unfold Invariant
    rw [(act_neutral ok trivial).1]
    exact inv

theorem main_last {a : Act} (neutral : Neutral a) (quiet : Quiet a) (c : Client) :
    MainSafe cfg (fun _ _ => True) (take a) c :=
  main_free (f := pure) neutral quiet fun _ _ _ => trivial

theorem sendBye_safe (c : Client) : MainSafe cfg (fun _ _ => True) (sendBye cfg) c := by
  unfold sendBye
  refine main_free trivial (by simp [Quiet]) fun _ c _ => ?_
  refine main_act (K := fun _ => True) (fun _ _ _ _ => trivial) trivial
    (fun c _ => allowed_of_quiet (by simp [Quiet]) c) fun c r c' inv _ ok => ?_
  refine ⟨?_, main_queue (inBuffer_of_exit rfl ok) fun c' =>
    main_last (a := .queueUnlock) trivial (by simp [Quiet]) c'⟩
  unfold Invariant
  rw [(Client.act_names ok (by simp)).1]
  exact inv

theorem errHandling_safe (f : Failure) (c : Client) :
    MainSafe cfg (fun _ _ => True) (errHandling cfg f : Prog α) c := by
  have destroyed (e : ErrorCode) (c : Client) : MainSafe cfg (fun _ _ => True)
      (safePrint ("ERR: " ++ f.msg ++ "\n") >>= fun _ => exit e : Prog α) c := by
    refine main_free trivial (by simp [Quiet]) fun _ c _ => ?_
    exact main_free (a := .exit e) (f := fun none => none.elim) trivial (by simp [Quiet])
      fun none => none.elim
  have waits (c : Client) : MainSafe cfg (fun _ _ => True) (do
      setProgramState .fsmErr
      safePrint ("ERR: " ++ f.msg ++ "\n")
      pthreadCondSignal .mainCond
      queueLock
      queuePopAllMessages
      queueUnlock
      sendBye cfg
      park : Prog α) c := by
    iterate 6 refine main_free trivial (by simp [Quiet]) fun _ c _ => ?_
    refine Program.safe_bind (sendBye_safe c) fun _ c _ => ?_
    exact main_free (a := .park) (f := fun none => none.elim) trivial (by simp [Quiet])
      fun none => none.elim
  unfold errHandling
  split
  · exact waits c
  · exact waits c
  · exact destroyed _ c

theorem filterCommandsByFSM_safe {pBlocks : ProtocolBlocks} (flags : MsgFlags)
    (accepted : Accepted pBlocks) (c : Client) :
    MainSafe cfg (fun result c => result.1 = true →
        Sendable (fun _ _ => True) pBlocks ∧ Ready pBlocks c.comDetails)
      (filterCommandsByFSM pBlocks flags) c := by
  have refuse (text : String) (c : Client) : MainSafe cfg (fun result c => result.1 = true →
        Sendable (fun _ _ => True) pBlocks ∧ Ready pBlocks c.comDetails)
      (safePrint text >>= fun _ => pure (false, flags)) c :=
    main_free trivial (by simp [Quiet]) fun _ c _ => nofun
  unfold Accepted at accepted
  unfold filterCommandsByFSM
  cases cmd : uchar2CommandType pBlocks.type <;> simp only [cmd] at accepted ⊢
  case cmdAuth =>
    refine main_act (K := fun _ => True) (fun _ _ _ _ => trivial) trivial
      (fun c _ => allowed_of_quiet (by simp [Quiet]) c) fun c r c' inv _ ok => ?_
    cases ok
    refine ⟨Or.inr (storeName_stored accepted.2.2), ?_⟩
    refine main_free trivial (by simp [Quiet]) fun state c _ => ?_
    split
    · refine main_free trivial (by simp [Quiet]) fun _ c _ => ?_
      exact fun _ => ⟨by simp [Sendable, cmd], by simp [Ready, cmd]⟩
    · exact refuse _ c
  case cmdJoin =>
    refine main_free trivial (by simp [Quiet]) fun state c _ => ?_
    split
    · refine main_act (K := fun _ => True) (fun _ _ _ _ => trivial) trivial
        (fun c _ => allowed_of_quiet (by simp [Quiet]) c) fun c r c' inv _ ok => ?_
      cases ok
      refine ⟨inv, fun _ => ⟨by simp [Sendable, cmd], fun _ => ?_⟩⟩
      exact storeName_stored accepted
    · exact refuse _ c
  case cmdRename =>
    refine main_free trivial (by simp [Quiet]) fun state c _ => ?_
    split
    · refine main_act (K := fun _ => True) (fun _ _ _ _ => trivial) trivial
        (fun c _ => allowed_of_quiet (by simp [Quiet]) c) fun c r c' inv _ ok => ?_
      cases ok
      exact ⟨Or.inr (storeName_stored accepted), nofun⟩
    · exact refuse _ c
  case cmdMsg =>
    refine main_free trivial (by simp [Quiet]) fun state c _ => ?_
    split
    · exact fun _ => ⟨by simp [Sendable, cmd], by simp [Ready, cmd]⟩
    · exact refuse _ c
  case cmdHelp => exact main_free trivial (by simp [Quiet]) fun _ c _ => nofun
  case cmdExit => exact fun _ => ⟨by simp [Sendable, cmd], by simp [Ready, cmd]⟩
  case cmdNone => exact nofun
  case cmdMissing => exact main_free trivial (by simp [Quiet]) fun _ c _ => nofun

theorem enqueueCommand_safe (flags : MsgFlags) (type : UInt8) {c : Client} (k : InBuffer cfg c) :
    MainSafe cfg (fun _ _ => True) (enqueueCommand flags type) c := by
  unfold enqueueCommand
  refine main_neutral inBuffer_stable k trivial (by simp [Quiet]) fun _ c _ k => ?_
  refine main_neutral inBuffer_stable k trivial (by simp [Quiet]) fun signalSender c _ k => ?_
  refine main_queue k fun c => ?_
  refine Program.safe_bind (Q := fun _ _ => True) ?_ fun _ c _ => ?_
  · unfold signalSenderIf
    split
    · exact main_last (a := .signal .senderEmptyQueueCond) trivial (by simp [Quiet]) c
    · trivial
  · refine main_free trivial (by simp [Quiet]) fun _ c _ => ?_
    split
    · refine main_free trivial (by simp [Quiet]) fun _ c _ => ?_
      exact main_last (a := .signal .senderEmptyQueueCond) trivial (by simp [Quiet]) c
    · trivial

theorem assembleCommand_safe {pBlocks : ProtocolBlocks} (flags : MsgFlags)
    (accepted : Accepted pBlocks) (sendable : Sendable (fun _ _ => True) pBlocks) {c : Client}
    (ready : Ready pBlocks c.comDetails) :
    MainSafe cfg (fun _ _ => True) (assembleCommand cfg pBlocks flags) c := by
  unfold assembleCommand
  refine main_act (K := fun c => Ready pBlocks c.comDetails) ready_stable ready
    (fun c _ => allowed_of_quiet (by simp [Quiet]) c) fun c r c' inv ready ok => ?_
  simp only [Client.act] at ok
  split at ok <;> cases ok
  · exact ⟨inv, errHandling_safe _ c⟩
  · rename_i r run
    refine ⟨inv, ?_⟩
    change MainSafe cfg _ (if r.canBeSended = true then _ else _ : Prog Unit) _
    split
    · apply enqueueCommand_safe
      simpa [InBuffer, Client.setScratch] using
        assemble_wellFormed accepted sendable inv ready run ‹_›
    · trivial

theorem userCommandHandling_safe (eofDetected : Bool) (stdin : List UInt8) (c : Client) :
    MainSafe cfg (fun _ _ => True) (userCommandHandling cfg eofDetected stdin) c := by
  unfold userCommandHandling
  refine main_free trivial (by simp [Quiet]) fun state c _ => ?_
  split
  · split
    · refine main_free trivial (by simp [Quiet]) fun _ c _ => ?_
      refine Program.safe_bind (sendBye_safe c) fun _ c _ => ?_
      exact main_free trivial (by simp [Quiet]) fun _ c _ => trivial
    · refine main_free trivial (by simp [Quiet]) fun loaded c zero => ?_
      refine Program.safe_bind (Q := fun _ _ => True) ?_ fun _ c _ => trivial
      have accepted := (userInputToCmds_accepted { loaded.buffer with used := loaded.used }
        .msgFlagNone zero (.reset CommandType.cmdNone.toUChar)).1
      unfold handleLine
      refine Program.safe_bind (Q := fun _ _ => True) ?_ fun _ c _ => ?_
      · unfold printComplaint
        split
        · exact main_last (a := .print _) trivial (by simp [Quiet]) c
        · trivial
      · refine Program.safe_bind (filterCommandsByFSM_safe _ accepted c) fun result c sent => ?_
        change MainSafe cfg _ (if result.1 = true then _ else _ : Prog Unit) c
        split
        · rename_i yes
          exact assembleCommand_safe _ accepted (sent yes).1 (sent yes).2
        · trivial
  · trivial

end main

end WellFormed

/-- **Everything main queues is one well-formed message.** -/
theorem main_well_formed {cfg : NetworkConfig} {heap : Nat → Memory} {ipAddress : Buffer}
    {s : Threads Thread Client Act.Answer Point}
    (reached : (anyStateMachine cfg).Reachable
      (initialThreads (programInterfaceInit heap ipAddress)) s)
    {a : Act} {next : a.Answer → Prog Point} (code : s.code .main = some (.act a next))
    {buffer : Scratch} {flags : MsgFlags} {type : UInt8}
    (queues : a = .queueAddMessage buffer flags type ∨
      a = .queueAddMessagePriority buffer flags type) :
    WellFormed cfg.protocol (s.shared.newMessage buffer flags type).buffer ∧
      SingleMessage cfg.protocol (s.shared.newMessage buffer flags type).buffer := by
  obtain ⟨inv, safe⟩ := Machine.invariant_of_safe (m := anyStateMachine cfg)
    WellFormed.Invariant (WellFormed.Allowed cfg) (WellFormed.Rely cfg)
    (WellFormed.rely_refl cfg) (WellFormed.rely_trans cfg)
    (fun t p q c start _ => by
      by_cases main : t = .main
      · subst main
        cases start with
        | client start =>
          cases start with
          | userCommandHandling eofDetected stdin =>
            exact WellFormed.userCommandHandling_safe eofDetected stdin c
      · exact WellFormed.others_safe main (WellFormed.others_obey main start) c)
    reached (Or.inl rfl) (fun t q idle => by cases idle; trivial)
  have allowed := Machine.allowed_of_safeFor (WellFormed.rely_refl cfg) inv (safe .main _ code)
  have good : WellFormed cfg.protocol (s.shared.newMessage buffer flags type).buffer :=
    allowed rfl buffer flags type queues
  exact ⟨good, wellFormed_single good⟩

/-- The program is about to add a message to the queue. -/
def queuesNext : Prog Point → Bool
  | .act (.queueAddMessage _ _ _) _ => true
  | _ => false

/-- The AUTH of `/auth u s d` on its way into the queue. -/
theorem main_well_formed_auth :
    ∃ s, (anyStateMachine ⟨.protTCP, 3⟩).Reachable
        (initialThreads (programInterfaceInit (fun _ _ => 0xC4) ⟨some fun _ => 0, 10, 10⟩)) s ∧
      ∃ buffer flags type next,
        s.code .main = some (.act (.queueAddMessage buffer flags type) next) ∧
        WellFormed .protTCP (s.shared.newMessage buffer flags type).buffer ∧
        SingleMessage .protTCP (s.shared.newMessage buffer flags type).buffer := by
  obtain ⟨s, t, q, reached, code, good⟩ := reachable_of_playInto ⟨.protTCP, 3⟩
    (fun _ _ => 0xC4) ⟨some fun _ => 0, 10, 10⟩ [] (.main (ascii "/auth u s d\n")) 8
    (fun (t, q, _) => t == .main && queuesNext q) (by decide +kernel)
  simp only [Bool.and_eq_true, beq_iff_eq] at good
  obtain ⟨rfl, queues⟩ := good
  have any : (anyStateMachine ⟨.protTCP, 3⟩).Reachable
      (initialThreads (programInterfaceInit (fun _ _ => 0xC4) ⟨some fun _ => 0, 10, 10⟩)) s :=
    Machine.Reachable.mono (m := machine ⟨.protTCP, 3⟩) (anyStateMachine ⟨.protTCP, 3⟩) rfl
      (fun _ _ _ start => .client start) reached
  unfold queuesNext at queues
  split at queues
  · exact ⟨s, any, _, _, _, _, code, main_well_formed any code (Or.inl rfl)⟩
  · cases queues

end Ipk24Chat
