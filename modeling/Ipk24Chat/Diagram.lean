import Ipk24Chat.Causes
import Ipk24Chat.Footprint
import Ipk24Chat.SenderPass

/-!
# The state machines of the documentation

The documentation draws a state machine for each variant. Here are the transitions that the
code takes, by the threads that take them, and the functions that take none but to the error.

* `Takes`: the transitions of the code; `takes_drawn` compares them with the drawings;
* `Diagram.Follows`: what a program has to know of the states it has read, for the states it
  writes.
-/

namespace Ipk24Chat

/-- The transitions that the diagrams of the documentation draw. -/
inductive Drawn : Protocols → Fsm → Fsm → Prop where
  | start (p : Protocols) : Drawn p .fsmStart .fsmStart
  | auth (p : Protocols) : Drawn p .fsmStart .fsmAuthW82BeSended
  | authSended (p : Protocols) : Drawn p .fsmAuthW82BeSended .fsmAuthSended
  | authConfirmed : Drawn .protUDP .fsmAuthSended .fsmW84Reply
  | replied : Drawn .protUDP .fsmW84Reply .fsmW84ReplyConf
  | replyConfirmed : Drawn .protUDP .fsmW84ReplyConf .fsmOpen
  | repliedTCP : Drawn .protTCP .fsmAuthSended .fsmOpen
  | message (p : Protocols) : Drawn p .fsmOpen .fsmOpen
  | join (p : Protocols) : Drawn p .fsmOpen .fsmJoinAtempt
  | joinReplied (p : Protocols) : Drawn p .fsmJoinAtempt .fsmOpen
  | error (p : Protocols) : Drawn p .fsmOpen .fsmErr
  | sigint (p : Protocols) : Drawn p .fsmOpen .fsmSigintBye
  | exit (p : Protocols) : Drawn p .fsmOpen .fsmEmptyQBye
  | bye (p : Protocols) : Drawn p .fsmOpen .fsmEnd
  | emptied (p : Protocols) : Drawn p .fsmEmptyQBye .fsmEnd
  | sigintEmptied (p : Protocols) : Drawn p .fsmSigintBye .fsmEnd
  | errorSended : Drawn .protUDP .fsmErr .fsmErrW84Conf
  | errorConfirmed : Drawn .protUDP .fsmErrW84Conf .fsmEndW84Conf
  | byeConfirmed : Drawn .protUDP .fsmEndW84Conf .fsmEnd
  | errorSendedTCP : Drawn .protTCP .fsmErr .fsmEnd

/-- Those of the code that they leave out: errors, a BYE and the end of the input in other
states than the open one, refused requests, and short cuts. -/
inductive Undrawn : Protocols → Fsm → Fsm → Prop where
  | error (p : Protocols) (state : Fsm) : Undrawn p state .fsmErr
  | bye (p : Protocols) (state : Fsm) : Undrawn p state .fsmEnd
  | exit (p : Protocols) {state : Fsm} (early : state.toNat < Fsm.fsmEmptyQBye.toNat) :
      Undrawn p state .fsmEmptyQBye
  | authSended (p : Protocols) : Undrawn p .fsmStart .fsmAuthSended
  | authRefused : Undrawn .protUDP .fsmW84Reply .fsmStart
  | authRefusedTCP : Undrawn .protTCP .fsmAuthSended .fsmStart
  | joinRefused (p : Protocols) : Undrawn p .fsmJoinAtempt .fsmStart
  | joinAccepted : Undrawn .protUDP .fsmJoinAtempt .fsmW84ReplyConf
  | byeAtOnce : Undrawn .protUDP .fsmErr .fsmEndW84Conf
  | again (p : Protocols) (state : Fsm) : Undrawn p state state

/-- The transitions of the code. -/
inductive Takes (cfg : NetworkConfig) : Thread → Fsm → Fsm → Prop where
  | auth : Takes cfg .main .fsmStart .fsmAuthW82BeSended
  | exit {state : Fsm} (early : state.toNat < Fsm.fsmEmptyQBye.toNat) :
      Takes cfg .main state .fsmEmptyQBye
  | error (t : Thread) (state : Fsm) : Takes cfg t state .fsmErr
  | authSended {state : Fsm} (early : state = .fsmStart ∨ state = .fsmAuthW82BeSended) :
      Takes cfg .sender state .fsmAuthSended
  | replyConfirmed : Takes cfg .sender .fsmW84ReplyConf .fsmOpen
  | join : Takes cfg .sender .fsmOpen .fsmJoinAtempt
  | errorSended {state : Fsm} (udp : cfg.protocol = .protUDP)
      (error : state = .fsmErr ∨ state = .fsmErrW84Conf) : Takes cfg .sender state .fsmErrW84Conf
  | byeSended {state : Fsm} (udp : cfg.protocol = .protUDP)
      (error : state = .fsmErr ∨ state = .fsmErrW84Conf) : Takes cfg .sender state .fsmEndW84Conf
  | byeSendedTCP {state : Fsm} (error : state = .fsmErr ∨ state = .fsmErrW84Conf) :
      Takes cfg .sender state .fsmEnd
  | byeTimedOut : Takes cfg .sender .fsmEndW84Conf .fsmEnd
  | emptied {state : Fsm} (leaving : state = .fsmEmptyQBye ∨ state = .fsmSigintBye) :
      Takes cfg .sender state .fsmEnd
  | authConfirmed (udp : cfg.protocol = .protUDP) : Takes cfg .receiver .fsmAuthSended .fsmW84Reply
  | replied {state : Fsm} (udp : cfg.protocol = .protUDP)
      (waits : state = .fsmW84Reply ∨ state = .fsmJoinAtempt) :
      Takes cfg .receiver state .fsmW84ReplyConf
  | refused {state : Fsm} (waits : state = cfg.acceptState ∨ state = .fsmJoinAtempt) :
      Takes cfg .receiver state .fsmStart
  | joinReplied : Takes cfg .receiver .fsmJoinAtempt .fsmOpen
  | repliedTCP (tcp : cfg.protocol = .protTCP) : Takes cfg .receiver .fsmAuthSended .fsmOpen
  | bye (state : Fsm) : Takes cfg .receiver state .fsmEnd

/-- Some states are for the UDP variant only. -/
def NetworkConfig.has (cfg : NetworkConfig) (state : Fsm) : Bool :=
  match cfg.protocol with
  | .protUDP => true
  | .protTCP => match state with
    | .fsmW84Reply | .fsmW84ReplyConf | .fsmErrW84Conf | .fsmEndW84Conf => false
    | _ => true

theorem NetworkConfig.has_of_udp {cfg : NetworkConfig} (udp : cfg.protocol = .protUDP)
    (state : Fsm) : cfg.has state = true := by
  unfold NetworkConfig.has
  rw [udp]

/-- The code stays among the states of its variant. -/
theorem takes_has {cfg : NetworkConfig} {t : Thread} {x y : Fsm} (takes : Takes cfg t x y) :
    cfg.has y = true := by
  cases protocol : cfg.protocol with
  | protUDP => exact NetworkConfig.has_of_udp protocol y
  | protTCP =>
    unfold NetworkConfig.has
    cases takes <;> simp_all

/-- The code takes no other transitions than these. -/
theorem takes_drawn {cfg : NetworkConfig} {t : Thread} {x y : Fsm} (takes : Takes cfg t x y)
    (own : cfg.has x = true) : Drawn cfg.protocol x y ∨ Undrawn cfg.protocol x y := by
  cases takes with
  | auth => exact Or.inl (.auth _)
  | exit early => exact Or.inr (.exit _ early)
  | error t state => exact Or.inr (.error _ _)
  | authSended early =>
    rcases early with rfl | rfl
    · exact Or.inr (.authSended _)
    · exact Or.inl (.authSended _)
  | replyConfirmed =>
    cases protocol : cfg.protocol with
    | protUDP => exact Or.inl .replyConfirmed
    | protTCP => simp [NetworkConfig.has, protocol] at own
  | join => exact Or.inl (.join _)
  | errorSended udp error =>
    rcases error with rfl | rfl
    · exact Or.inl (udp ▸ .errorSended)
    · exact Or.inr (.again _ _)
  | byeSended udp error =>
    rcases error with rfl | rfl
    · exact Or.inr (udp ▸ .byeAtOnce)
    · exact Or.inl (udp ▸ .errorConfirmed)
  | authConfirmed udp => exact Or.inl (udp ▸ .authConfirmed)
  | replied udp waits =>
    rcases waits with rfl | rfl
    · exact Or.inl (udp ▸ .replied)
    · exact Or.inr (udp ▸ .joinAccepted)
  | refused waits =>
    rcases waits with rfl | rfl
    · unfold NetworkConfig.acceptState
      cases cfg.protocol with
      | protUDP => exact Or.inr .authRefused
      | protTCP => exact Or.inr .authRefusedTCP
    · exact Or.inr (.joinRefused _)
  | joinReplied => exact Or.inl (.joinReplied _)
  | repliedTCP tcp => exact Or.inl (tcp ▸ .repliedTCP)
  | byeSendedTCP | byeTimedOut | emptied | bye => exact Or.inr (.bye _ _)

/-! ## What the programs read -/

/-- The program state as a variable. -/
def fsmVariable : Variable Client Act.Answer Fsm where
  value c := c.fsmState
  reads
    | .getProgramState, state => some state
    | _, _ => none
  writes
    | .setProgramState newState => some newState
    | _ => none

theorem fsm_honest (t : Thread) : fsmVariable.Honest Act.Truthful (Client.perform t) where
  answered effect := Client.act_truthful (Client.perform_ok effect).2
  read := by
    intro a c r c' effect x hx
    cases a <;> cases hx
    cases (Client.perform_ok effect).2
    rfl
  written := by
    intro a c r c' effect
    have moved := Client.act_fsmState (Client.perform_ok effect).2
    cases a <;> exact moved
  halted := by
    intro a c c' effect
    rw [Client.act_halt (Client.perform_halt effect).2]
    rfl

namespace Diagram

variable {cfg : NetworkConfig} {t : Thread} {α β : Type} {K K' M : List Fsm → Prop}

/-- From what is known of the states that were read, the transitions of the program are those
of the thread, and something is known at its end. -/
def Follows (cfg : NetworkConfig) (t : Thread) (K : List Fsm → Prop) (p : Prog α)
    (K' : List Fsm → Prop) : Prop :=
  fsmVariable.Infers Act.Truthful (Takes cfg t) K p K'

/-- Some state was read. -/
def Read (seen : List Fsm) : Prop := seen ≠ []

theorem read_lasting : Traffic.Lasting Read := Traffic.lasting_ne_nil

theorem follows_rules (cfg : NetworkConfig) (t : Thread) (lasting : Traffic.Lasting K) :
    Program.Compositional (fun a => fsmVariable.writes a = none) Act.Truthful
      fun {α} (p : Prog α) => Follows cfg t K p K :=
  Traffic.compositional_infers lasting.more

theorem follows_bind {p : Prog α} {f : α → Prog β} (hp : Follows cfg t K p M)
    (hf : ∀ a, Follows cfg t M (f a) K') : Follows cfg t K (p >>= f) K' :=
  Traffic.infers_bind hp hf

theorem follows_ret (a : α) (weaker : ∀ seen, K seen → K' seen) :
    Follows cfg t K (pure a) K' := weaker

theorem minds_state {Q : α → List Fsm → Prop} {f : Fsm → Prog α} {seen : List Fsm}
    (rest : ∀ state, fsmVariable.Minds Act.Truthful (Takes cfg t) Q (state :: seen) (f state)) :
    fsmVariable.Minds Act.Truthful (Takes cfg t) Q seen (getProgramState >>= f) := by
  constructor
  · rintro y ⟨⟩
  · intro state _
    exact rest state

/-- The state that is read is known behind. -/
theorem state_then {f : Fsm → Prog α} (rest : ∀ state, Follows cfg t (state ∈ ·) (f state) K') :
    Follows cfg t K (getProgramState >>= f) K' := by
  intro seen _
  apply minds_state
  intro state
  exact rest state (state :: seen) List.mem_cons_self

/-- What was known before is known as well. -/
theorem state_with (lasting : Traffic.Lasting K) {f : Fsm → Prog α}
    (rest : ∀ state, Follows cfg t (fun seen => state ∈ seen ∧ K seen) (f state) K') :
    Follows cfg t K (getProgramState >>= f) K' := by
  intro seen known
  apply minds_state
  intro state
  exact rest state (state :: seen) ⟨List.mem_cons_self, lasting.more known⟩

theorem move_then {newState : Fsm} {f : Unit → Prog α}
    (follows : ∀ seen, K seen → ∃ x ∈ seen, Takes cfg t x newState)
    (rest : Follows cfg t (newState ∈ ·) (f ()) K') :
    Follows cfg t K (setProgramState newState >>= f) K' :=
  Traffic.infers_write rfl follows fun _ => rest

theorem move_only {newState : Fsm} (follows : ∀ seen, K seen → ∃ x ∈ seen, Takes cfg t x newState)
    (weaker : ∀ seen, newState ∈ seen → K' seen) :
    Follows cfg t K (setProgramState newState) K' :=
  Traffic.infers_write rfl follows fun _ => weaker

/-- A transition from a state that was read. -/
theorem from_known {x y : Fsm} (takes : Takes cfg t x y) (seen : List Fsm) (known : x ∈ seen) :
    ∃ x ∈ seen, Takes cfg t x y := ⟨x, known, takes⟩

/-! ## What moves no state, or to the error only -/

section
variable (lasting : Traffic.Lasting K)
include lasting

theorem read_of_lasting (seen : List Fsm) (known : K seen) : Read seen := lasting.given known

/-- An error follows from every state. -/
theorem errors (seen : List Fsm) (known : K seen) : ∃ x ∈ seen, Takes cfg t x .fsmErr := by
  obtain ⟨x, hx⟩ := List.exists_mem_of_ne_nil seen (lasting.given known)
  exact ⟨x, hx, .error t x⟩

theorem quiet_then {a : Act} {f : a.Answer → Prog α} (quiet : fsmVariable.writes a = none)
    (rest : ∀ r, Follows cfg t K (f r) K') : Follows cfg t K (take a >>= f) K' := by
  have once : Follows cfg t K (take a) K := (follows_rules cfg t lasting).performed quiet
  exact follows_bind once rest

theorem quiet_only {a : Act} (quiet : fsmVariable.writes a = none) :
    Follows cfg t K (take a) K := (follows_rules cfg t lasting).performed quiet

theorem quiet_last {a : Act} (quiet : fsmVariable.writes a = none) :
    Follows cfg t K (take a) Read :=
  Traffic.infers_mono (quiet_only lasting quiet) (fun _ => id) (read_of_lasting lasting)

theorem sendBye_follows : Follows cfg t K (sendBye cfg) K := by
  unfold sendBye
  apply quiet_then lasting rfl
  intro _
  apply quiet_then lasting rfl
  intro _
  apply quiet_then lasting rfl
  intro _
  exact quiet_only lasting rfl

/-- An internal error never returns. -/
theorem errHandling_follows (f : Failure) : Follows cfg t K (errHandling cfg f : Prog α) K' := by
  have calls : Follows cfg t K (errHandling cfg f : Prog α) Read := by
    have stops : Follows cfg t K (do
        setProgramState .fsmErr
        safePrint ("ERR: " ++ f.msg ++ "\n")
        pthreadCondSignal .mainCond
        queueLock
        queuePopAllMessages
        queueUnlock
        sendBye cfg
        park : Prog α) Read := by
      have error : Traffic.Lasting (Fsm.fsmErr ∈ ·) := Traffic.lasting_mem _
      apply move_then (errors lasting)
      iterate 5
        apply quiet_then error rfl
        intro _
      apply follows_bind (sendBye_follows error)
      intro _
      exact Traffic.infers_act rfl fun none => none.elim
    unfold errHandling
    split
    · exact stops
    · exact stops
    · apply quiet_then lasting rfl
      intro _
      exact Traffic.infers_act rfl fun none => none.elim
  exact Traffic.infers_of_never (errHandling_results _ f) calls

theorem sendConfirm_follows (serverResponse : Buffer) (flags : MsgFlags) :
    Follows cfg t K (sendConfirm cfg serverResponse flags) K := by
  unfold sendConfirm
  apply quiet_then lasting rfl
  intro _
  apply quiet_then lasting rfl
  intro result
  cases result with
  | error f => exact errHandling_follows lasting f
  | ok r =>
    simp only
    split
    · exact quiet_only lasting rfl
    · exact errHandling_follows lasting _

theorem lockedConfirm_follows (serverResponse : Buffer) :
    Follows cfg t K (lockedConfirm cfg serverResponse) K := by
  unfold lockedConfirm
  apply quiet_then lasting rfl
  intro _
  apply follows_bind (sendConfirm_follows lasting _ _)
  intro _
  exact quiet_only lasting rfl

theorem sendError_follows (buffer : Scratch) (text : String) :
    Follows cfg t K (sendError cfg buffer text) K := by
  unfold sendError
  apply quiet_then lasting rfl
  intro comDetails
  apply quiet_then lasting rfl
  intro _
  apply quiet_then lasting rfl
  intro result
  cases result with
  | error f => exact errHandling_follows lasting f
  | ok r =>
    apply quiet_then lasting rfl
    intro _
    split
    · apply quiet_then lasting rfl
      intro _
      exact quiet_only lasting rfl
    · exact errHandling_follows lasting _

theorem wakeSender_follows : Follows cfg t K wakeSender K := by
  unfold wakeSender
  apply quiet_then lasting rfl
  intro _
  exact quiet_only lasting rfl

theorem printIncomingMessage_follows (pBlocks : ProtocolBlocks) :
    Follows cfg t K (printIncomingMessage cfg pBlocks) K := by
  unfold printIncomingMessage
  simp only
  split
  · exact errHandling_follows lasting _
  · exact quiet_only lasting rfl

theorem repetitive_follows (pBlocks : ProtocolBlocks) (serverResponse : Buffer) :
    Follows cfg t K (repetitive cfg pBlocks serverResponse) K := by
  unfold repetitive
  apply quiet_then lasting rfl
  intro _
  apply quiet_then lasting rfl
  intro seen
  split
  · apply quiet_then lasting rfl
    intro _
    exact follows_ret _ fun _ => id
  · split
    · exact errHandling_follows lasting _
    · apply quiet_then lasting rfl
      intro _
      apply quiet_then lasting rfl
      intro _
      exact follows_ret _ fun _ => id

omit lasting in
theorem inUDP_follows {p : Prog Unit} (hp : Follows cfg t K p K) :
    Follows cfg t K (inUDP cfg p) K := by
  unfold inUDP
  split
  · exact hp
  · exact follows_ret _ fun _ => id

theorem messageWasSended_follows (msgToBeSend : MsgPtr) (flags : MsgFlags) :
    Follows cfg t K (messageWasSended cfg msgToBeSend flags) K := by
  unfold messageWasSended
  split
  · split <;> exact quiet_only lasting rfl
  · apply quiet_then lasting rfl
    intro m
    split
    · apply quiet_then lasting rfl
      intro _
      exact quiet_only lasting rfl
    · exact quiet_only lasting rfl

theorem sendHead_follows (bytesTx : Int) : Follows cfg t K (sendHead cfg bytesTx) K := by
  unfold sendHead
  apply quiet_then lasting rfl
  intro msgToBeSend
  have labelled : Follows cfg t K (labelMessage cfg) K := by
    unfold labelMessage
    split <;> exact quiet_only lasting rfl
  apply follows_bind labelled
  intro _
  apply quiet_then lasting rfl
  intro _
  apply quiet_then lasting rfl
  intro flags
  split
  · exact errHandling_follows lasting _
  · apply follows_bind (messageWasSended_follows lasting _ _)
    intro _
    apply quiet_then lasting rfl
    intro _
    exact follows_ret _ fun _ => id

/-- Both ends on an error tell the server and say goodbye. -/
theorem requestTimedOut_follows : Follows cfg t K (requestTimedOut cfg) Read := by
  have error : Traffic.Lasting (Fsm.fsmErr ∈ ·) := Traffic.lasting_mem _
  unfold requestTimedOut
  apply quiet_then lasting rfl
  intro _
  apply quiet_then lasting rfl
  intro _
  apply move_then (errors lasting)
  apply quiet_then error rfl
  intro _
  apply follows_bind (sendError_follows error _ _)
  intro _
  apply follows_bind (sendBye_follows error)
  intro _
  apply quiet_then error rfl
  intro _
  exact quiet_last error rfl

theorem unknownMessage_follows (serverResponse : Buffer) :
    Follows cfg t K (unknownMessage cfg serverResponse) Read := by
  have error : Traffic.Lasting (Fsm.fsmErr ∈ ·) := Traffic.lasting_mem _
  unfold unknownMessage
  apply move_then (errors lasting)
  iterate 3
    apply quiet_then error rfl
    intro _
  apply follows_bind (inUDP_follows (sendConfirm_follows error _ _))
  intro _
  apply follows_bind (sendError_follows error _ _)
  intro _
  apply follows_bind (sendBye_follows error)
  intro _
  apply follows_bind (wakeSender_follows error)
  intro _
  apply quiet_then error rfl
  intro _
  exact quiet_last error rfl

end

end Diagram

end Ipk24Chat
