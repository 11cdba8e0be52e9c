import Ipk24Chat.Footprint

/-!
# The end of the program

Each thread tests the state and writes it later without another look. Once the
state is `fsm_END`, only a thread that tested it before can write another one.

* `Rests`: code that writes no other state, if it sees the end in every test;
* `Settles`: code that rests from where it sets the end itself;
* `end_absorbing`: the end is never left, in every run in which it is set while the
  other threads are not inside a pass, apart from main that waits for a line and from the
  sender where it has no write left that a test behind does not prevent.
-/

namespace Ipk24Chat

/-- The line is the command `/exit`. -/
def exitLine (loaded : Loaded) : Bool :=
  uchar2CommandType (userInputToCmds { loaded.buffer with used := loaded.used }
    (.reset CommandType.cmdNone.toUChar) .msgFlagNone).pBlocks.type = .cmdExit

/-- In the end, main reads no `/exit` and the filter meets no message that timed out. -/
def heedsEnd (cfg : NetworkConfig) (_ : Thread) : Act → Client → Bool
  | .loadBufferFromStdin eofDetected stdin, c =>
    c.fsmState ≠ .fsmEnd ||
      !exitLine (loadBufferFromStdin c.fresh c.clientInput eofDetected stdin)
  | .queueGetSendedCounter, c =>
    c.fsmState ≠ .fsmEnd || c.sendingQueue.head?.all (·.sendCount ≤ cfg.udpMaxRetries.val)
  | _, _ => true

/-- Main behind its test of the state: it waits for a line and handles it. -/
def readLine (cfg : NetworkConfig) (stdin : List UInt8) : Prog Point := do
  let loaded ← take (.loadBufferFromStdin false stdin)
  handleLine cfg { loaded.buffer with used := loaded.used }
  pure (.userCommandHandling loaded.eofDetected)

namespace Absorbing

/-- The only state that is written in the end. -/
def KeepsEnd (a : Act) : Prop := ∀ state, a = .setProgramState state → state = .fsmEnd

/-- What is seen in the end. -/
def EndAnswers (cfg : NetworkConfig) : (a : Act) → a.Answer → Prop
  | .getProgramState, state => state = .fsmEnd
  | .queueGetSendedCounter, sended => sended ≤ cfg.udpMaxRetries.val
  | .loadBufferFromStdin _ _, loaded => exitLine loaded = false
  | _, _ => True

/-- The program writes no other state if it is run in the end, and returns `ok` values. -/
def Rests (cfg : NetworkConfig) {α : Type} : Prog α → (α → Prop) → Prop
  | .ret a, ok => ok a
  | .act a next, ok => KeepsEnd a ∧ ∀ r, EndAnswers cfg a r → Rests cfg (next r) ok

end Absorbing

open Absorbing in
/-- The thread has ended, or is between two pieces of its code. Main may also wait for a
line; the sender may be anywhere in its pass where no write of another state is left that
does not hang on a test to come. -/
def BetweenPasses (cfg : NetworkConfig) (t : Thread) (code : Option (Prog Point)) : Prop :=
  ∀ q, code = some q →
    (∃ p, q = .ret p) ∨ (t = .main ∧ ∃ stdin, q = readLine cfg stdin) ∨
      t = .sender ∧ Rests cfg q fun _ => True

/-- The end is set while the other threads are between their passes. -/
def EndsAlone (cfg : NetworkConfig) (s : Threads Thread Client Act.Answer Point) (t : Thread)
    (a : Act) : Prop :=
  a = .setProgramState .fsmEnd → ∀ u, u ≠ t → BetweenPasses cfg u (s.code u)

namespace Absorbing

/-- From where the program sets the end it rests, and returns `ok` values then. -/
def Settles (cfg : NetworkConfig) {α : Type} : Prog α → (α → Prop) → Prop
  | .ret _, _ => True
  | .act a next, ok =>
    (a = .setProgramState .fsmEnd → ∀ r, Rests cfg (next r) ok) ∧
      (a ≠ .setProgramState .fsmEnd → ∀ r, a.Truthful r → Settles cfg (next r) ok)

section
variable {cfg : NetworkConfig} {α β : Type}

theorem rests_bind {q : Prog α} {f : α → Prog β} {ok : α → Prop} {ok' : β → Prop}
    (hq : Rests cfg q ok) (hf : ∀ a, ok a → Rests cfg (f a) ok') : Rests cfg (q >>= f) ok' := by
  induction q with
  | ret a => exact hf a hq
  | act a next ih => exact ⟨hq.1, fun r seen => ih r (hq.2 r seen)⟩

theorem rests_take {a : Act} {f : a.Answer → Prog α} {ok : α → Prop} (keeps : KeepsEnd a)
    (rest : ∀ r, EndAnswers cfg a r → Rests cfg (f r) ok) : Rests cfg (take a >>= f) ok :=
  ⟨keeps, rest⟩

theorem settles_bind {q : Prog α} {f : α → Prog β} {ok : α → Prop} {ok' : β → Prop}
    (hq : Settles cfg q ok) (hf : ∀ a, Settles cfg (f a) ok')
    (behind : ∀ a, ok a → Rests cfg (f a) ok') : Settles cfg (q >>= f) ok' := by
  induction q with
  | ret a => exact hf a
  | act a next ih =>
    exact ⟨fun ends r => rests_bind (hq.1 ends r) behind,
      fun goes r seen => ih r (hq.2 goes r seen)⟩

theorem settles_take {a : Act} {f : a.Answer → Prog α} {ok : α → Prop}
    (goes : a ≠ .setProgramState .fsmEnd) (rest : ∀ r, a.Truthful r → Settles cfg (f r) ok) :
    Settles cfg (take a >>= f) ok :=
  ⟨fun ends => absurd ends goes, fun _ => rest⟩

theorem settles_end {f : Unit → Prog α} {ok : α → Prop} (rest : ∀ r, Rests cfg (f r) ok) :
    Settles cfg (setProgramState .fsmEnd >>= f) ok :=
  ⟨fun _ => rest, fun goes => absurd rfl goes⟩

theorem rests_mono {q : Prog α} {ok ok' : α → Prop} (hq : Rests cfg q ok)
    (weaker : ∀ a, ok a → ok' a) : Rests cfg q ok' := by
  induction q with
  | ret a => exact weaker a hq
  | act a next ih => exact ⟨hq.1, fun r seen => ih r (hq.2 r seen)⟩

theorem settles_mono {q : Prog α} {ok ok' : α → Prop} (hq : Settles cfg q ok)
    (weaker : ∀ a, ok a → ok' a) : Settles cfg q ok' := by
  induction q with
  | ret a => trivial
  | act a next ih =>
    exact ⟨fun ends r => rests_mono (hq.1 ends r) weaker,
      fun goes r seen => ih r (hq.2 goes r seen)⟩

/-- Code that does not set the end. -/
def Endless (cfg : NetworkConfig) {α : Type} (q : Prog α) : Prop := Settles cfg q fun _ => False

theorem endless_rules : Program.Compositional (· ≠ Act.setProgramState .fsmEnd) Act.Truthful
    (Endless cfg) where
  ret _ := trivial
  act ok rest := ⟨fun ends => absurd ends ok, fun _ => rest⟩
  bind_of_results hp results hf := by
    rename_i p f Q
    induction p with
    | ret a => exact hf a results
    | act a next ih =>
      refine ⟨fun ends r => rests_bind (hp.1 ends r) fun _ none => none.elim, fun goes r seen => ?_⟩
      exact ih r (hp.2 goes r seen) (results r seen)

theorem endless_calm (a : Act) (h : a.Calm) : a ≠ .setProgramState .fsmEnd := h.2

theorem endless_pieces : Pieces cfg (Endless cfg) := by
  refine pieces_of_actions endless_rules endless_calm ?_ ?_ fun _ _ h => h
  · rintro a making rfl
    exact making
  · rintro a wiring rfl
    exact wiring

theorem endless_parts : Parts cfg (Endless cfg) := endless_pieces.parts endless_rules endless_calm

theorem Endless.settles {q : Prog α} {ok : α → Prop} (h : Endless cfg q) : Settles cfg q ok :=
  settles_mono h fun _ none => none.elim

/-- Behind code that does not set the end. -/
theorem settles_behind {q : Prog α} {f : α → Prog β} {ok : β → Prop} (hq : Endless cfg q)
    (hf : ∀ a, Settles cfg (f a) ok) : Settles cfg (q >>= f) ok :=
  settles_bind hq hf fun _ none => none.elim

/-! ## The receiver -/

theorem confirmedInState_settles (state : Fsm) :
    Settles cfg (confirmedInState state) fun _ => True := by
  unfold confirmedInState
  split
  · exact settles_take (f := .ret) nofun fun _ _ => trivial
  · exact settles_end fun _ => rests_take (f := .ret) nofun fun _ _ => trivial
  · exact settles_take (f := .ret) nofun fun _ _ => trivial
  · trivial

theorem handleConfirmUDP_settles (msgID : Nat) :
    Settles cfg (handleConfirmUDP msgID) fun _ => True := by
  have unlocked : Settles cfg queueUnlock fun _ => True :=
    settles_take (f := .ret) nofun fun _ _ => trivial
  unfold handleConfirmUDP
  refine settles_take nofun fun _ _ => ?_
  refine settles_take nofun fun head _ => ?_
  cases head with
  | none => exact unlocked
  | some uid =>
    refine settles_take nofun fun queueTopMsgID _ => ?_
    refine settles_take nofun fun topOfQueue _ => ?_
    split
    · exact unlocked
    · iterate 3 refine settles_take nofun fun _ _ => ?_
      refine settles_bind (confirmedInState_settles _) (fun _ => ?_) fun _ _ => ?_
      · exact settles_take nofun fun _ _ => unlocked
      · refine rests_take nofun fun _ _ => ?_
        exact rests_take (f := .ret) nofun fun _ _ => trivial

theorem receiverAction_settles (msgID : Nat) (pBlocks : ProtocolBlocks) (serverResponse : Buffer)
    (repetitiveMsg : Bool) :
    Settles cfg (receiverAction cfg msgID pBlocks serverResponse repetitiveMsg) fun _ => True := by
  have moves (s : Fsm) (behind : s.authenticated = true) :
      Act.setProgramState s ≠ .setProgramState .fsmEnd := by
    rintro same
    cases same
    cases behind
  refine receiverAction_cases endless_rules endless_calm (endless_parts.receiver serverResponse)
    (fun _ _ _ s' behind => ⟨moves s' behind, nofun⟩) ⟨nofun, fun _ _ => moves⟩ (fun _ _ _ => nofun)
    (fun q h => h.settles) msgID pBlocks (fun _ => handleConfirmUDP_settles msgID) ?_ repetitiveMsg
  have confirmed : Endless cfg (lockedConfirm cfg serverResponse) :=
    lockedConfirm_obeys endless_rules endless_calm (endless_parts.receiver serverResponse)
  refine settles_behind (inUDP_obeys endless_rules confirmed) fun _ => ?_
  exact settles_end fun _ => rests_take (f := .ret) nofun fun _ _ => trivial

theorem protocolReceiver_settles (datagram : List UInt8) :
    Settles cfg (protocolReceiver cfg datagram) fun _ => True := by
  have dispatched (msgID : Nat) (pBlocks : ProtocolBlocks) (serverResponse : Buffer) :
      Settles cfg (dispatch cfg msgID pBlocks serverResponse) fun _ => True := by
    unfold dispatch
    refine settles_take nofun fun state _ => ?_
    split
    · trivial
    · unfold receiverFSM
      split
      · refine settles_behind ?_ fun repetitiveMsg => receiverAction_settles _ _ _ _
        exact repetitive_obeys endless_rules endless_calm endless_pieces.sendBye (fun _ => nofun)
          _ _
      · exact receiverAction_settles _ _ _ _
  have handled (serverResponse : Buffer) :
      Settles cfg (handleDatagram cfg serverResponse) fun _ => True := by
    unfold handleDatagram
    split
    · split
      · exact (errHandling_obeys endless_rules endless_calm endless_pieces.sendBye _).settles
      · exact dispatched _ _ _
    · exact dispatched _ _ _
  unfold protocolReceiver
  refine settles_take nofun fun state _ => ?_
  split
  · trivial
  · split
    · trivial
    · refine settles_take nofun fun serverResponse _ => ?_
      exact settles_bind (handled serverResponse) (fun _ => trivial) fun _ _ => trivial

/-! ## The sender -/

/-- In the end the filter only pops messages that are done. -/
theorem filterLoop_rests (fuel : Nat) (msgToBeSend : MsgPtr) :
    Rests cfg (filterLoop cfg fuel msgToBeSend true) (· = true) := by
  induction fuel generalizing msgToBeSend with
  | zero => exact ⟨by rintro _ ⟨⟩, fun none => none.elim⟩
  | succ fuel ih =>
    have next : Rests cfg (do
        queuePopMessage
        let msgToBeSend ← queueGetMessage
        filterLoop cfg fuel msgToBeSend true : Prog Bool) (· = true) := by
      refine rests_take (by rintro _ ⟨⟩) fun _ _ => ?_
      exact rests_take (by rintro _ ⟨⟩) fun p _ => ih p
    cases msgToBeSend with
    | none => rfl
    | some uid =>
      unfold filterLoop
      refine rests_take (by rintro _ ⟨⟩) fun sended within => ?_
      rw [if_neg (Nat.not_lt.mpr within)]
      refine rests_take (by rintro _ ⟨⟩) fun m _ => ?_
      split
      · exact next
      · split
        · rfl
        · split
          · rfl
          · exact next

theorem filterLoop_settles (fuel : Nat) (msgToBeSend : MsgPtr) (resetLoop : Bool) :
    Settles cfg (filterLoop cfg fuel msgToBeSend resetLoop) (· = true) := by
  induction fuel generalizing msgToBeSend resetLoop with
  | zero => exact ⟨by rintro ⟨⟩, fun _ none => none.elim⟩
  | succ fuel ih =>
    have next (resetLoop : Bool) : Settles cfg (do
        queuePopMessage
        let msgToBeSend ← queueGetMessage
        filterLoop cfg fuel msgToBeSend resetLoop : Prog Bool) (· = true) := by
      refine settles_take (by rintro ⟨⟩) fun _ _ => ?_
      exact settles_take (by rintro ⟨⟩) fun p _ => ih p resetLoop
    cases msgToBeSend with
    | none => trivial
    | some uid =>
      unfold filterLoop
      refine settles_take (by rintro ⟨⟩) fun sended _ => ?_
      split
      · refine settles_take (by rintro ⟨⟩) fun state _ => ?_
        split
        · exact next resetLoop
        · refine settles_take (by rintro ⟨⟩) fun state _ => ?_
          split
          · refine settles_end fun _ => ?_
            iterate 2 refine rests_take (by rintro _ ⟨⟩) fun _ _ => ?_
            exact rests_take (by rintro _ ⟨⟩) fun p _ => filterLoop_rests fuel p
          · refine settles_behind ?_ fun _ => trivial
            exact endless_parts.requestTimedOut
      · refine settles_take (by rintro ⟨⟩) fun m _ => ?_
        split
        · exact next resetLoop
        · split
          · trivial
          · split
            · trivial
            · exact next resetLoop

theorem sendHead_rests (bytesTx : Int) : Rests cfg (sendHead cfg bytesTx) fun _ => True := by
  unfold sendHead
  refine rests_take nofun fun msgToBeSend _ => ?_
  have labelled : Rests cfg (labelMessage cfg) fun _ => True := by
    unfold labelMessage
    split <;> exact rests_take (f := .ret) nofun fun _ _ => trivial
  refine rests_bind labelled fun _ _ => ?_
  refine rests_take nofun fun _ _ => ?_
  refine rests_take nofun fun flags _ => ?_
  split
  · -- a failed transmission ends the process without a word about the state
    refine rests_take nofun fun _ _ => ?_
    exact ⟨nofun, fun none => none.elim⟩
  · have sended : Rests cfg (messageWasSended cfg msgToBeSend flags) fun _ => True := by
      unfold messageWasSended
      split
      · split <;> exact rests_take (f := .ret) nofun fun _ _ => trivial
      · refine rests_take nofun fun m _ => ?_
        split
        · refine rests_take nofun fun _ _ => ?_
          exact rests_take (f := .ret) nofun fun _ _ => trivial
        · exact rests_take (f := .ret) nofun fun _ _ => trivial
    refine rests_bind sended fun _ _ => ?_
    exact rests_take nofun fun _ _ => trivial

theorem logicErr_settles (flags : MsgFlags) :
    Settles cfg (logicErr cfg flags) (· = .proceed) := by
  unfold logicErr
  split
  · split
    · exact settles_take nofun fun _ _ => trivial
    · exact settles_end fun _ => rests_take nofun fun _ _ => rfl
  · split
    · exact settles_take nofun fun _ _ => trivial
    · trivial
  · trivial
  · exact (errHandling_obeys endless_rules endless_calm endless_pieces.sendBye _).settles

theorem logicFSM_settles : Settles cfg (logicFSM cfg) (· = .proceed) := by
  unfold logicFSM
  iterate 4 refine settles_take nofun fun _ _ => ?_
  rename_i msgToBeSend _ msgType _ flags _ state _
  cases state with
  | fsmStart | fsmAuthW82BeSended | fsmAuthSended | fsmW84Reply =>
    exact (logicBeforeAuth_still endless_rules (still_of_calm endless_calm) msgToBeSend msgType
      flags).settles
  | fsmW84ReplyConf =>
    change Settles cfg (logicReplyConf msgType) _
    unfold logicReplyConf
    split
    · refine settles_take nofun fun _ _ => ?_
      exact settles_take nofun fun _ _ => trivial
    · trivial
  | fsmOpen =>
    change Settles cfg (logicOpen msgType) _
    unfold logicOpen
    split
    · iterate 3 refine settles_take nofun fun _ _ => ?_
      trivial
    · exact settles_take nofun fun _ _ => trivial
    · trivial
  | fsmErr | fsmErrW84Conf => exact logicErr_settles flags
  | _ => trivial

theorem logicAndSend_settles (bytesTx : Int) :
    Settles cfg (logicAndSend cfg bytesTx) fun _ => True := by
  unfold logicAndSend
  refine settles_bind logicFSM_settles (fun result => ?_) ?_
  · cases result with
    | proceed => exact (endless_pieces.sendHead bytesTx).settles
    | waitSend => trivial
    | waitAgain => trivial
  · rintro result rfl
    exact sendHead_rests bytesTx

theorem senderBody_settles (bytesTx : Int) :
    Settles cfg (senderBody cfg bytesTx) fun _ => True := by
  unfold senderBody
  refine settles_take nofun fun empty _ => ?_
  split
  · refine settles_behind (endsWhenEmpty_still endless_rules (still_of_calm endless_calm))
      fun stop => ?_
    split
    · refine settles_end fun _ => ?_
      iterate 2 refine rests_take nofun fun _ _ => ?_
      trivial
    · exact settles_take nofun fun _ _ => trivial
  · iterate 3 refine settles_take nofun fun _ _ => ?_
    exact logicAndSend_settles bytesTx

theorem protocolSender_settles (fuel : Nat) (bytesTx : Int) :
    Settles cfg (protocolSender cfg fuel bytesTx) fun _ => True := by
  unfold protocolSender
  refine settles_take nofun fun state _ => ?_
  split
  · trivial
  · split
    · refine settles_take nofun fun _ _ => ?_
      have filtered : Settles cfg (filterResentMessages cfg fuel) (· = true) := by
        unfold filterResentMessages
        exact settles_take nofun fun p _ => filterLoop_settles fuel p false
      refine settles_bind filtered (fun resetLoop => ?_) ?_
      · split
        · trivial
        · exact senderBody_settles bytesTx
      · rintro resetLoop rfl
        trivial
    · exact senderBody_settles bytesTx

/-! ## Main -/

/-- In the end every command but `/exit` is refused. -/
theorem filterCommandsByFSM_rests (pBlocks : ProtocolBlocks) (flags : MsgFlags)
    (stays : uchar2CommandType pBlocks.type ≠ .cmdExit) :
    Rests cfg (filterCommandsByFSM pBlocks flags) (·.1 = false) := by
  have refuse (text : String) :
      Rests cfg (safePrint text >>= fun _ => pure (false, flags)) (·.1 = false) :=
    rests_take nofun fun _ _ => rfl
  unfold filterCommandsByFSM
  cases cmd : uchar2CommandType pBlocks.type with
  | cmdAuth =>
    refine rests_take nofun fun _ _ => ?_
    refine rests_take nofun fun state ended => ?_
    rw [if_neg (by rw [show state = .fsmEnd from ended]; decide)]
    exact refuse _
  | cmdJoin | cmdRename | cmdMsg =>
    refine rests_take nofun fun state ended => ?_
    rw [if_neg (by rw [show state = .fsmEnd from ended]; decide)]
    exact refuse _
  | cmdHelp => exact rests_take nofun fun _ _ => rfl
  | cmdNone => rfl
  | cmdExit => exact absurd cmd stays
  | _ => exact refuse _

theorem readLine_rests (stdin : List UInt8) : Rests cfg (readLine cfg stdin) fun _ => True := by
  unfold readLine handleLine
  refine rests_take nofun fun loaded stays => ?_
  have complained (e : Option WordError) : Rests cfg (printComplaint e) fun _ => True := by
    unfold printComplaint
    split
    · exact rests_take (f := .ret) nofun fun _ _ => trivial
    · trivial
  have other : exitLine loaded = false := stays
  refine rests_bind (rests_bind (complained _) fun _ _ => ?_) fun _ (_ : True) => trivial
  refine rests_bind (filterCommandsByFSM_rests _ _ (by simpa [exitLine] using other)) ?_
  rintro ⟨canBeSended, flags⟩ refused
  rw [show canBeSended = false from refused]
  trivial

/-! ## All threads -/

theorem starts_settle {t : Thread} {p : Point} {q : Prog Point} (h : Starts cfg t p q) :
    Settles cfg q fun _ => True := by
  cases h with
  | userCommandHandling eofDetected stdin =>
    refine Endless.settles (userCommandHandling_obeys endless_rules endless_calm
      endless_pieces.sendBye (fun _ _ h => h) (fun _ => ⟨nofun, nofun⟩) (fun _ _ => nofun) ?_ _ _)
    intro pBlocks flags _ _ _ _
    exact assembleCommand_obeys endless_rules endless_calm endless_pieces.sendBye (fun _ _ h => h)
      _ _ nofun fun _ _ => nofun
  | protocolReceiver datagram _ => exact protocolReceiver_settles datagram
  | protocolSender fuel bytesTx => exact protocolSender_settles fuel bytesTx
  | logicWaitSend bytesTx =>
    unfold resumeSend
    iterate 2 refine settles_take nofun fun _ _ => ?_
    exact (endless_pieces.sendHead bytesTx).settles
  | logicWaitAgain bytesTx =>
    unfold resumeLogic
    iterate 2 refine settles_take nofun fun _ _ => ?_
    exact logicAndSend_settles bytesTx

theorem starts_rest {t : Thread} {p : Point} {q : Prog Point} (h : Starts cfg t p q) :
    Rests cfg q fun _ => True := by
  cases h with
  | userCommandHandling eofDetected stdin =>
    unfold userCommandHandling
    refine rests_take nofun fun state ended => ?_
    rw [if_neg (by rw [show state = .fsmEnd from ended]; decide)]
    trivial
  | protocolReceiver datagram _ =>
    unfold protocolReceiver
    refine rests_take nofun fun state ended => ?_
    rw [if_pos (show state = .fsmEnd from ended)]
    trivial
  | protocolSender fuel bytesTx =>
    unfold protocolSender
    refine rests_take nofun fun state ended => ?_
    rw [if_pos (show state = .fsmEnd from ended)]
    trivial
  | logicWaitSend bytesTx =>
    unfold resumeSend
    iterate 2 refine rests_take nofun fun _ _ => ?_
    exact sendHead_rests bytesTx
  | logicWaitAgain bytesTx =>
    have proceeds : Rests cfg (logicFSM cfg) (· = .proceed) := by
      unfold logicFSM
      iterate 3 refine rests_take nofun fun _ _ => ?_
      refine rests_take nofun fun state ended => ?_
      rw [show state = .fsmEnd from ended]
      rfl
    unfold resumeLogic logicAndSend
    iterate 2 refine rests_take nofun fun _ _ => ?_
    refine rests_bind proceeds ?_
    rintro result rfl
    exact sendHead_rests bytesTx

/-- What the code that is left does, by the state. -/
def Settled (cfg : NetworkConfig) (s : Threads Thread Client Act.Answer Point) : Prop :=
  ∀ t q, s.code t = some q →
    if s.shared.fsmState = .fsmEnd then Rests cfg q fun _ => True else Settles cfg q fun _ => True

/-- The client in the runs that heed the end. -/
def heedfulMachine (cfg : NetworkConfig) : Machine Thread Client Act.Answer Point :=
  (machine cfg).restrict (heedsEnd cfg)

theorem endAnswers_of_ok {t : Thread} {a : Act} {r : a.Answer} {c c' : Client}
    (h : (heedfulMachine cfg).perform t a c = .ok r c') (ended : c.fsmState = .fsmEnd) :
    EndAnswers cfg a r := by
  simp only [heedfulMachine, Machine.restrict] at h
  split at h
  · rename_i heeded
    have act := (Client.perform_ok h).2
    cases a <;> try trivial
    case getProgramState =>
      cases act
      exact ended
    case queueGetSendedCounter =>
      simp only [Client.act] at act
      split at act <;> cases act
      rename_i queue
      simpa [heedsEnd, ended, queue, EndAnswers] using heeded
    case loadBufferFromStdin eofDetected stdin =>
      cases act
      simpa [heedsEnd, ended, EndAnswers] using heeded
  · cases h

theorem ok_act {t : Thread} {a : Act} {r : a.Answer} {c c' : Client}
    (h : (heedfulMachine cfg).perform t a c = .ok r c') : c.act t a = .ok r c' := by
  simp only [heedfulMachine, Machine.restrict] at h
  split at h
  · exact (Client.perform_ok h).2
  · cases h

/-- **A step** keeps the end, and leaves code that does so. -/
theorem settled_act {s : Threads Thread Client Act.Answer Point} {t : Thread} {a : Act}
    {next : a.Answer → Prog Point} {r : a.Answer} {c : Client} (inv : Settled cfg s)
    (code : s.code t = some (.act a next)) (alone : EndsAlone cfg s t a)
    (ok : (heedfulMachine cfg).perform t a s.shared = .ok r c) :
    (s.shared.fsmState = .fsmEnd → c.fsmState = .fsmEnd) ∧
      Settled cfg ⟨c, Function.update s.code t (some (next r))⟩ := by
  have act := ok_act ok
  have state := Client.act_fsmState act
  have own := inv t _ code
  by_cases ended : s.shared.fsmState = .fsmEnd
  · rw [if_pos ended] at own
    have stays : c.fsmState = .fsmEnd := by
      rw [state]
      cases a <;> try exact ended
      case setProgramState newState => exact own.1 newState rfl
    refine ⟨fun _ => stays, Machine.code_of_update ?_ ?_⟩
    · intro q hq
      obtain rfl := Option.some.inj hq
      rw [if_pos stays]
      exact own.2 r (endAnswers_of_ok ok ended)
    · intro u q _ hq
      rw [if_pos stays]
      have left := inv u q hq
      rwa [if_pos ended] at left
  · rw [if_neg ended] at own
    refine ⟨fun already => absurd already ended, ?_⟩
    by_cases ends : a = .setProgramState .fsmEnd
    · -- the others were between passes, or at a place that is as good
      have now : c.fsmState = .fsmEnd := by
        rw [state, ends]
        rfl
      refine Machine.code_of_update ?_ ?_
      · intro q hq
        obtain rfl := Option.some.inj hq
        rw [if_pos now]
        exact own.1 ends r
      · intro u q other hq
        rw [if_pos now]
        rcases alone ends u other q hq with ⟨p, rfl⟩ | ⟨-, stdin, rfl⟩ | ⟨-, rests⟩
        · trivial
        · exact readLine_rests stdin
        · exact rests
    · have still : c.fsmState ≠ .fsmEnd := by
        rw [state]
        cases a <;> try exact ended
        case setProgramState newState => exact fun same => ends (by rw [← same]; rfl)
      refine Machine.code_of_update ?_ ?_
      · intro q hq
        obtain rfl := Option.some.inj hq
        rw [if_neg still]
        exact own.2 ends r (Client.act_truthful act)
      · intro u q _ hq
        rw [if_neg still]
        have left := inv u q hq
        rwa [if_neg ended] at left

/-- **A run** keeps the end. -/
theorem settled_run {s s' : Threads Thread Client Act.Answer Point}
    (later : (heedfulMachine cfg).ReachableIf (EndsAlone cfg) s s') (inv : Settled cfg s) :
    (s.shared.fsmState = .fsmEnd → s'.shared.fsmState = .fsmEnd) ∧ Settled cfg s' := by
  induction later with
  | refl => exact ⟨id, inv⟩
  | act _ code alone ok ih =>
    obtain ⟨stays, left⟩ := settled_act ih.2 code alone ok
    exact ⟨fun ended => stays (ih.1 ended), left⟩
  | @halt u t a next c _ code alone halt ih =>
    have same : c.fsmState = u.shared.fsmState := by
      simp only [heedfulMachine, Machine.restrict] at halt
      split at halt
      · rw [Client.act_halt (Client.perform_halt halt).2]
      · cases halt
    refine ⟨fun ended => same.trans (ih.1 ended), Machine.code_of_update (by rintro _ ⟨⟩) ?_⟩
    intro v q _ hq
    rw [same]
    exact ih.2 v q hq
  | start _ code admitted ih =>
    refine ⟨ih.1, Machine.code_of_update ?_ fun v q _ hq => ih.2 v q hq⟩
    intro q hq
    obtain rfl := Option.some.inj hq
    split
    · exact starts_rest admitted
    · exact starts_settle admitted

end

end Absorbing

/-- The heads of the three loops. -/
def Point.loopHead : Point → Bool
  | .userCommandHandling _ | .protocolReceiver | .protocolSender => true
  | _ => false

open Absorbing in
/-- **The end is absorbing**, for both variants: in every run that heeds the end and in
which it is set while the other threads are between their passes, or main waits for a line,
or the sender has no other state left to write without a test, the state never changes
again, and every loop ends at its next test. -/
theorem end_absorbing {cfg : NetworkConfig} {heap : Nat → Memory} {ipAddress : Buffer}
    {s s' : Threads Thread Client Act.Answer Point}
    (reached : ((machine cfg).restrict (heedsEnd cfg)).ReachableIf (EndsAlone cfg)
      (initialThreads (programInterfaceInit heap ipAddress)) s)
    (ended : s.shared.fsmState = .fsmEnd)
    (later : ((machine cfg).restrict (heedsEnd cfg)).ReachableIf (EndsAlone cfg) s s') :
    s'.shared.fsmState = .fsmEnd ∧
      ∀ t p q, p.loopHead = true → Starts cfg t p q → s'.shared.status = .running →
        q.exec (Client.perform t) s'.shared = .done .ended s'.shared := by
  have init : Settled cfg (initialThreads (programInterfaceInit heap ipAddress)) := by
    intro t q idle
    cases idle
    exact trivial
  have stays := (settled_run later (settled_run reached init).2).1 ended
  refine ⟨stays, fun t p q head start running => ?_⟩
  generalize s'.shared = c at stays running
  have seen (f : Fsm → Prog Point) : (getProgramState >>= f).exec (Client.perform t) c =
      (f .fsmEnd).exec (Client.perform t) c := by
    rw [Program.exec_bind, getProgramState, take, Program.exec_perform]
    simp only [Client.perform, running, Client.act, stays, Outcome.bind_done]
  cases start with
  | userCommandHandling eofDetected stdin => exact seen _
  | protocolReceiver datagram _ => exact seen _
  | protocolSender fuel bytesTx => exact seen _
  | logicWaitSend bytesTx => cases head
  | logicWaitAgain bytesTx => cases head

theorem endsAlone_of_othersIdle (cfg : NetworkConfig) (s : Threads Thread Client Act.Answer Point)
    (t : Thread) (idle : othersIdle s t = true) (u : Threads Thread Client Act.Answer Point)
    (a : Act) (same : ∀ v, v ≠ t → u.code v = s.code v) : EndsAlone cfg u t a := by
  intro _ v other q code
  rw [same v other] at code
  have passes := List.all_eq_true.mp idle v (by cases v <;> decide)
  simp only [code, Bool.or_eq_true, beq_iff_eq, other, false_or] at passes
  cases q with
  | ret p => exact Or.inl ⟨p, rfl⟩
  | act a next => cases passes

/-- The server's BYE ends the program; main takes no other line then. -/
theorem end_absorbing_bye :
    ∃ s s', ((machine ⟨.protUDP, 3⟩).restrict (heedsEnd ⟨.protUDP, 3⟩)).ReachableIf
        (EndsAlone ⟨.protUDP, 3⟩)
        (initialThreads (programInterfaceInit (fun _ _ => 0xC4) ⟨some fun _ => 0, 10, 10⟩)) s ∧
      s.shared.fsmState = .fsmEnd ∧
      ((machine ⟨.protUDP, 3⟩).restrict (heedsEnd ⟨.protUDP, 3⟩)).ReachableIf
        (EndsAlone ⟨.protUDP, 3⟩) s s' ∧
      (idlePoints s').point .main = some .ended ∧ s'.shared.fsmState = .fsmEnd := by
  obtain ⟨s, reached, good⟩ := reachableIf_of_moves
    (m := (machine ⟨.protUDP, 3⟩).restrict (heedsEnd ⟨.protUDP, 3⟩)) (fun _ _ _ h => h)
    (endsAlone_of_othersIdle ⟨.protUDP, 3⟩)
    (programInterfaceInit (fun _ _ => 0xC4) ⟨some fun _ => 0, 10, 10⟩)
    [.start (.main (ascii "/auth u s d\n")), .go .main 11, .start (.sender 1), .go .sender 22,
      .start (.receiver [0xFF, 0, 5]), .go .receiver 14]
    (fun s => s.shared.fsmState = .fsmEnd ∧
      (playMoves ((machine ⟨.protUDP, 3⟩).restrict (heedsEnd ⟨.protUDP, 3⟩)) ⟨.protUDP, 3⟩
        othersIdle s [.start (.main (ascii "hi\n")), .go .main 1]).any
        fun s' => (idlePoints s').point .main = some .ended)
    (by decide +kernel)
  simp only [decide_eq_true_eq, Option.any_eq_true] at good
  obtain ⟨ended, s', played, point⟩ := good
  have later := reachableIf_of_playMoves (m := (machine ⟨.protUDP, 3⟩).restrict
    (heedsEnd ⟨.protUDP, 3⟩)) (fun _ _ _ h => h) (endsAlone_of_othersIdle ⟨.protUDP, 3⟩) .refl
    played
  exact ⟨s, s', reached, ended, later, by simpa using point, (end_absorbing reached ended later).1⟩

/-- Main has tested the state and waits for a line when the BYE of the server ends the
program; the line is `/exit`, and the end is left again. -/
theorem end_left_exit :
    ∃ s s', Reachable ⟨.protUDP, 3⟩ (fun _ _ => 0xC4) ⟨some fun _ => 0, 10, 10⟩ s ∧
      s.shared.fsmState = .fsmEnd ∧ (machine ⟨.protUDP, 3⟩).Reachable s s' ∧
      s'.shared.fsmState = .fsmEmptyQBye := by
  have played : ((playMoves (machine ⟨.protUDP, 3⟩) ⟨.protUDP, 3⟩ (fun _ _ => true)
      (initialThreads (programInterfaceInit (fun _ _ => 0xC4) ⟨some fun _ => 0, 10, 10⟩))
      [.start (.main (ascii "/auth u s d\n")), .go .main 11, .start (.sender 1), .go .sender 22,
        .start (.main (ascii "/exit\n")), .go .main 1, .start (.receiver [0xFF, 0, 5]),
        .go .receiver 14]).any fun s => s.shared.fsmState = .fsmEnd ∧
      (playMoves (machine ⟨.protUDP, 3⟩) ⟨.protUDP, 3⟩ (fun _ _ => true) s [.go .main 8]).any
        fun s' => s'.shared.fsmState = .fsmEmptyQBye) = true := by decide +kernel
  simp only [decide_eq_true_eq, Option.any_eq_true] at played
  obtain ⟨s, reached, ended, s', later, left⟩ := played
  exact ⟨s, s', reachable_of_playMoves (fun _ _ _ h => h) reached, ended,
    reachable_of_playMoves (fun _ _ _ h => h) later, left⟩

end Ipk24Chat
