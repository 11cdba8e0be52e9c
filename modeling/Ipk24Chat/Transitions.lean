import Ipk24Chat.Diagram

/-!
# Transitions of the threads

What each function of the threads moves the state along, and what follows for runs.

* `starts_follow`: every piece of code moves the state by the transitions of its thread;
* `stages_in_order`: for every interleaving, what lies before a state;
* `passes_walk`: whole passes walk along the transitions, and do not come back from the states
  in which the program is about to end.

The functions of the receiver know the state that they have tested. Where they write another
one, the state may be a different one by then, so the transitions are between states that the
machine had, not always between neighbours.
-/

namespace Ipk24Chat

namespace Diagram

variable {cfg : NetworkConfig} {t : Thread} {α β : Type} {K K' M : List Fsm → Prop}

/-! ## The receiver -/

theorem confirmedInState_follows (state : Fsm) (udp : cfg.protocol = .protUDP) :
    Follows cfg .receiver (state ∈ ·) (confirmedInState state) Read := by
  have known : Traffic.Lasting (state ∈ ·) := Traffic.lasting_mem _
  unfold confirmedInState
  split
  · apply move_only (from_known (.authConfirmed udp))
    exact read_of_lasting (Traffic.lasting_mem _)
  · apply move_then (from_known (.bye _))
    exact quiet_last (Traffic.lasting_mem _) rfl
  · exact quiet_last known rfl
  · exact follows_ret _ (read_of_lasting known)

theorem handleConfirmUDP_follows (msgID : Nat) (udp : cfg.protocol = .protUDP) :
    Follows cfg .receiver Read (handleConfirmUDP msgID) Read := by
  unfold handleConfirmUDP
  apply quiet_then read_lasting rfl
  intro _
  apply quiet_then read_lasting rfl
  intro head
  cases head with
  | none => exact quiet_only read_lasting rfl
  | some uid =>
    apply quiet_then read_lasting rfl
    intro queueTopMsgID
    apply quiet_then read_lasting rfl
    intro topOfQueue
    split
    · exact quiet_only read_lasting rfl
    · apply quiet_then read_lasting rfl
      intro _
      apply quiet_then read_lasting rfl
      intro _
      apply state_then
      intro state
      apply follows_bind (confirmedInState_follows state udp)
      intro _
      apply quiet_then read_lasting rfl
      intro _
      exact quiet_only read_lasting rfl

theorem flagAuthConfirmed_follows (lasting : Traffic.Lasting K) :
    Follows cfg t K flagAuthConfirmed K := by
  unfold flagAuthConfirmed
  apply quiet_then lasting rfl
  intro state
  split
  · apply quiet_then lasting rfl
    intro _
    apply quiet_then lasting rfl
    intro _
    exact quiet_only lasting rfl
  · exact follows_ret _ fun _ => id

section
variable {tested : Fsm} (pBlocks : ProtocolBlocks) (serverResponse : Buffer)

theorem handlePositiveReplyUDP_follows (udp : cfg.protocol = .protUDP)
    (waits : tested = .fsmW84Reply ∨ tested = .fsmJoinAtempt) :
    Follows cfg .receiver (tested ∈ ·)
      (handlePositiveReplyUDP cfg tested pBlocks serverResponse) Read := by
  have known : Traffic.Lasting (tested ∈ ·) := Traffic.lasting_mem _
  have replied : Traffic.Lasting (Fsm.fsmW84ReplyConf ∈ ·) := Traffic.lasting_mem _
  unfold handlePositiveReplyUDP
  apply quiet_then known rfl
  intro _
  apply follows_bind (flagAuthConfirmed_follows known)
  intro _
  apply move_then (from_known (.replied udp waits))
  apply quiet_then replied rfl
  intro _
  apply follows_bind (sendConfirm_follows replied _ _)
  intro _
  iterate 3
    apply quiet_then replied rfl
    intro _
  exact quiet_last replied rfl

/-- Only the head of the queue tells that it was the AUTH that was refused. -/
theorem rejectAuth_follows (waits : tested = cfg.acceptState ∨ tested = .fsmJoinAtempt) :
    Follows cfg .receiver (tested ∈ ·) rejectAuth Read := by
  have known : Traffic.Lasting (tested ∈ ·) := Traffic.lasting_mem _
  unfold rejectAuth
  apply quiet_then known rfl
  intro flags
  split
  · apply quiet_then known rfl
    intro _
    apply move_only (from_known (.refused waits))
    exact read_of_lasting (Traffic.lasting_mem _)
  · exact follows_ret _ (read_of_lasting known)

theorem leaveJoin_follows : Follows cfg .receiver K leaveJoin Read := by
  unfold leaveJoin
  apply state_then
  intro state
  split
  · rename_i join
    subst join
    apply move_only (from_known .joinReplied)
    exact read_of_lasting (Traffic.lasting_mem _)
  · exact follows_ret _ (read_of_lasting (Traffic.lasting_mem _))

theorem handleNegativeReplyUDP_follows
    (waits : tested = cfg.acceptState ∨ tested = .fsmJoinAtempt) :
    Follows cfg .receiver (tested ∈ ·) (handleNegativeReplyUDP cfg pBlocks serverResponse)
      Read := by
  have known : Traffic.Lasting (tested ∈ ·) := Traffic.lasting_mem _
  unfold handleNegativeReplyUDP
  apply quiet_then known rfl
  intro _
  apply quiet_then known rfl
  intro _
  apply follows_bind (rejectAuth_follows waits)
  intro _
  apply follows_bind leaveJoin_follows
  intro _
  apply follows_bind (sendConfirm_follows read_lasting _ _)
  intro _
  iterate 2
    apply quiet_then read_lasting rfl
    intro _
  exact quiet_only read_lasting rfl

theorem handleReplyUDP_follows (udp : cfg.protocol = .protUDP) (msgID : Nat) :
    Follows cfg .receiver K (handleReplyUDP cfg msgID pBlocks serverResponse) Read := by
  have accept : cfg.acceptState = .fsmW84Reply := by
    unfold NetworkConfig.acceptState
    rw [udp]
  have handle (tested : Fsm) (waits : tested = .fsmW84Reply ∨ tested = .fsmJoinAtempt) :
      Follows cfg .receiver (tested ∈ ·)
        (answerReply cfg pBlocks serverResponse tested >>= fun _ =>
          note (.replyCounter msgID) >>= fun _ => setMsgCounter (msgID + 1)) Read := by
    have answered : Follows cfg .receiver (tested ∈ ·)
        (answerReply cfg pBlocks serverResponse tested) Read := by
      unfold answerReply
      split
      · exact handlePositiveReplyUDP_follows pBlocks serverResponse udp waits
      · exact handleNegativeReplyUDP_follows pBlocks serverResponse (accept ▸ waits)
    apply follows_bind answered
    intro _
    apply quiet_then read_lasting rfl
    intro _
    exact quiet_only read_lasting rfl
  unfold handleReplyUDP
  apply state_then
  intro first
  split
  · rename_i reply
    subst reply
    exact handle _ (Or.inl rfl)
  · apply state_then
    intro second
    split
    · rename_i join
      subst join
      exact handle _ (Or.inr rfl)
    · exact follows_ret _ (read_of_lasting (Traffic.lasting_mem _))

/-- A refusal reads the state again; it goes to the start from the state that was tested. -/
theorem answerReplyTCP_follows (tcp : cfg.protocol = .protTCP)
    (waits : tested = .fsmAuthSended ∨ tested = .fsmJoinAtempt) :
    Follows cfg .receiver (tested ∈ ·) (answerReplyTCP pBlocks tested) Read := by
  have known : Traffic.Lasting (tested ∈ ·) := Traffic.lasting_mem _
  have accept : cfg.acceptState = .fsmAuthSended := by
    unfold NetworkConfig.acceptState
    rw [tcp]
  have opens : Takes cfg .receiver tested .fsmOpen := by
    rcases waits with rfl | rfl
    · exact .repliedTCP tcp
    · exact .joinReplied
  unfold answerReplyTCP
  split
  · apply quiet_then known rfl
    intro _
    apply quiet_then known rfl
    intro _
    exact move_only (from_known opens) (read_of_lasting (Traffic.lasting_mem _))
  · apply quiet_then known rfl
    intro _
    apply quiet_then known rfl
    intro state
    split
    · exact move_only (from_known opens) (read_of_lasting (Traffic.lasting_mem _))
    · apply move_only (from_known (.refused (accept ▸ waits)))
      exact read_of_lasting (Traffic.lasting_mem _)

theorem handleReplyTCP_follows (tcp : cfg.protocol = .protTCP) :
    Follows cfg .receiver K (handleReplyTCP pBlocks) Read := by
  unfold handleReplyTCP
  apply state_then
  intro state
  have replied : Follows cfg .receiver (state ∈ ·) (replyInState pBlocks state) Read := by
    unfold replyInState
    split
    · exact answerReplyTCP_follows pBlocks tcp (Or.inl rfl)
    · exact answerReplyTCP_follows pBlocks tcp (Or.inr rfl)
    · exact follows_ret _ (read_of_lasting (Traffic.lasting_mem _))
  apply follows_bind replied
  intro _
  exact quiet_only read_lasting rfl

theorem receiverAction_follows (msgID : Nat) (repetitiveMsg : Bool) :
    Follows cfg .receiver Read (receiverAction cfg msgID pBlocks serverResponse repetitiveMsg)
      Read := by
  unfold receiverAction
  split
  case h_1 =>
    split
    · exact handleConfirmUDP_follows msgID ‹_›
    · exact errHandling_follows read_lasting _
  case h_2 =>
    split
    · split
      · exact lockedConfirm_follows read_lasting _
      · exact handleReplyUDP_follows pBlocks serverResponse ‹_› msgID
    · exact handleReplyTCP_follows pBlocks ‹_›
  case h_3 =>
    split
    · apply follows_bind (lockedConfirm_follows read_lasting _)
      intro _
      split
      · exact follows_ret _ fun _ => id
      · apply follows_bind (wakeSender_follows read_lasting)
        intro _
        exact printIncomingMessage_follows read_lasting _
    · exact printIncomingMessage_follows read_lasting _
  case h_4 =>
    apply follows_bind (inUDP_follows (lockedConfirm_follows read_lasting _))
    intro _
    have stops (seen : List Fsm) (known : Read seen) :
        ∃ x ∈ seen, Takes cfg .receiver x .fsmEnd := by
      obtain ⟨x, hx⟩ := List.exists_mem_of_ne_nil seen known
      exact ⟨x, hx, .bye x⟩
    apply move_then stops
    exact quiet_last (Traffic.lasting_mem _) rfl
  case h_5 =>
    apply quiet_then read_lasting rfl
    intro _
    apply quiet_then read_lasting rfl
    intro _
    apply follows_bind (inUDP_follows (sendConfirm_follows read_lasting _ _))
    intro _
    apply quiet_then read_lasting rfl
    intro _
    apply follows_bind (sendBye_follows read_lasting)
    intro _
    apply follows_bind (wakeSender_follows read_lasting)
    intro _
    apply move_then (errors read_lasting)
    have error : Traffic.Lasting (Fsm.fsmErr ∈ ·) := Traffic.lasting_mem _
    apply follows_bind (printIncomingMessage_follows error _)
    intro _
    exact quiet_last error rfl
  case h_6 => exact unknownMessage_follows read_lasting serverResponse

theorem handleDatagram_follows : Follows cfg .receiver Read (handleDatagram cfg serverResponse)
    Read := by
  have acts (msgID : Nat) (pBlocks : ProtocolBlocks) :
      Follows cfg .receiver Read (dispatch cfg msgID pBlocks serverResponse) Read := by
    unfold dispatch
    apply quiet_then read_lasting rfl
    intro state
    split
    · exact follows_ret _ fun _ => id
    · unfold receiverFSM
      split
      · apply follows_bind (repetitive_follows read_lasting _ _)
        intro repetitiveMsg
        exact receiverAction_follows _ _ msgID repetitiveMsg
      · exact receiverAction_follows _ _ msgID false
  unfold handleDatagram
  split
  · split
    · exact errHandling_follows read_lasting _
    · exact acts _ _
  · exact acts _ _

end

theorem protocolReceiver_follows (datagram : List UInt8) :
    Follows cfg .receiver K (protocolReceiver cfg datagram) Read := by
  unfold protocolReceiver
  apply state_then
  intro state
  have known : Traffic.Lasting (state ∈ ·) := Traffic.lasting_mem _
  split
  · exact follows_ret _ (read_of_lasting known)
  · split
    · exact follows_ret _ (read_of_lasting known)
    · apply quiet_then known rfl
      intro serverResponse
      have handles : Follows cfg .receiver (state ∈ ·) (handleDatagram cfg serverResponse) Read :=
        Traffic.infers_mono (handleDatagram_follows serverResponse) (read_of_lasting known)
          fun _ => id
      apply follows_bind handles
      intro _
      exact follows_ret _ fun _ => id

/-! ## The sender -/

theorem authIsSended_follows (flags : MsgFlags) :
    Follows cfg .sender Read (authIsSended flags) Read := by
  unfold authIsSended
  split
  · apply state_then
    intro state
    split
    · rename_i early
      have before : state = .fsmStart ∨ state = .fsmAuthW82BeSended := by
        cases state <;> simp_all [Fsm.toNat]
      apply move_only (from_known (.authSended before))
      exact read_of_lasting (Traffic.lasting_mem _)
    · exact follows_ret _ (read_of_lasting (Traffic.lasting_mem _))
  · exact follows_ret _ fun _ => id

theorem logicBeforeAuth_follows (msgToBeSend : MsgPtr) (msgType : MsgType) (flags : MsgFlags) :
    Follows cfg .sender Read (logicBeforeAuth msgToBeSend msgType flags) Read := by
  unfold logicBeforeAuth
  apply follows_bind (authIsSended_follows flags)
  intro _
  split
  · apply quiet_then read_lasting rfl
    intro _
    exact follows_ret _ fun _ => id
  · split
    · apply quiet_then read_lasting rfl
      intro m
      split
      · apply quiet_then read_lasting rfl
        intro _
        exact follows_ret _ fun _ => id
      · exact follows_ret _ fun _ => id
    · exact follows_ret _ fun _ => id

theorem logicReplyConf_follows (msgType : MsgType) :
    Follows cfg .sender (Fsm.fsmW84ReplyConf ∈ ·) (logicReplyConf msgType) Read := by
  unfold logicReplyConf
  split
  · have confirmed : Traffic.Lasting (Fsm.fsmOpen ∈ ·) := Traffic.lasting_mem _
    apply move_then (from_known .replyConfirmed)
    apply quiet_then confirmed rfl
    intro _
    exact follows_ret _ (read_of_lasting confirmed)
  · exact follows_ret _ (read_of_lasting (Traffic.lasting_mem _))

theorem logicOpen_follows (msgType : MsgType) :
    Follows cfg .sender (Fsm.fsmOpen ∈ ·) (logicOpen msgType) Read := by
  have known : Traffic.Lasting (Fsm.fsmOpen ∈ ·) := Traffic.lasting_mem _
  unfold logicOpen
  split
  · iterate 3
      apply quiet_then known rfl
      intro _
    exact follows_ret _ (read_of_lasting known)
  · apply move_then (from_known .join)
    exact follows_ret _ (read_of_lasting (Traffic.lasting_mem _))
  · exact follows_ret _ (read_of_lasting known)

theorem logicErr_follows {state : Fsm} (error : state = .fsmErr ∨ state = .fsmErrW84Conf)
    (flags : MsgFlags) : Follows cfg .sender (state ∈ ·) (logicErr cfg flags) Read := by
  have known : Traffic.Lasting (state ∈ ·) := Traffic.lasting_mem _
  unfold logicErr
  split
  · split
    · apply move_then (from_known (.byeSended ‹_› error))
      exact follows_ret _ (read_of_lasting (Traffic.lasting_mem _))
    · have ended : Traffic.Lasting (Fsm.fsmEnd ∈ ·) := Traffic.lasting_mem _
      apply move_then (from_known (.byeSendedTCP error))
      apply quiet_then ended rfl
      intro _
      exact follows_ret _ (read_of_lasting ended)
  · split
    · apply move_then (from_known (.errorSended ‹_› error))
      exact follows_ret _ (read_of_lasting (Traffic.lasting_mem _))
    · exact follows_ret _ (read_of_lasting known)
  · exact follows_ret _ (read_of_lasting known)
  · exact errHandling_follows known _

/-- The state is read once, behind the head of the queue. -/
theorem logicFSM_follows : Follows cfg .sender Read (logicFSM cfg) Read := by
  unfold logicFSM
  apply quiet_then read_lasting rfl
  intro msgToBeSend
  apply quiet_then read_lasting rfl
  intro msgType
  apply quiet_then read_lasting rfl
  intro flags
  apply state_then
  intro state
  have known : Traffic.Lasting (state ∈ ·) := Traffic.lasting_mem _
  have before : Follows cfg .sender (state ∈ ·) (logicBeforeAuth msgToBeSend msgType flags) Read :=
    Traffic.infers_mono (logicBeforeAuth_follows _ _ _) (read_of_lasting known) fun _ => id
  cases state with
  | fsmStart | fsmAuthW82BeSended | fsmAuthSended | fsmW84Reply => exact before
  | fsmW84ReplyConf => exact logicReplyConf_follows msgType
  | fsmOpen => exact logicOpen_follows msgType
  | fsmErr => exact logicErr_follows (Or.inl rfl) flags
  | fsmErrW84Conf => exact logicErr_follows (Or.inr rfl) flags
  | _ => exact follows_ret _ (read_of_lasting known)

/-- A BYE that timed out ends the program. -/
theorem filterLoop_follows (fuel : Nat) (msgToBeSend : MsgPtr) (resetLoop : Bool) :
    Follows cfg .sender Read (filterLoop cfg fuel msgToBeSend resetLoop) Read := by
  induction fuel generalizing msgToBeSend resetLoop with
  | zero => exact Traffic.infers_act rfl fun none => none.elim
  | succ fuel ih =>
    have next {K : List Fsm → Prop} (lasting : Traffic.Lasting K) (resetLoop : Bool) :
        Follows cfg .sender K (do
          queuePopMessage
          let msgToBeSend ← queueGetMessage
          filterLoop cfg fuel msgToBeSend resetLoop : Prog Bool) Read := by
      apply quiet_then lasting rfl
      intro _
      apply quiet_then lasting rfl
      intro p
      exact Traffic.infers_mono (ih p resetLoop) (read_of_lasting lasting) fun _ => id
    cases msgToBeSend with
    | none => exact follows_ret _ fun _ => id
    | some uid =>
      unfold filterLoop
      apply quiet_then read_lasting rfl
      intro sended
      split
      · apply quiet_then read_lasting rfl
        intro first
        split
        · exact next read_lasting resetLoop
        · apply state_then
          intro second
          split
          · rename_i ending
            subst ending
            have ended : Traffic.Lasting (Fsm.fsmEnd ∈ ·) := Traffic.lasting_mem _
            apply move_then (from_known .byeTimedOut)
            apply quiet_then ended rfl
            intro _
            exact next ended true
          · apply follows_bind (requestTimedOut_follows (Traffic.lasting_mem _))
            intro _
            exact follows_ret _ fun _ => id
      · apply quiet_then read_lasting rfl
        intro m
        split
        · exact next read_lasting resetLoop
        · split
          · exact follows_ret _ fun _ => id
          · split
            · exact follows_ret _ fun _ => id
            · exact next read_lasting resetLoop

theorem logicAndSend_follows (bytesTx : Int) :
    Follows cfg .sender Read (logicAndSend cfg bytesTx) Read := by
  unfold logicAndSend
  apply follows_bind logicFSM_follows
  intro result
  cases result with
  | proceed => exact sendHead_follows read_lasting bytesTx
  | waitSend | waitAgain => exact follows_ret _ fun _ => id

/-- An empty queue ends the program in two states, each of which is read on its own. -/
theorem endsWhenEmpty_minds (seen : List Fsm) :
    fsmVariable.Minds Act.Truthful (Takes cfg .sender)
      (fun ends seen' => Read seen' ∧ (ends = true → ∃ x ∈ seen', Takes cfg .sender x .fsmEnd))
      seen endsWhenEmpty := by
  unfold endsWhenEmpty
  apply minds_state
  intro first
  split
  · rename_i emptied
    subst emptied
    exact ⟨List.cons_ne_nil _ _, fun _ => ⟨_, List.mem_cons_self, .emptied (Or.inl rfl)⟩⟩
  · apply minds_state
    intro second
    constructor
    · exact List.cons_ne_nil _ _
    · intro ends
      have sigint : second = .fsmSigintBye := of_decide_eq_true ends
      exact ⟨second, List.mem_cons_self, .emptied (Or.inr sigint)⟩

theorem senderBody_follows (bytesTx : Int) :
    Follows cfg .sender Read (senderBody cfg bytesTx) Read := by
  have ended : Traffic.Lasting (Fsm.fsmEnd ∈ ·) := Traffic.lasting_mem _
  have stops : Follows cfg .sender (fun seen => ∃ x ∈ seen, Takes cfg .sender x .fsmEnd) (do
      setProgramState .fsmEnd
      queueUnlock
      pthreadCondSignal .mainCond
      pure .protocolSender : Prog Point) Read := by
    apply move_then fun _ => id
    iterate 2
      apply quiet_then ended rfl
      intro _
    exact follows_ret _ (read_of_lasting ended)
  have waits : Follows cfg .sender Read (do
      queueUnlock
      pure .protocolSender : Prog Point) Read := by
    apply quiet_then read_lasting rfl
    intro _
    exact follows_ret _ fun _ => id
  unfold senderBody
  apply quiet_then read_lasting rfl
  intro empty
  split
  · intro seen _
    apply Traffic.minds_bind (endsWhenEmpty_minds seen)
    rintro ends seen' ⟨known', leaving⟩
    split
    · exact stops seen' (leaving ‹_›)
    · exact waits seen' known'
  · iterate 3
      apply quiet_then read_lasting rfl
      intro _
    exact logicAndSend_follows bytesTx

theorem protocolSender_follows (fuel : Nat) (bytesTx : Int) :
    Follows cfg .sender K (protocolSender cfg fuel bytesTx) Read := by
  unfold protocolSender
  apply state_then
  intro state
  have known : Traffic.Lasting (state ∈ ·) := Traffic.lasting_mem _
  split
  · exact follows_ret _ (read_of_lasting known)
  · have body : Follows cfg .sender (state ∈ ·) (senderBody cfg bytesTx) Read :=
      Traffic.infers_mono (senderBody_follows bytesTx) (read_of_lasting known) fun _ => id
    split
    · apply quiet_then known rfl
      intro _
      have filtered : Follows cfg .sender (state ∈ ·) (filterResentMessages cfg fuel) Read := by
        unfold filterResentMessages
        apply quiet_then known rfl
        intro head
        exact Traffic.infers_mono (filterLoop_follows fuel head false) (read_of_lasting known)
          fun _ => id
      apply follows_bind filtered
      intro resetLoop
      split
      · exact follows_ret _ fun _ => id
      · exact senderBody_follows bytesTx
    · exact body

/-! ## Main -/

/-- Some state was read in which main takes input. -/
def Early (seen : List Fsm) : Prop := ∃ x ∈ seen, x.toNat < Fsm.fsmEmptyQBye.toNat

theorem early_lasting : Traffic.Lasting Early := Traffic.lasting_exists _

theorem early_of_mem {state : Fsm} (early : state.toNat < Fsm.fsmEmptyQBye.toNat)
    (seen : List Fsm) (known : state ∈ seen) : Early seen := ⟨state, known, early⟩

/-- The input ends only where main takes any. -/
theorem exits (seen : List Fsm) (known : Early seen) :
    ∃ x ∈ seen, Takes cfg .main x .fsmEmptyQBye := by
  obtain ⟨x, hx, early⟩ := known
  exact ⟨x, hx, .exit early⟩

theorem filterCommandsByFSM_follows (pBlocks : ProtocolBlocks) (flags : MsgFlags) :
    Follows cfg .main Early (filterCommandsByFSM pBlocks flags) Early := by
  have refused : Follows cfg .main Early (do
      safePrint notConnectedText
      pure (false, flags) : Prog (Bool × MsgFlags)) Early := by
    apply quiet_then early_lasting rfl
    intro _
    exact follows_ret _ fun _ => id
  unfold filterCommandsByFSM
  simp only
  split
  case h_1 => exact follows_ret _ fun _ => id
  case h_2 =>
    apply quiet_then early_lasting rfl
    intro _
    apply state_with early_lasting
    intro state
    split
    · rename_i start
      subst start
      apply move_then fun seen known => from_known .auth seen known.1
      exact follows_ret _ (early_of_mem (by decide))
    · exact Traffic.infers_mono refused (fun _ known => known.2) fun _ => id
  case h_3 | h_8 =>
    apply quiet_then early_lasting rfl
    intro _
    exact follows_ret _ fun _ => id
  case h_4 | h_5 =>
    apply quiet_then early_lasting rfl
    intro state
    split
    · apply quiet_then early_lasting rfl
      intro _
      exact follows_ret _ fun _ => id
    · exact refused
  case h_6 =>
    apply quiet_then early_lasting rfl
    intro state
    split
    · exact follows_ret _ fun _ => id
    · exact refused
  case h_7 => exact follows_ret _ fun _ => id
  case h_9 => exact refused

theorem enqueueCommand_follows (flags : MsgFlags) (type : UInt8) :
    Follows cfg .main Early (enqueueCommand flags type) Read := by
  unfold enqueueCommand
  apply quiet_then early_lasting rfl
  intro _
  apply quiet_then early_lasting rfl
  intro signalSender
  apply quiet_then early_lasting rfl
  intro _
  have signalled : Follows cfg .main Early (signalSenderIf signalSender type) Early := by
    unfold signalSenderIf
    split
    · exact quiet_only early_lasting rfl
    · exact follows_ret _ fun _ => id
  apply follows_bind signalled
  intro _
  apply quiet_then early_lasting rfl
  intro _
  split
  · apply move_then exits
    exact quiet_last (Traffic.lasting_mem _) rfl
  · exact follows_ret _ (read_of_lasting early_lasting)

theorem handleLine_follows (clientInput : Buffer) :
    Follows cfg .main Early (handleLine cfg clientInput) Read := by
  unfold handleLine
  have complained (complaint : Option WordError) :
      Follows cfg .main Early (printComplaint complaint) Early := by
    unfold printComplaint
    split
    · exact quiet_only early_lasting rfl
    · exact follows_ret _ fun _ => id
  apply follows_bind (complained _)
  intro _
  apply follows_bind (filterCommandsByFSM_follows _ _)
  rintro ⟨canBeSended, flags⟩
  simp only
  split
  · unfold assembleCommand
    apply quiet_then early_lasting rfl
    intro result
    cases result with
    | error f => exact errHandling_follows early_lasting f
    | ok r =>
      simp only
      split
      · exact enqueueCommand_follows _ _
      · exact follows_ret _ (read_of_lasting early_lasting)
  · exact follows_ret _ (read_of_lasting early_lasting)

theorem userCommandHandling_follows (eofDetected : Bool) (stdin : List UInt8) :
    Follows cfg .main K (userCommandHandling cfg eofDetected stdin) Read := by
  unfold userCommandHandling
  apply state_then
  intro state
  have known : Traffic.Lasting (state ∈ ·) := Traffic.lasting_mem _
  split
  · rename_i early
    split
    · have emptied : Traffic.Lasting (Fsm.fsmEmptyQBye ∈ ·) := Traffic.lasting_mem _
      apply move_then (from_known (.exit early))
      apply follows_bind (sendBye_follows emptied)
      intro _
      apply quiet_then emptied rfl
      intro _
      exact follows_ret _ (read_of_lasting emptied)
    · apply quiet_then known rfl
      intro loaded
      have handled : Follows cfg .main (state ∈ ·)
          (handleLine cfg { loaded.buffer with used := loaded.used }) Read :=
        Traffic.infers_mono (handleLine_follows _) (early_of_mem early) fun _ => id
      apply follows_bind handled
      intro _
      exact follows_ret _ fun _ => id
  · exact follows_ret _ (read_of_lasting known)

/-- Every piece of code follows the transitions of its thread. -/
theorem starts_follow {p : Point} {q : Prog Point} (h : Starts cfg t p q) :
    Follows cfg t Read q Read := by
  have resumed {f : Prog Point} (hf : Follows cfg .sender Read f Read) :
      Follows cfg .sender Read (do
        queueLock
        note .senderResumed
        f) Read := by
    iterate 2
      apply quiet_then read_lasting rfl
      intro _
    exact hf
  cases h with
  | userCommandHandling eofDetected stdin => exact userCommandHandling_follows eofDetected stdin
  | protocolReceiver datagram _ => exact protocolReceiver_follows datagram
  | protocolSender fuel bytesTx => exact protocolSender_follows fuel bytesTx
  | logicWaitSend bytesTx => exact resumed (sendHead_follows read_lasting bytesTx)
  | logicWaitAgain bytesTx => exact resumed (logicAndSend_follows bytesTx)

end Diagram

/-- The states of an authentication, the newest one in front. -/
def NetworkConfig.authentication (cfg : NetworkConfig) : List Fsm :=
  match cfg.protocol with
  | .protUDP => [.fsmW84ReplyConf, .fsmW84Reply, .fsmAuthSended, .fsmStart]
  | .protTCP => [.fsmAuthSended, .fsmStart]

/-- A state with those that have to lie behind it. -/
def NetworkConfig.stages (cfg : NetworkConfig) : Fsm → List Fsm
  | .fsmAuthW82BeSended => [.fsmAuthW82BeSended, .fsmStart]
  | .fsmAuthSended => [.fsmAuthSended, .fsmStart]
  | .fsmW84Reply => [.fsmW84Reply, .fsmAuthSended, .fsmStart]
  | .fsmW84ReplyConf => [.fsmW84ReplyConf, .fsmW84Reply, .fsmAuthSended, .fsmStart]
  | .fsmOpen => .fsmOpen :: cfg.authentication
  | .fsmJoinAtempt => .fsmJoinAtempt :: .fsmOpen :: cfg.authentication
  | .fsmErrW84Conf => [.fsmErrW84Conf, .fsmErr]
  | .fsmEndW84Conf => [.fsmEndW84Conf, .fsmErr]
  | state => [state]

theorem authentication_of_udp {cfg : NetworkConfig} (udp : cfg.protocol = .protUDP) :
    cfg.authentication = cfg.stages .fsmW84ReplyConf := by
  unfold NetworkConfig.authentication
  rw [udp]
  rfl

theorem authentication_of_tcp {cfg : NetworkConfig} (tcp : cfg.protocol = .protTCP) :
    cfg.authentication = cfg.stages .fsmAuthSended := by
  unfold NetworkConfig.authentication
  rw [tcp]
  rfl

theorem authentication_sublist (cfg : NetworkConfig) :
    cfg.authentication.Sublist (cfg.stages .fsmW84ReplyConf) := by
  unfold NetworkConfig.authentication
  cases cfg.protocol with
  | protUDP => exact List.Sublist.refl _
  | protTCP => exact .cons _ (.cons _ (List.Sublist.refl _))

/-- What a state needs behind it lies behind the states that it follows from. -/
theorem takes_stages {cfg : NetworkConfig} {t : Thread} {x y : Fsm} (takes : Takes cfg t x y) :
    (cfg.stages y).Sublist (y :: cfg.stages x) := by
  have alone {y : Fsm} : [y].Sublist (y :: cfg.stages x) := (List.nil_sublist _).cons_cons y
  cases takes with
  | auth => exact List.Sublist.refl _
  | authSended early =>
    rcases early with rfl | rfl
    · exact List.Sublist.refl _
    · exact (List.sublist_cons_self _ _).cons_cons _
  | replyConfirmed => exact (authentication_sublist cfg).cons_cons _
  | join => exact List.Sublist.refl _
  | errorSended _ error | byeSended _ error =>
    rcases error with rfl | rfl
    · exact List.Sublist.refl _
    · exact (List.sublist_cons_self _ _).cons_cons _
  | authConfirmed => exact List.Sublist.refl _
  | replied udp waits =>
    rcases waits with rfl | rfl
    · exact List.Sublist.refl _
    · apply List.Sublist.trans _ (List.sublist_cons_self _ _)
      apply List.Sublist.trans _ (List.sublist_cons_self _ _)
      apply List.Sublist.trans _ (List.sublist_cons_self _ _)
      rw [authentication_of_udp udp]
  | joinReplied =>
    apply List.Sublist.cons_cons
    exact (List.sublist_cons_self _ _).trans (List.sublist_cons_self _ _)
  | repliedTCP tcp =>
    apply List.Sublist.cons_cons
    rw [authentication_of_tcp tcp]
  | exit | error | byeSendedTCP | byeTimedOut | emptied | refused | bye => exact alone

/-! ## Runs -/

/-- **The stages come in order.** In every interleaving a state of the machine was preceded by
all its stages, belongs to the variant, and follows by a transition, drawn or not, from a state
before it. -/
theorem stages_in_order {cfg : NetworkConfig} {heap : Nat → Memory} {ipAddress : Buffer}
    {past : List Fsm} {s : Threads Thread Client Act.Answer Point}
    (visits : fsmVariable.Visits (machine cfg)
      (initialThreads (programInterfaceInit heap ipAddress)) past s)
    {state : Fsm} {older : List Fsm} (visited : state :: older <:+ past) :
    (cfg.stages state).Sublist (state :: older) ∧ cfg.has state = true ∧
      (older ≠ [] → ∃ x ∈ older, (∃ t, Takes cfg t x state) ∧
        (Drawn cfg.protocol x state ∨ Undrawn cfg.protocol x state)) := by
  have founded : Founded (fun x y => ∃ t, Takes cfg t x y) Fsm.fsmStart past := by
    have minds (t : Thread) (p : Point) (q : Prog Point) (admitted : Starts cfg t p q) (x : Fsm) :
        fsmVariable.Minds Act.Truthful (Takes cfg t) (fun _ _ => True) [x] q := by
      have follows := Diagram.starts_follow admitted [x] (List.cons_ne_nil x [])
      exact Traffic.minds_mono (fun _ _ _ => trivial) follows
    have idle (t : Thread) (q : Prog Point)
        (code : (initialThreads (programInterfaceInit heap ipAddress)).code t = some q) :
        ∃ p, q = .ret p := ⟨initialPoint t, (Option.some.inj code).symm⟩
    exact (Variable.minded_of_visits fsm_honest minds idle visits).founded
  have own : ∀ x ∈ past, cfg.has x = true := by
    have start : cfg.has .fsmStart = true := by
      unfold NetworkConfig.has
      split <;> rfl
    have keeps (x y : Fsm) (follows : ∃ t, Takes cfg t x y) (_ : cfg.has x = true) :
        cfg.has y = true := takes_has follows.choose_spec
    exact founded_all start keeps founded
  refine ⟨?_, own state (visited.subset List.mem_cons_self), ?_⟩
  · apply founded_requires cfg.stages (List.Sublist.refl _) _ founded visited
    rintro x y ⟨t, takes⟩
    exact takes_stages takes
  · intro later
    obtain ⟨x, hx, t, takes⟩ := founded_suffix founded visited later
    have before : x ∈ past := visited.subset (List.mem_cons_of_mem _ hx)
    exact ⟨x, hx, ⟨t, takes⟩, takes_drawn takes (own x before)⟩

/-- A login over UDP, with all that lies behind the open state. -/
theorem stages_in_order_login :
    ∃ s past older, fsmVariable.Visits (machine ⟨.protUDP, 3⟩)
        (initialThreads (programInterfaceInit (fun _ _ => 0xC4) ⟨some fun _ => 0, 10, 10⟩)) past s ∧
      Fsm.fsmOpen :: older <:+ past ∧
      [Fsm.fsmOpen, .fsmW84ReplyConf, .fsmW84Reply, .fsmAuthSended, .fsmStart].Sublist
        (.fsmOpen :: older) := by
  obtain ⟨p, passed, opened⟩ := passed_of_playAll ⟨.protUDP, 3⟩ (fun _ _ => 0xC4)
    ⟨some fun _ => 0, 10, 10⟩
    [.main (ascii "/auth u s d\n"), .sender 1, .receiver [0, 0, 0],
      .receiver ([1, 0, 0, 1, 0, 0] ++ ascii "ok" ++ [0]), .sender 1]
    (fun s => s.shared.fsmState = .fsmOpen) (by decide +kernel)
  obtain ⟨s, reached, same⟩ := reachable_of_passed passed
  obtain ⟨past, visits⟩ := Variable.visits_of_reachable reached
  obtain ⟨older, rfl⟩ := Variable.visits_head visits
  have now : fsmVariable.value s.shared = .fsmOpen := by
    rw [same]
    exact of_decide_eq_true opened
  rw [now] at visits
  exact ⟨s, _, older, visits, List.suffix_refl _, (stages_in_order visits (List.suffix_refl _)).1⟩

/-- The states in which the program is about to end. -/
def Fsm.leaving : Fsm → Bool
  | .fsmEmptyQBye | .fsmErr | .fsmErrW84Conf | .fsmSigintBye | .fsmEndW84Conf | .fsmEnd => true
  | _ => false

theorem takes_leaving {cfg : NetworkConfig} {t : Thread} {x y : Fsm} (takes : Takes cfg t x y)
    (leaving : x.leaving = true) : y.leaving = true := by
  cases takes with
  | authSended early => rcases early with rfl | rfl <;> cases leaving
  | replied _ waits => rcases waits with rfl | rfl <;> cases leaving
  | refused waits =>
    rcases waits with rfl | rfl
    · unfold NetworkConfig.acceptState at leaving
      split at leaving <;> cases leaving
    · cases leaving
  | auth | replyConfirmed | join | authConfirmed | joinReplied | repliedTCP => cases leaving
  | exit | error | errorSended | byeSended | byeSendedTCP | byeTimedOut | emptied | bye => rfl

theorem stays_leaving {cfg : NetworkConfig} {x y : Fsm}
    (walk : Relation.ReflTransGen (fun x y => ∃ t, Takes cfg t x y) x y)
    (leaving : x.leaving = true) : y.leaving = true := by
  induction walk with
  | refl => exact leaving
  | tail _ takes ih =>
    obtain ⟨t, takes⟩ := takes
    exact takes_leaving takes ih

/-- A pass walks along the transitions of its thread. -/
theorem pass_walks {cfg : NetworkConfig} {s s' : Passes Thread Client Point}
    (pass : (machine cfg).Pass s s') :
    Relation.ReflTransGen (fun x y => ∃ t, Takes cfg t x y) s.shared.fsmState
      s'.shared.fsmState := by
  have walks {t : Thread} {p : Point} {q : Prog Point} (admitted : Starts cfg t p q) :
      Relation.ReflTransGen (fun x y => ∃ t, Takes cfg t x y) s.shared.fsmState
        (q.exec (Client.perform t) s.shared).state.fsmState := by
    have follows := Diagram.starts_follow admitted [s.shared.fsmState] (List.cons_ne_nil _ [])
    have walk := Variable.walks_of_minds (s := s.shared) (fsm_honest t) follows fun x hx =>
      List.mem_singleton.mp hx
    exact Relation.ReflTransGen.mono (fun _ _ takes => ⟨t, takes⟩) _ _ walk
  cases pass with
  | done _ admitted run | halted _ admitted run =>
    have walk := walks admitted
    rw [show Program.exec (Client.perform _) _ _ = _ from run] at walk
    exact walk

/-- **No way back.** As long as the threads take whole passes, the state walks along the
transitions, and a program that is about to end stays so. -/
theorem passes_walk {cfg : NetworkConfig} {s s' : Passes Thread Client Point}
    (passed : (machine cfg).Passed s s') :
    Relation.ReflTransGen (fun x y => ∃ t, Takes cfg t x y) s.shared.fsmState
        s'.shared.fsmState ∧
      (s.shared.fsmState.leaving = true → s'.shared.fsmState.leaving = true) := by
  have walk : Relation.ReflTransGen (fun x y => ∃ t, Takes cfg t x y) s.shared.fsmState
      s'.shared.fsmState := by
    induction passed with
    | refl => exact .refl
    | step _ pass ih => exact ih.trans (pass_walks pass)
  constructor
  · exact walk
  · intro leaving
    exact stays_leaving walk leaving

/-- A message of an unknown type: the ERR and the BYE are sent and confirmed. -/
theorem passes_walk_unknown :
    ∃ s s', Passed ⟨.protUDP, 3⟩ (fun _ _ => 0xC4) ⟨some fun _ => 0, 10, 10⟩ s ∧
      s.shared.fsmState = .fsmErr ∧ (machine ⟨.protUDP, 3⟩).Passed s s' ∧
      s'.shared.fsmState = .fsmEnd ∧
      Relation.ReflTransGen (fun x y => ∃ t, Takes ⟨.protUDP, 3⟩ t x y) .fsmErr .fsmEnd ∧
      s'.shared.fsmState.leaving = true := by
  have played : ((playAll (machine ⟨.protUDP, 3⟩) ⟨.protUDP, 3⟩
      (initialPasses (programInterfaceInit (fun _ _ => 0xC4) ⟨some fun _ => 0, 10, 10⟩))
      [.main (ascii "/auth u s d\n"), .sender 1, .receiver [0x55, 0, 5]]).any fun s =>
      s.shared.fsmState = .fsmErr ∧
      (playAll (machine ⟨.protUDP, 3⟩) ⟨.protUDP, 3⟩ s
        [.sender 1, .sender 1, .receiver [0, 0, 0], .sender 1, .receiver [0, 1, 0]]).any
        fun s' => s'.shared.fsmState = .fsmEnd) = true := by decide +kernel
  simp only [decide_eq_true_eq, Option.any_eq_true] at played
  obtain ⟨s, first, error, s', rest, ended⟩ := played
  have before := passed_of_play (m := machine ⟨.protUDP, 3⟩) (fun _ _ _ h => h) _ .refl first
  have behind := passed_of_play (m := machine ⟨.protUDP, 3⟩) (fun _ _ _ h => h) _ .refl rest
  obtain ⟨walk, stays⟩ := passes_walk behind
  refine ⟨s, s', before, error, behind, ended, ?_, stays (by rw [error]; rfl)⟩
  rw [error, ended] at walk
  exact walk

end Ipk24Chat
