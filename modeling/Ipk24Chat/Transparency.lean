import Ipk24Chat.Execution

/-!
# CONFIRMs in front of the outstanding message

The receiver puts its CONFIRMs in front of the queue, and its handlers look at
nothing but the head. What an answer of the server does to the outstanding
message then depends on whether the sender has already sent the CONFIRMs.

* `confirm_answered`, `positive_answered`, `negative_answered`: what an answer
  does, by the head of the queue;
* `transparent_iff`: when it does the same as without CONFIRMs in front.
-/

namespace Ipk24Chat

/-- A CONFIRM with the ID of the outstanding message, or a REPLY. -/
inductive ServerAnswer where
  | confirm
  | reply (msgID : Nat) (pBlocks : ProtocolBlocks) (serverResponse : Buffer)

/-- The handler for an answer, `n` being the ID of the outstanding message. -/
def ServerAnswer.handle (cfg : NetworkConfig) (n : Nat) : ServerAnswer → Prog Unit
  | .confirm => handleConfirmUDP n
  | .reply msgID pBlocks serverResponse => handleReplyUDP cfg msgID pBlocks serverResponse

/-- The `confirmed` field and the flag of the first message that is no CONFIRM. -/
def MessageQueue.outstanding (queue : MessageQueue) : Option (Bool × MsgFlags) :=
  (queue.find? fun m => m.type != MsgType.msgConf.toUChar).map fun m => (m.confirmed, m.msgFlags)

/-- What the handler makes of the outstanding message and of the state, if the queue
holds these messages when the answer arrives. -/
def ServerAnswer.effect (cfg : NetworkConfig) (n : Nat) (c : Client) (answer : ServerAnswer)
    (queue : MessageQueue) : Option (Bool × MsgFlags) × Fsm :=
  let c' := ((answer.handle cfg n).exec (Client.perform .receiver)
    { c with sendingQueue := queue }).state
  (c'.sendingQueue.outstanding, c'.fsmState)

/-- The first of the waiting CONFIRMs does not matter for the answer. -/
def ServerAnswer.passes (state : Fsm) (m conf : Message) : ServerAnswer → Bool
  | .confirm =>
    m.confirmed && (conf.msgID == m.msgID || state != .fsmAuthSended && state != .fsmEndW84Conf)
  | .reply _ pBlocks _ =>
    if positiveUDP pBlocks then state != .fsmW84Reply || m.msgFlags == .msgFlagConfirmed
    else !state.awaitsReply || m.msgFlags != .msgFlagAuth

namespace MessageQueue
variable {confs : MessageQueue} {m : Message} (rest : MessageQueue)

@[simp] theorem outstanding_conf (conf : m.type = MsgType.msgConf.toUChar) :
    outstanding (m :: rest) = outstanding rest := by
  simp [outstanding, conf]

@[simp] theorem outstanding_cons (other : m.type ≠ MsgType.msgConf.toUChar) :
    outstanding (m :: rest) = some (m.confirmed, m.msgFlags) := by
  simp [outstanding, other]

theorem outstanding_append (waiting : ∀ x ∈ confs, x.type = MsgType.msgConf.toUChar)
    (other : m.type ≠ MsgType.msgConf.toUChar) :
    outstanding (confs ++ m :: rest) = some (m.confirmed, m.msgFlags) := by
  have none : confs.find? (fun x => x.type != MsgType.msgConf.toUChar) = none := by
    simpa [List.find?_eq_none] using waiting
  simp [outstanding, List.find?_append, none, other]

/-- Confirming one of the CONFIRMs leaves the outstanding message as it is. -/
theorem outstanding_confirm (p : MsgPtr) (waiting : ∀ x ∈ confs, x.type = MsgType.msgConf.toUChar)
    (other : m.type ≠ MsgType.msgConf.toUChar) :
    outstanding (confirm (confs ++ m :: rest) p) =
      some (m.confirmed || decide (some m.uid = p), m.msgFlags) := by
  have split : confirm (confs ++ m :: rest) p = confirm confs p ++
      (if some m.uid = p then { m with confirmed := true } else m) :: confirm rest p := by
    simp [confirm]
  have still : ∀ x ∈ confirm confs p, x.type = MsgType.msgConf.toUChar := by
    intro x hx
    obtain ⟨y, hy, rfl⟩ := List.mem_map.mp hx
    split <;> exact waiting y hy
  rw [split, outstanding_append _ still (by split <;> exact other)]
  split <;> simp_all

end MessageQueue

theorem rejected_other (m : Message) (state : Fsm) (other : m.msgFlags ≠ .msgFlagAuth) :
    rejected m state = (m, if state = .fsmJoinAtempt then .fsmOpen else state) := by
  unfold rejected
  rw [if_neg other]
  split <;> rfl

section
variable {cfg : NetworkConfig} {c : Client} (running : c.status = .running)
  (unlocked : c.lock = none) {conf m : Message} {confs rest : MessageQueue}
include running unlocked

/-! ## A CONFIRM -/

theorem confirm_effect (n : Nat) (queue : MessageQueue) :
    ServerAnswer.confirm.effect cfg n c queue =
      let c' := { c with sendingQueue := queue }.confirmHead n
      (c'.sendingQueue.outstanding, c'.fsmState) := by
  simp only [ServerAnswer.effect, ServerAnswer.handle]
  rw [handleConfirmUDP_exec (by exact running) (by exact unlocked), Outcome.state_done]

theorem confirm_answered (other : m.type ≠ MsgType.msgConf.toUChar) :
    ServerAnswer.confirm.effect cfg m.msgID c (m :: rest) =
      (some (true, m.msgFlags), c.fsmState.afterConfirm) := by
  have none : ∀ x ∈ ([] : MessageQueue), x.type = MsgType.msgConf.toUChar := by simp
  have confirmed := MessageQueue.outstanding_confirm rest (some m.uid) none other
  rw [confirm_effect running unlocked]
  simpa [Client.confirmHead] using confirmed

theorem confirm_answered_behind (waiting : ∀ x ∈ conf :: confs, x.type = MsgType.msgConf.toUChar)
    (other : m.type ≠ MsgType.msgConf.toUChar) (distinct : m.uid ≠ conf.uid) :
    ServerAnswer.confirm.effect cfg m.msgID c (conf :: confs ++ m :: rest) =
      (some (m.confirmed, m.msgFlags),
        if conf.msgID = m.msgID then c.fsmState.afterConfirm else c.fsmState) := by
  have type : conf.type ≠ MsgType.msgAuth.toUChar := by
    rw [waiting conf List.mem_cons_self]
    decide
  have unchanged := MessageQueue.outstanding_append rest waiting other
  have confirmed := MessageQueue.outstanding_confirm rest (some conf.uid) waiting other
  rw [confirm_effect running unlocked]
  by_cases same : conf.msgID = m.msgID
  · simpa [Client.confirmHead, same, distinct] using confirmed
  · simpa [Client.confirmHead, same, Ne.symm same, type] using unchanged

/-! ## A REPLY -/

omit unlocked in
theorem reply_effect_ignored {n msgID : Nat} {pBlocks : ProtocolBlocks} {serverResponse : Buffer}
    (queue : MessageQueue) (ignored : c.fsmState.awaitsReply = false) :
    (ServerAnswer.reply msgID pBlocks serverResponse).effect cfg n c queue =
      (queue.outstanding, c.fsmState) := by
  simp only [ServerAnswer.effect, ServerAnswer.handle]
  rw [handleReplyUDP_exec_ignored (by exact running) _ _ _ _ _ (by exact ignored),
    Outcome.state_done]

theorem positive_answered {n msgID : Nat} {pBlocks : ProtocolBlocks} {serverResponse : Buffer}
    (queue : MessageQueue) (awaited : c.fsmState.awaitsReply = true)
    (positive : positiveUDP pBlocks = true) :
    (ServerAnswer.reply msgID pBlocks serverResponse).effect cfg n c queue =
      ((if c.fsmState = .fsmW84Reply then queue.setMessageFlags .msgFlagConfirmed
        else queue).outstanding, .fsmW84ReplyConf) := by
  obtain ⟨c', run, replied⟩ := handleReplyUDP_positive (c := { c with sendingQueue := queue })
    running unlocked cfg .receiver msgID serverResponse awaited positive
  obtain ⟨x, confirm, front⟩ := replied.queue
  simp only [ServerAnswer.effect, ServerAnswer.handle]
  rw [run, Outcome.state_done, replied.state, front]
  simp [MessageQueue.outstanding, confirm.type]

theorem negative_answered {n msgID : Nat} {pBlocks : ProtocolBlocks} {serverResponse : Buffer}
    {head : Message} (awaited : c.fsmState.awaitsReply = true)
    (negative : positiveUDP pBlocks = false) :
    (ServerAnswer.reply msgID pBlocks serverResponse).effect cfg n c (head :: rest) =
      (MessageQueue.outstanding ((rejected head c.fsmState).1 :: rest),
        (rejected head c.fsmState).2) := by
  obtain ⟨c', run, replied⟩ := handleReplyUDP_negative
    (c := { c with sendingQueue := head :: rest }) running unlocked cfg .receiver msgID
    serverResponse awaited negative rfl
  obtain ⟨x, confirm, front⟩ := replied.queue
  simp only [ServerAnswer.effect, ServerAnswer.handle]
  rw [run, Outcome.state_done, replied.state, front]
  simp [MessageQueue.outstanding, confirm.type]

/-! ## Behind CONFIRMs and in front -/

variable (waiting : ∀ x ∈ conf :: confs, x.type = MsgType.msgConf.toUChar ∧
    x.msgFlags = .msgFlagConfirm) (other : m.type ≠ MsgType.msgConf.toUChar)
include waiting other

theorem confirm_behind_iff (distinct : m.uid ≠ conf.uid) :
    ServerAnswer.confirm.effect cfg m.msgID c (conf :: confs ++ m :: rest) =
        ServerAnswer.confirm.effect cfg m.msgID c (m :: rest) ↔
      ServerAnswer.confirm.passes c.fsmState m conf = true := by
  have types : ∀ x ∈ conf :: confs, x.type = MsgType.msgConf.toUChar := fun x hx => (waiting x hx).1
  rw [confirm_answered_behind running unlocked types other distinct,
    confirm_answered running unlocked other]
  cases c.fsmState <;> simp [ServerAnswer.passes, Fsm.afterConfirm]

theorem reply_behind_iff (msgID : Nat) (pBlocks : ProtocolBlocks) (serverResponse : Buffer) :
    (ServerAnswer.reply msgID pBlocks serverResponse).effect cfg m.msgID c
          (conf :: confs ++ m :: rest) =
        (ServerAnswer.reply msgID pBlocks serverResponse).effect cfg m.msgID c (m :: rest) ↔
      (ServerAnswer.reply msgID pBlocks serverResponse).passes c.fsmState m conf = true := by
  obtain ⟨⟨type, flag⟩, types⟩ : (conf.type = MsgType.msgConf.toUChar ∧
      conf.msgFlags = .msgFlagConfirm) ∧ ∀ x ∈ confs, x.type = MsgType.msgConf.toUChar :=
    ⟨waiting conf List.mem_cons_self, fun x hx => (waiting x (List.mem_cons_of_mem _ hx)).1⟩
  have behind := MessageQueue.outstanding_append rest types other
  rw [List.cons_append]
  cases awaited : c.fsmState.awaitsReply with
  | false =>
    have ignored : c.fsmState ≠ .fsmW84Reply := by
      intro eq
      simp [eq, Fsm.awaitsReply] at awaited
    rw [reply_effect_ignored running _ awaited, reply_effect_ignored running _ awaited]
    simp [ServerAnswer.passes, awaited, ignored, type, other, behind]
  | true =>
    cases positive : positiveUDP pBlocks with
    | true =>
      rw [positive_answered running unlocked _ awaited positive,
        positive_answered running unlocked _ awaited positive]
      by_cases auth : c.fsmState = .fsmW84Reply
      · simp [ServerAnswer.passes, positive, auth, MessageQueue.setMessageFlags, type, other,
          behind]
      · simp [ServerAnswer.passes, positive, auth, type, other, behind]
    | false =>
      rw [negative_answered running unlocked awaited positive,
        negative_answered running unlocked awaited positive]
      rw [rejected_other conf _ (by simp [flag])]
      by_cases auth : m.msgFlags = .msgFlagAuth
      · simp [ServerAnswer.passes, positive, awaited, auth, rejected, type, other, behind]
      · simp [ServerAnswer.passes, positive, auth, rejected_other, type, other, behind]

end

/-- **CONFIRMs in front are transparent in the cases that `passes` names, and only
there.** The queue starts with any number of CONFIRMs, then comes the outstanding
message `m`; the answer is a CONFIRM with its ID or any REPLY, in any state. -/
theorem transparent_iff {cfg : NetworkConfig} {c : Client} (running : c.status = .running)
    (unlocked : c.lock = none) {confs rest : MessageQueue} {m : Message}
    (waiting : ∀ x ∈ confs, x.type = MsgType.msgConf.toUChar ∧ x.msgFlags = .msgFlagConfirm)
    (other : m.type ≠ MsgType.msgConf.toUChar) (distinct : (confs ++ m :: rest).uids.Nodup)
    (answer : ServerAnswer) :
    answer.effect cfg m.msgID c (confs ++ m :: rest) = answer.effect cfg m.msgID c (m :: rest) ↔
      ∀ conf, confs.head? = some conf → answer.passes c.fsmState m conf = true := by
  cases confs with
  | nil => simp
  | cons conf confs =>
    have different : m.uid ≠ conf.uid := by
      simp only [MessageQueue.uids, List.cons_append, List.map_cons, List.nodup_cons,
        List.map_append, List.mem_append, List.mem_cons, not_or] at distinct
      exact fun eq => distinct.1.2.1 eq.symm
    simp only [List.head?_cons, Option.some.injEq, forall_eq']
    cases answer with
    | confirm => exact confirm_behind_iff running unlocked waiting other different
    | reply msgID pBlocks serverResponse =>
      exact reply_behind_iff running unlocked waiting other msgID pBlocks serverResponse

/-- An AUTH that was transmitted with ID 0 and is waiting for its REPLY, and a CONFIRM
of message 7 of the server. -/
def waitingAuth : Message := ⟨0, [2, 0, 0, 117, 0, 100, 0, 115, 0], 1, true, 2, .msgFlagAuth⟩

def waitingConfirm : Message := ⟨1, [0, 0, 7], 0, false, 0, .msgFlagConfirm⟩

/-- A client that waits for the REPLY to its AUTH. -/
def waitingClient : Client :=
  { programInterfaceInit (fun _ _ => 0xC4) ⟨some fun _ => 0, 10, 10⟩ with
    fsmState := .fsmW84Reply, nextUid := 2 }

/-- The positive REPLY 1, 0, 1, 1, 0, 0, 'o', 'k', 0. -/
def positiveReply : ServerAnswer :=
  .reply 1 { ProtocolBlocks.reset 1 with zeroth := ⟨some ⟨fun _ => 1, 0⟩, 1⟩ }
    ⟨some fun i => if i = 0 ∨ i = 2 ∨ i = 3 then 1 else 0, 1500, 9⟩

/-- A JOIN that was transmitted, and a client that waits for the REPLY to it. -/
def waitingJoin : Message := ⟨0, [3, 0, 1, 99, 0, 100, 0], 1, true, 3, .msgFlagNone⟩

def joiningClient : Client := { waitingClient with fsmState := .fsmJoinAtempt }

/-- With a CONFIRM in front the REPLY to an AUTH does something else, that to a JOIN
does the same. -/
theorem transparent_iff_waiting :
    (positiveReply.effect ⟨.protUDP, 3⟩ waitingAuth.msgID waitingClient
          ([waitingConfirm] ++ [waitingAuth]) =
        positiveReply.effect ⟨.protUDP, 3⟩ waitingAuth.msgID waitingClient [waitingAuth] ↔
      ∀ conf, [waitingConfirm].head? = some conf →
        positiveReply.passes waitingClient.fsmState waitingAuth conf = true) ∧
    positiveReply.effect ⟨.protUDP, 3⟩ waitingJoin.msgID joiningClient
        ([waitingConfirm] ++ [waitingJoin]) =
      positiveReply.effect ⟨.protUDP, 3⟩ waitingJoin.msgID joiningClient [waitingJoin] :=
  ⟨transparent_iff rfl rfl (by decide) (by decide) (by decide) positiveReply,
    (transparent_iff rfl rfl (by decide) (by decide) (by decide) positiveReply).mpr (by decide)⟩

/-- With a CONFIRM in front, the AUTH is not marked as answered and will be sent
again. -/
theorem transparent_auth_behind_confirm :
    ¬ ∀ (cfg : NetworkConfig) (c : Client) (confs rest : MessageQueue) (m : Message)
        (answer : ServerAnswer), c.status = .running → c.lock = none →
      (∀ x ∈ confs, x.type = MsgType.msgConf.toUChar ∧ x.msgFlags = .msgFlagConfirm) →
      m.type ≠ MsgType.msgConf.toUChar → 0 < m.sendCount → (confs ++ m :: rest).uids.Nodup →
      answer.effect cfg m.msgID c (confs ++ m :: rest) =
        answer.effect cfg m.msgID c (m :: rest) := by
  intro claim
  have same := claim ⟨.protUDP, 3⟩ waitingClient [waitingConfirm] [] waitingAuth positiveReply rfl
    rfl (by decide) (by decide) (by decide) (by decide)
  revert same
  decide +kernel

end Ipk24Chat
