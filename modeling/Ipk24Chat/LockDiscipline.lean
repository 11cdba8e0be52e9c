import Ipk24Chat.LockWatch
import Ipk24Chat.FilterPass
import Ipk24Chat.Display

/-!
# Where the lock of the queue is kept

The rules of `LockWatch` along a pass of the sender and along `receiverFSM`, each run
from a state in which the lock is free.

* `Message.Passes`: the messages that `logicFSM` and the sending get through;
* `Client.Accepts`: the messages that `receiverFSM` gets through;
* `keepsLock_iff`: on which states and messages exactly a path keeps the rules;
* `not_keepsLock`: paths that do not.
-/

namespace Ipk24Chat

/-- The program comes to its end. -/
def Returns {α : Type} (t : Thread) (q : Prog α) (c : Client) : Prop :=
  ∃ a c', q.exec (Client.perform t) c = .done a c'

/-- As `KeepsLock`, for a part of the code that is entered with or without the lock. -/
def KeepsFrom {α : Type} (held : Bool) (t : Thread) (q : Prog α) (c : Client) : Prop :=
  ∃ a c', q.monitored (Client.perform t) lockWatch held c = some (false, a, c')

section
variable {α β : Type} {cfg : NetworkConfig} {t : Thread} {c c' : Client} {held held' : Bool}

theorem keepsFrom_iff_returns {q : Prog α} (guarded : Guarded held q fun _ h => h = false) :
    KeepsFrom held t q c ↔ Returns t q c := by
  constructor
  · rintro ⟨a, c', run⟩
    exact ⟨a, c', Program.exec_of_monitored run⟩
  · rintro ⟨a, c', run⟩
    obtain ⟨_, follows, rfl⟩ := Program.monitored_of_heeds guarded run
    exact ⟨a, c', follows⟩

theorem keepsFrom_bind {p : Prog α} {f : α → Prog β} {a : α}
    (guarded : Guarded held p fun _ h => h = held')
    (run : p.exec (Client.perform t) c = .done a c') :
    KeepsFrom held t (p >>= f) c ↔ KeepsFrom held' t (f a) c' := by
  obtain ⟨_, follows, rfl⟩ := Program.monitored_of_heeds guarded run
  simp only [KeepsFrom, Program.monitored_bind, follows, Option.bind_some]

theorem returns_of_keepsFrom {q : Prog α} (h : KeepsFrom held t q c) : Returns t q c := by
  obtain ⟨a, c', run⟩ := h
  exact ⟨a, c', Program.exec_of_monitored run⟩

theorem keepsFrom_take {a : Act} {f : a.Answer → Prog α} {r : a.Answer}
    (running : c.status = .running) (follows : lockWatch a held = some held')
    (act : c.act t a = .ok r c') :
    KeepsFrom held t (take a >>= f) c ↔ KeepsFrom held' t (f r) c' := by
  refine keepsFrom_bind (guarded_only follows) ?_
  rw [exec_take running, act]

/-- An action against the rules. -/
theorem not_keepsFrom_take {a : Act} {f : a.Answer → Prog α} (refused : lockWatch a held = none) :
    ¬ KeepsFrom held t (take a >>= f) c := by
  rintro ⟨b, c', run⟩
  simp [take, Program.perform, Program.act_bind, Program.monitored, refused] at run

theorem Fails.not_returns {q : Prog α} (h : Fails cfg t q c) : ¬ Returns t q c := by
  rintro ⟨a, c', run⟩
  obtain ⟨c'', halted⟩ := h.halted
  rw [run] at halted
  cases halted

theorem returns_of_done {q : Prog α} {a : α} (run : q.exec (Client.perform t) c = .done a c') :
    Returns t q c := ⟨a, c', run⟩

theorem returns_bind {p : Prog α} {f : α → Prog β} {a : α}
    (run : p.exec (Client.perform t) c = .done a c') :
    Returns t (p >>= f) c ↔ Returns t (f a) c' := by
  simp only [Returns, Program.exec_bind, run, Outcome.bind_done]

theorem returns_take {a : Act} {f : a.Answer → Prog α} {r : a.Answer}
    (running : c.status = .running) (act : c.act t a = .ok r c') :
    Returns t (take a >>= f) c ↔ Returns t (f r) c' := by
  refine returns_bind ?_
  rw [exec_take running, act]

/-! ## The message at the head -/

/-- The queue cannot be sent from, or `sendto` failed. -/
theorem sendHead_returns (running : c.status = .running) (bytesTx : Int) :
    Returns t (sendHead cfg bytesTx) c ↔ c.sendingQueue ≠ [] ∧ 0 ≤ bytesTx := by
  cases queue : c.sendingQueue with
  | nil =>
    constructor
    · intro returns
      obtain ⟨fsmState, _, lock, com, input, scratch, response, seen, heap, reallocs, nextUid,
        status, history⟩ := c
      obtain rfl : status = .running := running
      obtain rfl := queue
      obtain ⟨protocol, retries⟩ := cfg
      obtain ⟨a, c', run⟩ := returns
      cases protocol <;> cases run
    · rintro ⟨some, -⟩
      exact absurd rfl some
  | cons m rest =>
    constructor
    · intro returns
      refine ⟨nofun, ?_⟩
      by_contra failed
      exact (sendHead_fails running cfg t queue (by omega)).not_returns returns
    · rintro ⟨-, sent⟩
      exact returns_of_done (sendHead_exec running cfg t queue sent)

/-- The messages that `logicFSM` and the sending get through, by the state in which they
are at the head of the queue. -/
def Message.Passes (state : Fsm) (m : Message) (rest : MessageQueue) (bytesTx : Int) : Prop :=
  match state with
  | .fsmStart | .fsmAuthW82BeSended | .fsmAuthSended | .fsmW84Reply =>
    0 ≤ bytesTx ∨
      (if uchar2msgType m.type = .msgAuth then m.confirmed = true ∧ 0 < m.sendCount
      else m.msgFlags ≠ .msgFlagNokReply)
  -- an AUTH is discarded, and the message behind it is sent without a look whether there is one
  | .fsmOpen => 0 ≤ bytesTx ∧ (uchar2msgType m.type = .msgAuth → rest ≠ [])
  | .fsmErrW84Conf | .fsmErr =>
    0 ≤ bytesTx ∧
      (m.msgFlags = .msgFlagBye ∨ m.msgFlags = .msgFlagErr ∨ m.msgFlags = .msgFlagConfirm)
  | _ => 0 ≤ bytesTx

theorem passes_iff (cfg : NetworkConfig) (state : Fsm) (m : Message) (rest : MessageQueue)
    (bytesTx : Int) :
    m.Passes state rest bytesTx ↔
      match logic cfg m state with
      | some (.proceed, _) => 0 ≤ bytesTx
      | some _ => True
      | none => state = .fsmOpen ∧ uchar2msgType m.type = .msgAuth ∧ rest ≠ [] ∧ 0 ≤ bytesTx := by
  cases state with
  | fsmStart | fsmAuthW82BeSended | fsmAuthSended | fsmW84Reply =>
    simp only [Message.Passes, logic, Message.beforeAuth]
    grind
  | fsmOpen =>
    simp only [Message.Passes, logic]
    cases type : uchar2msgType m.type <;> simp [and_comm]
  | fsmErrW84Conf | fsmErr =>
    simp only [Message.Passes, logic]
    cases flags : m.msgFlags <;> cases cfg.protocol <;> simp
  | _ => rfl

theorem logicAndSend_returns (running : c.status = .running) {m : Message} {rest : MessageQueue}
    (queue : c.sendingQueue = m :: rest) (bytesTx : Int) :
    Returns t (logicAndSend cfg bytesTx) c ↔ m.Passes c.fsmState rest bytesTx := by
  rw [passes_iff cfg]
  cases decided : logic cfg m c.fsmState with
  | none =>
    by_cases opened : c.fsmState = .fsmOpen
    · have auth : uchar2msgType m.type = .msgAuth := by
        rw [opened] at decided
        simp only [logic] at decided
        cases type : uchar2msgType m.type <;> simp_all
      rw [logicAndSend, returns_bind (logicFSM_discards running cfg t queue opened auth)]
      rw [sendHead_returns (by exact running)]
      simp only [opened, auth, true_and]
    · have failed : Fails cfg t (logicAndSend cfg bytesTx) c :=
        logicAndSend_fails running cfg t queue (Or.inl ⟨decided, opened⟩)
      simp only [opened, false_and, iff_false]
      exact failed.not_returns
  | some r =>
    obtain ⟨result, state⟩ := r
    by_cases proceeds : result = .proceed
    · subst proceeds
      simp only
      constructor
      · intro returns
        by_contra failed
        have failed : Fails cfg t (logicAndSend cfg bytesTx) c :=
          logicAndSend_fails running cfg t queue (Or.inr ⟨⟨state, decided⟩, by omega⟩)
        exact failed.not_returns returns
      · intro sent
        exact returns_of_done (logicAndSend_sends running cfg t queue decided sent)
    · obtain ⟨p, -, run⟩ := logicAndSend_waits running cfg t queue decided proceeds bytesTx
      have returns := returns_of_done run
      cases result with
      | proceed => exact absurd rfl proceeds
      | waitSend => simp only [returns]
      | waitAgain => simp only [returns]

theorem senderBody_returns (running : c.status = .running) (bytesTx : Int) :
    Returns t (senderBody cfg bytesTx) c ↔
      ∀ m rest, c.sendingQueue = m :: rest → m.Passes c.fsmState rest bytesTx := by
  cases queue : c.sendingQueue with
  | nil =>
    have returns := returns_of_done (senderBody_empty running cfg t queue bytesTx)
    simp only [returns, reduceCtorEq, false_implies, implies_true]
  | cons m rest =>
    have resumed := Program.exec_advance (senderBody_advance running cfg t queue bytesTx)
    rw [Returns, resumed]
    refine (logicAndSend_returns (c := c.resumed t) running queue bytesTx).trans ?_
    constructor
    · intro passes m' rest' eq
      cases eq
      exact passes
    · intro passes
      exact passes m rest rfl

/-! ## A pass of the sender -/

/-- What stands in the queue behind the filter lets the pass go through. -/
def Client.PassGoes (cfg : NetworkConfig) (c : Client) (bytesTx : Int) : Prop :=
  match c.sendingQueue.filtered cfg c.fsmState with
  | [] => True
  | m :: rest =>
    if cfg.udpMaxRetries.val < m.sendCount then
      c.fsmState ≠ .fsmEndW84Conf ∧ Named c ∧ 0 ≤ bytesTx
    else m.Passes c.fsmState rest bytesTx

/-- The test for an empty queue and what follows it, entered with the lock. -/
theorem senderBody_keeps_iff (running : c.status = .running) (bytesTx : Int) :
    KeepsFrom true t (senderBody cfg bytesTx) c ↔
      ∀ m rest, c.sendingQueue = m :: rest → m.Passes c.fsmState rest bytesTx :=
  (keepsFrom_iff_returns (senderBody_guarded bytesTx)).trans (senderBody_returns running bytesTx)

theorem senderBody_keeps_cons (running : c.status = .running) {m : Message} {rest : MessageQueue}
    (queue : c.sendingQueue = m :: rest) (bytesTx : Int) :
    KeepsFrom true t (senderBody cfg bytesTx) c ↔ m.Passes c.fsmState rest bytesTx := by
  rw [senderBody_keeps_iff running, queue]
  constructor
  · intro passes
    exact passes m rest rfl
  · rintro passes m' rest' eq
    cases eq
    exact passes

/-- The loop is reset with the lock held. -/
theorem not_keepsFrom_reset {p : Prog Bool} (guarded : Guarded true p fun _ h => h = true)
    (resets : ∀ reset c', p.exec (Client.perform t) c = .done reset c' → reset = true)
    (bytesTx : Int) : ¬ KeepsFrom true t (p >>= filteredBody cfg bytesTx) c := by
  intro keeps
  obtain ⟨b, c', run⟩ := returns_of_keepsFrom keeps
  rw [Program.exec_bind] at run
  cases ended : p.exec (Client.perform t) c with
  | halted c'' => simp [ended] at run
  | done reset c'' =>
    obtain rfl := resets reset c'' ended
    rw [keepsFrom_bind guarded ended] at keeps
    obtain ⟨b, c', left⟩ := keeps
    cases left

theorem filteredBody_keeps_cons {p : Prog Bool} (guarded : Guarded true p fun _ h => h = true)
    (run : p.exec (Client.perform t) c = .done false c') (running : c'.status = .running)
    {m : Message} {rest : MessageQueue} (queue : c'.sendingQueue = m :: rest) (bytesTx : Int) :
    KeepsFrom true t (p >>= filteredBody cfg bytesTx) c ↔ m.Passes c'.fsmState rest bytesTx := by
  rw [keepsFrom_bind guarded run]
  exact senderBody_keeps_cons running queue bytesTx

/-- The filter comes to a call of `errHandling`. -/
theorem not_keepsFrom_fails {p : Prog Bool} (failed : Fails cfg t p c) (bytesTx : Int) :
    ¬ KeepsFrom held t (p >>= filteredBody cfg bytesTx) c := by
  intro keeps
  exact (failed.bind _).not_returns (returns_of_keepsFrom keeps)

/-- A head that timed out while the CONFIRM of the BYE is waited for. -/
theorem filteredPass_reset (running : c.status = .running) {fuel : Nat}
    (enough : c.sendingQueue.length < fuel) (bye : c.fsmState = .fsmEndW84Conf) {m : Message}
    {rest : MessageQueue} (queue : c.sendingQueue.filtered cfg c.fsmState = m :: rest)
    (late : cfg.udpMaxRetries.val < m.sendCount) (bytesTx : Int) :
    ¬ KeepsFrom true t (filterLoop cfg fuel c.sendingQueue.getMessage false >>=
      filteredBody cfg bytesTx) c := by
  obtain ⟨n, fuel', -, byes⟩ : ∃ n fuel', rest.length < fuel' ∧ _ :=
    filterLoop_filtered_bye (t := t) running enough bye queue late false
  refine not_keepsFrom_reset (filterLoop_guarded fuel _ _) (fun reset c' ended => ?_) bytesTx
  rw [Program.exec_advance byes] at ended
  exact Program.exec_results (fun _ _ _ _ _ => trivial) (filterLoop_resets fuel' _) ended

theorem filteredPass_keeps_iff (running : c.status = .running) {fuel : Nat}
    (enough : c.sendingQueue.length < fuel) (bytesTx : Int) :
    KeepsFrom true t (filterResentMessages cfg fuel >>= filteredBody cfg bytesTx) c ↔
      c.PassGoes cfg bytesTx := by
  have guarded : Guarded true (filterLoop cfg fuel c.sendingQueue.getMessage false)
      fun _ h => h = true := filterLoop_guarded fuel _ _
  unfold filterResentMessages Client.PassGoes
  rw [Program.bind_assoc, queueGetMessage, keepsFrom_take running rfl rfl]
  by_cases bye : c.fsmState = .fsmEndW84Conf ∧
      (c.sendingQueue.filtered cfg c.fsmState).headLate cfg = true
  · obtain ⟨waits, late⟩ := bye
    cases queue : c.sendingQueue.filtered cfg c.fsmState with
    | nil =>
      rw [queue] at late
      cases late
    | cons m rest =>
      rw [queue] at late
      have late := of_decide_eq_true late
      simp only [late, waits, if_true, ne_eq, not_true_eq_false, false_and, iff_false]
      exact filteredPass_reset running enough waits queue late bytesTx
  · have early (waits : c.fsmState = .fsmEndW84Conf) :
        (c.sendingQueue.filtered cfg c.fsmState).headLate cfg = false := by
      simpa [waits] using bye
    have filtered := filterLoop_filtered (t := t) running enough early false
    cases queue : c.sendingQueue.filtered cfg c.fsmState with
    | nil =>
      rw [queue] at filtered
      cases filtered with
      | stops _ run =>
        rw [keepsFrom_bind guarded run]
        refine (senderBody_keeps_iff (by exact running) bytesTx).trans ?_
        simp only [reduceCtorEq, false_implies, implies_true]
      | reports late => cases late
      | fails late => cases late
    | cons m rest =>
      rw [queue] at filtered bye
      cases filtered with
      | stops early run =>
        have early := of_decide_eq_false early
        simp only [early, if_false]
        exact filteredBody_keeps_cons guarded run (by exact running) rfl bytesTx
      | reports late named run timedOut =>
        have waits : c.fsmState ≠ .fsmEndW84Conf := fun waits => bye ⟨waits, late⟩
        have late := of_decide_eq_true late
        obtain ⟨err, bye, _, _, queue, fresh, -⟩ := timedOut.queue
        rw [filteredBody_keeps_cons guarded run timedOut.running queue, timedOut.state]
        simp only [late, if_true, waits, named, Message.Passes, fresh.msgFlags, ne_eq,
          not_false_eq_true, reduceCtorEq, false_or, true_or, and_true, true_and]
      | fails late nameless failed =>
        have late := of_decide_eq_true late
        simp only [late, if_true, nameless, false_and, and_false, iff_false]
        exact not_keepsFrom_fails failed bytesTx

/-- In the TCP variant the queue is looked at without the lock. -/
theorem protocolSender_keeps_iff (running : c.status = .running) (unlocked : c.lock = none)
    {fuel : Nat} (enough : c.sendingQueue.length < fuel) (bytesTx : Int) :
    KeepsLock t (protocolSender cfg fuel bytesTx) c ↔
      c.fsmState = .fsmEnd ∨ cfg.protocol = .protUDP ∧ c.PassGoes cfg bytesTx := by
  change KeepsFrom false t _ c ↔ _
  rw [protocolSender, getProgramState, keepsFrom_take running rfl rfl]
  by_cases ended : c.fsmState = .fsmEnd
  · simp only [ended, if_true, true_or, iff_true]
    exact ⟨_, _, rfl⟩
  · simp only [ended, if_false, false_or]
    cases protocol : cfg.protocol with
    | protUDP =>
      have locked : c.act t .queueLock = .ok () { c with lock := some t } := by
        simp only [Client.act, unlocked]
      simp only [true_and]
      rw [queueLock, keepsFrom_take running rfl locked]
      exact filteredPass_keeps_iff (c := { c with lock := some t }) running enough bytesTx
    | protTCP =>
      simp only [reduceCtorEq, false_and, iff_false]
      exact not_keepsFrom_take rfl

/-- Behind a wait the lock is taken again. -/
theorem resumed_keeps_iff (running : c.status = .running) (unlocked : c.lock = none)
    {q : Prog Point} (guarded : Guarded true q fun _ h => h = false) :
    KeepsLock t (queueLock >>= fun _ => note .senderResumed >>= fun _ => q) c ↔
      Returns t q (c.resumed t) := by
  have locked : c.act t .queueLock = .ok () { c with lock := some t } := by
    simp only [Client.act, unlocked]
  change KeepsFrom false t _ c ↔ _
  rw [queueLock, keepsFrom_take running rfl locked, note,
    keepsFrom_take (by exact running) rfl rfl]
  exact keepsFrom_iff_returns guarded

/-! ## A message that was received -/

/-- There is something to print for a MSG or an ERR. -/
def ProtocolBlocks.printable (pBlocks : ProtocolBlocks) : Bool :=
  pBlocks.msgMsgDisplayname.start.isSome && pBlocks.msgMsgMsgContents.start.isSome

theorem printIncomingMessage_exec (running : c.status = .running) {pBlocks : ProtocolBlocks}
    (printable : pBlocks.printable = true) :
    ∃ e, (printIncomingMessage cfg pBlocks).exec (Client.perform t) c = .done () (c.log e) := by
  obtain ⟨name, text⟩ := Bool.and_eq_true_iff.mp printable
  have given : (pBlocks.msgMsgDisplayname.start.isNone ||
      pBlocks.msgMsgMsgContents.start.isNone) = false := by
    rw [Option.isNone_eq_false_iff.mpr name, Option.isNone_eq_false_iff.mpr text]
    rfl
  simp only [printIncomingMessage, given, Bool.false_eq_true, if_false]
  rw [exec_take running]
  exact ⟨_, rfl⟩

theorem printIncomingMessage_fails {pBlocks : ProtocolBlocks}
    (blank : pBlocks.printable ≠ true) : Fails cfg t (printIncomingMessage cfg pBlocks) c := by
  have missing : (pBlocks.msgMsgDisplayname.start.isNone ||
      pBlocks.msgMsgMsgContents.start.isNone) = true := by
    cases name : pBlocks.msgMsgDisplayname.start <;>
      cases text : pBlocks.msgMsgMsgContents.start <;>
        simp_all [ProtocolBlocks.printable]
  simp only [printIncomingMessage, missing, if_true]
  exact errHandling_fails _ c

theorem printIncomingMessage_returns (running : c.status = .running) (pBlocks : ProtocolBlocks) :
    Returns t (printIncomingMessage cfg pBlocks) c ↔ pBlocks.printable = true := by
  constructor
  · intro returns
    by_contra blank
    have failed : Fails cfg t (printIncomingMessage cfg pBlocks) c :=
      printIncomingMessage_fails blank
    exact failed.not_returns returns
  · intro printable
    obtain ⟨e, run⟩ := printIncomingMessage_exec running printable
    exact returns_of_done run

/-- The CONFIRM to an unknown message is queued without the lock. -/
theorem not_keepsFrom_sendConfirm {f : Unit → Prog α} (running : c.status = .running)
    (serverResponse : Buffer) (flags : MsgFlags) :
    ¬ KeepsFrom false t (sendConfirm cfg serverResponse flags >>= f) c := by
  have refused : (sendConfirm cfg serverResponse flags).monitored (Client.perform t) lockWatch
      false c = none := by
    obtain ⟨fsmState, queue, lock, com, input, scratch, response, seen, heap, reallocs, nextUid,
      status, history⟩ := c
    obtain rfl : status = .running := running
    rfl
  rintro ⟨b, c', run⟩
  simp [Program.monitored_bind, refused] at run

theorem queueLock_act (unlocked : c.lock = none) :
    c.act t .queueLock = .ok () { c with lock := some t } := by
  simp only [Client.act, unlocked]

/-- A negative REPLY looks at the head of the queue. -/
theorem handleReplyUDP_empty (running : c.status = .running) (unlocked : c.lock = none)
    (msgID : Nat) {pBlocks : ProtocolBlocks} (serverResponse : Buffer)
    (awaited : c.fsmState.awaitsReply = true) (negative : positiveUDP pBlocks = false)
    (empty : c.sendingQueue = []) :
    ¬ Returns t (handleReplyUDP cfg msgID pBlocks serverResponse) c := by
  rintro ⟨b, c', run⟩
  rw [handleReplyUDP_exec running cfg t msgID pBlocks serverResponse awaited, answerReply,
    if_neg (by simp [negative])] at run
  obtain ⟨fsmState, _, lock, com, input, scratch, response, seen, heap, reallocs, nextUid,
    status, history⟩ := c
  obtain rfl : status = .running := running
  obtain rfl : lock = none := unlocked
  obtain rfl := empty
  cases run

theorem handleReplyUDP_returns (running : c.status = .running) (unlocked : c.lock = none)
    (msgID : Nat) (pBlocks : ProtocolBlocks) (serverResponse : Buffer) :
    Returns t (handleReplyUDP cfg msgID pBlocks serverResponse) c ↔
      c.fsmState.awaitsReply = false ∨ positiveUDP pBlocks = true ∨ c.sendingQueue ≠ [] := by
  by_cases awaited : c.fsmState.awaitsReply = true
  · simp only [awaited, Bool.true_eq_false, false_or]
    cases positive : positiveUDP pBlocks with
    | true =>
      obtain ⟨c', run, -⟩ :=
        handleReplyUDP_positive running unlocked cfg t msgID serverResponse awaited positive
      simp only [returns_of_done run, true_or]
    | false =>
      simp only [Bool.false_eq_true, false_or]
      cases queue : c.sendingQueue with
      | nil =>
        simp only [ne_eq, not_true_eq_false, iff_false]
        exact handleReplyUDP_empty running unlocked msgID serverResponse awaited positive queue
      | cons m rest =>
        obtain ⟨c', run, -⟩ :=
          handleReplyUDP_negative running unlocked cfg t msgID serverResponse awaited positive queue
        simp only [returns_of_done run, ne_eq, reduceCtorEq, not_false_eq_true]
  · have ignored := Bool.eq_false_iff.mpr awaited
    have run := handleReplyUDP_exec_ignored running cfg t msgID pBlocks serverResponse ignored
    simp only [returns_of_done run, ignored, true_or]

theorem handleReplyTCP_returns (running : c.status = .running) (pBlocks : ProtocolBlocks) :
    Returns t (handleReplyTCP pBlocks) c := by
  obtain ⟨fsmState, queue, lock, com, input, scratch, response, seen, heap, reallocs, nextUid,
    status, history⟩ := c
  obtain rfl : status = .running := running
  cases result : pBlocks.msgReplyResultBool <;> cases fsmState <;>
    simp only [handleReplyTCP, replyInState, answerReplyTCP, result, Bool.false_eq_true, if_true,
      if_false] <;> exact ⟨_, _, rfl⟩

theorem wakeSender_exec (running : c.status = .running) :
    wakeSender.exec (Client.perform t) c = .done () c := by
  rw [wakeSender, pthreadCondSignal, exec_take_bind running]
  simp only [Client.act]
  rw [pthreadCondSignal, exec_take running]
  rfl

/-- The messages that `receiverFSM` gets through in the UDP variant, behind its filter of
those that came before. -/
def Client.Accepts (c : Client) (pBlocks : ProtocolBlocks) (seen : Bool) : Prop :=
  match uchar2msgType pBlocks.type with
  | .msgConf | .msgBye => True
  | .msgReply =>
    seen = true ∨ c.fsmState.awaitsReply = false ∨ positiveUDP pBlocks = true ∨
      c.sendingQueue ≠ []
  | .msgMsg => seen = true ∨ pBlocks.printable = true
  | .msgErr => pBlocks.printable = true
  | _ => False

/-- The same for the TCP variant. -/
def Client.AcceptsTCP (c : Client) (pBlocks : ProtocolBlocks) : Prop :=
  match uchar2msgType pBlocks.type with
  | .msgConf => False
  | .msgReply | .msgBye => True
  | .msgMsg | .msgErr => pBlocks.printable = true
  | _ => Named c

/-- The end of the answer to an ERR. -/
theorem errAnswered_returns (running : c.status = .running) (pBlocks : ProtocolBlocks) :
    Returns t (do
      queueUnlock
      sendBye cfg
      wakeSender
      setProgramState .fsmErr
      printIncomingMessage cfg pBlocks
      pthreadCondSignal .mainCond) c ↔ pBlocks.printable = true := by
  rw [queueUnlock, returns_take running rfl]
  obtain ⟨bye, scratch, reallocs, -, run⟩ := sendBye_exec (c := { c with lock := none })
    running rfl cfg t
  rw [returns_bind run, returns_bind (wakeSender_exec (by exact running)), setProgramState,
    returns_take (by exact running) rfl]
  by_cases printable : pBlocks.printable = true
  · obtain ⟨e, printed⟩ : ∃ e, (printIncomingMessage cfg pBlocks).exec (Client.perform t)
        { { c with lock := none }.appended bye scratch reallocs with fsmState := .fsmErr } =
        .done () (Client.log _ e) := printIncomingMessage_exec (by exact running) printable
    rw [returns_bind printed, pthreadCondSignal, Returns, exec_take (by exact running)]
    simp only [printable, iff_true]
    exact ⟨(), _, rfl⟩
  · simp only [printable, Bool.false_eq_true, iff_false]
    exact ((printIncomingMessage_fails printable).bind _).not_returns

/-- The answer to an unknown message in the TCP variant. -/
theorem unknownAnswered_returns (running : c.status = .running) (unlocked : c.lock = none) :
    Returns t (do
      setProgramState .fsmErr
      queueLock
      queuePopAllMessages
      queueUnlock
      sendError cfg .protocolToSendedByReceiver "Unknown message format"
      sendBye cfg
      wakeSender
      safePrint "ERR: Received unknown message from server. Ending program\n"
      pthreadCondSignal .mainCond) c ↔ Named c := by
  rw [setProgramState, returns_take running rfl, queueLock,
    returns_take (by exact running) (queueLock_act (by exact unlocked)), queuePopAllMessages,
    returns_take (by exact running) rfl, queueUnlock, returns_take (by exact running) rfl]
  by_cases named : Named c
  · obtain ⟨err, scratch, reallocs, -, run⟩ := sendError_named cfg t
      (c := { c with sendingQueue := [], fsmState := .fsmErr, lock := none }) running rfl named
      .protocolToSendedByReceiver "Unknown message format"
    obtain ⟨bye, scratch', reallocs', -, run'⟩ := sendBye_exec
      (c := { c with sendingQueue := [], fsmState := .fsmErr, lock := none }.appended err scratch
        reallocs) running rfl cfg t
    rw [returns_bind run, returns_bind run', returns_bind (wakeSender_exec (by exact running)),
      safePrint, returns_take (by exact running) rfl, pthreadCondSignal, Returns,
      exec_take (by exact running)]
    simp only [named, iff_true]
    exact ⟨(), _, rfl⟩
  · simp only [named, iff_false]
    exact ((sendError_unnamed (by exact running) rfl (by exact named) _ _).bind _).not_returns

theorem receiverAction_returns (udp : cfg.protocol = .protUDP) (running : c.status = .running)
    (unlocked : c.lock = none) (msgID : Nat) (pBlocks : ProtocolBlocks) (serverResponse : Buffer)
    (seen : Bool) (known : (uchar2msgType pBlocks.type).known = true) :
    Returns t (receiverAction cfg msgID pBlocks serverResponse seen) c ↔
      c.Accepts pBlocks seen := by
  obtain ⟨m, scratch, reallocs, -, confirmed⟩ :=
    lockedConfirm_exec running unlocked cfg t serverResponse
  unfold receiverAction Client.Accepts
  cases type : uchar2msgType pBlocks.type with
  | msgConf =>
    simp only [udp, iff_true]
    exact returns_of_done (handleConfirmUDP_exec running unlocked t msgID)
  | msgReply =>
    simp only [udp]
    cases seen with
    | true => simpa only [if_true, true_or, iff_true] using returns_of_done confirmed
    | false =>
      simp only [Bool.false_eq_true, if_false, false_or]
      exact handleReplyUDP_returns running unlocked msgID pBlocks serverResponse
  | msgMsg =>
    simp only [udp]
    rw [returns_bind confirmed]
    cases seen with
    | true =>
      simp only [if_true, true_or, iff_true]
      exact ⟨_, _, rfl⟩
    | false =>
      simp only [Bool.false_eq_true, if_false, false_or]
      rw [returns_bind (wakeSender_exec (by exact running))]
      exact printIncomingMessage_returns (by exact running) pBlocks
  | msgBye =>
    simp only [inUDP, udp, iff_true]
    rw [returns_bind confirmed, setProgramState, returns_take (by exact running) rfl,
      pthreadCondSignal, Returns, exec_take (by exact running)]
    exact ⟨(), _, rfl⟩
  | msgErr =>
    simp only [inUDP, udp]
    rw [queueLock, returns_take running (queueLock_act unlocked), queuePopAllMessages,
      returns_take (by exact running) rfl]
    obtain ⟨m, scratch, reallocs, -, run⟩ := sendConfirm_exec
      (c := { c with lock := some t, sendingQueue := [] }) running cfg t serverResponse
      .msgFlagConfirm
    rw [returns_bind run]
    exact errAnswered_returns (by exact running) pBlocks
  | _ => simp [type, MsgType.known] at known

theorem receiverAction_returns_tcp (tcp : cfg.protocol = .protTCP) (running : c.status = .running)
    (unlocked : c.lock = none) (msgID : Nat) (pBlocks : ProtocolBlocks) (serverResponse : Buffer)
    (seen : Bool) :
    Returns t (receiverAction cfg msgID pBlocks serverResponse seen) c ↔
      c.AcceptsTCP pBlocks := by
  unfold receiverAction Client.AcceptsTCP
  cases type : uchar2msgType pBlocks.type with
  | msgConf =>
    simp only [tcp, iff_false]
    exact (errHandling_fails _ c).not_returns
  | msgReply =>
    simp only [tcp, iff_true]
    exact handleReplyTCP_returns running pBlocks
  | msgMsg =>
    simp only [tcp]
    exact printIncomingMessage_returns running pBlocks
  | msgBye =>
    simp only [inUDP, tcp, iff_true, Program.pure_eq, Program.ret_bind]
    rw [setProgramState, returns_take running rfl, pthreadCondSignal, Returns,
      exec_take (by exact running)]
    exact ⟨(), _, rfl⟩
  | msgErr =>
    simp only [inUDP, tcp, Program.pure_eq, Program.ret_bind]
    rw [queueLock, returns_take running (queueLock_act unlocked), queuePopAllMessages,
      returns_take (by exact running) rfl]
    exact errAnswered_returns (by exact running) pBlocks
  | _ =>
    simp only [inUDP, tcp, Program.pure_eq, Program.ret_bind]
    exact unknownAnswered_returns running unlocked

theorem repetitive_exec_seen (running : c.status = .running) (unlocked : c.lock = none)
    (pBlocks : ProtocolBlocks) (serverResponse : Buffer)
    (seen : queueContainsMessageId c.confirmedMessages c.serverResponse pBlocks.type = true) :
    (repetitive cfg pBlocks serverResponse).exec (Client.perform t) c = .done true c := by
  unfold repetitive
  rw [queueLock, exec_take_bind running]
  simp only [Client.act, unlocked]
  rw [exec_take_bind (by exact running)]
  simp only [Client.act, seen, if_true]
  rw [queueUnlock, exec_take_bind (by exact running)]
  simp only [Client.act, ← unlocked, Program.pure_eq, Program.exec_ret]

/-- Too short a message is an internal error, with the lock held. -/
theorem repetitive_fails (running : c.status = .running) (unlocked : c.lock = none)
    (pBlocks : ProtocolBlocks) {serverResponse : Buffer}
    (fresh : queueContainsMessageId c.confirmedMessages c.serverResponse pBlocks.type = false)
    (short : serverResponse.used < 3) : Fails cfg t (repetitive cfg pBlocks serverResponse) c := by
  refine ⟨2, ⟨"Buffer provided in queueAddMessageOnlyIDis shorter than 3 bytes!",
    .errInternalBadArg⟩, { c with lock := some t }, ?_⟩
  unfold repetitive
  rw [queueLock, advance_take_bind running]
  simp only [Client.act, unlocked]
  rw [advance_take_bind (by exact running)]
  simp only [Client.act, fresh, Bool.false_eq_true, if_false, if_pos short, Program.advance]

theorem receiverAction_keeps (udp : cfg.protocol = .protUDP) (running : c.status = .running)
    (unlocked : c.lock = none) (msgID : Nat) (pBlocks : ProtocolBlocks) (serverResponse : Buffer)
    (seen : Bool) :
    KeepsFrom false t (receiverAction cfg msgID pBlocks serverResponse seen) c ↔
      c.Accepts pBlocks seen := by
  by_cases known : (uchar2msgType pBlocks.type).known = true
  · rw [keepsFrom_iff_returns (receiverAction_guarded _ _ _ _ (Or.inr known))]
    exact receiverAction_returns udp running unlocked msgID pBlocks serverResponse seen known
  · unfold receiverAction Client.Accepts
    cases type : uchar2msgType pBlocks.type with
    | msgConf | msgReply | msgMsg | msgBye | msgErr => simp [type, MsgType.known] at known
    | _ =>
      simp only [inUDP, udp, iff_false]
      rw [setProgramState, keepsFrom_take running rfl rfl, queueLock,
        keepsFrom_take (by exact running) rfl (queueLock_act (by exact unlocked)),
        queuePopAllMessages, keepsFrom_take (by exact running) rfl rfl, queueUnlock,
        keepsFrom_take (by exact running) rfl rfl]
      exact not_keepsFrom_sendConfirm (by exact running) serverResponse _

/-- In the UDP variant messages that came before are filtered out first. -/
theorem receiverFSM_keeps_udp (udp : cfg.protocol = .protUDP) (running : c.status = .running)
    (unlocked : c.lock = none) (msgID : Nat) (pBlocks : ProtocolBlocks) :
    KeepsLock .receiver (receiverFSM cfg msgID pBlocks c.serverResponse) c ↔
      (queueContainsMessageId c.confirmedMessages c.serverResponse pBlocks.type = true ∨
        3 ≤ c.serverResponse.used) ∧
      c.Accepts pBlocks
        (queueContainsMessageId c.confirmedMessages c.serverResponse pBlocks.type) := by
  change KeepsFrom false .receiver _ c ↔ _
  simp only [receiverFSM, udp]
  have guarded : Guarded false (repetitive cfg pBlocks c.serverResponse) fun _ h => h = false :=
    repetitive_guarded pBlocks c.serverResponse
  by_cases seen : queueContainsMessageId c.confirmedMessages c.serverResponse pBlocks.type = true
  · rw [keepsFrom_bind guarded (repetitive_exec_seen running unlocked pBlocks _ seen),
      receiverAction_keeps udp running unlocked, seen]
    simp only [true_or, true_and]
  · have fresh := Bool.eq_false_iff.mpr seen
    by_cases header : 3 ≤ c.serverResponse.used
    · rw [keepsFrom_bind guarded (repetitive_exec pBlocks running unlocked header),
        receiverAction_keeps udp (by exact running) (by exact unlocked)]
      simp only [header, or_true, true_and]
      rfl
    · simp only [fresh, header, Bool.false_eq_true, or_self, false_and, iff_false]
      intro keeps
      have failed : Fails cfg .receiver (repetitive cfg pBlocks c.serverResponse) c :=
        repetitive_fails running unlocked pBlocks fresh (by omega)
      exact (failed.bind _).not_returns (returns_of_keepsFrom keeps)

theorem receiverFSM_keeps_tcp (tcp : cfg.protocol = .protTCP) (running : c.status = .running)
    (unlocked : c.lock = none) (msgID : Nat) (pBlocks : ProtocolBlocks) (serverResponse : Buffer) :
    KeepsLock t (receiverFSM cfg msgID pBlocks serverResponse) c ↔ c.AcceptsTCP pBlocks := by
  change KeepsFrom false t _ c ↔ _
  simp only [receiverFSM, tcp]
  rw [keepsFrom_iff_returns (receiverAction_guarded _ _ _ _ (Or.inl tcp))]
  exact receiverAction_returns_tcp tcp running unlocked msgID pBlocks serverResponse false

end

/-! ## The paths of the two threads -/

/-- The code between two waits, with what `sendto` returns, and the handling of a received
message. -/
inductive LockPath where
  /-- from the head of the sender's loop -/
  | iteration (bytesTx : Int)
  /-- behind the wait of `logicFSM` for a message that is not AUTH -/
  | resumeSend (bytesTx : Int)
  /-- behind the wait of `logicFSM` for a confirmed AUTH -/
  | resumeLogic (bytesTx : Int)
  | receiverFSM (msgID : Nat) (pBlocks : ProtocolBlocks)

/-- The path, run from the state by the thread whose code it is, keeps the rules. -/
def LockPath.Keeps (cfg : NetworkConfig) (c : Client) : LockPath → Prop
  | .iteration bytesTx =>
    KeepsLock .sender (protocolSender cfg (c.sendingQueue.length + 1) bytesTx) c
  | .resumeSend bytesTx => KeepsLock .sender (Ipk24Chat.resumeSend cfg bytesTx) c
  | .resumeLogic bytesTx => KeepsLock .sender (Ipk24Chat.resumeLogic cfg bytesTx) c
  | .receiverFSM msgID pBlocks =>
    KeepsLock .receiver (Ipk24Chat.receiverFSM cfg msgID pBlocks c.serverResponse) c

/-- Where it does, by the state, the queue and the message. -/
def LockPath.Sound (cfg : NetworkConfig) (c : Client) : LockPath → Prop
  -- the TCP variant asks for an empty queue without the lock
  | .iteration bytesTx => c.fsmState = .fsmEnd ∨ cfg.protocol = .protUDP ∧ c.PassGoes cfg bytesTx
  | .resumeSend bytesTx => c.sendingQueue ≠ [] ∧ 0 ≤ bytesTx
  | .resumeLogic bytesTx =>
    match c.sendingQueue with
    | [] => False
    | m :: rest => m.Passes c.fsmState rest bytesTx
  | .receiverFSM _ pBlocks =>
    let seen := queueContainsMessageId c.confirmedMessages c.serverResponse pBlocks.type
    match cfg.protocol with
    | .protUDP => (seen = true ∨ 3 ≤ c.serverResponse.used) ∧ c.Accepts pBlocks seen
    | .protTCP => c.AcceptsTCP pBlocks

theorem logicAndSend_empty {cfg : NetworkConfig} {t : Thread} {c : Client}
    (running : c.status = .running) (empty : c.sendingQueue = []) (bytesTx : Int) :
    ¬ Returns t (logicAndSend cfg bytesTx) c := by
  rintro ⟨b, c', run⟩
  obtain ⟨fsmState, _, lock, com, input, scratch, response, seen, heap, reallocs, nextUid,
    status, history⟩ := c
  obtain rfl : status = .running := running
  obtain rfl := empty
  cases run

theorem keepsLock_iff (cfg : NetworkConfig) {c : Client} (running : c.status = .running)
    (unlocked : c.lock = none) (path : LockPath) : path.Keeps cfg c ↔ path.Sound cfg c := by
  cases path with
  | iteration bytesTx =>
    exact protocolSender_keeps_iff running unlocked (Nat.lt_succ_self _) bytesTx
  | resumeSend bytesTx =>
    refine (resumed_keeps_iff running unlocked (sendHead_guarded bytesTx)).trans ?_
    exact sendHead_returns (c := c.resumed .sender) running bytesTx
  | resumeLogic bytesTx =>
    refine (resumed_keeps_iff running unlocked (logicAndSend_guarded bytesTx)).trans ?_
    simp only [LockPath.Sound]
    cases queue : c.sendingQueue with
    | nil =>
      simp only [iff_false]
      exact logicAndSend_empty (c := c.resumed .sender) running queue bytesTx
    | cons m rest => exact logicAndSend_returns (c := c.resumed .sender) running queue bytesTx
  | receiverFSM msgID pBlocks =>
    simp only [LockPath.Sound]
    cases protocol : cfg.protocol with
    | protUDP => exact receiverFSM_keeps_udp protocol running unlocked msgID pBlocks
    | protTCP => exact receiverFSM_keeps_tcp protocol running unlocked msgID pBlocks _

/-- A client that has sent its BYE `sendCount` times. -/
def leaving (sendCount : Nat) : Client :=
  { programInterfaceInit (fun _ _ => 0xC4) ⟨some fun _ => 0, 10, 10⟩ with
    fsmState := .fsmEndW84Conf
    sendingQueue := [⟨0, [0xFF, 0, 0], sendCount, false, MsgType.msgBye.toUChar, .msgFlagBye⟩] }

/-- The BYE is sent once more. -/
theorem keepsLock_iff_leaving : (LockPath.iteration 3).Keeps ⟨.protUDP, 3⟩ (leaving 3) := by
  refine (keepsLock_iff ⟨.protUDP, 3⟩ rfl rfl (.iteration 3)).mpr (Or.inr ⟨rfl, ?_⟩)
  change (0 : Int) ≤ 3
  decide

/-- The BYE was sent too often: the loop is reset with the lock held. The TCP variant
looks at the queue without the lock, and so does the CONFIRM of an unknown message. -/
theorem not_keepsLock :
    ¬ (LockPath.iteration 3).Keeps ⟨.protUDP, 3⟩ (leaving 4) ∧
      ¬ (LockPath.iteration 3).Keeps ⟨.protTCP, 3⟩
        (programInterfaceInit (fun _ _ => 0xC4) ⟨some fun _ => 0, 10, 10⟩) ∧
      ¬ (LockPath.receiverFSM 0 (.reset 0x7F)).Keeps ⟨.protUDP, 3⟩
        { leaving 3 with fsmState := .fsmOpen, serverResponse := ⟨some fun _ => 0, 1024, 3⟩ } := by
  refine ⟨?_, ?_, ?_⟩
  · rintro ⟨p, c', run⟩
    cases run
  · rintro ⟨p, c', run⟩
    cases run
  · rintro ⟨p, c', run⟩
    cases run

end Ipk24Chat
