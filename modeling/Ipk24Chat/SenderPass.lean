import Ipk24Chat.Execution

/-!
# A pass of the sender, run at once

What the functions of the sender do when no other thread moves in between, for both
variants.

* `Fails`: a program that comes to a call of `errHandling` never returns;
* `Ends`: how a program ends if it does not fail;
* `sendBye_exec`, `sendError_exec`: a message is added at the end of the queue;
* `logicFSM_exec`, `sendHead_exec`: what becomes of the message at the head.
-/

namespace Ipk24Chat

theorem advance_take_bind {t : Thread} {c : Client} {α : Type} (running : c.status = .running)
    (a : Act) (f : a.Answer → Prog α) (n : Nat) :
    (take a >>= f).advance (Client.perform t) (n + 1) c =
      match c.act t a with
      | .ok r c' => (f r).advance (Client.perform t) n c'
      | _ => none := by
  simp only [take, Program.perform, Program.act_bind, Program.advance, Client.perform, running,
    Program.ret_bind]
  cases c.act t a <;> rfl

/-! ## Calls of `errHandling` -/

section
variable {cfg : NetworkConfig} {t : Thread} {c c' : Client} {α β : Type}

theorem park_bind (k : α → Prog β) : (park >>= k) = park := by
  simp only [park, Program.act_bind]
  congr 1
  funext none
  exact none.elim

theorem exit_bind (e : ErrorCode) (k : α → Prog β) : (exit e >>= k) = exit e := by
  simp only [exit, Program.act_bind]
  congr 1
  funext none
  exact none.elim

theorem errHandling_bind (f : Failure) (k : α → Prog β) :
    (errHandling cfg f >>= k) = errHandling cfg f := by
  unfold errHandling
  split <;> simp only [Program.bind_assoc, park_bind, exit_bind]

theorem errHandling_results (answers : (a : Act) → a.Answer → Prop) (f : Failure) :
    (errHandling cfg f : Prog α).Results answers fun _ => False := by
  have stops {a : Act} (k : a.Answer → Prog α) (empty : a.Answer → False) :
      (Program.act a k).Results answers fun _ => False := fun r _ => (empty r).elim
  unfold errHandling
  split
  case h_3 => exact Program.results_bind fun _ => stops _ Empty.elim
  all_goals
    iterate 7 refine Program.results_bind fun _ => ?_
    exact stops _ Empty.elim

/-- The program comes to a call of `errHandling`. -/
def Fails (cfg : NetworkConfig) (t : Thread) (p : Prog α) (c : Client) : Prop :=
  ∃ n f c', p.advance (Client.perform t) n c = some (errHandling cfg f, c')

theorem errHandling_fails (f : Failure) (c : Client) :
    Fails cfg t (errHandling cfg f : Prog α) c := ⟨0, f, c, rfl⟩

theorem Fails.bind {p : Prog α} (h : Fails cfg t p c) (k : α → Prog β) :
    Fails cfg t (p >>= k) c := by
  obtain ⟨n, f, c', run⟩ := h
  refine ⟨n, f, c', ?_⟩
  rw [Program.advance_bind run, errHandling_bind]

theorem Fails.after {p : Prog α} {k : α → Prog β} {a : α}
    (run : p.exec (Client.perform t) c = .done a c') (h : Fails cfg t (k a) c') :
    Fails cfg t (p >>= k) c := by
  obtain ⟨n, first⟩ := Program.advance_of_done run
  obtain ⟨n', f, c'', rest⟩ := h
  refine ⟨n + n', f, c'', ?_⟩
  rw [Program.advance_add (Program.advance_bind first k)]
  exact rest

theorem Fails.of_advance {p q : Prog α} {n : Nat}
    (run : p.advance (Client.perform t) n c = some (q, c')) (h : Fails cfg t q c') :
    Fails cfg t p c := by
  obtain ⟨n', f, c'', rest⟩ := h
  exact ⟨n + n', f, c'', by rw [Program.advance_add run, rest]⟩

/-- A call of `errHandling` stops the thread. -/
theorem Fails.halted {p : Prog α} (h : Fails cfg t p c) :
    ∃ c', p.exec (Client.perform t) c = .halted c' := by
  obtain ⟨n, f, c', run⟩ := h
  rw [Program.exec_advance run]
  cases ended : (errHandling cfg f : Prog α).exec (Client.perform t) c' with
  | done a c'' =>
    have never : (errHandling cfg f : Prog α).Results (fun _ _ => True) fun _ => False :=
      errHandling_results _ f
    exact (Program.exec_results (fun _ _ _ _ _ => trivial) never ended).elim
  | halted c'' => exact ⟨c'', rfl⟩

/-- The program ends with `Q`, or it comes to a call of `errHandling`. -/
def Ends (cfg : NetworkConfig) (t : Thread) (p : Prog α) (Q : α → Client → Prop) (c : Client) :
    Prop :=
  Fails cfg t p c ∨ ∃ a c', p.exec (Client.perform t) c = .done a c' ∧ Q a c'

section
variable {Q : α → Client → Prop} {Q' : β → Client → Prop}

theorem ends_ret {a : α} (h : Q a c) : Ends cfg t (.ret a) Q c := Or.inr ⟨a, c, rfl, h⟩

theorem ends_errHandling (f : Failure) : Ends cfg t (errHandling cfg f) Q c :=
  Or.inl (errHandling_fails f c)

theorem ends_bind {p : Prog α} {k : α → Prog β} (h : Ends cfg t p Q c)
    (rest : ∀ a c', Q a c' → Ends cfg t (k a) Q' c') : Ends cfg t (p >>= k) Q' c := by
  rcases h with failed | ⟨a, c', run, known⟩
  · exact Or.inl (failed.bind k)
  · rcases rest a c' known with failed | ⟨b, c'', run', known'⟩
    · exact Or.inl (.after run failed)
    · refine Or.inr ⟨b, c'', ?_, known'⟩
      rw [Program.exec_bind, run, Outcome.bind_done, run']

theorem ends_take_bind {a : Act} {k : a.Answer → Prog β} {r : a.Answer}
    (running : c.status = .running) (act : c.act t a = .ok r c') (rest : Ends cfg t (k r) Q' c') :
    Ends cfg t (take a >>= k) Q' c := by
  refine ends_bind (Q := fun a c'' => a = r ∧ c'' = c') (Or.inr ⟨r, c', ?_, rfl, rfl⟩) ?_
  · rw [exec_take running, act]
  · rintro _ _ ⟨rfl, rfl⟩
    exact rest

theorem ends_take {a : Act} {Q : a.Answer → Client → Prop} {r : a.Answer}
    (running : c.status = .running) (act : c.act t a = .ok r c') (h : Q r c') :
    Ends cfg t (take a) Q c :=
  Or.inr ⟨r, c', by rw [exec_take running, act], h⟩

theorem ends_of_advance {p q : Prog α} {n : Nat}
    (run : p.advance (Client.perform t) n c = some (q, c')) (h : Ends cfg t q Q c') :
    Ends cfg t p Q c := by
  rcases h with failed | ⟨a, c'', run', known⟩
  · exact Or.inl (.of_advance run failed)
  · exact Or.inr ⟨a, c'', (Program.exec_advance run).trans run', known⟩

theorem ends_mono {p : Prog α} {Q₁ : α → Client → Prop} (h : Ends cfg t p Q c)
    (weaker : ∀ a c', Q a c' → Q₁ a c') : Ends cfg t p Q₁ c := by
  rcases h with failed | ⟨a, c', run, known⟩
  · exact Or.inl failed
  · exact Or.inr ⟨a, c', run, weaker a c' known⟩

end

end

/-! ## Messages at the end of the queue -/

/-- A message as it is queued: neither sent nor confirmed. -/
structure Message.Fresh (m : Message) (uid : Nat) (type : UInt8) (flags : MsgFlags) : Prop where
  uid : m.uid = uid
  type : m.type = type
  msgFlags : m.msgFlags = flags
  sendCount : m.sendCount = 0
  confirmed : m.confirmed = false

/-- A message was added to the queue, by way of a buffer. -/
def Client.appended (c : Client) (m : Message) (scratch : Scratch → Buffer) (reallocs : Nat) :
    Client :=
  { c with
    sendingQueue := c.sendingQueue ++ [m]
    nextUid := c.nextUid + 1
    history := .queued m :: c.history
    scratch := scratch
    reallocs := reallocs }

section
variable {c : Client} (running : c.status = .running) (unlocked : c.lock = none)
  (cfg : NetworkConfig) (t : Thread)
include running unlocked

theorem sendBye_exec :
    ∃ m scratch reallocs, m.Fresh c.nextUid MsgType.msgBye.toUChar .msgFlagBye ∧
      (sendBye cfg).exec (Client.perform t) c = .done () (c.appended m scratch reallocs) := by
  obtain ⟨fsmState, queue, lock, com, input, scratch, response, seen, heap, reallocs, nextUid,
    status, history⟩ := c
  obtain rfl : status = .running := running
  obtain rfl : lock = none := unlocked
  obtain ⟨protocol, retries⟩ := cfg
  cases protocol <;> exact ⟨_, _, _, ⟨rfl, rfl, rfl, rfl, rfl⟩, rfl⟩

/-- Without a display name there is no ERR, and `errHandling` is called with the lock
held. -/
theorem sendError_exec (buffer : Scratch) (text : String) :
    (∃ m scratch reallocs, m.Fresh c.nextUid CommandType.cmdErr.toUChar .msgFlagErr ∧
      (sendError cfg buffer text).exec (Client.perform t) c =
        .done () (c.appended m scratch reallocs)) ∨
      Fails cfg t (sendError cfg buffer text) c := by
  obtain ⟨fsmState, queue, lock, com, input, scratch, response, seen, heap, reallocs, nextUid,
    status, history⟩ := c
  obtain rfl : status = .running := running
  obtain rfl : lock = none := unlocked
  obtain ⟨protocol, retries⟩ := cfg
  obtain ⟨⟨data, size, used⟩, channel, counter⟩ := com
  cases data with
  | none =>
    right
    cases protocol <;>
      exact ⟨4, ⟨"Assembling of error protocol failed\n", .errInternalUnexpectedResult⟩, _, rfl⟩
  | some mem =>
    left
    cases protocol <;> exact ⟨_, _, _, ⟨rfl, rfl, rfl, rfl, rfl⟩, rfl⟩

end

/-! ## The message at the head -/

/-- The message that goes out: in the UDP variant it is labelled with the counter,
unless it is flagged as a confirmation. -/
def Message.labelled (cfg : NetworkConfig) (msgCounter : Nat) (m : Message) : Message :=
  match cfg.protocol with
  | .protUDP =>
    if m.msgFlags ≠ .msgFlagConfirm ∧ m.msgFlags ≠ .msgFlagNokReply then m.setMsgID msgCounter
    else m
  | .protTCP => m

@[simp] theorem Message.labelled_uid (cfg : NetworkConfig) (msgCounter : Nat) (m : Message) :
    (m.labelled cfg msgCounter).uid = m.uid := by
  unfold labelled
  split
  · split <;> rfl
  · rfl

@[simp] theorem Message.labelled_msgFlags (cfg : NetworkConfig) (msgCounter : Nat) (m : Message) :
    (m.labelled cfg msgCounter).msgFlags = m.msgFlags := by
  unfold labelled
  split
  · split <;> rfl
  · rfl

/-- What stays of a message in the queue when it was sent. -/
def Message.kept (cfg : NetworkConfig) (m : Message) : MessageQueue :=
  match cfg.protocol with
  | .protUDP =>
    match m.msgFlags with
    | .msgFlagDoNotResend | .msgFlagConfirm | .msgFlagNokReply => []
    | _ => [{ m with sendCount := (m.sendCount + 1) % 256 }]
  | .protTCP => []

/-- The counter behind a transmission; in the UDP variant only answers set it. -/
def NetworkConfig.counted (cfg : NetworkConfig) (msgCounter : Nat) : Nat :=
  match cfg.protocol with
  | .protUDP => msgCounter
  | .protTCP => (msgCounter + 1) % 65536

/-- The message at the head was sent. -/
def Client.sentHead (cfg : NetworkConfig) (c : Client) (m : Message) (rest : MessageQueue) :
    Client :=
  { c with
    sendingQueue := (m.labelled cfg c.comDetails.msgCounter).kept cfg ++ rest
    lock := none
    comDetails := { c.comDetails with msgCounter := cfg.counted c.comDetails.msgCounter }
    history := .transmitted (m.labelled cfg c.comDetails.msgCounter) :: c.history }

section
variable {c : Client} (running : c.status = .running) (cfg : NetworkConfig) (t : Thread)
  {m : Message} {rest : MessageQueue} (queue : c.sendingQueue = m :: rest)
include running queue

theorem labelMessage_advance {α : Type} (f : Prog α) (n : Nat) :
    (labelMessage cfg >>= fun _ => f).advance (Client.perform t) (n + 1) c =
      f.advance (Client.perform t) n { c with
        sendingQueue := m.labelled cfg c.comDetails.msgCounter :: rest
        comDetails :=
          { c.comDetails with msgCounter := cfg.counted c.comDetails.msgCounter } } := by
  obtain ⟨protocol, retries⟩ := cfg
  cases protocol with
  | protUDP =>
    rw [labelMessage, queueSetMessageID, advance_take_bind running]
    simp only [Client.act, queue, MessageQueue.setMessageID, Message.labelled,
      NetworkConfig.counted]
    split <;> rfl
  | protTCP =>
    rw [labelMessage, advance_take_bind running]
    simp only [Client.act, ← queue, Message.labelled, NetworkConfig.counted]

theorem messageWasSended_exec {α : Type} (f : Prog α) :
    (messageWasSended cfg (some m.uid) m.msgFlags >>= fun _ => f).exec (Client.perform t) c =
      f.exec (Client.perform t) { c with sendingQueue := m.kept cfg ++ rest } := by
  obtain ⟨fsmState, _, lock, com, input, scratch, response, seen, heap, reallocs, nextUid,
    status, history⟩ := c
  obtain rfl : status = .running := running
  obtain rfl := queue
  obtain ⟨protocol, retries⟩ := cfg
  cases protocol with
  | protUDP =>
    obtain ⟨uid, bytes, count, confirmed, type, flags⟩ := m
    cases flags <;> rfl
  | protTCP =>
    simp only [messageWasSended, Program.bind_assoc]
    rw [message, exec_take_bind rfl]
    simp only [Client.act, deref_head]
    split <;> rfl

/-- The first actions of `sendHead`, up to the look at what `sendto` returned. -/
theorem sendHead_advance (bytesTx : Int) :
    (sendHead cfg bytesTx).advance (Client.perform t) 4 c = some
      (if bytesTx < 0 then
        errHandling cfg ⟨"Sending bytes was not successful", .errCommunication⟩
      else do
        messageWasSended cfg (some m.uid) m.msgFlags
        queueUnlock
        pure .protocolSender,
      { c with
        sendingQueue := m.labelled cfg c.comDetails.msgCounter :: rest
        comDetails := { c.comDetails with msgCounter := cfg.counted c.comDetails.msgCounter }
        history := .transmitted (m.labelled cfg c.comDetails.msgCounter) :: c.history }) := by
  unfold sendHead
  rw [queueGetMessage, advance_take_bind running]
  simp only [Client.act, queue, MessageQueue.getMessage, List.head?_cons, Option.map_some]
  rw [labelMessage_advance running cfg t queue, sendto, advance_take_bind (by exact running)]
  simp only [Client.act]
  rw [← Message.labelled_uid cfg c.comDetails.msgCounter m, deref_head]
  simp only [Client.log]
  rw [queueGetMessageFlags, advance_take_bind (by exact running)]
  simp only [Client.act, Message.labelled_msgFlags, Program.advance]

theorem sendHead_exec {bytesTx : Int} (sent : 0 ≤ bytesTx) :
    (sendHead cfg bytesTx).exec (Client.perform t) c =
      .done .protocolSender (c.sentHead cfg m rest) := by
  rw [Program.exec_advance (sendHead_advance running cfg t queue bytesTx),
    if_neg (by omega)]
  have run := messageWasSended_exec (c := { c with
    sendingQueue := m.labelled cfg c.comDetails.msgCounter :: rest
    comDetails := { c.comDetails with msgCounter := cfg.counted c.comDetails.msgCounter }
    history := .transmitted (m.labelled cfg c.comDetails.msgCounter) :: c.history })
    running cfg t rfl (queueUnlock >>= fun _ => pure Point.protocolSender)
  rw [Message.labelled_uid, Message.labelled_msgFlags] at run
  rw [run, queueUnlock, exec_take_bind (by exact running)]
  rfl

theorem sendHead_fails {bytesTx : Int} (failed : bytesTx < 0) :
    Fails cfg t (sendHead cfg bytesTx) c := by
  have run := sendHead_advance running cfg t queue bytesTx
  rw [if_pos failed] at run
  exact ⟨4, _, _, run⟩

end

/-- How `logicFSM` goes on before a successful authentication. -/
def Message.beforeAuth (m : Message) : LogicResult :=
  if uchar2msgType m.type ≠ .msgAuth ∧ m.msgFlags ≠ .msgFlagNokReply then .waitSend
  else if uchar2msgType m.type = .msgAuth then
    if m.confirmed ∧ 0 < m.sendCount then .waitAgain else .proceed
  else .proceed

/-- The state behind that. -/
def Message.authState (m : Message) (state : Fsm) : Fsm :=
  if m.msgFlags = .msgFlagAuth ∧ state.toNat ≤ Fsm.fsmAuthW82BeSended.toNat then .fsmAuthSended
  else state

/-- How `logicFSM` goes on with the message at the head, and the state behind it. It
is `none` where the message is discarded or `errHandling` is called. -/
def logic (cfg : NetworkConfig) (m : Message) (state : Fsm) : Option (LogicResult × Fsm) :=
  match state with
  | .fsmStart | .fsmAuthW82BeSended | .fsmAuthSended | .fsmW84Reply =>
    some (m.beforeAuth, m.authState state)
  | .fsmW84ReplyConf =>
    some (.proceed, if uchar2msgType m.type = .msgConf then .fsmOpen else state)
  | .fsmOpen =>
    match uchar2msgType m.type with
    | .msgAuth => none
    | .msgJoin => some (.proceed, .fsmJoinAtempt)
    | _ => some (.proceed, state)
  | .fsmErrW84Conf | .fsmErr =>
    match m.msgFlags, cfg.protocol with
    | .msgFlagBye, .protUDP => some (.proceed, .fsmEndW84Conf)
    | .msgFlagBye, .protTCP => some (.proceed, .fsmEnd)
    | .msgFlagErr, .protUDP => some (.proceed, .fsmErrW84Conf)
    | .msgFlagErr, .protTCP | .msgFlagConfirm, _ => some (.proceed, state)
    | _, _ => none
  | _ => some (.proceed, state)

section
variable {c : Client} (running : c.status = .running) (cfg : NetworkConfig) (t : Thread)
  {m : Message} {rest : MessageQueue} (queue : c.sendingQueue = m :: rest)
include running

omit rest in
theorem authIsSended_exec {α : Type} (m : Message) (f : Prog α) :
    (authIsSended m.msgFlags >>= fun _ => f).exec (Client.perform t) c =
      f.exec (Client.perform t) { c with fsmState := m.authState c.fsmState } := by
  unfold authIsSended Message.authState
  by_cases auth : m.msgFlags = .msgFlagAuth
  · rw [if_pos auth, Program.bind_assoc, getProgramState, exec_take_bind running]
    simp only [Client.act, auth, true_and]
    split
    · rw [setProgramState, exec_take_bind running]
      rfl
    · rfl
  · simp only [auth, if_false, false_and, Program.pure_eq, Program.ret_bind]

include queue

theorem logicBeforeAuth_exec :
    (logicBeforeAuth (some m.uid) (uchar2msgType m.type) m.msgFlags).exec (Client.perform t) c =
      .done m.beforeAuth { c with
        fsmState := m.authState c.fsmState
        lock := if m.beforeAuth = .proceed then c.lock else none } := by
  unfold logicBeforeAuth Message.beforeAuth
  rw [authIsSended_exec running t m]
  by_cases other : uchar2msgType m.type ≠ .msgAuth ∧ m.msgFlags ≠ .msgFlagNokReply
  · rw [if_pos other, if_pos other, queueUnlock, exec_take_bind (by exact running)]
    rfl
  · rw [if_neg other, if_neg other]
    by_cases auth : uchar2msgType m.type = .msgAuth
    · rw [if_pos auth, if_pos auth, message, exec_take_bind (by exact running)]
      simp only [Client.act, queue, deref_head]
      split
      · rw [queueUnlock, exec_take_bind (by exact running)]
        rfl
      · rfl
    · rw [if_neg auth, if_neg auth]
      rfl

/-- The first actions of `logicFSM`, up to the branch of the state. -/
theorem logicFSM_advance :
    (logicFSM cfg).advance (Client.perform t) 4 c = some
      (match c.fsmState with
      | .fsmStart | .fsmAuthW82BeSended | .fsmAuthSended | .fsmW84Reply =>
        logicBeforeAuth (some m.uid) (uchar2msgType m.type) m.msgFlags
      | .fsmW84ReplyConf => logicReplyConf (uchar2msgType m.type)
      | .fsmOpen => logicOpen (uchar2msgType m.type)
      | .fsmErrW84Conf | .fsmErr => logicErr cfg m.msgFlags
      | _ => pure .proceed, c) := by
  obtain ⟨fsmState, _, lock, com, input, scratch, response, seen, heap, reallocs, nextUid,
    status, history⟩ := c
  obtain rfl : status = .running := running
  obtain rfl := queue
  rfl

theorem logicFSM_exec {result : LogicResult} {state : Fsm}
    (decided : logic cfg m c.fsmState = some (result, state)) :
    (logicFSM cfg).exec (Client.perform t) c = .done result { c with
      fsmState := state
      lock := if result = .proceed then c.lock else none } := by
  rw [Program.exec_advance (logicFSM_advance running cfg t queue)]
  have early := logicBeforeAuth_exec running t queue
  obtain ⟨fsmState, _, lock, com, input, scratch, response, seen, heap, reallocs, nextUid,
    status, history⟩ := c
  obtain rfl : status = .running := running
  obtain rfl := queue
  cases fsmState with
  | fsmStart | fsmAuthW82BeSended | fsmAuthSended | fsmW84Reply =>
    cases decided
    exact early
  | fsmW84ReplyConf =>
    cases decided
    simp only [logicReplyConf]
    split <;> rfl
  | fsmOpen =>
    clear early
    simp only [logic, logicOpen] at decided ⊢
    generalize uchar2msgType m.type = type at decided ⊢
    cases type <;> cases decided <;> rfl
  | fsmErrW84Conf | fsmErr =>
    obtain ⟨protocol, retries⟩ := cfg
    simp only [logic, logicErr] at decided ⊢
    cases flags : m.msgFlags <;> cases protocol <;> rw [flags] at decided <;> cases decided <;> rfl
  | _ =>
    cases decided
    rfl

/-- A message that does not belong to the end has no place in the error state. -/
theorem logicFSM_fails (refused : logic cfg m c.fsmState = none) (other : c.fsmState ≠ .fsmOpen) :
    Fails cfg t (logicFSM cfg) c := by
  refine ⟨4, ⟨"ERR: Sender send message that is not BYE in ERROR state\n", .errInternalBadArg⟩, c,
    ?_⟩
  rw [logicFSM_advance running cfg t queue]
  cases state : c.fsmState with
  | fsmErrW84Conf | fsmErr =>
    rw [state] at refused
    simp only [logic] at refused
    simp only [logicErr]
    cases flags : m.msgFlags <;> cases protocol : cfg.protocol <;>
      rw [flags, protocol] at refused <;> first | rfl | cases refused
  | fsmOpen => exact absurd state other
  | _ => simp [state, logic] at refused

/-- An AUTH in the open state is thrown away, and the message behind it is taken. -/
theorem logicFSM_discards (state : c.fsmState = .fsmOpen)
    (auth : uchar2msgType m.type = .msgAuth) :
    (logicFSM cfg).exec (Client.perform t) c = .done .proceed
      { c with sendingQueue := rest, history := .authDiscarded :: c.history } := by
  have branch := Program.exec_advance (logicFSM_advance running cfg t queue)
  rw [auth] at branch
  rw [branch]
  obtain ⟨fsmState, _, lock, com, input, scratch, response, seen, heap, reallocs, nextUid,
    status, history⟩ := c
  obtain rfl : status = .running := running
  obtain rfl := queue
  obtain rfl := state
  rfl

/-! ## The loop body -/

theorem logicAndSend_sends {state : Fsm} (decided : logic cfg m c.fsmState = some (.proceed, state))
    {bytesTx : Int} (sent : 0 ≤ bytesTx) :
    (logicAndSend cfg bytesTx).exec (Client.perform t) c =
      .done .protocolSender ({ c with fsmState := state }.sentHead cfg m rest) := by
  rw [logicAndSend, Program.exec_bind, logicFSM_exec running cfg t queue decided,
    Outcome.bind_done]
  exact sendHead_exec (c := { c with fsmState := state }) running cfg t queue sent

theorem logicAndSend_waits {state : Fsm} {result : LogicResult}
    (decided : logic cfg m c.fsmState = some (result, state)) (waits : result ≠ .proceed)
    (bytesTx : Int) :
    ∃ p, (p = .logicWaitSend ∨ p = .logicWaitAgain) ∧
      (logicAndSend cfg bytesTx).exec (Client.perform t) c =
        .done p { c with fsmState := state, lock := none } := by
  rw [logicAndSend, Program.exec_bind, logicFSM_exec running cfg t queue decided,
    Outcome.bind_done, if_neg waits]
  cases result with
  | proceed => exact absurd rfl waits
  | waitSend => exact ⟨.logicWaitSend, Or.inl rfl, rfl⟩
  | waitAgain => exact ⟨.logicWaitAgain, Or.inr rfl, rfl⟩

theorem logicAndSend_fails {bytesTx : Int}
    (refused : logic cfg m c.fsmState = none ∧ c.fsmState ≠ .fsmOpen ∨
      (∃ state, logic cfg m c.fsmState = some (.proceed, state)) ∧ bytesTx < 0) :
    Fails cfg t (logicAndSend cfg bytesTx) c := by
  rcases refused with ⟨refused, other⟩ | ⟨⟨state, decided⟩, failed⟩
  · exact (logicFSM_fails running cfg t queue refused other).bind _
  · exact Fails.after (logicFSM_exec running cfg t queue decided)
      (sendHead_fails (c := { c with fsmState := state }) running cfg t queue failed)

omit queue in
theorem senderBody_empty (empty : c.sendingQueue = []) (bytesTx : Int) :
    (senderBody cfg bytesTx).exec (Client.perform t) c = .done .protocolSender { c with
      fsmState := if c.fsmState = .fsmEmptyQBye ∨ c.fsmState = .fsmSigintBye then .fsmEnd
        else c.fsmState
      lock := none } := by
  obtain ⟨fsmState, _, lock, com, input, scratch, response, seen, heap, reallocs, nextUid,
    status, history⟩ := c
  obtain rfl : status = .running := running
  obtain rfl := empty
  cases fsmState <;> rfl

/-- The state in which `logicFSM` is called. -/
def Client.resumed (c : Client) (t : Thread) : Client :=
  { c with lock := some t, history := .senderResumed :: c.history }

theorem senderBody_advance (bytesTx : Int) :
    (senderBody cfg bytesTx).advance (Client.perform t) 4 c =
      some (logicAndSend cfg bytesTx, c.resumed t) := by
  obtain ⟨fsmState, _, lock, com, input, scratch, response, seen, heap, reallocs, nextUid,
    status, history⟩ := c
  obtain rfl : status = .running := running
  obtain rfl := queue
  rfl

end

end Ipk24Chat
