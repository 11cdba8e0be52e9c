import Ipk24Chat.Absorbing
import Ipk24Chat.SenderPass

/-!
# Error reports

`sendError` needs a display name, which only `/auth` stores. In runs of whole
passes, with nothing left open before a name is stored, every call of `sendError`
finds one and an ERR and a BYE are queued.

* `Reports`: a program whose calls of `sendError` all succeed;
* `Signed`, `signed_of_passedIf`: in the UDP variant a name is stored, or the client is
  still in its first state with nothing but CONFIRMs queued;
* `sender_quiet`, `receiverAction_quiet`: what assembles no ERR in the TCP variant;
* `reports_of_passedIf`: the error reports of such runs;
* `not_reports_exit`: a client that leaves before it has a name.
-/

namespace Ipk24Chat

/-- The action by which `sendError` assembles its message. -/
def Act.BuildsError : Act → Prop
  | .assembleProtocol _ _ pBlocks => uchar2CommandType pBlocks.type = .cmdErr
  | _ => False

/-- A display name is stored. -/
def Named (c : Client) : Prop := c.comDetails.displayName.data.isSome

/-- The program comes to a point at which an ERR and a BYE end the queue. -/
def ErrorQueued {α : Type} (t : Thread) (q : Prog α) (c : Client) : Prop :=
  ∃ n q' c' front err bye, q.advance (Client.perform t) n c = some (q', c') ∧
    c'.sendingQueue = front ++ [err, bye] ∧
    err.type = CommandType.cmdErr.toUChar ∧ err.msgFlags = .msgFlagErr ∧
    bye.type = MsgType.msgBye.toUChar ∧ bye.msgFlags = .msgFlagBye

/-- Whenever the program assembles an ERR, a name is stored, and the ERR and a BYE
are queued. -/
def Reports {α : Type} (t : Thread) (q : Prog α) (c : Client) : Prop :=
  ∀ n a next c', q.advance (Client.perform t) n c = some (.act a next, c') → a.BuildsError →
    Named c' ∧ ErrorQueued t (.act a next) c'

section
variable {t : Thread} {c c' : Client} {α β : Type}

theorem ErrorQueued.bind {q : Prog α} (h : ErrorQueued t q c) (f : α → Prog β) :
    ErrorQueued t (q >>= f) c := by
  obtain ⟨n, q', c', front, err, bye, run, rest⟩ := h
  exact ⟨n, q' >>= f, c', front, err, bye, Program.advance_bind run f, rest⟩

theorem act_named {a : Act} {r : a.Answer} (h : c.act t a = .ok r c') (named : Named c) :
    Named c' := by
  unfold Named
  by_cases stores : ∃ src, a = .storeDisplayName src ∨ a = .storeChannelID src
  · obtain ⟨src, rfl | rfl⟩ := stores
    · cases h
      rfl
    · cases h
      exact named
  · rw [(Client.act_names h fun src => ⟨fun eq => stores ⟨src, .inl eq⟩,
      fun eq => stores ⟨src, .inr eq⟩⟩).1]
    exact named

/-! ## Programs that report -/

theorem reports_ret (a : α) : Reports t (.ret a : Prog α) c := by
  intro n b next c' run
  cases n with
  | zero => cases run
  | succ n => cases run

theorem reports_act {a : Act} {next : a.Answer → Prog α}
    (built : a.BuildsError → Named c ∧ ErrorQueued t (.act a next) c)
    (rest : ∀ r c', c.status = .running → c.act t a = .ok r c' → Reports t (next r) c') :
    Reports t (.act a next) c := by
  intro n b next' c' run builds
  cases n with
  | zero =>
    cases run
    exact built builds
  | succ n =>
    simp only [Program.advance] at run
    split at run
    · rename_i r c₁ effect
      obtain ⟨running, act⟩ := Client.perform_ok effect
      exact rest r c₁ running act n b next' c' run builds
    · cases run

theorem reports_take {a : Act} {f : a.Answer → Prog α} (quiet : ¬ a.BuildsError)
    (rest : ∀ r c', c.status = .running → c.act t a = .ok r c' → Reports t (f r) c') :
    Reports t (take a >>= f) c :=
  reports_act (fun builds => absurd builds quiet) rest

/-- The parts of a program report one after the other. -/
theorem reports_bind {p : Prog α} {f : α → Prog β} (hp : Reports t p c)
    (hf : ∀ a c', p.exec (Client.perform t) c = .done a c' → Reports t (f a) c') :
    Reports t (p >>= f) c := by
  induction p generalizing c with
  | ret a => exact hf a c rfl
  | act a next ih =>
    refine reports_act (fun builds => ?_) fun r c' running act => ?_
    · obtain ⟨known, queued⟩ := hp 0 a next c rfl builds
      exact ⟨known, queued.bind f⟩
    · refine ih r (fun n b next' c₂ run builds => ?_) fun b c₂ run => ?_
      · refine hp (n + 1) b next' c₂ ?_ builds
        simp only [Program.advance, Client.perform, running, act, run]
      · refine hf b c₂ ?_
        simp only [Program.exec, Client.perform, running, act, run]

/-- A name that is stored stays stored. -/
theorem exec_named (p : Prog α) (named : Named c) :
    Named (p.exec (Client.perform t) c).state := by
  induction p generalizing c with
  | ret b => exact named
  | act b next ih =>
    simp only [Program.exec]
    cases effect : Client.perform t b c with
    | ok r c' => exact ih r (act_named (Client.perform_ok effect).2 named)
    | halt c' =>
      rw [Client.act_halt (Client.perform_halt effect).2]
      exact named
    | blocked => exact named

theorem named_of_done {p : Prog α} {a : α} (run : p.exec (Client.perform t) c = .done a c')
    (named : Named c) : Named c' := by
  have kept := exec_named (t := t) p named
  rw [run] at kept
  exact kept

/-- Reporting from every state with a name is a property to follow programs with. -/
theorem reports_rules (t : Thread) :
    Program.Compositional (fun a => ¬ a.BuildsError) Act.Truthful
      fun {α} (p : Prog α) => ∀ c, Named c → Reports t p c where
  ret a := fun _ _ => reports_ret a
  act quiet rest _ named := reports_act (fun builds => absurd builds quiet)
    fun r c' _ act => rest r (Client.act_truthful act) c' (act_named act named)
  bind_of_results := by
    intro α β p f Q hp results hf c named
    refine reports_bind (hp c named) fun a c' run => hf a ?_ c' (named_of_done run named)
    exact Program.exec_results (m := Client.perform t)
      (fun _ _ _ _ h => Client.act_truthful (Client.perform_ok h).2) results run

/-- Programs that never assemble an ERR report what there is to report. -/
theorem reports_of_obeys {answers : (a : Act) → a.Answer → Prop} {I : Client → Prop}
    {allowed : Act → Prop} (quiet : ∀ a, allowed a → ¬ a.BuildsError)
    (step : ∀ a c r c', I c → allowed a → c.act t a = .ok r c' → I c' ∧ answers a r)
    {q : Prog α} (h : q.Obeys allowed answers) (inv : I c) : Reports t q c := by
  induction q generalizing c with
  | ret a => exact reports_ret a
  | act a next ih =>
    refine reports_act (fun builds => absurd builds (quiet a h.1)) fun r c' _ act => ?_
    obtain ⟨inv', answer⟩ := step a c r c' inv h.1 act
    exact ih r (h.2 r answer) inv'

theorem quiet_of_calm (a : Act) (h : a.Calm) : ¬ a.BuildsError := by
  cases a <;> first | exact fun builds => builds.elim | exact h.1.elim

theorem quiet_of_wiring (a : Act) (h : a.Wiring) : ¬ a.BuildsError := by
  cases a <;> first | exact fun builds => builds.elim | exact h.elim

/-! ## The code of the client -/

variable {cfg : NetworkConfig}

theorem sendBye_quiet {G : {α : Type} → Prog α → Prop}
    (rules : Program.Compositional (fun a : Act => ¬ a.BuildsError) Act.Truthful G) :
    G (sendBye cfg) := by
  unfold sendBye
  refine take_bind rules (quiet_of_calm _ ⟨trivial, by rintro ⟨⟩⟩) fun _ _ => ?_
  refine take_bind rules (by simp [Act.BuildsError, ProtocolBlocks.reset]) fun _ _ => ?_
  refine take_bind rules (fun builds => builds.elim) fun _ _ => ?_
  exact take_only rules (quiet_of_calm _ ⟨trivial, by rintro ⟨⟩⟩)

/-- Code that assembles no ERR. -/
abbrev Quiet (q : Prog α) : Prop := q.Obeys (fun a => ¬ a.BuildsError) Act.Truthful

theorem quiet_rules : Program.Compositional (fun a : Act => ¬ a.BuildsError) Act.Truthful
    fun {α} (p : Prog α) => Quiet p := Program.compositional_obeys

/-- Main assembles no ERR. -/
theorem userCommandHandling_quiet (eofDetected : Bool) (stdin : List UInt8) :
    Quiet (userCommandHandling cfg eofDetected stdin) := by
  have rules := quiet_rules
  refine userCommandHandling_obeys rules quiet_of_calm (sendBye_quiet rules) (fun _ _ h => h)
    (fun _ => ⟨fun builds => builds.elim, fun builds => builds.elim⟩)
    (fun _ _ builds => builds.elim) ?_ _ _
  intro pBlocks flags _ _ sendable _
  refine assembleCommand_obeys rules quiet_of_calm (sendBye_quiet rules) (fun _ _ h => h) _ _ ?_
    fun _ _ builds => builds.elim
  unfold Sendable at sendable
  unfold Act.BuildsError
  cases cmd : uchar2CommandType pBlocks.type <;> simp only [cmd] at sendable ⊢ <;> exact nofun

theorem reports_of_quiet {q : Prog α} (quiet : Quiet q) (c : Client) : Reports t q c :=
  reports_of_obeys (I := fun _ => True) (fun _ quiet => quiet)
    (fun _ _ _ _ _ _ act => ⟨trivial, Client.act_truthful act⟩) quiet trivial

/-- The receiver has a branch for the type. -/
def Known (pBlocks : ProtocolBlocks) : Prop :=
  uchar2msgType pBlocks.type ∈ [.msgConf, .msgReply, .msgMsg, .msgBye, .msgErr]

/-- Nothing times out over TCP, so the sender assembles no ERR there. -/
theorem sender_quiet (tcp : cfg.protocol = .protTCP) {p : Point} {q : Prog Point}
    (starts : Starts cfg .sender p q) : Quiet q := by
  have rules := quiet_rules
  have bye : Quiet (sendBye cfg) := sendBye_quiet rules
  have head (bytesTx : Int) : Quiet (sendHead cfg bytesTx) :=
    sendHead_obeys rules quiet_of_calm (fun a wiring _ => quiet_of_wiring a wiring) bye bytesTx
  have logic (bytesTx : Int) : Quiet (logicAndSend cfg bytesTx) :=
    logicAndSend_obeys rules quiet_of_calm bye head (fun _ _ _ _ _ builds => builds.elim)
      (fun builds => builds.elim) bytesTx
  cases starts with
  | protocolSender fuel bytesTx =>
    unfold protocolSender
    refine take_bind rules (fun builds => builds.elim) fun state _ => ?_
    split
    · exact rules.ret _
    · simp only [tcp]
      exact senderBody_obeys rules quiet_of_calm bye head (fun _ _ _ _ _ builds => builds.elim)
        (fun builds => builds.elim) bytesTx
  | logicWaitSend bytesTx =>
    refine take_bind rules (fun builds => builds.elim) fun _ _ => ?_
    exact take_bind rules (fun builds => builds.elim) fun _ _ => head _
  | logicWaitAgain bytesTx =>
    refine take_bind rules (fun builds => builds.elim) fun _ _ => ?_
    exact take_bind rules (fun builds => builds.elim) fun _ _ => logic _

/-- Nor does the receiver on a message whose type it knows. -/
theorem receiverAction_quiet (tcp : cfg.protocol = .protTCP) {pBlocks : ProtocolBlocks}
    (known : Known pBlocks) (msgID : Nat) (serverResponse : Buffer) (repetitiveMsg : Bool) :
    Quiet (receiverAction cfg msgID pBlocks serverResponse repetitiveMsg) := by
  have rules := quiet_rules
  have bye : Quiet (sendBye cfg) := sendBye_quiet rules
  have printed : Quiet (printIncomingMessage cfg pBlocks) :=
    printIncomingMessage_obeys rules quiet_of_calm bye fun builds => builds.elim
  unfold receiverAction inUDP
  simp only [tcp]
  split
  · exact errHandling_obeys rules quiet_of_calm bye _
  · exact handleReplyTCP_obeys rules quiet_of_calm
      (fun _ _ _ _ _ => ⟨fun builds => builds.elim, fun builds => builds.elim⟩)
      ⟨fun builds => builds.elim, fun _ _ _ _ builds => builds.elim⟩ tcp pBlocks
  · exact printed
  · refine rules.bind (rules.ret _) fun _ => ?_
    refine take_bind rules (fun builds => builds.elim) fun _ _ => ?_
    exact take_only rules fun builds => builds.elim
  · refine take_bind rules (fun builds => builds.elim) fun _ _ => ?_
    refine take_bind rules (fun builds => builds.elim) fun _ _ => ?_
    refine rules.bind (rules.ret _) fun _ => ?_
    refine take_bind rules (fun builds => builds.elim) fun _ _ => ?_
    refine rules.bind bye fun _ => ?_
    refine rules.bind (wakeSender_obeys rules quiet_of_calm) fun _ => ?_
    refine take_bind rules (fun builds => builds.elim) fun _ _ => ?_
    exact rules.bind printed fun _ => take_only rules fun builds => builds.elim
  · simp_all [Known]

/-- With a name there is an ERR. -/
theorem sendError_named (cfg : NetworkConfig) (t : Thread) (running : c.status = .running)
    (unlocked : c.lock = none) (named : Named c) (buffer : Scratch) (text : String) :
    ∃ m scratch reallocs, m.Fresh c.nextUid CommandType.cmdErr.toUChar .msgFlagErr ∧
      (sendError cfg buffer text).exec (Client.perform t) c =
        .done () (c.appended m scratch reallocs) := by
  obtain ⟨fsmState, queue, lock, com, input, scratch, response, seen, heap, reallocs, nextUid,
    status, history⟩ := c
  obtain rfl : status = .running := running
  obtain rfl : lock = none := unlocked
  obtain ⟨protocol, retries⟩ := cfg
  obtain ⟨⟨data, size, used⟩, channel, counter⟩ := com
  cases data with
  | none => cases named
  | some mem => cases protocol <;> exact ⟨_, _, _, ⟨rfl, rfl, rfl, rfl, rfl⟩, rfl⟩

theorem errorQueued_of_exec {q : Prog α} {a : α} {err bye : Message} {front : MessageQueue}
    {uid uid' : Nat} (run : q.exec (Client.perform t) c = .done a c')
    (queue : c'.sendingQueue = front ++ [err, bye])
    (isErr : err.Fresh uid CommandType.cmdErr.toUChar .msgFlagErr)
    (isBye : bye.Fresh uid' MsgType.msgBye.toUChar .msgFlagBye) : ErrorQueued t q c := by
  obtain ⟨n, steps⟩ := Program.advance_of_done run
  exact ⟨n, _, c', front, err, bye, steps, queue, isErr.type, isErr.msgFlags, isBye.type,
    isBye.msgFlags⟩

/-- An error report, once it is begun with the lock free. -/
theorem sendError_reports (cfg : NetworkConfig) (running : c.status = .running)
    (unlocked : c.lock = none) (named : Named c) (buffer : Scratch) (text : String) :
    Reports t (sendError cfg buffer text >>= fun _ => sendBye cfg) c := by
  have rules := reports_rules t
  have bye : ∀ c, Named c → Reports t (sendBye cfg) c := sendBye_quiet (reports_rules t)
  obtain ⟨m, scratch, reallocs, fresh, run⟩ :=
    sendError_named cfg t running unlocked named buffer text
  obtain ⟨m', scratch', reallocs', fresh', run'⟩ := sendBye_exec
    (c := c.appended m scratch reallocs) running unlocked cfg t
  have whole : (sendError cfg buffer text >>= fun _ => sendBye cfg).exec (Client.perform t) c =
      .done () ((c.appended m scratch reallocs).appended m' scratch' reallocs') := by
    rw [Program.exec_bind, run, Outcome.bind_done, run']
  have queue : ((c.appended m scratch reallocs).appended m' scratch' reallocs').sendingQueue =
      c.sendingQueue ++ [m, m'] := List.append_assoc ..
  simp only [sendError, Program.bind_assoc] at whole ⊢
  rw [getComDetails, exec_take_bind running] at whole
  refine reports_take (fun builds => builds.elim) fun comDetails c₁ _ act => ?_
  simp only [Client.act] at whole act
  cases act
  rw [exec_take_bind running] at whole
  refine reports_take (fun builds => builds.elim) fun _ c₁ _ act => ?_
  simp only [Client.act] at whole act
  cases act
  refine reports_act (fun _ => ⟨named, errorQueued_of_exec whole queue fresh fresh'⟩) ?_
  intro result c₁ _ act
  -- whatever comes of it, no second ERR is assembled
  refine rules.bind ?_ (fun _ => bye) c₁ (act_named act named)
  cases result with
  | error f => exact errHandling_obeys rules quiet_of_calm bye f
  | ok r =>
    refine take_bind rules (quiet_of_calm _ ⟨trivial, by rintro ⟨⟩⟩) fun _ _ => ?_
    split
    · refine take_bind rules (fun builds => builds.elim) fun _ _ => ?_
      exact take_only rules (quiet_of_calm _ ⟨trivial, by rintro ⟨⟩⟩)
    · exact errHandling_obeys rules quiet_of_calm bye _

/-- An error report and what follows it. -/
theorem reports_sendError_bind (cfg : NetworkConfig) (running : c.status = .running)
    (unlocked : c.lock = none) (named : Named c) (buffer : Scratch) (text : String)
    {f : Unit → Prog α} (rest : ∀ c, Named c → Reports t (f ()) c) :
    Reports t (sendError cfg buffer text >>= fun _ => sendBye cfg >>= f) c := by
  rw [← Program.bind_assoc]
  exact reports_bind (sendError_reports cfg running unlocked named buffer text)
    fun _ c' run => rest c' (named_of_done run named)

theorem sendConfirm_reports (t : Thread) (serverResponse : Buffer) (flags : MsgFlags) :
    ∀ c, Named c → Reports t (sendConfirm cfg serverResponse flags) c := by
  have rules := reports_rules t
  unfold sendConfirm
  refine take_bind rules (fun builds => builds.elim) fun _ _ => ?_
  refine take_bind rules (by simp [Act.BuildsError, ProtocolBlocks.reset]) fun result _ => ?_
  cases result with
  | error f => exact errHandling_obeys rules quiet_of_calm (sendBye_quiet (reports_rules t)) f
  | ok r =>
    change ∀ c, Named c → Reports t (if r.canBeSended = true then _ else _) c
    split
    · exact take_only rules fun builds => builds.elim
    · exact errHandling_obeys rules quiet_of_calm (sendBye_quiet (reports_rules t)) _

/-- The lock is free when the sender reports a request that timed out. -/
theorem requestTimedOut_reports (t : Thread) (named : Named c) :
    Reports t (requestTimedOut cfg) c := by
  have rules := reports_rules t
  unfold requestTimedOut
  refine reports_take (fun builds => builds.elim) fun _ c₁ _ act => ?_
  have named₁ := act_named act named
  refine reports_take (fun builds => builds.elim) fun _ c₂ _ act => ?_
  have named₂ := act_named act named₁
  refine reports_take (fun builds => builds.elim) fun _ c₃ _ act => ?_
  have named₃ := act_named act named₂
  refine reports_take (fun builds => builds.elim) fun _ c₄ running act => ?_
  refine reports_sendError_bind cfg ((Client.act_status act).trans running) ?_
    (act_named act named₃) _ _ ?_
  · exact Client.act_lock act
  · refine take_bind rules (quiet_of_calm _ ⟨trivial, nofun⟩) fun _ _ => ?_
    exact take_only rules (quiet_of_calm _ ⟨trivial, nofun⟩)

/-- The same for the receiver. -/
theorem unknownMessage_reports (t : Thread) (serverResponse : Buffer) (named : Named c) :
    Reports t (unknownMessage cfg serverResponse) c := by
  have rules := reports_rules t
  unfold unknownMessage
  refine reports_take (fun builds => builds.elim) fun _ c₁ _ act => ?_
  have named₁ := act_named act named
  refine reports_take (fun builds => builds.elim) fun _ c₂ _ act => ?_
  have named₂ := act_named act named₁
  refine reports_take (fun builds => builds.elim) fun _ c₃ _ act => ?_
  have named₃ := act_named act named₂
  refine reports_take (fun builds => builds.elim) fun _ c₄ running act => ?_
  have named₄ := act_named act named₃
  have running₄ : c₄.status = .running := (Client.act_status act).trans running
  have unlocked₄ : c₄.lock = none := Client.act_lock act
  have ends : ∀ c, Named c → Reports t (do
      wakeSender
      safePrint "ERR: Received unknown message from server. Ending program\n"
      pthreadCondSignal .mainCond) c := by
    refine rules.bind (wakeSender_obeys rules quiet_of_calm) fun _ => ?_
    refine take_bind rules (quiet_of_calm _ ⟨trivial, nofun⟩) fun _ _ => ?_
    exact take_only rules (quiet_of_calm _ ⟨trivial, nofun⟩)
  unfold inUDP
  split
  · refine reports_bind (sendConfirm_reports t _ _ c₄ named₄) fun _ c₅ run => ?_
    obtain ⟨m, scratch, reallocs, -, done⟩ :=
      sendConfirm_exec running₄ cfg t serverResponse .msgFlagConfirm
    cases done.symm.trans run
    exact reports_sendError_bind (c := c₄.prioritized m scratch reallocs) cfg running₄ unlocked₄
      named₄ _ _ ends
  · rw [Program.pure_eq, Program.ret_bind]
    exact reports_sendError_bind cfg running₄ unlocked₄ named₄ _ _ ends

theorem reports_parts (cfg : NetworkConfig) (t : Thread) :
    Parts cfg fun {α} (p : Prog α) => ∀ c, Named c → Reports t p c where
  sendBye := sendBye_quiet (reports_rules t)
  sendConfirm serverResponse flags _ := sendConfirm_reports t serverResponse flags
  sendHead := sendHead_obeys (reports_rules t) quiet_of_calm
    (fun a wiring _ => quiet_of_wiring a wiring) (sendBye_quiet (reports_rules t))
  replyCounter _ := take_bind (reports_rules t) (fun builds => builds.elim) fun _ _ =>
    take_only (reports_rules t) fun builds => builds.elim
  requestTimedOut _ := requestTimedOut_reports t
  unknownMessage serverResponse _ := unknownMessage_reports t serverResponse

/-- With a name stored, every pass reports its errors. -/
theorem starts_reports {p : Point} {q : Prog Point} (starts : Starts cfg t p q) :
    ∀ c, Named c → Reports t q c := by
  have rules := reports_rules t
  have parts := reports_parts cfg t
  have free (s : Fsm) : ¬ (Act.setProgramState s).BuildsError := fun builds => builds.elim
  have noted (e : Event) : ¬ (Act.note e).BuildsError := fun builds => builds.elim
  cases t with
  | main =>
    cases starts with
    | userCommandHandling eofDetected stdin =>
      exact fun c _ => reports_of_quiet (userCommandHandling_quiet eofDetected stdin) c
  | sender =>
    exact sender_obeys rules quiet_of_calm parts (fun _ _ _ s' _ => free s') (free _) starts
  | receiver =>
    cases starts with
    | protocolReceiver datagram _ =>
      refine protocolReceiver_obeys rules quiet_of_calm
        (fun _ _ _ s' _ => ⟨free s', noted _⟩) ⟨noted _, fun _ _ s' _ => free s'⟩
        (fun _ _ _ builds => builds.elim) (fun _ builds => builds.elim) parts (free _)
        (fun msgID => ?_)
        (fun _ builds => builds.elim) datagram
      exact handleConfirmUDP_obeys rules quiet_of_calm (free _)
        (fun a wiring _ => quiet_of_wiring a wiring) msgID

end

/-! ## Before a name is stored -/

/-- The client has not left its first state; there are only CONFIRMs in the queue. -/
structure Unnamed (c : Client) : Prop where
  state : c.fsmState = .fsmStart
  queue : ∀ m ∈ c.sendingQueue, m.msgFlags = .msgFlagConfirm ∧ m.sendCount = 0

/-- A name is stored, or nothing has happened yet that could ask for one. -/
def Signed (c : Client) : Prop := Named c ∨ Unnamed c

/-- What the sender and the receiver do in the first state. -/
def Act.Tame : Act → Prop
  | .setProgramState _ | .storeDisplayName _ | .queueMessageSended => False
  | .queueSetMessageFlags _ | .queueAddMessage _ _ _ => False
  | .queueAddMessagePriority _ flags _ => flags = .msgFlagConfirm
  | .assembleProtocol protocol _ pBlocks =>
    protocol = .protUDP ∧ uchar2CommandType pBlocks.type = .cmdConf
  | _ => True

/-- What they learn there. -/
def Act.Expected : (a : Act) → a.Answer → Prop
  | .getProgramState, state => state = .fsmStart
  | .queueGetMessageFlags, flags => flags = .msgFlagConfirm
  | .queueGetSendedCounter, sended => sended = 0
  | .message _, m => m.msgFlags = .msgFlagConfirm
  | .assembleProtocol .., result => ∃ r, result = .ok r ∧ r.canBeSended = true
  | _, _ => True

section
variable {t : Thread} {c c' : Client} {α : Type} {cfg : NetworkConfig}

theorem unnamed_queue {a : Act} (h : Unnamed c) (tame : a.Tame) :
    ∀ m ∈ c.queueAfter a, m.msgFlags = .msgFlagConfirm ∧ m.sendCount = 0 := by
  cases a <;> try exact h.queue
  case queueSetMessageFlags => exact tame.elim
  case queueMessageSended => exact tame.elim
  case queueAddMessage => exact tame.elim
  case queuePopMessage => exact fun m member => h.queue m (List.mem_of_mem_tail member)
  case queuePopAllMessages => exact List.forall_mem_nil _
  case queueAddMessagePriority buffer flags type =>
    obtain rfl : flags = .msgFlagConfirm := tame
    exact List.forall_mem_cons.mpr ⟨⟨rfl, rfl⟩, h.queue⟩
  case queueSetMessageID =>
    simp only [Client.queueAfter]
    have old := h.queue
    cases queue : c.sendingQueue with
    | nil => exact List.forall_mem_nil _
    | cons m rest =>
      -- a CONFIRM is not labelled
      rw [queue, List.forall_mem_cons] at old
      simp only [MessageQueue.setMessageID, old.1.1, ne_eq, not_true_eq_false, false_and, if_false]
      exact List.forall_mem_cons.mpr old
  case setConfirmed p =>
    simp only [Client.queueAfter, MessageQueue.confirm, List.mem_map]
    rintro m ⟨m', member, rfl⟩
    have old := h.queue m' member
    split <;> exact old

theorem unnamed_answer {a : Act} {r : a.Answer} (h : Unnamed c) (tame : a.Tame)
    (act : c.act t a = .ok r c') : a.Expected r := by
  cases a <;> try trivial
  case getProgramState =>
    cases act
    exact h.state
  case queueGetMessageFlags =>
    simp only [Client.act] at act
    split at act <;> cases act
    rename_i queue
    exact (h.queue _ (queue ▸ List.mem_cons_self)).1
  case queueGetSendedCounter =>
    simp only [Client.act] at act
    split at act <;> cases act
    rename_i queue
    exact (h.queue _ (queue ▸ List.mem_cons_self)).2
  case message p =>
    simp only [Client.act] at act
    split at act <;> cases act
    rename_i found
    exact (h.queue _ (Client.mem_of_deref found)).1
  case assembleProtocol protocol buffer pBlocks =>
    obtain ⟨rfl, conf⟩ := tame
    simp only [Client.act, assemble, assembleProtocolUDP, conf] at act
    cases act
    exact ⟨_, rfl, rfl⟩

theorem unnamed_step (a : Act) (c : Client) (r : a.Answer) (c' : Client) (h : Unnamed c)
    (tame : a.Tame) (act : c.act t a = .ok r c') : Unnamed c' ∧ a.Expected r := by
  refine ⟨⟨?_, ?_⟩, ?_⟩
  · rw [Client.act_fsmState act]
    cases a <;> first | exact h.state | exact tame.elim
  · rw [Client.act_queue act]
    exact unnamed_queue h tame
  · exact unnamed_answer h tame act

/-! ### The first state, function by function -/

/-- Code that leaves the first state as it is. -/
abbrev Tamed (q : Prog α) : Prop := q.Obeys Act.Tame Act.Expected

theorem tamed_take {a : Act} {f : a.Answer → Prog α} (tame : a.Tame)
    (rest : ∀ r, a.Expected r → Tamed (f r)) : Tamed (take a >>= f) := ⟨tame, rest⟩

theorem tamed_bind {β : Type} {p : Prog α} {f : α → Prog β} (hp : Tamed p)
    (hf : ∀ a, Tamed (f a)) : Tamed (p >>= f) := Program.obeys_bind hp hf

theorem tamed_only {a : Act} (tame : a.Tame) : Tamed (take a) := ⟨tame, fun _ _ => trivial⟩

theorem errHandling_tamed {f : Failure} (fatal : f.errorCode = .errCommunication) :
    Tamed (errHandling cfg f : Prog α) := by
  unfold errHandling
  rw [fatal]
  exact tamed_take trivial fun _ _ => ⟨trivial, fun none => none.elim⟩

theorem sendHead_tamed (bytesTx : Int) : Tamed (sendHead cfg bytesTx) := by
  unfold sendHead
  refine tamed_take trivial fun p _ => ?_
  refine tamed_bind ?_ fun _ => ?_
  · unfold labelMessage
    split <;> exact tamed_only trivial
  refine tamed_take trivial fun _ _ => ?_
  refine tamed_take trivial fun flags confirm => ?_
  obtain rfl : flags = .msgFlagConfirm := confirm
  split
  · exact errHandling_tamed rfl
  · refine tamed_bind ?_ fun _ => tamed_take trivial fun _ _ => trivial
    unfold messageWasSended
    split
    · exact tamed_only trivial
    · refine tamed_take trivial fun m _ => ?_
      split
      · exact tamed_take trivial fun _ _ => tamed_only trivial
      · exact tamed_only trivial

theorem logicAndSend_tamed (bytesTx : Int) : Tamed (logicAndSend cfg bytesTx) := by
  have logic : Tamed (logicFSM cfg) := by
    unfold logicFSM
    refine tamed_take trivial fun p _ => ?_
    refine tamed_take trivial fun type _ => ?_
    refine tamed_take trivial fun flags confirm => ?_
    obtain rfl : flags = .msgFlagConfirm := confirm
    refine tamed_take trivial fun state start => ?_
    obtain rfl : state = .fsmStart := start
    change Tamed (logicBeforeAuth p type .msgFlagConfirm)
    unfold logicBeforeAuth
    refine tamed_bind trivial fun _ => ?_
    split
    · exact tamed_take trivial fun _ _ => trivial
    · split
      · refine tamed_take trivial fun m _ => ?_
        split
        · exact tamed_take trivial fun _ _ => trivial
        · trivial
      · trivial
  unfold logicAndSend
  refine tamed_bind logic fun result => ?_
  cases result with
  | proceed => exact sendHead_tamed bytesTx
  | waitSend => trivial
  | waitAgain => trivial

theorem senderBody_tamed (bytesTx : Int) : Tamed (senderBody cfg bytesTx) := by
  unfold senderBody
  refine tamed_take trivial fun empty _ => ?_
  split
  · unfold endsWhenEmpty
    simp only [Program.bind_assoc]
    refine tamed_take trivial fun state start => ?_
    obtain rfl : state = .fsmStart := start
    refine tamed_take trivial fun state start => ?_
    obtain rfl : state = .fsmStart := start
    exact tamed_take trivial fun _ _ => trivial
  · refine tamed_take trivial fun _ _ => ?_
    refine tamed_take trivial fun _ _ => ?_
    refine tamed_take trivial fun _ _ => ?_
    exact logicAndSend_tamed bytesTx

/-- Nothing was sent, so nothing times out. -/
theorem filterLoop_tamed (fuel : Nat) (p : MsgPtr) (resetLoop : Bool) :
    Tamed (filterLoop cfg fuel p resetLoop) := by
  induction fuel generalizing p resetLoop with
  | zero => exact ⟨trivial, fun none => none.elim⟩
  | succ fuel ih =>
    cases p with
    | none => trivial
    | some uid =>
      have next : Tamed (do
          queuePopMessage
          let msgToBeSend ← queueGetMessage
          filterLoop cfg fuel msgToBeSend resetLoop) :=
        tamed_take trivial fun _ _ => tamed_take trivial fun p _ => ih p resetLoop
      unfold filterLoop
      refine tamed_take trivial fun sended none => ?_
      obtain rfl : sended = 0 := none
      rw [if_neg (Nat.not_lt_zero _)]
      refine tamed_take trivial fun m confirm => ?_
      have confirm : m.msgFlags = .msgFlagConfirm := confirm
      rw [if_neg (by simp [confirm]), if_neg (by simp [confirm])]
      split
      · trivial
      · exact next

theorem sender_tamed {p : Point} {q : Prog Point} (starts : Starts cfg .sender p q) : Tamed q := by
  cases starts with
  | protocolSender fuel bytesTx =>
    unfold protocolSender
    refine tamed_take trivial fun state start => ?_
    obtain rfl : state = .fsmStart := start
    rw [if_neg (by decide)]
    split
    · refine tamed_take trivial fun _ _ => ?_
      refine tamed_bind ?_ fun resetLoop => ?_
      · exact tamed_take trivial fun p _ => filterLoop_tamed fuel p false
      · split
        · trivial
        · exact senderBody_tamed bytesTx
    · exact senderBody_tamed bytesTx
  | logicWaitSend bytesTx =>
    refine tamed_take trivial fun _ _ => ?_
    exact tamed_take trivial fun _ _ => sendHead_tamed bytesTx
  | logicWaitAgain bytesTx =>
    refine tamed_take trivial fun _ _ => ?_
    exact tamed_take trivial fun _ _ => logicAndSend_tamed bytesTx

theorem sendConfirm_tamed (serverResponse : Buffer) :
    Tamed (sendConfirm cfg serverResponse .msgFlagConfirm) := by
  unfold sendConfirm
  refine tamed_take trivial fun _ _ => ?_
  refine tamed_take ⟨rfl, by simp [ProtocolBlocks.reset]⟩ fun result known => ?_
  obtain ⟨r, rfl, complete⟩ := known
  change Tamed (if r.canBeSended = true then _ else _)
  rw [if_pos complete]
  exact tamed_only rfl

theorem handleConfirmUDP_tamed (msgID : Nat) : Tamed (handleConfirmUDP msgID) := by
  unfold handleConfirmUDP
  refine tamed_take trivial fun _ _ => ?_
  refine tamed_take trivial fun p _ => ?_
  cases p with
  | none => exact tamed_only trivial
  | some uid =>
    refine tamed_take trivial fun id _ => ?_
    refine tamed_take trivial fun m _ => ?_
    split
    · exact tamed_only trivial
    · refine tamed_take trivial fun _ _ => ?_
      refine tamed_take trivial fun _ _ => ?_
      refine tamed_take trivial fun state start => ?_
      obtain rfl : state = .fsmStart := start
      exact tamed_take trivial fun _ _ => tamed_only trivial

/-- A REPLY that nobody waits for is not answered. -/
theorem handleReplyUDP_tamed (msgID : Nat) (pBlocks : ProtocolBlocks) (serverResponse : Buffer) :
    Tamed (handleReplyUDP cfg msgID pBlocks serverResponse) := by
  refine tamed_take trivial fun state start => ?_
  obtain rfl : state = .fsmStart := start
  refine tamed_take trivial fun state start => ?_
  obtain rfl : state = .fsmStart := start
  trivial

theorem handleReplyTCP_tamed (pBlocks : ProtocolBlocks) : Tamed (handleReplyTCP pBlocks) := by
  refine tamed_take trivial fun state start => ?_
  obtain rfl : state = .fsmStart := start
  exact tamed_only trivial

theorem receiverAction_tamed (msgID : Nat) {pBlocks : ProtocolBlocks} (serverResponse : Buffer)
    (answer : pBlocks.type = MsgType.msgReply.toUChar ∨ pBlocks.type = MsgType.msgConf.toUChar)
    (repetitiveMsg : Bool) :
    Tamed (receiverAction cfg msgID pBlocks serverResponse repetitiveMsg) := by
  unfold receiverAction
  rcases answer with reply | conf
  · rw [reply, show uchar2msgType MsgType.msgReply.toUChar = .msgReply from rfl]
    cases cfg.protocol with
    | protUDP =>
      cases repetitiveMsg with
      | true =>
        refine tamed_take trivial fun _ _ => ?_
        exact tamed_bind (sendConfirm_tamed serverResponse) fun _ => tamed_only trivial
      | false => exact handleReplyUDP_tamed msgID pBlocks serverResponse
    | protTCP => exact handleReplyTCP_tamed pBlocks
  · rw [conf, show uchar2msgType MsgType.msgConf.toUChar = .msgConf from rfl]
    cases cfg.protocol with
    | protUDP => exact handleConfirmUDP_tamed msgID
    | protTCP => exact errHandling_tamed rfl

theorem dispatch_tamed (msgID : Nat) (pBlocks : ProtocolBlocks) {serverResponse : Buffer}
    (whole : cfg.protocol = .protUDP → 3 ≤ serverResponse.used) :
    Tamed (dispatch cfg msgID pBlocks serverResponse) := by
  unfold dispatch
  refine tamed_take trivial fun state start => ?_
  obtain rfl : state = .fsmStart := start
  split
  · trivial
  · rename_i known
    have answer : pBlocks.type = MsgType.msgReply.toUChar ∨
        pBlocks.type = MsgType.msgConf.toUChar := by
      by_contra other
      exact known ⟨rfl, fun reply => other (.inl reply), fun conf => other (.inr conf)⟩
    unfold receiverFSM
    split
    · rename_i udp
      refine tamed_bind ?_ fun repetitiveMsg =>
        receiverAction_tamed msgID serverResponse answer repetitiveMsg
      unfold repetitive
      refine tamed_take trivial fun _ _ => ?_
      refine tamed_take trivial fun seen _ => ?_
      split
      · exact tamed_take trivial fun _ _ => trivial
      · rw [if_neg (by have := whole udp; omega)]
        exact tamed_take trivial fun _ _ => tamed_take trivial fun _ _ => trivial
    · exact receiverAction_tamed msgID serverResponse answer false

/-- Over UDP the datagram has a header, and its fields are found. Over TCP its type is
known, or the client is in its first state, where it leaves other types alone. -/
def Understood (cfg : NetworkConfig) (c : Client) (serverResponse : Buffer) : Prop :=
  match cfg.protocol with
  | .protUDP => 3 ≤ serverResponse.used ∧ ∃ d, disassebleProtocolUDP serverResponse = .ok d
  | .protTCP => c.fsmState = .fsmStart ∨ Known (disassebleProtocolTCP serverResponse (.reset 0))

theorem handleDatagram_tamed (udp : cfg.protocol = .protUDP) {serverResponse : Buffer}
    (understood : Understood cfg c serverResponse) : Tamed (handleDatagram cfg serverResponse) := by
  unfold handleDatagram
  simp only [Understood, udp] at understood ⊢
  obtain ⟨whole, d, decoded⟩ := understood
  rw [decoded]
  exact dispatch_tamed d.msgId d.pBlocks fun _ => whole

/-- Over TCP, whatever state the client is in. -/
theorem protocolReceiver_known (tcp : cfg.protocol = .protTCP) (datagram : List UInt8)
    (understood : datagram = [] ∨ Understood cfg c (Client.receive c.serverResponse datagram)) :
    Reports t (protocolReceiver cfg datagram) c := by
  unfold protocolReceiver
  refine reports_take (fun builds => builds.elim) fun state c₁ _ act => ?_
  cases act
  split
  · exact reports_ret _
  split
  · exact reports_ret _
  rename_i received
  have understood := understood.resolve_left received
  simp only [Understood, tcp] at understood
  refine reports_take (fun builds => builds.elim) fun serverResponse c₂ _ act => ?_
  cases act
  refine reports_bind ?_ fun _ _ _ => reports_ret _
  unfold handleDatagram dispatch
  simp only [tcp]
  refine reports_take (fun builds => builds.elim) fun state c₃ _ act => ?_
  cases act
  split
  · exact reports_ret _
  · rename_i answered
    refine reports_of_quiet ?_ _
    unfold receiverFSM
    simp only [tcp]
    refine receiverAction_quiet tcp ?_ _ _ _
    refine understood.elim (fun start => ?_) id
    -- in the first state only these two get this far
    have answer := fun reply conf => answered ⟨start, reply, conf⟩
    unfold Known
    by_cases reply : (disassebleProtocolTCP (Client.receive c.serverResponse datagram)
        (.reset 0)).type = MsgType.msgReply.toUChar
    · simp [reply]
    · have conf := by_contra fun conf => answer reply conf
      simp [conf]

/-! ### Passes in the first state -/

/-- The program leaves a signed state. -/
def Signs (t : Thread) (q : Prog α) (c : Client) : Prop :=
  Signed (q.exec (Client.perform t) c).state

theorem signed_status (h : Signed c) (status : Status) : Signed { c with status := status } :=
  h.imp id fun unnamed => ⟨unnamed.state, unnamed.queue⟩

theorem signs_take {a : Act} {f : a.Answer → Prog α} (signed : Signed c)
    (rest : ∀ r c', c.act t a = .ok r c' → Signs t (f r) c') : Signs t (take a >>= f) c := by
  unfold Signs
  rw [Program.exec_bind, take, Program.exec_perform]
  cases effect : Client.perform t a c with
  | ok r c' => exact rest r c' (Client.perform_ok effect).2
  | halt c' =>
    rw [Client.act_halt (Client.perform_halt effect).2]
    exact signed_status signed _
  | blocked => exact signed

theorem signs_of_tamed {q : Prog α} (tamed : Tamed q) (h : Unnamed c) : Signs t q c := by
  right
  refine Program.exec_keeps (I := Unnamed) (fun a c unnamed tame => ⟨?_, ?_⟩) tamed h
  · exact fun r c' effect => unnamed_step a c r c' unnamed tame (Client.perform_ok effect).2
  · intro c' effect
    rw [Client.act_halt (Client.perform_halt effect).2]
    exact ⟨unnamed.state, unnamed.queue⟩

theorem reports_of_tamed {q : Prog α} (tamed : Tamed q) (h : Unnamed c) : Reports t q c := by
  refine reports_of_obeys (I := Unnamed) (fun a tame builds => ?_) unnamed_step tamed h
  cases a <;> try exact builds.elim
  exact absurd (tame.2.symm.trans builds) (by decide)

theorem filterCommandsByFSM_tamed {pBlocks : ProtocolBlocks}
    (other : uchar2CommandType pBlocks.type ≠ .cmdAuth) (flags : MsgFlags) :
    Tamed (filterCommandsByFSM pBlocks flags) := by
  have refuse (text : String) : Tamed (safePrint text >>= fun _ => pure (false, flags)) :=
    tamed_take trivial fun _ _ => trivial
  unfold filterCommandsByFSM
  cases cmd : uchar2CommandType pBlocks.type <;> simp only
  case cmdAuth => exact absurd cmd other
  case cmdHelp => exact tamed_take trivial fun _ _ => trivial
  case cmdNone => trivial
  case cmdExit => trivial
  case cmdMissing => exact refuse _
  case cmdJoin | cmdRename | cmdMsg =>
    refine tamed_take trivial fun state start => ?_
    obtain rfl : state = .fsmStart := start
    exact refuse _
  all_goals exact refuse _

/-- In the first state nothing but AUTH and BYE is sent. -/
theorem filterCommandsByFSM_refuses {pBlocks : ProtocolBlocks}
    (other : uchar2CommandType pBlocks.type ≠ .cmdAuth)
    (stays : uchar2CommandType pBlocks.type ≠ .cmdExit) (flags : MsgFlags) :
    (filterCommandsByFSM pBlocks flags).Results Act.Expected fun result => result.1 = false := by
  unfold filterCommandsByFSM
  cases cmd : uchar2CommandType pBlocks.type <;> simp only
  case cmdAuth => exact absurd cmd other
  case cmdExit => exact absurd cmd stays
  case cmdNone => rfl
  case cmdJoin | cmdRename | cmdMsg =>
    intro state start
    obtain rfl : state = .fsmStart := start
    exact fun _ _ => rfl
  all_goals exact fun _ _ => rfl

theorem printComplaint_tamed (complaint : Option WordError) : Tamed (printComplaint complaint) := by
  unfold printComplaint
  split
  · exact tamed_only trivial
  · trivial

/-- The name of an `/auth` is stored before anything else is done with it. -/
theorem filterAuth_signs {pBlocks : ProtocolBlocks}
    (auth : uchar2CommandType pBlocks.type = .cmdAuth) (flags : MsgFlags)
    (f : Bool × MsgFlags → Prog α) (h : Unnamed c) :
    Signs t (filterCommandsByFSM pBlocks flags >>= f) c := by
  unfold filterCommandsByFSM
  simp only [auth, Program.bind_assoc]
  refine signs_take (.inr h) fun r c' act => Or.inl (exec_named _ ?_)
  cases act
  rfl

theorem handleLine_signs {clientInput : Buffer} (h : Unnamed c)
    (stays : uchar2CommandType (userInputToCmds clientInput
      (.reset CommandType.cmdNone.toUChar) .msgFlagNone).pBlocks.type ≠ .cmdExit) :
    Signs t (handleLine cfg clientInput) c := by
  by_cases auth : uchar2CommandType (userInputToCmds clientInput
      (.reset CommandType.cmdNone.toUChar) .msgFlagNone).pBlocks.type = .cmdAuth
  · unfold handleLine printComplaint
    simp only
    split
    · refine signs_take (.inr h) fun _ c' act => ?_
      cases act
      exact filterAuth_signs auth _ _ h
    · exact filterAuth_signs auth _ _ h
  · refine signs_of_tamed ?_ h
    unfold handleLine
    refine tamed_bind (printComplaint_tamed _) fun _ => ?_
    refine Program.obeys_bind_of_results (filterCommandsByFSM_tamed auth _)
      (filterCommandsByFSM_refuses auth stays _) fun result refused => ?_
    change Tamed (if result.1 = true then _ else _)
    rw [if_neg (by simp [refused])]
    trivial

/-- A pass of main in the first state, unless it reads `/exit`. -/
theorem userCommandHandling_signs (h : Unnamed c) (stdin : List UInt8)
    (stays : exitLine (loadBufferFromStdin c.fresh c.clientInput false stdin) = false) :
    Signs t (userCommandHandling cfg false stdin) c := by
  unfold userCommandHandling
  refine signs_take (.inr h) fun state c' act => ?_
  cases act
  rw [h.state, if_pos (by decide), if_neg (by decide)]
  refine signs_take (.inr h) fun loaded c' act => ?_
  cases act
  have handled : Signs t (handleLine cfg
      { (loadBufferFromStdin c.fresh c.clientInput false stdin).buffer with
        used := (loadBufferFromStdin c.fresh c.clientInput false stdin).used })
      { c with
        clientInput := { (loadBufferFromStdin c.fresh c.clientInput false stdin).buffer with
          used := (loadBufferFromStdin c.fresh c.clientInput false stdin).used }
        reallocs := c.reallocs + 1 } :=
    handleLine_signs ⟨h.state, h.queue⟩ (by simpa [exitLine] using stays)
  unfold Signs at handled ⊢
  rw [Program.exec_bind]
  cases run : (handleLine cfg _).exec (Client.perform t) _ with
  | done _ c' =>
    rw [run] at handled
    exact handled
  | halted c' =>
    rw [run] at handled
    exact handled

/-- A pass of the receiver in the first state, on a datagram it understands. -/
theorem protocolReceiver_first (udp : cfg.protocol = .protUDP) (h : Unnamed c)
    (datagram : List UInt8)
    (understood : datagram = [] ∨ Understood cfg c (Client.receive c.serverResponse datagram)) :
    Reports t (protocolReceiver cfg datagram) c ∧ Signs t (protocolReceiver cfg datagram) c := by
  have received : ∀ c', c.act t (.recvfrom datagram) =
      .ok (Client.receive c.serverResponse datagram) c' → Unnamed c' :=
    fun c' act => (unnamed_step (.recvfrom datagram) c _ c' h trivial act).1
  have ends (handled : Understood cfg c (Client.receive c.serverResponse datagram)) :
      Tamed (handleDatagram cfg (Client.receive c.serverResponse datagram) >>=
        fun _ => pure Point.protocolReceiver) :=
    tamed_bind (handleDatagram_tamed udp handled) fun _ => trivial
  unfold protocolReceiver
  constructor
  · refine reports_take (fun builds => builds.elim) fun state c' _ act => ?_
    cases act
    rw [h.state, if_neg (by decide)]
    split
    · exact reports_ret _
    · refine reports_take (fun builds => builds.elim) fun serverResponse c' _ act => ?_
      have unnamed := received c' (by cases act; rfl)
      cases act
      exact reports_of_tamed (ends (understood.resolve_left ‹_›)) unnamed
  · refine signs_take (.inr h) fun state c' act => ?_
    cases act
    rw [h.state, if_neg (by decide)]
    split
    · exact .inr h
    · refine signs_take (.inr h) fun serverResponse c' act => ?_
      have unnamed := received c' (by cases act; rfl)
      cases act
      exact signs_of_tamed (ends (understood.resolve_left ‹_›)) unnamed

end

/-! ## Runs -/

/-- As long as no name is stored, the receiver gets no datagram that it cannot decode,
and in the UDP variant main neither takes `/exit` nor meets the end of its input. -/
inductive NameFirst (cfg : NetworkConfig) (c : Client) : Prog Point → Prop where
  | named {q : Prog Point} (h : Named c) : NameFirst cfg c q
  | userCommandHandling (eofDetected : Bool) (stdin : List UInt8)
      (stays : cfg.protocol = .protUDP → eofDetected = false ∧
        exitLine (loadBufferFromStdin c.fresh c.clientInput eofDetected stdin) = false) :
      NameFirst cfg c (Ipk24Chat.userCommandHandling cfg eofDetected stdin)
  | protocolReceiver (datagram : List UInt8)
      (understood : datagram = [] ∨
        Understood cfg c (Client.receive c.serverResponse datagram)) :
      NameFirst cfg c (Ipk24Chat.protocolReceiver cfg datagram)
  | sender {p : Point} {q : Prog Point} (starts : Starts cfg .sender p q) : NameFirst cfg c q

section
variable {cfg : NetworkConfig} {t : Thread} {c : Client} {p : Point} {q : Prog Point}

/-- One pass under the condition, in the UDP variant. -/
theorem pass_of_signed (udp : cfg.protocol = .protUDP) (signed : Signed c)
    (starts : Starts cfg t p q) (first : NameFirst cfg c q) : Reports t q c ∧ Signs t q c := by
  rcases signed with named | unnamed
  · exact ⟨starts_reports starts c named, .inl (exec_named q named)⟩
  · cases first with
    | named h => exact ⟨starts_reports starts c h, .inl (exec_named q h)⟩
    | userCommandHandling eofDetected stdin stays =>
      obtain ⟨rfl, stays⟩ := stays udp
      exact ⟨reports_of_quiet (userCommandHandling_quiet false stdin) c,
        userCommandHandling_signs unnamed stdin stays⟩
    | protocolReceiver datagram understood =>
      exact protocolReceiver_first udp unnamed datagram understood
    | sender starts =>
      exact ⟨reports_of_tamed (sender_tamed starts) unnamed,
        signs_of_tamed (sender_tamed starts) unnamed⟩

/-- Over TCP nothing has to be known of the state. -/
theorem reports_of_tcp (tcp : cfg.protocol = .protTCP) (starts : Starts cfg t p q)
    (first : NameFirst cfg c q) : Reports t q c := by
  cases first with
  | named h => exact starts_reports starts c h
  | userCommandHandling eofDetected stdin _ =>
    exact reports_of_quiet (userCommandHandling_quiet eofDetected stdin) c
  | protocolReceiver datagram understood =>
    exact protocolReceiver_known tcp datagram understood
  | sender starts => exact reports_of_quiet (sender_quiet tcp starts) c

end

theorem signed_of_passedIf {cfg : NetworkConfig} (udp : cfg.protocol = .protUDP)
    {heap : Nat → Memory} {ipAddress : Buffer} {s : Passes Thread Client Point}
    (run : (machine cfg).PassedIf (NameFirst cfg)
      (initialPasses (programInterfaceInit heap ipAddress)) s) : Signed s.shared :=
  Machine.invariant_of_passedIf (m := machine cfg) Signed
    (fun _ _ _ _ starts first signed => (pass_of_signed udp signed starts first).2) run
    (Or.inr ⟨rfl, nofun⟩)

/-- **Error reports are built.** In every run that stores a name first, whenever
`sendError` assembles its message a name is stored, and an ERR and a BYE are queued. -/
theorem reports_of_passedIf {cfg : NetworkConfig} {heap : Nat → Memory} {ipAddress : Buffer}
    {s : Passes Thread Client Point}
    (run : (machine cfg).PassedIf (NameFirst cfg)
      (initialPasses (programInterfaceInit heap ipAddress)) s)
    {t : Thread} {p : Point} {q : Prog Point}
    (starts : Starts cfg t p q) (first : NameFirst cfg s.shared q) : Reports t q s.shared := by
  cases protocol : cfg.protocol with
  | protUDP => exact (pass_of_signed protocol (signed_of_passedIf protocol run) starts first).1
  | protTCP => exact reports_of_tcp protocol starts first

/-- Once a name is stored, every run meets the condition. -/
theorem passedIf_of_named {cfg : NetworkConfig} {s₀ s s' : Passes Thread Client Point}
    (before : (machine cfg).PassedIf (NameFirst cfg) s₀ s) (named : Named s.shared)
    (run : (machine cfg).Passed s s') :
    (machine cfg).PassedIf (NameFirst cfg) s₀ s' ∧ Named s'.shared := by
  induction run with
  | refl => exact ⟨before, named⟩
  | step _ pass ih =>
    obtain ⟨reached, known⟩ := ih
    cases pass with
    | done point starts run =>
      exact ⟨.done reached point starts (.named known) run, named_of_done run known⟩
    | @halted t p q c' point starts run =>
      have kept := exec_named (t := t) q known
      have same : q.exec (Client.perform t) _ = .halted c' := run
      rw [same] at kept
      exact ⟨.halted reached point starts (.named known) run, kept⟩

/-- The program is about to assemble an ERR. -/
def buildsError : Prog Point → Bool
  | .act (.assembleProtocol _ _ pBlocks) _ => uchar2CommandType pBlocks.type = .cmdErr
  | _ => false

theorem exists_of_buildsError {q : Prog Point} (h : buildsError q = true) :
    ∃ a next, q = .act a next ∧ a.BuildsError := by
  unfold buildsError at h
  split at h
  · exact ⟨_, _, rfl, by simpa [Act.BuildsError] using h⟩
  · cases h

/-- An AUTH that nobody answers, with no retries. -/
theorem reports_of_passedIf_auth :
    ∃ s t p q n a next c',
      (machine ⟨.protUDP, 0⟩).PassedIf (NameFirst ⟨.protUDP, 0⟩)
        (initialPasses (programInterfaceInit (fun _ _ => 0xC4) ⟨some fun _ => 0, 10, 10⟩)) s ∧
      Starts ⟨.protUDP, 0⟩ t p q ∧ NameFirst ⟨.protUDP, 0⟩ s.shared q ∧
      q.advance (Client.perform t) n s.shared = some (.act a next, c') ∧ a.BuildsError ∧
      Reports t q s.shared := by
  have first : (machine ⟨.protUDP, 0⟩).PassedIf (NameFirst ⟨.protUDP, 0⟩)
      (initialPasses (programInterfaceInit (fun _ _ => 0xC4) ⟨some fun _ => 0, 10, 10⟩))
      (runPass (machine ⟨.protUDP, 0⟩) .main
        (userCommandHandling ⟨.protUDP, 0⟩ false (ascii "/auth u s d\n"))
        (initialPasses (programInterfaceInit (fun _ _ => 0xC4) ⟨some fun _ => 0, 10, 10⟩))) :=
    passedIf_runPass (fun _ _ _ => id) .refl rfl (.userCommandHandling false _)
      (.userCommandHandling _ _ fun _ => by decide +kernel)
  obtain ⟨s, t, p, q, q', c', passed, point, starts, run, good⟩ := pass_of_playInto
    (m := machine ⟨.protUDP, 0⟩) (fun _ _ _ => id) [.sender 10] (.sender 10) 12
    (s := runPass (machine ⟨.protUDP, 0⟩) .main
      (userCommandHandling ⟨.protUDP, 0⟩ false (ascii "/auth u s d\n"))
      (initialPasses (programInterfaceInit (fun _ _ => 0xC4) ⟨some fun _ => 0, 10, 10⟩)))
    (fun (_, q, _) => buildsError q) (by decide +kernel)
  obtain ⟨reached, named⟩ := passedIf_of_named first (by unfold Named; decide +kernel) passed
  obtain ⟨a, next, rfl, builds⟩ := exists_of_buildsError good
  exact ⟨s, t, p, q, 12, a, next, c', reached, starts, .named named, run, builds,
    reports_of_passedIf reached starts (.named named)⟩

/-- The BYE of a client that left before it had a name is never confirmed. -/
theorem not_reports_exit :
    ¬ ∀ s, Passed ⟨.protUDP, 3⟩ (fun _ _ => 0xC4) ⟨some fun _ => 0, 10, 10⟩ s →
      ∀ t p q, s.point t = some p → Starts ⟨.protUDP, 3⟩ t p q → Reports t q s.shared := by
  intro claim
  obtain ⟨s, t, p, q, q', c', passed, point, starts, run, good⟩ := pass_of_playInto
    (m := machine ⟨.protUDP, 3⟩) (fun _ _ _ => id)
    [.main (ascii "/exit\n"), .sender 3, .sender 3, .sender 3, .sender 3] (.sender 3) 12
    (s := initialPasses (programInterfaceInit (fun _ _ => 0xC4) ⟨some fun _ => 0, 10, 10⟩))
    (fun (_, q, c) => buildsError q && c.comDetails.displayName.data.isNone) (by decide +kernel)
  simp only [Bool.and_eq_true] at good
  obtain ⟨a, next, rfl, builds⟩ := exists_of_buildsError good.1
  obtain ⟨named, -⟩ := claim s passed t p q point starts 12 a next c' run builds
  have unnamed := good.2
  unfold Named at named
  rw [Option.isNone_iff_eq_none] at unnamed
  rw [unnamed] at named
  cases named

end Ipk24Chat
