import Ipk24Chat.Attendance
import Ipk24Chat.QueueHead

/-!
# The CONFIRMs that go out

The sender transmits a CONFIRM as it is, once, and takes it out of the queue then.

* `minds_sender`: the sender takes no CONFIRM out of the queue that it did not transmit;
* `confirms_intact`: what goes out, in every run in which the handlers spare CONFIRMs.
-/

namespace Ipk24Chat

namespace Outgoing

/-! ## The sender -/

/-- The runs in which the handlers spare the CONFIRMs. -/
def spared (cfg : NetworkConfig) : Machine Thread Client Act.Answer Point :=
  (machine cfg).restrict sparesConfirms

/-- The message at the head was transmitted, if it is a CONFIRM. -/
def HeadSent (c : Client) : Prop :=
  ∀ m rest, c.sendingQueue = m :: rest → m.type = MsgType.msgConf.toUChar →
    ∃ sent, .transmitted sent ∈ c.history ∧ sent.uid = m.uid

/-- What holds where the sender takes an action: it takes a CONFIRM from the queue that was
transmitted, and wherever it may end the CONFIRMs are as they have to be. -/
structure Minded (cfg : NetworkConfig) (a : Act) (c : Client) : Prop where
  sent : a = .queuePopMessage → HeadSent c
  blocked : (spared cfg).perform .sender a c = .blocked → Whole c
  halted : ∀ c', (spared cfg).perform .sender a c = .halt c' → Whole c'

/-- Code of the sender that minds the CONFIRMs, from `K` to `Q`. -/
def Minds (cfg : NetworkConfig) {α : Type} (K : Client → Prop) (q : Prog α)
    (Q : α → Client → Prop) : Prop :=
  Program.SafeFrom ((spared cfg).perform .sender) (Minded cfg) (fun c c' => c' = c)
    (fun _ _ => True) K q Q

/-- The CONFIRMs are attended, and something is known of the queue. -/
def Heads (P : MessageQueue → Prop) (c : Client) : Prop := Attended c ∧ P c.sendingQueue

section
variable {cfg : NetworkConfig} {t : Thread} {c c' : Client} {a : Act} {r : a.Answer}

theorem spared_ok (h : (spared cfg).perform t a c = .ok r c') :
    sparesConfirms t a c = true ∧ c.status = .running ∧ c.act t a = .ok r c' := by
  simp only [spared, Machine.restrict] at h
  split at h
  · exact ⟨‹_›, Client.perform_ok h⟩
  · cases h

theorem minded_of_attended (hc : Attended c) (sent : a = .queuePopMessage → HeadSent c) :
    Minded cfg a c := by
  refine ⟨sent, fun _ => hc.whole, fun c' h => ?_⟩
  rw [Client.act_halt ((honest_restrict cfg sparesConfirms).halt h).2]
  exact (attended_ended _ hc).whole

theorem headSent_of_numbered (numbered : HeadNumbered c.sendingQueue) : HeadSent c :=
  fun m rest queue conf => absurd conf (numbered m rest queue)

end

section
variable {cfg : NetworkConfig} {α β : Type} {K : Client → Prop} {P : MessageQueue → Prop}
  {Q : α → Client → Prop}

theorem minds_ret {a : α} (h : ∀ c, K c → Q a c) : Minds cfg K (.ret a) Q := h

theorem minds_weaken {K' : Client → Prop} {q : Prog α} (hq : Minds cfg K q Q)
    (weaker : ∀ c, K' c → K c) : Minds cfg K' q Q := fun c hc => hq c (weaker c hc)

/-- The rule for an action of the sender. -/
theorem minds_act {a : Act} {f : a.Answer → Prog α} (mid : a.Answer → Client → Prop)
    (minded : ∀ c, K c → Minded cfg a c)
    (step : ∀ r c c', K c → sparesConfirms .sender a c = true → c.act .sender a = .ok r c' →
      mid r c')
    (rest : ∀ r, Minds cfg (mid r) (f r) Q) : Minds cfg K (take a >>= f) Q := by
  refine Program.safeFrom_act (fun c c' same hc => same ▸ hc) (fun c hc => ?_) rest
  refine ⟨minded c hc, fun r c' h => ?_, fun _ _ => trivial⟩
  obtain ⟨spares, -, act⟩ := spared_ok h
  exact ⟨trivial, step r c c' hc spares act⟩

/-- The rule for an action that leaves the queue and may tell something about it. -/
theorem minds_look {a : Act} {f : a.Answer → Prog α} (P' : a.Answer → MessageQueue → Prop)
    (mild : Mild a) (foreign : a.bySender = false)
    (same : ∀ c : Client, c.queueAfter a = c.sendingQueue)
    (tells : ∀ r c c', Heads P c → c.act .sender a = .ok r c' → P' r c.sendingQueue)
    (rest : ∀ r, Minds cfg (Heads (P' r)) (f r) Q) : Minds cfg (Heads P) (take a >>= f) Q := by
  refine minds_act (fun r => Heads (P' r)) (fun c hc => minded_of_attended hc.1 ?_) ?_ rest
  · rintro rfl
    cases foreign
  · intro r c c' hc spares act
    refine ⟨attended_act hc.1 (tends_of_mild mild foreign spares) act, ?_⟩
    rw [Client.act_queue act, same]
    exact tells r c c' hc act

theorem minds_keep {a : Act} {f : a.Answer → Prog α} (mild : Mild a) (foreign : a.bySender = false)
    (same : ∀ c : Client, c.queueAfter a = c.sendingQueue)
    (rest : ∀ r, Minds cfg (Heads P) (f r) Q) : Minds cfg (Heads P) (take a >>= f) Q :=
  minds_look (fun _ => P) mild foreign same (fun _ _ _ hc _ => hc.2) rest

/-- The rule for taking a message from the head that is no CONFIRM. -/
theorem minds_pop {f : Unit → Prog α} (rest : ∀ r, Minds cfg Attended (f r) Q) :
    Minds cfg (Heads HeadNumbered) (queuePopMessage >>= f) Q := by
  refine minds_act (a := .queuePopMessage) (fun _ => Attended)
    (fun c hc => minded_of_attended hc.1 fun _ => headSent_of_numbered hc.2) ?_ rest
  exact fun r c c' hc _ act => attended_act hc.1 (a := .queuePopMessage) trivial act

theorem minds_rules (cfg : NetworkConfig) :
    Program.Compositional (fun a => Mild a ∧ a.bySender = false) Act.Truthful
      fun {α} (q : Prog α) => Minds cfg Attended q fun _ => Attended := by
  apply Program.compositional_safeFrom
  · exact fun c c' same hc => same ▸ hc
  · exact fun a c r c' h => Client.act_truthful (spared_ok h).2.2
  · rintro a c hc ⟨mild, foreign⟩
    refine ⟨minded_of_attended hc ?_, fun r c' h => ?_, fun _ _ => trivial⟩
    · rintro rfl
      cases foreign
    · obtain ⟨spares, -, act⟩ := spared_ok h
      exact ⟨trivial, attended_act hc (tends_of_mild mild foreign spares) act⟩

theorem minds_mild (a : Act) (mild : Mild a) (foreign : a.bySender = false) :
    Mild a ∧ a.bySender = false := ⟨mild, foreign⟩

/-- It never returns, so whatever it is called with does for the caller. -/
theorem minds_errHandling (f : Failure) : Minds cfg Attended (errHandling cfg f : Prog α) Q := by
  intro c hc
  have safe : Minds cfg Attended (errHandling cfg f : Prog α) fun _ => Attended :=
    errHandling_mild (minds_rules cfg) minds_mild f
  have never := Program.safe_results (fun _ _ _ _ _ => trivial)
    (errHandling_results (fun _ _ => True) f) (safe c hc)
  exact Program.safe_mono never fun _ _ known => known.2.elim

theorem minds_requestTimedOut : Minds cfg Attended (requestTimedOut cfg) fun _ => Attended := by
  have rules := minds_rules cfg
  exact requestTimedOut_still rules (still_of_mild minds_mild) (sendError_mild rules minds_mild _ _)
    (sendBye_mild rules minds_mild)

/-! ### The filter -/

/-- A message that was sent too often is not a CONFIRM. -/
theorem numbered_of_sent {c : Client} {m : Message} {rest : MessageQueue} (hc : Attended c)
    (queue : c.sendingQueue = m :: rest) (marked : 0 < m.sendCount ∨ m.confirmed = true ∨
      m.msgFlags = .msgFlagRejected) : HeadNumbered c.sendingQueue := by
  rintro m' rest' queue' conf
  obtain ⟨rfl, rfl⟩ := List.cons.inj (queue.symm.trans queue')
  have waits := hc.waits m (queue ▸ List.mem_cons_self) conf
  rcases marked with sent | confirmed | rejected
  · rw [waits.sendCount] at sent
    exact absurd sent (Nat.lt_irrefl 0)
  · rw [waits.confirmed] at confirmed
    cases confirmed
  · rcases waits.msgFlags with own | own <;> rw [own] at rejected <;> cases rejected

theorem head_of_getMessage {queue : MessageQueue} {uid : Nat} (h : queue.getMessage = some uid) :
    ∃ m rest, queue = m :: rest ∧ m.uid = uid := by
  cases queue with
  | nil => cases h
  | cons m rest => exact ⟨m, rest, rfl, by simpa [MessageQueue.getMessage] using h⟩

theorem minds_getMessage {f : MsgPtr → Prog α}
    (rest : ∀ p, Minds cfg (Heads fun queue => queue.getMessage = p) (f p) Q) :
    Minds cfg Attended (queueGetMessage >>= f) Q := by
  refine minds_weaken (K := Heads fun _ => True) ?_ fun _ hc => ⟨hc, trivial⟩
  refine minds_look (a := .queueGetMessage) (fun p queue => queue.getMessage = p) trivial rfl
    (fun _ => rfl) (fun p c c' _ act => ?_) rest
  simp only [Client.act, Effect.ok.injEq] at act
  exact act.1

theorem minds_filterLoop (fuel : Nat) (p : MsgPtr) (resetLoop : Bool) :
    Minds cfg (Heads fun queue => queue.getMessage = p) (filterLoop cfg fuel p resetLoop)
      fun _ => Attended := by
  have rules := minds_rules cfg
  induction fuel generalizing p resetLoop with
  | zero =>
    refine minds_weaken (K := Attended) ?_ fun _ hc => hc.1
    exact rules.act ⟨trivial, rfl⟩ fun none => none.elim
  | succ fuel ih =>
    have next (resetLoop : Bool) : Minds cfg (Heads HeadNumbered) (do
        queuePopMessage
        let msgToBeSend ← queueGetMessage
        filterLoop cfg fuel msgToBeSend resetLoop : Prog Bool) fun _ => Attended :=
      minds_pop fun _ => minds_getMessage fun p => ih p resetLoop
    cases p with
    | none => exact minds_ret fun _ hc => hc.1
    | some uid =>
      unfold filterLoop
      refine minds_look (a := .queueGetSendedCounter)
        (fun sended queue => ∃ m rest, queue = m :: rest ∧ m.uid = uid ∧ m.sendCount = sended)
        trivial rfl (fun _ => rfl) ?_ fun sended => ?_
      · intro sended c c' hc act
        obtain ⟨m, rest, queue, same⟩ := head_of_getMessage hc.2
        simp only [Client.act, queue, Effect.ok.injEq] at act
        exact ⟨m, rest, queue, same, act.1⟩
      split
      · rename_i above
        refine minds_weaken (K := Heads HeadNumbered) ?_ ?_
        · refine minds_keep trivial rfl (fun _ => rfl) fun state => ?_
          split
          · exact next resetLoop
          · refine minds_keep trivial rfl (fun _ => rfl) fun state => ?_
            split
            · refine minds_keep trivial rfl (fun _ => rfl) fun _ => ?_
              exact minds_keep trivial rfl (fun _ => rfl) fun _ => next true
            · refine minds_weaken (K := Attended) ?_ fun _ hc => hc.1
              exact rules.bind minds_requestTimedOut fun _ => rules.ret _
        · rintro c ⟨hc, m, rest, queue, -, count⟩
          exact ⟨hc, numbered_of_sent hc queue (Or.inl (by omega))⟩
      · refine minds_look (a := .message (some uid)) (fun m queue => ∃ rest, queue = m :: rest)
          trivial rfl (fun _ => rfl) ?_ fun m => ?_
        · rintro m c c' ⟨-, m', rest, queue, rfl, -⟩ act
          simp only [Client.act, queue, deref_head, Effect.ok.injEq] at act
          exact ⟨rest, act.1 ▸ queue⟩
        split
        · rename_i rejected
          refine minds_weaken (next resetLoop) ?_
          rintro c ⟨hc, rest, queue⟩
          exact ⟨hc, numbered_of_sent hc queue (Or.inr (Or.inr rejected))⟩
        · split
          · exact minds_ret fun _ hc => hc.1
          · split
            · exact minds_ret fun _ hc => hc.1
            · rename_i confirmed
              refine minds_weaken (next resetLoop) ?_
              rintro c ⟨hc, rest, queue⟩
              exact ⟨hc, numbered_of_sent hc queue (Or.inr (Or.inl (by simpa using confirmed)))⟩

/-! ### Behind the filter -/

theorem minds_logicErr (flags : MsgFlags) :
    Minds cfg Attended (logicErr cfg flags) fun _ => Attended := by
  have rules := minds_rules cfg
  have moved (s : Fsm) : Minds cfg Attended
      (setProgramState s >>= fun _ => pure LogicResult.proceed) fun _ => Attended :=
    take_bind rules ⟨trivial, rfl⟩ fun _ _ => rules.ret _
  unfold logicErr
  split
  · split
    · exact moved _
    · iterate 2 refine take_bind rules ⟨trivial, rfl⟩ fun _ _ => ?_
      exact rules.ret _
  · split
    · exact moved _
    · exact rules.ret _
  · exact rules.ret _
  · exact minds_errHandling _

theorem minds_logicOpen (msgType : MsgType) :
    Minds cfg (Heads fun queue => msgType = .msgAuth → HeadNumbered queue) (logicOpen msgType)
      fun _ => Attended := by
  unfold logicOpen
  split
  · refine minds_keep trivial rfl (fun _ => rfl) fun _ => ?_
    refine minds_keep (by rintro m ⟨⟩) rfl (fun _ => rfl) fun _ => ?_
    refine minds_weaken (K := Heads HeadNumbered) ?_ fun c hc => ⟨hc.1, hc.2 rfl⟩
    exact minds_pop fun _ => minds_ret fun _ hc => hc
  · exact minds_keep trivial rfl (fun _ => rfl) fun _ => minds_ret fun _ hc => hc.1
  · exact minds_ret fun _ hc => hc.1

theorem minds_logicFSM : Minds cfg Attended (logicFSM cfg) fun _ => Attended := by
  have rules := minds_rules cfg
  unfold logicFSM
  refine take_bind rules ⟨trivial, rfl⟩ fun msgToBeSend _ => ?_
  refine minds_weaken (K := Heads fun _ => True) ?_ fun _ hc => ⟨hc, trivial⟩
  refine minds_look (a := .queueGetMessageMsgType)
    (fun msgType queue => msgType = .msgAuth → HeadNumbered queue) trivial rfl (fun _ => rfl) ?_
    fun msgType => ?_
  · rintro msgType c c' - act auth m rest queue conf
    simp only [Client.act, Effect.ok.injEq] at act
    simp [← act.1, queue, MessageQueue.getMessageMsgType, conf] at auth
  refine minds_keep trivial rfl (fun _ => rfl) fun flags => ?_
  refine minds_keep trivial rfl (fun _ => rfl) fun state => ?_
  have forget {q : Prog LogicResult} (h : Minds cfg Attended q fun _ => Attended) :
      Minds cfg (Heads fun queue => msgType = .msgAuth → HeadNumbered queue) q fun _ => Attended :=
    minds_weaken h fun _ hc => hc.1
  cases state with
  | fsmStart | fsmAuthW82BeSended | fsmAuthSended | fsmW84Reply =>
    exact forget (logicBeforeAuth_still rules (still_of_mild minds_mild) _ _ _)
  | fsmW84ReplyConf =>
    refine forget ?_
    change Minds cfg _ (logicReplyConf msgType) _
    unfold logicReplyConf
    split
    · iterate 2 refine take_bind rules ⟨trivial, rfl⟩ fun _ _ => ?_
      exact rules.ret _
    · exact rules.ret _
  | fsmOpen => exact minds_logicOpen msgType
  | fsmErr | fsmErrW84Conf => exact forget (minds_logicErr flags)
  | _ => exact forget (rules.ret _)

end

/-! ### The sending -/

/-- The message at the head has just been sent. -/
structure JustSent (m : Message) (c : Client) : Prop where
  identified : Identified c
  seen : ∀ m ∈ c.confirmedMessages, Known m.lowMsgId m.highMsgId c.history
  queue : ∃ rest, c.sendingQueue = m :: rest ∧
    ∀ m' ∈ rest, m'.type = MsgType.msgConf.toUChar → Waits c m'
  sent : .transmitted m ∈ c.history
  msgFlags : m.type = MsgType.msgConf.toUChar →
    m.msgFlags = .msgFlagConfirm ∨ m.msgFlags = .msgFlagNokReply
  intact : ConfirmsIntact c.history

section
variable {t : Thread} {c c' : Client} {m : Message}

theorem intact_transmitted (intact : ConfirmsIntact c.history)
    (own : m.type = MsgType.msgConf.toUChar → Waits c m) :
    ConfirmsIntact (.transmitted m :: c.history) := by
  intro m' earlier suffix conf
  rcases List.suffix_cons_iff.mp suffix with eq | before
  · obtain ⟨new, rfl⟩ := List.cons.inj eq
    cases new
    exact ⟨(own conf).answers, (own conf).unsent⟩
  · exact intact m' earlier before conf

theorem justSent_sendto {rest : MessageQueue} {r : Unit} (hc : Attended c)
    (queue : c.sendingQueue = m :: rest) (act : c.act t (.sendto (some m.uid)) = .ok r c') :
    JustSent m c' := by
  have identified := hc.identified.act act (by rintro _ ⟨⟩)
  simp only [Client.act, queue, deref_head] at act
  cases act
  have distinct := hc.identified.distinct
  rw [queue, MessageQueue.uids, List.map_cons, List.nodup_cons] at distinct
  constructor
  case identified => exact identified
  case seen =>
    intro m' mem
    obtain ⟨datagram, received, bytes⟩ := hc.seen m' mem
    exact ⟨datagram, List.mem_cons_of_mem _ received, bytes⟩
  case queue =>
    refine ⟨rest, queue, fun m' mem conf => ?_⟩
    have waits := hc.waits m' (queue ▸ List.mem_cons_of_mem _ mem) conf
    obtain ⟨datagram, received, answers⟩ := waits.answers
    refine ⟨waits.msgFlags, waits.confirmed, waits.sendCount,
      ⟨datagram, List.mem_cons_of_mem _ received, answers⟩, fun sent there same => ?_⟩
    rcases List.mem_cons.mp there with new | before
    · cases new
      exact distinct.1 (same ▸ List.mem_map_of_mem mem)
    · exact waits.unsent sent before same
  case sent => exact List.mem_cons_self
  case msgFlags => exact fun conf => (hc.waits m (queue ▸ List.mem_cons_self) conf).msgFlags
  case intact => exact intact_transmitted hc.intact (hc.waits m (queue ▸ List.mem_cons_self))

/-- The sender goes on behind the transmission, or the process ends there. -/
theorem minded_of_justSent {cfg : NetworkConfig} {a : Act} (hc : JustSent m c)
    (spares : sparesConfirms .sender a c = true) (goes : c.act .sender a ≠ .blocked)
    (ends : ∀ c', c.act .sender a = .halt c' → c'.status ≠ .running) : Minded cfg a c := by
  have free : (spared cfg).perform .sender a c = c.perform .sender a :=
    Machine.restrict_perform_of spares
  constructor
  case sent =>
    intro _ m' rest queue _
    obtain ⟨rest', queue', -⟩ := hc.queue
    obtain ⟨rfl, -⟩ := List.cons.inj (queue'.symm.trans queue)
    exact ⟨m, hc.sent, rfl⟩
  case blocked =>
    intro blocked
    rw [free, Client.perform] at blocked
    refine ⟨fun running => ?_, hc.intact⟩
    rw [running] at blocked
    exact absurd blocked goes
  case halted =>
    intro c' halted
    rw [free] at halted
    have act := (Client.perform_halt halted).2
    refine ⟨fun running => absurd running (ends c' act), ?_⟩
    rw [Client.act_halt act]
    exact hc.intact

/-- Behind the message that was sent everything is as it was. -/
theorem attended_rest {a : Act} {r : a.Answer} (hc : JustSent m c) (act : c.act t a = .ok r c')
    (keeps : c'.history = c.history ∧ c'.confirmedMessages = c.confirmedMessages)
    (waits : ∀ rest, c.sendingQueue = m :: rest → ∀ m' ∈ c'.sendingQueue,
      m'.type = MsgType.msgConf.toUChar → m' ∈ rest)
    (noted : ∀ m, a ≠ .note (.transmitted m)) : Attended c' := by
  obtain ⟨history, seen⟩ := keeps
  obtain ⟨rest, queue, behind⟩ := hc.queue
  refine ⟨hc.identified.act act noted, ?_, fun m' mem conf => ?_, history ▸ hc.intact⟩
  · rw [seen, history]
    exact hc.seen
  · have before := behind m' (waits rest queue m' mem conf) conf
    exact ⟨before.msgFlags, before.confirmed, before.sendCount, history ▸ before.answers,
      history ▸ before.unsent⟩

end

section
variable {cfg : NetworkConfig} {α : Type} {Q : α → Client → Prop}

theorem minds_messageWasSended (udp : cfg.protocol = .protUDP) (msgToBeSend : MsgPtr)
    (flags : MsgFlags) :
    Minds cfg (fun c => ∃ m, JustSent m c ∧ m.msgFlags = flags)
      (messageWasSended cfg msgToBeSend flags) fun _ => Attended := by
  have popped : Minds cfg (fun c => ∃ m, JustSent m c ∧ m.msgFlags = flags) queuePopMessage
      fun _ => Attended := by
    apply minds_act (a := .queuePopMessage) (f := .ret) fun _ => Attended
    · rintro c ⟨m, hc, -⟩
      exact minded_of_justSent hc rfl (by rintro ⟨⟩) (by rintro _ ⟨⟩)
    · rintro r c c' ⟨m, hc, -⟩ - act
      apply attended_rest hc act
      · cases act
        exact ⟨rfl, rfl⟩
      · intro rest queue m' mem _
        rw [Client.act_queue act, Client.queueAfter, queue] at mem
        exact mem
      · rintro _ ⟨⟩
    · exact fun _ => minds_ret fun _ hc => hc
  have counted (other : flags ≠ .msgFlagConfirm ∧ flags ≠ .msgFlagNokReply) :
      Minds cfg (fun c => ∃ m, JustSent m c ∧ m.msgFlags = flags) queueMessageSended
        fun _ => Attended := by
    apply minds_act (a := .queueMessageSended) (f := .ret) fun _ => Attended
    · rintro c ⟨m, hc, -⟩
      obtain ⟨rest, queue, -⟩ := hc.queue
      apply minded_of_justSent hc rfl <;>
        simp [Client.act, queue, MessageQueue.messageSended]
    · rintro r c c' ⟨m, hc, rfl⟩ - act
      obtain ⟨rest, queue, -⟩ := hc.queue
      have numbered : m.type ≠ MsgType.msgConf.toUChar := by
        intro conf
        rcases hc.msgFlags conf with own | own
        · exact other.1 own
        · exact other.2 own
      apply attended_rest hc act
      · simp only [Client.act, queue, MessageQueue.messageSended] at act
        cases act
        exact ⟨rfl, rfl⟩
      · intro rest' queue' m' mem conf
        rw [Client.act_queue act, Client.queueAfter, queue', MessageQueue.messageSended] at mem
        rcases List.mem_cons.mp mem with rfl | mem
        · exact absurd conf numbered
        · exact mem
      · rintro _ ⟨⟩
    · exact fun _ => minds_ret fun _ hc => hc
  unfold messageWasSended
  simp only [udp]
  split
  · exact popped
  · exact popped
  · exact popped
  · rename_i own nok
    exact counted ⟨own, nok⟩

/-- A failed transmission ends the process. -/
theorem minds_failed (text : String) :
    Minds cfg (fun c => ∃ m, JustSent m c) (errHandling cfg ⟨text, .errCommunication⟩ : Prog α)
      Q := by
  change Minds cfg _ (take (.print (.text ("ERR: " ++ text ++ "\n"))) >>= fun _ =>
    take (.exit .errCommunication) >>= fun none => none.elim) Q
  apply minds_act fun _ c => ∃ m, JustSent m c
  · rintro c ⟨m, hc⟩
    exact minded_of_justSent hc rfl (by rintro ⟨⟩) (by rintro _ ⟨⟩)
  · rintro r c c' hc - act
    cases act
    exact hc
  · intro _
    apply minds_act fun _ c => ∃ m, JustSent m c
    · rintro c ⟨m, hc⟩
      apply minded_of_justSent hc rfl
      · rintro ⟨⟩
      · intro c' act
        cases act
        rintro ⟨⟩
    · exact fun none => none.elim
    · exact fun none => none.elim

theorem getMessage_setMessageID (queue : MessageQueue) (msgCounter : Nat) :
    (queue.setMessageID msgCounter).getMessage = queue.getMessage := by
  cases queue with
  | nil => rfl
  | cons m rest =>
    simp only [MessageQueue.setMessageID]
    split <;> rfl

theorem minds_sendHead (udp : cfg.protocol = .protUDP) (bytesTx : Int) :
    Minds cfg Attended (sendHead cfg bytesTx) fun _ => Attended := by
  have rules := minds_rules cfg
  unfold sendHead labelMessage
  simp only [udp]
  apply minds_getMessage
  intro p
  apply minds_act (a := .queueSetMessageID) fun _ => Heads fun queue => queue.getMessage = p
  · exact fun c hc => minded_of_attended hc.1 (by rintro ⟨⟩)
  · intro r c c' hc _ act
    refine ⟨attended_act hc.1 (a := .queueSetMessageID) trivial act, ?_⟩
    rw [Client.act_queue act]
    exact (getMessage_setMessageID _ _).trans hc.2
  intro _
  apply minds_act (a := .sendto p) fun _ c => ∃ m, JustSent m c
  · exact fun c hc => minded_of_attended hc.1 (by rintro ⟨⟩)
  · intro r c c' hc _ act
    cases p with
    | none => cases act
    | some uid =>
      obtain ⟨m, rest, queue, rfl⟩ := head_of_getMessage hc.2
      exact ⟨m, justSent_sendto hc.1 queue act⟩
  intro _
  apply minds_act (a := .queueGetMessageFlags) fun flags c => ∃ m, JustSent m c ∧ m.msgFlags = flags
  · rintro c ⟨m, hc⟩
    obtain ⟨rest, queue, -⟩ := hc.queue
    apply minded_of_justSent hc rfl <;> simp [Client.act, queue]
  · rintro flags c c' ⟨m, hc⟩ - act
    obtain ⟨rest, queue, -⟩ := hc.queue
    simp only [Client.act, queue, Effect.ok.injEq] at act
    obtain ⟨same, rfl⟩ := act
    exact ⟨m, hc, same⟩
  intro flags
  split
  · apply minds_weaken (minds_failed _)
    rintro c ⟨m, hc, -⟩
    exact ⟨m, hc⟩
  · apply Program.safeFrom_bind (minds_messageWasSended udp p flags)
    intro _
    exact take_bind rules ⟨trivial, rfl⟩ fun _ _ => rules.ret _

theorem minds_logicAndSend (udp : cfg.protocol = .protUDP) (bytesTx : Int) :
    Minds cfg Attended (logicAndSend cfg bytesTx) fun _ => Attended := by
  have rules := minds_rules cfg
  unfold logicAndSend
  apply rules.bind minds_logicFSM
  intro result
  cases result with
  | proceed => exact minds_sendHead udp bytesTx
  | waitSend => exact rules.ret _
  | waitAgain => exact rules.ret _

theorem minds_senderBody (udp : cfg.protocol = .protUDP) (bytesTx : Int) :
    Minds cfg Attended (senderBody cfg bytesTx) fun _ => Attended := by
  have rules := minds_rules cfg
  unfold senderBody
  refine take_bind rules ⟨trivial, rfl⟩ fun empty _ => ?_
  split
  · apply rules.bind (endsWhenEmpty_still rules (still_of_mild minds_mild))
    intro stop
    split
    · iterate 3 refine take_bind rules ⟨trivial, rfl⟩ fun _ _ => ?_
      exact rules.ret _
    · exact take_bind rules ⟨trivial, rfl⟩ fun _ _ => rules.ret _
  · iterate 2 refine take_bind rules ⟨trivial, rfl⟩ fun _ _ => ?_
    refine take_bind rules ⟨by rintro m ⟨⟩, rfl⟩ fun _ _ => ?_
    exact minds_logicAndSend udp bytesTx

/-- **The sender takes no CONFIRM out of the queue that it did not transmit.** -/
theorem minds_sender (udp : cfg.protocol = .protUDP) {p : Point} {q : Prog Point}
    (h : Starts cfg .sender p q) : Minds cfg Attended q fun _ => Attended := by
  have rules := minds_rules cfg
  cases h with
  | protocolSender fuel bytesTx =>
    unfold protocolSender
    simp only [udp]
    refine take_bind rules ⟨trivial, rfl⟩ fun state _ => ?_
    split
    · exact rules.ret _
    · refine take_bind rules ⟨trivial, rfl⟩ fun _ _ => ?_
      have filtered : Minds cfg Attended (filterResentMessages cfg fuel) fun _ => Attended :=
        minds_getMessage fun p => minds_filterLoop fuel p false
      apply rules.bind filtered
      intro resetLoop
      split
      · exact rules.ret _
      · exact minds_senderBody udp bytesTx
  | logicWaitSend bytesTx =>
    unfold resumeSend
    refine take_bind rules ⟨trivial, rfl⟩ fun _ _ => ?_
    refine take_bind rules ⟨by rintro m ⟨⟩, rfl⟩ fun _ _ => ?_
    exact minds_sendHead udp bytesTx
  | logicWaitAgain bytesTx =>
    unfold resumeLogic
    refine take_bind rules ⟨trivial, rfl⟩ fun _ _ => ?_
    refine take_bind rules ⟨by rintro m ⟨⟩, rfl⟩ fun _ _ => ?_
    exact minds_logicAndSend udp bytesTx

end

/-! ## Runs -/

section
variable {cfg : NetworkConfig} {t : Thread} {c c' : Client}

theorem own_rules (t : Thread) :
    QueueHead.Leveled t fun {α} _ (q : Prog α) _ =>
      q.Obeys (fun a => a.bySender = true → t = .sender) fun _ _ => True where
  ret _ _ := trivial
  bind hq hf := Program.obeys_bind hq hf
  weaken _ hq := hq
  act own _ _ rest := ⟨own, fun r _ => rest r⟩

/-- Only the sender takes the actions that are the sender's alone. -/
theorem starts_own (udp : cfg.protocol = .protUDP) {p : Point} {q : Prog Point}
    (h : Starts cfg t p q) :
    q.Obeys (fun a => a.bySender = true → t = .sender) fun _ _ => True :=
  QueueHead.starts_checked (own_rules t) udp h

theorem others_exec (udp : cfg.protocol = .protUDP) {p : Point} {q : Prog Point}
    (h : Starts cfg t p q) (other : t ≠ .sender) (c : Client) :
    q.exec ((spared cfg).perform t) c = q.exec ((others cfg).perform t) c := by
  apply Program.exec_congr (starts_own udp h)
  intro a c own
  have foreign : a.bySender = false := by
    by_contra mine
    exact other (own (by simpa using mine))
  simp [spared, others, Machine.restrict, other, foreign]

/-- A process that has ended does nothing. -/
theorem spared_stopped (stopped : c.status ≠ .running) (a : Act) :
    (spared cfg).perform t a c = .blocked := by
  cases effect : (spared cfg).perform t a c with
  | ok r c' => exact absurd (spared_ok effect).2.1 stopped
  | halt c' => exact absurd ((honest_restrict cfg sparesConfirms).halt effect).1 stopped
  | blocked => rfl

theorem exec_stopped {α : Type} (stopped : c.status ≠ .running) (q : Prog α) :
    (q.exec ((spared cfg).perform t) c).state = c := by
  cases q with
  | ret a => rfl
  | act a next => simp only [Program.exec, spared_stopped stopped, Outcome.state_halted]

/-- **Every pass leaves the CONFIRMs as they have to be.** -/
theorem starts_whole (udp : cfg.protocol = .protUDP) {p : Point} {q : Prog Point}
    (h : Starts cfg t p q) : q.Keeps ((spared cfg).perform t) Whole := by
  intro c hc
  by_cases running : c.status = .running
  · have attended := hc.attended running
    by_cases own : t = .sender
    · subst own
      have safe := minds_sender udp h c attended
      cases run : q.exec ((spared cfg).perform .sender) c with
      | done p c' => exact Attended.whole (Program.safe_done (by intro _; rfl) safe run)
      | halted c' =>
        obtain ⟨a, c₁, minded, halted | ⟨blocked, rfl⟩⟩ :=
          Program.safe_halted (by intro _; rfl) safe run
        · exact minded.halted c' halted
        · exact minded.blocked blocked
    · rw [others_exec udp h own]
      exact (others_attended udp h own c attended).whole
  · rw [exec_stopped running]
    exact hc

/-- Messages leave the queue by the two ways to take them out. -/
theorem uids_kept {a : Act} {r : a.Answer} (act : c.act t a = .ok r c')
    (pops : a ≠ .queuePopMessage) (flushes : a ≠ .queuePopAllMessages) {uid : Nat}
    (mem : uid ∈ c.sendingQueue.uids) : uid ∈ c'.sendingQueue.uids := by
  rw [Client.act_queue act]
  cases a
  case queuePopMessage => exact absurd rfl pops
  case queuePopAllMessages => exact absurd rfl flushes
  all_goals simp [Client.queueAfter, mem]

theorem leavesSent_of_head {a : Act} {r : a.Answer} (act : c.act t a = .ok r c')
    (sent : a = .queuePopMessage → HeadSent c) : LeavesSent a c c' := by
  intro m mem conf gone
  by_cases flushes : a = .queuePopAllMessages
  · exact Or.inl flushes
  right
  by_cases pops : a = .queuePopMessage
  · subst pops
    rw [Client.act_queue act, Client.queueAfter, MessageQueue.popMessage] at gone
    cases queue : c.sendingQueue with
    | nil =>
      rw [queue] at mem
      cases mem
    | cons head rest =>
      rw [queue] at mem gone
      rcases List.mem_cons.mp mem with rfl | behind
      · exact sent rfl m rest queue conf
      · exact absurd (List.mem_map_of_mem behind) gone
  · exact absurd (uids_kept act pops flushes (List.mem_map_of_mem mem)) gone

end

end Outgoing

open Outgoing in
/-- **CONFIRMs go out as they were queued.** In every run of passes in which the handlers
spare the CONFIRMs, each transmission of a CONFIRM answers a datagram received before and
is the only one of this CONFIRM, and none leaves the queue unsent, unless the queue is
emptied. -/
theorem confirms_intact {cfg : NetworkConfig} (udp : cfg.protocol = .protUDP)
    {heap : Nat → Memory} {ipAddress : Buffer} {s : Passes Thread Client Point}
    (passed : ((machine cfg).restrict sparesConfirms).Passed
      (initialPasses (programInterfaceInit heap ipAddress)) s) :
    ConfirmsIntact s.shared.history ∧
      ∀ t p q, s.point t = some p → Starts cfg t p q → ∀ n a next c,
        q.advance (((machine cfg).restrict sparesConfirms).perform t) n s.shared =
          some (.act a next, c) →
        ∀ r c', ((machine cfg).restrict sparesConfirms).perform t a c = .ok r c' →
          LeavesSent a c c' := by
  have whole : Whole s.shared := by
    apply Machine.invariant_of_keeps Whole (fun _ _ _ h => starts_whole udp h) passed
    refine ⟨fun _ => ⟨?_, List.forall_mem_nil _, List.forall_mem_nil _, ?_⟩, ?_⟩
    · exact ⟨List.forall_mem_nil _, List.nodup_nil, by rintro m ⟨⟩⟩
    · intro m earlier suffix
      simp [initialPasses, programInterfaceInit] at suffix
    · intro m earlier suffix
      simp [initialPasses, programInterfaceInit] at suffix
  refine ⟨whole.intact, fun t p q _ start n a next c run r c' effect => ?_⟩
  obtain ⟨-, running, act⟩ := spared_ok effect
  apply leavesSent_of_head act
  rintro rfl
  obtain rfl : t = .sender := (Program.obeys_advance (starts_own udp start) run).1 rfl
  have started : s.shared.status = .running := by
    by_contra stopped
    cases n with
    | zero =>
      cases run
      exact stopped running
    | succ n =>
      cases q with
      | ret p => cases run
      | act b rest =>
        have blocked : ((machine cfg).restrict sparesConfirms).perform .sender b s.shared =
            .blocked := spared_stopped stopped b
        simp [Program.advance, blocked] at run
  have safe := minds_sender udp start s.shared (whole.attended started)
  have left := Program.safe_advance (by intro _; rfl) safe run
  exact (left c rfl).1.sent rfl

/-- A REPLY and a MSG are confirmed, each once. -/
theorem confirms_intact_session :
    ∃ s, ((machine ⟨.protUDP, 3⟩).restrict sparesConfirms).Passed
        (initialPasses (programInterfaceInit (fun _ _ => 0xC4) ⟨some fun _ => 0, 10, 10⟩)) s ∧
      (s.shared.history.any fun
        | .transmitted m => m.type == MsgType.msgConf.toUChar && m.buffer == [0, 7, 9]
        | _ => false) = true ∧
      ConfirmsIntact s.shared.history := by
  obtain ⟨s, passed, sent⟩ := passed_of_played
    (m := (machine ⟨.protUDP, 3⟩).restrict sparesConfirms) (fun _ _ _ h => h)
    (programInterfaceInit (fun _ _ => 0xC4) ⟨some fun _ => 0, 10, 10⟩)
    [.main (ascii "/auth u s d\n"), .sender 1, .receiver [0, 0, 0],
      .receiver ([1, 0, 0, 1, 0, 0] ++ ascii "ok" ++ [0]), .sender 1,
      .receiver ([4, 7, 9] ++ ascii "bob" ++ [0] ++ ascii "hi" ++ [0]), .sender 1]
    (fun s => s.shared.history.any fun
      | .transmitted m => m.type == MsgType.msgConf.toUChar && m.buffer == [0, 7, 9]
      | _ => false) (by decide +kernel)
  exact ⟨s, passed, sent, (confirms_intact rfl passed).1⟩

end Ipk24Chat
