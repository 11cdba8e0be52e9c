import Ipk24Chat.Run
import Ipk24Chat.Effects

/-!
# The head of the queue

The accessors of the queue's head do not test for an empty queue. A thread that
holds the lock knows how many messages the queue has at least, since the others
then only add some. The sender also gives the lock up and takes it again, behind
its test of the queue or a wait, and goes on to use the head.

* `starts_checked`: the levels of knowledge at which the code of the threads runs;
* `lockedAct_of_reachable`: who uses the queue holds its lock.
-/

namespace Ipk24Chat

/-- The action reads or changes the message at the head without a test. -/
def Act.usesHead : Act → Bool
  | .queueGetMessageFlags | .queueGetSendedCounter | .queueMessageSended => true
  | .message _ | .sendto _ => true
  | _ => false

namespace QueueHead

/-! ## Levels -/

/-- The lock is taken again, see `Event.senderResumed`. -/
def relocks {α : Type} : Prog α → Bool
  | .act .queueLock next =>
    match next () with
    | .act (.note .senderResumed) _ => true
    | _ => false
  | _ => false

/-- It is the sender that takes it again. -/
def again {α : Type} (t : Thread) (q : Prog α) : Bool := t = .sender && relocks q

/-- The messages that are in the queue behind a note. -/
def granted : Event → Nat
  | .replyNok => 1
  | .authDiscarded => 2
  | _ => 0

/-- The level an action needs. At level 0 nothing is known; at level 1 the sender knows that
the queue is not empty when it takes the lock again; at level `n + 2` a thread holds the lock,
and the queue has `n` messages or more. -/
def needs : Act → Nat
  | .queueUnlock | .queuePopMessage | .queuePopAllMessages => 2
  | a => if a.usesHead then 3 else 0

/-- The level behind an action, by whether it takes the lock again. -/
def gives (again : Bool) (k : Nat) : (a : Act) → a.Answer → Nat
  | .queueLock, _ => if again then (if k = 0 then 2 else max 3 k) else max 2 k
  | .queueUnlock, _ => if k < 3 then 0 else 1
  | .queuePopMessage, _ => max 2 (k - 1)
  | .queuePopAllMessages, _ => 2
  | .queueAddMessage .., _ | .queueAddMessagePriority .., _ => if k < 2 then 0 else k + 1
  | .queueIsEmpty, empty => if k < 2 then 0 else if empty then k else max k 3
  | .queueGetMessage, p => if k < 2 then 0 else if p = none then k else max k 3
  | .note e, _ => if k < 2 then 0 else max k (granted e + 2)
  | _, _ => if k < 2 then 0 else k

/-- Who knows more before an action knows more behind it. -/
theorem gives_mono {b b' : Bool} {j k : Nat} (more : b = true → b' = true) (le : j ≤ k) (a : Act)
    (r : a.Answer) : gives b j a r ≤ gives b' k a r := by
  cases a <;> simp only [gives]
  case queueLock =>
    cases b with
    | true =>
      rw [more rfl]
      repeat' split
      all_goals omega
    | false =>
      repeat' split
      all_goals first | omega | contradiction
  all_goals
    repeat' split
    all_goals omega

/-- The queue is unlocked at once. -/
def unlocks {α : Type} : Prog α → Bool
  | .act .queueUnlock _ => true
  | _ => false

/-- Whether a thread with the lock adds a message before it unlocks the queue, as soon as an
action tells. One that waits for its own lock never unlocks it. -/
def settles : Act → Option Bool
  | .queueAddMessage .. | .queueAddMessagePriority .. | .queueLock => some true
  | .queueUnlock | .park => some false
  | _ => none

/-- A message is added before the queue is unlocked. -/
def Refills {α : Type} : Prog α → Prop
  | .ret _ => False
  | .act a next =>
    match settles a with
    | some refilled => refilled = true
    | none => ∀ r, Refills (next r)

section
variable {α β : Type} {q : Prog α} {f : α → Prog β}

theorem refills_bind (h : Refills q) : Refills (q >>= f) := by
  induction q with
  | ret a => exact h.elim
  | act a next ih =>
    change Refills (.act a fun r => next r >>= f)
    unfold Refills at h ⊢
    cases settled : settles a with simp only [settled] at h ⊢
    | some refilled => exact h
    | none =>
      intro r
      exact ih r (h r)

theorem relocks_bind (h : relocks q = true) : relocks (q >>= f) = true := by
  cases q with
  | ret a => cases h
  | act a next =>
    cases a <;> try cases h
    case queueLock =>
      change relocks (.act .queueLock fun r => next r >>= f) = true
      simp only [relocks] at h ⊢
      split at h
      · rename_i resumed
        simp only [resumed]
        rfl
      · cases h

theorem again_bind (t : Thread) (h : again t q = true) : again t (q >>= f) = true := by
  simp only [again, Bool.and_eq_true] at h ⊢
  exact ⟨h.1, relocks_bind h.2⟩

theorem unlocks_bind (h : unlocks q = true) : unlocks (q >>= f) = true := by
  cases q with
  | ret a => cases h
  | act a next => cases a <;> first | rfl | cases h

end

/-- It waits for the lock. -/
theorem errHandling_refills {α : Type} (cfg : NetworkConfig) (f : Failure) :
    Refills (errHandling cfg f : Prog α) := by
  unfold errHandling
  split
  · exact fun _ _ _ => rfl
  · exact fun _ _ _ => rfl
  · exact fun _ => nofun

theorem sendConfirm_refills (cfg : NetworkConfig) (serverResponse : Buffer) (flags : MsgFlags) :
    Refills (sendConfirm cfg serverResponse flags) := by
  change ∀ _ result, Refills _
  intro _ result
  cases result with
  | error f => exact errHandling_refills cfg f
  | ok r =>
    change Refills (if r.canBeSended = true then _ else _)
    split
    · rfl
    · exact errHandling_refills cfg _

/-- What follows when the queue is emptied: it is unlocked at once or filled again. The sender
may do as it likes. -/
def Flushed {α : Type} (t : Thread) (q : Prog α) : Prop :=
  t = .sender ∨ unlocks q = true ∨ Refills q

/-! ## The threads -/

/-- The lock is given up for a wait of `logicFSM`. -/
def levelAfterLogic : LogicResult → Nat
  | .proceed => 3
  | .waitSend | .waitAgain => 1

/-- Where a thread stands between two pieces of its code. -/
def levelAt : Point → Nat
  | .logicWaitSend | .logicWaitAgain => 1
  | _ => 0

/-- Actions that need nothing and lose nothing. -/
def quiet : Act → Bool
  | .queueLock => false
  | a => needs a = 0

theorem le_gives_of_quiet {a : Act} (h : quiet a = true) {k : Nat} (steady : k ≠ 1) (b : Bool)
    (r : a.Answer) : k ≤ gives b k a r := by
  cases a <;> simp [quiet, needs, Act.usesHead] at h <;> simp only [gives] <;> (repeat' split) <;>
    omega

theorem needs_of_quiet {a : Act} (h : quiet a = true) : needs a = 0 := by
  unfold quiet at h
  split at h
  · cases h
  · exact of_decide_eq_true h

/-- A property of the programs of thread `t`, by the level they start and end at,
that follows from the levels of the single actions. -/
structure Leveled (t : Thread) (G : {α : Type} → Nat → Prog α → (α → Nat) → Prop) : Prop where
  ret : ∀ {α : Type} {k : Nat} {post : α → Nat} (a : α), post a ≤ k → G k (.ret a) post
  bind : ∀ {α β : Type} {k : Nat} {q : Prog α} {f : α → Prog β} {mid : α → Nat} {post : β → Nat},
    G k q mid → (∀ a, G (mid a) (f a) post) → G k (q >>= f) post
  weaken : ∀ {α : Type} {j k : Nat} {q : Prog α} {post : α → Nat}, j ≤ k → G j q post → G k q post
  act : ∀ {α : Type} {k : Nat} {a : Act} {next : a.Answer → Prog α} {post : α → Nat},
    (a.bySender = true → t = .sender) → needs a ≤ k →
      (a = .queuePopAllMessages → ∀ r, Flushed t (next r)) →
      (∀ r, G (gives (again t (.act a next)) k a r) (next r) post) → G k (.act a next) post

namespace Leveled
variable {t : Thread} {G : {α : Type} → Nat → Prog α → (α → Nat) → Prop} (rules : Leveled t G)
  {α : Type} {k : Nat}
include rules

/-- The rule with the level that is kept behind the action. -/
theorem next (k' : Nat) {a : Act} {f : a.Answer → Prog α} {post : α → Nat}
    (own : a.bySender = true → t = .sender) (enough : needs a ≤ k)
    (keeps : a ≠ .queuePopAllMessages) (le : ∀ r, k' ≤ gives false k a r)
    (rest : ∀ r, G k' (f r) post) : G k (take a >>= f) post := by
  apply rules.act own enough (fun flush => absurd flush keeps)
  intro r
  have more : gives false k a r ≤ gives (again t (Ipk24Chat.take a >>= f)) k a r :=
    gives_mono (by nofun) (Nat.le_refl k) a r
  exact rules.weaken (Nat.le_trans (le r) more) (rest r)

theorem take {a : Act} {post : a.Answer → Nat} (own : a.bySender = true → t = .sender)
    (enough : needs a ≤ k) (keeps : a ≠ .queuePopAllMessages)
    (le : ∀ r, post r ≤ gives false k a r) : G k (Ipk24Chat.take a) post := by
  apply rules.act own enough (fun flush => absurd flush keeps)
  intro r
  have more : gives false k a r ≤ gives (again t (Ipk24Chat.take a)) k a r :=
    gives_mono (by nofun) (Nat.le_refl k) a r
  exact rules.ret r (Nat.le_trans (le r) more)

theorem quiet {a : Act} {f : a.Answer → Prog α} {post : α → Nat} (h : quiet a = true)
    (steady : k ≠ 1) (rest : ∀ r, G k (f r) post) : G k (Ipk24Chat.take a >>= f) post := by
  have none := needs_of_quiet h
  refine rules.next k (fun own => ?_) (by omega) ?_ (le_gives_of_quiet h steady false) rest
  · cases a <;> simp_all [Act.bySender, needs, Act.usesHead]
  · rintro rfl
    cases none

theorem last {a : Act} {post : a.Answer → Nat} (h : QueueHead.quiet a = true) (steady : k ≠ 1)
    (le : ∀ r, post r ≤ k) : G k (Ipk24Chat.take a) post :=
  rules.quiet (a := a) (f := .ret) h steady fun r => rules.ret r (le r)

theorem lock {f : Unit → Prog α} {post : α → Nat} (rest : ∀ r, G 2 (f r) post) :
    G k (queueLock >>= f) post :=
  rules.next 2 nofun (Nat.zero_le k) nofun (fun _ => Nat.le_max_left 2 k) rest

theorem unlock {f : Unit → Prog α} {post : α → Nat} (rest : ∀ r, G 0 (f r) post) :
    G (k + 2) (queueUnlock >>= f) post :=
  rules.next 0 nofun (Nat.le_add_left 2 k) nofun (fun _ => Nat.zero_le _) rest

theorem unlocked : G (k + 2) queueUnlock fun _ => 0 :=
  rules.take nofun (Nat.le_add_left 2 k) nofun fun _ => Nat.zero_le _

/-- The queue is not empty when the lock is given up. -/
theorem release {f : Unit → Prog α} {post : α → Nat} (rest : ∀ r, G 1 (f r) post) :
    G (k + 3) (queueUnlock >>= f) post := by
  refine rules.next (a := .queueUnlock) 1 nofun (Nat.le_add_left 2 (k + 1)) nofun ?_ rest
  intro _
  simp only [gives]
  split <;> omega

/-- The head may be used where the queue has one. -/
theorem head {a : Act} {f : a.Answer → Prog α} {post : α → Nat} (uses : a.usesHead = true)
    (own : a.bySender = true → t = .sender) (rest : ∀ r, G (k + 3) (f r) post) :
    G (k + 3) (Ipk24Chat.take a >>= f) post := by
  refine rules.next (k + 3) own ?_ ?_ (fun r => ?_) rest
  · cases a <;> simp_all [Act.usesHead, needs]
  · rintro rfl
    cases uses
  · cases a <;> simp only [Act.usesHead, Bool.false_eq_true] at uses <;> simp only [gives] <;>
      split <;> omega

theorem flush {f : Unit → Prog α} {post : α → Nat} (flushed : Flushed t (f ()))
    (rest : ∀ r, G 2 (f r) post) : G (k + 2) (queuePopAllMessages >>= f) post :=
  rules.act nofun (Nat.le_add_left 2 k) (fun _ _ => flushed) rest

end Leveled

/-- The sender takes the lock again, and finds what it left. -/
theorem Leveled.relock {G : {α : Type} → Nat → Prog α → (α → Nat) → Prop}
    (rules : Leveled .sender G) {α : Type} {f : Unit → Prog α} {post : α → Nat}
    (rest : ∀ r, G 3 (f r) post) : G 1 (queueLock >>= fun _ => note .senderResumed >>= f) post := by
  refine rules.act nofun (Nat.zero_le 1) nofun fun _ => ?_
  change G 3 (note .senderResumed >>= f) post
  exact rules.quiet rfl (by decide) rest

section
variable {cfg : NetworkConfig} {t : Thread} {G : {α : Type} → Nat → Prog α → (α → Nat) → Prop}
  (rules : Leveled t G) {α : Type}
include rules

theorem sendBye_checked {k : Nat} : G k (sendBye cfg) fun _ => 0 := by
  unfold sendBye
  refine rules.lock fun _ => ?_
  refine rules.quiet rfl (by decide) fun _ => ?_
  refine rules.quiet rfl (by decide) fun _ => ?_
  exact rules.unlocked

/-- It never returns, so whatever it is called with does for the caller. -/
theorem errHandling_checked {k : Nat} (f : Failure) (post : α → Nat) :
    G k (errHandling cfg f : Prog α) post := by
  apply rules.weaken (Nat.zero_le k)
  have destroyed (e : ErrorCode) : G 0
      (safePrint ("ERR: " ++ f.msg ++ "\n") >>= fun _ => exit e : Prog α) post :=
    rules.quiet rfl (by decide) fun _ =>
      rules.act nofun (Nat.zero_le _) nofun fun none => none.elim
  have waits : G 0 (do
      setProgramState .fsmErr
      safePrint ("ERR: " ++ f.msg ++ "\n")
      pthreadCondSignal .mainCond
      queueLock
      queuePopAllMessages
      queueUnlock
      sendBye cfg
      park : Prog α) post := by
    iterate 3 refine rules.quiet rfl (by decide) fun _ => ?_
    refine rules.lock fun _ => ?_
    refine rules.flush (Or.inr (Or.inl rfl)) fun _ => ?_
    refine rules.unlock fun _ => ?_
    refine rules.bind (sendBye_checked rules) fun _ => ?_
    exact rules.act nofun (Nat.zero_le _) nofun fun none => none.elim
  unfold errHandling
  split
  · exact waits
  · exact waits
  · exact destroyed _

theorem sendConfirm_checked {k : Nat} (steady : k ≠ 1) (serverResponse : Buffer)
    (flags : MsgFlags) : G k (sendConfirm cfg serverResponse flags) fun _ => k := by
  unfold sendConfirm
  refine rules.quiet rfl steady fun _ => ?_
  refine rules.quiet rfl steady fun result => ?_
  cases result with
  | error f => exact errHandling_checked rules f _
  | ok r =>
    simp only
    split
    · exact rules.last rfl steady fun _ => Nat.le_refl k
    · exact errHandling_checked rules _ _

theorem sendError_checked (receiverSendMsgs : Scratch) (text : String) :
    G 0 (sendError cfg receiverSendMsgs text) fun _ => 0 := by
  unfold sendError
  refine rules.quiet rfl (by decide) fun comDetails => ?_
  refine rules.quiet rfl (by decide) fun _ => ?_
  refine rules.quiet rfl (by decide) fun result => ?_
  cases result with
  | error f => exact errHandling_checked rules f _
  | ok r =>
    refine rules.lock fun _ => ?_
    split
    · refine rules.quiet rfl (by decide) fun _ => ?_
      exact rules.unlocked
    · exact errHandling_checked rules _ _

/-! ### The receiver -/

theorem confirmedInState_checked {k : Nat} (steady : k ≠ 1) (state : Fsm) :
    G k (confirmedInState state) fun _ => k := by
  unfold confirmedInState
  split
  · exact rules.last rfl steady fun _ => Nat.le_refl k
  · exact rules.quiet rfl steady fun _ => rules.last rfl steady fun _ => Nat.le_refl k
  · exact rules.last rfl steady fun _ => Nat.le_refl k
  · exact rules.ret _ (Nat.le_refl k)

theorem handleConfirmUDP_checked (msgID : Nat) :
    G 0 (handleConfirmUDP msgID) fun _ => 0 := by
  unfold handleConfirmUDP
  refine rules.lock fun _ => ?_
  refine rules.act nofun (Nat.zero_le _) nofun fun head => ?_
  cases head with
  | none => exact rules.unlocked
  | some uid =>
    -- the queue is known to have a head now
    change G 3 _ _
    refine rules.quiet rfl (by decide) fun queueTopMsgID => ?_
    refine rules.head rfl nofun fun topOfQueue => ?_
    split
    · exact rules.unlocked
    · refine rules.quiet rfl (by decide) fun _ => ?_
      refine rules.quiet rfl (by decide) fun _ => ?_
      refine rules.quiet rfl (by decide) fun state => ?_
      refine rules.bind (confirmedInState_checked rules (by decide) state) fun _ => ?_
      refine rules.quiet rfl (by decide) fun _ => ?_
      exact rules.unlocked

theorem repetitive_checked (pBlocks : ProtocolBlocks) (serverResponse : Buffer) :
    G 0 (repetitive cfg pBlocks serverResponse) fun _ => 0 := by
  unfold repetitive
  refine rules.lock fun _ => ?_
  refine rules.quiet rfl (by decide) fun seen => ?_
  split
  · exact rules.unlock fun _ => rules.ret _ (Nat.le_refl 0)
  · split
    · exact errHandling_checked rules _ _
    · refine rules.quiet rfl (by decide) fun _ => ?_
      exact rules.unlock fun _ => rules.ret _ (Nat.le_refl 0)

theorem lockedConfirm_checked (serverResponse : Buffer) :
    G 0 (lockedConfirm cfg serverResponse) fun _ => 0 := by
  unfold lockedConfirm
  refine rules.lock fun _ => ?_
  exact rules.bind (sendConfirm_checked rules (by decide) _ _) fun _ => rules.unlocked

theorem wakeSender_checked {k : Nat} (steady : k ≠ 1) : G k wakeSender fun _ => k := by
  refine rules.quiet rfl steady fun _ => ?_
  exact rules.last rfl steady fun _ => Nat.le_refl k

theorem printIncomingMessage_checked {k : Nat} (steady : k ≠ 1) (pBlocks : ProtocolBlocks) :
    G k (printIncomingMessage cfg pBlocks) fun _ => k := by
  unfold printIncomingMessage
  simp only
  split
  · exact errHandling_checked rules _ _
  · exact rules.last rfl steady fun _ => Nat.le_refl k

theorem inUDP_checked {k : Nat} {q : Prog Unit} (h : G k q fun _ => k) :
    G k (inUDP cfg q) fun _ => k := by
  unfold inUDP
  split
  · exact h
  · exact rules.ret _ (Nat.le_refl k)

theorem handlePositiveReplyUDP_checked (tested : Fsm) (pBlocks : ProtocolBlocks)
    (serverResponse : Buffer) :
    G 0 (handlePositiveReplyUDP cfg tested pBlocks serverResponse) fun _ => 0 := by
  have flagged : G 0 flagAuthConfirmed fun _ => 0 := by
    unfold flagAuthConfirmed
    refine rules.quiet rfl (by decide) fun state => ?_
    split
    · refine rules.lock fun _ => ?_
      refine rules.quiet rfl (by decide) fun _ => ?_
      exact rules.unlocked
    · exact rules.ret _ (Nat.le_refl 0)
  unfold handlePositiveReplyUDP
  refine rules.quiet rfl (by decide) fun _ => ?_
  refine rules.bind flagged fun _ => ?_
  refine rules.quiet rfl (by decide) fun _ => ?_
  refine rules.lock fun _ => ?_
  refine rules.bind (sendConfirm_checked rules (by decide) _ _) fun _ => ?_
  refine rules.unlock fun _ => ?_
  refine rules.quiet rfl (by decide) fun _ => ?_
  refine rules.quiet rfl (by decide) fun _ => ?_
  exact rules.last rfl (by decide) fun _ => Nat.le_refl 0

/-- Where the flags of the head are read, the queue is taken to have one. -/
theorem handleNegativeReplyUDP_checked (pBlocks : ProtocolBlocks) (serverResponse : Buffer) :
    G 0 (handleNegativeReplyUDP cfg pBlocks serverResponse) fun _ => 0 := by
  have rejected : G 3 rejectAuth fun _ => 3 := by
    unfold rejectAuth
    refine rules.head rfl nofun fun flags => ?_
    split
    · refine rules.quiet rfl (by decide) fun _ => ?_
      exact rules.last rfl (by decide) fun _ => Nat.le_refl 3
    · exact rules.ret _ (Nat.le_refl 3)
  have left : G 3 leaveJoin fun _ => 3 := by
    unfold leaveJoin
    refine rules.quiet rfl (by decide) fun state => ?_
    split
    · exact rules.last rfl (by decide) fun _ => Nat.le_refl 3
    · exact rules.ret _ (Nat.le_refl 3)
  unfold handleNegativeReplyUDP
  refine rules.lock fun _ => ?_
  refine rules.next 3 nofun (Nat.zero_le _) nofun (fun _ => Nat.le_refl 3) fun _ => ?_
  refine rules.bind rejected fun _ => ?_
  refine rules.bind left fun _ => ?_
  refine rules.bind (sendConfirm_checked rules (by decide) _ _) fun _ => ?_
  refine rules.unlock fun _ => ?_
  refine rules.quiet rfl (by decide) fun _ => ?_
  exact rules.last rfl (by decide) fun _ => Nat.le_refl 0

theorem handleReplyUDP_checked (msgID : Nat) (pBlocks : ProtocolBlocks) (serverResponse : Buffer) :
    G 0 (handleReplyUDP cfg msgID pBlocks serverResponse) fun _ => 0 := by
  have handle (tested : Fsm) : G 0
      (answerReply cfg pBlocks serverResponse tested >>= fun _ => note (.replyCounter msgID) >>=
        fun _ => setMsgCounter (msgID + 1)) fun _ => 0 := by
    have answered : G 0 (answerReply cfg pBlocks serverResponse tested) fun _ => 0 := by
      unfold answerReply
      split
      · exact handlePositiveReplyUDP_checked rules _ _ _
      · exact handleNegativeReplyUDP_checked rules _ _
    refine rules.bind answered fun _ => ?_
    refine rules.quiet rfl (by decide) fun _ => ?_
    exact rules.last rfl (by decide) fun _ => Nat.le_refl 0
  unfold handleReplyUDP
  refine rules.quiet rfl (by decide) fun state => ?_
  split
  · exact handle _
  · refine rules.quiet rfl (by decide) fun state => ?_
    split
    · exact handle _
    · exact rules.ret _ (Nat.le_refl 0)

theorem receiverAction_checked (udp : cfg.protocol = .protUDP) (msgID : Nat)
    (pBlocks : ProtocolBlocks) (serverResponse : Buffer) (repetitiveMsg : Bool) :
    G 0 (receiverAction cfg msgID pBlocks serverResponse repetitiveMsg) fun _ => 0 := by
  unfold receiverAction
  simp only [udp]
  split
  · exact handleConfirmUDP_checked rules _
  · split
    · exact lockedConfirm_checked rules _
    · exact handleReplyUDP_checked rules _ _ _
  · refine rules.bind (lockedConfirm_checked rules _) fun _ => ?_
    split
    · exact rules.ret _ (Nat.le_refl 0)
    · refine rules.bind (wakeSender_checked rules (by decide)) fun _ => ?_
      exact printIncomingMessage_checked rules (by decide) _
  · refine rules.bind (inUDP_checked rules (lockedConfirm_checked rules _)) fun _ => ?_
    refine rules.quiet rfl (by decide) fun _ => ?_
    exact rules.last rfl (by decide) fun _ => Nat.le_refl 0
  · refine rules.lock fun _ => ?_
    -- the CONFIRM is added before the queue is unlocked
    have refilled : Refills (inUDP cfg (sendConfirm cfg serverResponse .msgFlagConfirm)) := by
      simp only [inUDP, udp]
      exact sendConfirm_refills cfg serverResponse _
    refine rules.flush (Or.inr (Or.inr (refills_bind refilled))) fun _ => ?_
    refine rules.bind (inUDP_checked rules (sendConfirm_checked rules (by decide) _ _)) fun _ => ?_
    refine rules.unlock fun _ => ?_
    refine rules.bind (sendBye_checked rules) fun _ => ?_
    refine rules.bind (wakeSender_checked rules (by decide)) fun _ => ?_
    refine rules.quiet rfl (by decide) fun _ => ?_
    refine rules.bind (printIncomingMessage_checked rules (by decide) _) fun _ => ?_
    exact rules.last rfl (by decide) fun _ => Nat.le_refl 0
  · refine rules.quiet rfl (by decide) fun _ => ?_
    refine rules.lock fun _ => ?_
    refine rules.flush (Or.inr (Or.inl rfl)) fun _ => ?_
    refine rules.unlock fun _ => ?_
    refine rules.bind (inUDP_checked rules (sendConfirm_checked rules (by decide) _ _)) fun _ => ?_
    refine rules.bind (sendError_checked rules _ _) fun _ => ?_
    refine rules.bind (sendBye_checked rules) fun _ => ?_
    refine rules.bind (wakeSender_checked rules (by decide)) fun _ => ?_
    refine rules.quiet rfl (by decide) fun _ => ?_
    exact rules.last rfl (by decide) fun _ => Nat.le_refl 0

theorem handleDatagram_checked (udp : cfg.protocol = .protUDP) (serverResponse : Buffer) :
    G 0 (handleDatagram cfg serverResponse) fun _ => 0 := by
  unfold handleDatagram
  simp only [udp]
  split
  · exact errHandling_checked rules _ _
  · unfold dispatch
    refine rules.quiet rfl (by decide) fun state => ?_
    split
    · exact rules.ret _ (Nat.le_refl 0)
    · unfold receiverFSM
      simp only [udp]
      refine rules.bind (repetitive_checked rules _ _) fun repetitiveMsg => ?_
      exact receiverAction_checked rules udp _ _ _ _

theorem protocolReceiver_checked (udp : cfg.protocol = .protUDP) (datagram : List UInt8) :
    G 0 (protocolReceiver cfg datagram) levelAt := by
  unfold protocolReceiver
  refine rules.quiet rfl (by decide) fun state => ?_
  split
  · exact rules.ret _ (Nat.le_refl 0)
  · split
    · exact rules.ret _ (Nat.le_refl 0)
    · refine rules.quiet rfl (by decide) fun serverResponse => ?_
      refine rules.bind (handleDatagram_checked rules udp _) fun _ => ?_
      exact rules.ret _ (Nat.le_refl 0)

end

/-! ### The sender -/

section
variable {cfg : NetworkConfig} {G : {α : Type} → Nat → Prog α → (α → Nat) → Prop}
  (rules : Leveled .sender G)
include rules

theorem logicBeforeAuth_checked (msgToBeSend : MsgPtr) (msgType : MsgType) (flags : MsgFlags) :
    G 3 (logicBeforeAuth msgToBeSend msgType flags) levelAfterLogic := by
  have sended : G 3 (authIsSended flags) fun _ => 3 := by
    unfold authIsSended
    split
    · refine rules.quiet rfl (by decide) fun state => ?_
      split
      · exact rules.last rfl (by decide) fun _ => Nat.le_refl 3
      · exact rules.ret _ (Nat.le_refl 3)
    · exact rules.ret _ (Nat.le_refl 3)
  unfold logicBeforeAuth
  refine rules.bind sended fun _ => ?_
  split
  · exact rules.release fun _ => rules.ret _ (Nat.le_refl 1)
  · split
    · refine rules.head rfl nofun fun m => ?_
      split
      · exact rules.release fun _ => rules.ret _ (Nat.le_refl 1)
      · exact rules.ret _ (Nat.le_refl 3)
    · exact rules.ret _ (Nat.le_refl 3)

theorem logicErr_checked (flags : MsgFlags) :
    G 3 (logicErr cfg flags) levelAfterLogic := by
  unfold logicErr
  split
  · split
    · exact rules.quiet rfl (by decide) fun _ => rules.ret _ (Nat.le_refl 3)
    · refine rules.quiet rfl (by decide) fun _ => ?_
      exact rules.quiet rfl (by decide) fun _ => rules.ret _ (Nat.le_refl 3)
  · split
    · exact rules.quiet rfl (by decide) fun _ => rules.ret _ (Nat.le_refl 3)
    · exact rules.ret _ (Nat.le_refl 3)
  · exact rules.ret _ (Nat.le_refl 3)
  · exact errHandling_checked rules _ _

theorem logicOpen_checked (msgType : MsgType) :
    G 3 (logicOpen msgType) levelAfterLogic := by
  unfold logicOpen
  split
  · refine rules.quiet rfl (by decide) fun _ => ?_
    -- the discarded message is not the only one
    refine rules.next 4 nofun (Nat.zero_le _) nofun (fun _ => Nat.le_refl 4) fun _ => ?_
    refine rules.next 3 (fun _ => rfl) (by decide) nofun (fun _ => Nat.le_refl 3) fun _ => ?_
    exact rules.ret _ (Nat.le_refl 3)
  · exact rules.quiet rfl (by decide) fun _ => rules.ret _ (Nat.le_refl 3)
  · exact rules.ret _ (Nat.le_refl 3)

theorem logicFSM_checked : G 3 (logicFSM cfg) levelAfterLogic := by
  unfold logicFSM
  refine rules.quiet rfl (by decide) fun msgToBeSend => ?_
  refine rules.quiet rfl (by decide) fun msgType => ?_
  refine rules.head rfl nofun fun flags => ?_
  refine rules.quiet rfl (by decide) fun state => ?_
  cases state with
  | fsmStart | fsmAuthW82BeSended | fsmAuthSended | fsmW84Reply =>
    exact logicBeforeAuth_checked rules _ _ _
  | fsmW84ReplyConf =>
    change G 3 (logicReplyConf msgType) levelAfterLogic
    unfold logicReplyConf
    split
    · refine rules.quiet rfl (by decide) fun _ => ?_
      exact rules.quiet rfl (by decide) fun _ => rules.ret _ (Nat.le_refl 3)
    · exact rules.ret _ (Nat.le_refl 3)
  | fsmOpen => exact logicOpen_checked rules _
  | fsmErr | fsmErrW84Conf => exact logicErr_checked rules _
  | _ => exact rules.ret _ (Nat.le_refl 3)

theorem sendHead_checked (udp : cfg.protocol = .protUDP) (bytesTx : Int) :
    G 3 (sendHead cfg bytesTx) levelAt := by
  unfold sendHead labelMessage messageWasSended
  simp only [udp]
  refine rules.quiet rfl (by decide) fun msgToBeSend => ?_
  refine rules.quiet rfl (by decide) fun _ => ?_
  refine rules.head rfl (fun _ => rfl) fun _ => ?_
  refine rules.head rfl nofun fun flags => ?_
  split
  · exact errHandling_checked rules _ _
  · have popped : G 3 queuePopMessage fun _ => 2 :=
      rules.take (fun _ => rfl) (by decide) nofun fun _ => Nat.le_refl 2
    have counted : G 3 queueMessageSended fun _ => 2 :=
      rules.take (fun _ => rfl) (by decide) nofun fun _ => Nat.le_succ 2
    have behind : G 2 (queueUnlock >>= fun _ => pure .protocolSender : Prog Point)
        levelAt := rules.unlock fun _ => rules.ret _ (Nat.le_refl 0)
    split
    · exact rules.bind popped fun _ => behind
    · exact rules.bind popped fun _ => behind
    · exact rules.bind popped fun _ => behind
    · exact rules.bind counted fun _ => behind

theorem logicAndSend_checked (udp : cfg.protocol = .protUDP) (bytesTx : Int) :
    G 3 (logicAndSend cfg bytesTx) levelAt := by
  unfold logicAndSend
  refine rules.bind (logicFSM_checked rules) fun result => ?_
  cases result with
  | proceed => exact sendHead_checked rules udp _
  | waitSend => exact rules.ret _ (Nat.le_refl 1)
  | waitAgain => exact rules.ret _ (Nat.le_refl 1)

theorem requestTimedOut_checked : G 3 (requestTimedOut cfg) fun _ => 2 := by
  unfold requestTimedOut
  refine rules.quiet rfl (by decide) fun _ => ?_
  refine rules.flush (Or.inl rfl) fun _ => ?_
  refine rules.quiet rfl (by decide) fun _ => ?_
  refine rules.unlock fun _ => ?_
  refine rules.bind (sendError_checked rules _ _) fun _ => ?_
  refine rules.bind (sendBye_checked rules) fun _ => ?_
  refine rules.quiet rfl (by decide) fun _ => ?_
  exact rules.take nofun (Nat.zero_le _) nofun fun _ => Nat.le_refl 2

/-- A round of the filter has the head it was given. -/
theorem filterLoop_checked (fuel : Nat) (msgToBeSend : MsgPtr) (resetLoop : Bool) :
    G (if msgToBeSend = none then 2 else 3)
      (filterLoop cfg fuel msgToBeSend resetLoop) fun _ => 2 := by
  induction fuel generalizing msgToBeSend resetLoop with
  | zero => exact rules.act nofun (Nat.zero_le _) nofun fun none => none.elim
  | succ fuel ih =>
    have next (resetLoop : Bool) : G 3 (do
        queuePopMessage
        let msgToBeSend ← queueGetMessage
        filterLoop cfg fuel msgToBeSend resetLoop : Prog Bool) fun _ => 2 := by
      refine rules.next 2 (fun _ => rfl) (by decide) nofun (fun _ => Nat.le_refl 2) fun _ => ?_
      refine rules.act nofun (Nat.zero_le _) nofun fun p => ?_
      cases p with
      | none => exact ih none resetLoop
      | some uid => exact ih (some uid) resetLoop
    cases msgToBeSend with
    | none => exact rules.ret _ (Nat.le_refl 2)
    | some uid =>
      change G 3 _ _
      unfold filterLoop
      refine rules.head rfl nofun fun sended => ?_
      split
      · refine rules.quiet rfl (by decide) fun state => ?_
        split
        · exact next resetLoop
        · refine rules.quiet rfl (by decide) fun state => ?_
          split
          · refine rules.quiet rfl (by decide) fun _ => ?_
            exact rules.quiet rfl (by decide) fun _ => next true
          · exact rules.bind (requestTimedOut_checked rules) fun _ => rules.ret _ (Nat.le_refl 2)
      · refine rules.head rfl nofun fun m => ?_
        split
        · exact next resetLoop
        · split
          · exact rules.ret _ (by decide)
          · split
            · exact rules.ret _ (by decide)
            · exact next resetLoop

theorem senderBody_checked (udp : cfg.protocol = .protUDP) (bytesTx : Int) :
    G 2 (senderBody cfg bytesTx) levelAt := by
  have ends : G 2 endsWhenEmpty fun _ => 2 := by
    unfold endsWhenEmpty
    refine rules.quiet rfl (by decide) fun state => ?_
    split
    · exact rules.ret _ (Nat.le_refl 2)
    · exact rules.quiet rfl (by decide) fun _ => rules.ret _ (Nat.le_refl 2)
  unfold senderBody
  refine rules.act nofun (Nat.zero_le _) nofun fun empty => ?_
  cases empty with
  | true =>
    change G 2 (endsWhenEmpty >>= _) levelAt
    refine rules.bind ends fun stop => ?_
    split
    · refine rules.quiet rfl (by decide) fun _ => ?_
      refine rules.unlock fun _ => ?_
      exact rules.quiet rfl (by decide) fun _ => rules.ret _ (Nat.le_refl 0)
    · exact rules.unlock fun _ => rules.ret _ (Nat.le_refl 0)
  | false =>
    change G 3 (queueUnlock >>= _) levelAt
    refine rules.release fun _ => ?_
    refine rules.relock fun _ => ?_
    exact logicAndSend_checked rules udp _

theorem protocolSender_checked (udp : cfg.protocol = .protUDP) (fuel : Nat) (bytesTx : Int) :
    G 0 (protocolSender cfg fuel bytesTx) levelAt := by
  have filtered : G 2 (filterResentMessages cfg fuel) fun _ => 2 := by
    unfold filterResentMessages
    refine rules.act nofun (Nat.zero_le _) nofun fun p => ?_
    cases p with
    | none => exact filterLoop_checked rules fuel none false
    | some uid => exact filterLoop_checked rules fuel (some uid) false
  unfold protocolSender
  simp only [udp]
  refine rules.quiet rfl (by decide) fun state => ?_
  split
  · exact rules.ret _ (Nat.le_refl 0)
  · refine rules.lock fun _ => ?_
    refine rules.bind filtered fun resetLoop => ?_
    split
    · exact rules.ret _ (Nat.zero_le _)
    · exact senderBody_checked rules udp _

end

/-! ### Main -/

section
variable {cfg : NetworkConfig} {t : Thread} {G : {α : Type} → Nat → Prog α → (α → Nat) → Prop}
  (rules : Leveled t G)
include rules

theorem filterCommandsByFSM_checked (pBlocks : ProtocolBlocks) (flags : MsgFlags) :
    G 0 (filterCommandsByFSM pBlocks flags) fun _ => 0 := by
  have refuse (text : String) : G 0
      (safePrint text >>= fun _ => pure (false, flags)) fun _ => 0 :=
    rules.quiet rfl (by decide) fun _ => rules.ret _ (Nat.le_refl 0)
  have done (result : Bool × MsgFlags) : G 0 (.ret result) fun _ => 0 :=
    rules.ret _ (Nat.le_refl 0)
  unfold filterCommandsByFSM
  cases uchar2CommandType pBlocks.type with
  | cmdAuth =>
    refine rules.quiet rfl (by decide) fun _ => ?_
    refine rules.quiet rfl (by decide) fun state => ?_
    split
    · exact rules.quiet rfl (by decide) fun _ => done _
    · exact refuse _
  | cmdJoin =>
    refine rules.quiet rfl (by decide) fun state => ?_
    split
    · exact rules.quiet rfl (by decide) fun _ => done _
    · exact refuse _
  | cmdRename =>
    refine rules.quiet rfl (by decide) fun state => ?_
    split
    · exact rules.quiet rfl (by decide) fun _ => done _
    · exact refuse _
  | cmdMsg =>
    refine rules.quiet rfl (by decide) fun state => ?_
    split
    · exact done _
    · exact refuse _
  | cmdHelp => exact rules.quiet rfl (by decide) fun _ => done _
  | cmdNone | cmdExit => exact done _
  | _ => exact refuse _

theorem enqueueCommand_checked (flags : MsgFlags) (type : UInt8) :
    G 0 (enqueueCommand flags type) fun _ => 0 := by
  have signaled (signalSender : Bool) : G 2 (signalSenderIf signalSender type)
      fun _ => 2 := by
    unfold signalSenderIf
    split
    · exact rules.last rfl (by decide) fun _ => Nat.le_refl 2
    · exact rules.ret _ (Nat.le_refl 2)
  unfold enqueueCommand
  refine rules.lock fun _ => ?_
  refine rules.quiet rfl (by decide) fun signalSender => ?_
  refine rules.quiet rfl (by decide) fun _ => ?_
  refine rules.bind (signaled _) fun _ => ?_
  refine rules.unlock fun _ => ?_
  split
  · refine rules.quiet rfl (by decide) fun _ => ?_
    exact rules.last rfl (by decide) fun _ => Nat.le_refl 0
  · exact rules.ret _ (Nat.le_refl 0)

theorem handleLine_checked (clientInput : Buffer) :
    G 0 (handleLine cfg clientInput) fun _ => 0 := by
  have complained (e : Option WordError) : G 0 (printComplaint e) fun _ => 0 := by
    unfold printComplaint
    split
    · exact rules.last rfl (by decide) fun _ => Nat.le_refl 0
    · exact rules.ret _ (Nat.le_refl 0)
  unfold handleLine
  refine rules.bind (complained _) fun _ => ?_
  refine rules.bind (filterCommandsByFSM_checked rules _ _) fun result => ?_
  change G 0 (if result.1 = true then _ else _ : Prog Unit) _
  split
  · unfold assembleCommand
    refine rules.quiet rfl (by decide) fun assembled => ?_
    cases assembled with
    | error f => exact errHandling_checked rules f _
    | ok r =>
      change G 0 (if r.canBeSended = true then _ else _ : Prog Unit) _
      split
      · exact enqueueCommand_checked rules _ _
      · exact rules.ret _ (Nat.le_refl 0)
  · exact rules.ret _ (Nat.le_refl 0)

theorem userCommandHandling_checked (eofDetected : Bool) (stdin : List UInt8) :
    G 0 (userCommandHandling cfg eofDetected stdin) levelAt := by
  unfold userCommandHandling
  refine rules.quiet rfl (by decide) fun state => ?_
  split
  · split
    · refine rules.quiet rfl (by decide) fun _ => ?_
      refine rules.bind (sendBye_checked rules) fun _ => ?_
      exact rules.quiet rfl (by decide) fun _ => rules.ret _ (Nat.le_refl 0)
    · refine rules.quiet rfl (by decide) fun loaded => ?_
      exact rules.bind (handleLine_checked rules _) fun _ => rules.ret _ (Nat.le_refl 0)
  · exact rules.ret _ (Nat.le_refl 0)

/-- Every piece of code can be started with nothing known. -/
theorem starts_checked (udp : cfg.protocol = .protUDP) {p : Point} {q : Prog Point}
    (h : Starts cfg t p q) : G (levelAt p) q levelAt := by
  cases h with
  | userCommandHandling eofDetected stdin => exact userCommandHandling_checked rules _ _
  | protocolReceiver datagram _ => exact protocolReceiver_checked rules udp _
  | protocolSender fuel bytesTx => exact protocolSender_checked rules udp _ _
  | logicWaitSend bytesTx =>
    unfold resumeSend
    refine rules.relock fun _ => ?_
    exact sendHead_checked rules udp _
  | logicWaitAgain bytesTx =>
    unfold resumeLogic
    refine rules.relock fun _ => ?_
    exact logicAndSend_checked rules udp _

end

/-! ## The lock -/

/-- What thread `t` knows of the lock at a level. -/
def Holds (t : Thread) (k : Nat) (c : Client) : Prop := 2 ≤ k → c.lock = some t

/-- An action is taken where the thread holds the lock if it has to, and by the
sender if only the sender does it. -/
def LockedAct (t : Thread) (a : Act) (c : Client) : Prop :=
  (0 < needs a → c.lock = some t) ∧ (a.bySender = true → t = .sender)

section
variable {cfg : NetworkConfig} {t : Thread} {c c' : Client} {k : Nat} {a : Act} {r : a.Answer}

theorem two_le_needs (positive : 0 < needs a) : 2 ≤ needs a := by
  cases a <;> simp_all [needs, Act.usesHead]

theorem lockedAct_of_holds (held : Holds t k c) (enough : needs a ≤ k)
    (own : a.bySender = true → t = .sender) : LockedAct t a c :=
  ⟨fun positive => held (Nat.le_trans (two_le_needs positive) enough), own⟩

/-- Who knows of the lock behind an action holds it there. -/
theorem holds_step (ok : c.act t a = .ok r c') (held : Holds t k c) (enough : needs a ≤ k)
    (b : Bool) : Holds t (gives b k a r) c' := by
  have lock := Client.act_lock ok
  intro two
  by_cases known : 2 ≤ k
  · cases a <;> try exact lock.trans (held known)
    case queueLock => exact lock
    case queueUnlock =>
      simp only [gives] at two
      split at two <;> omega
  · -- nothing was known, so the lock has just been taken
    cases a <;> simp only [gives] at two
    case queueLock => exact lock
    case queuePopMessage | queuePopAllMessages => exact absurd enough known
    all_goals
      exfalso
      repeat' split at two
      all_goals omega

/-- A lock is kept by its holder. -/
theorem lock_kept (ok : c.act t a = .ok r c') (own : LockedAct t a c) {u : Thread} (other : u ≠ t)
    (held : c.lock = some u) : c'.lock = some u := by
  rw [Client.act_lock ok]
  cases a <;> try exact held
  case queueLock =>
    rw [Client.act_queueLock ok] at held
    cases held
  case queueUnlock =>
    rw [own.1 Nat.two_pos] at held
    exact absurd (Option.some.inj held).symm other

/-- The program takes the lock where it has to, from a level to a level. -/
def Locked (t : Thread) {α : Type} (k : Nat) (q : Prog α) (post : α → Nat) : Prop :=
  q.SafeFrom (Client.perform t) (LockedAct t)
    (fun c c₁ => True ∧ (c.lock = some t → c₁.lock = some t))
    (fun c₁ c₂ => True ∧ ∀ u, u ≠ t → c₁.lock = some u → c₂.lock = some u)
    (Holds t k) fun a c => Holds t (post a) c

theorem locked_rules (t : Thread) : Leveled t (Locked t) where
  ret _ le := fun _ held enough => held (Nat.le_trans enough le)
  bind hq hf := Program.safeFrom_bind hq hf
  weaken le hq := fun c held => hq c fun enough => held (Nat.le_trans enough le)
  act := by
    intro α k a next post own enough _ rest
    refine Program.safeFrom_act (fun c c' move held more => move.2 (held more)) ?_ rest
    intro c held
    have locked := lockedAct_of_holds held enough own
    refine ⟨locked, ?_, ?_⟩
    · intro r c' ok
      have ok := (Client.perform_ok ok).2
      exact ⟨⟨trivial, fun u other => lock_kept ok locked other⟩, holds_step ok held enough _⟩
    · intro c' halt
      rw [Client.act_halt (Client.perform_halt halt).2]
      exact ⟨trivial, fun u _ held => held⟩

end

end QueueHead

/-- **The lock.** In every run of the UDP variant a thread that unlocks the queue,
takes messages from it or uses its head holds the lock, and only the sender sends,
counts and pops messages. -/
theorem lockedAct_of_reachable {cfg : NetworkConfig} (udp : cfg.protocol = .protUDP)
    {heap : Nat → Memory} {ipAddress : Buffer} {s : Threads Thread Client Act.Answer Point}
    (reached : Reachable cfg heap ipAddress s) {t : Thread} {a : Act}
    {next : a.Answer → Prog Point} (code : s.code t = some (.act a next)) :
    QueueHead.LockedAct t a s.shared := by
  obtain ⟨-, safe⟩ := Machine.invariant_of_safe (m := machine cfg) (fun _ => True)
    QueueHead.LockedAct (fun u c c' => c.lock = some u → c'.lock = some u) (fun _ _ held => held)
    (fun _ _ _ _ h₁ h₂ held => h₂ (h₁ held))
    (fun t p q c start _ => by
      have locked := QueueHead.starts_checked (QueueHead.locked_rules t) udp start
      have nothing : QueueHead.Holds t (QueueHead.levelAt p) c := by
        intro enough
        cases p <;> simp [QueueHead.levelAt] at enough
      exact Program.safe_mono (locked c nothing) fun _ _ _ => trivial)
    reached trivial (fun t q idle => by cases idle; trivial)
  exact Machine.allowed_of_safeFor (fun _ _ held => held) trivial (safe t _ code)

end Ipk24Chat
