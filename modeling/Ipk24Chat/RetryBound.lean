import Ipk24Chat.QueueHead
import Ipk24Chat.StopAndWait

/-!
# How often a message is sent

The sender counts a transmission after it, in eight bits, and compares the count
before the next one. The count and the transmission are of the same message as long
as nobody puts a CONFIRM in front of it in between; the lock prevents this wherever
it is held.

* `Exact`: outside `sendHead`, the counts cover all transmissions;
* `Allowed`: behind the filter, the message at the head may be sent once more;
* `transmitted_at_most`: the bound, in every run in which no CONFIRM is put in front
  of the queue while the sender holds the lock, if the bound fits the counter.
-/

namespace Ipk24Chat

/-- The event is a transmission of message `uid`, which is no CONFIRM. -/
def Event.sends (uid : Nat) : Event → Bool
  | .transmitted m => m.numbered && m.uid == uid
  | _ => false

/-- How often message `uid` was transmitted. -/
def timesSent (uid : Nat) (history : List Event) : Nat := history.countP (Event.sends uid)

/-- A CONFIRM is put in front of the queue only while the sender does not hold the
lock. The code takes the lock for it except behind an unknown message. -/
def pushedAside (_ : Thread) : Act → Client → Bool
  | .queueAddMessagePriority .., c => c.lock ≠ some .sender
  | _, _ => true

namespace RetryBound

/-- Identity, type and count of the message at the head. -/
def front (queue : MessageQueue) : Option (Nat × UInt8 × Nat) :=
  queue.head?.map fun m => (m.uid, m.type, m.sendCount)

/-- The counts cover all transmissions. -/
def Exact (c : Client) : Prop :=
  ∀ x ∈ c.sendingQueue.attempts, timesSent x.1 c.history ≤ x.2

/-- The message at the head may be sent once more. -/
def Allowed (limit : Nat) (c : Client) : Prop :=
  ∀ uid type count, front c.sendingQueue = some (uid, type, count) →
    type ≠ MsgType.msgConf.toUChar → count ≤ limit

/-- Message `uid` is at the head. -/
def AtHead (p : MsgPtr) (c : Client) : Prop :=
  ∀ uid, p = some uid → ∃ type count, front c.sendingQueue = some (uid, type, count)

/-- The message at the head was sent, and this is not counted yet. -/
def Uncounted (limit : Nat) (c : Client) : Prop :=
  ∃ uid type count, front c.sendingQueue = some (uid, type, count) ∧
    (type ≠ MsgType.msgConf.toUChar → count ≤ limit) ∧
    ∀ x ∈ c.sendingQueue.attempts, timesSent x.1 c.history ≤ x.2 + if x.1 = uid then 1 else 0

section
variable {t : Thread} {c c' : Client} {a : Act} {r : a.Answer}

theorem timesSent_act (ok : Orderly c a) (sends : ∀ p, a ≠ .sendto p) (h : c.act t a = .ok r c')
    (uid : Nat) : timesSent uid c'.history = timesSent uid c.history := by
  rw [Client.act_history h]
  cases a <;> try rfl
  case setConfirmed p =>
    cases found : c.sendingQueue.deref p <;> simp [Client.emitted, found, timesSent, Event.sends]
  case sendto p => exact absurd rfl (sends p)
  case note e =>
    have quiet : e.sends uid = false := by cases e <;> first | rfl | cases ok
    simp [Client.emitted, timesSent, quiet]

/-- A message that was not queued yet was never sent. -/
theorem timesSent_fresh (old : ∀ m, .transmitted m ∈ c.history → m.uid < c.nextUid) :
    timesSent c.nextUid c.history = 0 := by
  rw [timesSent, List.countP_eq_zero]
  intro e he
  cases e <;> simp only [Event.sends, Bool.not_eq_true, Bool.false_eq_true, not_false_eq_true]
  case transmitted m =>
    have := old m he
    simp only [Bool.and_eq_false_iff, beq_eq_false_iff_ne]
    exact Or.inr (by omega)

theorem bySender_sendto (other : a.bySender = false) (p : MsgPtr) : a ≠ .sendto p := by
  rintro rfl
  cases other

/-- What becomes of the line without the sender. -/
theorem attempts_cases (ok : Orderly c a) (other : a.bySender = false)
    (h : c.act t a = .ok r c') :
    c'.sendingQueue.attempts = c.sendingQueue.attempts ∨ c'.sendingQueue.attempts = [] ∨
      c'.sendingQueue.attempts = c.sendingQueue.attempts ++ [(c.nextUid, 0)] := by
  rw [Client.act_queue h]
  cases a <;> try exact Or.inl rfl
  case queueSetMessageFlags newFlag => exact Or.inl (by simp [Client.queueAfter])
  case queueSetMessageID => exact Or.inl (by simp [Client.queueAfter])
  case setConfirmed p => exact Or.inl (by simp [Client.queueAfter])
  case queueMessageSended => cases other
  case queuePopMessage => cases other
  case queuePopAllMessages => exact Or.inr (Or.inl rfl)
  case queueAddMessage buffer flags type =>
    rw [Client.queueAfter, MessageQueue.attempts_addMessage]
    cases (c.newMessage buffer flags type).numbered
    · exact Or.inl (by simp)
    · exact Or.inr (Or.inr rfl)
  case queueAddMessagePriority buffer flags type =>
    have conf : (c.newMessage buffer flags type).numbered = false := by
      simp [Client.newMessage, createMessage, Message.numbered, show type = _ from ok]
    exact Or.inl (MessageQueue.attempts_addMessagePriority _ conf)

theorem front_setMessageID (queue : MessageQueue) (msgCounter : Nat) :
    front (queue.setMessageID msgCounter) = front queue := by
  cases queue with
  | nil => rfl
  | cons m rest =>
    simp only [MessageQueue.setMessageID]
    split <;> rfl

/-- What becomes of the head without the sender. -/
theorem front_cases (ok : Orderly c a) (other : a.bySender = false) (h : c.act t a = .ok r c') :
    front c'.sendingQueue = front c.sendingQueue ∨
    (front c'.sendingQueue = none ∧ 0 < QueueHead.needs a) ∨
    (∃ type, front c'.sendingQueue = some (c.nextUid, type, 0) ∧ c.sendingQueue = []) ∨
    ∃ buffer flags, a = .queueAddMessagePriority buffer flags MsgType.msgConf.toUChar ∧
      front c'.sendingQueue = some (c.nextUid, MsgType.msgConf.toUChar, 0) := by
  rw [Client.act_queue h]
  cases a <;> try exact Or.inl rfl
  case queueSetMessageFlags newFlag =>
    left
    cases queue : c.sendingQueue <;>
      simp [Client.queueAfter, queue, MessageQueue.setMessageFlags, front]
  case queueSetMessageID => exact Or.inl (front_setMessageID _ _)
  case setConfirmed p =>
    left
    cases queue : c.sendingQueue with
    | nil => simp [Client.queueAfter, queue, MessageQueue.confirm, front]
    | cons m rest =>
      simp only [Client.queueAfter, queue, MessageQueue.confirm, List.map_cons, front,
        List.head?_cons, Option.map_some]
      split <;> rfl
  case queueMessageSended => cases other
  case queuePopMessage => cases other
  case queuePopAllMessages => exact Or.inr (Or.inl ⟨rfl, Nat.two_pos⟩)
  case queueAddMessage buffer flags type =>
    cases queue : c.sendingQueue with
    | nil => exact Or.inr (Or.inr (Or.inl ⟨type, by
        simp [Client.queueAfter, queue, MessageQueue.addMessage, front, Client.newMessage,
          createMessage], rfl⟩))
    | cons m rest =>
      exact Or.inl (by simp [Client.queueAfter, queue, MessageQueue.addMessage, front])
  case queueAddMessagePriority buffer flags type =>
    obtain rfl : type = MsgType.msgConf.toUChar := ok
    exact Or.inr (Or.inr (Or.inr ⟨buffer, flags, rfl, rfl⟩))

theorem exact_act (inv : InLine c) (ok : Orderly c a) (other : a.bySender = false)
    (h : c.act t a = .ok r c') (counted : Exact c) : Exact c' := by
  intro x hx
  rw [timesSent_act ok (bySender_sendto other) h]
  rcases attempts_cases ok other h with eq | eq | eq <;> rw [eq] at hx
  · exact counted x hx
  · cases hx
  · rcases List.mem_append.mp hx with hx | hx
    · exact counted x hx
    · rw [List.mem_singleton.mp hx]
      exact Nat.le_of_eq (timesSent_fresh inv.identified.old)

theorem allowed_act {limit : Nat} (ok : Orderly c a) (other : a.bySender = false)
    (h : c.act t a = .ok r c') (allowed : Allowed limit c) : Allowed limit c' := by
  intro uid type count first numbered
  rcases front_cases ok other h with eq | ⟨eq, -⟩ | ⟨_, eq, -⟩ | ⟨_, _, -, eq⟩ <;> rw [eq] at first
  · exact allowed uid type count first numbered
  · cases first
  · cases first
    exact Nat.zero_le _
  · cases first
    exact absurd rfl numbered

end

/-! ## Among the other threads -/

/-- What is known of every action, see `inLine_of_reachable` and
`lockedAct_of_reachable`. -/
def Known (t : Thread) (a : Act) (c : Client) : Prop :=
  InLine c ∧ Orderly c a ∧ QueueHead.LockedAct t a c

open Classical in
/-- The client in the runs that meet the condition, with what is known of them. -/
noncomputable def asideMachine (cfg : NetworkConfig) : Machine Thread Client Act.Answer Point :=
  ((machine cfg).restrict pushedAside).restrict fun t a c => decide (Known t a c)

section
variable {cfg : NetworkConfig} {t : Thread} {c c' : Client} {a : Act} {r : a.Answer}

open Classical in
theorem known_of_ok (h : (asideMachine cfg).perform t a c = .ok r c') :
    Known t a c ∧ pushedAside t a c = true ∧ c.act t a = .ok r c' := by
  simp only [asideMachine, Machine.restrict, decide_eq_true_eq] at h
  split at h
  · split at h
    · exact ⟨‹_›, ‹_›, (Client.perform_ok h).2⟩
    · cases h
  · cases h

theorem halted_eq (h : (asideMachine cfg).perform t a c = .halt c') :
    c' = { c with status := c'.status } := by
  simp only [asideMachine, Machine.restrict] at h
  split at h
  · split at h
    · exact Client.act_halt (Client.perform_halt h).2
    · cases h
  · cases h

/-- A property that the actions of the other threads keep. -/
theorem stable_of_act (cfg : NetworkConfig) {K : Client → Prop}
    (ended : ∀ (c : Client) (status : Status), K c → K { c with status := status })
    (one : ∀ t a r c c', t ≠ .sender → Known t a c → pushedAside t a c = true →
      a.bySender = false → c.act t a = .ok r c' → K c → K c')
    (move : (asideMachine cfg).Others .sender c c') (hc : K c) : K c' := by
  refine Machine.stable_of_otherStep (fun c c' step hc => ?_) move hc
  obtain ⟨t, a, other, ⟨r, ok⟩ | halt⟩ := step
  · obtain ⟨known, aside, act⟩ := known_of_ok ok
    have foreign : a.bySender = false := by
      cases own : a.bySender
      · rfl
      · exact absurd (known.2.2.2 own) other
    exact one t a r c c' other known aside foreign act hc
  · rw [halted_eq halt]
    exact ended c _ hc

theorem exact_stable (move : (asideMachine cfg).Others .sender c c') (counted : Exact c) :
    Exact c' :=
  stable_of_act cfg (fun _ _ h => h)
    (fun _ _ _ _ _ _ known _ foreign act => exact_act known.1 known.2.1 foreign act) move counted

theorem allowed_stable {limit : Nat} (move : (asideMachine cfg).Others .sender c c')
    (allowed : Allowed limit c) : Allowed limit c' :=
  stable_of_act cfg (fun _ _ h => h)
    (fun _ _ _ _ _ _ known _ foreign act => allowed_act known.2.1 foreign act) move allowed

/-- While the sender holds the lock, the others leave it and the head. -/
theorem held_act (other : t ≠ .sender) (known : Known t a c) (aside : pushedAside t a c = true)
    (foreign : a.bySender = false) (h : c.act t a = .ok r c') (held : c.lock = some .sender) :
    c'.lock = some .sender ∧
      (front c.sendingQueue ≠ none → front c'.sendingQueue = front c.sendingQueue) := by
  refine ⟨QueueHead.lock_kept h known.2.2 (Ne.symm other) held, fun present => ?_⟩
  rcases front_cases known.2.1 foreign h with eq | ⟨-, needs⟩ | ⟨_, -, empty⟩ | ⟨_, _, rfl, -⟩
  · exact eq
  · rw [known.2.2.1 needs] at held
    exact absurd (Option.some.inj held) other
  · simp [empty, front] at present
  · simp [pushedAside, held] at aside

/-- The sender holds the lock, and `K` holds. -/
def Held (K : Client → Prop) (c : Client) : Prop := c.lock = some .sender ∧ K c

theorem held_stable {K : Client → Prop}
    (stable : ∀ {c c'}, (asideMachine cfg).Others .sender c c' → K c → K c')
    (move : (asideMachine cfg).Others .sender c c') (h : Held K c) : Held K c' := by
  refine ⟨?_, stable move h.2⟩
  exact stable_of_act cfg (K := fun c => c.lock = some .sender) (fun _ _ h => h)
    (fun _ _ _ _ _ other known aside foreign act held =>
      (held_act other known aside foreign act held).1) move h.1

/-- While the lock is held, what depends on the head only stays. -/
theorem held_front_stable {Q : Option (Nat × UInt8 × Nat) → Prop}
    (move : (asideMachine cfg).Others .sender c c')
    (h : c.lock = some .sender ∧ front c.sendingQueue ≠ none ∧ Q (front c.sendingQueue)) :
    c'.lock = some .sender ∧ front c'.sendingQueue ≠ none ∧ Q (front c'.sendingQueue) := by
  refine stable_of_act cfg (K := fun c => c.lock = some .sender ∧ front c.sendingQueue ≠ none ∧
    Q (front c.sendingQueue)) (fun _ _ h => h) ?_ move h
  rintro t a r c c' other known aside foreign act ⟨held, present, head⟩
  obtain ⟨held', same⟩ := held_act other known aside foreign act held
  rw [same present]
  exact ⟨held', present, head⟩

theorem uncounted_stable {limit : Nat} (move : (asideMachine cfg).Others .sender c c')
    (h : Held (Uncounted limit) c) : Held (Uncounted limit) c' := by
  refine stable_of_act cfg (K := Held (Uncounted limit)) (fun _ _ h => h) ?_ move h
  rintro t a r c c' other known aside foreign act ⟨held, uid, type, count, first, below, counted⟩
  obtain ⟨held', same⟩ := held_act other known aside foreign act held
  refine ⟨held', uid, type, count, (same (by simp [first])).trans first, below, fun x hx => ?_⟩
  rw [timesSent_act known.2.1 (bySender_sendto foreign) act]
  rcases attempts_cases known.2.1 foreign act with eq | eq | eq <;> rw [eq] at hx
  · exact counted x hx
  · cases hx
  · rcases List.mem_append.mp hx with hx | hx
    · exact counted x hx
    · rw [List.mem_singleton.mp hx, timesSent_fresh known.1.identified.old]
      exact Nat.zero_le _

end

/-! ## The sender -/

section
variable (cfg : NetworkConfig)

/-- The bound. -/
def Bounded (c : Client) : Prop :=
  ∀ uid, timesSent uid c.history ≤ cfg.udpMaxRetries.val + 1

/-- The counts cover the transmissions, and the head may be sent once more. -/
def Ready (c : Client) : Prop := Exact c ∧ Allowed cfg.udpMaxRetries.val c

/-- Code of the sender that keeps the bound, from `K` to `Q`. -/
def Sends {α : Type} (K : Client → Prop) (q : Prog α) (Q : α → Client → Prop) : Prop :=
  ∀ c, K c → (asideMachine cfg).SafeAmong .sender (Bounded cfg) q Q c

/-- What all threads keep, apart from the actions of the sender alone. -/
structure Lasting (K : Client → Prop) : Prop where
  stable : ∀ {c c'}, (asideMachine cfg).Others .sender c c' → K c → K c'
  own : ∀ {a : Act} {r : a.Answer} {c c' : Client}, InLine c → Orderly c a →
    a.bySender = false → c.act .sender a = .ok r c' → K c → K c'

theorem lasting_exact : Lasting cfg Exact := ⟨exact_stable, exact_act⟩

theorem lasting_ready : Lasting cfg (Ready cfg) where
  stable move h := ⟨exact_stable move h.1, allowed_stable move h.2⟩
  own inv ok foreign act h := ⟨exact_act inv ok foreign act h.1, allowed_act ok foreign act h.2⟩

end

section
variable {cfg : NetworkConfig} {α β : Type} {K : Client → Prop} {Q : α → Client → Prop}

theorem sends_ret {a : α} (h : ∀ c, K c → Q a c) : Sends cfg K (.ret a) Q := h

theorem sends_bind {q : Prog β} {f : β → Prog α} {mid : β → Client → Prop}
    (hq : Sends cfg K q mid) (hf : ∀ b, Sends cfg (mid b) (f b) Q) : Sends cfg K (q >>= f) Q :=
  fun c hc => Program.safe_bind (hq c hc) fun b c' => hf b c'

theorem sends_weaken {K' : Client → Prop} {q : Prog α} (hq : Sends cfg K q Q)
    (weaker : ∀ c, K' c → K c) : Sends cfg K' q Q := fun c hc => hq c (weaker c hc)

/-- The rule for an action of the sender. -/
theorem sends_act {a : Act} {f : a.Answer → Prog α} (mid : a.Answer → Client → Prop)
    (stable : ∀ {c c'}, (asideMachine cfg).Others .sender c c' → K c → K c')
    (step : ∀ r c c', InLine c → Orderly c a → c.act .sender a = .ok r c' → Bounded cfg c → K c →
      Bounded cfg c' ∧ mid r c')
    (rest : ∀ r, Sends cfg (mid r) (f r) Q) : Sends cfg K (take a >>= f) Q := by
  intro c hc c₁ move
  refine ⟨trivial, ?_⟩
  cases effect : (asideMachine cfg).perform .sender a c₁ with
  | ok r c₂ =>
    obtain ⟨⟨inv, ok, -⟩, -, act⟩ := known_of_ok effect
    obtain ⟨bound, known⟩ := step r c₁ c₂ inv ok act move.1 (stable move.2 hc)
    exact ⟨bound, rest r c₂ known⟩
  | halt c₂ =>
    rw [halted_eq effect]
    exact move.1
  | blocked => trivial

theorem bounded_act {a : Act} {r : a.Answer} {c c' : Client} (ok : Orderly c a)
    (foreign : a.bySender = false) (act : c.act .sender a = .ok r c') (bound : Bounded cfg c) :
    Bounded cfg c' := by
  intro uid
  rw [timesSent_act ok (bySender_sendto foreign) act]
  exact bound uid

/-- The rule for an action that others take as well. -/
theorem sends_keep (lasting : Lasting cfg K) {a : Act} {f : a.Answer → Prog α}
    (foreign : a.bySender = false) (rest : ∀ r, Sends cfg K (f r) Q) :
    Sends cfg K (take a >>= f) Q :=
  sends_act (fun _ => K) lasting.stable (fun _ _ _ inv ok act bound hc =>
    ⟨bounded_act ok foreign act bound, lasting.own inv ok foreign act hc⟩) rest

theorem sends_last (lasting : Lasting cfg K) {a : Act} (foreign : a.bySender = false) :
    Sends cfg K (take a) fun _ => K :=
  sends_keep lasting (a := a) (f := .ret) foreign fun _ => sends_ret fun _ hc => hc

theorem sends_lock (lasting : Lasting cfg K) {f : Unit → Prog α}
    (rest : ∀ r, Sends cfg (Held K) (f r) Q) : Sends cfg K (queueLock >>= f) Q :=
  sends_act (a := .queueLock) (fun _ => Held K) lasting.stable (fun _ _ _ inv ok act bound hc =>
    ⟨bounded_act ok rfl act bound, Client.act_lock act, lasting.own inv ok rfl act hc⟩) rest

theorem sends_unlock (lasting : Lasting cfg K) {f : Unit → Prog α}
    (rest : ∀ r, Sends cfg K (f r) Q) : Sends cfg (Held K) (queueUnlock >>= f) Q :=
  sends_weaken (sends_keep lasting (a := .queueUnlock) rfl rest) fun _ hc => hc.2

/-- The rule for an action under the lock. -/
theorem sends_held (lasting : Lasting cfg K) {a : Act} {f : a.Answer → Prog α}
    (foreign : a.bySender = false) (locked : ∀ c : Client, c.lockAfter .sender a = c.lock)
    (rest : ∀ r, Sends cfg (Held K) (f r) Q) : Sends cfg (Held K) (take a >>= f) Q :=
  sends_act (fun _ => Held K) (held_stable lasting.stable) (fun _ c _ inv ok act bound hc =>
    ⟨bounded_act ok foreign act bound, (Client.act_lock act).trans ((locked c).trans hc.1),
      lasting.own inv ok foreign act hc.2⟩) rest

theorem sends_sendBye (lasting : Lasting cfg K) : Sends cfg K (sendBye cfg) fun _ => K := by
  unfold sendBye
  iterate 3 refine sends_keep lasting rfl fun _ => ?_
  exact sends_last lasting rfl

theorem lasting_true : Lasting cfg fun _ => True := ⟨fun _ _ => trivial, fun _ _ _ _ _ => trivial⟩

/-- It never returns, so nothing has to be known. -/
theorem sends_errHandling (f : Failure) : Sends cfg K (errHandling cfg f : Prog α) Q := by
  refine sends_weaken (K := fun _ => True) ?_ fun _ _ => trivial
  have lasting : Lasting cfg fun _ => True := lasting_true
  have destroyed (e : ErrorCode) :
      Sends cfg (fun _ => True)
        (safePrint ("ERR: " ++ f.msg ++ "\n") >>= fun _ => exit e : Prog α) Q := by
    refine sends_keep lasting rfl fun _ => ?_
    exact sends_keep lasting (a := .exit e) (f := fun none => none.elim) rfl fun none => none.elim
  have waits : Sends cfg (fun _ => True) (do
      setProgramState .fsmErr
      safePrint ("ERR: " ++ f.msg ++ "\n")
      pthreadCondSignal .mainCond
      queueLock
      queuePopAllMessages
      queueUnlock
      sendBye cfg
      park : Prog α) Q := by
    iterate 6 refine sends_keep lasting rfl fun _ => ?_
    refine sends_bind (sends_sendBye lasting) fun _ => ?_
    exact sends_keep lasting (a := .park) (f := fun none => none.elim) rfl fun none => none.elim
  unfold errHandling
  split
  · exact waits
  · exact waits
  · exact destroyed _

theorem sends_sendError (lasting : Lasting cfg K) (buffer : Scratch) (text : String) :
    Sends cfg K (sendError cfg buffer text) fun _ => K := by
  unfold sendError
  refine sends_keep lasting rfl fun comDetails => ?_
  refine sends_keep lasting rfl fun _ => ?_
  refine sends_keep lasting rfl fun result => ?_
  cases result with
  | error f => exact sends_errHandling f
  | ok r =>
    refine sends_keep lasting rfl fun _ => ?_
    split
    · refine sends_keep lasting rfl fun _ => ?_
      exact sends_last lasting rfl
    · exact sends_errHandling _

/-- Behind a time-out the queue holds fresh messages only. -/
theorem sends_requestTimedOut :
    Sends cfg Exact (requestTimedOut cfg) fun _ => Ready cfg := by
  have lasting := lasting_ready cfg
  unfold requestTimedOut
  refine sends_keep (lasting_exact cfg) rfl fun _ => ?_
  refine sends_act (a := .queuePopAllMessages) (fun _ => Ready cfg) exact_stable ?_ fun _ => ?_
  · intro r c c' inv ok act bound counted
    refine ⟨bounded_act ok rfl act bound, exact_act inv ok rfl act counted, ?_⟩
    cases act
    intro uid type count first
    cases first
  refine sends_keep lasting rfl fun _ => ?_
  refine sends_keep lasting rfl fun _ => ?_
  refine sends_bind (sends_sendError lasting _ _) fun _ => ?_
  refine sends_bind (sends_sendBye lasting) fun _ => ?_
  refine sends_keep lasting rfl fun _ => ?_
  exact sends_last lasting rfl

theorem exact_pop {c c' : Client} {r : Unit} (ok : Orderly c .queuePopMessage)
    (act : c.act .sender .queuePopMessage = .ok r c') (counted : Exact c) : Exact c' := by
  intro x hx
  rw [timesSent_act ok nofun act]
  rw [Client.act_queue act, Client.queueAfter] at hx
  rcases c.sendingQueue.attempts_popMessage with eq | eq <;> rw [eq] at hx
  · exact counted x hx
  · exact counted x (List.mem_of_mem_tail hx)

theorem bounded_pop {c c' : Client} {r : Unit} (ok : Orderly c .queuePopMessage)
    (act : c.act .sender .queuePopMessage = .ok r c') (bound : Bounded cfg c) : Bounded cfg c' := by
  intro uid
  rw [timesSent_act ok nofun act]
  exact bound uid

/-- A queue without a head allows everything. -/
theorem looked_step {limit : Nat} {c c' : Client} {p : MsgPtr}
    (act : c.act .sender .queueGetMessage = .ok p c') (counted : Exact c) :
    Exact c' ∧ (p = none → Allowed limit c') := by
  obtain rfl : c = c' := by
    simp only [Client.act, Effect.ok.injEq] at act
    exact act.2
  refine ⟨counted, fun none => ?_⟩
  rcases getMessage_cons act with ⟨-, empty⟩ | ⟨m, rest, some, -⟩
  · intro uid type count first
    simp [front, empty] at first
  · rw [none] at some
    cases some

/-- The filter looks at the count of the head last. -/
theorem sends_filterLoop (fuel : Nat) (p : MsgPtr) (resetLoop : Bool) :
    Sends cfg (fun c => Exact c ∧ (p = none → Allowed cfg.udpMaxRetries.val c))
      (filterLoop cfg fuel p resetLoop) fun _ => Ready cfg := by
  have counted := lasting_exact cfg
  have ready := lasting_ready cfg
  induction fuel generalizing p resetLoop with
  | zero =>
    refine sends_weaken ?_ fun _ hc => hc.1
    exact sends_keep counted (a := .diverge) (f := fun none => none.elim) rfl fun none => none.elim
  | succ fuel ih =>
    have next (resetLoop : Bool) : Sends cfg Exact (do
        queuePopMessage
        let msgToBeSend ← queueGetMessage
        filterLoop cfg fuel msgToBeSend resetLoop : Prog Bool) fun _ => Ready cfg := by
      refine sends_act (a := .queuePopMessage) (fun _ => Exact) exact_stable ?_ fun _ => ?_
      · intro r c c' inv ok act bound hc
        exact ⟨bounded_pop ok act bound, exact_pop ok act hc⟩
      refine sends_act (a := .queueGetMessage)
        (fun p c => Exact c ∧ (p = none → Allowed cfg.udpMaxRetries.val c)) exact_stable ?_
        fun p => ih p resetLoop
      exact fun p c c' inv ok act bound hc => ⟨bounded_act ok rfl act bound, looked_step act hc⟩
    cases p with
    | none => exact sends_ret fun c hc => ⟨hc.1, hc.2 rfl⟩
    | some uid =>
      refine sends_weaken (K := Exact) ?_ fun _ hc => hc.1
      unfold filterLoop
      refine sends_act (a := .queueGetSendedCounter)
        (fun sended c => Exact c ∧
          (sended ≤ cfg.udpMaxRetries.val → Allowed cfg.udpMaxRetries.val c))
        exact_stable ?_ fun sended => ?_
      · intro sended c c' inv ok act bound hc
        refine ⟨bounded_act ok rfl act bound, exact_act inv ok rfl act hc, fun below => ?_⟩
        intro uid type count first _
        cases queue : c.sendingQueue with
        | nil => simp [Client.act, queue] at act
        | cons m rest =>
          simp only [Client.act, queue, Effect.ok.injEq] at act
          obtain ⟨rfl, rfl⟩ := act
          simp only [front, queue, List.head?_cons, Option.map_some, Option.some.injEq,
            Prod.mk.injEq] at first
          exact first.2.2 ▸ below
      split
      · refine sends_weaken (K := Exact) ?_ fun _ hc => hc.1
        refine sends_keep counted rfl fun state => ?_
        split
        · exact next resetLoop
        · refine sends_keep counted rfl fun state => ?_
          split
          · refine sends_keep counted rfl fun _ => ?_
            exact sends_keep counted rfl fun _ => next true
          · exact sends_bind sends_requestTimedOut fun _ => sends_ret fun _ hc => hc
      · rename_i below
        refine sends_weaken (K := Ready cfg) ?_ fun c hc => ⟨hc.1, hc.2 (Nat.le_of_not_lt below)⟩
        refine sends_keep ready rfl fun m => ?_
        split
        · exact sends_weaken (next resetLoop) fun _ hc => hc.1
        · split
          · exact sends_ret fun _ hc => hc
          · split
            · exact sends_ret fun _ hc => hc
            · exact sends_weaken (next resetLoop) fun _ hc => hc.1

/-! ### Behind the filter -/

/-- With the lock: if the head was found to be an AUTH, it still is a numbered message. -/
def Seen (cfg : NetworkConfig) (msgType : MsgType) (c : Client) : Prop :=
  Held (Ready cfg) c ∧ (msgType = .msgAuth →
    ∃ uid type count, front c.sendingQueue = some (uid, type, count) ∧
      type ≠ MsgType.msgConf.toUChar)

theorem seen_stable {msgType : MsgType} {c c' : Client}
    (move : (asideMachine cfg).Others .sender c c') (h : Seen cfg msgType c) :
    Seen cfg msgType c' := by
  refine ⟨held_stable (lasting_ready cfg).stable move h.1, fun auth => ?_⟩
  obtain ⟨uid, type, count, first, numbered⟩ := h.2 auth
  have kept := held_front_stable move (Q := fun x => x = some (uid, type, count))
    ⟨h.1.1, by simp [first], first⟩
  exact ⟨uid, type, count, kept.2.2, numbered⟩

/-- The rule for an action that leaves the queue and its lock alone. -/
theorem sends_seen {msgType : MsgType} {a : Act} {f : a.Answer → Prog α}
    (foreign : a.bySender = false) (locked : ∀ c : Client, c.lockAfter .sender a = c.lock)
    (same : ∀ c : Client, c.queueAfter a = c.sendingQueue)
    (rest : ∀ r, Sends cfg (Seen cfg msgType) (f r) Q) :
    Sends cfg (Seen cfg msgType) (take a >>= f) Q := by
  refine sends_act (fun _ => Seen cfg msgType) seen_stable ?_ rest
  intro r c c' inv ok act bound hc
  refine ⟨bounded_act ok foreign act bound, ⟨?_, ?_⟩, ?_⟩
  · exact (Client.act_lock act).trans ((locked c).trans hc.1.1)
  · exact (lasting_ready cfg).own inv ok foreign act hc.1.2
  · rw [Client.act_queue act, same]
    exact hc.2

/-- What is known behind `logicFSM`. -/
def afterLogic (cfg : NetworkConfig) : LogicResult → Client → Prop
  | .proceed => Held (Ready cfg)
  | .waitSend | .waitAgain => Ready cfg

theorem sends_logicBeforeAuth (msgToBeSend : MsgPtr) (msgType : MsgType) (flags : MsgFlags) :
    Sends cfg (Held (Ready cfg)) (logicBeforeAuth msgToBeSend msgType flags) (afterLogic cfg) := by
  have lasting := lasting_ready cfg
  have sended : Sends cfg (Held (Ready cfg)) (authIsSended flags) fun _ => Held (Ready cfg) := by
    unfold authIsSended
    split
    · refine sends_held lasting rfl (fun _ => rfl) fun state => ?_
      split
      · exact sends_held lasting (f := .ret) rfl (fun _ => rfl) fun _ => sends_ret fun _ hc => hc
      · exact sends_ret fun _ hc => hc
    · exact sends_ret fun _ hc => hc
  unfold logicBeforeAuth
  refine sends_bind sended fun _ => ?_
  split
  · exact sends_unlock lasting fun _ => sends_ret fun _ hc => hc
  · split
    · refine sends_held lasting rfl (fun _ => rfl) fun m => ?_
      split
      · exact sends_unlock lasting fun _ => sends_ret fun _ hc => hc
      · exact sends_ret fun _ hc => hc
    · exact sends_ret fun _ hc => hc

theorem sends_logicErr (flags : MsgFlags) :
    Sends cfg (Held (Ready cfg)) (logicErr cfg flags) (afterLogic cfg) := by
  have lasting := lasting_ready cfg
  have moved (s : Fsm) : Sends cfg (Held (Ready cfg))
      (setProgramState s >>= fun _ => pure .proceed) (afterLogic cfg) :=
    sends_held lasting rfl (fun _ => rfl) fun _ => sends_ret fun _ hc => hc
  unfold logicErr
  split
  · split
    · exact moved _
    · refine sends_held lasting rfl (fun _ => rfl) fun _ => ?_
      exact sends_held lasting rfl (fun _ => rfl) fun _ => sends_ret fun _ hc => hc
  · split
    · exact moved _
    · exact sends_ret fun _ hc => hc
  · exact sends_ret fun _ hc => hc
  · exact sends_errHandling _

/-- Behind a numbered message at the head no other one was sent yet. -/
theorem allowed_pop {limit : Nat} {c c' : Client} {r : Unit} (inv : InLine c)
    (act : c.act .sender .queuePopMessage = .ok r c') {uid count : Nat} {type : UInt8}
    (first : front c.sendingQueue = some (uid, type, count))
    (numbered : type ≠ MsgType.msgConf.toUChar) : Allowed limit c' := by
  intro uid' type' count' second numbered'
  rw [Client.act_queue act, Client.queueAfter, MessageQueue.popMessage] at second
  cases queue : c.sendingQueue with
  | nil => simp [front, queue] at first
  | cons m rest =>
    simp only [front, queue, List.head?_cons, Option.map_some, Option.some.injEq,
      Prod.mk.injEq] at first
    cases rest with
    | nil => simp [front, queue] at second
    | cons m' rest =>
      simp only [front, queue, List.tail_cons, List.head?_cons, Option.map_some,
        Option.some.injEq, Prod.mk.injEq] at second
      have leads : m.numbered = true := by simp [Message.numbered, first.2.1, numbered]
      have follows : m'.numbered = true := by simp [Message.numbered, second.2.1, numbered']
      have untried := inv.untried (m'.uid, m'.sendCount) (by
        simp [MessageQueue.attempts, queue, leads, follows])
      rw [← second.2.2]
      exact Nat.le_trans (Nat.le_of_eq untried) (Nat.zero_le _)

theorem sends_logicOpen (msgType : MsgType) :
    Sends cfg (Seen cfg msgType) (logicOpen msgType) (afterLogic cfg) := by
  unfold logicOpen
  split
  · refine sends_seen rfl (fun _ => rfl) (fun _ => rfl) fun _ => ?_
    refine sends_seen rfl (fun _ => rfl) (fun _ => rfl) fun _ => ?_
    refine sends_act (a := .queuePopMessage) (fun _ => Held (Ready cfg)) seen_stable ?_
      fun _ => sends_ret fun _ hc => hc
    intro r c c' inv ok act bound hc
    obtain ⟨uid, type, count, first, numbered⟩ := hc.2 rfl
    exact ⟨bounded_pop ok act bound, (Client.act_lock act).trans hc.1.1,
      exact_pop ok act hc.1.2.1, allowed_pop inv act first numbered⟩
  · exact sends_seen rfl (fun _ => rfl) (fun _ => rfl) fun _ => sends_ret fun _ hc => hc.1
  · exact sends_ret fun _ hc => hc.1

theorem sends_logicFSM : Sends cfg (Held (Ready cfg)) (logicFSM cfg) (afterLogic cfg) := by
  have lasting := lasting_ready cfg
  unfold logicFSM
  refine sends_held lasting rfl (fun _ => rfl) fun msgToBeSend => ?_
  refine sends_act (a := .queueGetMessageMsgType) (Seen cfg) (held_stable lasting.stable) ?_
    fun msgType => ?_
  · intro msgType c c' inv ok act bound hc
    simp only [Client.act, Effect.ok.injEq] at act
    obtain ⟨rfl, rfl⟩ := act
    refine ⟨bound, hc, fun auth => ?_⟩
    cases queue : c.sendingQueue with
    | nil => simp [queue, MessageQueue.getMessageMsgType] at auth
    | cons m rest =>
      refine ⟨m.uid, m.type, m.sendCount, by simp [front], fun conf => ?_⟩
      simp [queue, MessageQueue.getMessageMsgType, conf] at auth
  refine sends_seen rfl (fun _ => rfl) (fun _ => rfl) fun flags => ?_
  refine sends_seen rfl (fun _ => rfl) (fun _ => rfl) fun state => ?_
  have forget {q : Prog LogicResult} (h : Sends cfg (Held (Ready cfg)) q (afterLogic cfg)) :
      Sends cfg (Seen cfg msgType) q (afterLogic cfg) := sends_weaken h fun _ hc => hc.1
  cases state with
  | fsmStart | fsmAuthW82BeSended | fsmAuthSended | fsmW84Reply =>
    exact forget (sends_logicBeforeAuth _ _ _)
  | fsmW84ReplyConf =>
    refine forget ?_
    change Sends cfg _ (logicReplyConf msgType) _
    unfold logicReplyConf
    split
    · refine sends_held lasting rfl (fun _ => rfl) fun _ => ?_
      exact sends_held lasting rfl (fun _ => rfl) fun _ => sends_ret fun _ hc => hc
    · exact sends_ret fun _ hc => hc
  | fsmOpen => exact sends_logicOpen msgType
  | fsmErr | fsmErrW84Conf => exact forget (sends_logicErr flags)
  | _ => exact forget (sends_ret fun _ hc => hc)

/-! ### The sending -/

theorem queue_of_front {queue : MessageQueue} {uid count : Nat} {type : UInt8}
    (first : front queue = some (uid, type, count)) :
    ∃ m rest, queue = m :: rest ∧ m.uid = uid ∧ m.type = type ∧ m.sendCount = count := by
  cases queue with
  | nil => cases first
  | cons m rest =>
    simp only [front, List.head?_cons, Option.map_some, Option.some.injEq, Prod.mk.injEq] at first
    exact ⟨m, rest, rfl, first⟩

theorem timesSent_transmitted (m : Message) (history : List Event) (uid : Nat) :
    timesSent uid (.transmitted m :: history) =
      timesSent uid history + if m.numbered = true ∧ m.uid = uid then 1 else 0 := by
  simp [timesSent, List.countP_cons, Event.sends]

/-- The message at the head is sent, within the bound. -/
theorem sendto_step {p : MsgPtr} {c c' : Client} {r : Unit} (held : Held (Ready cfg) c)
    (head : AtHead p c) (act : c.act .sender (.sendto p) = .ok r c') (bound : Bounded cfg c) :
    Bounded cfg c' ∧ Held (Uncounted cfg.udpMaxRetries.val) c' := by
  obtain ⟨lock, counted, allowed⟩ := held
  cases p with
  | none => cases act
  | some uid =>
    obtain ⟨type, count, first⟩ := head uid rfl
    obtain ⟨m, rest, queue, rfl, rfl, rfl⟩ := queue_of_front first
    have found : c.sendingQueue.deref (some m.uid) = some m := by
      simp [queue, MessageQueue.deref]
    simp only [Client.act, found] at act
    cases act
    have below : m.numbered = true → timesSent m.uid c.history ≤ m.sendCount ∧
        m.sendCount ≤ cfg.udpMaxRetries.val := by
      intro numbered
      refine ⟨counted (m.uid, m.sendCount) (mem_attempts (by simp [queue]) numbered), ?_⟩
      exact allowed _ _ _ first (by simpa [Message.numbered] using numbered)
    constructor
    · intro uid'
      simp only [Client.log, timesSent_transmitted]
      split
      · rename_i sent
        obtain ⟨numbered, rfl⟩ := sent
        obtain ⟨covered, le⟩ := below numbered
        omega
      · exact bound uid'
    · refine ⟨lock, m.uid, m.type, m.sendCount, first, fun numbered => ?_, fun x hx => ?_⟩
      · exact (below (by simpa [Message.numbered] using numbered)).2
      · simp only [Client.log, timesSent_transmitted]
        have covered := counted x hx
        by_cases same : x.1 = m.uid
        · rw [if_pos same]
          split <;> omega
        · rw [if_neg (fun both => same both.2.symm), if_neg same]
          omega

/-- What is not counted yet is the message at the head alone. -/
theorem uncounted_cons {limit : Nat} {c : Client} {m : Message} {rest : MessageQueue}
    (inv : InLine c) (queue : c.sendingQueue = m :: rest) (h : Uncounted limit c) :
    (m.numbered = true → timesSent m.uid c.history ≤ m.sendCount + 1 ∧ m.sendCount ≤ limit) ∧
      ∀ x ∈ MessageQueue.attempts rest, timesSent x.1 c.history ≤ x.2 := by
  obtain ⟨uid, type, count, first, below, counted⟩ := h
  obtain ⟨m', rest', queue', rfl, rfl, rfl⟩ := queue_of_front first
  obtain ⟨rfl, rfl⟩ := List.cons.inj (queue.symm.trans queue')
  constructor
  · intro numbered
    have here := counted (m.uid, m.sendCount) (mem_attempts (by simp [queue]) numbered)
    rw [if_pos rfl] at here
    exact ⟨here, below (by simpa [Message.numbered] using numbered)⟩
  · intro x hx
    obtain ⟨m', mem, rfl⟩ := List.mem_map.mp hx
    obtain ⟨mem, numbered⟩ := List.mem_filter.mp mem
    have distinct := inv.identified.distinct
    rw [queue, MessageQueue.uids, List.map_cons, List.nodup_cons] at distinct
    have other : m'.uid ≠ m.uid := fun same => distinct.1 (same ▸ List.mem_map_of_mem mem)
    have here := counted (m'.uid, m'.sendCount) (mem_attempts (by simp [queue, mem]) numbered)
    rw [if_neg other] at here
    exact here

/-- A CONFIRM that was sent is popped. -/
theorem exact_popped {limit : Nat} {c c' : Client} {r : Unit} (inv : InLine c)
    (ok : Orderly c .queuePopMessage) (act : c.act .sender .queuePopMessage = .ok r c')
    (h : Uncounted limit c) : Exact c' := by
  intro x hx
  rw [timesSent_act ok nofun act]
  rw [Client.act_queue act, Client.queueAfter, MessageQueue.popMessage] at hx
  cases queue : c.sendingQueue with
  | nil => simp [queue, MessageQueue.attempts] at hx
  | cons m rest =>
    rw [queue] at hx
    exact (uncounted_cons inv queue h).2 x hx

/-- Another message that was sent is counted; the count does not wrap. -/
theorem exact_counted {limit : Nat} {c c' : Client} {r : Unit} (fits : limit ≤ 254)
    (inv : InLine c) (ok : Orderly c .queueMessageSended)
    (act : c.act .sender .queueMessageSended = .ok r c') (h : Uncounted limit c) : Exact c' := by
  intro x hx
  rw [timesSent_act ok nofun act]
  rw [Client.act_queue act, Client.queueAfter] at hx
  cases queue : c.sendingQueue with
  | nil => simp [queue, MessageQueue.attempts, MessageQueue.messageSended] at hx
  | cons m rest =>
    obtain ⟨head, others⟩ := uncounted_cons inv queue h
    simp only [queue, MessageQueue.messageSended, Option.getD_some, MessageQueue.attempts,
      List.filter_cons] at hx
    split at hx
    · rename_i numbered
      obtain ⟨covered, le⟩ := head (by simpa [Message.numbered] using numbered)
      rw [List.map_cons, List.mem_cons] at hx
      rcases hx with rfl | hx
      · simp only
        omega
      · exact others x hx
    · exact others x hx

theorem sends_messageWasSended (udp : cfg.protocol = .protUDP) (fits : cfg.udpMaxRetries.val ≤ 254)
    (msgToBeSend : MsgPtr) (flags : MsgFlags) :
    Sends cfg (Held (Uncounted cfg.udpMaxRetries.val)) (messageWasSended cfg msgToBeSend flags)
      fun _ => Exact := by
  have popped : Sends cfg (Held (Uncounted cfg.udpMaxRetries.val)) queuePopMessage
      fun _ => Exact := by
    refine sends_act (a := .queuePopMessage) (f := .ret) (fun _ => Exact) uncounted_stable ?_
      fun _ => sends_ret fun _ hc => hc
    intro r c c' inv ok act bound hc
    exact ⟨bounded_pop ok act bound, exact_popped inv ok act hc.2⟩
  have counted : Sends cfg (Held (Uncounted cfg.udpMaxRetries.val)) queueMessageSended
      fun _ => Exact := by
    refine sends_act (a := .queueMessageSended) (f := .ret) (fun _ => Exact) uncounted_stable ?_
      fun _ => sends_ret fun _ hc => hc
    intro r c c' inv ok act bound hc
    refine ⟨fun uid => ?_, exact_counted fits inv ok act hc.2⟩
    rw [timesSent_act ok nofun act]
    exact bound uid
  unfold messageWasSended
  simp only [udp]
  split
  · exact popped
  · exact popped
  · exact popped
  · exact counted

theorem sends_sendHead (udp : cfg.protocol = .protUDP) (fits : cfg.udpMaxRetries.val ≤ 254)
    (bytesTx : Int) :
    Sends cfg (Held (Ready cfg)) (sendHead cfg bytesTx)
      fun p c => p = .protocolSender ∧ Exact c := by
  have lasting := lasting_ready cfg
  have stable (p : MsgPtr) {c c' : Client} (move : (asideMachine cfg).Others .sender c c')
      (h : Held (Ready cfg) c ∧ AtHead p c) : Held (Ready cfg) c' ∧ AtHead p c' := by
    refine ⟨held_stable lasting.stable move h.1, fun uid eq => ?_⟩
    obtain ⟨type, count, first⟩ := h.2 uid eq
    have kept := held_front_stable move (Q := fun x => x = some (uid, type, count))
      ⟨h.1.1, by simp [first], first⟩
    exact ⟨type, count, kept.2.2⟩
  unfold sendHead labelMessage
  simp only [udp]
  refine sends_act (a := .queueGetMessage) (fun p c => Held (Ready cfg) c ∧ AtHead p c)
    (held_stable lasting.stable) ?_ fun p => ?_
  · intro p c c' inv ok act bound hc
    simp only [Client.act, Effect.ok.injEq] at act
    obtain ⟨rfl, rfl⟩ := act
    refine ⟨bound, hc, fun uid eq => ?_⟩
    cases queue : c.sendingQueue with
    | nil => simp [queue, MessageQueue.getMessage] at eq
    | cons m rest =>
      obtain rfl : m.uid = uid := by simpa [queue, MessageQueue.getMessage] using eq
      exact ⟨m.type, m.sendCount, rfl⟩
  refine sends_act (a := .queueSetMessageID) (fun _ c => Held (Ready cfg) c ∧ AtHead p c)
    (stable p) ?_ fun _ => ?_
  · intro r c c' inv ok act bound hc
    refine ⟨bounded_act ok rfl act bound, ⟨(Client.act_lock act).trans hc.1.1,
      lasting.own inv ok rfl act hc.1.2⟩, fun uid eq => ?_⟩
    rw [Client.act_queue act, Client.queueAfter, front_setMessageID]
    exact hc.2 uid eq
  refine sends_act (a := .sendto p) (fun _ => Held (Uncounted cfg.udpMaxRetries.val)) (stable p) ?_
    fun _ => ?_
  · intro r c c' inv ok act bound hc
    exact sendto_step hc.1 hc.2 act bound
  refine sends_act (a := .queueGetMessageFlags)
    (fun _ => Held (Uncounted cfg.udpMaxRetries.val)) uncounted_stable ?_ fun flags => ?_
  · intro flags c c' inv ok act bound hc
    simp only [Client.act] at act
    split at act <;> cases act
    exact ⟨bound, hc⟩
  split
  · exact sends_errHandling _
  · refine sends_bind (sends_messageWasSended udp fits p flags) fun _ => ?_
    exact sends_keep (lasting_exact cfg) rfl fun _ => sends_ret fun _ hc => ⟨rfl, hc⟩

/-- What is known where the sender stands between two pieces of its code. -/
def AtPoint (cfg : NetworkConfig) : Point → Client → Prop
  | .protocolSender => Exact
  | .logicWaitSend | .logicWaitAgain => Ready cfg
  | _ => fun _ => True

theorem sends_logicAndSend (udp : cfg.protocol = .protUDP) (fits : cfg.udpMaxRetries.val ≤ 254)
    (bytesTx : Int) : Sends cfg (Held (Ready cfg)) (logicAndSend cfg bytesTx) (AtPoint cfg) := by
  unfold logicAndSend
  refine sends_bind sends_logicFSM fun result => ?_
  cases result with
  | proceed =>
    intro c hc
    refine Program.safe_mono (sends_sendHead udp fits bytesTx c hc) ?_
    rintro p c ⟨rfl, counted⟩
    exact counted
  | waitSend => exact sends_ret fun _ hc => hc
  | waitAgain => exact sends_ret fun _ hc => hc

theorem sends_senderBody (udp : cfg.protocol = .protUDP) (fits : cfg.udpMaxRetries.val ≤ 254)
    (bytesTx : Int) : Sends cfg (Ready cfg) (senderBody cfg bytesTx) (AtPoint cfg) := by
  have lasting := lasting_ready cfg
  have ends : Sends cfg (Ready cfg) endsWhenEmpty fun _ => Ready cfg := by
    unfold endsWhenEmpty
    refine sends_keep lasting rfl fun state => ?_
    split
    · exact sends_ret fun _ hc => hc
    · exact sends_keep lasting rfl fun _ => sends_ret fun _ hc => hc
  have idle : Sends cfg (Ready cfg) (pure .protocolSender : Prog Point) (AtPoint cfg) :=
    sends_ret fun _ hc => hc.1
  unfold senderBody
  refine sends_keep lasting rfl fun empty => ?_
  split
  · refine sends_bind ends fun stop => ?_
    split
    · iterate 3 refine sends_keep lasting rfl fun _ => ?_
      exact idle
    · refine sends_keep lasting rfl fun _ => ?_
      exact idle
  · refine sends_keep lasting rfl fun _ => ?_
    refine sends_lock lasting fun _ => ?_
    refine sends_held lasting rfl (fun _ => rfl) fun _ => ?_
    exact sends_logicAndSend udp fits bytesTx

/-- All code of the sender keeps the bound. -/
theorem starts_sends (udp : cfg.protocol = .protUDP) (fits : cfg.udpMaxRetries.val ≤ 254)
    {p : Point} {q : Prog Point} (h : Starts cfg .sender p q) :
    Sends cfg (AtPoint cfg p) q (AtPoint cfg) := by
  have counted := lasting_exact cfg
  have ready := lasting_ready cfg
  cases h with
  | protocolSender fuel bytesTx =>
    unfold protocolSender
    simp only [udp]
    refine sends_keep counted rfl fun state => ?_
    split
    · exact sends_ret fun _ _ => trivial
    · refine sends_keep counted rfl fun _ => ?_
      unfold filterResentMessages
      have filtered : Sends cfg Exact (do
          let msgToBeSend ← queueGetMessage
          filterLoop cfg fuel msgToBeSend false : Prog Bool) fun _ => Ready cfg := by
        refine sends_act (a := .queueGetMessage)
          (fun p c => Exact c ∧ (p = none → Allowed cfg.udpMaxRetries.val c)) exact_stable ?_
          fun p => sends_filterLoop fuel p false
        exact fun p c c' inv ok act bound hc => ⟨bounded_act ok rfl act bound, looked_step act hc⟩
      refine sends_bind filtered fun resetLoop => ?_
      split
      · exact sends_ret fun _ hc => hc.1
      · exact sends_senderBody udp fits bytesTx
  | logicWaitSend bytesTx =>
    unfold resumeSend
    refine sends_lock ready fun _ => ?_
    refine sends_held ready rfl (fun _ => rfl) fun _ => ?_
    intro c hc
    refine Program.safe_mono (sends_sendHead udp fits bytesTx c hc) ?_
    rintro p c ⟨rfl, counted⟩
    exact counted
  | logicWaitAgain bytesTx =>
    unfold resumeLogic
    refine sends_lock ready fun _ => ?_
    refine sends_held ready rfl (fun _ => rfl) fun _ => ?_
    exact sends_logicAndSend udp fits bytesTx

end

end RetryBound

open RetryBound in
/-- **The bound on transmissions.** With at most 254 retries, no message other than a
CONFIRM is transmitted more often than once and the retries, in every run in which no
CONFIRM is put in front of the queue while the sender holds the lock. -/
theorem transmitted_at_most {cfg : NetworkConfig} (udp : cfg.protocol = .protUDP)
    (fits : cfg.udpMaxRetries.val ≤ 254) {heap : Nat → Memory} {ipAddress : Buffer}
    {s : Threads Thread Client Act.Answer Point}
    (reached : ((machine cfg).restrict pushedAside).Reachable
      (initialThreads (programInterfaceInit heap ipAddress)) s) (uid : Nat) :
    timesSent uid s.shared.history ≤ cfg.udpMaxRetries.val + 1 := by
  have known : (asideMachine cfg).Reachable
      (initialThreads (programInterfaceInit heap ipAddress)) s := by
    refine Machine.reachable_restrict (fun u hu t a next code => ?_) reached
    have free : Reachable cfg heap ipAddress u := Machine.reachable_of_restrict hu
    obtain ⟨inv, orderly⟩ := inLine_of_reachable free
    have locked := lockedAct_of_reachable udp free code
    classical exact decide_eq_true ⟨inv, orderly t a next code, locked⟩
  have bound : Bounded cfg s.shared := by
    refine (Machine.invariant_of_annotated .sender (Bounded cfg) (AtPoint cfg) ?_ ?_ ?_ known ?_
      ?_).1
    · rintro c c' ⟨t, a, other, ⟨r, ok⟩ | halt⟩ bound uid
      · obtain ⟨⟨-, orderly, locked⟩, -, act⟩ := known_of_ok ok
        rw [timesSent_act orderly (fun p eq => other (locked.2 (eq ▸ rfl))) act]
        exact bound uid
      · rw [halted_eq halt]
        exact bound uid
    · intro p c c' move
      cases p <;> first
        | exact exact_stable move
        | exact (lasting_ready cfg).stable move
        | exact fun _ => trivial
    · exact fun p q c start _ hc => starts_sends udp fits start c hc
    · exact fun uid => Nat.zero_le _
    · intro q idle
      cases idle
      exact fun x hx => nomatch hx
  exact bound uid

/-- With one retry, an AUTH without an answer is sent twice and then timed out. -/
theorem transmitted_at_most_auth :
    ∃ s, ((machine ⟨.protUDP, 1⟩).restrict pushedAside).Reachable
        (initialThreads (programInterfaceInit (fun _ _ => 0xC4) ⟨some fun _ => 0, 10, 10⟩)) s ∧
      timesSent 0 s.shared.history = 2 ∧ s.shared.fsmState = .fsmErrW84Conf ∧
      timesSent 0 s.shared.history ≤ 1 + 1 := by
  obtain ⟨p, passed, good⟩ := passed_of_played (m := (machine ⟨.protUDP, 1⟩).restrict pushedAside)
    (fun _ _ _ h => h)
    (programInterfaceInit (fun _ _ => 0xC4) ⟨some fun _ => 0, 10, 10⟩)
    [.main (ascii "/auth u s d\n"), .sender 1, .sender 1, .sender 1]
    (fun p => timesSent 0 p.shared.history = 2 ∧ p.shared.fsmState = .fsmErrW84Conf)
    (by decide +kernel)
  obtain ⟨s, reached, same⟩ := Machine.steps_of_passed passed (matches_initial _)
  have bound : timesSent 0 s.shared.history ≤ 1 + 1 :=
    transmitted_at_most rfl (by decide) reached 0
  simp only [decide_eq_true_eq, ← same.1] at good
  exact ⟨s, reached, good.1, good.2, bound⟩

/-- With 255 retries the count wraps before it passes them: an AUTH without an answer
is sent for ever. -/
theorem transmitted_without_end :
    ∃ s, Passed ⟨.protUDP, 255⟩ (fun _ _ => 0xC4) ⟨some fun _ => 0, 10, 10⟩ s ∧
      255 + 1 < timesSent 0 s.shared.history := by
  obtain ⟨s, passed, good⟩ := passed_of_playAll ⟨.protUDP, 255⟩ (fun _ _ => 0xC4)
    ⟨some fun _ => 0, 10, 10⟩
    (.main (ascii "/auth u s d\n") :: List.replicate 257 (.sender 1))
    (fun s => 255 + 1 < timesSent 0 s.shared.history) (by decide +kernel)
  exact ⟨s, passed, by simpa using good⟩

end Ipk24Chat
