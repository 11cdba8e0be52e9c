import Ipk24Chat.Client

/-!
# What an action changes

The effect of each atomic action on the parts of the state that invariants
speak about. Everything else that happens is in `Client.act`; these lemmas say
once which actions touch which part.
-/

namespace Ipk24Chat

/-- Only the sender sends messages, counts them and takes them from the head. -/
def Act.bySender : Act → Bool
  | .sendto _ | .queueMessageSended | .queuePopMessage => true
  | _ => false

namespace Client
variable {t : Thread} {c c' : Client} {a : Act} {r : a.Answer}

/-- The event an action adds to the history. -/
def emitted (c : Client) : Act → Option Event
  | .queueAddMessage buffer msgFlags type | .queueAddMessagePriority buffer msgFlags type =>
    some (.queued (c.newMessage buffer msgFlags type))
  | .setConfirmed p =>
    (c.sendingQueue.deref p).map fun m =>
      .confirmed m (c.serverResponse.mem 1) (c.serverResponse.mem 2)
  | .recvfrom datagram => some (.received datagram)
  | .sendto p => (c.sendingQueue.deref p).map .transmitted
  | .display type displayname contents =>
    some (.displayed type (c.serverResponse.mem 1) (c.serverResponse.mem 2) displayname contents)
  | .note e => some e
  | _ => none

/-- The queue an action leaves behind. -/
def queueAfter (c : Client) : Act → MessageQueue
  | .queueSetMessageFlags newFlag => c.sendingQueue.setMessageFlags newFlag
  | .queueSetMessageID => c.sendingQueue.setMessageID c.comDetails.msgCounter
  | .queueMessageSended => c.sendingQueue.messageSended.getD []
  | .queuePopMessage => c.sendingQueue.popMessage
  | .queuePopAllMessages => []
  | .queueAddMessage buffer msgFlags type =>
    c.sendingQueue.addMessage (c.newMessage buffer msgFlags type)
  | .queueAddMessagePriority buffer msgFlags type =>
    c.sendingQueue.addMessagePriority (c.newMessage buffer msgFlags type)
  | .setConfirmed p => c.sendingQueue.confirm p
  | _ => c.sendingQueue

/-- The messages an action leaves behind, apart from flags and counts. Only the label
with the message ID and a CONFIRM change them, see `act_core`. -/
def coresAfter (c : Client) : Act → MessageQueue
  | .queuePopMessage => (c.sendingQueue.map Message.core).tail
  | .queuePopAllMessages => []
  | .queueAddMessage buffer msgFlags type =>
    c.sendingQueue.map Message.core ++ [(c.newMessage buffer msgFlags type).core]
  | .queueAddMessagePriority buffer msgFlags type =>
    (c.newMessage buffer msgFlags type).core :: c.sendingQueue.map Message.core
  | _ => c.sendingQueue.map Message.core

/-- The state of the machine behind an action. -/
def stateAfter (c : Client) : Act → Fsm
  | .setProgramState newState => newState
  | _ => c.fsmState

/-- The holder of the lock behind an action of thread `t`. -/
def lockAfter (t : Thread) (c : Client) : Act → Option Thread
  | .queueLock => some t
  | .queueUnlock => none
  | _ => c.lock

theorem perform_ok (h : c.perform t a = .ok r c') :
    c.status = .running ∧ c.act t a = .ok r c' := by
  unfold perform at h
  split at h
  · exact ⟨‹_›, h⟩
  · cases h

theorem perform_halt (h : c.perform t a = .halt c') :
    c.status = .running ∧ c.act t a = .halt c' := by
  unfold perform at h
  split at h
  · exact ⟨‹_›, h⟩
  · cases h

theorem act_history (h : c.act t a = .ok r c') :
    c'.history = (c.emitted a).toList ++ c.history := by
  cases a <;> simp only [act] at h <;> (try split at h) <;> cases h <;>
    simp_all [emitted, log, setScratch]

theorem act_queue (h : c.act t a = .ok r c') : c'.sendingQueue = c.queueAfter a := by
  cases a <;> simp only [act] at h <;> (try split at h) <;> cases h <;>
    simp_all [queueAfter, log, setScratch]

theorem act_fsmState (h : c.act t a = .ok r c') : c'.fsmState = c.stateAfter a := by
  cases a <;> simp only [act] at h <;> (try split at h) <;> cases h <;>
    simp [stateAfter, log, setScratch]

theorem act_lock (h : c.act t a = .ok r c') : c'.lock = c.lockAfter t a := by
  cases a <;> simp only [act] at h <;> (try split at h) <;> cases h <;>
    simp [lockAfter, log, setScratch]

/-- The lock is taken only when it is free. -/
theorem act_queueLock {r : Unit} (h : c.act t .queueLock = .ok r c') : c.lock = none := by
  simp only [act] at h
  split at h
  · assumption
  · cases h

theorem act_halt (h : c.act t a = .halt c') :
    c' = { c with status := c'.status } := by
  cases a <;> simp only [act] at h <;> (try split at h) <;> cases h <;> rfl

/-- A message behind an action is one from before it. -/
structure Stays (a : Act) (m m' : Message) : Prop where
  type : m.type = m'.type
  uid : m.uid = m'.uid
  sendCount : a ≠ .queueMessageSended → m.sendCount = m'.sendCount
  msgFlags : m.msgFlags = m'.msgFlags ∨ a = .queueSetMessageFlags m'.msgFlags

theorem stays_refl (a : Act) (m : Message) : Stays a m m := ⟨rfl, rfl, fun _ => rfl, Or.inl rfl⟩

/-- An action puts messages in the queue by the two ways to add one; all others
only change or remove messages that are there. -/
theorem mem_queueAfter {m : Message} (h : m ∈ c.queueAfter a) :
    (∃ m' ∈ c.sendingQueue, Stays a m' m) ∨
      ∃ buffer flags type, (a = .queueAddMessage buffer flags type ∨
        a = .queueAddMessagePriority buffer flags type) ∧ m = c.newMessage buffer flags type := by
  have same {m : Message} (h : m ∈ c.sendingQueue) : ∃ m' ∈ c.sendingQueue, Stays a m' m :=
    ⟨m, h, stays_refl a m⟩
  cases a <;> try exact Or.inl (same h)
  case queueSetMessageFlags newFlag =>
    simp only [queueAfter, MessageQueue.setMessageFlags] at h
    left
    split at h
    · simp at h
    · rename_i head rest eq
      rw [eq]
      rcases List.mem_cons.mp h with rfl | h
      · exact ⟨head, List.mem_cons_self, rfl, rfl, fun _ => rfl, Or.inr rfl⟩
      · exact ⟨m, List.mem_cons_of_mem _ h, stays_refl _ m⟩
  case queueSetMessageID =>
    simp only [queueAfter, MessageQueue.setMessageID] at h
    left
    split at h
    · simp at h
    · rename_i head rest eq
      rw [eq]
      split at h
      · rcases List.mem_cons.mp h with rfl | h
        · exact ⟨head, List.mem_cons_self, rfl, rfl, fun _ => rfl, Or.inl rfl⟩
        · exact ⟨m, List.mem_cons_of_mem _ h, stays_refl _ m⟩
      · exact ⟨m, h, stays_refl _ m⟩
  case queueMessageSended =>
    simp only [queueAfter, MessageQueue.messageSended] at h
    left
    split at h
    · simp at h
    · rename_i head rest eq
      rw [eq]
      rcases List.mem_cons.mp h with rfl | h
      · exact ⟨head, List.mem_cons_self, rfl, rfl, fun other => absurd rfl other, Or.inl rfl⟩
      · exact ⟨m, List.mem_cons_of_mem _ h, stays_refl _ m⟩
  case queuePopMessage => exact Or.inl (same (List.mem_of_mem_tail h))
  case queuePopAllMessages => cases h
  case queueAddMessage buffer flags type =>
    rcases List.mem_append.mp h with h | h
    · exact Or.inl (same h)
    · exact Or.inr ⟨buffer, flags, type, Or.inl rfl, List.mem_singleton.mp h⟩
  case queueAddMessagePriority buffer flags type =>
    rcases List.mem_cons.mp h with rfl | h
    · exact Or.inr ⟨buffer, flags, type, Or.inr rfl, rfl⟩
    · exact Or.inl (same h)
  case setConfirmed p =>
    obtain ⟨m', hm', rfl⟩ := List.mem_map.mp h
    refine Or.inl ⟨m', hm', ?_⟩
    split <;> exact ⟨rfl, rfl, fun _ => rfl, Or.inl rfl⟩

/-- The strings in the queue are those of before, up to the ID bytes of the first one,
and those in the buffers. -/
theorem act_strings {P : List UInt8 → Prop}
    (labelled : ∀ bytes low high, P bytes → P ((bytes.set 2 high).set 1 low))
    (queue : ∀ m ∈ c.sendingQueue, P m.buffer) (buffers : ∀ b, P (c.scratch b).bytes)
    (h : c.act t a = .ok r c') : ∀ m ∈ c'.sendingQueue, P m.buffer := by
  rw [act_queue h]
  intro m hm
  have along {first first' : Message} {rest : MessageQueue} (eq : c.sendingQueue = first :: rest)
      (hm : m ∈ first' :: rest) (kept : P first.buffer → P first'.buffer) : P m.buffer := by
    rw [eq, List.forall_mem_cons] at queue
    rcases List.mem_cons.mp hm with rfl | hm
    · exact kept queue.1
    · exact queue.2 m hm
  cases a <;> try exact queue m hm
  case queueSetMessageFlags newFlag =>
    simp only [queueAfter, MessageQueue.setMessageFlags] at hm
    split at hm
    · simp at hm
    · rename_i eq
      exact along eq hm id
  case queueSetMessageID =>
    simp only [queueAfter, MessageQueue.setMessageID] at hm
    split at hm
    · simp at hm
    · rename_i eq
      split at hm
      · exact along eq hm (labelled _ _ _)
      · exact along eq hm id
  case queueMessageSended =>
    simp only [queueAfter, MessageQueue.messageSended] at hm
    split at hm
    · simp at hm
    · rename_i eq
      exact along eq hm id
  case queuePopMessage => exact queue m (List.mem_of_mem_tail hm)
  case queuePopAllMessages => cases hm
  case queueAddMessage buffer flags type =>
    rcases List.mem_append.mp hm with hm | hm
    · exact queue m hm
    · obtain rfl := List.mem_singleton.mp hm
      exact buffers buffer
  case queueAddMessagePriority buffer flags type =>
    rcases List.mem_cons.mp hm with rfl | hm
    · exact buffers buffer
    · exact queue m hm
  case setConfirmed p =>
    obtain ⟨m', hm', rfl⟩ := List.mem_map.mp hm
    split <;> exact queue m' hm'

theorem act_core (h : c.act t a = .ok r c') (labels : a ≠ .queueSetMessageID)
    (confirms : ∀ p, a ≠ .setConfirmed p) :
    c'.sendingQueue.map Message.core = c.coresAfter a := by
  rw [act_queue h]
  cases a
  case queueSetMessageID => exact absurd rfl labels
  case setConfirmed p => exact absurd rfl (confirms p)
  all_goals simp [queueAfter, coresAfter, MessageQueue.popMessage, MessageQueue.addMessage,
    MessageQueue.addMessagePriority]

theorem act_confirmedMessages (h : c.act t a = .ok r c')
    (remembers : ∀ type, a ≠ .queueAddMessageOnlyID type) :
    c'.confirmedMessages = c.confirmedMessages := by
  cases a <;> simp only [act] at h <;> (try split at h) <;> cases h <;>
    simp_all [log, setScratch]

theorem act_names (h : c.act t a = .ok r c')
    (stores : ∀ src, a ≠ .storeDisplayName src ∧ a ≠ .storeChannelID src) :
    c'.comDetails.displayName = c.comDetails.displayName ∧
      c'.comDetails.channelID = c.comDetails.channelID := by
  cases a <;> simp only [act] at h <;> (try split at h) <;> cases h <;>
    simp_all [log, setScratch]

theorem act_serverResponse (h : c.act t a = .ok r c')
    (receives : ∀ datagram, a ≠ .recvfrom datagram) : c'.serverResponse = c.serverResponse := by
  cases a <;> simp only [act] at h <;> (try split at h) <;> cases h <;>
    simp_all [log, setScratch]

theorem act_msgCounter (h : c.act t a = .ok r c') (adds : a ≠ .addMsgCounter)
    (sets : ∀ value, a ≠ .setMsgCounter value) :
    c'.comDetails.msgCounter = c.comDetails.msgCounter := by
  cases a <;> simp only [act] at h <;> (try split at h) <;> cases h <;>
    simp_all [log, setScratch]

/-- Each message that is queued gets an identity of its own. -/
theorem act_nextUid (h : c.act t a = .ok r c') :
    c'.nextUid = c.nextUid + match a with
      | .queueAddMessage .. | .queueAddMessagePriority .. => 1
      | _ => 0 := by
  cases a <;> simp only [act] at h <;> (try split at h) <;> cases h <;>
    simp [log, setScratch]

/-- Messages leave the queue or stay in their order, unless one is added. -/
theorem act_uids (h : c.act t a = .ok r c') :
    (c'.sendingQueue.uids.Sublist c.sendingQueue.uids ∧ c'.nextUid = c.nextUid) ∨
      ((c'.sendingQueue.uids = c.sendingQueue.uids ++ [c.nextUid] ∨
        c'.sendingQueue.uids = c.nextUid :: c.sendingQueue.uids) ∧
        c'.nextUid = c.nextUid + 1) := by
  rw [act_queue h, act_nextUid h]
  cases a <;> simp [queueAfter, newMessage, createMessage, List.tail_sublist]

theorem act_status (h : c.act t a = .ok r c') : c'.status = c.status := by
  cases a <;> simp only [act] at h <;> (try split at h) <;> cases h <;>
    simp [log, setScratch]

/-- A buffer changes only where it is resized or assembled into. -/
theorem act_scratch (h : c.act t a = .ok r c') {buffer : Scratch}
    (resized : ∀ n, a ≠ .bufferResize buffer n)
    (assembled : ∀ protocol pBlocks, a ≠ .assembleProtocol protocol buffer pBlocks) :
    c'.scratch buffer = c.scratch buffer := by
  cases a <;> simp only [act] at h <;> (try split at h) <;> cases h <;>
    simp_all [log, setScratch] <;> grind

theorem mem_of_deref {queue : MessageQueue} {p : MsgPtr} {m : Message}
    (h : queue.deref p = some m) : m ∈ queue := by
  cases p with
  | none => cases h
  | some uid => exact List.mem_of_find?_eq_some h

end Client

end Ipk24Chat
