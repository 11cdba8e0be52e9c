import Mathlib.Data.List.Sort
import Ipk24Chat.Numbering

/-!
# One message at a time

The queue is a line with CONFIRMs in front of it: only the first message that is
no CONFIRM is sent, again and again, until it leaves the queue. This holds in
every interleaving of the single actions of the three threads, also while a
CONFIRM is put in front between the look at the head and the sending.

* `InLine`: the order of the numbered messages in the queue and in the history;
* `InLine.act`: every action keeps it, if what is sent is the first in the line;
* `leading_stable`: what other threads do leaves it the first;
* `stop_and_wait`: the invariant in every reachable state.
-/

namespace Ipk24Chat

/-- The numbered messages that were queued, in their order. -/
def queuedLine : List Event → List Nat
  | [] => []
  | .queued m :: earlier =>
    if m.numbered then queuedLine earlier ++ [m.uid] else queuedLine earlier
  | _ :: earlier => queuedLine earlier

/-- The numbered messages in the queue, with how often they were sent. -/
def MessageQueue.attempts (queue : MessageQueue) : List (Nat × Nat) :=
  (queue.filter Message.numbered).map fun m => (m.uid, m.sendCount)

/-- Messages with these flags are popped as soon as they are sent. -/
def MsgFlags.sentOnce : MsgFlags → Bool
  | .msgFlagDoNotResend | .msgFlagConfirm | .msgFlagNokReply => true
  | _ => false

structure InLine (c : Client) : Prop where
  identified : Identified c
  ordered : (c.sendingQueue.attempts.map Prod.fst).Pairwise (· < ·)
  untried : ∀ x ∈ c.sendingQueue.attempts.tail, x.2 = 0
  /-- what was sent is at the head of the line or before it -/
  passed : ∀ uid ∈ issued c.history, ∀ x ∈ c.sendingQueue.attempts, uid ≤ x.1
  sent : (issued c.history).Pairwise (· < ·)
  queued : (queuedLine c.history).Pairwise (· < ·)
  old : ∀ uid ∈ queuedLine c.history, uid < c.nextUid
  known : ∀ x ∈ c.sendingQueue.attempts, x.1 ∈ queuedLine c.history
  issued : ∀ uid ∈ issued c.history, uid ∈ queuedLine c.history
  flags : ∀ x ∈ c.sendingQueue.marks, x.1 ≠ MsgType.msgConf.toUChar → x.2.sentOnce = false

/-- If message `p` is a numbered one in the queue, it is the first of them. -/
def Leading (p : MsgPtr) (c : Client) : Prop :=
  ∀ uid, p = some uid → uid < c.nextUid ∧
    ∀ n, (uid, n) ∈ c.sendingQueue.attempts → ∀ x ∈ c.sendingQueue.attempts, uid ≤ x.1

/-- The actions that keep the line. -/
def Orderly (c : Client) : Act → Prop
  | .sendto p => Leading p c
  | .queueAddMessage _ flags _ => flags.sentOnce = false
  | .queueAddMessagePriority _ _ type => type = MsgType.msgConf.toUChar
  | .queueSetMessageFlags flags => flags.sentOnce = false
  | .note e => e.uncounted = true
  | _ => True

/-- What other threads may do to the line: only new messages join it. -/
def Joins (c c' : Client) : Prop :=
  (∀ x ∈ c'.sendingQueue.attempts,
      (∃ y ∈ c.sendingQueue.attempts, y.1 = x.1) ∨ c.nextUid ≤ x.1) ∧ c.nextUid ≤ c'.nextUid

section
variable {t : Thread} {c c' : Client} {a : Act} {r : a.Answer}

namespace MessageQueue
variable (queue : MessageQueue)

@[simp] theorem attempts_setMessageFlags (newFlag : MsgFlags) :
    (queue.setMessageFlags newFlag).attempts = queue.attempts := by
  cases queue with
  | nil => rfl
  | cons m rest =>
    simp only [setMessageFlags, attempts, List.filter_cons]
    cases numbered : m.numbered <;> simp_all [Message.numbered]

@[simp] theorem attempts_setMessageID (msgCounter : Nat) :
    (queue.setMessageID msgCounter).attempts = queue.attempts := by
  cases queue with
  | nil => rfl
  | cons m rest =>
    simp only [setMessageID, attempts]
    split
    · simp only [List.filter_cons]
      cases numbered : m.numbered <;> simp_all [Message.numbered, Message.setMsgID]
    · rfl

@[simp] theorem attempts_confirm (p : MsgPtr) : (queue.confirm p).attempts = queue.attempts := by
  induction queue with
  | nil => rfl
  | cons m rest ih =>
    simp only [confirm, attempts, List.map_cons, List.filter_cons] at ih ⊢
    split <;> cases numbered : m.numbered <;> simp_all [Message.numbered]

theorem attempts_messageSended :
    (attempts (queue.messageSended.getD [])).tail = queue.attempts.tail ∧
      (attempts (queue.messageSended.getD [])).map Prod.fst = queue.attempts.map Prod.fst := by
  cases queue with
  | nil => exact ⟨rfl, rfl⟩
  | cons m rest =>
    simp only [messageSended, attempts, Option.getD_some, List.filter_cons]
    cases numbered : m.numbered <;> simp_all [Message.numbered]

theorem attempts_popMessage :
    queue.popMessage.attempts = queue.attempts ∨
      queue.popMessage.attempts = queue.attempts.tail := by
  cases queue with
  | nil => exact Or.inl rfl
  | cons m rest =>
    simp only [popMessage, attempts, List.filter_cons, List.tail_cons]
    cases m.numbered <;> simp

theorem attempts_addMessage (m : Message) :
    (queue.addMessage m).attempts =
      queue.attempts ++ if m.numbered then [(m.uid, m.sendCount)] else [] := by
  simp only [addMessage, attempts, List.filter_append, List.map_append, List.filter_cons]
  cases m.numbered <;> rfl

theorem attempts_addMessagePriority {m : Message} (conf : m.numbered = false) :
    (queue.addMessagePriority m).attempts = queue.attempts := by
  simp [addMessagePriority, attempts, conf]

end MessageQueue

/-- An action that adds no message leaves the line or takes from it. -/
theorem attempts_act (ok : Orderly c a)
    (adds : ∀ buffer flags type, a ≠ .queueAddMessage buffer flags type)
    (h : c.act t a = .ok r c') :
    (c'.sendingQueue.attempts.map Prod.fst).Sublist (c.sendingQueue.attempts.map Prod.fst) ∧
      c'.sendingQueue.attempts.tail.Sublist c.sendingQueue.attempts.tail := by
  have same : c.sendingQueue.attempts = c'.sendingQueue.attempts →
      (c'.sendingQueue.attempts.map Prod.fst).Sublist (c.sendingQueue.attempts.map Prod.fst) ∧
        c'.sendingQueue.attempts.tail.Sublist c.sendingQueue.attempts.tail := by
    intro eq
    rw [eq]
    exact ⟨.refl _, .refl _⟩
  rw [Client.act_queue h] at same ⊢
  cases a <;> try exact same rfl
  case queueSetMessageFlags newFlag => exact same (by simp [Client.queueAfter])
  case queueSetMessageID => exact same (by simp [Client.queueAfter])
  case setConfirmed p => exact same (by simp [Client.queueAfter])
  case queueMessageSended =>
    obtain ⟨rest, uids⟩ := c.sendingQueue.attempts_messageSended
    rw [Client.queueAfter, rest, uids]
    exact ⟨.refl _, .refl _⟩
  case queuePopMessage =>
    rcases c.sendingQueue.attempts_popMessage with eq | eq
    · exact same eq.symm
    · rw [Client.queueAfter, eq, List.map_tail]
      exact ⟨List.tail_sublist _, List.tail_sublist _⟩
  case queuePopAllMessages => exact ⟨List.nil_sublist _, List.nil_sublist _⟩
  case queueAddMessage buffer flags type => exact absurd rfl (adds buffer flags type)
  case queueAddMessagePriority buffer flags type =>
    have conf : (c.newMessage buffer flags type).numbered = false := by
      simp [Client.newMessage, createMessage, Message.numbered, show type = _ from ok]
    exact same (MessageQueue.attempts_addMessagePriority _ conf).symm

/-- Only the sending and the queueing of numbered messages count. -/
theorem history_act (ok : Orderly c a)
    (adds : ∀ buffer flags type, a ≠ .queueAddMessage buffer flags type)
    (sends : ∀ p, a ≠ .sendto p) (h : c.act t a = .ok r c') :
    issued c'.history = issued c.history ∧ queuedLine c'.history = queuedLine c.history := by
  rw [Client.act_history h]
  cases a <;> try exact ⟨rfl, rfl⟩
  case queueAddMessage buffer flags type => exact absurd rfl (adds buffer flags type)
  case sendto p => exact absurd rfl (sends p)
  case queueAddMessagePriority buffer flags type =>
    have conf : (c.newMessage buffer flags type).numbered = false := by
      simp [Client.newMessage, createMessage, Message.numbered, show type = _ from ok]
    simp [Client.emitted, issued, queuedLine, conf]
  case setConfirmed p =>
    cases found : c.sendingQueue.deref p <;> simp [Client.emitted, found, issued, queuedLine]
  case note e =>
    cases e <;> first | exact ⟨rfl, rfl⟩ | cases ok

theorem flags_act (ok : Orderly c a) (h : c.act t a = .ok r c')
    (flags : ∀ x ∈ c.sendingQueue.marks, x.1 ≠ MsgType.msgConf.toUChar → x.2.sentOnce = false) :
    ∀ x ∈ c'.sendingQueue.marks, x.1 ≠ MsgType.msgConf.toUChar → x.2.sentOnce = false := by
  rw [Client.act_queue h]
  cases a <;> try exact flags
  case queueSetMessageID => simpa [Client.queueAfter] using flags
  case queueMessageSended => simpa [Client.queueAfter] using flags
  case setConfirmed p => simpa [Client.queueAfter] using flags
  case queueSetMessageFlags newFlag =>
    simp only [Client.queueAfter]
    cases queue : c.sendingQueue with
    | nil => simp [MessageQueue.setMessageFlags, MessageQueue.marks]
    | cons m rest =>
      intro x hx numbered
      rcases List.mem_cons.mp hx with rfl | hx
      · exact ok
      · exact flags x (by simp [queue, MessageQueue.marks] at hx ⊢; exact Or.inr hx) numbered
  case queuePopMessage =>
    intro x hx
    rw [Client.queueAfter, MessageQueue.popMessage, MessageQueue.marks, List.map_tail] at hx
    exact flags x (List.mem_of_mem_tail hx)
  case queuePopAllMessages => simp [Client.queueAfter, MessageQueue.marks]
  case queueAddMessage buffer newFlags type =>
    intro x hx numbered
    rw [Client.queueAfter, MessageQueue.addMessage, MessageQueue.marks, List.map_append] at hx
    rcases List.mem_append.mp hx with hx | hx
    · exact flags x hx numbered
    · rw [List.map_singleton, List.mem_singleton] at hx
      rw [hx]
      exact ok
  case queueAddMessagePriority buffer newFlags type =>
    intro x hx numbered
    rcases List.mem_cons.mp hx with rfl | hx
    · exact absurd ok numbered
    · exact flags x hx numbered

theorem mem_attempts {queue : MessageQueue} {m : Message} (hm : m ∈ queue)
    (numbered : m.numbered = true) : (m.uid, m.sendCount) ∈ queue.attempts :=
  List.mem_map_of_mem (List.mem_filter.mpr ⟨hm, numbered⟩)

/-- A transmission of the first message in the line is counted behind all others. -/
theorem issued_transmitted (inv : InLine c) {m : Message} (hm : m ∈ c.sendingQueue)
    (first : m.numbered = true → ∀ x ∈ c.sendingQueue.attempts, m.uid ≤ x.1) :
    (issued (.transmitted m :: c.history)).Pairwise (· < ·) ∧
      (∀ uid ∈ issued (.transmitted m :: c.history), uid ∈ queuedLine c.history) ∧
      ∀ uid ∈ issued (.transmitted m :: c.history), ∀ x ∈ c.sendingQueue.attempts, uid ≤ x.1 := by
  by_cases new : m.numbered = true ∧ m.uid ∉ issued c.history
  · obtain ⟨numbered, unsent⟩ := new
    have here := mem_attempts hm numbered
    have later : ∀ uid ∈ issued c.history, uid < m.uid := by
      intro uid sent
      have before := inv.passed uid sent _ here
      have other : uid ≠ m.uid := fun eq => unsent (eq ▸ sent)
      exact Nat.lt_of_le_of_ne before other
    simp only [issued, numbered, unsent, not_false_eq_true, and_self, if_true, List.mem_append,
      List.mem_singleton]
    refine ⟨?_, ?_, ?_⟩
    · exact List.pairwise_append.mpr ⟨inv.sent, List.pairwise_singleton _ _, fun uid sent x hx => by
        rw [List.mem_singleton.mp hx]
        exact later uid sent⟩
    · rintro uid (sent | rfl)
      · exact inv.issued uid sent
      · exact inv.known _ here
    · rintro uid (sent | rfl)
      · exact inv.passed uid sent
      · exact first numbered
  · simp only [issued, if_neg new]
    exact ⟨inv.sent, inv.issued, inv.passed⟩

theorem InLine.sendto (inv : InLine c) {p : MsgPtr} (first : Leading p c) {r : Unit}
    (h : c.act t (.sendto p) = .ok r c') : InLine c' := by
  have identified := inv.identified.act h nofun
  simp only [Client.act] at h
  split at h
  · cases h
  · rename_i m found
    cases h
    have hm := Client.mem_of_deref found
    have leads : m.numbered = true → ∀ x ∈ c.sendingQueue.attempts, m.uid ≤ x.1 := by
      intro numbered
      cases p with
      | none => cases found
      | some uid =>
        have same : m.uid = uid := by simpa using List.find?_some found
        exact same ▸ (first uid rfl).2 _ (same ▸ mem_attempts hm numbered)
    obtain ⟨sent, known, passed⟩ := issued_transmitted inv hm leads
    exact ⟨identified, inv.ordered, inv.untried, passed, sent, inv.queued, inv.old, inv.known,
      known, inv.flags⟩

theorem InLine.addMessage (inv : InLine c) {buffer : Scratch} {flags : MsgFlags} {type : UInt8}
    (kept : flags.sentOnce = false) {r : Unit}
    (h : c.act t (.queueAddMessage buffer flags type) = .ok r c') : InLine c' := by
  have identified := inv.identified.act h nofun
  have marked := flags_act (a := .queueAddMessage buffer flags type) kept h inv.flags
  have next : c'.nextUid = c.nextUid + 1 := Client.act_nextUid h
  have history : c'.history = .queued (c.newMessage buffer flags type) :: c.history :=
    Client.act_history h
  have queue := congrArg MessageQueue.attempts (Client.act_queue h)
  rw [Client.queueAfter, MessageQueue.attempts_addMessage] at queue
  have sent : Ipk24Chat.issued c'.history = Ipk24Chat.issued c.history := by
    rw [history]
    rfl
  cases numbered : (c.newMessage buffer flags type).numbered with
  | false =>
    have line : queuedLine c'.history = queuedLine c.history := by
      rw [history]
      simp [queuedLine, numbered]
    simp only [numbered, Bool.false_eq_true, if_false, List.append_nil] at queue
    constructor
    case identified => exact identified
    case flags => exact marked
    case old =>
      intro uid hu
      have := inv.old uid (line ▸ hu)
      omega
    all_goals simp only [queue, sent, line]
    exacts [inv.ordered, inv.untried, inv.passed, inv.sent, inv.queued, inv.known, inv.issued]
  | true =>
    have line : queuedLine c'.history = queuedLine c.history ++ [c.nextUid] := by
      rw [history, queuedLine, if_pos numbered]
      rfl
    have queue : c'.sendingQueue.attempts = c.sendingQueue.attempts ++ [(c.nextUid, 0)] := by
      rw [queue, if_pos numbered]
      rfl
    have below : ∀ x ∈ c.sendingQueue.attempts, x.1 < c.nextUid :=
      fun x hx => inv.old _ (inv.known x hx)
    constructor
    case identified => exact identified
    case flags => exact marked
    case old =>
      rw [line, next]
      intro uid hu
      rcases List.mem_append.mp hu with hu | hu
      · exact Nat.lt_succ_of_lt (inv.old uid hu)
      · rw [List.mem_singleton.mp hu]
        exact Nat.lt_succ_self _
    case ordered =>
      rw [queue, List.map_append]
      refine List.pairwise_append.mpr ⟨inv.ordered, List.pairwise_singleton _ _, ?_⟩
      intro uid hu x hx
      obtain ⟨y, hy, rfl⟩ := List.mem_map.mp hu
      rw [List.map_singleton, List.mem_singleton] at hx
      exact hx ▸ below y hy
    case untried =>
      rw [queue]
      cases front : c.sendingQueue.attempts with
      | nil => simp
      | cons y rest =>
        intro x hx
        rcases List.mem_append.mp hx with hx | hx
        · exact inv.untried x (by rw [front]; exact hx)
        · rw [List.mem_singleton.mp hx]
    case passed =>
      rw [queue, sent]
      intro uid hu x hx
      rcases List.mem_append.mp hx with hx | hx
      · exact inv.passed uid hu x hx
      · rw [List.mem_singleton.mp hx]
        exact Nat.le_of_lt (inv.old _ (inv.issued uid hu))
    case sent => exact sent ▸ inv.sent
    case queued =>
      rw [line]
      refine List.pairwise_append.mpr ⟨inv.queued, List.pairwise_singleton _ _, ?_⟩
      intro uid hu x hx
      rw [List.mem_singleton.mp hx]
      exact inv.old uid hu
    case known =>
      rw [queue, line]
      intro x hx
      rcases List.mem_append.mp hx with hx | hx
      · exact List.mem_append_left _ (inv.known x hx)
      · rw [List.mem_singleton.mp hx]
        simp
    case issued =>
      rw [sent, line]
      exact fun uid hu => List.mem_append_left _ (inv.issued uid hu)

/-- **An action keeps the line**, if what it sends is the first of it. -/
theorem InLine.act (inv : InLine c) (ok : Orderly c a) (h : c.act t a = .ok r c') : InLine c' := by
  by_cases adds : ∃ buffer flags type, a = .queueAddMessage buffer flags type
  · obtain ⟨buffer, flags, type, rfl⟩ := adds
    exact inv.addMessage ok h
  by_cases sends : ∃ p, a = .sendto p
  · obtain ⟨p, rfl⟩ := sends
    exact inv.sendto ok h
  have identified : Identified c' := by
    apply inv.identified.act h
    rintro m rfl
    cases ok
  have grows : c.nextUid ≤ c'.nextUid := by
    rw [Client.act_nextUid h]
    exact Nat.le_add_right _ _
  have adds' : ∀ buffer flags type, a ≠ .queueAddMessage buffer flags type :=
    fun buffer flags type eq => adds ⟨buffer, flags, type, eq⟩
  have sends' : ∀ p, a ≠ .sendto p := fun p eq => sends ⟨p, eq⟩
  obtain ⟨uids, rest⟩ := attempts_act ok adds' h
  obtain ⟨same, line⟩ := history_act ok adds' sends' h
  have stays : ∀ x ∈ c'.sendingQueue.attempts, ∃ y ∈ c.sendingQueue.attempts, y.1 = x.1 := by
    intro x hx
    have mem := uids.mem (List.mem_map_of_mem hx)
    obtain ⟨y, hy, eq⟩ := List.mem_map.mp mem
    exact ⟨y, hy, eq⟩
  constructor
  case identified => exact identified
  case ordered => exact inv.ordered.sublist uids
  case untried => exact fun x hx => inv.untried x (rest.mem hx)
  case passed =>
    intro uid sent x hx
    obtain ⟨y, hy, eq⟩ := stays x hx
    rw [same] at sent
    exact eq ▸ inv.passed uid sent y hy
  case sent => exact same ▸ inv.sent
  case queued => exact line ▸ inv.queued
  case old => exact fun uid hu => Nat.lt_of_lt_of_le (inv.old uid (line ▸ hu)) grows
  case known =>
    intro x hx
    obtain ⟨y, hy, eq⟩ := stays x hx
    rw [line]
    exact eq ▸ inv.known y hy
  case issued =>
    rw [same, line]
    exact inv.issued
  case flags => exact flags_act ok h inv.flags

/-! ## Among other threads -/

theorem joins_refl (c : Client) : Joins c c :=
  ⟨fun x hx => Or.inl ⟨x, hx, rfl⟩, Nat.le_refl _⟩

theorem joins_trans {c₁ c₂ c₃ : Client} (h : Joins c₁ c₂) (h' : Joins c₂ c₃) : Joins c₁ c₃ := by
  refine ⟨fun x hx => ?_, Nat.le_trans h.2 h'.2⟩
  rcases h'.1 x hx with ⟨y, hy, eq⟩ | new
  · rw [← eq]
    exact h.1 y hy
  · exact Or.inr (Nat.le_trans h.2 new)

theorem joins_act (ok : Orderly c a) (h : c.act t a = .ok r c') : Joins c c' := by
  have grows : c.nextUid ≤ c'.nextUid := by
    rw [Client.act_nextUid h]
    exact Nat.le_add_right _ _
  refine ⟨fun x hx => ?_, grows⟩
  by_cases adds : ∃ buffer flags type, a = .queueAddMessage buffer flags type
  · obtain ⟨buffer, flags, type, rfl⟩ := adds
    rw [Client.act_queue h, Client.queueAfter, MessageQueue.attempts_addMessage] at hx
    rcases List.mem_append.mp hx with hx | hx
    · exact Or.inl ⟨x, hx, rfl⟩
    · split at hx
      · rw [List.mem_singleton.mp hx]
        exact Or.inr (Nat.le_refl _)
      · cases hx
  · have uids := (attempts_act ok (fun buffer flags type eq => adds ⟨buffer, flags, type, eq⟩) h).1
    obtain ⟨y, hy, eq⟩ := List.mem_map.mp (uids.mem (List.mem_map_of_mem hx))
    exact Or.inl ⟨y, hy, eq⟩

/-- The first in the line stays the first, as long as it is there. -/
theorem leading_stable {p : MsgPtr} (move : Joins c c') (h : Leading p c) : Leading p c' := by
  intro uid eq
  obtain ⟨old, first⟩ := h uid eq
  refine ⟨Nat.lt_of_lt_of_le old move.2, fun n there x hx => ?_⟩
  rcases move.1 _ there with ⟨y, hy, same⟩ | new
  · rcases move.1 x hx with ⟨z, hz, same'⟩ | later
    · rw [← same']
      exact first y.2 (by rw [← show y.1 = uid from same]; exact hy) z hz
    · omega
  · exact absurd new (by simpa using old)

/-- The head of the queue is the first in the line, or is not in it. -/
theorem leading_head (inv : InLine c) : Leading c.sendingQueue.getMessage c := by
  intro uid eq
  cases queue : c.sendingQueue with
  | nil => simp [MessageQueue.getMessage, queue] at eq
  | cons m rest =>
    obtain rfl : m.uid = uid := by simpa [MessageQueue.getMessage, queue] using eq
    have distinct := inv.identified.distinct
    have ordered := inv.ordered
    refine ⟨inv.identified.fresh _ (by simp [queue, MessageQueue.uids]), fun n there x hx => ?_⟩
    rw [queue] at distinct ordered
    cases numbered : m.numbered with
    | true =>
      simp only [MessageQueue.attempts, List.filter_cons, numbered, if_true, List.map_cons,
        List.pairwise_cons] at ordered hx
      rcases List.mem_cons.mp hx with rfl | behind
      · exact Nat.le_refl _
      · exact Nat.le_of_lt (ordered.1 _ (List.mem_map_of_mem behind))
    | false =>
      simp only [MessageQueue.attempts, List.filter_cons, numbered, Bool.false_eq_true, if_false,
        List.mem_map, List.mem_filter] at there
      obtain ⟨m', ⟨mem, -⟩, eq⟩ := there
      have again : m.uid ∈ MessageQueue.uids rest := by
        rw [← (Prod.mk.inj eq).1]
        exact List.mem_map_of_mem mem
      exact absurd again (List.nodup_cons.mp distinct).1

end

/-! ## The code of the threads -/

/-- The actions that keep the line wherever they are taken. -/
def Regular (a : Act) : Prop := ∀ c, Orderly c a

theorem regular_of_usual (a : Act) (h : a.Usual) : Regular a := by
  intro c
  cases a <;> first | trivial | exact h.elim | skip
  case queueSetMessageFlags newFlag => rcases h with rfl | rfl <;> rfl
  case note e => rcases h with rfl | rfl | rfl <;> rfl

theorem inLine_halted {t : Thread} {a : Act} {c c' : Client} (inv : InLine c)
    (h : c.act t a = .halt c') : InLine c' ∧ Joins c c' := by
  rw [Client.act_halt h]
  exact ⟨⟨⟨inv.identified.fresh, inv.identified.distinct, inv.identified.old⟩, inv.ordered,
    inv.untried, inv.passed, inv.sent, inv.queued, inv.old, inv.known, inv.issued, inv.flags⟩,
    joins_refl c⟩

section
variable {cfg : NetworkConfig} {t : Thread}

/-- An orderly action among other threads. -/
theorem orderly_step {c : Client} {a : Act} (inv : InLine c) (ok : Orderly c a) :
    (∀ r c', Client.perform t a c = .ok r c' →
      InLine c' ∧ ∀ u : Thread, u ≠ t → Joins c c') ∧
    ∀ c', Client.perform t a c = .halt c' → InLine c' ∧ ∀ u : Thread, u ≠ t → Joins c c' := by
  constructor
  · intro r c' h
    have act := (Client.perform_ok h).2
    exact ⟨inv.act ok act, fun _ _ => joins_act ok act⟩
  · intro c' h
    obtain ⟨kept, joins⟩ := inLine_halted inv (Client.perform_halt h).2
    exact ⟨kept, fun _ _ => joins⟩

/-- The program keeps the line from here on, among threads that keep it. -/
def SafeInLine (t : Thread) {α : Type} (q : Prog α) (c : Client) : Prop :=
  q.Safe (Client.perform t) (fun a c => Orderly c a) (fun c c₁ => InLine c₁ ∧ Joins c c₁)
    (fun c₁ c₂ => InLine c₂ ∧ ∀ u : Thread, u ≠ t → Joins c₁ c₂) (fun _ _ => True) c

def KeepsLine (t : Thread) {α : Type} (q : Prog α) : Prop := ∀ c, SafeInLine t q c

theorem keepsLine_rules (t : Thread) :
    Program.Compositional Regular Act.Truthful (KeepsLine t) :=
  Program.compositional_safe (fun _ _ _ _ h => Client.act_truthful (Client.perform_ok h).2)
    fun _ _ c₁ move ok => ⟨ok c₁, orderly_step move.1 (ok c₁)⟩

theorem keepsLine_sendBye : KeepsLine t (sendBye cfg) := by
  have rules := keepsLine_rules t
  unfold sendBye
  refine take_bind rules (fun _ => trivial) fun _ _ => ?_
  refine take_bind rules (fun _ => trivial) fun _ _ => ?_
  refine take_bind rules (fun _ => rfl) fun _ _ => ?_
  exact take_only rules fun _ => trivial

theorem keepsLine_sendError (buffer : Scratch) (text : String) :
    KeepsLine t (sendError cfg buffer text) := by
  have rules := keepsLine_rules t
  unfold sendError
  refine take_bind rules (fun _ => trivial) fun comDetails _ => ?_
  refine take_bind rules (fun _ => trivial) fun _ _ => ?_
  refine take_bind rules (fun _ => trivial) fun result _ => ?_
  cases result with
  | error f => exact errHandling_obeys rules (calm_of_usual regular_of_usual) keepsLine_sendBye f
  | ok r =>
    refine take_bind rules (fun _ => trivial) fun _ _ => ?_
    split
    · refine take_bind rules (fun _ => rfl) fun _ _ => ?_
      exact take_only rules fun _ => trivial
    · exact errHandling_obeys rules (calm_of_usual regular_of_usual) keepsLine_sendBye _

/-- The rule for an action behind the look at the head: `p` stays the first. -/
theorem safe_leading {p : MsgPtr} {α : Type} {a : Act} {f : a.Answer → Prog α}
    (ok : ∀ c, Leading p c → Orderly c a) (rest : ∀ r c, Leading p c → SafeInLine t (f r) c)
    {c : Client} (first : Leading p c) : SafeInLine t (take a >>= f) c := by
  refine Program.safe_perform_bind fun c₁ move => ?_
  have first₁ := leading_stable move.2 first
  have orderly := ok c₁ first₁
  obtain ⟨kept, halted⟩ := orderly_step (t := t) move.1 orderly
  refine ⟨orderly, fun r c₂ h => ⟨kept r c₂ h, ?_⟩, halted⟩
  have joins := joins_act orderly (Client.perform_ok h).2
  exact rest r c₂ (leading_stable joins first₁)

/-- What is sent is the first in the line, whatever is put in front of it meanwhile. -/
theorem keepsLine_sendHead (bytesTx : Int) : KeepsLine t (sendHead cfg bytesTx) := by
  have rules := keepsLine_rules t
  intro c
  unfold sendHead
  refine Program.safe_perform_bind fun c₁ move => ?_
  have reads : Orderly c₁ .queueGetMessage := trivial
  obtain ⟨kept, halted⟩ := orderly_step (t := t) move.1 reads
  refine ⟨reads, fun p c₂ h => ⟨kept p c₂ h, ?_⟩, halted⟩
  have first : Leading p c₂ := by
    have act := (Client.perform_ok h).2
    simp only [Client.act, Effect.ok.injEq] at act
    obtain ⟨rfl, rfl⟩ := act
    exact leading_head move.1
  have sent (c : Client) (first : Leading p c) : SafeInLine t (do
      sendto p
      let sendedMessageFlags ← queueGetMessageFlags
      if bytesTx < 0 then
        errHandling cfg ⟨"Sending bytes was not successful", .errCommunication⟩
      else
        messageWasSended cfg p sendedMessageFlags
        queueUnlock
        pure Point.protocolSender) c := by
    refine safe_leading (a := .sendto p) (fun c first => first) (fun _ c _ => ?_) first
    refine take_bind rules (a := .queueGetMessageFlags) (fun _ => trivial) (fun flags _ => ?_) c
    split
    · exact errHandling_obeys rules (calm_of_usual regular_of_usual) keepsLine_sendBye _
    · have counted : KeepsLine t (messageWasSended cfg p flags) :=
        messageWasSended_obeys rules (calm_of_usual regular_of_usual) (fun _ => trivial) p flags
      refine rules.bind counted fun _ => ?_
      exact take_bind rules (fun _ => trivial) fun _ _ => rules.ret _
  unfold labelMessage
  split
  · exact safe_leading (a := .queueSetMessageID) (fun _ _ => trivial) (fun _ => sent) first
  · exact safe_leading (a := .addMsgCounter) (fun _ _ => trivial) (fun _ => sent) first

theorem keepsLine_pieces (t : Thread) : Pieces cfg (KeepsLine t) where
  sendBye := keepsLine_sendBye
  sendConfirm serverResponse flags auth := by
    refine sendConfirm_obeys (keepsLine_rules t) (calm_of_usual regular_of_usual) ?_
      keepsLine_sendBye (fun _ _ h => h) serverResponse flags auth
    intro a making other c
    cases a <;> first
      | trivial
      | exact making.2
      | exact making.elim
      | exact absurd rfl (other _ _ _)
  sendError buffer _ text := keepsLine_sendError buffer text
  sendHead := keepsLine_sendHead
  replyCounter msgID := by
    have rules := keepsLine_rules t
    refine take_bind rules (fun _ => rfl) fun _ _ => ?_
    exact take_only rules fun _ => trivial

theorem keepsLine_command (pBlocks : ProtocolBlocks) {flags : MsgFlags}
    (plain : CommandFlags pBlocks flags) : KeepsLine t (assembleCommand cfg pBlocks flags) := by
  refine assembleCommand_obeys (keepsLine_rules t) (calm_of_usual regular_of_usual)
    keepsLine_sendBye (fun _ _ h => h) pBlocks flags (fun _ => trivial) fun type _ c => ?_
  rcases plain with rfl | ⟨rfl, -⟩ <;> rfl

/-- All code of the threads keeps the line. -/
theorem starts_keepsLine {p : Point} {q : Prog Point} (h : Starts cfg t p q) : KeepsLine t q := by
  have rules := keepsLine_rules t
  have pieces : Pieces cfg (KeepsLine t) := keepsLine_pieces t
  have parts := pieces.parts rules (calm_of_usual regular_of_usual)
  have confirm (msgID : Nat) : KeepsLine t (handleConfirmUDP msgID) := by
    refine handleConfirmUDP_obeys rules (calm_of_usual regular_of_usual)
      (regular_of_usual _ rfl) (fun a wiring other c => ?_) msgID
    cases a <;> first | trivial | exact wiring.elim | exact absurd rfl (other _) | skip
    case note e =>
      obtain ⟨msgID, rfl⟩ := wiring
      rfl
  cases t with
  | main =>
    cases h with
    | userCommandHandling eofDetected stdin =>
      exact userCommandHandling_obeys rules (calm_of_usual regular_of_usual) pieces.sendBye
        (fun _ _ h => h) (fun _ => ⟨fun _ => trivial, fun _ => trivial⟩) (fun _ _ _ => trivial)
        (fun pBlocks _ _ _ _ plain => keepsLine_command pBlocks plain) _ _
  | sender =>
    exact sender_obeys rules (calm_of_usual regular_of_usual) parts (fun _ _ _ _ _ _ => trivial)
      (regular_of_usual _ rfl) h
  | receiver =>
    cases h with
    | protocolReceiver datagram _ =>
      exact protocolReceiver_obeys rules (calm_of_usual regular_of_usual)
        (fun _ _ _ _ _ => ⟨fun _ => trivial, fun _ => rfl⟩)
        ⟨fun _ => rfl, fun _ _ _ _ _ => trivial⟩ (fun _ _ _ _ => trivial) (fun _ _ => trivial) parts
        (regular_of_usual _ rfl)
        confirm (fun _ _ => trivial) datagram

end

theorem inLine_init (heap : Nat → Memory) (ipAddress : Buffer) :
    InLine (programInterfaceInit heap ipAddress) := by
  constructor
  case identified => exact ⟨nofun, List.nodup_nil, nofun⟩
  all_goals
    simp [programInterfaceInit, MessageQueue.attempts, MessageQueue.marks, issued, queuedLine]

/-- The line is kept in every reachable state, and every action that is about to be
taken keeps it. -/
theorem inLine_of_reachable {cfg : NetworkConfig} {heap : Nat → Memory} {ipAddress : Buffer}
    {s : Threads Thread Client Act.Answer Point} (h : Reachable cfg heap ipAddress s) :
    InLine s.shared ∧ ∀ t a next, s.code t = some (.act a next) → Orderly s.shared a := by
  obtain ⟨inv, code⟩ := Machine.invariant_of_safe (m := machine cfg) InLine
    (fun _ a c => Orderly c a) (fun _ => Joins) (fun _ => joins_refl) (fun _ _ _ _ => joins_trans)
    (fun t p q c start _ => starts_keepsLine start c) h (inLine_init heap ipAddress)
    (fun t q idle => by cases idle; trivial)
  refine ⟨inv, fun t a next pending => ?_⟩
  exact Machine.allowed_of_safeFor (fun _ => joins_refl) inv (code t _ pending)

/-- The numbered messages that were queued before message `uid`. -/
def queuedBefore (history : List Event) (uid : Nat) : List Nat :=
  (queuedLine history).takeWhile (· ≠ uid)

/-- In a line, those before a message are the smaller ones. -/
theorem lt_of_mem_takeWhile {line : List Nat} (ordered : line.Pairwise (· < ·)) {uid x : Nat}
    (mem : uid ∈ line) (before : x ∈ line.takeWhile (· ≠ uid)) : x < uid := by
  induction line with
  | nil => cases mem
  | cons y rest ih =>
    obtain ⟨first, ordered⟩ := List.pairwise_cons.mp ordered
    by_cases here : y = uid
    · simp [here] at before
    · have behind : uid ∈ rest := by simpa [Ne.symm here] using mem
      rw [List.takeWhile_cons_of_pos (by simpa using here)] at before
      rcases List.mem_cons.mp before with rfl | before
      · exact first uid behind
      · exact ih ordered behind before

/-- **Stop and wait.** In every reachable state: of the messages in the queue that are
no CONFIRM only the first can have been sent, and none has a flag to be popped when it
is sent; whenever a thread is about to transmit such a message, all that were queued
before it have left the queue; and the messages that were sent, in the order of their
first transmissions, are in the order in which they were queued. -/
theorem stop_and_wait {cfg : NetworkConfig} {heap : Nat → Memory} {ipAddress : Buffer}
    {s : Threads Thread Client Act.Answer Point} (h : Reachable cfg heap ipAddress s) :
    (∀ m ∈ (s.shared.sendingQueue.filter Message.numbered).tail, m.sendCount = 0) ∧
    (∀ m ∈ s.shared.sendingQueue, m.numbered = true → m.msgFlags.sentOnce = false) ∧
    (∀ t p next m, s.code t = some (.act (.sendto p) next) →
      s.shared.sendingQueue.deref p = some m → m.numbered = true →
      ∀ x ∈ s.shared.sendingQueue, x.numbered = true →
        x.uid ∉ queuedBefore s.shared.history m.uid) ∧
    (issued s.shared.history).Sublist (queuedLine s.shared.history) := by
  obtain ⟨inv, orderly⟩ := inLine_of_reachable h
  refine ⟨?_, ?_, ?_, ?_⟩
  · intro m hm
    refine inv.untried (m.uid, m.sendCount) ?_
    rw [MessageQueue.attempts, ← List.map_tail]
    exact List.mem_map_of_mem hm
  · intro m hm numbered
    exact inv.flags (m.type, m.msgFlags) (List.mem_map_of_mem hm) (by simpa [Message.numbered]
      using numbered)
  · intro t p next m pending found numbered x hx other before
    have leads : Leading p s.shared := orderly t _ next pending
    have here := mem_attempts (Client.mem_of_deref found) numbered
    have earlier := lt_of_mem_takeWhile inv.queued (inv.known _ here) before
    cases p with
    | none => cases found
    | some uid =>
      have same : m.uid = uid := by simpa using List.find?_some found
      have first := (leads uid rfl).2 _ (same ▸ here) _ (mem_attempts hx other)
      omega
  · have subset : issued s.shared.history ⊆ queuedLine s.shared.history := inv.issued
    exact List.sublist_of_subperm_of_pairwise (List.subperm_of_subset inv.sent.nodup subset)
      inv.sent inv.queued

/-- A client with two messages in its queue, the first of which was sent. -/
theorem stop_and_wait_two :
    ∃ s, Reachable ⟨.protUDP, 3⟩ (fun _ _ => 0xC4) ⟨some fun _ => 0, 10, 10⟩ s ∧
      (s.shared.sendingQueue.filter Message.numbered).map (·.sendCount) = [1, 0] ∧
      ∀ m ∈ (s.shared.sendingQueue.filter Message.numbered).tail, m.sendCount = 0 := by
  obtain ⟨p, passed, good⟩ := passed_of_playAll ⟨.protUDP, 3⟩ (fun _ _ => 0xC4)
    ⟨some fun _ => 0, 10, 10⟩
    [.main (ascii "/auth u s d\n"), .sender 1, .receiver [0, 0, 0],
      .receiver ([1, 0, 0, 1, 0, 0] ++ ascii "ok" ++ [0]), .sender 1, .sender 1,
      .main (ascii "hi\n"), .main (ascii "ho\n"), .sender 1]
    (fun p => (p.shared.sendingQueue.filter Message.numbered).map (·.sendCount) = [1, 0])
    (by decide +kernel)
  obtain ⟨s, reached, same⟩ := reachable_of_passed passed
  refine ⟨s, reached, ?_, (stop_and_wait reached).1⟩
  rw [same]
  simpa using good

end Ipk24Chat
