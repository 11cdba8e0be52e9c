import Ipk24Chat.Confirm
import Ipk24Chat.MessageId

/-!
# One ID for each message

The queue works as a line: the first message that is not a CONFIRM is sent until
it is confirmed, and the counter moves on with its CONFIRM, or further on with a
REPLY behind it. As long as the code keeps to that, the messages have different
values of the counter, in the order of their first transmissions.

* `ledger`: which message has which place in the order of the counter;
* `Line`: the line of numbered messages, with the state of its first;
* `sameId_iff`: in every run whose steps are `inStep`, two transmissions carry the
  same ID exactly if they are of the same message.
-/

namespace Ipk24Chat

/-- A CONFIRM carries the ID it answers; the other messages get one of their own. -/
def Message.numbered (m : Message) : Bool := m.type != MsgType.msgConf.toUChar

/-- The numbered messages that were sent, in the order of their first transmissions. -/
def issued : List Event → List Nat
  | [] => []
  | .transmitted m :: earlier =>
    if m.numbered = true ∧ m.uid ∉ issued earlier then issued earlier ++ [m.uid]
    else issued earlier
  | _ :: earlier => issued earlier

/-- The places of the messages that were sent, and the place the counter is at, both as
numbers of steps of the counter. -/
structure Ledger where
  place : Nat → Option Nat
  next : Nat

namespace Ledger

/-- How far a REPLY moves the counter on. -/
def skip (l : Ledger) (msgID : Nat) : Nat :=
  idPlace ((msgID + 1) % 65536) - idPlace (idNumber l.next)

/-- The message gets the place that the counter is at. -/
def give (l : Ledger) (uid : Nat) : Ledger :=
  { l with place := fun other => if other = uid then some l.next else l.place other }

/-- A message gets its place with its first transmission. Its CONFIRM, which may come
again, sets the counter behind it. -/
def record (l : Ledger) : Event → Ledger
  | .transmitted m => if m.numbered = true ∧ l.place m.uid = none then l.give m.uid else l
  | .confirmed m _ _ => { l with next := (l.place m.uid).getD l.next + 1 }
  | .replyCounter msgID => { l with next := l.next + l.skip msgID }
  | _ => l

end Ledger

def ledger : List Event → Ledger
  | [] => ⟨fun _ => none, 0⟩
  | e :: earlier => (ledger earlier).record e

/-- How many values of the counter were left out by a REPLY. -/
def skipped : List Event → Nat
  | [] => 0
  | .replyCounter msgID :: earlier => skipped earlier + (ledger earlier).skip msgID
  | _ :: earlier => skipped earlier

def Event.queuesNumbered : Event → Bool
  | .queued m => m.numbered
  | _ => false

/-- How many numbered messages were queued. -/
def queuedNumbered (history : List Event) : Nat := history.countP Event.queuesNumbered

theorem mem_issued {history : List Event} {uid : Nat} :
    uid ∈ issued history ↔
      ∃ m, .transmitted m ∈ history ∧ m.numbered = true ∧ m.uid = uid := by
  induction history with
  | nil => simp [issued]
  | cons e earlier ih =>
    cases e with
    | transmitted m =>
      by_cases new : m.numbered = true ∧ m.uid ∉ issued earlier
      · simp only [issued, if_pos new, List.mem_append, ih, List.mem_cons,
          Event.transmitted.injEq]
        grind
      · simp only [issued, if_neg new, ih, List.mem_cons, Event.transmitted.injEq]
        grind
    | _ => simpa [issued] using ih

/-- The messages with a place are those that were sent. -/
theorem place_eq_none {history : List Event} {uid : Nat} :
    (ledger history).place uid = none ↔ uid ∉ issued history := by
  induction history generalizing uid with
  | nil => simp [ledger, issued]
  | cons e earlier ih =>
    cases e with
    | transmitted m =>
      by_cases new : m.numbered = true ∧ m.uid ∉ issued earlier
      · have first : m.numbered = true ∧ (ledger earlier).place m.uid = none :=
          ⟨new.1, ih.mpr new.2⟩
        simp only [ledger, Ledger.record, if_pos first, Ledger.give, issued, if_pos new,
          List.mem_append, List.mem_singleton, not_or]
        by_cases same : uid = m.uid
        · simp [same]
        · rw [if_neg same, ih]
          exact ⟨fun unsent => ⟨unsent, same⟩, And.left⟩
      · have again : ¬ (m.numbered = true ∧ (ledger earlier).place m.uid = none) :=
          fun first => new ⟨first.1, ih.mp first.2⟩
        simp only [ledger, Ledger.record, if_neg again, issued, if_neg new]
        exact ih
    | _ => exact ih

/-! ## The line -/

/-- The numbered messages in the queue, in their order. -/
def Client.line (c : Client) : MessageQueue :=
  (c.sendingQueue.map Message.core).filter Message.numbered

/-- Messages that were neither sent nor confirmed. -/
def Untouched (l : Ledger) (queue : MessageQueue) : Prop :=
  ∀ m ∈ queue, l.place m.uid = none ∧ m.confirmed = false

/-- All messages but those of `apart` have places in front of `n`. -/
def Ledger.Before (l : Ledger) (n : Nat) (apart : Nat → Prop) : Prop :=
  ∀ uid p, l.place uid = some p → ¬ apart uid → p < n

/-- The line: the first message waits to be sent, or to be confirmed, or is confirmed. -/
inductive Line (l : Ledger) : MessageQueue → Prop where
  | empty (before : l.Before l.next fun _ => False) : Line l []
  | waiting {m : Message} {rest : MessageQueue} (before : l.Before l.next fun _ => False)
      (untouched : Untouched l (m :: rest)) : Line l (m :: rest)
  | pending {m : Message} {rest : MessageQueue} (before : l.Before l.next (· = m.uid))
      (place : l.place m.uid = some l.next) (unconfirmed : m.confirmed = false)
      (label : m.Carries (idNumber l.next)) (untouched : Untouched l rest) : Line l (m :: rest)
  | finished {m : Message} {rest : MessageQueue} {n : Nat} (before : l.Before n (· = m.uid))
      (place : l.place m.uid = some n) (left : n < l.next) (confirmed : m.confirmed = true)
      (label : m.Carries (idNumber n)) (untouched : Untouched l rest) : Line l (m :: rest)

namespace Line
variable {l : Ledger} {m : Message} {rest queue : MessageQueue}

theorem of_untouched (before : l.Before l.next fun _ => False) (h : Untouched l queue) :
    Line l queue := by
  cases queue with
  | nil => exact .empty before
  | cons m rest => exact .waiting before h

/-- A message that was sent and is not confirmed is not free to go. -/
theorem not_free {n : Nat} (place : l.place m.uid = some n) (unconfirmed : m.confirmed = false) :
    ¬ (l.place m.uid = none ∨ m.confirmed = true) := by
  rintro (unsent | confirmed)
  · exact absurd (unsent.symm.trans place) (by simp)
  · exact absurd (unconfirmed.symm.trans confirmed) (by decide)

/-- The counter has left the place of a confirmed message. -/
theorem before_of_finished {n : Nat} (before : l.Before n (· = m.uid))
    (place : l.place m.uid = some n) (left : n < l.next) :
    l.Before l.next fun _ => False := by
  intro uid p given _
  by_cases same : uid = m.uid
  · subst same
    rw [place] at given
    obtain rfl := Option.some.inj given
    exact left
  · exact (before uid p given same).trans left

/-- Only a message that was sent and not confirmed holds the line up. -/
theorem pop (h : Line l (m :: rest)) (free : l.place m.uid = none ∨ m.confirmed = true) :
    Line l rest := by
  cases h with
  | waiting before untouched =>
    exact of_untouched before fun x mem => untouched x (List.mem_cons_of_mem _ mem)
  | pending _ place unconfirmed => exact absurd free (not_free place unconfirmed)
  | finished before place left _ _ untouched =>
    exact of_untouched (before_of_finished before place left) untouched

/-- The counter is behind all places, unless the first message is sent and not confirmed. -/
theorem before (h : Line l queue) (free : ∀ m ∈ queue, l.place m.uid = none ∨ m.confirmed = true) :
    l.Before l.next fun _ => False := by
  cases h with
  | empty before => exact before
  | waiting before _ => exact before
  | pending _ place unconfirmed =>
    exact absurd (free _ List.mem_cons_self) (not_free place unconfirmed)
  | finished before place left => exact before_of_finished before place left

theorem append (h : Line l queue) (new : l.place m.uid = none) (fresh : m.confirmed = false) :
    Line l (queue ++ [m]) := by
  have behind (rest : MessageQueue) (untouched : Untouched l rest) :
      Untouched l (rest ++ [m]) := by
    intro x mem
    rcases List.mem_append.mp mem with before | last
    · exact untouched x before
    · rw [List.mem_singleton.mp last]
      exact ⟨new, fresh⟩
  cases h with
  | empty before => exact of_untouched before (behind [] nofun)
  | waiting before untouched => exact of_untouched before (behind _ untouched)
  | pending before place unconfirmed label untouched =>
    exact .pending before place unconfirmed label (behind _ untouched)
  | finished before place left confirmed label untouched =>
    exact .finished before place left confirmed label (behind _ untouched)

/-- Labelling the first message before it is confirmed. -/
theorem setMsgID (h : Line l (m :: rest)) (unconfirmed : m.confirmed = false)
    (long : 3 ≤ m.buffer.length) : Line l (m.setMsgID (idNumber l.next) :: rest) := by
  cases h with
  | waiting before untouched =>
    refine .waiting before ?_
    intro x mem
    rcases List.mem_cons.mp mem with rfl | behind
    · exact untouched m List.mem_cons_self
    · exact untouched x (List.mem_cons_of_mem _ behind)
  | pending before place _ _ untouched =>
    exact .pending before place unconfirmed (Message.carries_setMsgID long) untouched
  | finished _ _ _ confirmed => exact absurd (unconfirmed.symm.trans confirmed) (by decide)

/-- The first transmission of the first message gives it the place of the counter. -/
theorem transmit (h : Line l (m :: rest)) (new : l.place m.uid = none)
    (distinct : ∀ x ∈ rest, x.uid ≠ m.uid) (label : m.Carries (idNumber l.next)) :
    Line (l.give m.uid) (m :: rest) := by
  cases h with
  | waiting before untouched =>
    refine .pending ?_ (if_pos rfl) (untouched m List.mem_cons_self).2 label ?_
    · intro uid p given other
      have given : (if uid = m.uid then some l.next else l.place uid) = some p := given
      have other : ¬ uid = m.uid := other
      rw [if_neg other] at given
      exact before uid p given not_false
    · intro x mem
      obtain ⟨unsent, unconfirmed⟩ := untouched x (List.mem_cons_of_mem _ mem)
      exact ⟨(if_neg (distinct x mem)).trans unsent, unconfirmed⟩
  | pending _ place => exact absurd (new.symm.trans place) (by simp)
  | finished _ place => exact absurd (new.symm.trans place) (by simp)

/-- The CONFIRM of the first message, which was sent. -/
theorem confirm (h : Line l (m :: rest)) (sent : l.place m.uid ≠ none) :
    ∃ n, l.place m.uid = some n ∧ m.Carries (idNumber n) ∧
      (if m.confirmed then n < l.next else n = l.next) ∧
      Line { l with next := n + 1 } ({ m with confirmed := true } :: rest) := by
  cases h with
  | waiting _ untouched => exact absurd (untouched m List.mem_cons_self).1 sent
  | pending before place unconfirmed label untouched =>
    rw [unconfirmed]
    exact ⟨l.next, place, label, rfl,
      .finished before place (Nat.lt_succ_self _) rfl label untouched⟩
  | @finished _ _ n before place left confirmed label untouched =>
    rw [confirmed]
    exact ⟨n, place, label, left,
      .finished before place (Nat.lt_succ_self _) rfl label untouched⟩

/-- The counter moves on, and nobody waits for a CONFIRM. -/
theorem skip (h : Line l queue) (n : Nat)
    (free : ∀ m ∈ queue, l.place m.uid = none ∨ m.confirmed = true) :
    Line { l with next := l.next + n } queue := by
  have further : ∀ uid p, l.place uid = some p → ¬ False → p < l.next + n :=
    fun uid p given no => Nat.lt_add_right n (h.before free uid p given no)
  cases h with
  | empty => exact .empty further
  | waiting _ untouched => exact .waiting further untouched
  | pending _ place unconfirmed =>
    exact absurd (free _ List.mem_cons_self) (not_free place unconfirmed)
  | finished before place left confirmed label untouched =>
    exact .finished before place (Nat.lt_add_right n left) confirmed label untouched

/-- Before it is confirmed, the first message has the place of the counter or gets it. -/
theorem place_of_sent (h : Line l (m :: rest)) (unconfirmed : m.confirmed = false)
    (sent : l.place m.uid ≠ none) : l.place m.uid = some l.next := by
  cases h with
  | waiting _ untouched => exact absurd (untouched m List.mem_cons_self).1 sent
  | pending _ place => exact place
  | finished _ _ _ confirmed => exact absurd (unconfirmed.symm.trans confirmed) (by decide)

/-- A message that is sent for the first time finds the counter behind all places. -/
theorem before_of_unsent (h : Line l (m :: rest)) (unsent : l.place m.uid = none) :
    l.Before l.next fun _ => False := by
  cases h with
  | waiting before _ => exact before
  | pending _ place => exact absurd (unsent.symm.trans place) (by simp)
  | finished _ place => exact absurd (unsent.symm.trans place) (by simp)

end Line

/-! ## The invariant -/

/-- The message was sent and is not confirmed. -/
def Client.awaits (c : Client) (m : Message) : Bool :=
  m.numbered && !m.confirmed && decide (m.uid ∈ issued c.history)

/-- The steps that keep to the line:

* a REPLY leaves the counter as it is, or moves it on, in its own order, while no message
  that was sent waits for its CONFIRM;
* a CONFIRM is only accepted for a message that was sent, with its ID;
* no message leaves the queue between its transmission and its CONFIRM;
* a confirmed message is not sent again. -/
def inStep (_ : Thread) : Act → Client → Bool
  | .note (.replyCounter msgID), c =>
    (msgID + 1) % 65536 == c.comDetails.msgCounter ||
      decide (idPlace c.comDetails.msgCounter < idPlace ((msgID + 1) % 65536)) &&
        c.sendingQueue.all fun m => !c.awaits m
  | .setConfirmed p, c => (c.sendingQueue.deref p).all fun m =>
    m.numbered && decide (m.uid ∈ issued c.history) &&
      (m.lowMsgIdByte == c.serverResponse.mem 1 && m.highMsgIdByte == c.serverResponse.mem 2)
  | .queuePopMessage, c => c.sendingQueue.head?.all fun m => !c.awaits m
  | .queuePopAllMessages, c => c.sendingQueue.all fun m => !c.awaits m
  | .queueSetMessageID, c => c.sendingQueue.head?.all fun m => !(m.numbered && m.confirmed)
  | _, _ => true

/-- The message gets its ID when it is sent. -/
structure Message.Ready (m : Message) : Prop where
  flags : m.msgFlags ≠ .msgFlagConfirm ∧ m.msgFlags ≠ .msgFlagNokReply
  long : 3 ≤ m.buffer.length

/-- What was sent carries the number of its place, which is its own. -/
structure Registered (history : List Event) : Prop where
  sent : ∀ m, .transmitted m ∈ history → m.numbered = true →
    ∃ n, (ledger history).place m.uid = some n ∧ m.Carries (idNumber n)
  own : ∀ uid uid' n, (ledger history).place uid = some n →
    (ledger history).place uid' = some n → uid = uid'

namespace Registered
variable {history later : List Event} {m : Message}

theorem of_place (h : Registered history) (same : (ledger later).place = (ledger history).place)
    (before : ∀ m, .transmitted m ∈ later → .transmitted m ∈ history) : Registered later := by
  constructor
  · intro m mem numbered
    rw [same]
    exact h.sent m (before m mem) numbered
  · rw [same]
    exact h.own

/-- The first transmission, with all places behind the counter. -/
theorem first (h : Registered history) (numbered : m.numbered = true)
    (unsent : (ledger history).place m.uid = none)
    (before : (ledger history).Before (ledger history).next fun _ => False)
    (label : m.Carries (idNumber (ledger history).next)) :
    Registered (.transmitted m :: history) := by
  have same : ledger (.transmitted m :: history) = (ledger history).give m.uid :=
    if_pos ⟨numbered, unsent⟩
  constructor
  · intro x mem kind
    rw [same]
    rcases List.mem_cons.mp mem with eq | earlier
    · obtain rfl := Event.transmitted.inj eq
      exact ⟨_, if_pos rfl, label⟩
    · obtain ⟨n, place, carries⟩ := h.sent x earlier kind
      have other : x.uid ≠ m.uid := by
        intro eq
        rw [eq, unsent] at place
        cases place
      exact ⟨n, (if_neg other).trans place, carries⟩
  · intro uid uid' n place place'
    rw [same] at place place'
    simp only [Ledger.give] at place place'
    split at place <;> split at place'
    · rename_i here here'
      exact here.trans here'.symm
    · obtain rfl := Option.some.inj place
      exact absurd (before uid' _ place' not_false) (Nat.lt_irrefl _)
    · obtain rfl := Option.some.inj place'
      exact absurd (before uid _ place not_false) (Nat.lt_irrefl _)
    · exact h.own uid uid' n place place'

/-- Another transmission, with the same number, or one of a CONFIRM. -/
theorem again (h : Registered history)
    (known : m.numbered = true →
      ∃ n, (ledger history).place m.uid = some n ∧ m.Carries (idNumber n)) :
    ledger (.transmitted m :: history) = ledger history ∧
      Registered (.transmitted m :: history) := by
  have same : ledger (.transmitted m :: history) = ledger history := by
    refine if_neg ?_
    rintro ⟨numbered, unsent⟩
    obtain ⟨n, place, -⟩ := known numbered
    exact absurd (unsent.symm.trans place) (by simp)
  refine ⟨same, fun x mem kind => ?_, ?_⟩
  · rw [same]
    rcases List.mem_cons.mp mem with eq | earlier
    · obtain rfl := Event.transmitted.inj eq
      exact known kind
    · exact h.sent x earlier kind
  · rw [same]
    exact h.own

end Registered

/-- The line and what was sent so far, whatever the counter is. -/
structure Tallied (c : Client) : Prop where
  identified : Identified c
  registered : Registered c.history
  line : Line (ledger c.history) c.line
  ready : ∀ m ∈ c.sendingQueue, m.numbered = true → m.Ready
  bound : (ledger c.history).next + c.line.countP (!·.confirmed) ≤
    queuedNumbered c.history + skipped c.history

structure Numbered (c : Client) : Prop extends Tallied c where
  counter : c.comDetails.msgCounter = idNumber (ledger c.history).next

/-- The events that are about no message in the line. -/
def Event.uncounted : Event → Bool
  | .transmitted _ | .confirmed .. | .queued _ => false
  | _ => true

/-- The events that no number depends on. -/
def Event.unrecorded : Event → Bool
  | .replyCounter _ => false
  | e => e.uncounted

theorem unrecorded_cons {e : Event} (h : e.unrecorded = true) (history : List Event) :
    ledger (e :: history) = ledger history ∧ skipped (e :: history) = skipped history ∧
      queuedNumbered (e :: history) = queuedNumbered history := by
  cases e <;> first | exact ⟨rfl, rfl, rfl⟩ | cases h

/-- The actions that add, label, send and confirm nothing. -/
def Act.Indifferent : Act → Prop
  | .queueAddMessage .. | .queueAddMessagePriority .. => False
  | .queueSetMessageID | .sendto _ | .setConfirmed _ => False
  | .queueSetMessageFlags newFlag => newFlag = .msgFlagConfirmed ∨ newFlag = .msgFlagRejected
  | .note e => e.unrecorded = true
  | _ => True

section
variable {t : Thread} {c c' : Client} {a : Act} {r : a.Answer}

theorem history_indifferent (ok : a.Indifferent) (h : c.act t a = .ok r c') :
    ledger c'.history = ledger c.history ∧ skipped c'.history = skipped c.history ∧
      queuedNumbered c'.history = queuedNumbered c.history ∧
      ∀ m, .transmitted m ∈ c'.history → .transmitted m ∈ c.history := by
  rw [Client.act_history h]
  cases emitted : c.emitted a with
  | none => exact ⟨rfl, rfl, rfl, fun _ => id⟩
  | some e =>
    have unrecorded : e.unrecorded = true := by
      cases a <;> simp_all [Client.emitted, Act.Indifferent] <;> subst emitted <;> rfl
    obtain ⟨same, count, queued⟩ := unrecorded_cons unrecorded c.history
    refine ⟨same, count, queued, fun m mem => ?_⟩
    rcases List.mem_cons.mp mem with rfl | before
    · cases unrecorded
    · exact before

theorem ready_indifferent (ok : a.Indifferent) (h : c.act t a = .ok r c')
    (ready : ∀ m ∈ c.sendingQueue, m.numbered = true → m.Ready) :
    ∀ m ∈ c'.sendingQueue, m.numbered = true → m.Ready := by
  rw [Client.act_queue h]
  intro m mem numbered
  cases a
  case queueSetMessageFlags newFlag =>
    simp only [Client.queueAfter, MessageQueue.setMessageFlags] at mem
    split at mem
    · cases mem
    · rename_i head rest queue
      rcases List.mem_cons.mp mem with rfl | behind
      · have long := (ready head (by rw [queue]; exact List.mem_cons_self) numbered).long
        refine ⟨?_, long⟩
        rcases ok with rfl | rfl <;> simp
      · exact ready m (by rw [queue]; exact List.mem_cons_of_mem _ behind) numbered
  case queueMessageSended =>
    simp only [Client.queueAfter, MessageQueue.messageSended] at mem
    split at mem
    · cases mem
    · rename_i head rest queue
      rcases List.mem_cons.mp mem with rfl | behind
      · have before := ready head (by rw [queue]; exact List.mem_cons_self) numbered
        exact ⟨before.flags, before.long⟩
      · exact ready m (by rw [queue]; exact List.mem_cons_of_mem _ behind) numbered
  case queuePopMessage => exact ready m (List.mem_of_mem_tail mem) numbered
  case queuePopAllMessages => cases mem
  all_goals first | exact ready m mem numbered | exact ok.elim

/-- A message that the code may drop does not hold the line up. -/
theorem free_of_not_awaits {m : Message} (numbered : m.numbered = true)
    (h : (!c.awaits m) = true) :
    (ledger c.history).place m.uid = none ∨ m.confirmed = true := by
  by_cases confirmed : m.confirmed = true
  · exact Or.inr confirmed
  · left
    rw [place_eq_none]
    simpa [Client.awaits, numbered, confirmed] using h

theorem free_of_none_awaits (h : (c.sendingQueue.all fun m => !c.awaits m) = true) :
    ∀ m ∈ c.line, (ledger c.history).place m.uid = none ∨ m.confirmed = true := by
  intro m mem
  obtain ⟨mem, numbered⟩ := List.mem_filter.mp mem
  obtain ⟨m', mem', rfl⟩ := List.mem_map.mp mem
  exact free_of_not_awaits numbered (List.all_eq_true.mp h m' mem')

theorem line_indifferent (ok : a.Indifferent) (step : inStep t a c = true)
    (h : c.act t a = .ok r c') (line : Line (ledger c.history) c.line) :
    Line (ledger c.history) c'.line ∧
      c'.line.countP (!·.confirmed) ≤ c.line.countP (!·.confirmed) := by
  have cores := Client.act_core h (by rintro rfl; exact ok) (by rintro p rfl; exact ok)
  have free := free_of_none_awaits (c := c)
  unfold Client.line at line free ⊢
  rw [cores]
  unfold Client.coresAfter
  split
  · -- the first message leaves the queue
    cases queue : c.sendingQueue with
    | nil => exact ⟨by simpa [queue] using line, by simp⟩
    | cons m rest =>
      rw [queue] at line
      simp only [inStep, queue, List.head?_cons, Option.all_some] at step
      by_cases numbered : m.numbered = true
      · have first : m.core.numbered = true := numbered
        simp only [List.map_cons, List.filter_cons, first, if_true] at line ⊢
        refine ⟨line.pop (free_of_not_awaits numbered step), ?_⟩
        simp only [List.tail_cons, List.countP_cons]
        exact Nat.le_add_right _ _
      · have other : m.core.numbered = false := Bool.eq_false_iff.mpr numbered
        simpa [other] using line
  · -- all messages leave the queue
    exact ⟨.empty (line.before (free step)), by simp⟩
  · exact ok.elim
  · exact ok.elim
  · exact ⟨line, Nat.le_refl _⟩

theorem tallied_indifferent (hc : Tallied c) (ok : a.Indifferent) (step : inStep t a c = true)
    (h : c.act t a = .ok r c') : Tallied c' ∧ ledger c'.history = ledger c.history := by
  obtain ⟨same, left, queued, before⟩ := history_indifferent ok h
  obtain ⟨line, fewer⟩ := line_indifferent ok step h hc.line
  refine ⟨⟨?_, hc.registered.of_place (congrArg Ledger.place same) before, ?_,
    ready_indifferent ok h hc.ready, ?_⟩, same⟩
  · apply hc.identified.act h
    rintro m rfl
    cases ok
  · rw [same]
    exact line
  · rw [same, left, queued]
    have bound := hc.bound
    omega

/-- A message is added at the end of the line. -/
theorem tallied_addMessage {buffer : Scratch} {flags : MsgFlags} {type : UInt8} {r : Unit}
    (hc : Tallied c)
    (ready : flags ≠ .msgFlagConfirm ∧ flags ≠ .msgFlagNokReply)
    (long : 3 ≤ (c.scratch buffer).used)
    (h : c.act t (.queueAddMessage buffer flags type) = .ok r c') :
    Tallied c' ∧ ledger c'.history = ledger c.history := by
  have identified := hc.identified.act h nofun
  have history : c'.history = .queued (c.newMessage buffer flags type) :: c.history :=
    Client.act_history h
  have same : ledger c'.history = ledger c.history := by rw [history]; rfl
  have left : skipped c'.history = skipped c.history := by rw [history]; rfl
  have unsent : (ledger c.history).place (c.newMessage buffer flags type).core.uid = none := by
    rw [place_eq_none]
    intro mem
    obtain ⟨m, transmitted, -, uid⟩ := mem_issued.mp mem
    have old := hc.identified.old m transmitted
    rw [uid] at old
    exact Nat.lt_irrefl _ old
  have cores := Client.act_core h nofun nofun
  have line : c'.line = c.line ++
      [(c.newMessage buffer flags type).core].filter Message.numbered := by
    simp only [Client.line, cores, Client.coresAfter, List.filter_append]
  refine ⟨⟨identified, hc.registered.of_place (congrArg Ledger.place same) fun m mem => ?_, ?_, ?_,
    ?_⟩, same⟩
  · rw [history] at mem
    simpa using mem
  · rw [line, same]
    by_cases numbered : (c.newMessage buffer flags type).core.numbered = true
    · rw [List.filter_singleton, numbered]
      exact hc.line.append unsent rfl
    · rw [List.filter_singleton, Bool.eq_false_iff.mpr numbered]
      simpa using hc.line
  · intro m mem numbered
    rw [Client.act_queue h] at mem
    rcases List.mem_append.mp mem with before | new
    · exact hc.ready m before numbered
    · rw [List.mem_singleton.mp new]
      refine ⟨ready, ?_⟩
      simpa [Client.newMessage, createMessage, bufferCopy, Buffer.bytes] using long
  · have bound := hc.bound
    rw [line, same, left, history]
    have kind : (c.newMessage buffer flags type).core.numbered =
        (c.newMessage buffer flags type).numbered := rfl
    simp only [queuedNumbered, List.countP_cons, List.countP_append, Event.queuesNumbered,
      List.filter_singleton, kind] at bound ⊢
    by_cases numbered : (c.newMessage buffer flags type).numbered = true
    · have one : List.countP (!·.confirmed) [(c.newMessage buffer flags type).core] = 1 := rfl
      simp only [numbered, cond_true, if_true, one]
      omega
    · simp only [Bool.eq_false_iff.mpr numbered, cond_false, List.countP_nil]
      omega

/-- A CONFIRM is put in front of the queue and takes no place in the line. -/
theorem tallied_addPriority {buffer : Scratch} {flags : MsgFlags} {r : Unit} (hc : Tallied c)
    (h : c.act t (.queueAddMessagePriority buffer flags MsgType.msgConf.toUChar) = .ok r c') :
    Tallied c' ∧ ledger c'.history = ledger c.history := by
  have identified := hc.identified.act h nofun
  have history : c'.history =
      .queued (c.newMessage buffer flags MsgType.msgConf.toUChar) :: c.history :=
    Client.act_history h
  have same : ledger c'.history = ledger c.history := by rw [history]; rfl
  have cores := Client.act_core h nofun nofun
  have line : c'.line = c.line := by
    simp only [Client.line, cores]
    rfl
  refine ⟨⟨identified, hc.registered.of_place (congrArg Ledger.place same) fun m mem => ?_, ?_, ?_,
    ?_⟩, same⟩
  · rw [history] at mem
    simpa using mem
  · rw [line, same]
    exact hc.line
  · intro m mem numbered
    rw [Client.act_queue h] at mem
    rcases List.mem_cons.mp mem with rfl | before
    · cases numbered
    · exact hc.ready m before numbered
  · rw [line, history]
    exact hc.bound

/-! ## Sending -/

theorem line_cons {m : Message} {rest : MessageQueue} (queue : c.sendingQueue = m :: rest)
    (numbered : m.numbered = true) :
    c.line = m.core :: (rest.map Message.core).filter Message.numbered := by
  have first : m.core.numbered = true := numbered
  simp [Client.line, queue, first]

theorem line_skip {m : Message} {rest : MessageQueue} (queue : c.sendingQueue = m :: rest)
    (other : ¬m.numbered = true) :
    c.line = (rest.map Message.core).filter Message.numbered := by
  have first : m.core.numbered = false := Bool.eq_false_iff.mpr other
  simp [Client.line, queue, first]

/-- Between the label and `sendto`: the message at the head has the next ID. -/
structure Labelled (m : Message) (c : Client) : Prop extends Numbered c where
  head : ∃ m' rest, c.sendingQueue = m' :: rest ∧ m'.uid = m.uid ∧
    (m'.numbered = true → m'.confirmed = false ∧ m'.Carries (idNumber (ledger c.history).next))

theorem labelled_setMessageID {m : Message} {rest : MessageQueue} {r : Unit} (hc : Numbered c)
    (queue : c.sendingQueue = m :: rest) (step : inStep t .queueSetMessageID c = true)
    (h : c.act t .queueSetMessageID = .ok r c') : Labelled m c' := by
  have identified := hc.identified.act h nofun
  have history : c'.history = c.history := Client.act_history h
  have counter : c'.comDetails.msgCounter = idNumber (ledger c'.history).next := by
    rw [Client.act_msgCounter h nofun nofun, history]
    exact hc.counter
  have registered := hc.registered
  rw [← history] at registered
  have after := Client.act_queue h
  simp only [Client.queueAfter, queue, MessageQueue.setMessageID] at after
  have behind : ∀ x ∈ rest, x.numbered = true → x.Ready :=
    fun x mem => hc.ready x (queue ▸ List.mem_cons_of_mem _ mem)
  by_cases numbered : m.numbered = true
  · have ready := hc.ready m (queue ▸ List.mem_cons_self) numbered
    have unconfirmed : m.confirmed = false := by simpa [inStep, queue, numbered] using step
    rw [if_pos ready.flags, hc.counter] at after
    have labelled : (m.setMsgID (idNumber (ledger c.history).next)).numbered = true := numbered
    have before := hc.line
    rw [line_cons queue numbered] at before
    have line := before.setMsgID unconfirmed ready.long
    have bound := hc.bound
    rw [line_cons queue numbered] at bound
    refine ⟨⟨⟨identified, registered, ?_, ?_, ?_⟩, counter⟩, ?_⟩
    · rw [line_cons after labelled, history]
      exact line
    · rw [after]
      intro x mem numbered
      rcases List.mem_cons.mp mem with rfl | tail
      · exact ⟨ready.flags, by simpa [Message.setMsgID] using ready.long⟩
      · exact behind x tail numbered
    · rw [line_cons after labelled, history]
      exact bound
    · rw [history]
      exact ⟨_, rest, after, rfl, fun _ => ⟨unconfirmed, Message.carries_setMsgID ready.long⟩⟩
  · obtain ⟨m', eq, uid, type⟩ : ∃ m', c'.sendingQueue = m' :: rest ∧ m'.uid = m.uid ∧
        m'.type = m.type := by
      split at after
      · exact ⟨_, after, rfl, rfl⟩
      · exact ⟨m, after, rfl, rfl⟩
    have other : ¬m'.numbered = true := by simpa only [Message.numbered, type] using numbered
    have line : c'.line = c.line := (line_skip eq other).trans (line_skip queue numbered).symm
    refine ⟨⟨⟨identified, registered, ?_, ?_, ?_⟩, counter⟩, m', rest, eq, uid,
      fun h => absurd h other⟩
    · rw [line, history]
      exact hc.line
    · rw [eq]
      intro x mem numbered
      rcases List.mem_cons.mp mem with rfl | tail
      · exact absurd numbered other
      · exact behind x tail numbered
    · rw [line, history]
      exact hc.bound

theorem numbered_sendto {m : Message} {r : Unit} (hc : Labelled m c)
    (h : c.act t (.sendto (some m.uid)) = .ok r c') : Numbered c' := by
  have identified := hc.identified.act h (by rintro _ ⟨⟩)
  obtain ⟨m', rest, queue, uid, labelled⟩ := hc.head
  have deref : c.sendingQueue.deref (some m.uid) = some m' := by
    simp [queue, MessageQueue.deref, uid]
  have history : c'.history = .transmitted m' :: c.history := by
    rw [Client.act_history h]
    simp [Client.emitted, deref]
  have queue' : c'.sendingQueue = c.sendingQueue := Client.act_queue h
  have line : c'.line = c.line := by rw [Client.line, queue', Client.line]
  have queued : queuedNumbered c'.history = queuedNumbered c.history := by rw [history]; rfl
  have left : skipped c'.history = skipped c.history := by rw [history]; rfl
  have next : (ledger c'.history).next = (ledger c.history).next := by
    rw [history]
    simp only [ledger, Ledger.record]
    split <;> rfl
  have counter : c'.comDetails.msgCounter = idNumber (ledger c'.history).next := by
    rw [Client.act_msgCounter h (by rintro ⟨⟩) (by rintro _ ⟨⟩), next]
    exact hc.counter
  have ready : ∀ m ∈ c'.sendingQueue, m.numbered = true → m.Ready := queue' ▸ hc.ready
  have bound : (ledger c'.history).next + c'.line.countP (!·.confirmed) ≤
      queuedNumbered c'.history + skipped c'.history := by
    rw [next, line, queued, left]
    exact hc.bound
  by_cases new : m'.numbered = true ∧ (ledger c.history).place m'.uid = none
  · -- the message takes the place of the counter
    obtain ⟨unconfirmed, label⟩ := labelled new.1
    have first := hc.line
    rw [line_cons queue new.1] at first
    have before := first.before_of_unsent (by exact new.2)
    have same : ledger c'.history = (ledger c.history).give m'.uid := by
      rw [history]
      exact if_pos new
    have distinct := hc.identified.distinct
    rw [queue, MessageQueue.uids, List.map_cons, List.nodup_cons] at distinct
    have others : ∀ x ∈ (rest.map Message.core).filter Message.numbered, x.uid ≠ m'.core.uid := by
      intro x mem eq
      obtain ⟨x', mem', rfl⟩ := List.mem_map.mp (List.mem_filter.mp mem).1
      exact distinct.1 (eq ▸ List.mem_map_of_mem (f := (·.uid)) mem')
    refine ⟨⟨identified, ?_, ?_, ready, bound⟩, counter⟩
    · rw [history]
      exact hc.registered.first new.1 new.2 before label
    · rw [line, line_cons queue new.1, same]
      exact first.transmit new.2 others label
  · have known (numbered : m'.numbered = true) :
        ∃ n, (ledger c.history).place m'.uid = some n ∧ m'.Carries (idNumber n) := by
      obtain ⟨unconfirmed, label⟩ := labelled numbered
      have first := hc.line
      rw [line_cons queue numbered] at first
      exact ⟨_, first.place_of_sent unconfirmed fun unsent => new ⟨numbered, unsent⟩, label⟩
    obtain ⟨same, registered⟩ := hc.registered.again known
    rw [← history] at same registered
    refine ⟨⟨identified, registered, ?_, ready, bound⟩, counter⟩
    rw [line, same]
    exact hc.line

/-! ## A CONFIRM -/

theorem tallied_setConfirmed {m : Message} {rest : MessageQueue} {r : Unit} {msgID : Nat}
    (hc : Numbered c) (queue : c.sendingQueue = m :: rest)
    (step : inStep t (.setConfirmed (some m.uid)) c = true)
    (received : msgID = convert2BytesToU16Int (c.serverResponse.mem 1) (c.serverResponse.mem 2))
    (h : c.act t (.setConfirmed (some m.uid)) = .ok r c') :
    Tallied c' ∧ idNumber (ledger c'.history).next = (msgID + 1) % 65536 := by
  have identified := hc.identified.act h nofun
  have deref : c.sendingQueue.deref (some m.uid) = some m := by simp [queue, MessageQueue.deref]
  have history : c'.history =
      .confirmed m (c.serverResponse.mem 1) (c.serverResponse.mem 2) :: c.history := by
    rw [Client.act_history h]
    simp [Client.emitted, deref]
  simp only [inStep, deref, Option.all_some, Bool.and_eq_true, decide_eq_true_eq, beq_iff_eq]
    at step
  obtain ⟨⟨numbered, mem⟩, low, high⟩ := step
  have sent : (ledger c.history).place m.uid ≠ none := fun unsent => place_eq_none.mp unsent mem
  -- the other messages have other identities
  have distinct := hc.identified.distinct
  rw [queue, MessageQueue.uids, List.map_cons, List.nodup_cons] at distinct
  have after : c'.sendingQueue = { m with confirmed := true } :: rest := by
    rw [Client.act_queue h]
    simp only [Client.queueAfter, MessageQueue.confirm, queue, List.map_cons, if_true]
    congr 1
    conv_rhs => rw [← List.map_id rest]
    apply List.map_congr_left
    intro x tail
    apply if_neg
    intro eq
    exact distinct.1 (Option.some.inj eq ▸ List.mem_map_of_mem (f := (·.uid)) tail)
  have marked : { m with confirmed := true : Message }.numbered = true := numbered
  have first := hc.line
  rw [line_cons queue numbered] at first
  obtain ⟨n, place, label, reached, line⟩ := first.confirm (by exact sent)
  have place : (ledger c.history).place m.uid = some n := place
  have same : ledger c'.history = { ledger c.history with next := n + 1 } := by
    rw [history, ledger, Ledger.record, place, Option.getD_some]
  refine ⟨⟨identified, hc.registered.of_place (by rw [same]) fun x mem => ?_, ?_, ?_, ?_⟩, ?_⟩
  · rw [history] at mem
    simpa using mem
  · rw [line_cons after marked, same]
    exact line
  · rw [after]
    intro x mem numbered
    rcases List.mem_cons.mp mem with rfl | tail
    · have ready := hc.ready m (queue ▸ List.mem_cons_self) numbered
      exact ⟨ready.flags, ready.long⟩
    · exact hc.ready x (queue ▸ List.mem_cons_of_mem _ tail) numbered
  · have bound := hc.bound
    have queued : queuedNumbered c'.history = queuedNumbered c.history := by rw [history]; rfl
    have left : skipped c'.history = skipped c.history := by rw [history]; rfl
    rw [line_cons queue numbered] at bound
    rw [line_cons after marked, same, queued, left]
    simp only [List.countP_cons, Message.core] at bound reached ⊢
    cases confirmed : m.confirmed <;> simp [confirmed] at bound reached ⊢ <;> omega
  · have number : msgID = m.msgID := by rw [received, Message.msgID, low, high]
    have next : (m.msgID + 1) % 65536 = nextId (idNumber n) := label.msgID_succ
    rw [number, next, same]
    rfl

/-! ## A REPLY -/

/-- The number that a REPLY sets is so many steps ahead. -/
theorem idNumber_skip {l : Ledger} {msgID : Nat}
    (ahead : idPlace (idNumber l.next) ≤ idPlace ((msgID + 1) % 65536)) :
    idNumber (l.next + l.skip msgID) = (msgID + 1) % 65536 := by
  have place : (l.next + l.skip msgID) % 65536 = idPlace ((msgID + 1) % 65536) := by
    have here := idPlace_idNumber l.next
    have small := idPlace_lt ((msgID + 1) % 65536)
    unfold Ledger.skip
    omega
  rw [← idNumber_mod, place, idNumber_idPlace (Nat.mod_lt _ (by decide))]

theorem tallied_replyCounter {msgID : Nat} {r : Unit} (hc : Numbered c)
    (step : inStep t (.note (.replyCounter msgID)) c = true)
    (h : c.act t (.note (.replyCounter msgID)) = .ok r c') :
    Tallied c' ∧ idNumber (ledger c'.history).next = (msgID + 1) % 65536 := by
  have identified := hc.identified.act h nofun
  cases h
  simp only [inStep, Bool.or_eq_true, beq_iff_eq, Bool.and_eq_true, decide_eq_true_eq] at step
  rw [hc.counter] at step
  have ahead : idPlace (idNumber (ledger c.history).next) ≤ idPlace ((msgID + 1) % 65536) := by
    rcases step with same | ⟨later, -⟩
    · exact Nat.le_of_eq (congrArg idPlace same.symm)
    · exact Nat.le_of_lt later
  have line : Line { ledger c.history with
      next := (ledger c.history).next + (ledger c.history).skip msgID } c.line := by
    rcases step with same | ⟨-, free⟩
    · have none : (ledger c.history).skip msgID = 0 := by
        unfold Ledger.skip
        rw [same, Nat.sub_self]
      rw [none]
      exact hc.line
    · exact hc.line.skip _ (free_of_none_awaits free)
  have bound := hc.bound
  refine ⟨⟨identified, hc.registered.of_place rfl fun m mem => ?_, line, hc.ready, ?_⟩,
    idNumber_skip ahead⟩
  · simpa [Client.log] using mem
  · change (ledger c.history).next + (ledger c.history).skip msgID + c.line.countP _ ≤
      queuedNumbered c.history + (skipped c.history + (ledger c.history).skip msgID)
    omega

end

/-! ## Runs -/

/-- The actions that keep the invariant one by one. -/
def Act.InLine : Act → Prop
  | .queueAddMessagePriority _ _ type => type = MsgType.msgConf.toUChar
  | .setMsgCounter _ | .addMsgCounter => False
  | a => a.Indifferent

/-- The actions that keep it as long as `buffer` holds a message. -/
def Act.InLineWith (buffer : Scratch) : Act → Prop
  | .queueAddMessage other flags _ =>
    other = buffer ∧ flags ≠ .msgFlagConfirm ∧ flags ≠ .msgFlagNokReply
  | .bufferResize .. | .assembleProtocol .. => False
  | a => a.InLine

section
variable {cfg : NetworkConfig} {t : Thread}

/-- The actions of the runs in step. -/
abbrev stepwise (cfg : NetworkConfig) : Thread → (a : Act) → Client → Effect a.Answer Client :=
  ((machine cfg).restrict inStep).perform

theorem stepwise_ok {c c' : Client} {a : Act} {r : a.Answer} (h : stepwise cfg t a c = .ok r c') :
    inStep t a c = true ∧ c.status = .running ∧ c.act t a = .ok r c' := by
  simp only [stepwise, Machine.restrict] at h
  split at h
  · exact ⟨‹_›, Client.perform_ok h⟩
  · cases h

theorem numbered_inLine {c c' : Client} {a : Act} {r : a.Answer} (ok : a.InLine) (hc : Numbered c)
    (h : stepwise cfg t a c = .ok r c') : Numbered c' := by
  obtain ⟨step, -, act⟩ := stepwise_ok h
  have counted : a ≠ .addMsgCounter ∧ ∀ value, a ≠ .setMsgCounter value :=
    ⟨by rintro rfl; exact ok, by rintro value rfl; exact ok⟩
  have tallied : Tallied c' ∧ ledger c'.history = ledger c.history := by
    by_cases indifferent : a.Indifferent
    · exact tallied_indifferent hc.toTallied indifferent step act
    · cases a <;> try exact absurd ok indifferent
      case queueAddMessagePriority buffer flags type =>
        obtain rfl : type = _ := ok
        exact tallied_addPriority hc.toTallied act
      case setMsgCounter value => exact ok.elim
      case addMsgCounter => exact ok.elim
  refine ⟨tallied.1, ?_⟩
  rw [Client.act_msgCounter act counted.1 counted.2, tallied.2]
  exact hc.counter

theorem kept_numbered (cfg : NetworkConfig) : Kept (stepwise cfg) Act.InLine Numbered where
  honest := honest_restrict cfg inStep
  plain a h := by
    cases a <;> simp_all [Act.Plain, Act.InLine, Act.Indifferent]
    rcases h with rfl | rfl | rfl | ⟨state, rfl⟩ <;> rfl
  step ok hc h := numbered_inLine ok hc h
  ended _ _ hc := ⟨⟨⟨hc.identified.fresh, hc.identified.distinct, hc.identified.old⟩,
    hc.registered, hc.line, hc.ready, hc.bound⟩, hc.counter⟩

/-- With a message in the buffer. -/
def Filled (buffer : Scratch) (c : Client) : Prop := Numbered c ∧ 3 ≤ (c.scratch buffer).used

theorem kept_filled (cfg : NetworkConfig) (buffer : Scratch) :
    Kept (stepwise cfg) (Act.InLineWith buffer) (Filled buffer) where
  honest := honest_restrict cfg inStep
  plain a h := by
    have inLine := (kept_numbered cfg).plain a h
    cases a <;> first | exact h.elim | exact inLine
  step := by
    intro t a c c' r ok hc h
    obtain ⟨-, -, act⟩ := stepwise_ok h
    have scratch : c'.scratch buffer = c.scratch buffer :=
      Client.act_scratch act (by rintro n rfl; exact ok) (by rintro n p rfl; exact ok)
    refine ⟨?_, by rw [scratch]; exact hc.2⟩
    by_cases inLine : a.InLine
    · exact numbered_inLine inLine hc.1 h
    · cases a <;> try exact absurd ok inLine
      case queueAddMessage other flags type =>
        obtain ⟨rfl, ready⟩ := ok
        obtain ⟨tallied, count⟩ := tallied_addMessage hc.1.toTallied ready hc.2 act
        refine ⟨tallied, ?_⟩
        rw [Client.act_msgCounter act nofun nofun, count]
        exact hc.1.counter
      case bufferResize => exact ok.elim
      case assembleProtocol => exact ok.elim
  ended c status hc := ⟨(kept_numbered cfg).ended c status hc.1, hc.2⟩

/-- A message has its type and its ID at least. -/
theorem assembleProtocolUDP_long {fresh : Memory} {pBlocks : ProtocolBlocks} {buffer : Buffer}
    {com : CommunicationDetails} {r : Assembled}
    (h : assembleProtocolUDP fresh pBlocks buffer com = .ok r) (complete : r.canBeSended = true) :
    3 ≤ r.buffer.used := by
  simp only [assembleProtocolUDP] at h
  split at h <;> (try split at h) <;> cases h <;>
    first
    | dsimp only [Assembled.complete, headerUDP, Cursor.addBlock, Cursor.addZeroByte,
        Cursor.addStoredInfo]
      omega
    | exact Bool.noConfusion complete

/-- The rule for a message that is assembled: if that succeeded, the rest may add it. -/
theorem keeps_assemble {α : Type} (buffer : Scratch) (pBlocks : ProtocolBlocks)
    {f : Except Failure Assembled → Prog α}
    (complete : ∀ r, r.canBeSended = true → (f (.ok r)).Keeps (stepwise cfg t) (Filled buffer))
    (incomplete : ∀ fresh stored com result, assembleProtocolUDP fresh pBlocks stored com = result →
      (∀ r, result = .ok r → r.canBeSended = false) → (f result).Keeps (stepwise cfg t) Numbered) :
    (assembleProtocol .protUDP buffer pBlocks >>= f).Keeps (stepwise cfg t) Numbered := by
  have kept := kept_numbered cfg
  apply Program.keeps_of_leads
  refine leads_take (fun (result : Except Failure Assembled) c => Numbered c ∧
    ∃ fresh stored com, result = assembleProtocolUDP fresh pBlocks stored com ∧
      ∀ r, result = .ok r → r.canBeSended = true → 3 ≤ (c.scratch buffer).used) ?_ ?_
  · intro c hc
    refine ⟨fun result c' h => ?_, fun c' h => kept.halted hc h, fun _ => hc⟩
    refine ⟨kept.step (a := .assembleProtocol .protUDP buffer pBlocks) trivial hc h, c.fresh,
      c.scratch buffer, c.comDetails, ?_⟩
    have act := (stepwise_ok h).2.2
    simp only [Client.act, assemble] at act
    generalize run : assembleProtocolUDP c.fresh pBlocks (c.scratch buffer) c.comDetails = answer
      at act
    cases answer with
    | error failure =>
      cases act
      exact ⟨rfl, fun r eq => by cases eq⟩
    | ok assembled =>
      cases act
      refine ⟨rfl, fun r eq sendable => ?_⟩
      cases eq
      simpa [Client.setScratch] using assembleProtocolUDP_long run sendable
  · intro result
    by_cases sendable : ∃ r, result = .ok r ∧ r.canBeSended = true
    · obtain ⟨r, rfl, sendable⟩ := sendable
      refine Program.leads_mono (Program.leads_of_keeps (complete r sendable)) ?_
        (fun _ _ hc => hc.1) fun _ hc => hc.1
      rintro c ⟨hc, fresh, stored, com, -, long⟩
      exact ⟨hc, long r rfl sendable⟩
    · intro c hc
      obtain ⟨hc, fresh, stored, com, eq, -⟩ := hc
      refine Program.leads_of_keeps (incomplete fresh stored com result eq.symm fun r eq => ?_) c hc
      exact Bool.eq_false_iff.mpr fun yes => sendable ⟨r, eq, yes⟩

theorem sendBye_numbered (udp : cfg.protocol = .protUDP) :
    (sendBye cfg).Keeps (stepwise cfg t) Numbered := by
  have rules := (kept_numbered cfg).rules t
  have filled := (kept_filled cfg .protocolToSendedByMain).rules t
  unfold sendBye
  rw [udp]
  refine take_bind rules ((kept_numbered cfg).plain _ trivial) fun _ _ => ?_
  apply keeps_assemble
  · intro r _
    refine take_bind filled ⟨rfl, by decide⟩ fun _ _ => ?_
    exact take_only filled ((kept_filled cfg _).plain _ trivial)
  · -- a BYE can always be assembled
    intro fresh stored com result assembled refused
    exact Bool.noConfusion (refused _ assembled.symm)

theorem sendError_numbered (udp : cfg.protocol = .protUDP) (buffer : Scratch) (text : String) :
    (sendError cfg buffer text).Keeps (stepwise cfg t) Numbered := by
  have kept := kept_numbered cfg
  have rules := kept.rules t
  have filled := (kept_filled cfg buffer).rules t
  have bye : (sendBye cfg).Keeps (stepwise cfg t) Numbered := sendBye_numbered udp
  unfold sendError
  refine take_bind rules (kept.plain _ trivial) fun comDetails _ => ?_
  refine take_bind rules trivial fun _ _ => ?_
  simp only [udp]
  apply keeps_assemble
  · intro r complete
    refine take_bind filled ((kept_filled cfg _).plain _ trivial) fun _ _ => ?_
    rw [if_pos complete]
    refine take_bind filled ⟨rfl, by decide⟩ fun _ _ => ?_
    exact take_only filled ((kept_filled cfg _).plain _ trivial)
  · intro fresh stored com result _ refused
    cases result with
    | error f => exact errHandling_obeys rules kept.calm bye f
    | ok r =>
      refine take_bind rules (kept.plain _ trivial) fun _ _ => ?_
      rw [if_neg (by simp [refused r rfl])]
      exact errHandling_obeys rules kept.calm bye _

theorem assembleCommand_numbered (udp : cfg.protocol = .protUDP) (pBlocks : ProtocolBlocks)
    {flags : MsgFlags} (plain : CommandFlags pBlocks flags) :
    (assembleCommand cfg pBlocks flags).Keeps (stepwise cfg t) Numbered := by
  have kept := kept_numbered cfg
  have filled := kept_filled cfg .protocolToSendedByMain
  unfold assembleCommand
  rw [udp]
  apply keeps_assemble
  · intro r complete
    simp only [complete, if_true]
    refine enqueueCommand_obeys (filled.rules t) filled.calm _ _ ⟨rfl, ?_⟩
    rcases plain with rfl | ⟨rfl, -⟩ <;> decide
  · intro fresh stored com result _ refused
    cases result with
    | error f => exact errHandling_obeys (kept.rules t) kept.calm (sendBye_numbered udp) f
    | ok r =>
      simp only [refused r rfl, Bool.false_eq_true, if_false]
      exact (kept.rules t).ret _

/-- The counter is on its way to the number that was read. -/
structure Counting (msgID : Nat) (c : Client) : Prop extends Tallied c where
  next : idNumber (ledger c.history).next = (msgID + 1) % 65536
  running : c.status = .running

theorem setMsgCounter_numbered (cfg : NetworkConfig) (t : Thread) {msgID : Nat} {c : Client}
    (hc : Counting msgID c) :
    ∃ c', stepwise cfg t (.setMsgCounter (msgID + 1)) c = .ok () c' ∧ Numbered c' ∧
      c'.serverResponse = c.serverResponse := by
  have sets : stepwise cfg t (.setMsgCounter (msgID + 1)) c =
      .ok () { c with comDetails :=
        { c.comDetails with msgCounter := (msgID + 1) % 65536 } } := by
    simp [stepwise, Machine.restrict, inStep, machine, Client.perform, hc.running, Client.act]
  obtain ⟨step, -, act⟩ := stepwise_ok sets
  obtain ⟨tallied, -⟩ := tallied_indifferent hc.toTallied (a := .setMsgCounter (msgID + 1))
    trivial step act
  exact ⟨_, sets, ⟨tallied, hc.next.symm⟩, rfl⟩

/-- The counter stays or is moved on. -/
theorem replyCounter_numbered (msgID : Nat) :
    (note (.replyCounter msgID) >>= fun _ => setMsgCounter (msgID + 1)).Keeps (stepwise cfg t)
      Numbered := by
  have kept := kept_numbered cfg
  apply Program.keeps_of_leads
  refine leads_take (fun _ => Counting msgID) ?_ ?_
  · intro c hc
    refine ⟨fun r c' h => ?_, fun c' h => kept.halted hc h, fun _ => hc⟩
    obtain ⟨step, running, act⟩ := stepwise_ok h
    obtain ⟨tallied, next⟩ := tallied_replyCounter hc step act
    exact ⟨tallied, next, (Client.act_status act).trans running⟩
  · intro _
    refine Program.leads_act (fun _ => Numbered) ?_ fun _ => Program.leads_ret fun _ hc => hc
    intro c hc
    obtain ⟨c', sets, numbered, -⟩ := setMsgCounter_numbered cfg t hc
    refine ⟨fun r c₂ h => ?_, fun c₂ h => ?_, fun h => ?_⟩ <;> rw [sets] at h <;> cases h
    exact numbered

theorem pieces_numbered (udp : cfg.protocol = .protUDP) (t : Thread) :
    Pieces cfg fun {α} (p : Prog α) => p.Keeps (stepwise cfg t) Numbered := by
  have kept := kept_numbered cfg
  constructor
  · exact sendBye_numbered udp
  · apply sendConfirm_obeys (kept.rules t) kept.calm _ (sendBye_numbered udp) fun _ _ h => h
    intro a making other
    cases a <;> try exact making.elim
    case queueAddMessage buffer flags type => exact absurd rfl (other buffer flags type)
    case queueAddMessagePriority buffer flags type => exact making.2
    case bufferResize => trivial
    case assembleProtocol => trivial
  · intro buffer _ text
    exact sendError_numbered udp buffer text
  · apply sendHead_keeps udp kept (sendBye_numbered udp) Labelled fun _ => True
    · intro c m rest hc queue r c' h
      obtain ⟨step, -, act⟩ := stepwise_ok h
      exact labelled_setMessageID hc queue step act
    · intro c m hc
      refine ⟨fun r c' h => ⟨numbered_sendto hc (stepwise_ok h).2.2, trivial⟩, fun c' h => ?_,
        fun _ => ?_⟩
      · exact kept.halted hc.toNumbered h
      · exact hc.toNumbered
    · intro c hc _ r c' h
      exact kept.step (a := .queueMessageSended) trivial hc h
  · exact replyCounter_numbered

theorem handleConfirmUDP_numbered {serverResponse : Buffer} {d : Disassembled}
    (decoded : disassebleProtocolUDP serverResponse = .ok d) :
    (handleConfirmUDP d.msgId).Keeps (stepwise cfg t)
      fun c => Numbered c ∧ c.serverResponse = serverResponse := by
  apply handleConfirmUDP_keeps ((kept_numbered cfg).handling serverResponse) fun c =>
    Counting d.msgId c ∧ c.serverResponse = serverResponse
  · intro c m rest hc queue _ r c' h
    obtain ⟨step, running, act⟩ := stepwise_ok h
    have received := disassebleProtocolUDP_msgId decoded
    rw [← hc.2] at received
    obtain ⟨tallied, next⟩ := tallied_setConfirmed hc.1 queue step received act
    exact ⟨⟨tallied, next, (Client.act_status act).trans running⟩,
      (Client.act_serverResponse act nofun).trans hc.2⟩
  · rintro c ⟨counting, same⟩
    obtain ⟨c', sets, numbered, kept⟩ := setMsgCounter_numbered cfg t counting
    refine ⟨fun r c₂ h => ?_, fun h => ?_⟩ <;> rw [sets] at h <;> cases h
    exact ⟨numbered, kept.trans same⟩

theorem numbered_of_passed (udp : cfg.protocol = .protUDP) {heap : Nat → Memory}
    {ipAddress : Buffer} {s : Passes Thread Client Point}
    (passed : ((machine cfg).restrict inStep).Passed
      (initialPasses (programInterfaceInit heap ipAddress)) s) : Numbered s.shared := by
  apply Machine.invariant_of_keeps Numbered (m := (machine cfg).restrict inStep) _ passed
  · exact ⟨⟨⟨nofun, List.nodup_nil, nofun⟩, ⟨nofun, nofun⟩, .empty nofun, nofun,
      Nat.le_refl _⟩, rfl⟩
  · intro t p q start
    refine starts_keep udp (kept_numbered cfg) (fun _ => trivial) (pieces_numbered udp) ?_ ?_ start
    · intro serverResponse d decoded
      exact handleConfirmUDP_numbered decoded
    · intro pBlocks flags _ plain
      exact assembleCommand_numbered udp pBlocks plain

end

/-- The places are no more than the messages that were queued and the values left out. -/
theorem Tallied.place_lt {c : Client} (hc : Tallied c) {uid n : Nat}
    (place : (ledger c.history).place uid = some n) :
    n < queuedNumbered c.history + skipped c.history := by
  have bound := hc.bound
  have line := hc.line
  generalize c.line = queue at line bound
  cases line with
  | empty before =>
    have behind := before uid n place not_false
    omega
  | waiting before =>
    have behind := before uid n place not_false
    omega
  | @pending m _ before here unconfirmed =>
    simp only [List.countP_cons, unconfirmed, Bool.not_false, if_true] at bound
    by_cases same : uid = m.uid
    · rw [same, here] at place
      have last := Option.some.inj place
      omega
    · have behind := before uid n place same
      omega
  | finished before here left =>
    have behind := Line.before_of_finished before here left uid n place not_false
    omega

/-- **One ID for each message.** In every run whose steps keep to the line, and with
fewer than 65536 numbered messages and values left out, two transmissions carry the same
ID if and only if they are transmissions of the same message. -/
theorem sameId_iff {cfg : NetworkConfig} (udp : cfg.protocol = .protUDP) {heap : Nat → Memory}
    {ipAddress : Buffer} {s : Passes Thread Client Point}
    (passed : ((machine cfg).restrict inStep).Passed
      (initialPasses (programInterfaceInit heap ipAddress)) s)
    (few : queuedNumbered s.shared.history + skipped s.shared.history < 65536) {m m' : Message}
    (sent : .transmitted m ∈ s.shared.history) (sent' : .transmitted m' ∈ s.shared.history)
    (numbered : m.numbered = true) (numbered' : m'.numbered = true) :
    m.lowMsgIdByte = m'.lowMsgIdByte ∧ m.highMsgIdByte = m'.highMsgIdByte ↔ m.uid = m'.uid := by
  have inv := numbered_of_passed udp passed
  obtain ⟨n, place, label⟩ := inv.registered.sent m sent numbered
  obtain ⟨n', place', label'⟩ := inv.registered.sent m' sent' numbered'
  constructor
  · rintro ⟨low, high⟩
    have ids := label.eq_of_bytes label' (idNumber_lt _) (idNumber_lt _) low high
    obtain rfl := idNumber_inj ((inv.place_lt place).trans few) ((inv.place_lt place').trans few)
      ids
    exact inv.registered.own _ _ _ place place'
  · intro same
    rw [same, place'] at place
    obtain rfl := Option.some.inj place
    have bytes := label.trans label'.symm
    simp only [Prod.mk.injEq] at bytes
    exact ⟨bytes.2, bytes.1⟩

/-- Two transmissions in the history that are related by `good`. -/
def twoTransmissions (good : Message → Message → Bool) (history : List Event) : Bool :=
  history.any fun
    | .transmitted m => history.any fun
      | .transmitted m' => good m m'
      | _ => false
    | _ => false

theorem exists_transmissions {good : Message → Message → Bool} {history : List Event}
    (h : twoTransmissions good history = true) :
    ∃ m m', .transmitted m ∈ history ∧ .transmitted m' ∈ history ∧ good m m' = true := by
  obtain ⟨e, mem, rest⟩ := List.any_eq_true.mp h
  cases e with
  | transmitted m =>
    obtain ⟨e', mem', related⟩ := List.any_eq_true.mp rest
    cases e' with
    | transmitted m' => exact ⟨m, m', mem, mem', related⟩
    | _ => cases related
  | _ => cases rest

/-- An AUTH that is sent twice, a REPLY that moves the counter from 1 to 6, and a message of
the user. -/
theorem sameId_iff_hi :
    ∃ s, ((machine ⟨.protUDP, 3⟩).restrict inStep).Passed
        (initialPasses (programInterfaceInit (fun _ _ => 0xC4) ⟨some fun _ => 0, 10, 10⟩)) s ∧
      queuedNumbered s.shared.history + skipped s.shared.history < 65536 ∧
      0 < skipped s.shared.history ∧
      ∃ m m', .transmitted m ∈ s.shared.history ∧ .transmitted m' ∈ s.shared.history ∧
        m.numbered = true ∧ m'.numbered = true ∧ m.uid ≠ m'.uid ∧
        ¬(m.lowMsgIdByte = m'.lowMsgIdByte ∧ m.highMsgIdByte = m'.highMsgIdByte) := by
  obtain ⟨s, passed, good⟩ := passed_of_played (m := (machine ⟨.protUDP, 3⟩).restrict inStep)
    (fun _ _ _ h => h)
    (programInterfaceInit (fun _ _ => 0xC4) ⟨some fun _ => 0, 10, 10⟩)
    [.main (ascii "/auth u s d\n"), .sender 1, .sender 1, .receiver [0, 0, 0],
      .receiver ([1, 5, 0, 1, 0, 0] ++ ascii "ok" ++ [0]), .sender 1,
      .main (ascii "hi\n"), .sender 1]
    (fun s => decide (queuedNumbered s.shared.history + skipped s.shared.history < 65536) &&
      decide (0 < skipped s.shared.history) &&
      twoTransmissions (fun m m' => m.numbered && m'.numbered && m.uid != m'.uid) s.shared.history)
    (by decide +kernel)
  simp only [Bool.and_eq_true, decide_eq_true_eq] at good
  obtain ⟨⟨few, left⟩, two⟩ := good
  obtain ⟨m, m', sent, sent', related⟩ := exists_transmissions two
  simp only [Bool.and_eq_true, bne_iff_ne] at related
  obtain ⟨⟨numbered, numbered'⟩, other⟩ := related
  refine ⟨s, passed, few, left, m, m', sent, sent', numbered, numbered', other, ?_⟩
  exact fun same => other ((sameId_iff rfl passed few sent sent' numbered numbered').mp same)

/-- The REPLY of the server has the bytes 255 and 0 as its ID: the counter is set
back to 0, and the message of the user is sent with the ID of the AUTH. -/
theorem sameId_reply_counter :
    ∃ s, Passed ⟨.protUDP, 3⟩ (fun _ _ => 0xC4) ⟨some fun _ => 0, 10, 10⟩ s ∧
      queuedNumbered s.shared.history < 65536 ∧
      ∃ m m', .transmitted m ∈ s.shared.history ∧ .transmitted m' ∈ s.shared.history ∧
        m.numbered = true ∧ m'.numbered = true ∧ m.uid ≠ m'.uid ∧
        m.lowMsgIdByte = m'.lowMsgIdByte ∧ m.highMsgIdByte = m'.highMsgIdByte := by
  obtain ⟨s, passed, good⟩ := passed_of_playAll ⟨.protUDP, 3⟩ (fun _ _ => 0xC4)
    ⟨some fun _ => 0, 10, 10⟩
    [.main (ascii "/auth u s d\n"), .sender 1, .receiver [0, 0, 0],
      .receiver ([1, 255, 0, 1, 0, 0] ++ ascii "ok" ++ [0]), .sender 1,
      .main (ascii "hi\n"), .sender 1]
    (fun s => decide (queuedNumbered s.shared.history < 65536) &&
      twoTransmissions (fun m m' => m.numbered && m'.numbered && m.uid != m'.uid &&
        (m.lowMsgIdByte == m'.lowMsgIdByte && m.highMsgIdByte == m'.highMsgIdByte))
        s.shared.history)
    (by decide +kernel)
  simp only [Bool.and_eq_true, decide_eq_true_eq] at good
  obtain ⟨few, two⟩ := good
  obtain ⟨m, m', sent, sent', related⟩ := exists_transmissions two
  simp only [Bool.and_eq_true, bne_iff_ne, beq_iff_eq] at related
  obtain ⟨⟨⟨numbered, numbered'⟩, other⟩, low, high⟩ := related
  exact ⟨s, passed, few, m, m', sent, sent', numbered, numbered', other, low, high⟩

end Ipk24Chat
