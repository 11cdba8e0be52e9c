import Ipk24Chat.HeapQueue
import Ipk24Chat.Ownership

/-!
# The queues on their heap

All of `msgQueue.c` on the pointers: what `HeapQueue` leaves out, which is the functions
that look at the first message or at all of them, and the client's queues side by side on
one heap.

* `HeadFunction`: the functions that dereference `queue->first`, with or without a look
  whether it is NULL;
* `QueueOp.run_spec`: what each function does on the pointers, and that it touches nothing
  but its own nodes;
* `agrees_of_represents`: what each function is to do is what its namesake in `Queue` does;
* `queues_refine`: in every sequence of calls on any of the queues the pointers stand for
  the lists, and nothing is leaked.
-/

namespace Ipk24Chat

/-- What a call returns. -/
inductive Got where
  | nothing
  | bool (b : Bool)
  | number (n : Nat)
  | flags (msgFlags : MsgFlags)
  | type (type : MsgType)
  /-- what a `Message*` points at; `none` is NULL -/
  | message (message : Option Contents)
  deriving DecidableEq, Repr

/-! ## The first message -/

/-- A function of the first message. `onNull` is what it returns if there is none; where
that is `none` it does not look and dereferences NULL. -/
structure HeadFunction where
  onNull : Option Got
  onFirst : Contents → Option (Contents × Got)

namespace HeadFunction

def run (f : HeadFunction) (q : HeapQueue) : Option (HeapQueue × Got) :=
  if q.first = 0 then f.onNull.map (q, ·)
  else do
    let n ← q.load q.first
    let (contents, got) ← f.onFirst n.contents
    some (q.store q.first (some { n with contents := contents }), got)

/-- The same on a list. -/
def apply (f : HeadFunction) : List Contents → Option (List Contents × Got)
  | [] => f.onNull.map ([], ·)
  | first :: rest => (f.onFirst first).map fun (contents, got) => (contents :: rest, got)

end HeadFunction

namespace Contents

/-- `buffer->data` with the two ID bytes; shorter messages have none. -/
def idBytes (c : Contents) : Option (List UInt8) :=
  c.buffer.filter fun data => decide (3 ≤ data.length)

end Contents

namespace HeapQueue

def queueMessageSended : HeadFunction where
  onNull := none
  onFirst first := some ({ first with sendCount := first.sendCount + 1 }, .nothing)

def queueGetSendedCounter : HeadFunction where
  onNull := none
  onFirst first := some (first, .number first.sendCount.toNat)

/-- Messages flagged as confirmations keep their ID. -/
def queueSetMessageID (msgCounter : Nat) : HeadFunction where
  onNull := some .nothing
  onFirst first :=
    if first.msgFlags ≠ .msgFlagConfirm ∧ first.msgFlags ≠ .msgFlagNokReply then
      first.idBytes.map fun data =>
        let (high, low) := breakU16IntToBytes msgCounter
        ({ first with buffer := some ((data.set 2 high).set 1 low) }, .nothing)
    else some (first, .nothing)

def queueGetMessageID : HeadFunction where
  onNull := some (.number 0)
  onFirst first := first.idBytes.map fun data =>
    (first, .number (convert2BytesToU16Int (data.getD 1 0) (data.getD 2 0)))

def queueGetMessageFlags : HeadFunction where
  onNull := none
  onFirst first := some (first, .flags first.msgFlags)

def queueSetMessageFlags (newFlag : MsgFlags) : HeadFunction where
  onNull := some .nothing
  onFirst first := some ({ first with msgFlags := newFlag }, .nothing)

def queueGetMessageMsgType : HeadFunction where
  onNull := some (.type .msgUnknown)
  onFirst first := some (first, .type (uchar2msgType first.type))

/-- `topOfQueue->confirmed = true` of `handleConfirmUDP`, behind its look at NULL. -/
def confirmTop : HeadFunction where
  onNull := some .nothing
  onFirst first := some ({ first with confirmed := 1 }, .nothing)

/-- What `queueGetMessage` points at. -/
def queueGetMessage (q : HeapQueue) : Option (Option Contents) :=
  if q.len > 0 ∧ q.first ≠ 0 then (q.load q.first).map (some ·.contents) else some none

/-- The comparison in `queueContainsMessageId`, of plain and unsigned characters. -/
def sameID (incoming : Buffer) (type : UInt8) (c : Contents) : Bool :=
  schar (incoming.mem 2) == (c.sendCount.toNat : Int) &&
    schar (incoming.mem 1) == (c.confirmed.toNat : Int) && type == c.type

/-- The loop of `queueContainsMessageId` from `p` on, for at most `fuel` rounds. -/
def containsFrom (q : HeapQueue) (incoming : Buffer) (type : UInt8) :
    (fuel : Nat) → NodePtr → Option Bool
  | 0, p => if p = 0 then some false else none
  | fuel + 1, p =>
    if p = 0 then some false
    else do
      let n ← q.load p
      if sameID incoming type n.contents then some true
      else q.containsFrom incoming type fuel n.behindMe

def queueContainsMessageId (q : HeapQueue) (incoming : Buffer) (type : UInt8) : Option Bool :=
  q.containsFrom incoming type q.len.toNat q.first

end HeapQueue

open HeapQueue

/-- The calls on a queue that was initialized. -/
inductive QueueOp where
  | queueAddMessage (buffer : Buffer) (msgFlags : MsgFlags) (msgType : UInt8)
  | queueAddMessagePriority (buffer : Buffer) (msgFlags : MsgFlags) (msgType : UInt8)
  | queueAddMessageOnlyID (buffer : Buffer) (msgType : UInt8)
  | queuePopMessage
  | queuePopAllMessages
  | queueDestroy
  | queueIsEmpty
  | queueLength
  | queueGetMessage
  | queueContainsMessageId (incoming : Buffer) (type : UInt8)
  | head (f : HeadFunction)

/-- What a call comes to. -/
inductive Ran (S : Type) where
  | returned (s : S) (got : Got)
  | errHandling (s : S) (f : Failure)
  | fault

namespace Ran
variable {S T : Type}

def of : Option (S × Got) → Ran S
  | some (s, got) => .returned s got
  | none => .fault

def ofCall : Call → Ran HeapQueue
  | .returned q => .returned q .nothing
  | .errHandling q f => .errHandling q f
  | .fault => .fault

def map (f : S → T) : Ran S → Ran T
  | .returned s got => .returned (f s) got
  | .errHandling s failure => .errHandling (f s) failure
  | .fault => .fault

end Ran

namespace QueueOp

def allocates : QueueOp → Bool
  | .queueAddMessage .. | .queueAddMessagePriority .. | .queueAddMessageOnlyID .. => true
  | _ => false

/-- `queueDestroy` pops all messages; what else it frees is the queue itself. -/
def run (new : NodePtr) (garbage : Node) (q : HeapQueue) : QueueOp → Ran HeapQueue
  | .queueAddMessage buffer msgFlags msgType =>
    .ofCall (.of (q.queueAddMessage new garbage buffer msgFlags msgType))
  | .queueAddMessagePriority buffer msgFlags msgType =>
    .ofCall (.of (q.queueAddMessagePriority new garbage buffer msgFlags msgType))
  | .queueAddMessageOnlyID buffer msgType =>
    .ofCall (q.queueAddMessageOnlyID new garbage buffer msgType)
  | .queuePopMessage => .ofCall (.of q.queuePopMessage)
  | .queuePopAllMessages => .ofCall (.of q.queuePopAllMessages)
  | .queueDestroy => .ofCall (.of q.queuePopAllMessages)
  | .queueIsEmpty => .returned q (.bool (q.len = 0))
  | .queueLength => .returned q (.number q.len.toNat)
  | .queueGetMessage => .of (q.queueGetMessage.map fun message => (q, .message message))
  | .queueContainsMessageId incoming type =>
    .of ((q.queueContainsMessageId incoming type).map fun found => (q, .bool found))
  | .head f => .of (f.run q)

def destroys : QueueOp → Bool
  | .queueDestroy => true
  | _ => false

/-- What the call is to do on a list; `none` is a call that must not be made. -/
def apply (messages : List Contents) : QueueOp → Option (List Contents × Got)
  | .queueAddMessage buffer msgFlags msgType =>
    some (messages ++ [QueueCall.made buffer msgFlags msgType], .nothing)
  | .queueAddMessagePriority buffer msgFlags msgType =>
    some (QueueCall.made buffer msgFlags msgType :: messages, .nothing)
  | .queueAddMessageOnlyID buffer msgType =>
    some (QueueCall.madeOnlyID buffer msgType :: messages, .nothing)
  | .queuePopMessage => some (messages.tail, .nothing)
  | .queuePopAllMessages | .queueDestroy => some ([], .nothing)
  | .queueIsEmpty => some (messages, .bool messages.isEmpty)
  | .queueLength => some (messages, .number messages.length)
  | .queueGetMessage => some (messages, .message messages.head?)
  | .queueContainsMessageId incoming type =>
    some (messages, .bool (messages.any (HeapQueue.sameID incoming type)))
  | .head f => f.apply messages

/-- A call that is ended by `errHandling`. -/
def tooShort : QueueOp → Bool
  | .queueAddMessageOnlyID buffer _ => decide (buffer.used < 3)
  | _ => false

end QueueOp

/-! ## What they touch -/

namespace HeapQueue
variable {q q' : HeapQueue} {messages : List Contents} {nodes : List NodePtr} {new : NodePtr}

theorem Represents.live (h : q.Represents messages nodes) : ∀ p ∈ nodes, (q.heap p).isSome := by
  intro p hp
  have there := chain_mem h.chain hp
  simpa [next, load, h.nonnull hp] using there

/-- What a queue stands for depends on its own nodes only. -/
theorem Represents.congr (h : q.Represents messages nodes)
    (header : q'.first = q.first ∧ q'.last = q.last ∧ q'.len = q.len)
    (same : ∀ p ∈ nodes, q'.heap p = q.heap p) : q'.Represents messages nodes := by
  obtain ⟨first, last, len⟩ := header
  have loads : ∀ p ∈ nodes, q'.load p = q.load p := by
    intro p hp
    simp only [load, same p hp]
  obtain ⟨links, holds⟩ := unchanged q q' loads
  constructor
  case chain => exact first ▸ chain_congr h.chain links
  case last => exact last.trans h.last
  case len => exact len ▸ h.len
  case nodup => exact h.nodup
  case contents => exact holds.trans h.contents

theorem heap_setBehindMe {p b : NodePtr} (run : q.setBehindMe p b = some q') :
    ∀ p', p' ≠ p → q'.heap p' = q.heap p' := by
  obtain ⟨n, -, rfl⟩ := Option.map_eq_some_iff.mp run
  exact fun p' away => Function.update_of_ne away ..

theorem heap_setType {p : NodePtr} {type : UInt8} (run : q.setType p type = some q') :
    ∀ p', p' ≠ p → q'.heap p' = q.heap p' := by
  obtain ⟨n, -, rfl⟩ := Option.map_eq_some_iff.mp run
  exact fun p' away => Function.update_of_ne away ..

theorem heap_linkFirst (run : q.linkFirst new = some q') :
    ∀ p, p ≠ new → q'.heap p = q.heap p := by
  simp only [linkFirst, Option.bind_eq_bind, Option.bind_eq_some_iff, Option.some.injEq] at run
  obtain ⟨q₁, linked, rfl⟩ := run
  intro p away
  refine (heap_setBehindMe linked p away).trans ?_
  split <;> rfl

/-- The new node and the last one are written to. -/
theorem heap_queueAddMessage {garbage : Node} {buffer : Buffer} {msgFlags : MsgFlags}
    {msgType : UInt8} (run : q.queueAddMessage new garbage buffer msgFlags msgType = some q') :
    ∀ p, p ≠ new → (q.last ≠ 0 → p ≠ q.last) → q'.heap p = q.heap p := by
  intro p away away'
  have made : (q.createMessage new garbage buffer msgFlags).heap p = q.heap p :=
    Function.update_of_ne away ..
  have rest {q₀ : HeapQueue} (same : q₀.heap p = q.heap p)
      (run : (do
        let q ← HeapQueue.setBehindMe { q₀ with last := new } new 0
        let q ← q.setType new msgType
        some { q with len := q.len + 1 }) = some q') : q'.heap p = q.heap p := by
    simp only [Option.bind_eq_bind, Option.bind_eq_some_iff, Option.some.injEq] at run
    obtain ⟨q₁, ended, q₂, typed, rfl⟩ := run
    exact ((heap_setType typed p away).trans (heap_setBehindMe ended p away)).trans same
  simp only [queueAddMessage] at run
  split at run <;> split at run
  all_goals obtain ⟨q₁, linked, run⟩ := Option.bind_eq_some_iff.mp run
  case isTrue.isTrue | isFalse.isTrue =>
    rename_i last _
    exact rest ((heap_setBehindMe linked p (away' last)).trans made) run
  case isTrue.isFalse | isFalse.isFalse =>
    have same := congrArg (·.heap p) (Option.some.inj linked)
    exact rest (same.symm.trans made) run

/-- A function that adds a node. -/
theorem local_add {messages' : List Contents} {nodes' : List NodePtr} (fresh : q.Fresh new)
    (after : q'.Represents messages' nodes') (same : ∀ p, p ∈ nodes' ↔ p ∈ nodes ∨ p = new)
    (frame : ∀ p, p ∉ nodes → p ≠ new → q'.heap p = q.heap p) :
    Local q.heap q'.heap nodes nodes' := by
  constructor
  case taken =>
    intro p hp
    rcases (same p).mp hp with old | rfl
    · exact Or.inl old
    · exact Or.inr fresh.2
  case live => exact after.live
  case freed => exact fun p hp away => absurd ((same p).mpr (Or.inl hp)) away
  case frame => exact fun p out away => frame p out fun eq => away ((same p).mpr (Or.inr eq))

section
variable (h : q.Represents messages nodes)
include h

theorem queuePopMessage_local : ∃ q', q.queuePopMessage = some q' ∧
    q'.Represents messages.tail nodes.tail ∧ Local q.heap q'.heap nodes nodes.tail := by
  obtain ⟨q', run, after⟩ := queuePopMessage_spec h
  refine ⟨q', run, after, ?_⟩
  cases nodes with
  | nil =>
    have len : q.len = 0 := UInt64.toNat_inj.mp h.len
    simp only [queuePopMessage, len, if_true, Option.some.injEq] at run
    subst run
    exact .refl h.live
  | cons a rest =>
    have first : q.first = a := h.chain.1
    have some' : q.len ≠ 0 := by
      intro zero
      have len := h.len
      simp [zero] at len
    have heap : q'.heap = Function.update q.heap a none := by
      simp only [queuePopMessage, some', first, if_false, Option.bind_eq_bind,
        Option.bind_eq_some_iff, Option.some.injEq] at run
      obtain ⟨n, -, rfl⟩ := run
      split <;> rfl
    constructor
    case taken => exact fun p hp => Or.inl (List.mem_cons_of_mem _ hp)
    case live => exact after.live
    case freed =>
      intro p hp away
      have popped : p = a := (List.mem_cons.mp hp).resolve_right away
      rw [heap, popped, Function.update_self]
    case frame =>
      intro p out _
      have other : p ≠ a := fun eq => out (List.mem_cons.mpr (Or.inl eq))
      rw [heap, Function.update_of_ne other]

theorem popWhile_local : ∃ q', q.popWhile nodes.length = some q' ∧
    q'.Represents [] [] ∧ Local q.heap q'.heap nodes [] := by
  induction nodes generalizing q messages with
  | nil =>
    obtain ⟨q', emptied, after⟩ := popWhile_spec h
    have len : q.len = 0 := UInt64.toNat_inj.mp h.len
    have same : q = q' := by simpa [popWhile, len] using emptied
    exact ⟨q', emptied, after, same ▸ .refl h.live⟩
  | cons a rest ih =>
    have some' : q.len ≠ 0 := by
      intro zero
      have len := h.len
      simp [zero] at len
    obtain ⟨q₁, popped, less, first⟩ := queuePopMessage_local h
    obtain ⟨q', emptied, after, others⟩ := ih less
    refine ⟨q', ?_, after, first.trans others⟩
    simp [popWhile, some', popped, emptied]

theorem queuePopAllMessages_local : ∃ q', q.queuePopAllMessages = some q' ∧
    q'.Represents [] [] ∧ Local q.heap q'.heap nodes [] := by
  obtain ⟨q', emptied, empty, only⟩ := popWhile_local h
  refine ⟨{ q' with first := 0, last := 0 }, ?_, ?_, only⟩
  · simp [queuePopAllMessages, h.len, emptied]
  · exact ⟨rfl, rfl, empty.len, List.nodup_nil, rfl⟩

end

section
variable {first : Contents} {rest : List Contents} {a : NodePtr} {behind : List NodePtr}
  (h : q.Represents (first :: rest) (a :: behind))
include h

theorem Represents.load_first : ∃ n, q.load q.first = some n ∧ n.contents = first := by
  have holds := h.contents
  simp only [List.map_cons, List.cons.injEq] at holds
  obtain ⟨n, found, eq⟩ := Option.map_eq_some_iff.mp holds.1
  exact ⟨n, h.chain.1 ▸ found, eq⟩

/-- The first message is written to, not its link. -/
theorem store_first {n : Node} (found : q.load q.first = some n) (contents : Contents) :
    (q.store q.first (some { n with contents := contents })).Represents (contents :: rest)
        (a :: behind) ∧
      Local q.heap (q.store q.first (some { n with contents := contents })).heap (a :: behind)
        (a :: behind) := by
  have first : q.first = a := h.chain.1
  have there : a ≠ 0 := h.nonnull List.mem_cons_self
  rw [first] at found ⊢
  have written := load_store_self (q := q) (some { n with contents := contents }) there
  have kept {p : NodePtr} (other : p ≠ a) :=
    load_store_of_ne (q := q) (some { n with contents := contents }) other
  obtain ⟨absent, -⟩ := List.nodup_cons.mp h.nodup
  have after : (q.store a (some { n with contents := contents })).Represents (contents :: rest)
      (a :: behind) := by
    constructor
    case chain =>
      apply chain_congr h.chain
      intro p hp
      rcases List.mem_cons.mp hp with rfl | hp
      · simp [next, written, found]
      · simp only [next, kept fun eq => absent (eq ▸ hp)]
    case last => exact h.last
    case len => exact h.len
    case nodup => exact h.nodup
    case contents =>
      have holds := h.contents
      simp only [List.map_cons, List.cons.injEq] at holds
      have loads : ∀ p ∈ behind,
          (q.store a (some { n with contents := contents })).load p = q.load p := by
        intro p hp
        exact kept fun eq => absent (eq ▸ hp)
      obtain ⟨-, same⟩ := unchanged q _ loads
      rw [List.map_cons, List.map_cons, same, holds.2]
      exact congrArg (· :: _) (congrArg (Option.map _) written)
  refine ⟨after, ?_⟩
  constructor
  case taken => exact fun p => Or.inl
  case live => exact after.live
  case freed => exact fun p hp away => absurd hp away
  case frame =>
    intro p out _
    have other : p ≠ a := fun eq => out (List.mem_cons.mpr (Or.inl eq))
    exact Function.update_of_ne other ..

end

/-- **A function of the first message.** It does on the pointers what it is to do on the
list, and dereferences NULL where it must not be called. -/
theorem head_spec (h : q.Represents messages nodes) (f : HeadFunction) :
    match f.apply messages with
    | none => f.run q = none
    | some (messages', got) => ∃ q', f.run q = some (q', got) ∧
        q'.Represents messages' nodes ∧ Local q.heap q'.heap nodes nodes := by
  cases nodes with
  | nil =>
    have null : q.first = 0 := h.chain
    have none : messages = [] := by simpa using h.contents
    subst none
    simp only [HeadFunction.apply, HeadFunction.run, null, if_true]
    cases f.onNull with
    | none => rfl
    | some got => exact ⟨q, rfl, h, .refl h.live⟩
  | cons a behind =>
    cases messages with
    | nil => exact absurd (congrArg List.length h.contents) (by simp)
    | cons first rest =>
      have null : q.first ≠ 0 := h.chain.1 ▸ h.nonnull List.mem_cons_self
      obtain ⟨n, found, rfl⟩ := h.load_first
      simp only [HeadFunction.apply, HeadFunction.run, null, if_false, found, Option.bind_eq_bind,
        Option.bind_some]
      cases f.onFirst n.contents with
      | none => rfl
      | some result => exact ⟨_, rfl, store_first h found result.1⟩

theorem queueGetMessage_spec (h : q.Represents messages nodes) :
    q.queueGetMessage = some messages.head? := by
  cases nodes with
  | nil =>
    have null : q.first = 0 := h.chain
    have none : messages = [] := by simpa using h.contents
    simp [queueGetMessage, null, none]
  | cons a behind =>
    cases messages with
    | nil => exact absurd (congrArg List.length h.contents) (by simp)
    | cons first rest =>
      have null : q.first ≠ 0 := h.chain.1 ▸ h.nonnull List.mem_cons_self
      obtain ⟨n, found, rfl⟩ := h.load_first
      have len : 0 < q.len := by
        rw [UInt64.lt_iff_toNat_lt, h.len]
        simp
      simp [queueGetMessage, null, len, found]

/-- The loop passes the messages from `p` on. -/
theorem containsFrom_spec (incoming : Buffer) (type : UInt8) {p : NodePtr}
    (chain : Chain q.next p nodes 0) (holds : nodes.map q.contents = messages.map some) :
    q.containsFrom incoming type nodes.length p =
      some (messages.any (sameID incoming type)) := by
  induction nodes generalizing p messages with
  | nil =>
    have null : p = 0 := chain
    have none : messages = [] := by simpa using holds
    simp [containsFrom, null, none]
  | cons a behind ih =>
    obtain ⟨rfl, b, link, chain⟩ := chain
    cases messages with
    | nil => exact absurd (congrArg List.length holds) (by simp)
    | cons first rest =>
      simp only [List.map_cons, List.cons.injEq] at holds
      obtain ⟨n, found, rfl⟩ := Option.map_eq_some_iff.mp holds.1
      obtain rfl : n.behindMe = b := by simpa [next, found] using link
      have null : p ≠ 0 := by
        rintro rfl
        cases found
      have tested := ih chain holds.2
      simp only [List.length_cons, containsFrom, null, if_false, found, Option.bind_eq_bind,
        Option.bind_some, tested, List.any_cons]
      split <;> simp_all

theorem queueContainsMessageId_spec (h : q.Represents messages nodes) (incoming : Buffer)
    (type : UInt8) : q.queueContainsMessageId incoming type =
      some (messages.any (sameID incoming type)) := by
  rw [queueContainsMessageId, h.len]
  exact containsFrom_spec incoming type h.chain h.contents

theorem Represents.length_eq (h : q.Represents messages nodes) :
    q.len.toNat = messages.length := by
  simpa [h.len] using congrArg List.length h.contents

end HeapQueue

namespace QueueOp

/-- **One call.** It does on the pointers what it is to do on the list, and touches nothing
but the nodes of its queue. -/
theorem run_spec {q : HeapQueue} {messages : List Contents} {nodes : List NodePtr}
    (h : q.Represents messages nodes) (op : QueueOp) (new : NodePtr) (garbage : Node)
    (fresh : op.allocates = true → q.Fresh new) (long : op.tooShort = false) :
    match op.apply messages with
    | none => op.run new garbage q = .fault
    | some (messages', got) => ∃ q' nodes', op.run new garbage q = .returned q' got ∧
        q'.Represents messages' nodes' ∧ Local q.heap q'.heap nodes nodes' := by
  cases op with
  | queueAddMessage buffer msgFlags msgType =>
    obtain ⟨q', run, after⟩ := queueAddMessage_spec h (fresh rfl) garbage buffer msgFlags msgType
    refine ⟨q', _, by rw [QueueOp.run, run]; rfl, after, ?_⟩
    apply local_add (fresh rfl) after (by simp)
    intro p out away
    apply heap_queueAddMessage run p away
    rintro nonnull rfl
    cases nodes using List.reverseRecOn with
    | nil => exact nonnull h.last
    | append_singleton front l => exact out (by simp [h.last])
  | queueAddMessagePriority buffer msgFlags msgType =>
    have made := createMessage_setType (q := q) (fresh rfl).1 garbage buffer msgFlags msgType
    obtain ⟨q', run, after⟩ :=
      linkFirst_spec h (fresh rfl) ⟨QueueCall.made buffer msgFlags msgType, garbage.behindMe⟩
    refine ⟨q', _, ?_, after, ?_⟩
    · simp only [QueueOp.run, HeapQueue.queueAddMessagePriority, made, Option.bind_eq_bind,
        Option.bind_some, run]
      rfl
    · apply local_add (fresh rfl) after (by simp [or_comm])
      intro p _ away
      exact (heap_linkFirst run p away).trans (Function.update_of_ne away ..)
  | queueAddMessageOnlyID buffer msgType =>
    have enough : ¬ buffer.used < 3 := of_decide_eq_false long
    have nonnull := (fresh rfl).1
    obtain ⟨q', run, after⟩ :=
      linkFirst_spec h (fresh rfl) ⟨QueueCall.madeOnlyID buffer msgType, garbage.behindMe⟩
    refine ⟨q', _, ?_, after, ?_⟩
    · have made : (q.createMessageOnlyID new garbage msgType).setMsgId new (buffer.mem 2)
          (buffer.mem 1) =
          some (q.store new (some ⟨QueueCall.madeOnlyID buffer msgType, garbage.behindMe⟩)) := by
        simp [createMessageOnlyID, setMsgId, load, store, nonnull, Function.update_idem,
          QueueCall.madeOnlyID]
      simp only [QueueOp.run, HeapQueue.queueAddMessageOnlyID, enough, if_false, made,
        Option.bind_some, run]
      rfl
    · apply local_add (fresh rfl) after (by simp [or_comm])
      intro p _ away
      exact (heap_linkFirst run p away).trans (Function.update_of_ne away ..)
  | queuePopMessage =>
    obtain ⟨q', run, after, only⟩ := queuePopMessage_local h
    exact ⟨q', _, by rw [QueueOp.run, run]; rfl, after, only⟩
  | queuePopAllMessages =>
    obtain ⟨q', run, after, only⟩ := queuePopAllMessages_local h
    exact ⟨q', _, by rw [QueueOp.run, run]; rfl, after, only⟩
  | queueDestroy =>
    obtain ⟨q', run, after, only⟩ := queuePopAllMessages_local h
    exact ⟨q', _, by rw [QueueOp.run, run]; rfl, after, only⟩
  | queueIsEmpty =>
    refine ⟨q, nodes, ?_, h, .refl h.live⟩
    have empty : q.len = 0 ↔ messages = [] := by
      rw [← UInt64.toNat_inj, h.length_eq]
      simp
    cases messages <;> simp [QueueOp.run, empty]
  | queueLength =>
    exact ⟨q, nodes, by rw [QueueOp.run, h.length_eq], h, .refl h.live⟩
  | queueGetMessage =>
    exact ⟨q, nodes, by rw [QueueOp.run, queueGetMessage_spec h]; rfl, h, .refl h.live⟩
  | queueContainsMessageId incoming type =>
    refine ⟨q, nodes, ?_, h, .refl h.live⟩
    rw [QueueOp.run, queueContainsMessageId_spec h]
    rfl
  | head f =>
    have spec := head_spec h f
    simp only [apply]
    split at spec
    · rw [QueueOp.run, spec]
      rfl
    · obtain ⟨q', run, after, only⟩ := spec
      exact ⟨q', nodes, by rw [QueueOp.run, run]; rfl, after, only⟩

end QueueOp

/-! ## The lists of `Queue` -/

/-- The messages of a queue, each known by the address of its node. -/
def listed (nodes : List NodePtr) (messages : List Contents) : MessageQueue :=
  List.zipWith (fun p c => { QueueCall.message c with uid := p.toNat }) nodes messages

section listed
variable {q : HeapQueue} {messages : List Contents} {nodes : List NodePtr}

theorem uid_listed {m : Message} (hm : m ∈ listed nodes messages) :
    ∃ p ∈ nodes, m.uid = p.toNat := by
  induction nodes generalizing messages with
  | nil => simp [listed] at hm
  | cons a behind ih =>
    cases messages with
    | nil => simp [listed] at hm
    | cons first rest =>
      rcases List.mem_cons.mp hm with rfl | hm
      · exact ⟨a, List.mem_cons_self, rfl⟩
      · obtain ⟨p, hp, uid⟩ := ih hm
        exact ⟨p, List.mem_cons_of_mem _ hp, uid⟩

/-- Two nodes have two addresses, so the first message alone is confirmed. -/
theorem confirm_listed {first : Contents} {rest : List Contents} {a : NodePtr}
    {behind : List NodePtr} (nodup : (a :: behind).Nodup) :
    (listed (a :: behind) (first :: rest)).confirm
        (listed (a :: behind) (first :: rest)).getMessage =
      listed (a :: behind) ({ first with confirmed := 1 } :: rest) := by
  have others : (listed behind rest).confirm (some a.toNat) = listed behind rest := by
    unfold MessageQueue.confirm
    rw [List.map_congr_left (g := id), List.map_id]
    intro m hm
    obtain ⟨p, hp, uid⟩ := uid_listed hm
    have other : m.uid ≠ a.toNat := by
      intro same
      obtain rfl := UInt64.toNat_inj.mp (uid.symm.trans same)
      exact (List.nodup_cons.mp nodup).1 hp
    simp [other]
  change _ :: (listed behind rest).confirm (some a.toNat) = _
  rw [others]
  simp [listed, QueueCall.message, MessageQueue.getMessage]

/-- The functions of the first message are those of `Queue`. -/
theorem head_listed (h : q.Represents messages nodes) :
    (queueMessageSended.apply messages).map (listed nodes ·.1) =
        (listed nodes messages).messageSended ∧
      (∀ newFlag, ((queueSetMessageFlags newFlag).apply messages).map (listed nodes ·.1) =
        some ((listed nodes messages).setMessageFlags newFlag)) ∧
      (confirmTop.apply messages).map (listed nodes ·.1) =
        some ((listed nodes messages).confirm (listed nodes messages).getMessage) ∧
      (queueGetMessageMsgType.apply messages).map (·.2) =
        some (.type (listed nodes messages).getMessageMsgType) := by
  cases nodes with
  | nil =>
    have none : messages = [] := by simpa using h.contents
    subst none
    exact ⟨rfl, fun _ => rfl, rfl, rfl⟩
  | cons a behind =>
    cases messages with
    | nil => exact absurd (congrArg List.length h.contents) (by simp)
    | cons first rest =>
      refine ⟨?_, fun _ => rfl, ?_, rfl⟩
      · simp [HeadFunction.apply, queueMessageSended, listed, MessageQueue.messageSended,
          QueueCall.message]
      · exact congrArg some (confirm_listed h.nodup).symm

/-- The functions of the ID bytes too, where these are there. -/
theorem idBytes_listed {first : Contents} {rest : List Contents} {a : NodePtr}
    {behind : List NodePtr} {data : List UInt8} (there : first.idBytes = some data)
    (msgCounter : Nat) :
    ((queueSetMessageID msgCounter).apply (first :: rest)).map (listed (a :: behind) ·.1) =
        some ((listed (a :: behind) (first :: rest)).setMessageID msgCounter) ∧
      (queueGetMessageID.apply (first :: rest)).map (·.2) =
        some (.number (listed (a :: behind) (first :: rest)).getMessageID) := by
  obtain ⟨buffer, -⟩ := Option.filter_eq_some_iff.mp there
  constructor
  · simp only [HeadFunction.apply, queueSetMessageID, there, MessageQueue.setMessageID, listed,
      List.zipWith_cons_cons, QueueCall.message]
    by_cases labelled : first.msgFlags ≠ .msgFlagConfirm ∧ first.msgFlags ≠ .msgFlagNokReply
    · rw [if_pos labelled, if_pos labelled]
      simp [Message.setMsgID, buffer]
    · rw [if_neg labelled, if_neg labelled]
      simp
  · simp [HeadFunction.apply, queueGetMessageID, there, listed, MessageQueue.getMessageID,
      QueueCall.message, Message.msgID, Message.lowMsgIdByte, Message.highMsgIdByte, buffer]

theorem contains_seen (messages : List Contents) (incoming : Buffer) (type : UInt8) :
    messages.any (sameID incoming type) =
      Ipk24Chat.queueContainsMessageId (messages.map QueueCall.seen) incoming type := by
  rw [Ipk24Chat.queueContainsMessageId, List.any_map]
  rfl

/-- What the calls are to do on a list is what the functions of `Queue` do, on messages
that are known by the addresses of their nodes. -/
structure Agrees (nodes : List NodePtr) (messages : List Contents) : Prop where
  adds : ∀ buffer msgFlags msgType,
    ((QueueOp.queueAddMessage buffer msgFlags msgType).apply messages).map
        (·.1.map QueueCall.message) =
      some (MessageQueue.addMessage (messages.map QueueCall.message)
        (Ipk24Chat.createMessage 0 buffer msgFlags msgType)) ∧
    ((QueueOp.queueAddMessagePriority buffer msgFlags msgType).apply messages).map
        (·.1.map QueueCall.message) =
      some (MessageQueue.addMessagePriority (messages.map QueueCall.message)
        (Ipk24Chat.createMessage 0 buffer msgFlags msgType))
  pops : (QueueOp.queuePopMessage.apply messages).map (·.1.map QueueCall.message) =
    some (MessageQueue.popMessage (messages.map QueueCall.message))
  remembers : ∀ buffer msgType,
    ((QueueOp.queueAddMessageOnlyID buffer msgType).apply messages).map
        (·.1.map QueueCall.seen) =
      some (Ipk24Chat.queueAddMessageOnlyID (messages.map QueueCall.seen) buffer msgType)
  contains : ∀ incoming type, messages.any (sameID incoming type) =
    Ipk24Chat.queueContainsMessageId (messages.map QueueCall.seen) incoming type
  sended : (queueMessageSended.apply messages).map (listed nodes ·.1) =
    (listed nodes messages).messageSended
  counts : (queueGetSendedCounter.apply messages).map (·.2) =
    (listed nodes messages).head?.map (.number ·.sendCount)
  flags : (queueGetMessageFlags.apply messages).map (·.2) =
    (listed nodes messages).head?.map (.flags ·.msgFlags)
  flagged : ∀ newFlag, ((queueSetMessageFlags newFlag).apply messages).map (listed nodes ·.1) =
    some ((listed nodes messages).setMessageFlags newFlag)
  confirmed : (confirmTop.apply messages).map (listed nodes ·.1) =
    some ((listed nodes messages).confirm (listed nodes messages).getMessage)
  type : (queueGetMessageMsgType.apply messages).map (·.2) =
    some (.type (listed nodes messages).getMessageMsgType)
  /-- where the ID bytes are there -/
  labelled : ∀ msgCounter, (∀ first ∈ messages.head?, first.idBytes.isSome) →
    ((queueSetMessageID msgCounter).apply messages).map (listed nodes ·.1) =
        some ((listed nodes messages).setMessageID msgCounter) ∧
      (queueGetMessageID.apply messages).map (·.2) =
        some (.number (listed nodes messages).getMessageID)

theorem agrees_of_represents (h : q.Represents messages nodes) : Agrees nodes messages := by
  obtain ⟨sended, flagged, confirmed, type⟩ := head_listed h
  refine ⟨fun buffer msgFlags msgType => ?_, ?_, fun buffer msgType => ?_, contains_seen messages,
    sended, ?_, ?_, flagged, confirmed, type, fun msgCounter there => ?_⟩
  · obtain ⟨behind, front, -⟩ := QueueCall.messages_apply messages buffer msgFlags msgType
    exact ⟨congrArg some behind, congrArg some front⟩
  · exact congrArg some (QueueCall.messages_apply messages .init .msgFlagNone 0).2.2
  · exact congrArg some (QueueCall.seen_apply messages buffer msgType)
  all_goals
    cases nodes with
    | nil =>
      have none : messages = [] := by simpa using h.contents
      subst none
      first | rfl | exact ⟨rfl, rfl⟩
    | cons a behind =>
      cases messages with
      | nil => exact absurd (congrArg List.length h.contents) (by simp)
      | cons first rest =>
        first
        | rfl
        | obtain ⟨data, bytes⟩ := Option.isSome_iff_exists.mp (there first rfl)
          exact idBytes_listed bytes msgCounter

end listed

/-! ## Several queues -/

/-- A `MessageQueue` without the heap its nodes are on. -/
structure Header where
  first : NodePtr
  last : NodePtr
  len : UInt64

def HeapQueue.header (q : HeapQueue) : Header := ⟨q.first, q.last, q.len⟩

/-- Queues on one heap; one that was destroyed is `none`. -/
structure Queues (ι : Type) where
  heap : NodePtr → Option Node
  queue : ι → Option Header

namespace Queues
variable {ι : Type} [DecidableEq ι]

/-- As `queueInit` leaves them. -/
def init (heap : NodePtr → Option Node) : Queues ι := ⟨heap, fun _ => some ⟨0, 0, 0⟩⟩

def view (s : Queues ι) (header : Header) : HeapQueue :=
  ⟨s.heap, header.first, header.last, header.len⟩

/-- The queues behind a call on one of them. -/
def leave (s : Queues ι) (i : ι) (op : QueueOp) (q : HeapQueue) : Queues ι :=
  ⟨q.heap, Function.update s.queue i (if op.destroys then none else some q.header)⟩

def call (s : Queues ι) (i : ι) (op : QueueOp) (new : NodePtr) (garbage : Node) :
    Ran (Queues ι) :=
  match s.queue i with
  | none => .fault
  | some header => (op.run new garbage (s.view header)).map (s.leave i op)

/-- Calls that return, with what they return. -/
inductive Runs (s₀ : Queues ι) : List (ι × QueueOp × Got) → Queues ι → Prop where
  | nil : Runs s₀ [] s₀
  | call {calls : List (ι × QueueOp × Got)} {s s' : Queues ι} {got : Got} (i : ι) (op : QueueOp)
      (new : NodePtr) (garbage : Node) (before : Runs s₀ calls s)
      (fresh : op.allocates = true → new ≠ 0 ∧ s.heap new = none)
      (returned : s.call i op new garbage = .returned s' got) :
      Runs s₀ (calls ++ [(i, op, got)]) s'

/-- What a call on one of the queues is to do. -/
def specified (lists : ι → Option (List Contents)) (i : ι) (op : QueueOp) :
    Option ((ι → Option (List Contents)) × Got) := do
  let messages ← lists i
  let (messages, got) ← op.apply messages
  some (Function.update lists i (if op.destroys then none else some messages), got)

inductive Specified (lists₀ : ι → Option (List Contents)) :
    List (ι × QueueOp × Got) → (ι → Option (List Contents)) → Prop where
  | nil : Specified lists₀ [] lists₀
  | call {calls : List (ι × QueueOp × Got)} {lists lists' : ι → Option (List Contents)} {got : Got}
      {i : ι} {op : QueueOp} (before : Specified lists₀ calls lists)
      (does : specified lists i op = some (lists', got)) :
      Specified lists₀ (calls ++ [(i, op, got)]) lists'

/-- The queue stands for a list, or is gone. -/
def Stands (s : Queues ι) (i : ι) (nodes : List NodePtr) : Option (List Contents) → Prop
  | none => s.queue i = none ∧ nodes = []
  | some messages => ∃ header, s.queue i = some header ∧
      (s.view header).Represents messages nodes

/-- The pointers stand for the lists, and the heap holds the nodes of the queues and what
was there before them. -/
def Refines (heap₀ : NodePtr → Option Node) (s : Queues ι)
    (lists : ι → Option (List Contents)) : Prop :=
  ∃ nodes : ι → List NodePtr, Owned heap₀ s.heap nodes ∧ ∀ i, s.Stands i (nodes i) (lists i)

variable {heap₀ : NodePtr → Option Node} {s : Queues ι} {lists : ι → Option (List Contents)}

/-- A call on one queue leaves the others as they are. -/
theorem refines_leave {nodes : ι → List NodePtr} (owned : Owned heap₀ s.heap nodes)
    (stands : ∀ i, s.Stands i (nodes i) (lists i)) {i : ι} {op : QueueOp} {q : HeapQueue}
    {messages : List Contents} {nodes' : List NodePtr} (after : q.Represents messages nodes')
    (only : Local s.heap q.heap (nodes i) nodes') (gone : op.destroys = true → nodes' = []) :
    Refines heap₀ (s.leave i op q)
      (Function.update lists i (if op.destroys then none else some messages)) := by
  refine ⟨Function.update nodes i nodes', owned.step only, fun j => ?_⟩
  by_cases own : j = i
  · subst own
    rw [Function.update_self, Function.update_self]
    by_cases destroyed : op.destroys = true
    · simp only [destroyed, if_true]
      exact ⟨by simp [leave, destroyed], gone destroyed⟩
    · simp only [destroyed]
      exact ⟨q.header, by simp [leave, destroyed], after⟩
  · rw [Function.update_of_ne own, Function.update_of_ne own]
    have same : (s.leave i op q).queue j = s.queue j := Function.update_of_ne own ..
    have before := stands j
    cases list : lists j with
    | none =>
      rw [list] at before
      exact ⟨same.trans before.1, before.2⟩
    | some messages =>
      rw [list] at before
      obtain ⟨header, there, represents⟩ := before
      refine ⟨header, same.trans there, ?_⟩
      exact represents.congr ⟨rfl, rfl, rfl⟩ (owned.others only own)

/-- **One call on one of the queues.** -/
theorem call_spec (refines : Refines heap₀ s lists) (i : ι) (op : QueueOp) (new : NodePtr)
    (garbage : Node) (fresh : op.allocates = true → new ≠ 0 ∧ s.heap new = none) :
    match specified lists i op with
    | none => s.call i op new garbage = .fault
    | some (lists', got) =>
      if op.tooShort then ∃ s' f, s.call i op new garbage = .errHandling s' f
      else ∃ s', s.call i op new garbage = .returned s' got ∧ Refines heap₀ s' lists' := by
  obtain ⟨nodes, owned, stands⟩ := refines
  have own := stands i
  cases list : lists i with
  | none =>
    rw [list] at own
    simp [specified, list, call, own.1]
  | some messages =>
    rw [list] at own
    obtain ⟨header, there, represents⟩ := own
    by_cases short : op.tooShort = true
    · cases op with
      | queueAddMessageOnlyID buffer msgType =>
        simp only [specified, list, QueueOp.apply, Option.bind_eq_bind, Option.bind_some, short,
          if_true, call, there]
        have few : buffer.used < 3 := of_decide_eq_true short
        exact ⟨_, _, by simp only [QueueOp.run, HeapQueue.queueAddMessageOnlyID, few, if_true]; rfl⟩
      | _ => cases short
    · have long : op.tooShort = false := by simpa using short
      have spec := op.run_spec represents new garbage fresh long
      cases does : op.apply messages with
      | none =>
        rw [does] at spec
        simp [specified, list, does, call, there, spec, Ran.map]
      | some result =>
        obtain ⟨messages', got⟩ := result
        rw [does] at spec
        obtain ⟨q', nodes', run, after, only⟩ := spec
        simp only [specified, list, does, Option.bind_eq_bind, Option.bind_some, long, call, there,
          run, Ran.map]
        refine ⟨_, rfl, refines_leave owned stands after only fun destroyed => ?_⟩
        cases op with
        | queueDestroy =>
          cases does
          simpa using after.contents
        | _ => cases destroyed

omit [DecidableEq ι] in
theorem refines_init (heap₀ : NodePtr → Option Node) :
    Refines heap₀ (init heap₀) fun _ : ι => some [] :=
  ⟨fun _ => [], .empty heap₀, fun _ => ⟨_, rfl, rfl, rfl, rfl, List.nodup_nil, rfl⟩⟩

theorem refines_of_runs {calls : List (ι × QueueOp × Got)} (h : Runs (init heap₀) calls s) :
    ∃ lists, Specified (fun _ => some []) calls lists ∧ Refines heap₀ s lists := by
  induction h with
  | nil => exact ⟨_, .nil, refines_init heap₀⟩
  | call i op new garbage _ fresh returned ih =>
    obtain ⟨lists, before, refines⟩ := ih
    have spec := call_spec refines i op new garbage fresh
    cases does : specified lists i op with
    | none =>
      rw [does] at spec
      cases spec.symm.trans returned
    | some result =>
      obtain ⟨lists', got⟩ := result
      rw [does] at spec
      simp only at spec
      split at spec
      · obtain ⟨_, _, ended⟩ := spec
        cases ended.symm.trans returned
      · obtain ⟨s', run, after⟩ := spec
        cases run.symm.trans returned
        exact ⟨lists', before.call does, after⟩

theorem fault_iff (refines : Refines heap₀ s lists) (i : ι) (op : QueueOp) (new : NodePtr)
    (garbage : Node) (fresh : op.allocates = true → new ≠ 0 ∧ s.heap new = none) :
    s.call i op new garbage = .fault ↔ specified lists i op = none := by
  have spec := call_spec refines i op new garbage fresh
  cases does : specified lists i op with
  | none =>
    rw [does] at spec
    simp [spec]
  | some result =>
    obtain ⟨lists', got⟩ := result
    rw [does] at spec
    simp only [reduceCtorEq, iff_false] at spec ⊢
    intro fault
    split at spec
    · obtain ⟨_, _, ended⟩ := spec
      cases ended.symm.trans fault
    · obtain ⟨_, run, -⟩ := spec
      cases run.symm.trans fault

end Queues

open Queues

/-- **All of `msgQueue.c` in memory.** In every sequence of calls that return, on any of
the queues that share the heap, the pointers stand for the lists on which the calls do what
they are to do, with the same results, which are the functions of `Queue`. The heap is what
it was at first, but for the nodes of the queues; a call dereferences NULL or freed memory
exactly where it must not be made, and when all queues are destroyed nothing is left of
them. -/
theorem queues_refine {ι : Type} [DecidableEq ι] {heap₀ : NodePtr → Option Node}
    {calls : List (ι × QueueOp × Got)} {s : Queues ι} (h : Runs (init heap₀) calls s) :
    ∃ lists, Specified (fun _ => some []) calls lists ∧ Refines heap₀ s lists ∧
      (∀ i messages, lists i = some messages → ∃ header nodes, s.queue i = some header ∧
        (s.view header).Represents messages nodes ∧ Agrees nodes messages) ∧
      (∀ i op new garbage, (op.allocates = true → new ≠ 0 ∧ s.heap new = none) →
        (s.call i op new garbage = .fault ↔ specified lists i op = none)) ∧
      ((∀ i, lists i = none) → s.heap = heap₀) := by
  obtain ⟨lists, before, refines⟩ := refines_of_runs h
  refine ⟨lists, before, refines, fun i messages there => ?_, fault_iff refines,
    fun destroyed => ?_⟩
  · obtain ⟨nodes, -, stands⟩ := refines
    have own := stands i
    rw [there] at own
    obtain ⟨header, present, represents⟩ := own
    exact ⟨header, nodes i, present, represents, agrees_of_represents represents⟩
  · obtain ⟨nodes, owned, stands⟩ := refines
    apply owned.released
    intro i
    have gone := stands i
    rw [destroyed i] at gone
    exact gone.2

/-- The two queues of the client. -/
inductive ClientQueue where
  | sendingQueue
  | confirmedMessages
  deriving DecidableEq, Repr

/-- Plays calls, each with the address for its node. -/
def Queues.play {ι : Type} [DecidableEq ι] (garbage : Node) (s : Queues ι) :
    List (ι × QueueOp × NodePtr) → Option (List (ι × QueueOp × Got) × Queues ι)
  | [] => some ([], s)
  | (i, op, new) :: calls =>
    if op.allocates = true → new ≠ 0 ∧ (s.heap new).isNone = true then
      match s.call i op new garbage with
      | .returned s' got =>
        (s'.play garbage calls).map fun (rest, s'') => ((i, op, got) :: rest, s'')
      | _ => none
    else none

theorem Queues.runs_of_play {ι : Type} [DecidableEq ι] {garbage : Node} {s₀ s s' : Queues ι}
    {calls : List (ι × QueueOp × NodePtr)} {earlier rest : List (ι × QueueOp × Got)}
    (before : Runs s₀ earlier s) (played : s.play garbage calls = some (rest, s')) :
    Runs s₀ (earlier ++ rest) s' := by
  induction calls generalizing s earlier rest with
  | nil =>
    cases played
    simpa using before
  | cons call calls ih =>
    obtain ⟨i, op, new⟩ := call
    simp only [play] at played
    split at played
    · rename_i fresh
      split at played
      · rename_i s₁ got returned
        obtain ⟨⟨later, s₂⟩, continued, eq⟩ := Option.map_eq_some_iff.mp played
        obtain ⟨rfl, rfl⟩ := Prod.mk.inj eq
        have next := before.call i op new garbage (fun allocates => by simpa using fresh allocates)
          returned
        simpa using ih next continued
      · cases played
    · cases played

/-- A message is queued, an ID is remembered and found again, and both queues go. -/
theorem queues_refine_session : ∃ calls s, Runs (init fun _ => none) calls s ∧
    calls.map (·.2.2) =
      [.nothing, .nothing, .nothing, .number 1, .bool true, .nothing, .nothing] ∧
    ∃ lists : ClientQueue → _, Specified (fun _ => some []) calls lists ∧
      Refines (fun _ => none) s lists := by
  have played : (((init fun _ => none).play ⟨⟨none, 9, 9, 9, .msgFlagNone⟩, 16⟩
      [(.sendingQueue, .queueAddMessage ⟨some fun _ => 104, 3, 3⟩ .msgFlagNone 4, 16),
        (.confirmedMessages, .queueAddMessageOnlyID ⟨some fun _ => 5, 3, 3⟩ 4, 32),
        (.sendingQueue, .head queueMessageSended, 0),
        (.sendingQueue, .head queueGetSendedCounter, 0),
        (.confirmedMessages, .queueContainsMessageId ⟨some fun _ => 5, 3, 3⟩ 4, 0),
        (ClientQueue.sendingQueue, .queueDestroy, 0),
        (.confirmedMessages, .queueDestroy, 0)]).map fun r => r.1.map (·.2.2)) =
      some [.nothing, .nothing, .nothing, .number 1, .bool true, .nothing, .nothing] := by
    decide +kernel
  obtain ⟨⟨calls, s⟩, played, gots⟩ := Option.map_eq_some_iff.mp played
  have run := Queues.runs_of_play .nil played
  obtain ⟨lists, specified, refines, -⟩ := queues_refine run
  exact ⟨calls, s, run, gots, lists, specified, refines⟩

end Ipk24Chat
