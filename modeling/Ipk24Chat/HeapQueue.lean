import Mathlib.Data.List.Perm.Subperm
import Ipk24Chat.Chain
import Ipk24Chat.Queue

/-!
# The queue in memory

`MessageQueue` of `msgQueue.c` as it is in memory: nodes on the heap that are
linked by `behindMe`, with pointers to the first and the last of them and a
count. The lists of `Queue` are what these pointers stand for.

* `Represents`: the pointers stand for a list of messages;
* `queueAddMessage_spec`, `linkFirst_spec`, `queuePopMessage_spec`,
  `queuePopAllMessages_spec`: each function does on the pointers what it is to do
  on the list, and dereferences no NULL and nothing freed;
* `heapQueue_refines`: the same for every sequence of calls;
* `messages_apply`, `seen_apply`: the lists are those of `Queue`.
-/

namespace Ipk24Chat

/-- A `Message*`; 0 is NULL. -/
abbrev NodePtr := UInt64

/-- A `Message` without its link. -/
structure Contents where
  /-- `none` is NULL -/
  buffer : Option (List UInt8)
  /-- in a union with `highMsgId` -/
  sendCount : UInt8
  /-- in a union with `lowMsgId` -/
  confirmed : UInt8
  type : UInt8
  msgFlags : MsgFlags
  deriving DecidableEq, Repr

structure Node where
  contents : Contents
  behindMe : NodePtr
  deriving DecidableEq, Repr

/-- A queue with the heap its nodes are on; `heap p = none` is memory that is not
allocated. -/
structure HeapQueue where
  heap : NodePtr → Option Node
  first : NodePtr
  last : NodePtr
  len : UInt64

namespace HeapQueue

/-- `*p`, which needs a node there. -/
def load (q : HeapQueue) (p : NodePtr) : Option Node := if p = 0 then none else q.heap p

def store (q : HeapQueue) (p : NodePtr) (n : Option Node) : HeapQueue :=
  { q with heap := Function.update q.heap p n }

/-- `malloc` may return this address. -/
def Fresh (q : HeapQueue) (p : NodePtr) : Prop := p ≠ 0 ∧ q.heap p = none

def setBehindMe (q : HeapQueue) (p behindMe : NodePtr) : Option HeapQueue :=
  (q.load p).map fun n => q.store p (some { n with behindMe := behindMe })

def setType (q : HeapQueue) (p : NodePtr) (type : UInt8) : Option HeapQueue :=
  (q.load p).map fun n => q.store p (some { n with contents := { n.contents with type := type } })

/-! ## The functions of the source

`new` is the address `malloc` returns and `garbage` what it finds there. `none`
is the dereference of NULL or of freed memory. -/

def queueInit (q : HeapQueue) : HeapQueue := { q with first := 0, last := 0, len := 0 }

/-- `createMessage`, which does not set the type and the link. -/
def createMessage (q : HeapQueue) (new : NodePtr) (garbage : Node) (buffer : Buffer)
    (msgFlags : MsgFlags) : HeapQueue :=
  q.store new (some { garbage with
    contents := ⟨some (bufferCopy buffer), 0, 0, garbage.contents.type, msgFlags⟩ })

def queueAddMessage (q : HeapQueue) (new : NodePtr) (garbage : Node) (buffer : Buffer)
    (msgFlags : MsgFlags) (msgType : UInt8) : Option HeapQueue := do
  let q := q.createMessage new garbage buffer msgFlags
  let q := if q.first = 0 then { q with first := new } else q
  let q ← if q.last ≠ 0 then q.setBehindMe q.last new else some q
  let q := { q with last := new }
  let q ← q.setBehindMe q.last 0
  let q ← q.setType new msgType
  some { q with len := q.len + 1 }

/-- Puts a new node in front, as the two functions do that add there. -/
def linkFirst (q : HeapQueue) (new : NodePtr) : Option HeapQueue := do
  let q := if q.last = 0 then { q with last := new } else q
  let oldFirst := q.first
  let q := { q with first := new }
  let q ← q.setBehindMe new oldFirst
  some { q with len := q.len + 1 }

def queueAddMessagePriority (q : HeapQueue) (new : NodePtr) (garbage : Node) (buffer : Buffer)
    (msgFlags : MsgFlags) (msgType : UInt8) : Option HeapQueue := do
  let q := q.createMessage new garbage buffer msgFlags
  let q ← q.setType new msgType
  q.linkFirst new

/-- The node of `queueAddMessageOnlyID`, before the buffer is looked at. -/
def createMessageOnlyID (q : HeapQueue) (new : NodePtr) (garbage : Node) (msgType : UInt8) :
    HeapQueue :=
  q.store new (some { garbage with
    contents :=
      { garbage.contents with buffer := none, msgFlags := .msgFlagErr, type := msgType } })

/-- The two ID bytes, in the unions. -/
def setMsgId (q : HeapQueue) (p : NodePtr) (high low : UInt8) : Option HeapQueue :=
  (q.load p).map fun n =>
    q.store p (some { n with contents := { n.contents with sendCount := high, confirmed := low } })

/-- What a call comes to. `errHandling` does not return. -/
inductive Call where
  | returned (q : HeapQueue)
  | errHandling (q : HeapQueue) (f : Failure)
  | fault

def Call.of : Option HeapQueue → Call
  | some q => .returned q
  | none => .fault

def queueAddMessageOnlyID (q : HeapQueue) (new : NodePtr) (garbage : Node) (buffer : Buffer)
    (msgType : UInt8) : Call :=
  let q := q.createMessageOnlyID new garbage msgType
  if buffer.used < 3 then
    .errHandling q ⟨"Buffer provided in queueAddMessageOnlyIDis shorter than 3 bytes!",
      .errInternalBadArg⟩
  else .of ((q.setMsgId new (buffer.mem 2) (buffer.mem 1)).bind fun q => q.linkFirst new)

def queuePopMessage (q : HeapQueue) : Option HeapQueue :=
  -- the length is unsigned
  if q.len = 0 then some q
  else do
    let oldFirst := q.first
    let q := { q with first := (← q.load oldFirst).behindMe }
    let q := if oldFirst = q.last then { q with last := 0 } else q
    let q := q.store oldFirst none
    some { q with len := q.len - 1 }

/-- The loop of `queuePopAllMessages`, for at most `fuel` rounds. -/
def popWhile : (fuel : Nat) → HeapQueue → Option HeapQueue
  | 0, q => if q.len = 0 then some q else none
  | fuel + 1, q => if q.len = 0 then some q else q.queuePopMessage.bind (popWhile fuel)

/-- The last line of the source sets `last` once more, not `len`. -/
def queuePopAllMessages (q : HeapQueue) : Option HeapQueue := do
  let q ← q.popWhile q.len.toNat
  some { q with first := 0, last := 0 }

end HeapQueue

open HeapQueue

/-- The calls that change a queue. -/
inductive QueueCall where
  | queueInit
  | queueAddMessage (buffer : Buffer) (msgFlags : MsgFlags) (msgType : UInt8)
  | queueAddMessagePriority (buffer : Buffer) (msgFlags : MsgFlags) (msgType : UInt8)
  | queueAddMessageOnlyID (buffer : Buffer) (msgType : UInt8)
  | queuePopMessage
  | queuePopAllMessages

namespace QueueCall

def run (new : NodePtr) (garbage : Node) (q : HeapQueue) : QueueCall → Call
  | .queueInit => .returned q.queueInit
  | .queueAddMessage buffer msgFlags msgType =>
    .of (q.queueAddMessage new garbage buffer msgFlags msgType)
  | .queueAddMessagePriority buffer msgFlags msgType =>
    .of (q.queueAddMessagePriority new garbage buffer msgFlags msgType)
  | .queueAddMessageOnlyID buffer msgType => q.queueAddMessageOnlyID new garbage buffer msgType
  | .queuePopMessage => .of q.queuePopMessage
  | .queuePopAllMessages => .of q.queuePopAllMessages

def allocates : QueueCall → Bool
  | .queueAddMessage .. | .queueAddMessagePriority .. | .queueAddMessageOnlyID .. => true
  | _ => false

/-- The message that a call to add one makes. -/
def made (buffer : Buffer) (msgFlags : MsgFlags) (msgType : UInt8) : Contents :=
  ⟨some (bufferCopy buffer), 0, 0, msgType, msgFlags⟩

def madeOnlyID (buffer : Buffer) (msgType : UInt8) : Contents :=
  ⟨none, buffer.mem 2, buffer.mem 1, msgType, .msgFlagErr⟩

/-- What the call is to do, on a list. -/
def apply (messages : List Contents) : QueueCall → List Contents
  | .queueInit => []
  | .queueAddMessage buffer msgFlags msgType => messages ++ [made buffer msgFlags msgType]
  | .queueAddMessagePriority buffer msgFlags msgType => made buffer msgFlags msgType :: messages
  | .queueAddMessageOnlyID buffer msgType => madeOnlyID buffer msgType :: messages
  | .queuePopMessage => messages.tail
  | .queuePopAllMessages => []

end QueueCall

/-- A sequence of calls and what its last call comes to. Each call that allocates
gets a node that is not in use. -/
inductive Calls (q₀ : HeapQueue) : List QueueCall → Call → Prop where
  | nil : Calls q₀ [] (.returned q₀)
  | call {calls : List QueueCall} {q : HeapQueue} (op : QueueCall) (new : NodePtr)
      (garbage : Node) (before : Calls q₀ calls (.returned q))
      (fresh : op.allocates = true → q.Fresh new) :
      Calls q₀ (calls ++ [op]) (op.run new garbage q)

/-! ## What the pointers stand for -/

namespace HeapQueue
variable {q : HeapQueue} {messages : List Contents} {nodes : List NodePtr}

def next (q : HeapQueue) (p : NodePtr) : Option NodePtr := (q.load p).map (·.behindMe)

def contents (q : HeapQueue) (p : NodePtr) : Option Contents := (q.load p).map (·.contents)

/-- Following `behindMe` from `first` passes `nodes` and arrives at NULL, and these
hold the messages. -/
structure Represents (q : HeapQueue) (messages : List Contents) (nodes : List NodePtr) : Prop where
  chain : Chain q.next q.first nodes 0
  last : q.last = nodes.getLast?.getD 0
  len : q.len.toNat = nodes.length
  nodup : nodes.Nodup
  contents : nodes.map q.contents = messages.map some

@[simp] theorem next_null (q : HeapQueue) : q.next 0 = none := rfl

theorem load_store_self {p : NodePtr} (n : Option Node) (nonnull : p ≠ 0) :
    (q.store p n).load p = n := by
  simp [load, store, nonnull]

theorem load_store_of_ne {p p' : NodePtr} (n : Option Node) (other : p' ≠ p) :
    (q.store p n).load p' = q.load p' := by
  simp [load, store, Function.update_of_ne other]

theorem Represents.nonnull (h : q.Represents messages nodes) {p : NodePtr} (hp : p ∈ nodes) :
    p ≠ 0 := by
  rintro rfl
  have there := chain_mem h.chain hp
  rw [next_null] at there
  cases there

theorem Represents.not_fresh (h : q.Represents messages nodes) {p new : NodePtr} (hp : p ∈ nodes)
    (fresh : q.Fresh new) : p ≠ new := by
  rintro rfl
  have there := chain_mem h.chain hp
  simp [next, load, fresh.1, fresh.2] at there

theorem Represents.last_null_iff (h : q.Represents messages nodes) : q.last = 0 ↔ q.len = 0 := by
  have len := h.len
  rw [h.last]
  cases nodes using List.reverseRecOn with
  | nil => simpa [← UInt64.toNat_inj] using len
  | append_singleton front l =>
    have nonnull := h.nonnull (p := l) (by simp)
    simp only [List.getLast?_concat, Option.getD_some, nonnull, false_iff]
    rintro zero
    simp [zero] at len

/-- No more nodes than addresses: the count does not wrap around. -/
theorem Represents.length_lt (h : q.Represents messages nodes) {new : NodePtr}
    (fresh : q.Fresh new) : nodes.length + 1 < 2 ^ 64 := by
  have distinct : ((0 :: new :: nodes).map UInt64.toNat).Nodup := by
    refine List.Nodup.map (fun _ _ => UInt64.toNat_inj.mp) ?_
    have away : new ∉ nodes := fun hp => h.not_fresh hp fresh rfl
    have null : (0 : NodePtr) ∉ nodes := fun hp => h.nonnull hp rfl
    simp [away, null, h.nodup, fresh.1.symm]
  have below : (0 :: new :: nodes).map UInt64.toNat ⊆ List.range (2 ^ 64) := by
    intro n hn
    obtain ⟨p, -, rfl⟩ := List.mem_map.mp hn
    exact List.mem_range.mpr p.toNat_lt
  have bound := (List.subperm_of_subset distinct below).length_le
  simp only [List.length_map, List.length_cons, List.length_range] at bound
  omega

theorem len_succ (h : q.Represents messages nodes) {new : NodePtr} (fresh : q.Fresh new) :
    (q.len + 1).toNat = nodes.length + 1 := by
  have bound := h.length_lt fresh
  rw [UInt64.toNat_add, h.len]
  exact Nat.mod_eq_of_lt bound

/-- Nodes that are not written to are linked as before and hold the same. -/
theorem unchanged (q q' : HeapQueue) {nodes : List NodePtr}
    (same : ∀ p ∈ nodes, q'.load p = q.load p) :
    (∀ p ∈ nodes, q'.next p = q.next p) ∧ nodes.map q'.contents = nodes.map q.contents := by
  constructor
  · intro p hp
    simp only [next, same p hp]
  · apply List.map_congr_left
    intro p hp
    simp only [contents, same p hp]

section spec
variable (h : q.Represents messages nodes) {new : NodePtr} (fresh : q.Fresh new)
include h fresh

/-- A node that is not linked yet. -/
theorem store_spec (n : Option Node) : (q.store new n).Represents messages nodes := by
  obtain ⟨links, holds⟩ := unchanged q (q.store new n)
    fun p hp => load_store_of_ne _ (h.not_fresh hp fresh)
  exact ⟨chain_congr h.chain links, h.last, h.len, h.nodup, holds.trans h.contents⟩

theorem linkFirst_spec (n : Node) : ∃ q', (q.store new (some n)).linkFirst new = some q' ∧
    q'.Represents (n.contents :: messages) (new :: nodes) := by
  have nonnull := fresh.1
  refine ⟨{ q.store new (some { n with behindMe := q.first }) with
    first := new, last := if q.last = 0 then new else q.last, len := q.len + 1 }, ?_, ?_⟩
  · by_cases last : q.last = 0 <;>
      simp [linkFirst, setBehindMe, load, store, nonnull, last, Function.update_idem]
  obtain ⟨links, holds⟩ := unchanged q
    (q.store new (some { n with behindMe := q.first }))
    fun p hp => load_store_of_ne _ (h.not_fresh hp fresh)
  have added : (q.store new (some { n with behindMe := q.first })).load new =
    some { n with behindMe := q.first } := load_store_self _ nonnull
  constructor
  case chain => exact ⟨rfl, q.first, congrArg (Option.map _) added, chain_congr h.chain links⟩
  case last =>
    have last := h.last
    cases nodes using List.reverseRecOn with
    | nil => simpa using fun other => absurd last other
    | append_singleton front l =>
      have there := h.nonnull (p := l) (by simp)
      rw [List.getLast?_concat, Option.getD_some] at last
      rw [← List.cons_append, List.getLast?_concat, Option.getD_some]
      simp [last, there]
  case len => exact len_succ h fresh
  case nodup => exact List.nodup_cons.mpr ⟨fun hp => h.not_fresh hp fresh rfl, h.nodup⟩
  case contents =>
    rw [List.map_cons, List.map_cons, ← h.contents, ← holds]
    exact congrArg (· :: _) (congrArg (Option.map _) added)

omit h fresh in
theorem createMessage_setType (nonnull : new ≠ 0) (garbage : Node) (buffer : Buffer)
    (msgFlags : MsgFlags) (msgType : UInt8) :
    (q.createMessage new garbage buffer msgFlags).setType new msgType =
      some (q.store new
        (some ⟨QueueCall.made buffer msgFlags msgType, garbage.behindMe⟩)) := by
  simp [createMessage, setType, load, store, nonnull, Function.update_idem, QueueCall.made]

theorem queueAddMessage_spec (garbage : Node) (buffer : Buffer) (msgFlags : MsgFlags)
    (msgType : UInt8) :
    ∃ q', q.queueAddMessage new garbage buffer msgFlags msgType = some q' ∧
      q'.Represents (messages ++ [QueueCall.made buffer msgFlags msgType]) (nodes ++ [new]) := by
  have nonnull := fresh.1
  cases nodes using List.reverseRecOn with
  | nil =>
    have first : q.first = 0 := h.chain
    have last : q.last = 0 := h.last
    have none : messages = [] := by simpa using h.contents
    refine ⟨{ q.store new (some ⟨QueueCall.made buffer msgFlags msgType, 0⟩) with
      first := new, last := new, len := q.len + 1 }, ?_, ?_⟩
    · simp [queueAddMessage, createMessage, setBehindMe, setType, load, store, nonnull, first, last,
        Function.update_idem, QueueCall.made]
    have added : (q.store new (some ⟨QueueCall.made buffer msgFlags msgType, 0⟩)).load new =
      some ⟨QueueCall.made buffer msgFlags msgType, 0⟩ := load_store_self _ nonnull
    constructor
    case chain => exact ⟨rfl, 0, congrArg (Option.map _) added, rfl⟩
    case last => rfl
    case len => exact len_succ h fresh
    case nodup => simp
    case contents =>
      rw [none]
      exact congrArg ([·]) (congrArg (Option.map _) added)
  | append_singleton front l =>
    have there := h.nonnull (p := l) (by simp)
    have other := h.not_fresh (p := l) (by simp) fresh
    have last : q.last = l := by simpa using h.last
    have first : q.first ≠ 0 := by
      intro zero
      have chain := h.chain
      rw [zero] at chain
      simpa using chain_end chain rfl
    obtain ⟨n, found⟩ : ∃ n, q.load l = some n := by
      have there := chain_mem h.chain (a := l) (by simp)
      simpa [next, Option.isSome_iff_exists] using there
    let q' := (q.store l (some { n with behindMe := new })).store new
      (some ⟨QueueCall.made buffer msgFlags msgType, 0⟩)
    refine ⟨{ q' with last := new, len := q.len + 1 }, ?_, ?_⟩
    · have heap : q.heap l = some n := by simpa [load, there] using found
      simp [q', queueAddMessage, createMessage, setBehindMe, setType, load, store, nonnull, first,
        last, there, heap, other, other.symm, Function.update_idem, QueueCall.made,
        Function.update_comm other]
    have distinct : l ∉ front := by
      have nodup := h.nodup
      simp only [List.nodup_append, List.mem_singleton] at nodup
      intro hl
      exact nodup.2.2 l hl l rfl rfl
    have added : q'.load new = some ⟨QueueCall.made buffer msgFlags msgType, 0⟩ :=
      load_store_self _ nonnull
    have linked : q'.load l = some { n with behindMe := new } :=
      (load_store_of_ne _ other).trans (load_store_self _ there)
    obtain ⟨links, holds⟩ := unchanged q q' (by
      intro p (hp : p ∈ front)
      have away : p ≠ l := fun eq => distinct (eq ▸ hp)
      rw [load_store_of_ne _ (h.not_fresh (by simp [hp]) fresh), load_store_of_ne _ away])
    have held := h.contents
    constructor
    case chain =>
      rw [List.append_assoc]
      exact chain_snoc h.chain links (congrArg (Option.map _) linked)
        (congrArg (Option.map _) added)
    case last => simp
    case len => exact (len_succ h fresh).trans (by simp)
    case nodup =>
      refine List.nodup_append.mpr ⟨h.nodup, by simp, ?_⟩
      intro p hp p' hp'
      rw [List.mem_singleton.mp hp']
      exact h.not_fresh hp fresh
    case contents =>
      have same : q'.contents l = q.contents l := by simp only [contents, linked, found]; rfl
      have new' : q'.contents new = some (QueueCall.made buffer msgFlags msgType) :=
        congrArg (Option.map _) added
      change (front ++ [l] ++ [new]).map q'.contents = _
      rw [List.map_append] at held
      rw [List.map_append, List.map_append, List.map_append, ← held, holds]
      simp [same, new']

end spec

theorem queuePopMessage_spec (h : q.Represents messages nodes) :
    ∃ q', q.queuePopMessage = some q' ∧ q'.Represents messages.tail nodes.tail := by
  cases nodes with
  | nil =>
    have len : q.len = 0 := UInt64.toNat_inj.mp h.len
    have none : messages = [] := by simpa using h.contents
    subst none
    exact ⟨q, by simp [queuePopMessage, len], h⟩
  | cons a rest =>
    obtain ⟨first, b, link, chain⟩ := h.chain
    obtain ⟨absent, nodup⟩ := List.nodup_cons.mp h.nodup
    obtain ⟨n, found, rfl⟩ : ∃ n, q.load a = some n ∧ n.behindMe = b := by
      simpa [next] using link
    have some' : q.len ≠ 0 := by
      intro zero
      have len := h.len
      simp [zero] at len
    refine ⟨{ q.store a none with
      first := n.behindMe, last := if a = q.last then 0 else q.last, len := q.len - 1 }, ?_, ?_⟩
    · simp only [queuePopMessage, some', first, found, store, if_false, Option.bind_eq_bind,
        Option.bind_some]
      split <;> rfl
    obtain ⟨links, holds⟩ := unchanged q (q.store a none) (by
      intro p (hp : p ∈ rest)
      have away : p ≠ a := fun eq => absent (eq ▸ hp)
      exact load_store_of_ne _ away)
    constructor
    case chain => exact chain_congr chain links
    case last =>
      have last := h.last
      cases rest using List.reverseRecOn with
      | nil => simpa using fun other => absurd last.symm other
      | append_singleton front l =>
        rw [← List.cons_append, List.getLast?_concat, Option.getD_some] at last
        have away : a ≠ l := fun eq => absent (by simp [eq])
        simp [last, away]
    case len =>
      have len := h.len
      have one : (1 : UInt64) ≤ q.len := by
        rw [UInt64.le_iff_toNat_le, len]
        simp
      change (q.len - 1).toNat = rest.length
      rw [UInt64.toNat_sub_of_le _ _ one, len]
      rfl
    case nodup => exact nodup
    case contents =>
      have held := congrArg List.tail h.contents
      rw [List.map_cons, List.tail_cons, ← List.map_tail] at held
      exact holds.trans held

theorem popWhile_spec (h : q.Represents messages nodes) :
    ∃ q', q.popWhile nodes.length = some q' ∧ q'.Represents [] [] := by
  induction nodes generalizing q messages with
  | nil =>
    have len : q.len = 0 := UInt64.toNat_inj.mp h.len
    have none : messages = [] := by simpa using h.contents
    subst none
    exact ⟨q, by simp [popWhile, len], h⟩
  | cons a rest ih =>
    have some' : q.len ≠ 0 := by
      intro zero
      have len := h.len
      simp [zero] at len
    obtain ⟨q', popped, rest'⟩ := queuePopMessage_spec h
    obtain ⟨q'', emptied, empty⟩ := ih rest'
    refine ⟨q'', ?_, empty⟩
    simp [popWhile, some', popped, emptied]

theorem queuePopAllMessages_spec (h : q.Represents messages nodes) :
    ∃ q', q.queuePopAllMessages = some q' ∧ q'.Represents [] [] := by
  obtain ⟨q', emptied, empty⟩ := popWhile_spec h
  refine ⟨{ q' with first := 0, last := 0 }, ?_, ?_⟩
  · simp [queuePopAllMessages, h.len, emptied]
  · exact ⟨rfl, rfl, empty.len, List.nodup_nil, rfl⟩

theorem queueInit_spec (q : HeapQueue) : q.queueInit.Represents [] [] :=
  ⟨rfl, rfl, rfl, List.nodup_nil, rfl⟩

end HeapQueue

namespace QueueCall

/-- A call that is ended by `errHandling` before it links anything. -/
def tooShort : QueueCall → Bool
  | .queueAddMessageOnlyID buffer _ => decide (buffer.used < 3)
  | _ => false

/-- **One call.** It does on the pointers what it is to do on the list. -/
theorem run_spec {q : HeapQueue} {messages : List Contents} {nodes : List NodePtr}
    (h : q.Represents messages nodes) (op : QueueCall) (new : NodePtr) (garbage : Node)
    (fresh : op.allocates = true → q.Fresh new) :
    if op.tooShort then
      ∃ q' f, op.run new garbage q = .errHandling q' f ∧ q'.Represents messages nodes
    else
      ∃ q' nodes', op.run new garbage q = .returned q' ∧
        q'.Represents (op.apply messages) nodes' := by
  cases op with
  | queueInit => exact ⟨_, _, rfl, queueInit_spec q⟩
  | queueAddMessage buffer msgFlags msgType =>
    obtain ⟨q', run, stands⟩ :=
      queueAddMessage_spec h (fresh rfl) garbage buffer msgFlags msgType
    exact ⟨q', _, by rw [QueueCall.run, run, Call.of], stands⟩
  | queueAddMessagePriority buffer msgFlags msgType =>
    have made := createMessage_setType (q := q) (fresh rfl).1 garbage buffer msgFlags msgType
    obtain ⟨q', run, stands⟩ :=
      linkFirst_spec h (fresh rfl) ⟨QueueCall.made buffer msgFlags msgType, garbage.behindMe⟩
    refine ⟨q', _, ?_, stands⟩
    simp only [QueueCall.run, HeapQueue.queueAddMessagePriority, made, Option.bind_eq_bind,
      Option.bind_some, run, Call.of]
  | queueAddMessageOnlyID buffer msgType =>
    have nonnull := (fresh rfl).1
    by_cases short : buffer.used < 3
    · simp only [tooShort, short, decide_true, if_true]
      refine ⟨_, _, if_pos short, ?_⟩
      exact store_spec h (fresh rfl) _
    · simp only [tooShort, short, decide_false, Bool.false_eq_true, if_false]
      obtain ⟨q', run, stands⟩ :=
        linkFirst_spec h (fresh rfl) ⟨madeOnlyID buffer msgType, garbage.behindMe⟩
      refine ⟨q', _, ?_, stands⟩
      have made : (q.createMessageOnlyID new garbage msgType).setMsgId new (buffer.mem 2)
          (buffer.mem 1) =
          some (q.store new (some ⟨madeOnlyID buffer msgType, garbage.behindMe⟩)) := by
        simp [createMessageOnlyID, setMsgId, load, store, nonnull, Function.update_idem, madeOnlyID]
      simp only [QueueCall.run, HeapQueue.queueAddMessageOnlyID, short, if_false, made,
        Option.bind_some, run, Call.of]
  | queuePopMessage =>
    obtain ⟨q', run, stands⟩ := queuePopMessage_spec h
    exact ⟨q', _, by rw [QueueCall.run, run, Call.of], stands⟩
  | queuePopAllMessages =>
    obtain ⟨q', run, stands⟩ := queuePopAllMessages_spec h
    exact ⟨q', _, by rw [QueueCall.run, run, Call.of], stands⟩

/-! ## The lists of `Queue` -/

/-- A message of the sending queue; lists of the same messages differ in nothing but
the identities. -/
def message (contents : Contents) : Message :=
  ⟨0, contents.buffer.getD [], contents.sendCount.toNat, contents.confirmed ≠ 0, contents.type,
    contents.msgFlags⟩

/-- A message of the ID-only queue. -/
def seen (contents : Contents) : SeenMessage :=
  ⟨contents.sendCount, contents.confirmed, contents.type⟩

theorem messages_apply (messages : List Contents) (buffer : Buffer) (msgFlags : MsgFlags)
    (msgType : UInt8) :
    (apply messages (.queueAddMessage buffer msgFlags msgType)).map message =
        MessageQueue.addMessage (messages.map message)
          (Ipk24Chat.createMessage 0 buffer msgFlags msgType) ∧
      (apply messages (.queueAddMessagePriority buffer msgFlags msgType)).map message =
        MessageQueue.addMessagePriority (messages.map message)
          (Ipk24Chat.createMessage 0 buffer msgFlags msgType) ∧
      (apply messages .queuePopMessage).map message =
        MessageQueue.popMessage (messages.map message) := by
  refine ⟨?_, rfl, ?_⟩
  · simp [apply, MessageQueue.addMessage, message, made, Ipk24Chat.createMessage]
  · simp [apply, MessageQueue.popMessage]

theorem seen_apply (messages : List Contents) (buffer : Buffer) (msgType : UInt8) :
    (apply messages (.queueAddMessageOnlyID buffer msgType)).map seen =
      Ipk24Chat.queueAddMessageOnlyID (messages.map seen) buffer msgType := rfl

end QueueCall

theorem calls_spec {q₀ : HeapQueue} {nodes₀ : List NodePtr} (init : q₀.Represents [] nodes₀)
    {calls : List QueueCall} {result : Call} (h : Calls q₀ calls result) :
    (∃ q nodes, result = .returned q ∧
        q.Represents (calls.foldl QueueCall.apply []) nodes) ∨
      ∃ earlier op q f nodes, calls = earlier ++ [op] ∧ op.tooShort = true ∧
        result = .errHandling q f ∧ q.Represents (earlier.foldl QueueCall.apply []) nodes := by
  induction h with
  | nil => exact Or.inl ⟨q₀, nodes₀, rfl, init⟩
  | @call calls q op new garbage before fresh ih =>
    rcases ih with ⟨q', nodes, same, stands⟩ | ⟨_, _, _, _, _, _, _, ended, _⟩
    · cases same
      have step := op.run_spec stands new garbage fresh
      split at step
      · obtain ⟨q', f, ended, same⟩ := step
        exact Or.inr ⟨calls, op, q', f, nodes, rfl, ‹_›, ended, same⟩
      · obtain ⟨q', nodes', returned, stands'⟩ := step
        refine Or.inl ⟨q', nodes', returned, ?_⟩
        rw [List.foldl_append]
        exact stands'
    · cases ended

/-- **The queue in memory refines the list.** After every sequence of calls that
starts with `queueInit` and whose nodes are fresh, the pointers stand for the list
that the same calls make of the empty one: `behindMe` leads from `first` over
exactly `len` different nodes to NULL, the last of them is `last`, and they hold
the messages in their order. No call dereferences NULL or freed memory; the only
one that does not return is `queueAddMessageOnlyID` on less than three bytes,
which leaves the queue as it was. -/
theorem heapQueue_refines {q₀ : HeapQueue} {calls : List QueueCall} {result : Call}
    (h : Calls q₀.queueInit calls result) :
    (∃ q nodes, result = .returned q ∧
        q.Represents (calls.foldl QueueCall.apply []) nodes ∧ (q.last = 0 ↔ q.len = 0)) ∨
      ∃ earlier op q f nodes, calls = earlier ++ [op] ∧ op.tooShort = true ∧
        result = .errHandling q f ∧ q.Represents (earlier.foldl QueueCall.apply []) nodes := by
  rcases calls_spec (queueInit_spec q₀) h with ⟨q, nodes, returned, stands⟩ | ended
  · exact Or.inl ⟨q, nodes, returned, stands, stands.last_null_iff⟩
  · exact Or.inr ended

/-- A message is queued and a CONFIRM is put in front of it. -/
theorem heapQueue_refines_hi :
    ∃ q nodes, Calls (queueInit ⟨fun _ => none, 7, 7, 7⟩)
        [.queueAddMessage ⟨some fun _ => 104, 1, 1⟩ .msgFlagNone 4,
          .queueAddMessagePriority ⟨some fun _ => 0, 3, 3⟩ .msgFlagConfirm 0] (.returned q) ∧
      q.Represents [⟨some [0, 0, 0], 0, 0, 0, .msgFlagConfirm⟩,
        ⟨some [104], 0, 0, 4, .msgFlagNone⟩] nodes := by
  obtain ⟨q₁, first, free⟩ : ∃ q, Calls (queueInit ⟨fun _ => none, 7, 7, 7⟩)
      [.queueAddMessage ⟨some fun _ => 104, 1, 1⟩ .msgFlagNone 4] (.returned q) ∧
      q.heap 32 = none :=
    ⟨_, Calls.nil.call _ 16 ⟨⟨none, 9, 9, 9, .msgFlagNone⟩, 16⟩ fun _ => ⟨by decide, rfl⟩, rfl⟩
  have calls := first.call (.queueAddMessagePriority ⟨some fun _ => 0, 3, 3⟩ .msgFlagConfirm 0)
    32 ⟨⟨none, 9, 9, 9, .msgFlagNone⟩, 16⟩ fun _ => ⟨by decide, free⟩
  rcases heapQueue_refines calls with ⟨q, nodes, e, stands, -⟩ | ⟨_, op, _, _, _, same, short, -⟩
  · exact ⟨q, nodes, e ▸ calls, stands⟩
  · have last := congrArg List.getLast? same
    simp only [List.getLast?_concat, Option.some.injEq] at last
    subst last
    cases short

end Ipk24Chat
