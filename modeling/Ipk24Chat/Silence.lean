import Ipk24Chat.FilterPass
import Ipk24Chat.StopAndWait

/-!
# The sender and a silent server

The loop of `protocolSender` in the UDP variant, pass after pass, when neither main nor
the receiver moves.

* `Rests`: after finitely many passes there is one that does not go on;
* `stuckIn`: the queues on which the sender locks itself out instead;
* `Client.weight`: what every pass that goes on makes smaller;
* `pass_result`: how a pass ends, by its weight and by what is stuck;
* `rests_iff`: the sender comes to rest exactly where it is not stuck.
-/

namespace Ipk24Chat

/-- A pass of the loop, with enough fuel for its filter. -/
def senderPass (cfg : NetworkConfig) (c : Client) (bytesTx : Int) : Prog Point :=
  protocolSender cfg (c.sendingQueue.length + 1) bytesTx

/-- The first part of a pass: the lock and the filter. -/
def filtering (cfg : NetworkConfig) (c : Client) : Prog Bool := do
  queueLock
  filterResentMessages cfg (c.sendingQueue.length + 1)

/-- Behind the filter the queue is empty, and the sender waits for a message. -/
def WaitsEmpty (cfg : NetworkConfig) (c : Client) : Prop :=
  ∃ c', (filtering cfg c).exec (Client.perform .sender) c = .done false c' ∧
    c'.sendingQueue = [] ∧ c'.fsmState ≠ .fsmEmptyQBye ∧ c'.fsmState ≠ .fsmSigintBye

/-- The pass calls `errHandling` or looks for a head where there is none. -/
def Aborts (cfg : NetworkConfig) (c : Client) (bytesTx : Int) : Prop :=
  Fails cfg .sender (senderPass cfg c bytesTx) c ∨
    ∃ c', (senderPass cfg c bytesTx).exec (Client.perform .sender) c = .halted c' ∧
      c'.status = .faulted

/-- From the `k`-th pass on the sender comes to rest; `bytesTx` is what `sendto` returns in
each pass. -/
inductive Rests (cfg : NetworkConfig) (bytesTx : Nat → Int) : Nat → Client → Prop
  | ended {k : Nat} {c : Client} (state : c.fsmState = .fsmEnd) : Rests cfg bytesTx k c
  | empty {k : Nat} {c : Client} (waits : WaitsEmpty cfg c) : Rests cfg bytesTx k c
  /-- one of the waits inside `logicFSM` -/
  | logicWait {k : Nat} {c c' : Client} {p : Point}
    (run : (senderPass cfg c (bytesTx k)).exec (Client.perform .sender) c = .done p c')
    (point : p = .logicWaitSend ∨ p = .logicWaitAgain) : Rests cfg bytesTx k c
  | abort {k : Nat} {c : Client} (aborts : Aborts cfg c (bytesTx k)) : Rests cfg bytesTx k c
  | next {k : Nat} {c c' : Client}
    (run : (senderPass cfg c (bytesTx k)).exec (Client.perform .sender) c =
      .done .protocolSender c')
    (rest : Rests cfg bytesTx (k + 1) c') : Rests cfg bytesTx k c

/-! ## Where the sender locks itself out -/

/-- The next message that is not thrown away has timed out. -/
def nextIsLate (cfg : NetworkConfig) (queue : MessageQueue) : Bool :=
  match queue.dropWhile (Message.dropped cfg) with
  | [] => false
  | m :: _ => cfg.udpMaxRetries.val < m.sendCount

/-- While the CONFIRM of the BYE is waited for, a message times out and the next one has
timed out already: the first one ends the program, the second one starts an error report,
and the loop is reset with the lock held. In the error states the messages in front of the
BYE are sent or thrown away first. -/
def stuckIn (cfg : NetworkConfig) : Fsm → MessageQueue → Bool
  | _, [] => false
  | state, m :: rest =>
    if m.dropped cfg then stuckIn cfg state rest
    else match state with
      | .fsmEndW84Conf =>
        if m.sendCount ≤ cfg.udpMaxRetries.val ∧ m.msgFlags.sentOnce then stuckIn cfg state rest
        else nextIsLate cfg rest
      | .fsmErr =>
        if cfg.udpMaxRetries.val < m.sendCount then false
        else match m.msgFlags with
          | .msgFlagBye => nextIsLate cfg rest
          | .msgFlagErr => stuckIn cfg .fsmErrW84Conf rest
          | .msgFlagConfirm => stuckIn cfg .fsmErr rest
          | _ => false
      | .fsmErrW84Conf =>
        if cfg.udpMaxRetries.val < m.sendCount then stuckIn cfg .fsmErrW84Conf rest
        else match m.msgFlags with
          | .msgFlagBye => nextIsLate cfg rest
          | .msgFlagErr | .msgFlagConfirm => stuckIn cfg .fsmErrW84Conf rest
          | _ => false
      | _ => false

/-- The error report needs a display name. -/
def Client.Stuck (cfg : NetworkConfig) (c : Client) : Prop :=
  Named c ∧ stuckIn cfg c.fsmState c.sendingQueue = true

/-! ## What gets smaller -/

/-- How far the states are from the end. -/
def Fsm.rank : Fsm → Nat
  | .fsmEnd => 0
  | .fsmEndW84Conf => 1
  | .fsmErrW84Conf => 2
  | .fsmErr => 3
  | _ => 4

/-- The length of the queue, and how often its head can be sent. -/
def MessageQueue.load (queue : MessageQueue) : Nat :=
  queue.length * 256 + (255 - (queue.head?.map Message.sendCount).getD 0)

def Client.weight (c : Client) : Nat := c.fsmState.rank * 1024 + c.sendingQueue.load

theorem load_lt_of_length_lt {queue queue' : MessageQueue} (h : queue'.length < queue.length) :
    queue'.load < queue.load := by
  unfold MessageQueue.load
  omega

section
variable {cfg : NetworkConfig} {state : Fsm} {queue rest : MessageQueue} {m : Message}

theorem load_filtered_le : (queue.filtered cfg state).load ≤ queue.load := by
  have suffix : queue.filtered cfg state <:+ queue := List.dropWhile_suffix _
  rcases Nat.lt_or_ge (queue.filtered cfg state).length queue.length with shorter | same
  · exact (load_lt_of_length_lt shorter).le
  · rw [suffix.eq_of_length_le same]

theorem length_kept_le (cfg : NetworkConfig) (m : Message) : (m.kept cfg).length ≤ 1 := by
  unfold Message.kept
  split
  · split <;> simp
  · simp

/-! ## What is stuck stays so -/

theorem stuckIn_dropped (dropped : m.dropped cfg = true) :
    stuckIn cfg state (m :: rest) = stuckIn cfg state rest := by
  cases state <;> simp only [stuckIn, dropped, if_true]

/-- The states in which a BYE is sent or was sent. -/
def Fsm.leaves : Fsm → Bool
  | .fsmEndW84Conf | .fsmErr | .fsmErrW84Conf => true
  | _ => false

theorem stuckIn_stays (stays : state.leaves = false) : stuckIn cfg state queue = false := by
  induction queue with
  | nil => cases state <;> rfl
  | cons m rest ih =>
    by_cases dropped : m.dropped cfg = true
    · rw [stuckIn_dropped dropped, ih]
    · cases state <;> simp_all [stuckIn, Fsm.leaves]

theorem stuckIn_filtered :
    stuckIn cfg state (queue.filtered cfg state) = stuckIn cfg state queue := by
  induction queue with
  | nil => rfl
  | cons m rest ih =>
    by_cases gone : (m.dropped cfg || (state = .fsmErrW84Conf &&
      cfg.udpMaxRetries.val < m.sendCount)) = true
    · have skip : MessageQueue.filtered cfg state (m :: rest) =
          MessageQueue.filtered cfg state rest := by
        simp only [MessageQueue.filtered, List.dropWhile_cons, gone, if_true]
      rw [skip, ih]
      by_cases dropped : m.dropped cfg = true
      · rw [stuckIn_dropped dropped]
      · have late : state = .fsmErrW84Conf ∧ cfg.udpMaxRetries.val < m.sendCount := by
          simpa [dropped] using gone
        obtain ⟨rfl, late⟩ := late
        simp only [stuckIn, dropped, Bool.false_eq_true, if_false, late, if_true]
    · have same : MessageQueue.filtered cfg state (m :: rest) = m :: rest := by
        simp only [MessageQueue.filtered, List.dropWhile_cons, gone]
        rfl
      rw [same]

/-- What of a message the filter and the sending look at. -/
structure Message.Alike (m m' : Message) : Prop where
  msgFlags : m'.msgFlags = m.msgFlags
  confirmed : m'.confirmed = m.confirmed
  sendCount : m'.sendCount = m.sendCount

theorem labelled_alike (msgCounter : Nat) : m.Alike (m.labelled cfg msgCounter) := by
  unfold Message.labelled
  split
  · split <;> exact ⟨rfl, rfl, rfl⟩
  · exact ⟨rfl, rfl, rfl⟩

theorem kept_eq (udp : cfg.protocol = .protUDP) :
    m.kept cfg = if m.msgFlags.sentOnce then []
      else [{ m with sendCount := (m.sendCount + 1) % 256 }] := by
  unfold Message.kept
  rw [udp]
  cases m.msgFlags <;> rfl

/-- What is sent is popped, or counted. -/
theorem load_kept (udp : cfg.protocol = .protUDP) {m' : Message} (alike : m.Alike m')
    (room : m.sendCount ≤ 254) :
    MessageQueue.load (m'.kept cfg ++ rest) < MessageQueue.load (m :: rest) := by
  have count := alike.sendCount
  rw [kept_eq udp]
  split
  · exact load_lt_of_length_lt (by simp)
  · simp only [MessageQueue.load, List.singleton_append, List.length_cons, List.head?_cons,
      Option.map_some, Option.getD_some]
    omega

/-- The filter throws a message away for its flags and for its CONFIRM only. -/
theorem dropped_alike {m' : Message} (kept : m.dropped cfg = false)
    (early : m.sendCount ≤ cfg.udpMaxRetries.val) (flags : m'.msgFlags = m.msgFlags)
    (confirmed : m'.confirmed = m.confirmed) : m'.dropped cfg = false := by
  simp only [Message.dropped, early, decide_true, Bool.true_and] at kept
  simp only [Message.dropped, flags, confirmed, kept, Bool.and_false]

theorem stuckIn_late (kept : m.dropped cfg = false) (late : cfg.udpMaxRetries.val < m.sendCount)
    (err : state ≠ .fsmErrW84Conf) (bye : state ≠ .fsmEndW84Conf) :
    stuckIn cfg state (m :: rest) = false := by
  cases state with
  | fsmErrW84Conf => exact absurd rfl err
  | fsmEndW84Conf => exact absurd rfl bye
  | fsmErr => simp only [stuckIn, kept, late, Bool.false_eq_true, if_false, if_true]
  | _ => exact stuckIn_stays rfl

theorem stuckIn_late_bye (kept : m.dropped cfg = false)
    (late : cfg.udpMaxRetries.val < m.sendCount) :
    stuckIn cfg .fsmEndW84Conf (m :: rest) = (rest.filtered cfg .fsmEnd).headLate cfg := by
  have short : ¬ m.sendCount ≤ cfg.udpMaxRetries.val := by omega
  simp only [stuckIn, kept, short, Bool.false_eq_true, if_false, false_and, nextIsLate,
    MessageQueue.filtered, reduceCtorEq, decide_false, Bool.false_and, Bool.or_false]
  rfl

/-- How `logicFSM` moves between the states: towards the end, and away from the error
states never. -/
theorem logic_state {result : LogicResult} {state' : Fsm}
    (decided : logic cfg m state = some (result, state')) :
    state'.rank ≤ state.rank ∧ (state.leaves = false → state'.leaves = false) := by
  cases state with
  | fsmStart | fsmAuthW82BeSended | fsmAuthSended | fsmW84Reply =>
    cases decided
    simp only [Message.authState]
    split <;> decide
  | fsmW84ReplyConf =>
    cases decided
    split <;> decide
  | fsmOpen =>
    simp only [logic] at decided
    cases type : uchar2msgType m.type <;> rw [type] at decided <;> cases decided <;> decide
  | fsmErr | fsmErrW84Conf =>
    simp only [logic] at decided
    cases flags : m.msgFlags <;> cases protocol : cfg.protocol <;>
      rw [flags, protocol] at decided <;> cases decided <;> decide
  | _ =>
    cases decided
    decide

theorem Message.Fresh.not_dropped {uid : Nat} {type : UInt8} {flags : MsgFlags}
    (fresh : m.Fresh uid type flags) (other : flags ≠ .msgFlagRejected) :
    m.dropped cfg = false := by
  simp [Message.dropped, fresh.msgFlags, fresh.confirmed, other]

/-- What stays of a message that was sent is at the head again. -/
theorem stuckIn_kept (udp : cfg.protocol = .protUDP) {m' : Message} (alike : m.Alike m')
    (kept : m.dropped cfg = false) (early : m.sendCount ≤ cfg.udpMaxRetries.val) {state' : Fsm}
    (decided : logic cfg m state = some (.proceed, state')) :
    stuckIn cfg state' (m'.kept cfg ++ rest) = stuckIn cfg state (m :: rest) := by
  have short : ¬ cfg.udpMaxRetries.val < m.sendCount := by omega
  obtain ⟨again, eq, flags', kept'⟩ : ∃ again : Message,
      { m' with sendCount := (m'.sendCount + 1) % 256 } = again ∧ again.msgFlags = m.msgFlags ∧
        again.dropped cfg = false :=
    ⟨_, rfl, alike.msgFlags, dropped_alike kept early alike.msgFlags alike.confirmed⟩
  rw [kept_eq udp, eq, alike.msgFlags]
  cases state with
  | fsmEndW84Conf =>
    obtain rfl : Fsm.fsmEndW84Conf = state' := by simpa [logic] using decided
    cases once : m.msgFlags.sentOnce <;> simp [stuckIn, kept, kept', early, once, flags']
  | fsmErr | fsmErrW84Conf =>
    simp only [logic, udp] at decided
    cases flags : m.msgFlags <;> rw [flags] at decided flags' <;> cases decided <;>
      simp [stuckIn, kept, kept', short, flags, flags', MsgFlags.sentOnce]
  | _ => rw [stuckIn_stays ((logic_state decided).2 rfl), stuckIn_stays rfl]

/-- A message that `logicFSM` holds back or refuses is not followed by more. -/
theorem stuckIn_held (udp : cfg.protocol = .protUDP) (kept : m.dropped cfg = false)
    (early : m.sendCount ≤ cfg.udpMaxRetries.val)
    (held : ∀ state', logic cfg m state ≠ some (.proceed, state')) :
    stuckIn cfg state (m :: rest) = false := by
  have short : ¬ cfg.udpMaxRetries.val < m.sendCount := by omega
  cases state with
  | fsmEndW84Conf => exact absurd rfl (held .fsmEndW84Conf)
  | fsmErr | fsmErrW84Conf =>
    simp only [logic, udp] at held
    cases flags : m.msgFlags <;> rw [flags] at held <;>
      first | exact absurd rfl (held _) | simp [stuckIn, kept, short, flags]
  | _ => exact stuckIn_stays rfl

end

/-! ## A pass -/

section
variable {cfg : NetworkConfig} {c c' : Client} {bytesTx : Int}

theorem senderPass_advance (udp : cfg.protocol = .protUDP) (running : c.status = .running)
    (state : c.fsmState ≠ .fsmEnd) (bytesTx : Int) :
    (senderPass cfg c bytesTx).advance (Client.perform .sender) 1 c =
      some (filtering cfg c >>= filteredBody cfg bytesTx, c) := by
  unfold senderPass protocolSender filtering
  rw [getProgramState, advance_take_bind running]
  simp only [Client.act, if_neg state, udp, Program.advance, Program.bind_assoc]
  rfl

theorem filtering_advance (running : c.status = .running) (unlocked : c.lock = none) :
    (filtering cfg c).advance (Client.perform .sender) 2 c =
      some (filterLoop cfg (c.sendingQueue.length + 1) c.sendingQueue.getMessage false,
        { c with lock := some .sender }) := by
  unfold filtering filterResentMessages
  rw [queueLock, advance_take_bind running]
  simp only [Client.act, unlocked]
  rw [queueGetMessage, advance_take_bind (by exact running)]
  simp only [Client.act, Program.advance]

section
variable (udp : cfg.protocol = .protUDP) (running : c.status = .running)
  (state : c.fsmState ≠ .fsmEnd)
include udp running state

theorem senderPass_exec (bytesTx : Int) {reset : Bool}
    (filter : (filtering cfg c).exec (Client.perform .sender) c = .done reset c') :
    (senderPass cfg c bytesTx).exec (Client.perform .sender) c =
      (filteredBody cfg bytesTx reset).exec (Client.perform .sender) c' := by
  rw [Program.exec_advance (senderPass_advance udp running state bytesTx), Program.exec_bind,
    filter, Outcome.bind_done]

theorem senderPass_fails {reset : Bool}
    (filter : (filtering cfg c).exec (Client.perform .sender) c = .done reset c')
    (failed : Fails cfg .sender (filteredBody cfg bytesTx reset) c') : Aborts cfg c bytesTx :=
  Or.inl (.of_advance (senderPass_advance udp running state bytesTx) (.after filter failed))

end

/-- The client with the lock and the filtered queue, where `logicFSM` is called. -/
def Client.filteredTo (c : Client) (queue : MessageQueue) : Client :=
  { c with lock := some .sender, sendingQueue := queue }

section
variable (udp : cfg.protocol = .protUDP) (running : c.status = .running)
  (state : c.fsmState ≠ .fsmEnd) (running' : c'.status = .running)
  {m : Message} {rest : MessageQueue} (queue : c'.sendingQueue = m :: rest)
  (filter : (filtering cfg c).exec (Client.perform .sender) c = .done false c')
include udp running state running' queue filter

theorem senderPass_logic :
    (senderPass cfg c bytesTx).exec (Client.perform .sender) c =
      (logicAndSend cfg bytesTx).exec (Client.perform .sender) (c'.resumed .sender) := by
  rw [senderPass_exec udp running state bytesTx filter]
  exact Program.exec_advance (senderBody_advance running' cfg .sender queue bytesTx)

theorem aborts_of_logic
    (failed : Fails cfg .sender (logicAndSend cfg bytesTx) (c'.resumed .sender)) :
    Aborts cfg c bytesTx :=
  senderPass_fails udp running state filter
    (.of_advance (senderBody_advance running' cfg .sender queue bytesTx) failed)

end

/-- There is nothing to send. -/
theorem sendHead_faults (cfg : NetworkConfig) (bytesTx : Int) (t : Thread)
    (running : c.status = .running) (empty : c.sendingQueue = []) :
    ∃ c', (sendHead cfg bytesTx).exec (Client.perform t) c = .halted c' ∧
      c'.status = .faulted := by
  obtain ⟨fsmState, _, lock, com, input, scratch, response, seen, heap, reallocs, nextUid,
    status, history⟩ := c
  obtain rfl : status = .running := running
  obtain rfl := empty
  obtain ⟨protocol, retries⟩ := cfg
  cases protocol <;> exact ⟨_, rfl, rfl⟩

/-- How a pass ends. -/
inductive PassResult (cfg : NetworkConfig) (c : Client) (bytesTx : Int) : Prop
  | waits (empty : WaitsEmpty cfg c) (free : ¬ c.Stuck cfg)
  | logicWait {p : Point} {c' : Client}
    (run : (senderPass cfg c bytesTx).exec (Client.perform .sender) c = .done p c')
    (point : p = .logicWaitSend ∨ p = .logicWaitAgain) (free : ¬ c.Stuck cfg)
  | aborts (aborts : Aborts cfg c bytesTx) (free : 0 ≤ bytesTx → ¬ c.Stuck cfg)
  | goesOn {c' : Client}
    (run : (senderPass cfg c bytesTx).exec (Client.perform .sender) c =
      .done .protocolSender c')
    (busy : ¬ WaitsEmpty cfg c) (running : c'.status = .running) (unlocked : c'.lock = none)
    (less : c'.weight < c.weight) (same : c'.Stuck cfg ↔ c.Stuck cfg)
  | ends {c' : Client}
    (run : (senderPass cfg c bytesTx).exec (Client.perform .sender) c =
      .done .protocolSender c')
    (state : c'.fsmState = .fsmEnd) (free : ¬ c.Stuck cfg)
  | locksUp {c' : Client}
    (run : (senderPass cfg c bytesTx).exec (Client.perform .sender) c =
      .done .protocolSender c')
    (busy : ¬ WaitsEmpty cfg c) (timedOut : TimedOut .sender c') (stuck : c.Stuck cfg)

theorem not_waitsEmpty {reset : Bool}
    (filter : (filtering cfg c).exec (Client.perform .sender) c = .done reset c')
    (goes : reset = true ∨ c'.sendingQueue ≠ []) : ¬ WaitsEmpty cfg c := by
  rintro ⟨c'', run, empty, -⟩
  rw [filter] at run
  cases run
  rcases goes with reset | some
  · cases reset
  · exact some empty

section
variable (udp : cfg.protocol = .protUDP) (room : cfg.udpMaxRetries.val ≤ 254)
  (running : c.status = .running) (state : c.fsmState ≠ .fsmEnd)
include udp running state

/-- The filter leaves nothing. -/
theorem pass_of_empty
    (filter : (filtering cfg c).exec (Client.perform .sender) c = .done false c')
    (running' : c'.status = .running) (queue : c'.sendingQueue = [])
    (free : ¬ c.Stuck cfg) : PassResult cfg c bytesTx := by
  have run := senderPass_exec udp running state bytesTx filter
  by_cases byes : c'.fsmState = .fsmEmptyQBye ∨ c'.fsmState = .fsmSigintBye
  · have body := senderBody_empty running' cfg .sender queue bytesTx
    rw [if_pos byes] at body
    exact .ends (run.trans body) rfl free
  · obtain ⟨noEmpty, noSigint⟩ := not_or.mp byes
    exact .waits ⟨c', filter, queue, noEmpty, noSigint⟩ free

/-- The filter leaves a message that is discarded, and the next one is sent. -/
theorem pass_of_discard {m : Message} {rest : MessageQueue} (opened : c.fsmState = .fsmOpen)
    (auth : uchar2msgType m.type = .msgAuth)
    (filter : (filtering cfg c).exec (Client.perform .sender) c =
      .done false (c.filteredTo (m :: rest)))
    (shorter : MessageQueue.load (m :: rest) ≤ c.sendingQueue.load) :
    PassResult cfg c bytesTx := by
  have free {c : Client} (opened : c.fsmState = .fsmOpen) : ¬ c.Stuck cfg := by
    rintro ⟨-, stuck⟩
    rw [opened, stuckIn_stays rfl] at stuck
    cases stuck
  have discards := logicFSM_discards (c := (c.filteredTo (m :: rest)).resumed .sender) running cfg
    .sender rfl opened auth
  have run : (senderPass cfg c bytesTx).exec (Client.perform .sender) c = _ :=
    senderPass_logic udp running state (by exact running) rfl filter
  rw [logicAndSend, Program.exec_bind, discards, Outcome.bind_done] at run
  cases rest with
  | nil =>
    obtain ⟨c', faults, status⟩ := sendHead_faults cfg bytesTx .sender
      (c := { (c.filteredTo [m]).resumed .sender with
        sendingQueue := [], history := .authDiscarded :: .senderResumed :: c.history })
      running rfl
    exact .aborts (Or.inr ⟨c', run.trans faults, status⟩) fun _ => free opened
  | cons m' rest' =>
    by_cases sent : 0 ≤ bytesTx
    · have sends := sendHead_exec (c := { (c.filteredTo (m :: m' :: rest')).resumed .sender with
        sendingQueue := m' :: rest', history := .authDiscarded :: .senderResumed :: c.history })
        running cfg .sender rfl sent
      refine .goesOn (run.trans sends) (not_waitsEmpty filter (Or.inr (List.cons_ne_nil _ _)))
        running rfl ?_ ?_
      · have one := length_kept_le cfg (m'.labelled cfg c.comDetails.msgCounter)
        have less : MessageQueue.load
            ((m'.labelled cfg c.comDetails.msgCounter).kept cfg ++ rest') <
            MessageQueue.load (m :: m' :: rest') := by
          apply load_lt_of_length_lt
          simp only [List.length_append, List.length_cons]
          omega
        exact Nat.add_lt_add_left (less.trans_le shorter) _
      · exact iff_of_false (free opened) (free opened)
    · have fails : Fails cfg .sender (sendHead cfg bytesTx)
          { (c.filteredTo (m :: m' :: rest')).resumed .sender with
            sendingQueue := m' :: rest'
            history := .authDiscarded :: .senderResumed :: c.history } :=
        sendHead_fails (by exact running) cfg .sender rfl (by omega)
      refine .aborts ?_ fun _ => free opened
      exact aborts_of_logic udp running state (by exact running) rfl filter (.after discards fails)

include room

/-- The filter leaves a message that has not timed out. -/
theorem pass_of_head {m : Message} {rest : MessageQueue}
    (queue : c.sendingQueue.filtered cfg c.fsmState = m :: rest)
    (early : m.sendCount ≤ cfg.udpMaxRetries.val)
    (filter : (filtering cfg c).exec (Client.perform .sender) c =
      .done false (c.filteredTo (m :: rest))) : PassResult cfg c bytesTx := by
  have kept := (filtered_head queue).1
  have shorter : MessageQueue.load (m :: rest) ≤ c.sendingQueue.load := by
    rw [← queue]
    exact load_filtered_le
  have stuck : c.Stuck cfg ↔ Named c ∧ stuckIn cfg c.fsmState (m :: rest) = true := by
    rw [← queue, stuckIn_filtered]
    rfl
  have run : (senderPass cfg c bytesTx).exec (Client.perform .sender) c =
      (logicAndSend cfg bytesTx).exec (Client.perform .sender)
        ((c.filteredTo (m :: rest)).resumed .sender) :=
    senderPass_logic udp running state (by exact running) rfl filter
  have fails (failed : Fails cfg .sender (logicAndSend cfg bytesTx)
      ((c.filteredTo (m :: rest)).resumed .sender)) : Aborts cfg c bytesTx :=
    aborts_of_logic udp running state (by exact running) rfl filter failed
  have held (holds : ∀ state', logic cfg m c.fsmState ≠ some (.proceed, state')) :
      ¬ c.Stuck cfg := by
    rw [stuck, stuckIn_held udp kept early holds]
    exact fun h => Bool.false_ne_true h.2
  cases decided : logic cfg m c.fsmState with
  | none =>
    by_cases opened : c.fsmState = .fsmOpen
    · have auth : uchar2msgType m.type = .msgAuth := by
        rw [opened] at decided
        simp only [logic] at decided
        cases type : uchar2msgType m.type <;> simp_all
      exact pass_of_discard udp running state opened auth filter shorter
    · refine .aborts (fails ?_) fun _ => held (by simp [decided])
      exact logicAndSend_fails (by exact running) cfg .sender rfl (Or.inl ⟨decided, opened⟩)
  | some r =>
    obtain ⟨result, state'⟩ := r
    by_cases proceeds : result = .proceed
    · subst proceeds
      by_cases sent : 0 ≤ bytesTx
      · have sends := logicAndSend_sends (c := (c.filteredTo (m :: rest)).resumed .sender) running
          cfg .sender rfl decided sent
        refine .goesOn (run.trans sends) (not_waitsEmpty filter (Or.inr (List.cons_ne_nil _ _)))
          running rfl ?_ ?_
        · have less : MessageQueue.load
              ((m.labelled cfg c.comDetails.msgCounter).kept cfg ++ rest) <
              MessageQueue.load (m :: rest) := load_kept udp (labelled_alike _) (by omega)
          have ranks := (logic_state decided).1
          change state'.rank * 1024 +
            MessageQueue.load ((m.labelled cfg c.comDetails.msgCounter).kept cfg ++ rest) <
              c.fsmState.rank * 1024 + c.sendingQueue.load
          omega
        · rw [stuck, ← stuckIn_kept udp (labelled_alike c.comDetails.msgCounter) kept early decided]
          rfl
      · refine .aborts (fails ?_) fun sent' => absurd sent' sent
        exact logicAndSend_fails (by exact running) cfg .sender rfl
          (Or.inr ⟨⟨state', decided⟩, by omega⟩)
    · obtain ⟨p, point, waits⟩ := logicAndSend_waits
        (c := (c.filteredTo (m :: rest)).resumed .sender) running cfg .sender rfl decided proceeds
        bytesTx
      refine .logicWait (run.trans waits) point (held fun state'' eq => ?_)
      rw [decided] at eq
      cases eq
      exact proceeds rfl

omit room

/-- A request timed out: the ERR that reports it is sent in the same pass. -/
theorem pass_of_report (ranked : 3 ≤ c.fsmState.rank) (free : ¬ c.Stuck cfg)
    (filter : (filtering cfg c).exec (Client.perform .sender) c = .done false c')
    (timedOut : TimedOut .sender c') : PassResult cfg c bytesTx := by
  obtain ⟨err, bye, _, _, queue, fresh, fresh'⟩ := timedOut.queue
  have run : (senderPass cfg c bytesTx).exec (Client.perform .sender) c =
      (logicAndSend cfg bytesTx).exec (Client.perform .sender) (c'.resumed .sender) :=
    senderPass_logic udp running state timedOut.running queue filter
  have decided : logic cfg err c'.fsmState = some (.proceed, .fsmErrW84Conf) := by
    simp only [timedOut.state, logic, fresh.msgFlags, udp]
  by_cases sent : 0 ≤ bytesTx
  · have sends := logicAndSend_sends (c := c'.resumed .sender) timedOut.running cfg .sender queue
      decided sent
    have busy : ¬ WaitsEmpty cfg c := not_waitsEmpty filter (Or.inr (by simp [queue]))
    refine .goesOn (run.trans sends) busy timedOut.running rfl ?_ (iff_of_false ?_ free)
    · have less : MessageQueue.load
          ((err.labelled cfg c'.comDetails.msgCounter).kept cfg ++ [bye]) <
          MessageQueue.load [err, bye] :=
        load_kept udp (labelled_alike _) (by rw [fresh.sendCount]; omega)
      have load : MessageQueue.load [err, bye] = 767 := by
        simp [MessageQueue.load, fresh.sendCount]
      change 2 * 1024 + MessageQueue.load
        ((err.labelled cfg c'.comDetails.msgCounter).kept cfg ++ [bye]) < _
      unfold Client.weight
      omega
    · rintro ⟨-, stuck⟩
      have unstuck : stuckIn cfg .fsmErrW84Conf
          ((err.labelled cfg c'.comDetails.msgCounter).kept cfg ++ [bye]) = false := by
        rw [timedOut.state] at decided
        rw [stuckIn_kept udp (labelled_alike _) (fresh.not_dropped (by decide))
          (by rw [fresh.sendCount]; omega) decided]
        simp [stuckIn, fresh.not_dropped (by decide), fresh'.not_dropped (by decide),
          fresh.msgFlags, fresh'.msgFlags, fresh.sendCount, fresh'.sendCount, nextIsLate]
      exact Bool.false_ne_true (unstuck.symm.trans stuck)
  · refine .aborts ?_ fun sent' => absurd sent' sent
    exact aborts_of_logic udp running state timedOut.running queue filter
      (logicAndSend_fails (c := c'.resumed .sender) timedOut.running cfg .sender queue
        (Or.inr ⟨⟨_, decided⟩, by omega⟩))

/-- The BYE timed out: the program ends, or the next message starts an error report. -/
theorem pass_of_bye (unlocked : c.lock = none) (bye : c.fsmState = .fsmEndW84Conf) {m : Message}
    {rest : MessageQueue} (queue : c.sendingQueue.filtered cfg c.fsmState = m :: rest)
    (late : cfg.udpMaxRetries.val < m.sendCount) : PassResult cfg c bytesTx := by
  have first : (filtering cfg c).advance (Client.perform .sender) 2 c = _ :=
    filtering_advance running unlocked
  obtain ⟨n, fuel, enough, byes⟩ : ∃ n fuel, rest.length < fuel ∧ _ :=
    filterLoop_filtered_bye (t := .sender) (c := { c with lock := some .sender }) running
      (Nat.lt_succ_self _) bye queue late false
  have comes := (Program.exec_advance first).trans (Program.exec_advance byes)
  have stuck : c.Stuck cfg ↔ Named c ∧ (rest.filtered cfg .fsmEnd).headLate cfg = true := by
    rw [← stuckIn_late_bye (filtered_head queue).1 late, ← bye, ← queue, stuckIn_filtered]
    rfl
  cases filterLoop_filtered (t := .sender)
    (c := { c with lock := some .sender, fsmState := .fsmEnd, sendingQueue := rest }) running enough
    nofun true with
  | stops early run =>
    have pass := senderPass_exec udp running state bytesTx (comes.trans run)
    refine .ends pass rfl fun h => ?_
    rw [stuck, early] at h
    cases h.2
  | reports late' named run timedOut =>
    exact .locksUp (senderPass_exec udp running state bytesTx (comes.trans run))
      (not_waitsEmpty (comes.trans run) (Or.inl rfl)) timedOut (stuck.mpr ⟨named, late'⟩)
  | fails late' nameless failed =>
    refine .aborts (Or.inl ?_) fun _ stuck => nameless stuck.1
    exact .of_advance (senderPass_advance udp running state bytesTx)
      (Fails.bind (.of_advance first (.of_advance byes failed)) _)

include room

theorem pass_result (unlocked : c.lock = none) : PassResult cfg c bytesTx := by
  have first : (filtering cfg c).advance (Client.perform .sender) 2 c = _ :=
    filtering_advance running unlocked
  have comes := Program.exec_advance first
  by_cases bye : c.fsmState = .fsmEndW84Conf ∧
      (c.sendingQueue.filtered cfg c.fsmState).headLate cfg = true
  · obtain ⟨waits, late⟩ := bye
    cases queue : c.sendingQueue.filtered cfg c.fsmState with
    | nil =>
      rw [queue] at late
      cases late
    | cons m rest =>
      rw [queue] at late
      exact pass_of_bye udp running state unlocked waits queue (of_decide_eq_true late)
  · have early (waits : c.fsmState = .fsmEndW84Conf) :
        (c.sendingQueue.filtered cfg c.fsmState).headLate cfg = false := by
      simpa [waits] using bye
    cases filterLoop_filtered (t := .sender) (c := { c with lock := some .sender }) running
      (Nat.lt_succ_self _) early false with
    | stops early run =>
      cases queue : c.sendingQueue.filtered cfg c.fsmState with
      | nil =>
        rw [queue] at run
        refine pass_of_empty udp running state (comes.trans run) running rfl fun stuck => ?_
        have stuck := stuck.2
        rw [← stuckIn_filtered, queue] at stuck
        cases stuck
      | cons m rest =>
        rw [queue] at run early
        exact pass_of_head udp room running state queue
          (Nat.not_lt.mp (of_decide_eq_false early)) (comes.trans run)
    | reports late named run timedOut =>
      cases queue : c.sendingQueue.filtered cfg c.fsmState with
      | nil =>
        rw [queue] at late
        cases late
      | cons m rest =>
        have waits : c.fsmState ≠ .fsmEndW84Conf := by
          intro waits
          rw [early waits] at late
          cases late
        obtain ⟨kept, errs⟩ := filtered_head queue
        rw [queue] at late
        have late := of_decide_eq_true late
        have err : c.fsmState ≠ .fsmErrW84Conf := fun err => errs err late
        refine pass_of_report udp running state ?_ (fun stuck => ?_) (comes.trans run) timedOut
        · cases known : c.fsmState <;> simp_all [Fsm.rank]
        · have stuck := stuck.2
          rw [← stuckIn_filtered, queue, stuckIn_late kept late err waits] at stuck
          cases stuck
    | fails late nameless failed =>
      refine .aborts (Or.inl ?_) fun _ stuck => nameless stuck.1
      exact .of_advance (senderPass_advance udp running state bytesTx)
        (Fails.bind (.of_advance first failed) _)

end

/-! ## Pass after pass -/

/-- The loop was reset with the lock held: the next pass waits for its own lock. -/
theorem filtering_locked (timedOut : TimedOut .sender c) :
    (filtering cfg c).exec (Client.perform .sender) c = .halted c := by
  unfold filtering
  rw [queueLock, exec_take_bind timedOut.running]
  simp only [Client.act, timedOut.held]

theorem senderPass_locked (udp : cfg.protocol = .protUDP) (timedOut : TimedOut .sender c)
    (bytesTx : Int) : (senderPass cfg c bytesTx).exec (Client.perform .sender) c = .halted c := by
  have state : c.fsmState ≠ .fsmEnd := by simp [timedOut.state]
  rw [Program.exec_advance (senderPass_advance udp timedOut.running state bytesTx),
    Program.exec_bind, filtering_locked timedOut, Outcome.bind_halted]

/-- `errHandling` neither looks at the state nor takes the lock first. -/
theorem errHandling_ne {α : Type} (f : Failure) {a : Act} {next : a.Answer → Prog α}
    (other : a = .getProgramState ∨ a = .queueLock) :
    (.act a next : Prog α) ≠ errHandling cfg f := by
  intro eq
  rcases other with rfl | rfl <;> cases code : f.errorCode <;>
    simp only [errHandling, code] at eq <;> cases eq

theorem not_aborts_locked (udp : cfg.protocol = .protUDP) (timedOut : TimedOut .sender c)
    (bytesTx : Int) : ¬ Aborts cfg c bytesTx := by
  rintro (⟨n, f, c', run⟩ | ⟨c', run, status⟩)
  · have state : c.fsmState ≠ .fsmEnd := by simp [timedOut.state]
    have first := senderPass_advance udp timedOut.running state bytesTx
    match n with
    | 0 => exact errHandling_ne f (Or.inl rfl) (congrArg Prod.fst (Option.some.inj run))
    | 1 =>
      rw [first] at run
      exact errHandling_ne f (Or.inr rfl) (congrArg Prod.fst (Option.some.inj run))
    | k + 2 =>
      rw [show k + 2 = 1 + (k + 1) by omega, Program.advance_add first, filtering,
        Program.bind_assoc, queueLock, advance_take_bind timedOut.running] at run
      simp only [Client.act, timedOut.held] at run
      cases run
  · rw [senderPass_locked udp timedOut bytesTx] at run
    cases run
    rw [timedOut.running] at status
    cases status

theorem not_rests_locked (udp : cfg.protocol = .protUDP) (timedOut : TimedOut .sender c)
    {bytesTx : Nat → Int} {k : Nat} : ¬ Rests cfg bytesTx k c := by
  have stopped := senderPass_locked udp timedOut (bytesTx k)
  intro rests
  cases rests with
  | ended state =>
    rw [timedOut.state] at state
    cases state
  | empty waits =>
    obtain ⟨c', run, -⟩ := waits
    rw [filtering_locked timedOut] at run
    cases run
  | logicWait run point =>
    rw [stopped] at run
    cases run
  | abort aborts => exact not_aborts_locked udp timedOut (bytesTx k) aborts
  | next run rest =>
    rw [stopped] at run
    cases run

theorem rests_of_not_stuck (udp : cfg.protocol = .protUDP) (room : cfg.udpMaxRetries.val ≤ 254)
    (bytesTx : Nat → Int) (k : Nat) (running : c.status = .running) (unlocked : c.lock = none)
    (free : ¬ c.Stuck cfg) : Rests cfg bytesTx k c := by
  induction weight : c.weight using Nat.strongRecOn generalizing c k with
  | ind w ih =>
    by_cases ended : c.fsmState = .fsmEnd
    · exact .ended ended
    · have result : PassResult cfg c (bytesTx k) := pass_result udp room running ended unlocked
      cases result with
      | waits empty => exact .empty empty
      | logicWait run point => exact .logicWait run point
      | aborts aborts => exact .abort aborts
      | goesOn run busy running' unlocked' less same =>
        refine .next run (ih _ (weight ▸ less) (k + 1) running' unlocked' ?_ rfl)
        exact fun stuck => free (same.mp stuck)
      | ends run state => exact .next run (.ended state)
      | locksUp run busy timedOut stuck => exact absurd stuck free

/-- A stuck sender goes on until it has locked itself out. -/
theorem pass_of_stuck (udp : cfg.protocol = .protUDP) (room : cfg.udpMaxRetries.val ≤ 254)
    (sent : 0 ≤ bytesTx) (running : c.status = .running) (unlocked : c.lock = none)
    (stuck : c.Stuck cfg) :
    ¬ WaitsEmpty cfg c ∧ ∃ c', (senderPass cfg c bytesTx).exec (Client.perform .sender) c =
        .done .protocolSender c' ∧
      (TimedOut .sender c' ∨ c'.status = .running ∧ c'.lock = none ∧ c'.Stuck cfg) := by
  have state : c.fsmState ≠ .fsmEnd := by
    intro ended
    have stuck := stuck.2
    rw [ended, stuckIn_stays rfl] at stuck
    cases stuck
  have result : PassResult cfg c bytesTx := pass_result udp room running state unlocked
  cases result with
  | waits empty free => exact absurd stuck free
  | logicWait run point free => exact absurd stuck free
  | aborts aborts free => exact absurd stuck (free sent)
  | goesOn run busy running' unlocked' less same =>
    exact ⟨busy, _, run, Or.inr ⟨running', unlocked', same.mpr stuck⟩⟩
  | ends run state free => exact absurd stuck free
  | locksUp run busy timedOut stuck => exact ⟨busy, _, run, Or.inl timedOut⟩

theorem not_rests_of_stuck (udp : cfg.protocol = .protUDP) (room : cfg.udpMaxRetries.val ≤ 254)
    {bytesTx : Nat → Int} (sent : ∀ k, 0 ≤ bytesTx k) {k : Nat} (running : c.status = .running)
    (unlocked : c.lock = none) (stuck : c.Stuck cfg) : ¬ Rests cfg bytesTx k c := by
  intro rests
  induction rests with
  | ended state =>
    have stuck := stuck.2
    rw [state, stuckIn_stays rfl] at stuck
    cases stuck
  | @empty k c waits =>
    exact (pass_of_stuck udp room (sent k) running unlocked stuck).1 waits
  | @logicWait k c _ p run point =>
    obtain ⟨-, c', goes, -⟩ := pass_of_stuck udp room (sent k) running unlocked stuck
    rw [goes] at run
    cases run
    rcases point with eq | eq <;> cases eq
  | @abort k c aborts =>
    obtain ⟨-, c', goes, -⟩ := pass_of_stuck udp room (sent k) running unlocked stuck
    rcases aborts with failed | ⟨c'', run, -⟩
    · obtain ⟨c'', halted⟩ := failed.halted
      rw [goes] at halted
      cases halted
    · rw [goes] at run
      cases run
  | @next k c c' run rest ih =>
    obtain ⟨-, c'', goes, behind⟩ := pass_of_stuck udp room (sent k) running unlocked stuck
    rw [goes] at run
    cases run
    rcases behind with timedOut | ⟨running', unlocked', stuck'⟩
    · exact not_rests_locked udp timedOut rest
    · exact ih running' unlocked' stuck'

end

theorem rests_iff {cfg : NetworkConfig} (udp : cfg.protocol = .protUDP)
    (room : cfg.udpMaxRetries.val ≤ 254) {c : Client} (running : c.status = .running)
    (unlocked : c.lock = none) :
    (∀ bytesTx, Rests cfg bytesTx 0 c) ↔
      ¬ (Named c ∧ stuckIn cfg c.fsmState c.sendingQueue = true) := by
  constructor
  · intro rests stuck
    have sent (k : Nat) : 0 ≤ (fun _ => 0 : Nat → Int) k := Int.le_refl 0
    exact not_rests_of_stuck udp room sent running unlocked stuck (rests fun _ => 0)
  · intro free bytesTx
    exact rests_of_not_stuck udp room bytesTx 0 running unlocked free

/-- A client that waits for the CONFIRM of its BYE, with `sendCount` transmissions of each
of two messages. -/
def twoByes (sendCount : Nat) : Client :=
  { programInterfaceInit (fun _ _ => 0xC4) ⟨some fun _ => 0, 10, 10⟩ with
    fsmState := .fsmEndW84Conf
    comDetails := ⟨⟨some fun _ => 0, 2, 1⟩, .init, 7⟩
    sendingQueue :=
      [⟨0, [0xFF, 0, 6], sendCount, false, MsgType.msgBye.toUChar, .msgFlagBye⟩,
        ⟨1, [0xFF, 0, 7], sendCount, false, MsgType.msgBye.toUChar, .msgFlagBye⟩] }

/-- The second message has transmissions left when the first one times out. -/
theorem rests_iff_twoByes : Rests ⟨.protUDP, 3⟩ (fun _ => 7) 0 (twoByes 3) := by
  have free : ¬ (Named (twoByes 3) ∧
      stuckIn ⟨.protUDP, 3⟩ (twoByes 3).fsmState (twoByes 3).sendingQueue = true) :=
    fun stuck => Bool.false_ne_true stuck.2
  exact (rests_iff rfl (by decide) rfl rfl).mpr free fun _ => 7

/-- Both timed out: the sender waits for its own lock. -/
theorem not_rests : ¬ Rests ⟨.protUDP, 3⟩ (fun _ => 7) 0 (twoByes 4) :=
  not_rests_of_stuck rfl (by decide) (fun _ => by decide) rfl rfl ⟨rfl, rfl⟩

end Ipk24Chat
