import Ipk24Chat.ErrorReport
import Ipk24Chat.ReplyGate

/-!
# Who wakes the sender

The receiver puts messages into the queue and signals the conditions on which the sender
waits, in each branch of `receiverFSM` on its own.

* `marks`: the messages that a run adds and the signals it sends, in their order;
* `wakes`: behind each message both conditions of the sender are signaled;
* `receiverFSM_wakes_iff`: the branches that do not wake the sender.
-/

namespace Ipk24Chat

/-- What matters for the sender's waits. -/
inductive Mark where
  | added
  | signaled (c : Cond)
  deriving DecidableEq, Repr

def Act.mark : Act → Option Mark
  | .queueAddMessage .. | .queueAddMessagePriority .. => some .added
  | .signal c => some (.signaled c)
  | _ => none

/-- Behind every message that is added both conditions of the sender are signaled. -/
def wakes : List Mark → Bool
  | [] => true
  | .added :: rest =>
    rest.contains (.signaled .senderEmptyQueueCond) && rest.contains (.signaled .rec2SenderCond) &&
      wakes rest
  | .signaled _ :: rest => wakes rest

/-- The marks of a run with nothing in between. -/
def marks {α : Type} (t : Thread) (p : Prog α) (c : Client) : List Mark :=
  (p.actions (Client.perform t) c).filterMap Act.mark

theorem wakes_of_signals {marks : List Mark} (none : .added ∉ marks) : wakes marks = true := by
  induction marks with
  | nil => rfl
  | cons m rest ih =>
    cases m with
    | added => exact absurd List.mem_cons_self none
    | signaled c => exact ih fun mem => none (List.mem_cons_of_mem _ mem)

/-- Both signals wake the sender, whatever was added before. -/
theorem wakes_of_signaled {rest : List Mark} (none : .added ∉ rest) (front : List Mark) :
    wakes (front ++ .signaled .senderEmptyQueueCond :: .signaled .rec2SenderCond :: rest) =
      true := by
  induction front with
  | nil =>
    change wakes rest = true
    exact wakes_of_signals none
  | cons m front ih =>
    cases m with
    | added => simp [wakes, ih]
    | signaled c => exact ih

section
variable {cfg : NetworkConfig} {t : Thread} {c c' : Client} {α β : Type}

theorem marks_bind_done {p : Prog α} {a : α} (run : p.exec (Client.perform t) c = .done a c')
    (f : α → Prog β) : marks t (p >>= f) c = marks t p c ++ marks t (f a) c' := by
  unfold marks
  rw [Program.actions_bind_done run, List.filterMap_append]

theorem marks_bind_halted {p : Prog α} (run : p.exec (Client.perform t) c = .halted c')
    (f : α → Prog β) : marks t (p >>= f) c = marks t p c := by
  unfold marks
  rw [Program.actions_bind_halted run]

theorem marks_take_bind (running : c.status = .running) (a : Act) (f : a.Answer → Prog α) :
    marks t (take a >>= f) c =
      match c.act t a with
      | .ok r c' => a.mark.toList ++ marks t (f r) c'
      | .halt _ => a.mark.toList
      | .blocked => [] := by
  simp only [marks, take, Program.perform, Program.act_bind, Program.actions, Client.perform,
    running, Program.ret_bind]
  cases c.act t a <;> cases mark : a.mark <;> simp [mark]

/-- There is no path on which the program adds a message. -/
def AddsNothing (p : Prog α) : Prop := p.Obeys (fun a => a.mark ≠ some .added) fun _ _ => True

theorem addsNothing_rules : Program.Compositional (fun a : Act => a.mark ≠ some .added)
    (fun _ _ => True) AddsNothing := Program.compositional_obeys

theorem added_not_mem {p : Prog α} (h : AddsNothing p) (c : Client) : .added ∉ marks t p c := by
  intro mem
  obtain ⟨a, taken, mark⟩ := List.mem_filterMap.mp mem
  exact Program.actions_obey h c a taken mark

/-! ## The pieces of the receiver -/

section
variable (running : c.status = .running) (cfg : NetworkConfig) (t : Thread)
include running

theorem sendConfirm_marks (serverResponse : Buffer) (flags : MsgFlags) :
    marks t (sendConfirm cfg serverResponse flags) c = [.added] := by
  obtain ⟨fsmState, queue, lock, com, input, scratch, response, seen, heap, reallocs, nextUid,
    status, history⟩ := c
  obtain rfl : status = .running := running
  rfl

variable (unlocked : c.lock = none)
include unlocked

theorem lockedConfirm_marks (serverResponse : Buffer) :
    marks t (lockedConfirm cfg serverResponse) c = [.added] := by
  obtain ⟨fsmState, queue, lock, com, input, scratch, response, seen, heap, reallocs, nextUid,
    status, history⟩ := c
  obtain rfl : status = .running := running
  obtain rfl : lock = none := unlocked
  rfl

theorem sendBye_marks : marks t (sendBye cfg) c = [.added] := by
  obtain ⟨fsmState, queue, lock, com, input, scratch, response, seen, heap, reallocs, nextUid,
    status, history⟩ := c
  obtain rfl : status = .running := running
  obtain rfl : lock = none := unlocked
  obtain ⟨protocol, retries⟩ := cfg
  cases protocol <;> rfl

omit unlocked in
theorem wakeSender_marks {f : Unit → Prog α} :
    marks t (wakeSender >>= f) c =
      .signaled .senderEmptyQueueCond :: .signaled .rec2SenderCond :: marks t (f ()) c := by
  obtain ⟨fsmState, queue, lock, com, input, scratch, response, seen, heap, reallocs, nextUid,
    status, history⟩ := c
  obtain rfl : status = .running := running
  rfl

end

/-! ## The duplicate filter -/

section
variable (running : c.status = .running) (unlocked : c.lock = none) (cfg : NetworkConfig)
  (pBlocks : ProtocolBlocks)
include running unlocked

/-- A message that is remembered, or long enough to be. -/
theorem repetitive_runs
    (known : queueContainsMessageId c.confirmedMessages c.serverResponse pBlocks.type = true ∨
      3 ≤ c.serverResponse.used) :
    ∃ store, (repetitive cfg pBlocks c.serverResponse).exec (Client.perform .receiver) c =
        .done (queueContainsMessageId c.confirmedMessages c.serverResponse pBlocks.type)
          { c with confirmedMessages := store } ∧
      marks .receiver (repetitive cfg pBlocks c.serverResponse) c = [] := by
  unfold repetitive
  by_cases seen : queueContainsMessageId c.confirmedMessages c.serverResponse pBlocks.type = true
  · refine ⟨c.confirmedMessages, ?_, ?_⟩
    · rw [queueLock, exec_take_bind running]
      simp only [Client.act, unlocked]
      rw [exec_take_bind (by exact running)]
      simp only [Client.act, seen, if_true]
      rw [queueUnlock, exec_take_bind (by exact running)]
      simp only [Client.act, ← unlocked, Program.pure_eq, Program.exec_ret]
    · rw [queueLock, marks_take_bind running]
      simp only [Client.act, unlocked]
      rw [marks_take_bind (by exact running)]
      simp only [Client.act, seen, if_true]
      rw [queueUnlock, marks_take_bind (by exact running)]
      rfl
  · have long : ¬ c.serverResponse.used < 3 := by
      have := known.resolve_left seen
      omega
    refine ⟨queueAddMessageOnlyID c.confirmedMessages c.serverResponse pBlocks.type, ?_, ?_⟩
    · rw [queueLock, exec_take_bind running]
      simp only [Client.act, unlocked]
      rw [exec_take_bind (by exact running)]
      simp only [Client.act, seen, long, if_false, Bool.false_eq_true]
      rw [exec_take_bind (by exact running)]
      simp only [Client.act]
      rw [queueUnlock, exec_take_bind (by exact running)]
      simp only [Client.act, ← unlocked, Program.pure_eq, Program.exec_ret]
    · rw [queueLock, marks_take_bind running]
      simp only [Client.act, unlocked]
      rw [marks_take_bind (by exact running)]
      simp only [Client.act, seen, long, if_false, Bool.false_eq_true]
      rw [marks_take_bind (by exact running)]
      simp only [Client.act]
      rw [queueUnlock, marks_take_bind (by exact running)]
      rfl

/-- A message that is too short for its ID stops the receiver with the lock held. -/
theorem repetitive_stops
    (new : ¬ queueContainsMessageId c.confirmedMessages c.serverResponse pBlocks.type = true)
    (short : c.serverResponse.used < 3) :
    ∃ c', (repetitive cfg pBlocks c.serverResponse).exec (Client.perform .receiver) c =
        .halted c' ∧
      marks .receiver (repetitive cfg pBlocks c.serverResponse) c = [.signaled .mainCond] := by
  unfold repetitive
  refine ⟨{ c with lock := some .receiver, fsmState := .fsmErr }, ?_, ?_⟩
  · rw [queueLock, exec_take_bind running]
    simp only [Client.act, unlocked]
    rw [exec_take_bind (by exact running)]
    simp only [Client.act, new, short, if_true]
    obtain ⟨fsmState, queue, lock, com, input, scratch, response, seen, heap, reallocs, nextUid,
      status, history⟩ := c
    obtain rfl : status = .running := running
    rfl
  · rw [queueLock, marks_take_bind running]
    simp only [Client.act, unlocked]
    rw [marks_take_bind (by exact running)]
    simp only [Client.act, new, short, if_true]
    obtain ⟨fsmState, queue, lock, com, input, scratch, response, seen, heap, reallocs, nextUid,
      status, history⟩ := c
    obtain rfl : status = .running := running
    rfl

/-! ## The branches -/

omit running unlocked in
/-- A CONFIRM adds nothing. -/
theorem handleConfirmUDP_marks (msgID : Nat) (c : Client) :
    .added ∉ marks t (handleConfirmUDP msgID) c := by
  refine added_not_mem ?_ c
  refine handleConfirmUDP_obeys addsNothing_rules (fun a calm => ?_) nofun (fun a wiring _ => ?_)
    msgID
  · have usual := calm.1
    cases a <;> first | exact usual.elim | exact nofun
  · cases a <;> first | exact wiring.elim | exact nofun

section
variable (msgID : Nat) (serverResponse : Buffer)
include running

omit unlocked in
theorem handleReplyUDP_marks_ignored (ignored : c.fsmState.awaitsReply = false) :
    marks t (handleReplyUDP cfg msgID pBlocks serverResponse) c = [] := by
  obtain ⟨fsmState, queue, lock, com, input, scratch, response, seen, heap, reallocs, nextUid,
    status, history⟩ := c
  obtain rfl : status = .running := running
  cases fsmState <;> first | rfl | cases ignored

/-- Behind its tests a REPLY is answered. -/
theorem handleReplyUDP_marks (awaited : c.fsmState.awaitsReply = true) :
    ∃ tested, marks t (handleReplyUDP cfg msgID pBlocks serverResponse) c =
      marks t (answerReply cfg pBlocks serverResponse tested >>= fun _ =>
        note (.replyCounter msgID) >>= fun _ => setMsgCounter (msgID + 1)) c := by
  obtain ⟨fsmState, queue, lock, com, input, scratch, response, seen, heap, reallocs, nextUid,
    status, history⟩ := c
  obtain rfl : status = .running := running
  cases fsmState <;> first | exact ⟨_, rfl⟩ | cases awaited

theorem handleReplyUDP_marks_positive (awaited : c.fsmState.awaitsReply = true)
    (positive : positiveUDP pBlocks = true) :
    marks t (handleReplyUDP cfg msgID pBlocks serverResponse) c =
      [.added, .signaled .senderEmptyQueueCond, .signaled .rec2SenderCond] := by
  obtain ⟨tested, eq⟩ := handleReplyUDP_marks (t := t) running unlocked cfg pBlocks msgID
    serverResponse awaited
  rw [eq, answerReply, if_pos positive]
  obtain ⟨fsmState, queue, lock, com, input, scratch, response, seen, heap, reallocs, nextUid,
    status, history⟩ := c
  obtain rfl : status = .running := running
  obtain rfl : lock = none := unlocked
  cases fsmState <;> rfl

/-- A negative REPLY signals main only. -/
theorem handleReplyUDP_marks_negative (awaited : c.fsmState.awaitsReply = true)
    (negative : positiveUDP pBlocks = false) {m : Message} {rest : MessageQueue}
    (queue : c.sendingQueue = m :: rest) :
    marks t (handleReplyUDP cfg msgID pBlocks serverResponse) c =
      [.added, .signaled .mainCond] := by
  obtain ⟨tested, eq⟩ := handleReplyUDP_marks (t := t) running unlocked cfg pBlocks msgID
    serverResponse awaited
  rw [eq, answerReply, if_neg (by simp [negative])]
  obtain ⟨fsmState, _, lock, com, input, scratch, response, seen, heap, reallocs, nextUid,
    status, history⟩ := c
  obtain rfl : status = .running := running
  obtain rfl : lock = none := unlocked
  obtain rfl := queue
  obtain ⟨uid, bytes, count, confirmed, type, flags⟩ := m
  cases flags <;> cases fsmState <;> rfl

/-- Without a message at the head there is no flag to read. -/
theorem handleReplyUDP_marks_empty (awaited : c.fsmState.awaitsReply = true)
    (negative : positiveUDP pBlocks = false) (queue : c.sendingQueue = []) :
    marks t (handleReplyUDP cfg msgID pBlocks serverResponse) c = [] := by
  obtain ⟨tested, eq⟩ := handleReplyUDP_marks (t := t) running unlocked cfg pBlocks msgID
    serverResponse awaited
  rw [eq, answerReply, if_neg (by simp [negative])]
  obtain ⟨fsmState, _, lock, com, input, scratch, response, seen, heap, reallocs, nextUid,
    status, history⟩ := c
  obtain rfl : status = .running := running
  obtain rfl : lock = none := unlocked
  obtain rfl := queue
  rfl

end

omit running unlocked in
/-- Printing adds nothing: a message without its fields ends the program at once. -/
theorem printIncomingMessage_quiet : AddsNothing (printIncomingMessage cfg pBlocks) := by
  unfold printIncomingMessage
  simp only
  split
  · exact ⟨nofun, fun _ _ => ⟨nofun, fun none => none.elim⟩⟩
  · exact ⟨nofun, fun _ _ => trivial⟩

section
variable (udp : cfg.protocol = .protUDP) (msgID : Nat) (serverResponse : Buffer)
include udp

theorem receiverAction_marks_bye (repetitiveMsg : Bool)
    (bye : uchar2msgType pBlocks.type = .msgBye) :
    marks t (receiverAction cfg msgID pBlocks serverResponse repetitiveMsg) c =
      [.added, .signaled .mainCond] := by
  simp only [receiverAction, bye, inUDP, udp]
  obtain ⟨fsmState, queue, lock, com, input, scratch, response, seen, heap, reallocs, nextUid,
    status, history⟩ := c
  obtain rfl : status = .running := running
  obtain rfl : lock = none := unlocked
  rfl

/-- A repetitive REPLY is confirmed and nobody is woken. -/
theorem receiverAction_wakes_reply_iff (repetitiveMsg : Bool)
    (reply : uchar2msgType pBlocks.type = .msgReply) :
    wakes (marks t (receiverAction cfg msgID pBlocks serverResponse repetitiveMsg) c) = true ↔
      repetitiveMsg = false ∧
        (c.fsmState.awaitsReply = true → positiveUDP pBlocks = true ∨ c.sendingQueue = []) := by
  simp only [receiverAction, reply, udp]
  cases repetitiveMsg with
  | true =>
    rw [if_pos rfl, lockedConfirm_marks running cfg t unlocked]
    exact iff_of_false Bool.false_ne_true (fun h => Bool.false_ne_true h.1.symm)
  | false =>
    rw [if_neg Bool.false_ne_true]
    by_cases awaited : c.fsmState.awaitsReply = true
    · cases positive : positiveUDP pBlocks with
      | true =>
        rw [handleReplyUDP_marks_positive running unlocked cfg pBlocks msgID serverResponse awaited
          positive]
        exact iff_of_true (by decide) ⟨rfl, fun _ => Or.inl rfl⟩
      | false =>
        cases queue : c.sendingQueue with
        | nil =>
          rw [handleReplyUDP_marks_empty running unlocked cfg pBlocks msgID serverResponse awaited
            positive queue]
          exact iff_of_true rfl ⟨rfl, fun _ => Or.inr rfl⟩
        | cons m rest =>
          rw [handleReplyUDP_marks_negative running unlocked cfg pBlocks msgID serverResponse
            awaited positive queue]
          exact iff_of_false (by decide) (by simp [awaited])
    · rw [handleReplyUDP_marks_ignored running cfg pBlocks msgID serverResponse
        (Bool.of_not_eq_true awaited)]
      exact iff_of_true rfl ⟨rfl, fun awaits => absurd awaits awaited⟩

/-- The same holds for a MSG; behind a new one the sender is woken. -/
theorem receiverAction_wakes_msg_iff (repetitiveMsg : Bool)
    (msg : uchar2msgType pBlocks.type = .msgMsg) :
    wakes (marks t (receiverAction cfg msgID pBlocks serverResponse repetitiveMsg) c) = true ↔
      repetitiveMsg = false := by
  simp only [receiverAction, msg, udp]
  obtain ⟨m, scratch, reallocs, -, run⟩ :=
    lockedConfirm_exec running unlocked cfg t serverResponse
  rw [marks_bind_done run]
  cases repetitiveMsg with
  | true =>
    rw [lockedConfirm_marks running cfg t unlocked]
    exact iff_of_false Bool.false_ne_true Bool.false_ne_true.symm
  | false =>
    rw [if_neg Bool.false_ne_true, wakeSender_marks (by exact running)]
    have quiet := added_not_mem (t := t) (printIncomingMessage_quiet cfg pBlocks)
    exact iff_of_true (wakes_of_signaled (quiet _) _) rfl

theorem receiverAction_wakes_err (repetitiveMsg : Bool)
    (err : uchar2msgType pBlocks.type = .msgErr) :
    wakes (marks t (receiverAction cfg msgID pBlocks serverResponse repetitiveMsg) c) = true := by
  have quiet : AddsNothing (do
      setProgramState .fsmErr
      printIncomingMessage cfg pBlocks
      pthreadCondSignal .mainCond) := by
    refine take_bind addsNothing_rules nofun fun _ _ => ?_
    refine addsNothing_rules.bind (printIncomingMessage_quiet cfg pBlocks) fun _ => ?_
    exact take_only addsNothing_rules nofun
  simp only [receiverAction, err, inUDP, udp]
  rw [queueLock, marks_take_bind running]
  simp only [Client.act, unlocked]
  rw [queuePopAllMessages, marks_take_bind (by exact running)]
  simp only [Client.act]
  obtain ⟨confirm, scratch, reallocs, -, run⟩ := sendConfirm_exec
    (c := { c with lock := some t, sendingQueue := [] }) running cfg t serverResponse
    .msgFlagConfirm
  rw [marks_bind_done run, sendConfirm_marks (by exact running), queueUnlock,
    marks_take_bind (by exact running)]
  simp only [Client.act]
  obtain ⟨bye, scratch', reallocs', -, run'⟩ := sendBye_exec
    (c := { { c with lock := some t, sendingQueue := [] }.prioritized confirm scratch reallocs with
      lock := none }) running rfl cfg t
  rw [marks_bind_done run', sendBye_marks (by exact running) cfg t rfl,
    wakeSender_marks (by exact running)]
  exact wakes_of_signaled (added_not_mem quiet _) [.added, .added]

/-- A message that nobody knows is confirmed and reported, if there is a name. -/
theorem unknownMessage_wakes_iff :
    wakes (marks t (unknownMessage cfg serverResponse) c) = true ↔ Named c := by
  obtain ⟨protocol, retries⟩ := cfg
  obtain rfl : protocol = .protUDP := udp
  obtain ⟨fsmState, queue, lock, com, input, scratch, response, seen, heap, reallocs, nextUid,
    status, history⟩ := c
  obtain rfl : status = .running := running
  obtain rfl : lock = none := unlocked
  obtain ⟨⟨data, size, used⟩, channel, counter⟩ := com
  cases data with
  | none => exact iff_of_false (Bool.false_ne_true) nofun
  | some mem => exact iff_of_true rfl rfl

end

end

end

/-! ## The receiver -/

/-- The messages whose handling adds nothing to the queue, or wakes the sender behind it. -/
def Rouses (c : Client) (pBlocks : ProtocolBlocks) : Prop :=
  let seen := queueContainsMessageId c.confirmedMessages c.serverResponse pBlocks.type
  seen = false ∧ c.serverResponse.used < 3 ∨
    match uchar2msgType pBlocks.type with
    | .msgConf | .msgErr => True
    | .msgReply => seen = false ∧
      (c.fsmState.awaitsReply = true → positiveUDP pBlocks = true ∨ c.sendingQueue = [])
    | .msgMsg => seen = false
    | .msgBye => False
    | _ => Named c

/-- Both conditions of the sender are signaled behind every message that the receiver adds
exactly for these messages. -/
theorem receiverFSM_wakes_iff {cfg : NetworkConfig} (udp : cfg.protocol = .protUDP) {c : Client}
    (running : c.status = .running) (unlocked : c.lock = none) (msgID : Nat)
    (pBlocks : ProtocolBlocks) :
    wakes (marks .receiver (receiverFSM cfg msgID pBlocks c.serverResponse) c) = true ↔
      Rouses c pBlocks := by
  have split : receiverFSM cfg msgID pBlocks c.serverResponse =
      repetitive cfg pBlocks c.serverResponse >>= fun repetitiveMsg =>
        receiverAction cfg msgID pBlocks c.serverResponse repetitiveMsg := by
    simp only [receiverFSM, udp]
  rw [split]
  by_cases short : queueContainsMessageId c.confirmedMessages c.serverResponse pBlocks.type =
      false ∧ c.serverResponse.used < 3
  · obtain ⟨c', halts, only⟩ := repetitive_stops running unlocked cfg pBlocks
      (Bool.eq_false_iff.mp short.1) short.2
    rw [marks_bind_halted halts, only]
    exact iff_of_true rfl (Or.inl short)
  · have known : queueContainsMessageId c.confirmedMessages c.serverResponse pBlocks.type = true ∨
        3 ≤ c.serverResponse.used := by
      rcases not_and_or.mp short with seen | long
      · exact Or.inl (Bool.of_not_eq_false seen)
      · exact Or.inr (Nat.le_of_not_lt long)
    obtain ⟨store, run, silent⟩ := repetitive_runs running unlocked cfg pBlocks known
    rw [marks_bind_done run, silent, List.nil_append]
    unfold Rouses
    simp only [short, false_or]
    generalize queueContainsMessageId c.confirmedMessages c.serverResponse pBlocks.type = seen
    cases type : uchar2msgType pBlocks.type with
    | msgConf =>
      simp only [receiverAction, type, udp]
      exact iff_of_true (wakes_of_signals (handleConfirmUDP_marks msgID _)) trivial
    | msgReply =>
      exact receiverAction_wakes_reply_iff (by exact running) (by exact unlocked) cfg pBlocks udp
        msgID _ seen type
    | msgMsg =>
      exact receiverAction_wakes_msg_iff (by exact running) (by exact unlocked) cfg pBlocks udp
        msgID _ seen type
    | msgBye =>
      rw [receiverAction_marks_bye (by exact running) (by exact unlocked) cfg pBlocks udp msgID _
        seen type]
      exact iff_of_false (by decide) id
    | msgErr =>
      exact iff_of_true (receiverAction_wakes_err (by exact running) (by exact unlocked) cfg
        pBlocks udp msgID _ seen type) trivial
    | _ =>
      simp only [receiverAction, type]
      exact unknownMessage_wakes_iff (by exact running) (by exact unlocked) cfg udp _

/-- A client whose AUTH is confirmed and not answered yet. -/
def authAtHead : Client :=
  { programInterfaceInit (fun _ _ => 0xC4) ⟨some fun _ => 0, 10, 10⟩ with
    fsmState := .fsmW84Reply
    sendingQueue := [⟨0, [2, 7, 0], 1, true, MsgType.msgAuth.toUChar, .msgFlagAuth⟩]
    nextUid := 1 }

/-- A REPLY with the text "no". -/
def replyNo (result : UInt8) : List UInt8 := [1, 0, 0, result, 7, 0, 110, 111, 0]

/-- The positive REPLY leaves a CONFIRM that the sender is told of. -/
theorem receiverFSM_wakes_positive :
    ∃ d, disassebleProtocolUDP (authAtHead.receiving (replyNo 1)).serverResponse = .ok d ∧
      wakes (marks .receiver (receiverFSM ⟨.protUDP, 3⟩ d.msgId d.pBlocks
        (authAtHead.receiving (replyNo 1)).serverResponse) (authAtHead.receiving (replyNo 1))) =
          true := by
  refine ⟨_, rfl, (receiverFSM_wakes_iff rfl rfl rfl _ _).mpr ?_⟩
  exact Or.inr ⟨by decide +kernel, fun _ => Or.inl (by decide +kernel)⟩

/-- The negative REPLY leaves one that only main is told of. -/
theorem not_wakes_negative :
    ∃ d, disassebleProtocolUDP (authAtHead.receiving (replyNo 0)).serverResponse = .ok d ∧
      wakes (marks .receiver (receiverFSM ⟨.protUDP, 3⟩ d.msgId d.pBlocks
        (authAtHead.receiving (replyNo 0)).serverResponse) (authAtHead.receiving (replyNo 0))) =
          false := by
  refine ⟨_, rfl, ?_⟩
  decide +kernel

end Ipk24Chat
