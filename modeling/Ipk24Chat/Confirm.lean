import Mathlib.Data.List.Infix
import Ipk24Chat.WholePass

/-!
# What a CONFIRM answers

`handleConfirmUDP` compares the ID of a CONFIRM with the ID bytes in the buffer of
the message at the head, except for AUTH. A message that was sent still has the
bytes of its last transmission there.

* `confirm_matches`: a CONFIRM that is accepted for a message that was sent, other
  than AUTH, carries the ID of the last transmission of that message.
-/

namespace Ipk24Chat

/-! ## Identities and transmissions -/

/-- The identities of queued messages are used once and never again. -/
structure Identified (c : Client) : Prop where
  fresh : ∀ uid ∈ c.sendingQueue.uids, uid < c.nextUid
  distinct : c.sendingQueue.uids.Nodup
  old : ∀ m, .transmitted m ∈ c.history → m.uid < c.nextUid

/-- The message, if the event is a transmission of message `uid`. -/
def Event.transmission (uid : Nat) : Event → Option Message
  | .transmitted m => if m.uid = uid then some m else none
  | _ => none

/-- The last transmission of message `uid`; the history has the newest event first. -/
def lastTransmission (uid : Nat) (history : List Event) : Option Message :=
  history.findSome? (Event.transmission uid)

theorem lastTransmission_cons (uid : Nat) (e : Event) (history : List Event) :
    lastTransmission uid (e :: history) =
      (e.transmission uid).or (lastTransmission uid history) := by
  simp only [lastTransmission, List.findSome?_cons]
  cases e.transmission uid <;> rfl

theorem mem_of_lastTransmission {uid : Nat} {history : List Event} {sent : Message}
    (h : lastTransmission uid history = some sent) :
    .transmitted sent ∈ history ∧ sent.uid = uid := by
  obtain ⟨e, mem, eq⟩ := List.exists_of_findSome?_eq_some h
  cases e <;> simp only [Event.transmission, reduceCtorEq] at eq
  split at eq <;> cases eq
  exact ⟨mem, ‹_›⟩

theorem Identified.act {t : Thread} {c c' : Client} {a : Act} {r : a.Answer} (hc : Identified c)
    (h : c.act t a = .ok r c') (noted : ∀ m, a ≠ .note (.transmitted m)) : Identified c' := by
  have grows : c.nextUid ≤ c'.nextUid := by
    rw [Client.act_nextUid h]
    exact Nat.le_add_right _ _
  have known : ∀ m, .transmitted m ∈ c'.history → m.uid < c.nextUid := by
    intro m hm
    rw [Client.act_history h, List.mem_append] at hm
    rcases hm with new | before
    · have sends : c.emitted a = some (.transmitted m) := by simpa using new
      cases a <;> simp only [Client.emitted, reduceCtorEq, Option.some.injEq] at sends
      case setConfirmed p => cases deref : c.sendingQueue.deref p <;> simp [deref] at sends
      case sendto p =>
        obtain ⟨sent, deref, eq⟩ := Option.map_eq_some_iff.mp sends
        obtain rfl := Event.transmitted.inj eq
        apply hc.fresh
        exact List.mem_map_of_mem (Client.mem_of_deref deref)
      case note e => exact absurd (sends ▸ rfl) (noted m)
    · exact hc.old m before
  rcases Client.act_uids h with ⟨sub, same⟩ | ⟨added, next⟩
  · constructor
    · intro uid mem
      exact same ▸ hc.fresh uid (sub.mem mem)
    · exact hc.distinct.sublist sub
    · intro m hm
      exact same ▸ known m hm
  · have unused : c.nextUid ∉ c.sendingQueue.uids := fun mem => Nat.lt_irrefl _ (hc.fresh _ mem)
    have members : ∀ uid ∈ c'.sendingQueue.uids, uid ∈ c.sendingQueue.uids ∨ uid = c.nextUid := by
      intro uid mem
      rcases added with eq | eq <;> rw [eq] at mem <;> simpa [or_comm] using mem
    constructor
    · intro uid mem
      rcases members uid mem with before | rfl
      · exact Nat.lt_of_lt_of_le (hc.fresh uid before) grows
      · omega
    · rcases added with eq | eq <;> rw [eq]
      · rw [List.nodup_append]
        refine ⟨hc.distinct, by simp, ?_⟩
        intro x mem y new
        rw [List.mem_singleton.mp new]
        exact fun eq => unused (eq ▸ mem)
      · exact List.nodup_cons.mpr ⟨unused, hc.distinct⟩
    · intro m hm
      exact Nat.lt_of_lt_of_le (known m hm) grows

/-! ## Accepted CONFIRMs -/

/-- A message that was sent is in the history, with the bytes it has. -/
structure Recorded (m : Message) (history : List Event) : Prop where
  counted : 0 < m.sendCount → ∃ sent, lastTransmission m.uid history = some sent
  labelled : ∀ sent, lastTransmission m.uid history = some sent → sent.buffer = m.buffer

/-- A message that a CONFIRM was accepted for was recorded before, and unless it is an AUTH it
has the ID bytes of the CONFIRM. -/
def ConfirmsMatch (history : List Event) : Prop :=
  ∀ m low high earlier, .confirmed m low high :: earlier <:+ history →
    Recorded m earlier ∧
      (m.type ≠ MsgType.msgAuth.toUChar → low = m.lowMsgIdByte ∧ high = m.highMsgIdByte)

/-- The messages in the queue are recorded. -/
structure Traced (c : Client) : Prop where
  identified : Identified c
  recorded : ∀ m ∈ c.sendingQueue, Recorded m c.history
  matched : ConfirmsMatch c.history

/-- The events that are neither transmissions nor accepted CONFIRMs. -/
def Event.quiet : Event → Bool
  | .transmitted _ | .confirmed .. => false
  | _ => true

/-- The actions that label, send, count and confirm no message. -/
def Act.Untraced : Act → Prop
  | .queueSetMessageID | .sendto _ | .queueMessageSended | .setConfirmed _ => False
  | .note e => e.quiet = true
  | _ => True

theorem lastTransmission_quiet (uid : Nat) {e : Event} (quiet : e.quiet = true)
    (history : List Event) :
    lastTransmission uid (e :: history) = lastTransmission uid history := by
  have none : e.transmission uid = none := by cases e <;> simp_all [Event.quiet, Event.transmission]
  rw [lastTransmission_cons, none, Option.none_or]

theorem confirmsMatch_quiet {e : Event} (quiet : e.quiet = true) {history : List Event}
    (h : ConfirmsMatch history) : ConfirmsMatch (e :: history) := by
  intro m low high earlier suffix
  rcases List.suffix_cons_iff.mp suffix with eq | before
  · obtain ⟨rfl, -⟩ := List.cons.inj eq
    cases quiet
  · exact h m low high earlier before

theorem traced_act {t : Thread} {c c' : Client} {a : Act} {r : a.Answer} (hc : Traced c)
    (ok : a.Untraced) (h : c.act t a = .ok r c') : Traced c' := by
  have quiet : ∀ e ∈ c.emitted a, e.quiet = true := by
    intro e mem
    cases a <;> simp_all [Client.emitted, Act.Untraced, Event.quiet] <;> cases mem <;> rfl
  have history : (∀ uid, lastTransmission uid c'.history = lastTransmission uid c.history) ∧
      ConfirmsMatch c'.history := by
    rw [Client.act_history h]
    cases emitted : c.emitted a with
    | none => exact ⟨fun _ => rfl, hc.matched⟩
    | some e =>
      have quiet := quiet e (by simp [emitted])
      exact ⟨fun uid => lastTransmission_quiet uid quiet _, confirmsMatch_quiet quiet hc.matched⟩
  have identified : Identified c' := by
    apply hc.identified.act h
    intro m eq
    subst eq
    cases ok
  refine ⟨identified, fun m mem => ⟨fun positive => ?_, fun sent last => ?_⟩, history.2⟩
  · rw [history.1]
    rw [Client.act_queue h] at mem
    rcases Client.mem_queueAfter mem with ⟨m', mem', stays⟩ | ⟨_, _, _, -, rfl⟩
    · rw [← stays.sendCount (by rintro rfl; exact ok)] at positive
      exact stays.uid ▸ (hc.recorded m' mem').counted positive
    · exact absurd positive (Nat.lt_irrefl 0)
  rw [history.1] at last
  have core : m.core ∈ c'.sendingQueue.map Message.core := List.mem_map_of_mem mem
  have before (there : m.core ∈ c.sendingQueue.map Message.core) : sent.buffer = m.buffer := by
    obtain ⟨m', mem', eq⟩ := List.mem_map.mp there
    have uid : m'.core.uid = m.core.uid := congrArg Message.uid eq
    have buffer : m'.core.buffer = m.core.buffer := congrArg Message.buffer eq
    change sent.buffer = m.core.buffer
    rw [← buffer]
    exact (hc.recorded m' mem').labelled sent (uid ▸ last)
  -- a message that is added now was not sent before
  have added (b : Scratch) (f : MsgFlags) (type : UInt8)
      (new : m.core = (c.newMessage b f type).core) : sent.buffer = m.buffer := by
    obtain ⟨transmitted, uid⟩ := mem_of_lastTransmission last
    have old := hc.identified.old sent transmitted
    have fresh : m.core.uid = (c.newMessage b f type).core.uid := congrArg Message.uid new
    change m.uid = c.nextUid at fresh
    rw [uid, fresh] at old
    exact absurd old (Nat.lt_irrefl _)
  rw [Client.act_core h (by rintro rfl; exact ok) (by rintro p rfl; exact ok)] at core
  unfold Client.coresAfter at core
  split at core
  · exact before (List.mem_of_mem_tail core)
  · cases core
  · rcases List.mem_append.mp core with there | new
    · exact before there
    · exact added _ _ _ (List.mem_singleton.mp new)
  · rcases List.mem_cons.mp core with new | there
    · exact added _ _ _ new
    · exact before there
  · exact before core

/-- Between the label and `sendto`: only the message at the head may have other
bytes than those of its last transmission. -/
structure Relabelled (m : Message) (c : Client) : Prop where
  running : c.status = .running
  identified : Identified c
  queue : ∃ m' rest, c.sendingQueue = m' :: rest ∧ m'.uid = m.uid ∧
    ∀ x ∈ rest, Recorded x c.history
  matched : ConfirmsMatch c.history

theorem relabelled_setMessageID {t : Thread} {c c' : Client} {m : Message} {rest : MessageQueue}
    {r : Unit} (hc : Traced c) (queue : c.sendingQueue = m :: rest)
    (h : c.perform t .queueSetMessageID = .ok r c') : Relabelled m c' := by
  obtain ⟨running, act⟩ := Client.perform_ok h
  have identified := hc.identified.act act nofun
  have history : c'.history = c.history := Client.act_history act
  have queue' : c'.sendingQueue = c.sendingQueue.setMessageID c.comDetails.msgCounter :=
    Client.act_queue act
  refine ⟨(Client.act_status act).trans running, identified, ?_, history ▸ hc.matched⟩
  have others : ∀ x ∈ rest, Recorded x c'.history := by
    intro x mem
    rw [history]
    exact hc.recorded x (queue ▸ List.mem_cons_of_mem _ mem)
  simp only [queue, MessageQueue.setMessageID] at queue'
  split at queue'
  · exact ⟨_, rest, queue', rfl, others⟩
  · exact ⟨m, rest, queue', rfl, others⟩

/-- The message at the head was sent. -/
def HeadSent (c : Client) : Prop :=
  ∀ m rest, c.sendingQueue = m :: rest → ∃ sent, lastTransmission m.uid c.history = some sent

theorem traced_sendto {t : Thread} {c c' : Client} {m : Message} {r : Unit} (hc : Relabelled m c)
    (h : c.perform t (.sendto (some m.uid)) = .ok r c') : Traced c' ∧ HeadSent c' := by
  obtain ⟨-, act⟩ := Client.perform_ok h
  have identified := hc.identified.act act nofun
  obtain ⟨m', rest, queue, uid, others⟩ := hc.queue
  have deref : c.sendingQueue.deref (some m.uid) = some m' := by
    simp [queue, MessageQueue.deref, uid]
  have history : c'.history = .transmitted m' :: c.history := by
    rw [Client.act_history act]
    simp [Client.emitted, deref]
  have queue' : c'.sendingQueue = m' :: rest := (Client.act_queue act).trans queue
  have distinct := identified.distinct
  rw [queue', MessageQueue.uids, List.map_cons, List.nodup_cons] at distinct
  have head : lastTransmission m'.uid c'.history = some m' := by
    rw [history, lastTransmission_cons]
    simp [Event.transmission]
  have behind (x : Message) (mem : x ∈ rest) :
      lastTransmission x.uid c'.history = lastTransmission x.uid c.history := by
    have other : m'.uid ≠ x.uid := fun eq => distinct.1 (eq ▸ List.mem_map_of_mem mem)
    rw [history, lastTransmission_cons]
    simp [Event.transmission, other]
  refine ⟨⟨identified, ?_, ?_⟩, ?_⟩
  · intro x mem
    rw [queue'] at mem
    rcases List.mem_cons.mp mem with rfl | mem
    · exact ⟨fun _ => ⟨x, head⟩, fun sent last => by rw [Option.some.inj (head.symm.trans last)]⟩
    · have recorded := others x mem
      exact ⟨fun positive => behind x mem ▸ recorded.counted positive,
        fun sent last => recorded.labelled sent (behind x mem ▸ last)⟩
  · rw [history]
    intro m low high earlier suffix
    rcases List.suffix_cons_iff.mp suffix with eq | before
    · cases (List.cons.inj eq).1
    · exact hc.matched m low high earlier before
  · intro x rest' eq
    obtain ⟨rfl, -⟩ := List.cons.inj (queue'.symm.trans eq)
    exact ⟨m', head⟩

theorem traced_messageSended {t : Thread} {c c' : Client} {r : Unit} (hc : Traced c)
    (sent : HeadSent c) (h : c.perform t .queueMessageSended = .ok r c') : Traced c' := by
  obtain ⟨-, act⟩ := Client.perform_ok h
  have history : c'.history = c.history := Client.act_history act
  refine ⟨hc.identified.act act nofun, ?_, history ▸ hc.matched⟩
  rw [Client.act_queue act, history]
  cases queue : c.sendingQueue with
  | nil => simp [Client.queueAfter, queue, MessageQueue.messageSended]
  | cons m rest =>
    have recorded := hc.recorded
    rw [queue, List.forall_mem_cons] at recorded
    simp only [Client.queueAfter, queue, MessageQueue.messageSended, Option.getD_some,
      List.forall_mem_cons]
    exact ⟨⟨fun _ => sent m rest queue, recorded.1.labelled⟩, recorded.2⟩

/-- The comparison of the code is one of the ID bytes. -/
theorem traced_setConfirmed {t : Thread} {c c' : Client} {m : Message} {rest : MessageQueue}
    {r : Unit} {msgID : Nat} (hc : Traced c) (queue : c.sendingQueue = m :: rest)
    (received : msgID = convert2BytesToU16Int (c.serverResponse.mem 1) (c.serverResponse.mem 2))
    (accepted : msgID = m.msgID ∨ m.type = MsgType.msgAuth.toUChar)
    (h : c.perform t (.setConfirmed (some m.uid)) = .ok r c') : Traced c' := by
  obtain ⟨-, act⟩ := Client.perform_ok h
  have deref : c.sendingQueue.deref (some m.uid) = some m := by simp [queue, MessageQueue.deref]
  have history : c'.history =
      .confirmed m (c.serverResponse.mem 1) (c.serverResponse.mem 2) :: c.history := by
    rw [Client.act_history act]
    simp [Client.emitted, deref]
  have before (uid : Nat) : lastTransmission uid c'.history = lastTransmission uid c.history := by
    rw [history, lastTransmission_cons]
    rfl
  refine ⟨hc.identified.act act (by rintro _ ⟨⟩), ?_, ?_⟩
  · intro x mem
    rw [Client.act_queue act] at mem
    obtain ⟨x', mem', rfl⟩ := List.mem_map.mp mem
    have recorded := hc.recorded x' mem'
    split
    all_goals
      constructor
      · exact fun positive => before _ ▸ recorded.counted positive
      · exact fun sent last => recorded.labelled sent (before _ ▸ last)
  · rw [history]
    intro m₁ low high earlier suffix
    rcases List.suffix_cons_iff.mp suffix with eq | before
    · simp only [List.cons.injEq, Event.confirmed.injEq] at eq
      obtain ⟨⟨rfl, rfl, rfl⟩, rfl⟩ := eq
      refine ⟨hc.recorded m₁ (queue ▸ List.mem_cons_self), fun type => ?_⟩
      have ids : msgID = m₁.msgID := accepted.resolve_right type
      exact convert2BytesToU16Int_inj (received.symm.trans ids)
    · exact hc.matched m₁ low high earlier before

/-- The number of a datagram is computed from its ID bytes. -/
theorem disassebleProtocolUDP_msgId {serverResponse : Buffer} {d : Disassembled}
    (h : disassebleProtocolUDP serverResponse = .ok d) :
    d.msgId = convert2BytesToU16Int (serverResponse.mem 1) (serverResponse.mem 2) := by
  simp only [disassebleProtocolUDP, bind, Except.bind, pure, Except.pure] at h
  split at h <;> (repeat' split at h) <;> cases h <;> rfl

/-! ## Runs -/

theorem kept_traced : Kept Client.perform Act.Untraced Traced where
  honest := honest_perform
  plain a h := by
    cases a <;> simp_all [Act.Plain, Act.Untraced]
    rcases h with rfl | rfl | rfl | ⟨state, rfl⟩ <;> rfl
  step ok hc h := traced_act hc ok (Client.perform_ok h).2
  ended _ _ hc := ⟨⟨hc.identified.fresh, hc.identified.distinct, hc.identified.old⟩, hc.recorded,
    hc.matched⟩

theorem pieces_traced {cfg : NetworkConfig} (udp : cfg.protocol = .protUDP) (t : Thread) :
    Pieces cfg fun {α} (p : Prog α) => p.Keeps (Client.perform t) Traced := by
  have rules := kept_traced.rules t
  have making : ∀ a : Act, a.Making cfg → a.Untraced := by
    intro a h
    cases a <;> first | exact trivial | exact h.elim
  have bye := sendBye_obeys rules kept_traced.calm making
  constructor
  · exact bye
  · exact sendConfirm_obeys rules kept_traced.calm (fun a h _ => making a h) bye fun _ _ h => h
  · exact sendError_obeys rules kept_traced.calm making
  · apply sendHead_keeps udp kept_traced bye Relabelled HeadSent
    · intro c m rest hc queue r c' h
      exact relabelled_setMessageID hc queue h
    · intro c m hc
      obtain ⟨m', rest, queue, uid, -⟩ := hc.queue
      have sends : c.perform t (.sendto (some m.uid)) = .ok () (c.log (.transmitted m')) := by
        simp [Client.perform, hc.running, Client.act, queue, MessageQueue.deref, uid]
      refine ⟨fun r c' h => traced_sendto hc h, fun c' h => ?_, fun h => ?_⟩
      · simp [sends] at h
      · simp [sends] at h
    · intro c hc sent r c' h
      exact traced_messageSended hc sent h
  · intro msgID
    refine take_bind rules (by rfl) fun _ _ => ?_
    exact take_only rules trivial

theorem traced_of_passed {cfg : NetworkConfig} (udp : cfg.protocol = .protUDP)
    {heap : Nat → Memory} {ipAddress : Buffer} {s : Passes Thread Client Point}
    (passed : Passed cfg heap ipAddress s) : Traced s.shared := by
  apply Machine.invariant_of_keeps Traced (m := machine cfg) _ passed
  · exact ⟨⟨nofun, List.nodup_nil, nofun⟩, nofun, by
      intro m low high earlier suffix
      cases List.suffix_nil.mp suffix⟩
  · intro t p q start
    refine starts_keep udp kept_traced (fun _ => trivial) (pieces_traced udp) ?_ ?_ start
    · intro serverResponse d decoded
      have handled := kept_traced.handling serverResponse
      apply handleConfirmUDP_keeps handled fun c => Traced c ∧ c.serverResponse = serverResponse
      · intro c m rest hc queue accepted r c' h
        have received := disassebleProtocolUDP_msgId decoded
        rw [← hc.2] at received
        refine ⟨traced_setConfirmed hc.1 queue received accepted h, ?_⟩
        exact (Client.act_serverResponse (Client.perform_ok h).2 nofun).trans hc.2
      · intro c hc
        refine ⟨fun r c' h => ?_, fun _ => hc⟩
        exact handled.step (a := .setMsgCounter (d.msgId + 1)) ⟨trivial, nofun⟩ hc h
    · intro pBlocks flags _ _
      exact assembleCommand_obeys (kept_traced.rules .main) kept_traced.calm
        (pieces_traced udp .main).sendBye (fun _ _ h => h) pBlocks flags trivial fun _ _ => trivial

/-- **An accepted CONFIRM answers the last transmission.** Whenever a message that
was sent, other than AUTH, is marked as confirmed, the CONFIRM has the ID bytes
the message was last sent with. -/
theorem confirm_matches {cfg : NetworkConfig} (udp : cfg.protocol = .protUDP)
    {heap : Nat → Memory} {ipAddress : Buffer} {s : Passes Thread Client Point}
    (passed : Passed cfg heap ipAddress s) {m : Message} {low high : UInt8} {earlier : List Event}
    (confirmed : .confirmed m low high :: earlier <:+ s.shared.history) {sent : Message}
    (last : lastTransmission m.uid earlier = some sent)
    (type : m.type ≠ MsgType.msgAuth.toUChar) :
    low = sent.lowMsgIdByte ∧ high = sent.highMsgIdByte := by
  obtain ⟨recorded, ids⟩ := (traced_of_passed udp passed).matched m low high earlier confirmed
  simpa [Message.lowMsgIdByte, Message.highMsgIdByte, recorded.labelled sent last] using ids type

/-- The newest event is an accepted CONFIRM with which `good` is satisfied. -/
def confirmsNow (good : Message → UInt8 → UInt8 → Option Message → Bool) : List Event → Bool
  | .confirmed m low high :: earlier => good m low high (lastTransmission m.uid earlier)
  | _ => false

theorem exists_confirm {good : Message → UInt8 → UInt8 → Option Message → Bool}
    {history : List Event} (h : history.tails.any (confirmsNow good) = true) :
    ∃ m low high earlier, .confirmed m low high :: earlier <:+ history ∧
      good m low high (lastTransmission m.uid earlier) = true := by
  obtain ⟨tail, mem, now⟩ := List.any_eq_true.mp h
  have suffix := (List.mem_tails _ _).mp mem
  cases tail with
  | nil => cases now
  | cons e earlier =>
    cases e with
    | confirmed m low high => exact ⟨m, low, high, earlier, suffix, now⟩
    | _ => cases now

/-- A CONFIRM that comes before the AUTH is sent is accepted, and so is one with
another ID than the AUTH was sent with. -/
theorem confirm_early_auth :
    ∃ s, Passed ⟨.protUDP, 3⟩ (fun _ _ => 0xC4) ⟨some fun _ => 0, 10, 10⟩ s ∧
      (∃ m low high earlier, .confirmed m low high :: earlier <:+ s.shared.history ∧
        m.sendCount = 0 ∧ lastTransmission m.uid earlier = none) ∧
      ∃ m low high earlier sent, .confirmed m low high :: earlier <:+ s.shared.history ∧
        0 < m.sendCount ∧ lastTransmission m.uid earlier = some sent ∧
          low ≠ sent.lowMsgIdByte := by
  obtain ⟨s, passed, good⟩ := passed_of_playAll ⟨.protUDP, 3⟩ (fun _ _ => 0xC4)
    ⟨some fun _ => 0, 10, 10⟩
    [.main (ascii "/auth u s d\n"), .receiver [0, 7, 0], .sender 1, .receiver [0, 9, 0]]
    (fun s =>
      s.shared.history.tails.any
        (confirmsNow fun m _ _ last => m.sendCount == 0 && last.isNone) &&
      s.shared.history.tails.any
        (confirmsNow fun m low _ last => decide (0 < m.sendCount) &&
          last.any fun sent => low != sent.lowMsgIdByte))
    (by decide +kernel)
  obtain ⟨early, other⟩ := Bool.and_eq_true_iff.mp good
  refine ⟨s, passed, ?_, ?_⟩
  · obtain ⟨m, low, high, earlier, suffix, unsent⟩ := exists_confirm early
    simp only [Bool.and_eq_true, beq_iff_eq, Option.isNone_iff_eq_none] at unsent
    exact ⟨m, low, high, earlier, suffix, unsent⟩
  · obtain ⟨m, low, high, earlier, suffix, good⟩ := exists_confirm other
    simp only [Bool.and_eq_true, decide_eq_true_eq, Option.any_eq_true, bne_iff_ne] at good
    obtain ⟨count, sent, last, differs⟩ := good
    exact ⟨m, low, high, earlier, sent, suffix, count, last, differs⟩

end Ipk24Chat
