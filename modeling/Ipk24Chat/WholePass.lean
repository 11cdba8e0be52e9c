import Ipk24Chat.Footprint

/-!
# Invariants between passes

What holds whenever the threads take whole passes of their loops, for invariants
that do not hold inside a function such as `sendHead` or `handleConfirmUDP`.

* `starts_keep`: every pass keeps an invariant that the plain actions keep one by
  one and that the functions with the other actions keep as a whole.
-/

namespace Ipk24Chat

/-- Actions are taken as `Client.act` says, or not at all. -/
structure Honest (perform : Thread → (a : Act) → Client → Effect a.Answer Client) : Prop where
  ok : ∀ {t : Thread} {a : Act} {c c' : Client} {r : a.Answer}, perform t a c = .ok r c' →
    c.status = .running ∧ c.act t a = .ok r c'
  halt : ∀ {t : Thread} {a : Act} {c c' : Client}, perform t a c = .halt c' →
    c.status = .running ∧ c.act t a = .halt c'

theorem honest_perform : Honest Client.perform := ⟨Client.perform_ok, Client.perform_halt⟩

theorem honest_restrict (cfg : NetworkConfig) (ok : Thread → Act → Client → Bool) :
    Honest ((machine cfg).restrict ok).perform where
  ok h := by
    simp only [Machine.restrict] at h
    split at h
    · exact Client.perform_ok h
    · cases h
  halt h := by
    simp only [Machine.restrict] at h
    split at h
    · exact Client.perform_halt h
    · cases h

/-- The actions that make, label, send, confirm and count no message and receive
none. -/
def Act.Plain : Act → Prop
  | .queueAddMessage .. | .queueAddMessagePriority .. | .assembleProtocol .. => False
  | .bufferResize .. | .recvfrom _ => False
  | .queueSetMessageID | .sendto _ | .queueMessageSended | .setConfirmed _ => False
  | .setMsgCounter _ | .addMsgCounter => False
  | .queueSetMessageFlags newFlag => newFlag = .msgFlagConfirmed ∨ newFlag = .msgFlagRejected
  | .note e =>
    e = .replyNok ∨ e = .authDiscarded ∨ e = .senderResumed ∨ ∃ state, e = .replyOk state
  | _ => True

theorem Act.Usual.plain {a : Act} (h : a.Usual) : a.Plain := by
  cases a <;> simp_all [Act.Usual, Act.Plain]
  grind

/-- An invariant, with the actions that keep it one by one. -/
structure Kept (perform : Thread → (a : Act) → Client → Effect a.Answer Client)
    (allowed : Act → Prop) (I : Client → Prop) : Prop where
  honest : Honest perform
  plain : ∀ a, a.Plain → allowed a
  step : ∀ {t : Thread} {a : Act} {c c' : Client} {r : a.Answer}, allowed a → I c →
    perform t a c = .ok r c' → I c'
  ended : ∀ (c : Client) (status : Status), I c → I { c with status := status }

namespace Kept
variable {perform : Thread → (a : Act) → Client → Effect a.Answer Client} {allowed : Act → Prop}
  {I : Client → Prop} (kept : Kept perform allowed I)
include kept

theorem halted {t : Thread} {a : Act} {c c' : Client} (hc : I c)
    (h : perform t a c = .halt c') : I c' := by
  rw [Client.act_halt (kept.honest.halt h).2]
  exact kept.ended c c'.status hc

theorem rules (t : Thread) :
    Program.Compositional allowed Act.Truthful fun {α} (p : Prog α) => p.Keeps (perform t) I :=
  Program.compositional_keeps (fun _ _ _ _ h => Client.act_truthful (kept.honest.ok h).2)
    fun _ _ hc ok => ⟨fun _ _ h => kept.step ok hc h, fun _ h => kept.halted hc h⟩

theorem calm (a : Act) (h : a.Calm) : allowed a := kept.plain a h.1.plain

/-- The invariant together with the datagram that is being handled. -/
theorem handling (serverResponse : Buffer) :
    Kept perform (fun a => allowed a ∧ ∀ datagram, a ≠ .recvfrom datagram)
      fun c => I c ∧ c.serverResponse = serverResponse where
  honest := kept.honest
  plain a h := ⟨kept.plain a h, fun datagram eq => by subst eq; exact h⟩
  step ok hc h := ⟨kept.step ok.1 hc.1 h,
    (Client.act_serverResponse (kept.honest.ok h).2 ok.2).trans hc.2⟩
  ended c status hc := ⟨kept.ended c status hc.1, hc.2⟩

end Kept

/-- No function but the receiver's loop replaces the datagram. -/
theorem kept_serverResponse {perform : Thread → (a : Act) → Client → Effect a.Answer Client}
    (honest : Honest perform) (serverResponse : Buffer) :
    Kept perform (fun a => ∀ datagram, a ≠ .recvfrom datagram)
      fun c => c.serverResponse = serverResponse where
  honest := honest
  plain a h datagram eq := by
    subst eq
    exact h
  step ok hc h := (Client.act_serverResponse (honest.ok h).2 ok).trans hc
  ended _ _ hc := hc

theorem pieces_serverResponse {cfg : NetworkConfig}
    {perform : Thread → (a : Act) → Client → Effect a.Answer Client} (honest : Honest perform)
    (t : Thread) (serverResponse : Buffer) :
    Pieces cfg fun {α} (p : Prog α) =>
      p.Keeps (perform t) fun c => c.serverResponse = serverResponse := by
  have kept := kept_serverResponse honest serverResponse
  refine pieces_of_actions (kept.rules t) kept.calm ?_ ?_ fun _ _ h => h
  · intro a making datagram eq
    subst eq
    exact making
  · intro a wiring datagram eq
    subst eq
    exact wiring

/-- The rule for one action in front of a program. -/
theorem leads_take {m : (a : Act) → Client → Effect a.Answer Client} {H P : Client → Prop}
    {α : Type} {a : Act} {f : a.Answer → Prog α} (mid : a.Answer → Client → Prop)
    {Q : α → Client → Prop}
    (step : ∀ c, P c → (∀ r c', m a c = .ok r c' → mid r c') ∧
      (∀ c', m a c = .halt c' → H c') ∧ (m a c = .blocked → H c))
    (rest : ∀ r, Program.Leads m H (mid r) (f r) Q) : Program.Leads m H P (take a >>= f) Q :=
  Program.leads_act mid step rest

section
variable {cfg : NetworkConfig} {perform : Thread → (a : Act) → Client → Effect a.Answer Client}
  {allowed : Act → Prop} {I : Client → Prop}

theorem Pieces.and {J : Client → Prop} {t : Thread}
    (hI : Pieces cfg fun {α} (p : Prog α) => p.Keeps (perform t) I)
    (hJ : Pieces cfg fun {α} (p : Prog α) => p.Keeps (perform t) J) :
    Pieces cfg fun {α} (p : Prog α) => p.Keeps (perform t) fun c => I c ∧ J c where
  sendBye := Program.keeps_and hI.sendBye hJ.sendBye
  sendConfirm r flags other :=
    Program.keeps_and (hI.sendConfirm r flags other) (hJ.sendConfirm r flags other)
  sendError b other text :=
    Program.keeps_and (hI.sendError b other text) (hJ.sendError b other text)
  sendHead n := Program.keeps_and (hI.sendHead n) (hJ.sendHead n)
  replyCounter n := Program.keeps_and (hI.replyCounter n) (hJ.replyCounter n)

/-- The rule for an action that only reads. -/
theorem leads_read (kept : Kept perform allowed I) {t : Thread} {α : Type} {a : Act}
    {f : a.Answer → Prog α} (P : Client → Prop) {Q : α → Client → Prop}
    (reads : ∀ {c c' : Client} {r : a.Answer}, c.act t a = .ok r c' → c' = c)
    (rest : ∀ r, Program.Leads (perform t) I
      (fun c => I c ∧ P c ∧ c.act t a = .ok r c) (f r) Q) :
    Program.Leads (perform t) I (fun c => I c ∧ P c) (take a >>= f) Q := by
  refine leads_take _ (fun c hc => ⟨fun r c' h => ?_, fun c' h => kept.halted hc.1 h,
    fun _ => hc.1⟩) rest
  have act := (kept.honest.ok h).2
  obtain rfl := reads act
  exact ⟨hc.1, hc.2, act⟩

theorem getMessage_cons {t : Thread} {c : Client} {p : MsgPtr}
    (h : c.act t .queueGetMessage = .ok p c) :
    p = none ∧ c.sendingQueue = [] ∨ ∃ m rest, p = some m.uid ∧ c.sendingQueue = m :: rest := by
  simp only [Client.act, Effect.ok.injEq, and_true] at h
  cases queue : c.sendingQueue with
  | nil => exact Or.inl ⟨by simpa [queue, MessageQueue.getMessage, eq_comm] using h, rfl⟩
  | cons m rest =>
    exact Or.inr ⟨m, rest, by simpa [queue, MessageQueue.getMessage, eq_comm] using h, rfl⟩

/-- The rule for `handleConfirmUDP`: the message at the head is confirmed and the
counter is set, with `mid` in between. What is known at its start is known of the head. -/
theorem handleConfirmUDP_leads (kept : Kept perform allowed I) {t : Thread} {msgID : Nat}
    (P mid : Client → Prop)
    (locks : ∀ c, P c → ∀ r c', perform t .queueLock c = .ok r c' → P c')
    (confirms : ∀ c m rest, I c → P c → c.sendingQueue = m :: rest →
      msgID = m.msgID ∨ m.type = MsgType.msgAuth.toUChar →
      ∀ r c', perform t (.setConfirmed (some m.uid)) c = .ok r c' → mid c')
    (counts : ∀ c, mid c → (∀ r c', perform t (.setMsgCounter (msgID + 1)) c = .ok r c' → I c') ∧
      (perform t (.setMsgCounter (msgID + 1)) c = .blocked → I c)) :
    Program.Leads (perform t) I (fun c => I c ∧ P c) (handleConfirmUDP msgID) fun _ => I := by
  have rules := kept.rules t
  have unlocked (P : Client → Prop) : Program.Leads (perform t) I (fun c => I c ∧ P c) queueUnlock
      fun _ => I :=
    Program.leads_mono (Program.leads_of_keeps (take_only rules (kept.plain _ trivial)))
      (fun _ hc => hc.1) (fun _ _ hc => hc) fun _ hc => hc
  have finished : Program.Leads (perform t) I I (do
      confirmedInState (← getProgramState)
      pthreadCondSignal .rec2SenderCond
      queueUnlock) fun _ => I := by
    apply Program.leads_of_keeps
    refine take_bind rules (kept.plain _ trivial) fun state _ => ?_
    have confirmed := confirmedInState_obeys rules kept.calm (kept.plain _ trivial) state
    refine rules.bind confirmed fun _ => ?_
    refine take_bind rules (kept.plain _ trivial) fun _ _ => ?_
    exact take_only rules (kept.plain _ trivial)
  unfold handleConfirmUDP
  refine leads_take (fun _ c => I c ∧ P c) (fun c hc => ⟨fun r c' h => ?_,
    fun c' h => kept.halted hc.1 h, fun _ => hc.1⟩) fun _ => ?_
  · have plain : Act.queueLock.Plain := trivial
    exact ⟨kept.step (kept.plain _ plain) hc.1 h, locks c hc.2 r c' h⟩
  refine leads_read kept P (fun h => by cases h; rfl) fun p => ?_
  cases p with
  | none => exact unlocked _
  | some uid =>
    refine leads_read kept _ (fun h => by cases h; rfl) fun queueTopMsgID => ?_
    refine leads_read kept _ (fun h => ?_) fun topOfQueue => ?_
    · simp only [Client.act] at h
      split at h <;> cases h
      rfl
    split
    · exact unlocked _
    rename_i accepted
    refine leads_take (fun _ => mid) ?_ fun _ => ?_
    · rintro c ⟨inv, ⟨⟨known, head⟩, id⟩, top⟩
      refine ⟨fun r c' h => ?_, fun c' h => kept.halted inv h, fun _ => inv⟩
      rcases getMessage_cons head with ⟨absent, -⟩ | ⟨m, rest, same, queue⟩
      · cases absent
      obtain rfl := Option.some.inj same
      simp only [Client.act, queue, MessageQueue.deref, List.find?_cons, beq_self_eq_true,
        Effect.ok.injEq, and_true] at top
      simp only [Client.act, queue, MessageQueue.getMessageID, Effect.ok.injEq, and_true] at id
      subst top id
      refine confirms c m rest inv known queue ?_ r c' h
      by_cases same : msgID = m.msgID
      · exact Or.inl same
      · exact Or.inr (by simpa [same] using accepted)
    · refine leads_take (fun _ => I) ?_ fun _ => finished
      intro c hc
      obtain ⟨set, blocked⟩ := counts c hc
      refine ⟨set, fun c' h => ?_, blocked⟩
      cases (kept.honest.halt h).2

theorem handleConfirmUDP_keeps (kept : Kept perform allowed I) {t : Thread} {msgID : Nat}
    (mid : Client → Prop)
    (confirms : ∀ c m rest, I c → c.sendingQueue = m :: rest →
      msgID = m.msgID ∨ m.type = MsgType.msgAuth.toUChar →
      ∀ r c', perform t (.setConfirmed (some m.uid)) c = .ok r c' → mid c')
    (counts : ∀ c, mid c → (∀ r c', perform t (.setMsgCounter (msgID + 1)) c = .ok r c' → I c') ∧
      (perform t (.setMsgCounter (msgID + 1)) c = .blocked → I c)) :
    (handleConfirmUDP msgID).Keeps (perform t) I := by
  have leads := handleConfirmUDP_leads kept (fun _ => True) mid (fun _ _ _ _ _ => trivial)
    (fun c m rest inv _ => confirms c m rest inv) counts
  exact Program.keeps_of_leads (Program.leads_mono leads (fun _ hc => ⟨hc, trivial⟩)
    (fun _ _ hc => hc) fun _ hc => hc)

/-- The rule for `sendHead`: the message at the head is labelled and sent, with `mid` in
between, and a message that stays is counted after `sent`. -/
theorem sendHead_keeps (udp : cfg.protocol = .protUDP) (kept : Kept perform allowed I) {t : Thread}
    (bye : (sendBye cfg).Keeps (perform t) I) (mid : Message → Client → Prop)
    (sent : Client → Prop)
    (labels : ∀ c m rest, I c → c.sendingQueue = m :: rest →
      ∀ r c', perform t .queueSetMessageID c = .ok r c' → mid m c')
    (sends : ∀ c m, mid m c →
      (∀ r c', perform t (.sendto (some m.uid)) c = .ok r c' → I c' ∧ sent c') ∧
      (∀ c', perform t (.sendto (some m.uid)) c = .halt c' → I c') ∧
      (perform t (.sendto (some m.uid)) c = .blocked → I c))
    (counts : ∀ c, I c → sent c → ∀ r c', perform t .queueMessageSended c = .ok r c' → I c')
    (bytesTx : Int) : (sendHead cfg bytesTx).Keeps (perform t) I := by
  have rules := kept.rules t
  unfold sendHead
  apply Program.keeps_of_leads
  refine Program.leads_mono (leads_read kept (fun _ => True) (fun h => by cases h; rfl)
    fun p => ?_) (fun _ hc => ⟨hc, trivial⟩) (fun _ _ hc => hc) fun _ hc => hc
  simp only [labelMessage, udp]
  -- with an empty queue the process ends at `sendto`
  refine leads_take (fun _ c => I c ∧ p = none ∨ ∃ m, p = some m.uid ∧ mid m c) ?_ fun _ => ?_
  · rintro c ⟨inv, -, head⟩
    refine ⟨fun r c' h => ?_, fun c' h => kept.halted inv h, fun _ => inv⟩
    rcases getMessage_cons head with ⟨absent, queue⟩ | ⟨m, rest, same, queue⟩
    · have act := (kept.honest.ok h).2
      simp only [Client.act, queue, MessageQueue.setMessageID, Effect.ok.injEq, true_and] at act
      have unchanged : c' = c := by
        rw [← act, ← queue]
      exact Or.inl ⟨unchanged ▸ inv, absent⟩
    · exact Or.inr ⟨m, same, labels c m rest inv queue r c' h⟩
  refine leads_take (fun _ c => I c ∧ sent c) ?_ fun _ => ?_
  · rintro c (⟨inv, rfl⟩ | ⟨m, rfl, hm⟩)
    · refine ⟨fun r c' h => ?_, fun c' h => kept.halted inv h, fun _ => inv⟩
      cases (kept.honest.ok h).2
    · exact sends c m hm
  have keeping {α : Type} {P : Client → Prop} {q : Prog α} (h : q.Keeps (perform t) I)
      (holds : ∀ c, P c → I c) : Program.Leads (perform t) I P q fun _ => I :=
    Program.leads_mono (Program.leads_of_keeps h) holds (fun _ _ hc => hc) fun _ hc => hc
  have unlocks : (queueUnlock >>= fun _ => pure Point.protocolSender).Keeps (perform t) I :=
    take_bind rules (kept.plain _ trivial) fun _ _ => rules.ret _
  refine leads_read kept sent (fun h => ?_) fun flags => ?_
  · simp only [Client.act] at h
    split at h <;> cases h
    rfl
  split
  · exact keeping (errHandling_obeys rules kept.calm bye _) fun _ hc => hc.1
  simp only [messageWasSended, udp]
  split
  case h_4 =>
    refine leads_take (fun _ => I) ?_ fun _ => Program.leads_of_keeps unlocks
    rintro c ⟨inv, known, -⟩
    exact ⟨counts c inv known, fun c' h => kept.halted inv h, fun _ => inv⟩
  all_goals
    refine keeping ?_ fun _ hc => hc.1
    exact take_bind rules (kept.plain _ trivial) fun _ _ => unlocks

/-- **A pass keeps what its parts keep.** -/
theorem starts_keep (udp : cfg.protocol = .protUDP) (kept : Kept perform allowed I)
    (receives : ∀ datagram, allowed (.recvfrom datagram))
    (pieces : ∀ t, Pieces cfg fun {α} (p : Prog α) => p.Keeps (perform t) I)
    (confirm : ∀ serverResponse d, disassebleProtocolUDP serverResponse = .ok d →
      (handleConfirmUDP d.msgId).Keeps (perform .receiver)
        fun c => I c ∧ c.serverResponse = serverResponse)
    (commands : ∀ pBlocks flags, pBlocks.Measured → CommandFlags pBlocks flags →
      (assembleCommand cfg pBlocks flags).Keeps (perform .main) I)
    {t : Thread} {p : Point} {q : Prog Point} (h : Starts cfg t p q) : q.Keeps (perform t) I := by
  have moves (s : Fsm) : allowed (.setProgramState s) := kept.plain _ trivial
  have noted (s : Fsm) : allowed (.note (.replyOk s)) := kept.plain _ (by simp [Act.Plain])
  cases t with
  | main =>
    cases h with
    | userCommandHandling eofDetected stdin =>
      exact userCommandHandling_obeys (kept.rules _) kept.calm (pieces _).sendBye (fun _ _ h => h)
        (fun _ => ⟨kept.plain _ trivial, kept.plain _ trivial⟩)
        (fun _ _ => kept.plain _ trivial)
        (fun pBlocks flags _ measured _ plain => commands pBlocks flags measured plain) _ _
  | sender =>
    exact sender_obeys (kept.rules _) kept.calm ((pieces _).parts (kept.rules _) kept.calm)
      (fun _ _ _ s' _ => moves s') (moves _) h
  | receiver =>
    cases h with
    | protocolReceiver datagram _ =>
      have rules := kept.rules .receiver
      unfold protocolReceiver
      refine take_bind rules (kept.plain _ trivial) fun state _ => ?_
      split
      · exact rules.ret _
      · split
        · exact rules.ret _
        · apply Program.keeps_of_leads
          -- the datagram that was received is the one that is handled
          refine leads_take (fun r c => I c ∧ c.serverResponse = r) ?_ ?_
          · intro c hc
            refine ⟨fun r c' h => ⟨kept.step (receives _) hc h, ?_⟩,
              fun c' h => kept.halted hc h, fun _ => hc⟩
            have act := (kept.honest.ok h).2
            simp only [Client.act] at act
            cases act
            rfl
          · intro serverResponse
            have handled := kept.handling serverResponse
            have handles := handleDatagram_obeys (handled.rules .receiver) handled.calm
              ((((pieces _).and (pieces_serverResponse kept.honest _ _)).parts
                (handled.rules .receiver) handled.calm).receiver serverResponse)
              (fun _ _ _ s' _ => ⟨handled.plain _ trivial, handled.plain _ (by simp [Act.Plain])⟩)
              ⟨handled.plain _ (by simp [Act.Plain]), fun _ _ _ _ => handled.plain _ trivial⟩
              (fun _ _ _ => handled.plain _ trivial) (fun _ => handled.plain _ trivial)
              (handled.plain _ trivial)
              (fun d decoded _ => confirm serverResponse d decoded)
              (fun tcp => absurd (udp.symm.trans tcp) (by decide))
            have led : Program.Leads (perform .receiver)
                (fun c => I c ∧ c.serverResponse = serverResponse)
                (fun c => I c ∧ c.serverResponse = serverResponse)
                (handleDatagram cfg serverResponse >>= fun _ => pure Point.protocolReceiver)
                fun _ c => I c ∧ c.serverResponse = serverResponse :=
              Program.leads_bind (Program.leads_of_keeps handles) fun _ =>
                Program.leads_ret fun _ hc => hc
            exact Program.leads_mono led (fun _ hc => hc) (fun _ _ hc => hc.1) fun _ hc => hc.1

end

end Ipk24Chat
