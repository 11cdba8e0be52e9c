import Ipk24Chat.Matching
import Ipk24Chat.SenderPass

/-!
# CONFIRMs of messages that were not sent

`handleConfirmUDP` does not look at the count of transmissions. The buffer of a message that
was not sent yet has ID bytes that were left there, and a CONFIRM with these bytes confirms it;
the sender then drops it.

* `confirm_unsent_msg`: a message of the user that is lost this way;
* `acknowledged_of_timely`: in the runs in which no CONFIRM comes so early, each CONFIRM that is
  accepted answers a transmission.
-/

namespace Ipk24Chat

/-- Each message that a CONFIRM was accepted for had been sent, and the CONFIRM has the ID bytes
of its last transmission. -/
def Acknowledged (history : List Event) : Prop :=
  ∀ m low high earlier, .confirmed m low high :: earlier <:+ history →
    0 < m.sendCount ∧ ∃ sent, lastTransmission m.uid earlier = some sent ∧
      low = sent.lowMsgIdByte ∧ high = sent.highMsgIdByte

/-! ## The condition -/

/-- `handleConfirmUDP` accepts a CONFIRM with these ID bytes for the message. -/
def Message.Accepts (m : Message) (low high : UInt8) : Prop :=
  m.HasID low high ∨ m.type = MsgType.msgAuth.toUChar

/-- The datagram is a CONFIRM that comes to `handleConfirmUDP`: the filter of messages received
before reports an internal error for a shorter one that is new. -/
structure ConfirmComes (c : Client) (datagram : List UInt8) : Prop where
  given : datagram ≠ []
  goes : c.fsmState ≠ .fsmEnd
  type : (Client.receive c.serverResponse datagram).mem 0 = MsgType.msgConf.toUChar
  filtered : 3 ≤ datagram.length ∨ queueContainsMessageId c.confirmedMessages
    (Client.receive c.serverResponse datagram) MsgType.msgConf.toUChar = true

/-- No CONFIRM comes that a message takes which was not sent, and none that an AUTH takes with
other ID bytes than it was sent with. -/
def InTime (c : Client) (datagram : List UInt8) : Prop :=
  ConfirmComes c datagram → ∀ m ∈ c.sendingQueue.head?,
    (m.sendCount = 0 → ¬ m.Accepts ((Client.receive c.serverResponse datagram).mem 1)
      ((Client.receive c.serverResponse datagram).mem 2)) ∧
    (m.type = MsgType.msgAuth.toUChar → m.HasID ((Client.receive c.serverResponse datagram).mem 1)
      ((Client.receive c.serverResponse datagram).mem 2))

instance (m : Message) (low high : UInt8) : Decidable (m.HasID low high) :=
  inferInstanceAs (Decidable (_ ∧ _))

instance (m : Message) (low high : UInt8) : Decidable (m.Accepts low high) :=
  inferInstanceAs (Decidable (_ ∨ _))

instance (c : Client) (datagram : List UInt8) : Decidable (ConfirmComes c datagram) :=
  decidable_of_iff (datagram ≠ [] ∧ c.fsmState ≠ .fsmEnd ∧
      (Client.receive c.serverResponse datagram).mem 0 = MsgType.msgConf.toUChar ∧
      (3 ≤ datagram.length ∨ queueContainsMessageId c.confirmedMessages
        (Client.receive c.serverResponse datagram) MsgType.msgConf.toUChar = true))
    ⟨fun ⟨given, goes, type, filtered⟩ => ⟨given, goes, type, filtered⟩,
      fun ⟨given, goes, type, filtered⟩ => ⟨given, goes, type, filtered⟩⟩

instance (c : Client) (datagram : List UInt8) : Decidable (InTime c datagram) :=
  inferInstanceAs (Decidable (_ → ∀ m ∈ c.sendingQueue.head?, _ ∧ _))

/-- The passes of the receiver are on such datagrams. -/
inductive ConfirmsTimely (cfg : NetworkConfig) (c : Client) : Prog Point → Prop where
  | protocolReceiver (datagram : List UInt8) (timely : InTime c datagram) :
      ConfirmsTimely cfg c (Ipk24Chat.protocolReceiver cfg datagram)
  | others {t : Thread} {p : Point} {q : Prog Point} (other : t ≠ .receiver)
      (starts : Starts cfg t p q) : ConfirmsTimely cfg c q

/-! ## Passes -/

/-- The messages that CONFIRMs were accepted for had been sent, and had their ID bytes. -/
def ConfirmedSent (c : Client) : Prop :=
  ∀ m low high, .confirmed m low high ∈ c.history → 0 < m.sendCount ∧ m.HasID low high

/-- The actions that accept no CONFIRM. -/
def Act.Unconfirming : Act → Prop
  | .setConfirmed _ => False
  | .note e => e.quiet = true
  | _ => True

theorem kept_confirmedSent : Kept Client.perform Act.Unconfirming ConfirmedSent where
  honest := honest_perform
  plain a h := by
    cases a <;> simp_all [Act.Plain, Act.Unconfirming]
    rcases h with rfl | rfl | rfl | ⟨state, rfl⟩ <;> rfl
  step {t a c c' r} ok hc h := by
    intro m low high mem
    rw [Client.act_history (Client.perform_ok h).2, List.mem_append] at mem
    refine hc m low high (mem.resolve_left fun new => ?_)
    have emitted : c.emitted a = some (.confirmed m low high) := by simpa using new
    cases a <;> simp only [Client.emitted, reduceCtorEq, Option.some.injEq] at emitted
    case setConfirmed p => exact ok
    case sendto p => cases deref : c.sendingQueue.deref p <;> simp [deref] at emitted
    case note e =>
      subst emitted
      cases ok
  ended _ _ hc := hc

section
variable {cfg : NetworkConfig} {t : Thread}

theorem unconfirming_of_making (a : Act) (h : a.Making cfg) : a.Unconfirming := by
  cases a <;> first | exact trivial | exact h.elim

theorem unconfirming_of_wiring (a : Act) (h : a.Wiring) (other : ∀ p, a ≠ .setConfirmed p) :
    a.Unconfirming := by
  cases a <;> first | exact trivial | exact h.elim | skip
  case setConfirmed p => exact absurd rfl (other p)
  case note e =>
    obtain ⟨msgID, rfl⟩ := h
    rfl

theorem pieces_confirmedSent (t : Thread) :
    Pieces cfg fun {α} (q : Prog α) => q.Keeps (Client.perform t) ConfirmedSent :=
  pieces_of_sending (kept_confirmedSent.rules t) kept_confirmedSent.calm unconfirming_of_making
    unconfirming_of_wiring fun _ _ h => h

/-- Main and the sender accept no CONFIRM. -/
theorem others_confirmedSent {other : Thread} {p : Point} {q : Prog Point}
    (h : Starts cfg other p q) (foreign : other ≠ .receiver) :
    q.Keeps (Client.perform t) ConfirmedSent := by
  have rules := kept_confirmedSent.rules t
  have calm := kept_confirmedSent.calm
  have bye : (sendBye cfg).Keeps (Client.perform t) ConfirmedSent :=
    (pieces_confirmedSent t).sendBye
  cases other with
  | receiver => exact absurd rfl foreign
  | main =>
    cases h with
    | userCommandHandling eofDetected stdin =>
      apply userCommandHandling_obeys rules calm bye (fun _ _ h => h)
      case stores => exact fun src => ⟨trivial, trivial⟩
      case loads => exact fun _ _ => trivial
      case commands =>
        intro pBlocks flags _ _ _ _
        exact assembleCommand_obeys rules calm bye (fun _ _ h => h) pBlocks flags trivial
          fun _ _ => trivial
  | sender =>
    exact sender_obeys rules calm ((pieces_confirmedSent t).parts rules calm)
      (fun _ _ _ _ _ => trivial) trivial h

/-- Nor does the receiver for a datagram of another type. -/
theorem dispatch_confirmedSent {serverResponse : Buffer} {msgID : Nat} {pBlocks : ProtocolBlocks}
    (type : uchar2msgType pBlocks.type ≠ .msgConf) :
    (dispatch cfg msgID pBlocks serverResponse).Keeps (Client.perform t)
      ConfirmedSent := by
  have rules := kept_confirmedSent.rules t
  have calm := kept_confirmedSent.calm
  have pieces : Pieces cfg fun {α} (q : Prog α) => q.Keeps (Client.perform t) ConfirmedSent :=
    pieces_confirmedSent t
  have parts := (pieces.parts rules calm).receiver serverResponse
  apply dispatch_obeys rules calm parts
  case behind => exact fun _ _ _ s' _ => ⟨trivial, rfl⟩
  case accepted => exact ⟨rfl, fun _ _ _ _ => trivial⟩
  case confirm => exact fun conf => absurd conf type
  all_goals intros; trivial

/-- The rule for one action in front of a program that keeps `ConfirmedSent`. -/
theorem leads_sent {α : Type} {a : Act} {f : a.Answer → Prog α} {P : Client → Prop}
    (mid : a.Answer → Client → Prop) {Q : α → Client → Prop}
    (step : ∀ c r c', ConfirmedSent c → P c → c.act t a = .ok r c' → mid r c')
    (rest : ∀ r, Program.Leads (Client.perform t) ConfirmedSent (mid r) (f r) Q) :
    Program.Leads (Client.perform t) ConfirmedSent (fun c => ConfirmedSent c ∧ P c)
      (take a >>= f) Q := by
  refine leads_take mid (fun c hc => ⟨fun r c' h => ?_, ?_⟩) rest
  · exact step c r c' hc.1 hc.2 (Client.perform_ok h).2
  · exact ⟨fun c' h => kept_confirmedSent.halted hc.1 h, fun _ => hc.1⟩

/-- A call of `errHandling` leads anywhere. -/
theorem leads_errHandling {α : Type} (f : Failure) {P : Client → Prop} {Q : α → Client → Prop} :
    Program.Leads (Client.perform t) ConfirmedSent (fun c => ConfirmedSent c ∧ P c)
      (errHandling cfg f) Q := by
  have bye : (sendBye cfg).Keeps (Client.perform t) ConfirmedSent :=
    (pieces_confirmedSent t).sendBye
  have kept : (errHandling cfg f : Prog α).Keeps (Client.perform t) ConfirmedSent :=
    errHandling_obeys (kept_confirmedSent.rules t) kept_confirmedSent.calm bye f
  exact Program.leads_mono (Program.leads_of_never kept (errHandling_results _ f))
    (fun _ hc => hc.1) (fun _ _ hc => hc) fun _ hc => hc

/-- A datagram in the buffer, before anything was done with it. -/
def Unread (queue : MessageQueue) (serverResponse : Buffer) (c : Client) : Prop :=
  c.sendingQueue = queue ∧ c.serverResponse = serverResponse

variable {queue : MessageQueue} {seen : List SeenMessage} {serverResponse : Buffer}

/-- What comes behind the filter is long enough for it or was received before. -/
theorem repetitive_leads (pBlocks : ProtocolBlocks) :
    Program.Leads (Client.perform t) ConfirmedSent
      (fun c => ConfirmedSent c ∧ Unread queue serverResponse c ∧ c.confirmedMessages = seen)
      (repetitive cfg pBlocks serverResponse)
      fun _ c => (3 ≤ serverResponse.used ∨
        queueContainsMessageId seen serverResponse pBlocks.type = true) ∧
          ConfirmedSent c ∧ Unread queue serverResponse c := by
  have unlocks {P : Prop} (known : P) (b : Bool) : Program.Leads (Client.perform t)
      ConfirmedSent (fun c => ConfirmedSent c ∧ Unread queue serverResponse c)
      (queueUnlock >>= fun _ => pure b)
      fun _ c => P ∧ ConfirmedSent c ∧ Unread queue serverResponse c := by
    refine leads_sent (fun _ c => ConfirmedSent c ∧ Unread queue serverResponse c) ?_
      fun _ => Program.leads_ret fun _ hc => ⟨known, hc⟩
    intro c r c' sent unread act
    cases act
    exact ⟨sent, unread⟩
  unfold repetitive
  refine leads_sent (fun _ c => ConfirmedSent c ∧ Unread queue serverResponse c ∧
    c.confirmedMessages = seen) ?_ fun _ => ?_
  · intro c r c' sent unread act
    simp only [Client.act, Client.act_queueLock act] at act
    cases act
    exact ⟨sent, unread⟩
  refine leads_sent (fun r c => ConfirmedSent c ∧ Unread queue serverResponse c ∧
    queueContainsMessageId seen serverResponse pBlocks.type = r) ?_ fun again => ?_
  · rintro c r c' sent ⟨unread, same⟩ act
    cases act
    exact ⟨sent, unread, by rw [same, unread.2]⟩
  split
  · rename_i known
    subst known
    exact fun c hc => unlocks (Or.inr hc.2.2) true c ⟨hc.1, hc.2.1⟩
  split
  · exact leads_errHandling _
  · rename_i long
    refine leads_sent (fun _ c => ConfirmedSent c ∧ Unread queue serverResponse c) ?_
      fun _ => unlocks (Or.inl (by omega)) false
    rintro c r c' sent ⟨unread, -⟩ act
    cases act
    exact ⟨sent, unread⟩

/-- A CONFIRM that the head does not take unless it was sent with these ID bytes. -/
theorem handleConfirmUDP_sent {msgID : Nat}
    (received : msgID = convert2BytesToU16Int (serverResponse.mem 1) (serverResponse.mem 2))
    (proper : ∀ m ∈ queue.head?, m.Accepts (serverResponse.mem 1) (serverResponse.mem 2) →
      0 < m.sendCount ∧ m.HasID (serverResponse.mem 1) (serverResponse.mem 2)) :
    Program.Leads (Client.perform t) ConfirmedSent
      (fun c => ConfirmedSent c ∧ Unread queue serverResponse c) (handleConfirmUDP msgID)
      fun _ => ConfirmedSent := by
  apply handleConfirmUDP_leads kept_confirmedSent (Unread queue serverResponse) ConfirmedSent
  · intro c unread r c' h
    obtain ⟨-, act⟩ := Client.perform_ok h
    simp only [Client.act, Client.act_queueLock act] at act
    cases act
    exact unread
  · intro c m rest sent unread head accepted r c' h
    obtain ⟨-, act⟩ := Client.perform_ok h
    have deref : c.sendingQueue.deref (some m.uid) = some m := by rw [head, deref_head]
    have history : c'.history =
        .confirmed m (serverResponse.mem 1) (serverResponse.mem 2) :: c.history := by
      rw [Client.act_history act, ← unread.2]
      simp [Client.emitted, deref]
    have first : m ∈ queue.head? := by simp [← unread.1, head]
    have good := proper m first (accepted.imp_left fun same =>
      msgID_eq_iff.mp (received.symm.trans same))
    intro m' low high mem
    rw [history] at mem
    rcases List.mem_cons.mp mem with new | before
    · cases new
      exact good
    · exact sent m' low high before
  · intro c sent
    refine ⟨fun r c' h => ?_, fun _ => sent⟩
    exact kept_confirmedSent.step (a := .setMsgCounter (msgID + 1)) trivial sent h

theorem handleDatagram_sent (udp : cfg.protocol = .protUDP)
    (proper : serverResponse.mem 0 = MsgType.msgConf.toUChar →
      (3 ≤ serverResponse.used ∨
        queueContainsMessageId seen serverResponse MsgType.msgConf.toUChar = true) →
      ∀ m ∈ queue.head?, m.Accepts (serverResponse.mem 1) (serverResponse.mem 2) →
        0 < m.sendCount ∧ m.HasID (serverResponse.mem 1) (serverResponse.mem 2)) :
    Program.Leads (Client.perform t) ConfirmedSent
      (fun c => ConfirmedSent c ∧ Unread queue serverResponse c ∧ c.confirmedMessages = seen)
      (handleDatagram cfg serverResponse) fun _ => ConfirmedSent := by
  unfold handleDatagram
  simp only [udp]
  split
  · exact leads_errHandling _
  · rename_i d decoded
    by_cases conf : uchar2msgType d.pBlocks.type = .msgConf
    · have type : d.pBlocks.type = MsgType.msgConf.toUChar :=
        eq_toUChar_of_uchar2msgType conf (by decide)
      have first : serverResponse.mem 0 = MsgType.msgConf.toUChar :=
        eq_toUChar_of_uchar2msgType ((disassebleProtocolUDP_type decoded).symm.trans conf)
          (by decide)
      unfold dispatch
      refine leads_sent (fun _ c => ConfirmedSent c ∧ Unread queue serverResponse c ∧
        c.confirmedMessages = seen) (fun c r c' sent known act => ?_) fun state => ?_
      · cases act
        exact ⟨sent, known⟩
      rw [if_neg (by simp [type]), receiverFSM]
      simp only [udp]
      refine Program.leads_bind (repetitive_leads d.pBlocks) fun repetitiveMsg => ?_
      simp only [receiverAction, conf, udp]
      rintro c ⟨filtered, unread⟩
      exact handleConfirmUDP_sent (disassebleProtocolUDP_msgId decoded)
        (proper first (type ▸ filtered)) c unread
    · exact Program.leads_mono (Program.leads_of_keeps (dispatch_confirmedSent conf))
        (fun _ hc => hc.1) (fun _ _ hc => hc) fun _ hc => hc

theorem protocolReceiver_sent (udp : cfg.protocol = .protUDP) {c : Client} {datagram : List UInt8}
    (inTime : InTime c datagram) (sent : ConfirmedSent c) :
    ConfirmedSent ((protocolReceiver cfg datagram).exec (Client.perform t) c).state := by
  have led : Program.Leads (Client.perform t) ConfirmedSent
      (fun c' => ConfirmedSent c' ∧ c' = c) (protocolReceiver cfg datagram)
      fun _ => ConfirmedSent := by
    unfold protocolReceiver
    refine leads_sent (fun state c' => ConfirmedSent c' ∧ c' = c ∧ state = c.fsmState)
      (fun c' r c'' sent same act => ?_) fun state => ?_
    · cases act
      exact ⟨sent, same, congrArg Client.fsmState same⟩
    split
    · exact Program.leads_ret fun _ hc => hc.1
    rename_i goes
    split
    · exact Program.leads_ret fun _ hc => hc.1
    rename_i given
    refine leads_sent (fun r c' => c.fsmState ≠ .fsmEnd ∧
      r = Client.receive c.serverResponse datagram ∧ ConfirmedSent c' ∧
        Unread c.sendingQueue r c' ∧ c'.confirmedMessages = c.confirmedMessages) ?_ fun r => ?_
    · rintro c' r c'' sent ⟨rfl, rfl⟩ act
      cases act
      refine ⟨goes, rfl, fun m low high mem => ?_, ⟨rfl, rfl⟩, rfl⟩
      rcases List.mem_cons.mp mem with new | before
      · cases new
      · exact sent m low high before
    have handles : Program.Leads (Client.perform t) ConfirmedSent (fun c' => c.fsmState ≠ .fsmEnd ∧
        r = Client.receive c.serverResponse datagram ∧ ConfirmedSent c' ∧
          Unread c.sendingQueue r c' ∧ c'.confirmedMessages = c.confirmedMessages)
        (handleDatagram cfg r) fun _ => ConfirmedSent := by
      rintro c' ⟨running, rfl, known⟩
      refine handleDatagram_sent udp (fun type filtered m first accepts => ?_) c' known
      obtain ⟨unsent, auth⟩ := inTime ⟨given, running, type, filtered⟩ m first
      refine ⟨Nat.pos_of_ne_zero fun zero => unsent zero accepts, ?_⟩
      exact accepts.elim id auth
    exact Program.leads_bind handles fun _ => Program.leads_ret fun _ hc => hc
  have done := led c ⟨sent, rfl⟩
  cases run : (protocolReceiver cfg datagram).exec (Client.perform t) c <;>
    rw [run] at done <;> exact done

end

/-! ## Runs -/

theorem passed_of_passedIf {cfg : NetworkConfig} {ok : Client → Prog Point → Prop}
    {s₀ s : Passes Thread Client Point} (run : (machine cfg).PassedIf ok s₀ s) :
    (machine cfg).Passed s₀ s := by
  induction run with
  | refl => exact .refl
  | done _ point starts _ run ih => exact ih.step (.done point starts run)
  | halted _ point starts _ run ih => exact ih.step (.halted point starts run)

/-- **No message is acknowledged without having been sent**, in every run in which no CONFIRM
comes that a message at the head takes before it was sent, or an AUTH with another ID. -/
theorem acknowledged_of_timely {cfg : NetworkConfig} (udp : cfg.protocol = .protUDP)
    {heap : Nat → Memory} {ipAddress : Buffer} {s : Passes Thread Client Point}
    (run : (machine cfg).PassedIf (ConfirmsTimely cfg)
      (initialPasses (programInterfaceInit heap ipAddress)) s) :
    Acknowledged s.shared.history := by
  have sent : ConfirmedSent s.shared := by
    apply Machine.invariant_of_passedIf (m := machine cfg) ConfirmedSent _ run
    · intro m low high mem
      cases mem
    intro t p q c starts timely sent
    cases timely with
    | protocolReceiver datagram inTime => exact protocolReceiver_sent udp inTime sent
    | others other starts => exact others_confirmedSent starts other c sent
  intro m low high earlier suffix
  obtain ⟨recorded, -⟩ :=
    (traced_of_passed udp (passed_of_passedIf run)).matched m low high earlier suffix
  obtain ⟨counted, ids⟩ := sent m low high (suffix.mem List.mem_cons_self)
  obtain ⟨last, transmitted⟩ := recorded.counted counted
  refine ⟨counted, last, transmitted, ?_⟩
  have same := recorded.labelled last transmitted
  simp only [Message.lowMsgIdByte, Message.highMsgIdByte, same]
  exact ⟨ids.1.symm, ids.2.symm⟩

/-- A check of a cue, for runs that meet the condition. -/
def cueInTime (c : Client) : Cue → Bool
  | .receiver datagram => InTime c datagram
  | _ => true

theorem confirmsTimely_of_cued {cfg : NetworkConfig} (s : Passes Thread Client Point) (cue : Cue)
    (t : Thread) (q : Prog Point) (inTime : cueInTime s.shared cue = true)
    (h : cued cfg s cue = some (t, q)) : ConfirmsTimely cfg s.shared q := by
  obtain ⟨p, -, starts⟩ := starts_of_cued h
  cases cue <;> simp only [cued] at h
  case receiver datagram =>
    (repeat' split at h) <;> cases h
    exact .protocolReceiver datagram (by simpa [cueInTime] using inTime)
  all_goals
    split at h <;> cases h
    all_goals exact .others (by decide) starts

/-- A message of the user that is sent and confirmed. -/
theorem acknowledged_of_timely_hi :
    ∃ s, (machine ⟨.protUDP, 3⟩).PassedIf (ConfirmsTimely ⟨.protUDP, 3⟩)
        (initialPasses (programInterfaceInit (fun _ _ => 0xC4) ⟨some fun _ => 0, 10, 10⟩)) s ∧
      (∃ m low high earlier, .confirmed m low high :: earlier <:+ s.shared.history ∧
        m.type = MsgType.msgMsg.toUChar) ∧
      Acknowledged s.shared.history := by
  have played : (playIf (machine ⟨.protUDP, 3⟩) ⟨.protUDP, 3⟩ cueInTime
      (initialPasses (programInterfaceInit (fun _ _ => 0xC4) ⟨some fun _ => 0, 10, 10⟩))
      [.main (ascii "/auth u s d\n"), .sender 1, .receiver [0, 0, 0],
        .receiver ([1, 0, 0, 1, 0, 0] ++ ascii "ok" ++ [0]), .sender 1,
        .main (ascii "hi\n"), .receiver [0, 0, 0], .sender 1, .receiver [0, 1, 0]]).any
      (fun s => s.shared.history.tails.any
        (confirmsNow fun m _ _ _ => m.type == MsgType.msgMsg.toUChar)) = true := by
    decide +kernel
  obtain ⟨s, played, good⟩ := (Option.any_eq_true _ _).mp played
  have run := passedIf_of_playIf (fun _ _ _ => id) _ confirmsTimely_of_cued .refl played
  obtain ⟨m, low, high, earlier, suffix, type⟩ := exists_confirm good
  exact ⟨s, run, ⟨m, low, high, earlier, suffix, by simpa using type⟩,
    acknowledged_of_timely rfl run⟩

/-- A message of the user is queued with the ID bytes 0 0 in its buffer. The CONFIRM of the AUTH
comes once more and is taken for it, and the sender drops the message that it has not sent. -/
theorem confirm_unsent_msg :
    ∃ s, Passed ⟨.protUDP, 3⟩ (fun _ _ => 0) ⟨some fun _ => 0, 10, 10⟩ s ∧
      ¬ Acknowledged s.shared.history ∧
      (∃ m low high earlier, .confirmed m low high :: earlier <:+ s.shared.history ∧
        m.type = MsgType.msgMsg.toUChar ∧ m.sendCount = 0 ∧
          lastTransmission m.uid s.shared.history = none) ∧
      s.shared.sendingQueue = [] := by
  obtain ⟨s, passed, good⟩ := passed_of_playAll ⟨.protUDP, 3⟩ (fun _ _ => 0)
    ⟨some fun _ => 0, 10, 10⟩
    [.main (ascii "/auth u s d\n"), .sender 1, .receiver [0, 0, 0],
      .receiver ([1, 0, 0, 1, 0, 0] ++ ascii "ok" ++ [0]), .sender 1, .sender 1,
      .main (ascii "hi\n"), .receiver [0, 0, 0], .sender 1]
    (fun s => s.shared.history.tails.any (confirmsNow fun m _ _ _ =>
      m.type == MsgType.msgMsg.toUChar && m.sendCount == 0 &&
        (lastTransmission m.uid s.shared.history).isNone) && s.shared.sendingQueue.isEmpty)
    (by decide +kernel)
  obtain ⟨lost, empty⟩ := Bool.and_eq_true_iff.mp good
  obtain ⟨m, low, high, earlier, suffix, good⟩ := exists_confirm lost
  simp only [Bool.and_eq_true, beq_iff_eq, Option.isNone_iff_eq_none] at good
  obtain ⟨⟨type, unsent⟩, never⟩ := good
  refine ⟨s, passed, fun acknowledged => ?_, ⟨m, low, high, earlier, suffix, type, unsent, never⟩,
    List.isEmpty_iff.mp empty⟩
  exact absurd (acknowledged m low high earlier suffix).1 (by omega)

end Ipk24Chat
