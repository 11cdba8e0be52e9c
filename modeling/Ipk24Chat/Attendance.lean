import Ipk24Chat.Execution
import Ipk24Chat.WholePass
import Ipk24Chat.Confirm
import Ipk24Chat.Numbering
import Ipk24Chat.Display
import Ipk24Chat.SenderPass

/-!
# The CONFIRMs in the queue

`sendConfirm` puts a CONFIRM in front of the queue, with the ID of the datagram it
answers. There it stays as it is, as long as no handler takes it for the client's own
message at the head.

* `Attended`: the CONFIRMs in the queue are as they were queued;
* `attended_act`: what keeps them so, action by action;
* `others_attended`: passes of main and the receiver keep them so.
-/

namespace Ipk24Chat

/-- The message has the ID bytes of the datagram. -/
def Message.Answers (m : Message) (datagram : List UInt8) : Prop :=
  ∃ low high, m.buffer[1]? = some low ∧ m.buffer[2]? = some high ∧
    datagram[1]? = some low ∧ datagram[2]? = some high

/-- Each transmission of a CONFIRM answers a datagram received before, and is the first
one of this CONFIRM. -/
def ConfirmsIntact (history : List Event) : Prop :=
  ∀ m earlier, .transmitted m :: earlier <:+ history → m.type = MsgType.msgConf.toUChar →
    (∃ datagram, .received datagram ∈ earlier ∧ m.Answers datagram) ∧
      ∀ sent, .transmitted sent ∈ earlier → sent.uid ≠ m.uid

/-- A CONFIRM that is not in the queue behind the action was transmitted before, unless
the action empties the queue. -/
def LeavesSent (a : Act) (c c' : Client) : Prop :=
  ∀ m ∈ c.sendingQueue, m.type = MsgType.msgConf.toUChar → m.uid ∉ c'.sendingQueue.uids →
    a = .queuePopAllMessages ∨ ∃ sent, .transmitted sent ∈ c.history ∧ sent.uid = m.uid

/-- A REPLY sets no flags, and a CONFIRM does not confirm, while the message at the head is
itself a CONFIRM. -/
def sparesConfirms (_ : Thread) : Act → Client → Bool
  | .queueSetMessageFlags _, c => c.sendingQueue.head?.all Message.numbered
  | .setConfirmed p, c => (c.sendingQueue.deref p).all Message.numbered
  | _, _ => true

namespace Outgoing

/-- The bytes are the ID of a datagram that was received. -/
def Known (low high : UInt8) (history : List Event) : Prop :=
  ∃ datagram, .received datagram ∈ history ∧ datagram[1]? = some low ∧ datagram[2]? = some high

/-- A CONFIRM as `sendConfirm` queued it. -/
structure Waits (c : Client) (m : Message) : Prop where
  msgFlags : m.msgFlags = .msgFlagConfirm ∨ m.msgFlags = .msgFlagNokReply
  confirmed : m.confirmed = false
  sendCount : m.sendCount = 0
  answers : ∃ datagram, .received datagram ∈ c.history ∧ m.Answers datagram
  unsent : ∀ sent, .transmitted sent ∈ c.history → sent.uid ≠ m.uid

structure Attended (c : Client) : Prop where
  identified : Identified c
  seen : ∀ m ∈ c.confirmedMessages, Known m.lowMsgId m.highMsgId c.history
  waits : ∀ m ∈ c.sendingQueue, m.type = MsgType.msgConf.toUChar → Waits c m
  intact : ConfirmsIntact c.history

/-- What holds between the passes: a process that has ended may have sent the CONFIRM at the
head. -/
structure Whole (c : Client) : Prop where
  attended : c.status = .running → Attended c
  intact : ConfirmsIntact c.history

theorem Attended.whole {c : Client} (hc : Attended c) : Whole c := ⟨fun _ => hc, hc.intact⟩

theorem attended_ended {c : Client} (status : Status) (hc : Attended c) :
    Attended { c with status := status } :=
  ⟨⟨hc.identified.fresh, hc.identified.distinct, hc.identified.old⟩, hc.seen,
    fun m mem conf =>
      let w := hc.waits m mem conf
      ⟨w.msgFlags, w.confirmed, w.sendCount, w.answers, w.unsent⟩, hc.intact⟩

/-- The message at the head, if there is one, is not a CONFIRM. -/
def HeadNumbered (queue : MessageQueue) : Prop :=
  ∀ m rest, queue = m :: rest → m.type ≠ MsgType.msgConf.toUChar

/-- What an action must heed to leave the CONFIRMs as they are. -/
def Tends (c : Client) : Act → Prop
  | .queueSetMessageFlags _ | .queueMessageSended => HeadNumbered c.sendingQueue
  | .setConfirmed p => ∀ m, c.sendingQueue.deref p = some m → m.type ≠ MsgType.msgConf.toUChar
  | .sendto _ => False
  | .queueAddMessage _ _ type => type ≠ MsgType.msgConf.toUChar
  | .queueAddMessagePriority buffer msgFlags type =>
    (msgFlags = .msgFlagConfirm ∨ msgFlags = .msgFlagNokReply) ∧
      ∃ datagram, .received datagram ∈ c.history ∧
        (c.newMessage buffer msgFlags type).Answers datagram
  | .queueAddMessageOnlyID _ => Known (c.serverResponse.mem 1) (c.serverResponse.mem 2) c.history
  | .note e => ∀ m, e ≠ .transmitted m
  | _ => True

/-- The identity of a message leads to it. -/
theorem deref_of_mem {queue : MessageQueue} (distinct : queue.uids.Nodup) {m : Message}
    (mem : m ∈ queue) : queue.deref (some m.uid) = some m := by
  induction queue with
  | nil => cases mem
  | cons head rest ih =>
    rw [MessageQueue.uids, List.map_cons, List.nodup_cons] at distinct
    rcases List.mem_cons.mp mem with rfl | behind
    · exact deref_head m rest
    · have other : head.uid ≠ m.uid := fun same => distinct.1 (same ▸ List.mem_map_of_mem behind)
      simpa [MessageQueue.deref, other] using ih distinct.2 behind

section
variable {t : Thread} {c c' : Client} {a : Act} {r : a.Answer}

/-- No other message takes the place of a CONFIRM. -/
theorem confirm_queueAfter (hc : Attended c) (ok : Tends c a) {m : Message}
    (mem : m ∈ c.queueAfter a) (conf : m.type = MsgType.msgConf.toUChar) :
    m ∈ c.sendingQueue ∨ ∃ buffer msgFlags type,
      a = .queueAddMessagePriority buffer msgFlags type ∧
        m = c.newMessage buffer msgFlags type := by
  cases a <;> try exact Or.inl mem
  case queueSetMessageFlags newFlag =>
    left
    cases queue : c.sendingQueue with
    | nil => simp [Client.queueAfter, queue, MessageQueue.setMessageFlags] at mem
    | cons head rest =>
      simp only [Client.queueAfter, queue, MessageQueue.setMessageFlags] at mem
      rcases List.mem_cons.mp mem with rfl | mem
      · exact absurd conf (ok head rest queue)
      · exact List.mem_cons_of_mem _ mem
  case queueSetMessageID =>
    left
    cases queue : c.sendingQueue with
    | nil => simp [Client.queueAfter, queue, MessageQueue.setMessageID] at mem
    | cons head rest =>
      simp only [Client.queueAfter, queue, MessageQueue.setMessageID] at mem
      split at mem
      · rename_i other
        rcases List.mem_cons.mp mem with rfl | mem
        · have waits := hc.waits head (queue ▸ List.mem_cons_self) conf
          rcases waits.msgFlags with flags | flags
          · exact absurd flags other.1
          · exact absurd flags other.2
        · exact List.mem_cons_of_mem _ mem
      · exact mem
  case queueMessageSended =>
    left
    cases queue : c.sendingQueue with
    | nil => simp [Client.queueAfter, queue, MessageQueue.messageSended] at mem
    | cons head rest =>
      simp only [Client.queueAfter, queue, MessageQueue.messageSended, Option.getD_some] at mem
      rcases List.mem_cons.mp mem with rfl | mem
      · exact absurd conf (ok head rest queue)
      · exact List.mem_cons_of_mem _ mem
  case queuePopMessage => exact Or.inl (List.mem_of_mem_tail mem)
  case queuePopAllMessages => cases mem
  case queueAddMessage buffer msgFlags type =>
    rcases List.mem_append.mp mem with mem | new
    · exact Or.inl mem
    · obtain rfl := List.mem_singleton.mp new
      exact absurd conf ok
  case queueAddMessagePriority buffer msgFlags type =>
    rcases List.mem_cons.mp mem with rfl | mem
    · exact Or.inr ⟨buffer, msgFlags, type, rfl, rfl⟩
    · exact Or.inl mem
  case setConfirmed p =>
    left
    obtain ⟨m', mem', rfl⟩ := List.mem_map.mp mem
    by_cases found : some m'.uid = p
    · rw [if_pos found] at conf
      have there : c.sendingQueue.deref p = some m' := by
        rw [← found]
        exact deref_of_mem hc.identified.distinct mem'
      exact absurd conf (ok m' there)
    · rw [if_neg found]
      exact mem'

/-- Nothing is transmitted but by `sendto`. -/
theorem emitted_tends (ok : Tends c a) (m : Message) : c.emitted a ≠ some (.transmitted m) := by
  cases a <;> try (rintro ⟨⟩; done)
  case setConfirmed p => cases found : c.sendingQueue.deref p <;> simp [Client.emitted, found]
  case sendto p => exact ok.elim
  case note e => simpa [Client.emitted] using ok m

theorem transmitted_tends (ok : Tends c a) (h : c.act t a = .ok r c') {m : Message}
    (mem : .transmitted m ∈ c'.history) : .transmitted m ∈ c.history := by
  rw [Client.act_history h, List.mem_append, Option.mem_toList] at mem
  exact mem.resolve_left (emitted_tends ok m)

theorem received_act (h : c.act t a = .ok r c') {datagram : List UInt8}
    (mem : .received datagram ∈ c.history) : .received datagram ∈ c'.history := by
  rw [Client.act_history h]
  exact List.mem_append_right _ mem

theorem known_act (h : c.act t a = .ok r c') {low high : UInt8}
    (known : Known low high c.history) : Known low high c'.history := by
  obtain ⟨datagram, mem, bytes⟩ := known
  exact ⟨datagram, received_act h mem, bytes⟩

theorem intact_tends (ok : Tends c a) (h : c.act t a = .ok r c')
    (intact : ConfirmsIntact c.history) : ConfirmsIntact c'.history := by
  intro m earlier suffix conf
  rw [Client.act_history h] at suffix
  cases emitted : c.emitted a with
  | none =>
    rw [emitted] at suffix
    exact intact m earlier suffix conf
  | some e =>
    rw [emitted] at suffix
    rcases List.suffix_cons_iff.mp suffix with eq | before
    · rw [← (List.cons.inj eq).1] at emitted
      exact absurd emitted (emitted_tends ok m)
    · exact intact m earlier before conf

theorem seen_tends (hc : Attended c) (ok : Tends c a) (h : c.act t a = .ok r c') :
    ∀ m ∈ c'.confirmedMessages, Known m.lowMsgId m.highMsgId c'.history := by
  intro m mem
  by_cases remembers : ∃ type, a = .queueAddMessageOnlyID type
  · obtain ⟨type, rfl⟩ := remembers
    have store : c'.confirmedMessages =
        queueAddMessageOnlyID c.confirmedMessages c.serverResponse type := by
      cases h
      rfl
    rw [store, queueAddMessageOnlyID] at mem
    rcases List.mem_cons.mp mem with rfl | before
    · exact known_act h ok
    · exact known_act h (hc.seen m before)
  · rw [Client.act_confirmedMessages h fun type eq => remembers ⟨type, eq⟩] at mem
    exact known_act h (hc.seen m mem)

/-- **The CONFIRMs stay as they are.** -/
theorem attended_act (hc : Attended c) (ok : Tends c a) (h : c.act t a = .ok r c') :
    Attended c' := by
  have identified : Identified c' := by
    apply hc.identified.act h
    rintro m rfl
    exact ok m rfl
  refine ⟨identified, seen_tends hc ok h, fun m mem conf => ?_, intact_tends ok h hc.intact⟩
  rw [Client.act_queue h] at mem
  rcases confirm_queueAfter hc ok mem conf with there | ⟨buffer, msgFlags, type, rfl, rfl⟩
  · have waits := hc.waits m there conf
    obtain ⟨datagram, received, answers⟩ := waits.answers
    exact ⟨waits.msgFlags, waits.confirmed, waits.sendCount,
      ⟨datagram, received_act h received, answers⟩,
      fun sent before => waits.unsent sent (transmitted_tends ok h before)⟩
  · have known := fun sent => transmitted_tends (m := sent) ok h
    obtain ⟨flags, datagram, received, answers⟩ := ok
    refine ⟨flags, rfl, rfl, ⟨datagram, received_act h received, answers⟩, fun sent before => ?_⟩
    -- a message that is added now was not sent before
    exact Nat.ne_of_lt (hc.identified.old sent (known sent before))

end

/-! ## Main and the receiver -/

/-- The threads other than the sender, under the condition. -/
def others (cfg : NetworkConfig) : Machine Thread Client Act.Answer Point :=
  (machine cfg).restrict fun t a c => t ≠ .sender && !a.bySender && sparesConfirms t a c

/-- The actions of these threads that leave the CONFIRMs as they are. -/
def Mild : Act → Prop
  | .queueAddMessage _ _ type => type ≠ MsgType.msgConf.toUChar
  | .queueAddMessagePriority .. | .queueAddMessageOnlyID _ | .recvfrom _ => False
  | .note e => ∀ m, e ≠ .transmitted m
  | _ => True

section
variable {cfg : NetworkConfig} {t : Thread} {c c' : Client} {a : Act} {r : a.Answer}

theorem others_ok (h : (others cfg).perform t a c = .ok r c') :
    t ≠ .sender ∧ a.bySender = false ∧ sparesConfirms t a c = true ∧ c.status = .running ∧
      c.act t a = .ok r c' := by
  simp only [others, Machine.restrict] at h
  split at h
  · rename_i ok
    simp only [Bool.and_eq_true, decide_eq_true_eq, Bool.not_eq_true'] at ok
    exact ⟨ok.1.1, ok.1.2, ok.2, Client.perform_ok h⟩
  · cases h

theorem others_halt (h : (others cfg).perform t a c = .halt c') :
    c' = { c with status := c'.status } := by
  simp only [others, Machine.restrict] at h
  split at h
  · exact Client.act_halt (Client.perform_halt h).2
  · cases h

theorem headNumbered_of_all (all : c.sendingQueue.head?.all Message.numbered = true) :
    HeadNumbered c.sendingQueue := by
  intro m rest queue
  simpa [queue, Message.numbered] using all

theorem tends_of_mild (mild : Mild a) (foreign : a.bySender = false)
    (spares : sparesConfirms t a c = true) : Tends c a := by
  cases a <;> try first | trivial | exact mild | exact mild.elim | cases foreign
  case queueSetMessageFlags newFlag => exact headNumbered_of_all spares
  case setConfirmed p =>
    intro m found
    simpa [sparesConfirms, found, Message.numbered] using spares

theorem mild_of_calm (a : Act) (calm : a.Calm) : Mild a := by
  have usual := calm.1
  cases a <;> first | trivial | exact usual.elim | skip
  case note e => rcases usual with rfl | rfl | rfl <;> rintro m ⟨⟩

/-- What is known while a datagram is handled: where its ID is from. -/
structure Handling (serverResponse : Buffer) (c : Client) : Prop where
  attended : Attended c
  same : c.serverResponse = serverResponse
  known : Known (serverResponse.mem 1) (serverResponse.mem 2) c.history

/-- An action that is mindful in the present state keeps what is known. -/
theorem handling_act {serverResponse : Buffer} (hc : Handling serverResponse c) (ok : Tends c a)
    (receives : ∀ datagram, a ≠ .recvfrom datagram) (h : c.act t a = .ok r c') :
    Handling serverResponse c' :=
  ⟨attended_act hc.attended ok h, (Client.act_serverResponse h receives).trans hc.same,
    known_act h hc.known⟩

theorem handling_ended {serverResponse : Buffer} (status : Status)
    (hc : Handling serverResponse c) : Handling serverResponse { c with status := status } :=
  ⟨attended_ended status hc.attended, hc.same, hc.known⟩

theorem not_recvfrom_of_mild (mild : Mild a) (datagram : List UInt8) : a ≠ .recvfrom datagram := by
  rintro rfl
  exact mild

/-- An invariant that mild actions keep is one to follow these threads with. -/
theorem mild_rules (cfg : NetworkConfig) (t : Thread) {I : Client → Prop}
    (step : ∀ (a : Act) (r : a.Answer) c c', Mild a → Tends c a → c.act t a = .ok r c' →
      I c → I c')
    (ended : ∀ c (status : Status), I c → I { c with status := status }) :
    Program.Compositional Mild Act.Truthful fun {α} (p : Prog α) =>
      p.Keeps ((others cfg).perform t) I := by
  apply Program.compositional_keeps
  · intro a c r c' h
    exact Client.act_truthful (others_ok h).2.2.2.2
  · intro a c hc mild
    constructor
    · intro r c' h
      obtain ⟨-, foreign, spares, -, act⟩ := others_ok h
      exact step a r c c' mild (tends_of_mild mild foreign spares) act hc
    · intro c' h
      rw [others_halt h]
      exact ended c _ hc

theorem attended_rules (cfg : NetworkConfig) (t : Thread) :
    Program.Compositional Mild Act.Truthful fun {α} (p : Prog α) =>
      p.Keeps ((others cfg).perform t) Attended :=
  mild_rules cfg t (fun _ _ _ _ _ ok act hc => attended_act hc ok act)
    fun _ status hc => attended_ended status hc

theorem handling_rules (cfg : NetworkConfig) (t : Thread) (serverResponse : Buffer) :
    Program.Compositional Mild Act.Truthful fun {α} (p : Prog α) =>
      p.Keeps ((others cfg).perform t) (Handling serverResponse) :=
  mild_rules cfg t
    (fun _ _ _ _ mild ok act hc => handling_act hc ok (not_recvfrom_of_mild mild) act)
    fun _ status hc => handling_ended status hc

end

section
variable {cfg : NetworkConfig} {t : Thread} {G : {α : Type} → Prog α → Prop}

section
variable {allowed : Act → Prop} (rules : Program.Compositional allowed Act.Truthful G)
  (mild : ∀ a, Mild a → a.bySender = false → allowed a)
include rules mild

theorem sendBye_mild : G (sendBye cfg) := by
  unfold sendBye
  iterate 2 refine take_bind rules (mild _ trivial rfl) fun _ _ => ?_
  refine take_bind rules (mild _ (show (_ : UInt8) ≠ _ by decide) rfl) fun _ _ => ?_
  exact take_only rules (mild _ trivial rfl)

omit rules in
theorem still_of_mild (a : Act) (h : a.Still) : allowed a := mild a (mild_of_calm a h.1) h.2

theorem errHandling_mild {α : Type} (f : Failure) : G (errHandling cfg f : Prog α) :=
  errHandling_still rules (still_of_mild mild) (sendBye_mild rules mild) f

theorem sendError_mild (buffer : Scratch) (text : String) : G (sendError cfg buffer text) := by
  unfold sendError
  iterate 2 refine take_bind rules (mild _ trivial rfl) fun _ _ => ?_
  refine take_bind rules (mild _ trivial rfl) fun result _ => ?_
  cases result with
  | error f => exact errHandling_mild rules mild f
  | ok r =>
    refine take_bind rules (mild _ trivial rfl) fun _ _ => ?_
    split
    · refine take_bind rules (mild _ (show (_ : UInt8) ≠ _ by decide) rfl) fun _ _ => ?_
      exact take_only rules (mild _ trivial rfl)
    · exact errHandling_mild rules mild _

end

variable (rules : Program.Compositional Mild Act.Truthful G)
include rules

theorem handleConfirmUDP_mild (msgID : Nat) : G (handleConfirmUDP msgID) := by
  refine handleConfirmUDP_obeys rules mild_of_calm trivial (fun a wiring _ => ?_) msgID
  cases a <;> first | trivial | exact wiring.elim | skip
  case note e =>
    obtain ⟨msgID, rfl⟩ := wiring
    rintro m ⟨⟩

theorem assembleCommand_mild {answers : (a : Act) → a.Answer → Prop} (pBlocks : ProtocolBlocks)
    (flags : MsgFlags) (sendable : Sendable answers pBlocks) :
    G (assembleCommand cfg pBlocks flags) := by
  have bye : G (sendBye cfg) := sendBye_mild rules fun _ h _ => h
  refine assembleCommand_obeys rules mild_of_calm bye (fun _ _ h => h) pBlocks flags trivial
    fun type sent => ?_
  have sentAs : type = .msgAuth ∨ type = .msgBye ∨ type = .msgJoin ∨ type = .msgMsg := by
    unfold Sendable at sendable
    split at sendable <;> rename_i command <;>
      simp_all [CommandType.sentAs, CommandType.message, eq_comm]
  rcases sentAs with rfl | rfl | rfl | rfl <;> exact show (_ : UInt8) ≠ _ by decide

end

/-- The CONFIRM of a datagram has its ID. -/
theorem sendConfirm_handling {cfg : NetworkConfig} {t : Thread} {serverResponse : Buffer}
    {flags : MsgFlags} (own : flags = .msgFlagConfirm ∨ flags = .msgFlagNokReply) :
    (sendConfirm cfg serverResponse flags).Keeps ((others cfg).perform t)
      (Handling serverResponse) := by
  have rules := handling_rules cfg t serverResponse
  have errors (f : Failure) : (errHandling cfg f : Prog Unit).Keeps ((others cfg).perform t)
      (Handling serverResponse) :=
    errHandling_mild rules (fun _ h _ => h) f
  unfold sendConfirm
  refine take_bind rules trivial fun _ _ => ?_
  apply Program.keeps_of_leads
  refine leads_take (fun (result : Except Failure Assembled) c => Handling serverResponse c ∧
    ∀ r, result = .ok r → bufferCopy (c.scratch .protocolToSendedByReceiver) =
      [MsgType.msgConf.toUChar, serverResponse.mem 1, serverResponse.mem 2]) ?_ fun result => ?_
  · intro c hc
    refine ⟨fun result c' h => ?_, fun c' h => ?_, fun _ => hc⟩
    · obtain ⟨-, -, -, -, act⟩ := others_ok h
      refine ⟨handling_act hc ?_ (by rintro _ ⟨⟩) act, ?_⟩
      · trivial
      rintro r rfl
      cases act
      exact Memory.read_write_self _ 0 _
    · rw [others_halt h]
      exact handling_ended _ hc
  · cases result with
    | error f =>
      exact Program.leads_mono (Program.leads_of_keeps (errors f)) (fun _ hc => hc.1)
        (fun _ _ hc => hc) fun _ hc => hc
    | ok r =>
      change Program.Leads _ _ _ (if r.canBeSended = true then _ else _ : Prog Unit) _
      split
      · refine leads_take (f := .ret) (fun _ => Handling serverResponse) ?_ fun _ =>
          Program.leads_ret fun _ hc => hc
        rintro c ⟨hc, bytes⟩
        refine ⟨fun _ c' h => ?_, fun c' h => ?_, fun _ => hc⟩
        · obtain ⟨-, -, -, -, act⟩ := others_ok h
          obtain ⟨datagram, received, low, high⟩ := hc.known
          have wire := bytes r rfl
          have ok : Tends c (.queueAddMessagePriority .protocolToSendedByReceiver flags
              r.pBlocks.type) := by
            refine ⟨own, datagram, received, _, _, ?_, ?_, low, high⟩ <;>
              simp [Client.newMessage, createMessage, wire]
          exact handling_act hc ok (by rintro _ ⟨⟩) act
        · rw [others_halt h]
          exact handling_ended _ hc
      · exact Program.leads_mono (Program.leads_of_keeps (errors _)) (fun _ hc => hc.1)
          (fun _ _ hc => hc) fun _ hc => hc

theorem receiverParts_handling (cfg : NetworkConfig) (t : Thread) (serverResponse : Buffer) :
    ReceiverParts cfg serverResponse fun {α} (p : Prog α) =>
      p.Keeps ((others cfg).perform t) (Handling serverResponse) := by
  have rules := handling_rules cfg t serverResponse
  constructor
  · exact sendBye_mild rules fun _ h _ => h
  · exact sendConfirm_handling (Or.inl rfl)
  · exact sendConfirm_handling (Or.inr rfl)
  · intro msgID
    refine take_bind rules (by rintro m ⟨⟩) fun _ _ => ?_
    exact take_only rules trivial
  · exact unknownMessage_obeys rules mild_of_calm (sendConfirm_handling (Or.inl rfl))
      (sendError_mild rules (fun _ h _ => h) _ _) (sendBye_mild rules fun _ h _ => h)

/-- What is known before the duplicate filter. A datagram without an ID leaves the ID of the
one before it in the buffer. -/
structure Arrived (serverResponse : Buffer) (c : Client) : Prop where
  attended : Attended c
  same : c.serverResponse = serverResponse
  known : 3 ≤ serverResponse.used → Known (serverResponse.mem 1) (serverResponse.mem 2) c.history

section
variable {cfg : NetworkConfig} {t : Thread} {serverResponse : Buffer}

theorem arrived_rules (cfg : NetworkConfig) (t : Thread) (serverResponse : Buffer) :
    Program.Compositional Mild Act.Truthful fun {α} (p : Prog α) =>
      p.Keeps ((others cfg).perform t) (Arrived serverResponse) := by
  apply mild_rules
  · intro a r c c' mild ok act hc
    exact ⟨attended_act hc.attended ok act,
      (Client.act_serverResponse act (not_recvfrom_of_mild mild)).trans hc.same,
      fun long => known_act act (hc.known long)⟩
  · exact fun c status hc => ⟨attended_ended status hc.attended, hc.same, hc.known⟩

/-- A message that is not filtered out by an error has the ID of a datagram. -/
theorem repetitive_handling (pBlocks : ProtocolBlocks) :
    Program.Leads ((others cfg).perform t) Attended (Arrived serverResponse)
      (repetitive cfg pBlocks serverResponse) fun _ => Handling serverResponse := by
  have rules := arrived_rules cfg t serverResponse
  have unlocked (result : Bool) : Program.Leads ((others cfg).perform t) Attended
      (Handling serverResponse) (queueUnlock >>= fun _ => pure result) fun _ =>
        Handling serverResponse := by
    have handles := handling_rules cfg t serverResponse
    exact Program.leads_mono (Program.leads_of_keeps
      (take_bind handles trivial fun _ _ => handles.ret _)) (fun _ hc => hc) (fun _ _ hc => hc)
      fun _ hc => hc.attended
  unfold repetitive
  refine Program.leads_bind (Program.leads_mono (Program.leads_of_keeps (take_only rules trivial))
    (fun _ hc => hc) (fun _ _ hc => hc) fun _ hc => hc.attended) fun _ => ?_
  refine leads_take (fun seen c => Arrived serverResponse c ∧
    (seen = true → Known (serverResponse.mem 1) (serverResponse.mem 2) c.history)) ?_ fun seen => ?_
  · intro c hc
    refine ⟨fun seen c' h => ?_, fun c' h => ?_, fun _ => hc.attended⟩
    · obtain ⟨-, -, -, -, act⟩ := others_ok h
      simp only [Client.act, Effect.ok.injEq] at act
      obtain ⟨rfl, rfl⟩ := act
      refine ⟨hc, fun contained => ?_⟩
      rw [hc.same] at contained
      exact hc.attended.seen _ ((queueContainsMessageId_iff _ _ _).mp contained).1
    · rw [others_halt h]
      exact attended_ended _ hc.attended
  change Program.Leads _ _ _ (if seen = true then _ else _ : Prog Bool) _
  split
  · exact Program.leads_mono (unlocked true)
      (fun c hc => ⟨hc.1.attended, hc.1.same, hc.2 ‹_›⟩) (fun _ _ hc => hc) fun _ hc => hc
  · split
    · have own := attended_rules cfg t
      refine Program.leads_mono (Program.leads_of_never
        (errHandling_mild own (fun _ h _ => h) _) (errHandling_results _ _))
        (fun _ hc => hc.1.attended) (fun _ _ hc => hc) fun _ hc => hc
    · rename_i long
      refine leads_take (fun _ => Handling serverResponse) ?_ fun _ => unlocked false
      rintro c ⟨hc, -⟩
      have known := hc.known (by omega)
      refine ⟨fun r c' h => ?_, fun c' h => ?_, fun _ => hc.attended⟩
      · obtain ⟨-, -, -, -, act⟩ := others_ok h
        refine handling_act ⟨hc.attended, hc.same, known⟩ ?_ (by rintro _ ⟨⟩) act
        rw [Tends, hc.same]
        exact known
      · rw [others_halt h]
        exact attended_ended _ hc.attended

theorem receiverAction_handling (msgID : Nat) (pBlocks : ProtocolBlocks) (repetitiveMsg : Bool) :
    (receiverAction cfg msgID pBlocks serverResponse repetitiveMsg).Keeps ((others cfg).perform t)
      (Handling serverResponse) := by
  have rules := handling_rules cfg t serverResponse
  apply receiverAction_obeys rules mild_of_calm (receiverParts_handling cfg t serverResponse)
  · exact fun _ _ _ _ _ => ⟨trivial, by rintro m ⟨⟩⟩
  · exact ⟨by rintro m ⟨⟩, fun _ _ _ _ => trivial⟩
  · exact fun _ _ _ => trivial
  · trivial
  · exact fun _ => handleConfirmUDP_mild rules msgID

theorem handleDatagram_attended (udp : cfg.protocol = .protUDP) :
    Program.Leads ((others cfg).perform t) Attended (Arrived serverResponse)
      (handleDatagram cfg serverResponse) fun _ => Attended := by
  have rules := arrived_rules cfg t serverResponse
  unfold handleDatagram
  simp only [udp]
  split
  · exact Program.leads_mono (Program.leads_of_keeps
      (errHandling_mild rules (fun _ h _ => h) _)) (fun _ hc => hc)
      (fun _ _ hc => hc.attended) fun _ hc => hc.attended
  · rename_i d decoded
    unfold dispatch
    refine Program.leads_bind (Program.leads_mono (Program.leads_of_keeps
      (take_only rules trivial)) (fun _ hc => hc) (fun _ _ hc => hc) fun _ hc => hc.attended)
      fun state => ?_
    split
    · exact Program.leads_ret fun _ hc => hc.attended
    · simp only [receiverFSM, udp]
      refine Program.leads_bind (repetitive_handling d.pBlocks) fun repetitiveMsg => ?_
      exact Program.leads_mono (Program.leads_of_keeps
        (receiverAction_handling d.msgId d.pBlocks repetitiveMsg)) (fun _ hc => hc)
        (fun _ _ hc => hc.attended) fun _ hc => hc.attended

/-- The bytes of a datagram that was received. -/
theorem known_receive {buffer : Buffer} {datagram : List UInt8} {history : List Event}
    (long : 3 ≤ datagram.length) :
    Known ((Client.receive buffer datagram).mem 1) ((Client.receive buffer datagram).mem 2)
      (.received datagram :: history) := by
  obtain ⟨zeroth, low, high, rest, rfl⟩ : ∃ zeroth low high rest,
      datagram = zeroth :: low :: high :: rest := by
    rcases datagram with _ | ⟨zeroth, _ | ⟨low, _ | ⟨high, rest⟩⟩⟩
    · simp at long
    · simp at long
    · simp at long
    · exact ⟨zeroth, low, high, rest, rfl⟩
  refine ⟨_, List.mem_cons_self, ?_, ?_⟩
  all_goals
    simp only [Client.receive, Buffer.mem, Memory.write, Option.getD_some]
    rw [if_pos (by simp only [List.length_cons]; omega)]
    rfl

theorem protocolReceiver_attended (udp : cfg.protocol = .protUDP) (datagram : List UInt8) :
    (protocolReceiver cfg datagram).Keeps ((others cfg).perform t) Attended := by
  have rules := attended_rules cfg t
  unfold protocolReceiver
  refine take_bind rules trivial fun state _ => ?_
  split
  · exact rules.ret _
  · split
    · exact rules.ret _
    · apply Program.keeps_of_leads
      refine leads_take Arrived ?_ fun serverResponse => ?_
      · intro c hc
        refine ⟨fun serverResponse c' h => ?_, fun c' h => ?_, fun _ => hc⟩
        · obtain ⟨-, -, -, -, act⟩ := others_ok h
          have kept := attended_act hc (a := .recvfrom datagram) trivial act
          simp only [Client.act, Effect.ok.injEq] at act
          obtain ⟨rfl, rfl⟩ := act
          exact ⟨kept, rfl, fun long => known_receive long⟩
        · rw [others_halt h]
          exact attended_ended _ hc
      · refine Program.leads_bind (handleDatagram_attended udp) fun _ => ?_
        exact Program.leads_ret fun _ hc => hc

/-- **Main and the receiver leave the CONFIRMs as they are.** -/
theorem others_attended (udp : cfg.protocol = .protUDP) {p : Point} {q : Prog Point}
    (h : Starts cfg t p q) (other : t ≠ .sender) :
    q.Keeps ((others cfg).perform t) Attended := by
  cases h with
  | userCommandHandling eofDetected stdin =>
    have rules := attended_rules cfg .main
    have bye : (sendBye cfg).Keeps ((others cfg).perform .main) Attended :=
      sendBye_mild rules fun _ h _ => h
    apply userCommandHandling_obeys rules mild_of_calm bye (fun _ _ h => h)
      (fun _ => ⟨trivial, trivial⟩) fun _ _ => trivial
    exact fun pBlocks flags _ _ sendable _ => assembleCommand_mild rules pBlocks flags sendable
  | protocolReceiver datagram _ => exact protocolReceiver_attended udp datagram
  | _ => exact absurd rfl other

end

end Outgoing

end Ipk24Chat
