import Ipk24Chat.ReplyGate
import Ipk24Chat.Transitions

/-!
# The request a REPLY answers

The sender takes up an AUTH or a JOIN when it finds it at the head of its queue and moves the
state for it. A REPLY answers it by moving the state on. Between the two the request is
outstanding, and only then does a REPLY move anything. Which request it is the client does not
compare with the ID in the REPLY.

* `outstanding`: the request, read off the record of a run;
* `sender_looks`: what the sender takes up it has found at the head of its queue;
* `requested_of_logged`: in every interleaving, who waits for a REPLY has asked for one;
* `reply_gate`: what a REPLY needs in order to move anything.
-/

namespace Ipk24Chat

/-- What the sender asks the server for. -/
inductive Request where
  | auth
  | join
  deriving DecidableEq, Repr

def Request.type : Request → MsgType
  | .auth => .msgAuth
  | .join => .msgJoin

/-- The actions by which the sender looks for requests and takes them up. It knows an AUTH by
its flags. -/
def requests : Traffic Act.Answer Request where
  reads
    | .queueGetMessageFlags, flags => if flags = .msgFlagAuth then some .auth else none
    | .queueGetMessageMsgType, type => if type = .msgJoin then some .join else none
    | _, _ => none
  writes
    | .setProgramState .fsmAuthSended => some .auth
    | .setProgramState .fsmJoinAtempt => some .join
    | _ => none

/-- The request that the sender finds at the head of its queue. -/
def Taken.finds (e : Taken Thread Client Act) (request : Request) : Option Message :=
  match request, e.thread, e.act with
  | .auth, .sender, .queueGetMessageFlags | .join, .sender, .queueGetMessageMsgType =>
    e.before.sendingQueue.head?.filter (·.type = request.type.toUChar)
  | _, _, _ => none

/-- The one it found last. -/
def found (request : Request) (log : List (Taken Thread Client Act)) : Option Message :=
  log.findSome? (·.finds request)

/-- The request that the sender takes up. -/
def Taken.takesUp (e : Taken Thread Client Act) : Option Request :=
  match e.thread with
  | .sender => requests.writes e.act
  | _ => none

/-- The states to which a REPLY leads. -/
def Fsm.replied : Fsm → Bool
  | .fsmW84ReplyConf | .fsmOpen | .fsmStart => true
  | _ => false

/-- The receiver moves the state because of a REPLY. -/
def Taken.answers (e : Taken Thread Client Act) : Bool :=
  match e.thread, e.act with
  | .receiver, .setProgramState newState => newState.replied
  | _, _ => false

/-- The AUTH or JOIN that the sender has taken up and that no REPLY has answered since. -/
def outstanding : List (Taken Thread Client Act) → Option Message
  | [] => none
  | e :: log =>
    match e.takesUp with
    | some request => found request log
    | none => if e.answers then none else outstanding log

section
variable {e : Taken Thread Client Act} {log : List (Taken Thread Client Act)} {m : Message}
  {request : Request}

theorem type_of_found (h : found request log = some m) : m.type = request.type.toUChar := by
  obtain ⟨e, -, finds⟩ := List.exists_of_findSome?_eq_some h
  unfold Taken.finds at finds
  split at finds
  · exact of_decide_eq_true (Option.filter_eq_some_iff.mp finds).2
  · exact of_decide_eq_true (Option.filter_eq_some_iff.mp finds).2
  · cases finds

/-- What is outstanding is an AUTH or a JOIN. -/
theorem type_of_outstanding (h : outstanding log = some m) :
    m.type = MsgType.msgAuth.toUChar ∨ m.type = MsgType.msgJoin.toUChar := by
  induction log with
  | nil => cases h
  | cons e log ih =>
    unfold outstanding at h
    split at h
    · rename_i request _
      cases request with
      | auth => exact Or.inl (type_of_found h)
      | join => exact Or.inr (type_of_found h)
    · split at h
      · cases h
      · exact ih h

theorem found_cons (h : (found request log).isSome) : (found request (e :: log)).isSome := by
  unfold found at h ⊢
  rw [List.findSome?_cons]
  split
  · rfl
  · exact h

theorem found_of_finds (h : (e.finds request).isSome) : (found request (e :: log)).isSome := by
  obtain ⟨m, finds⟩ := Option.isSome_iff_exists.mp h
  unfold found
  rw [List.findSome?_cons, finds]
  rfl

theorem outstanding_takesUp (h : e.takesUp = some request) :
    outstanding (e :: log) = found request log := by
  rw [outstanding, h]

/-- Only an answer ends it. -/
theorem outstanding_cons (known : ∀ request, e.takesUp = some request → (found request log).isSome)
    (open' : e.answers = false) (h : (outstanding log).isSome) :
    (outstanding (e :: log)).isSome := by
  cases taken : e.takesUp with
  | some request =>
    rw [outstanding_takesUp taken]
    exact known request taken
  | none =>
    simp only [outstanding, taken, open']
    exact h

end

/-! ## What has the flags of an AUTH -/

namespace Outstanding

/-- Only an AUTH gets the flags of an AUTH. -/
def Admitted : Act → Prop
  | .queueAddMessage _ msgFlags type | .queueAddMessagePriority _ msgFlags type =>
    msgFlags = .msgFlagAuth → type = MsgType.msgAuth.toUChar
  | .queueSetMessageFlags newFlag => newFlag ≠ .msgFlagAuth
  | _ => True

theorem admitted_of_usual (a : Act) (h : a.Usual) : Admitted a := by
  cases a <;> first | trivial | exact h.elim | skip
  case queueSetMessageFlags newFlag => rcases h with rfl | rfl <;> exact nofun

theorem admitted_of_making {cfg : NetworkConfig} (a : Act) (h : a.Making cfg) : Admitted a := by
  cases a <;> first | trivial | exact h.elim | skip
  case queueAddMessage buffer msgFlags type => exact fun auth => absurd auth h.1
  case queueAddMessagePriority buffer msgFlags type => exact fun auth => absurd auth h.1

theorem starts_admitted {cfg : NetworkConfig} {t : Thread} {p : Point} {q : Prog Point}
    (h : Starts cfg t p q) : q.Obeys Admitted Act.Truthful := by
  have rules : Program.Compositional Admitted Act.Truthful
      fun {α} (q : Prog α) => q.Obeys Admitted Act.Truthful := Program.compositional_obeys
  have calm : ∀ a : Act, a.Calm → Admitted a := calm_of_usual admitted_of_usual
  by_cases main : t = .main
  · subst main
    have making (a : Act) (h : a.Making cfg) : Admitted a := admitted_of_making a h
    have bye := sendBye_obeys rules calm making
    cases h with
    | userCommandHandling eofDetected stdin =>
      apply userCommandHandling_obeys rules calm bye (fun _ _ => id)
        (fun _ => ⟨trivial, trivial⟩) (fun _ _ => trivial)
      intro pBlocks flags _ _ _ plain
      apply assembleCommand_obeys rules calm bye (fun _ _ => id) _ _ trivial
      rintro type sent rfl
      obtain none | ⟨-, command⟩ := plain
      · cases none
      · rw [command] at sent
        cases sent
        rfl
  · have wiring (a : Act) (h : a.Wiring) : Admitted a := by
      cases a <;> trivial
    exact starts_obeys rules calm trivial admitted_of_making wiring (fun _ => trivial)
      (fun _ => trivial) (fun _ _ _ => trivial) (fun _ _ => id)
      (fun _ _ _ _ _ => ⟨trivial, trivial⟩) ⟨trivial, fun _ _ _ _ => trivial⟩ h main

end Outstanding

/-- The messages with the flags of an AUTH are AUTHs. -/
def Flagged (queue : MessageQueue) : Prop :=
  ∀ m ∈ queue, m.msgFlags = .msgFlagAuth → m.type = MsgType.msgAuth.toUChar

theorem flagged_act {t : Thread} {c c' : Client} {a : Act} {r : a.Answer}
    (h : c.act t a = .ok r c') (admitted : Outstanding.Admitted a)
    (flagged : Flagged c.sendingQueue) : Flagged c'.sendingQueue := by
  rw [Client.act_queue h]
  intro m mem auth
  obtain ⟨m', mem', stays⟩ | ⟨buffer, flags, type, rfl | rfl, rfl⟩ := Client.mem_queueAfter mem
  · rw [← stays.type]
    obtain same | rfl := stays.msgFlags
    · exact flagged m' mem' (same.trans auth)
    · exact absurd auth admitted
  · exact admitted auth
  · exact admitted auth

theorem flagged_of_reachable {cfg : NetworkConfig} {heap : Nat → Memory} {ipAddress : Buffer}
    {s : Threads Thread Client Act.Answer Point} (reached : Reachable cfg heap ipAddress s) :
    Flagged s.shared.sendingQueue := by
  have kept := Machine.invariant_of_obeys (fun c : Client => Flagged c.sendingQueue)
    (fun _ => False) Outstanding.Admitted Act.Truthful
    (fun t a c flagged admitted =>
      ⟨fun r c' ok => Or.inr ⟨flagged_act (Client.perform_ok ok).2 admitted flagged,
        Client.act_truthful (Client.perform_ok ok).2⟩,
      fun c' halt => Or.inr (by rw [Client.act_halt (Client.perform_halt halt).2]; exact flagged)⟩)
    (fun _ _ _ => False.elim) (fun t p q start => Outstanding.starts_admitted start) reached
    nofun (fun t q idle => by cases idle; trivial)
  exact (kept.resolve_left id).1

/-! ## What the sender takes up -/

section
variable {cfg : NetworkConfig} {α : Type}

/-- The program takes up nothing that it has not found since it last did. -/
def Looks (p : Prog α) : Prop :=
  requests.Infers Act.Truthful Eq (fun _ => True) p fun _ => True

/-- A program that takes up nothing at all. -/
theorem looks_rules :
    Program.Compositional (fun a => requests.writes a = none) Act.Truthful
      fun {α} (p : Prog α) => Looks p :=
  Traffic.compositional_infers fun _ => trivial

theorem sendBye_looks : Looks (sendBye cfg) := by
  unfold sendBye
  iterate 3
    apply take_bind looks_rules rfl
    intro _ _
  exact take_only looks_rules rfl

theorem errHandling_looks (f : Failure) : Looks (errHandling cfg f : Prog α) := by
  have destroyed (e : ErrorCode) :
      Looks (safePrint ("ERR: " ++ f.msg ++ "\n") >>= fun _ => exit e : Prog α) := by
    apply take_bind looks_rules rfl
    intro _ _
    exact looks_rules.act rfl fun none => none.elim
  have waits : Looks (do
      setProgramState .fsmErr
      safePrint ("ERR: " ++ f.msg ++ "\n")
      pthreadCondSignal .mainCond
      queueLock
      queuePopAllMessages
      queueUnlock
      sendBye cfg
      park : Prog α) := by
    iterate 6
      apply take_bind looks_rules rfl
      intro _ _
    apply looks_rules.bind sendBye_looks
    intro _
    exact looks_rules.act rfl fun none => none.elim
  unfold errHandling
  split
  · exact waits
  · exact waits
  · exact destroyed _

theorem sendError_looks (buffer : Scratch) (text : String) :
    Looks (sendError cfg buffer text) := by
  unfold sendError
  iterate 2
    apply take_bind looks_rules rfl
    intro _ _
  apply take_bind looks_rules rfl
  intro result _
  cases result with
  | error f => exact errHandling_looks f
  | ok r =>
    apply take_bind looks_rules rfl
    intro _ _
    split
    · apply take_bind looks_rules rfl
      intro _ _
      exact take_only looks_rules rfl
    · exact errHandling_looks _

theorem requestTimedOut_looks : Looks (requestTimedOut cfg) := by
  unfold requestTimedOut
  iterate 4
    apply take_bind looks_rules rfl
    intro _ _
  apply looks_rules.bind (sendError_looks _ _)
  intro _
  apply looks_rules.bind sendBye_looks
  intro _
  apply take_bind looks_rules rfl
  intro _ _
  exact take_only looks_rules rfl

theorem filterLoop_looks (fuel : Nat) (msgToBeSend : MsgPtr) (resetLoop : Bool) :
    Looks (filterLoop cfg fuel msgToBeSend resetLoop) := by
  induction fuel generalizing msgToBeSend resetLoop with
  | zero => exact looks_rules.act rfl fun none => none.elim
  | succ fuel ih =>
    have next (resetLoop : Bool) : Looks (do
        queuePopMessage
        let msgToBeSend ← queueGetMessage
        filterLoop cfg fuel msgToBeSend resetLoop : Prog Bool) := by
      apply take_bind looks_rules rfl
      intro _ _
      apply take_bind looks_rules rfl
      intro p _
      exact ih p resetLoop
    cases msgToBeSend with
    | none => exact looks_rules.ret _
    | some uid =>
      unfold filterLoop
      apply take_bind looks_rules rfl
      intro sended _
      split
      · apply take_bind looks_rules rfl
        intro first _
        split
        · exact next resetLoop
        · apply take_bind looks_rules rfl
          intro second _
          split
          · iterate 2
              apply take_bind looks_rules rfl
              intro _ _
            exact next true
          · apply looks_rules.bind requestTimedOut_looks
            intro _
            exact looks_rules.ret _
      · apply take_bind looks_rules rfl
        intro m _
        split
        · exact next resetLoop
        · split
          · exact looks_rules.ret _
          · split
            · exact looks_rules.ret _
            · exact next resetLoop

theorem sendHead_looks (bytesTx : Int) : Looks (sendHead cfg bytesTx) := by
  have labelled : Looks (labelMessage cfg) := by
    unfold labelMessage
    split <;> exact take_only looks_rules rfl
  have sended (p : MsgPtr) (flags : MsgFlags) : Looks (messageWasSended cfg p flags) := by
    unfold messageWasSended
    split
    · split <;> exact take_only looks_rules rfl
    · apply take_bind looks_rules rfl
      intro m _
      split
      · apply take_bind looks_rules rfl
        intro _ _
        exact take_only looks_rules rfl
      · exact take_only looks_rules rfl
  unfold sendHead
  apply take_bind looks_rules rfl
  intro p _
  apply looks_rules.bind labelled
  intro _
  apply take_bind looks_rules rfl
  intro _ _
  apply take_bind looks_rules rfl
  intro flags _
  split
  · exact errHandling_looks _
  · apply looks_rules.bind (sended _ _)
    intro _
    apply take_bind looks_rules rfl
    intro _ _
    exact looks_rules.ret _

theorem logicErr_looks (flags : MsgFlags) : Looks (logicErr cfg flags) := by
  unfold logicErr
  split
  · split
    · apply take_bind looks_rules rfl
      intro _ _
      exact looks_rules.ret _
    · iterate 2
        apply take_bind looks_rules rfl
        intro _ _
      exact looks_rules.ret _
  · split
    · apply take_bind looks_rules rfl
      intro _ _
      exact looks_rules.ret _
    · exact looks_rules.ret _
  · exact looks_rules.ret _
  · exact errHandling_looks _

/-- An AUTH is taken up if the flags that were read are its flags. -/
theorem authIsSended_looks (flags : MsgFlags) :
    requests.Infers Act.Truthful Eq (fun seen => flags = .msgFlagAuth → .auth ∈ seen)
      (authIsSended flags) fun _ => True := by
  unfold authIsSended
  split
  · rename_i auth
    apply Traffic.infers_act rfl
    intro state _
    change requests.Infers Act.Truthful Eq _ (if _ then _ else _ : Prog Unit) _
    split
    · apply Traffic.infers_write rfl
      · rintro _ ⟨seen, known, rfl⟩
        exact ⟨_, known auth, rfl⟩
      · intro _ _ _
        trivial
    · intro _ _
      trivial
  · intro _ _
    trivial

theorem logicBeforeAuth_looks (msgToBeSend : MsgPtr) (msgType : MsgType) (flags : MsgFlags) :
    requests.Infers Act.Truthful Eq (fun seen => flags = .msgFlagAuth → .auth ∈ seen)
      (logicBeforeAuth msgToBeSend msgType flags) fun _ => True := by
  have waits (result : LogicResult) : Looks (queueUnlock >>= fun _ => pure result) := by
    apply take_bind looks_rules rfl
    intro _ _
    exact looks_rules.ret _
  unfold logicBeforeAuth
  apply Traffic.infers_bind (authIsSended_looks flags)
  intro _
  split
  · exact waits _
  · split
    · apply take_bind looks_rules rfl
      intro m _
      split
      · exact waits _
      · exact looks_rules.ret _
    · exact looks_rules.ret _

/-- A JOIN is taken up if the type that was read is its type. -/
theorem logicOpen_looks (msgType : MsgType) :
    requests.Infers Act.Truthful Eq (fun seen => msgType = .msgJoin → .join ∈ seen)
      (logicOpen msgType) fun _ => True := by
  unfold logicOpen
  split
  · have discarded : Looks (do
        safePrint "ERR: You are already autheticated, this message will be ignored."
        note .authDiscarded
        queuePopMessage
        pure .proceed : Prog LogicResult) := by
      iterate 3
        apply take_bind looks_rules rfl
        intro _ _
      exact looks_rules.ret _
    exact Traffic.infers_mono discarded (fun _ _ => trivial) fun _ => id
  · apply Traffic.infers_write rfl
    · intro seen known
      exact ⟨_, known rfl, rfl⟩
    · intro _ _ _
      trivial
  · intro _ _
    trivial

/-- The type and the flags are read one behind the other, before the state. -/
theorem logicFSM_looks : Looks (logicFSM cfg) := by
  unfold logicFSM
  apply take_bind looks_rules rfl
  intro msgToBeSend _
  apply Traffic.infers_act rfl
  intro msgType _
  apply Traffic.infers_act rfl
  intro flags _
  apply Traffic.infers_act rfl
  intro state _
  have quiet {p : Prog LogicResult} (h : Looks p) {K : List Request → Prop} :
      requests.Infers Act.Truthful Eq K p fun _ => True :=
    Traffic.infers_mono h (fun _ _ => trivial) fun _ => id
  have auth {K : List Request → Prop}
      (known : ∀ seen, K seen → flags = .msgFlagAuth → .auth ∈ seen) :
      requests.Infers Act.Truthful Eq K (logicBeforeAuth msgToBeSend msgType flags) fun _ => True :=
    Traffic.infers_mono (logicBeforeAuth_looks _ _ _) known fun _ => id
  cases state with
  | fsmStart | fsmAuthW82BeSended | fsmAuthSended | fsmW84Reply =>
    apply auth
    rintro _ ⟨_, ⟨seen, -, rfl⟩, rfl⟩ isAuth
    simp [requests, isAuth]
  | fsmW84ReplyConf =>
    apply quiet
    unfold logicReplyConf
    split
    · iterate 2
        apply take_bind looks_rules rfl
        intro _ _
      exact looks_rules.ret _
    · exact looks_rules.ret _
  | fsmOpen =>
    apply Traffic.infers_mono (logicOpen_looks msgType) _ fun _ => id
    rintro _ ⟨_, ⟨_, ⟨seen, -, rfl⟩, rfl⟩, rfl⟩ isJoin
    simp [requests, isJoin]
  | fsmErr | fsmErrW84Conf => exact quiet (logicErr_looks flags)
  | _ => exact quiet (looks_rules.ret _)

theorem logicAndSend_looks (bytesTx : Int) : Looks (logicAndSend cfg bytesTx) := by
  unfold logicAndSend
  apply looks_rules.bind logicFSM_looks
  intro result
  cases result with
  | proceed => exact sendHead_looks bytesTx
  | waitSend | waitAgain => exact looks_rules.ret _

theorem senderBody_looks (bytesTx : Int) : Looks (senderBody cfg bytesTx) := by
  have ends : Looks endsWhenEmpty := by
    unfold endsWhenEmpty
    apply take_bind looks_rules rfl
    intro state _
    split
    · exact looks_rules.ret _
    · apply take_bind looks_rules rfl
      intro _ _
      exact looks_rules.ret _
  unfold senderBody
  apply take_bind looks_rules rfl
  intro empty _
  split
  · apply looks_rules.bind ends
    intro stop
    split
    · iterate 3
        apply take_bind looks_rules rfl
        intro _ _
      exact looks_rules.ret _
    · apply take_bind looks_rules rfl
      intro _ _
      exact looks_rules.ret _
  · iterate 3
      apply take_bind looks_rules rfl
      intro _ _
    exact logicAndSend_looks bytesTx

/-- **What the sender takes up it has found** at the head of its queue, in the same pass. -/
theorem sender_looks {p : Point} {q : Prog Point} (h : Starts cfg .sender p q) : Looks q := by
  cases h with
  | protocolSender fuel bytesTx =>
    unfold protocolSender
    apply take_bind looks_rules rfl
    intro state _
    split
    · exact looks_rules.ret _
    · split
      · apply take_bind looks_rules rfl
        intro _ _
        have filtered : Looks (filterResentMessages cfg fuel) := by
          unfold filterResentMessages
          apply take_bind looks_rules rfl
          intro p _
          exact filterLoop_looks fuel p false
        apply looks_rules.bind filtered
        intro resetLoop
        split
        · exact looks_rules.ret _
        · exact senderBody_looks bytesTx
      · exact senderBody_looks bytesTx
  | logicWaitSend bytesTx =>
    unfold resumeSend
    iterate 2
      apply take_bind looks_rules rfl
      intro _ _
    exact sendHead_looks bytesTx
  | logicWaitAgain bytesTx =>
    unfold resumeLogic
    iterate 2
      apply take_bind looks_rules rfl
      intro _ _
    exact logicAndSend_looks bytesTx

end

/-! ## Runs -/

/-- The states in which a request is with the server. -/
def Fsm.asked : Fsm → Bool
  | .fsmAuthSended | .fsmW84Reply | .fsmJoinAtempt => true
  | _ => false

section
variable {cfg : NetworkConfig}

/-- Who comes to such a state: the sender with a request, or the receiver from one. -/
theorem takes_asked {t : Thread} {x y : Fsm} (takes : Takes cfg t x y) (asked : y.asked = true) :
    t = .sender ∧ (requests.writes (.setProgramState y)).isSome ∨
      t = .receiver ∧ x.asked = true ∧ y.replied = false := by
  cases takes with
  | authSended | join => exact Or.inl ⟨rfl, rfl⟩
  | authConfirmed => exact Or.inr ⟨rfl, rfl, rfl⟩
  | _ => cases asked

/-- The receiver comes to where a REPLY leads only from such a state. -/
theorem takes_replied {x y : Fsm} (takes : Takes cfg .receiver x y) (replied : y.replied = true) :
    x.asked = true := by
  cases takes with
  | replied _ waits => rcases waits with rfl | rfl <;> rfl
  | refused waits =>
    rcases waits with rfl | rfl
    · unfold NetworkConfig.acceptState
      split <;> rfl
    · rfl
  | joinReplied | repliedTCP => rfl
  | _ => cases replied

theorem asked_of_awaitsReply {state : Fsm} (waits : state.awaitsReply = true) :
    state.asked = true := by
  cases state <;> first | rfl | cases waits

/-- What is known of the threads and of the record behind a run. -/
structure Requested (cfg : NetworkConfig) (log : List (Taken Thread Client Act))
    (s : Threads Thread Client Act.Answer Point) : Prop where
  waits : s.shared.fsmState.asked = true → (outstanding log).isSome
  follows : ∀ t q, s.code t = some q → ∃ seen,
    (t = .receiver → ∀ x ∈ seen, x.asked = true → (outstanding log).isSome) ∧
      fsmVariable.Minds Act.Truthful (Takes cfg t) (fun _ _ => True) seen q
  looks : ∀ t q, s.code t = some q → t = .sender → ∃ seen,
    (∀ request ∈ seen, (found request log).isSome) ∧
      requests.Minds Act.Truthful Eq (fun _ _ => True) seen q

variable {log : List (Taken Thread Client Act)} {s : Threads Thread Client Act.Answer Point}
  {t : Thread} {a : Act} {next : a.Answer → Prog Point} {r : a.Answer} {c' : Client}

theorem found_of_takesUp (h : Requested cfg log s) (code : s.code t = some (.act a next))
    {request : Request}
    (taken : (⟨t, a, s.shared⟩ : Taken Thread Client Act).takesUp = some request) :
    (found request log).isSome := by
  unfold Taken.takesUp at taken
  split at taken
  · rename_i sender
    subst sender
    obtain ⟨seen, known, minds⟩ := h.looks _ _ code rfl
    obtain ⟨_, hx, rfl⟩ := minds.1 request taken
    exact known _ hx
  · cases taken

/-- An action that writes no state does not answer. -/
theorem answers_quiet (quiet : fsmVariable.writes a = none) :
    (⟨t, a, s.shared⟩ : Taken Thread Client Act).answers = false := by
  cases a <;> cases t <;> first | rfl | cases quiet

theorem waits_of_act (h : Requested cfg log s) (code : s.code t = some (.act a next))
    (effect : Client.perform t a s.shared = .ok r c') (asked : c'.fsmState.asked = true) :
    (outstanding (⟨t, a, s.shared⟩ :: log)).isSome := by
  have known (request : Request)
      (taken : (⟨t, a, s.shared⟩ : Taken Thread Client Act).takesUp = some request) :
      (found request log).isSome := found_of_takesUp h code taken
  have written : c'.fsmState = (fsmVariable.writes a).getD s.shared.fsmState :=
    (fsm_honest t).written effect
  cases writes : fsmVariable.writes a with
  | none =>
    rw [writes, Option.getD_none] at written
    exact outstanding_cons known (answers_quiet writes) (h.waits (written ▸ asked))
  | some y =>
    rw [writes, Option.getD_some] at written
    obtain ⟨seen, waited, minds⟩ := h.follows t _ code
    obtain ⟨x, hx, takes⟩ := minds.1 y writes
    obtain rfl : a = .setProgramState y := by
      cases a <;> cases writes
      rfl
    obtain ⟨rfl, taken⟩ | ⟨rfl, before, open'⟩ := takes_asked takes (written ▸ asked)
    · obtain ⟨request, writes⟩ := Option.isSome_iff_exists.mp taken
      have taken : Taken.takesUp ⟨.sender, .setProgramState y, s.shared⟩ = some request := writes
      rw [outstanding_takesUp taken]
      exact known request taken
    · exact outstanding_cons known open' (waited rfl x hx before)

/-- What the receiver has read stays known: the others do not answer. -/
theorem follows_of_act (h : Requested cfg log s) (code : s.code t = some (.act a next))
    (effect : Client.perform t a s.shared = .ok r c') (u : Thread) (q : Prog Point)
    (left : Function.update s.code t (some (next r)) u = some q) : ∃ seen,
    (u = .receiver → ∀ x ∈ seen, x.asked = true →
      (outstanding (⟨t, a, s.shared⟩ :: log)).isSome) ∧
      fsmVariable.Minds Act.Truthful (Takes cfg u) (fun _ _ => True) seen q := by
  have known (request : Request)
      (taken : (⟨t, a, s.shared⟩ : Taken Thread Client Act).takesUp = some request) :
      (found request log).isSome := found_of_takesUp h code taken
  have waits : c'.fsmState.asked = true → (outstanding (⟨t, a, s.shared⟩ :: log)).isSome :=
    waits_of_act h code effect
  revert u q
  apply Machine.code_of_update
  · rintro q ⟨⟩
    obtain ⟨seen, waited, minds⟩ := h.follows t _ code
    refine ⟨fsmVariable.seenAfter seen a r, ?_, minds.2 r ((fsm_honest t).answered effect)⟩
    rintro rfl x hx asked
    have written : c'.fsmState = (fsmVariable.writes a).getD s.shared.fsmState :=
      (fsm_honest _).written effect
    cases writes : fsmVariable.writes a with
    | some y =>
      rw [writes, Option.getD_some] at written
      simp only [Traffic.seenAfter, writes, List.mem_singleton] at hx
      exact waits (written ▸ hx ▸ asked)
    | none =>
      rw [writes, Option.getD_none] at written
      simp only [Traffic.seenAfter, writes, List.mem_append, Option.mem_toList] at hx
      rcases hx with new | old
      · have current : x = s.shared.fsmState := (fsm_honest _).read effect x new
        exact waits (written ▸ current ▸ asked)
      · exact outstanding_cons known (answers_quiet writes) (waited rfl x old asked)
  · intro u q other code
    obtain ⟨seen, waited, minds⟩ := h.follows u q code
    refine ⟨seen, ?_, minds⟩
    rintro rfl x hx asked
    have open' : (⟨t, a, s.shared⟩ : Taken Thread Client Act).answers = false := by
      cases t with
      | receiver => exact absurd rfl other
      | main | sender => rfl
    exact outstanding_cons known open' (waited rfl x hx asked)

/-- An answer to the sender that shows a request is recorded with the request. -/
theorem finds_of_reads {request : Request} (flagged : Flagged s.shared.sendingQueue)
    (effect : Client.perform .sender a s.shared = .ok r c')
    (reads : requests.reads a r = some request) :
    ((⟨.sender, a, s.shared⟩ : Taken Thread Client Act).finds request).isSome := by
  have act := (Client.perform_ok effect).2
  cases a <;> simp only [requests, reduceCtorEq] at reads
  case queueGetMessageMsgType =>
    split at reads
    · rename_i join
      cases reads
      obtain ⟨rfl, -⟩ := Effect.ok.inj act
      cases queue : s.shared.sendingQueue with
      | nil =>
        rw [queue] at join
        cases join
      | cons m rest =>
        rw [queue] at join
        have type : m.type = MsgType.msgJoin.toUChar :=
          (uchar2msgType_eq_iff (by decide) (by decide)).mp join
        simp [Taken.finds, queue, Request.type, type]
    · cases reads
  case queueGetMessageFlags =>
    split at reads
    · rename_i auth
      cases reads
      simp only [Client.act] at act
      split at act
      · cases act
      · rename_i m rest queue
        obtain ⟨rfl, -⟩ := Effect.ok.inj act
        have type : m.type = MsgType.msgAuth.toUChar :=
          flagged m (queue ▸ List.mem_cons_self) auth
        simp [Taken.finds, queue, Request.type, type]
    · cases reads

theorem looks_of_act (h : Requested cfg log s) (flagged : Flagged s.shared.sendingQueue)
    (code : s.code t = some (.act a next))
    (effect : Client.perform t a s.shared = .ok r c') (u : Thread) (q : Prog Point)
    (left : Function.update s.code t (some (next r)) u = some q) : u = .sender → ∃ seen,
    (∀ request ∈ seen, (found request (⟨t, a, s.shared⟩ :: log)).isSome) ∧
      requests.Minds Act.Truthful Eq (fun _ _ => True) seen q := by
  revert u q
  apply Machine.code_of_update
  · rintro q ⟨⟩ rfl
    obtain ⟨seen, known, minds⟩ := h.looks _ _ code rfl
    refine ⟨requests.seenAfter seen a r, ?_, minds.2 r ((fsm_honest _).answered effect)⟩
    intro request hx
    cases writes : requests.writes a with
    | some y =>
      simp only [Traffic.seenAfter, writes, List.mem_singleton] at hx
      obtain ⟨_, seen', rfl⟩ := minds.1 y writes
      exact found_cons (hx ▸ known _ seen')
    | none =>
      simp only [Traffic.seenAfter, writes, List.mem_append, Option.mem_toList] at hx
      rcases hx with new | old
      · exact found_of_finds (finds_of_reads flagged effect new)
      · exact found_cons (known request old)
  · intro u q _ code sender
    obtain ⟨seen, known, minds⟩ := h.looks u q code sender
    exact ⟨seen, fun request hx => found_cons (known request hx), minds⟩

/-- **Who waits for a REPLY has asked for one**, in every interleaving. -/
theorem requested_of_logged {heap : Nat → Memory} {ipAddress : Buffer}
    (run : (machine cfg).Logged (initialThreads (programInterfaceInit heap ipAddress)) log s) :
    Requested cfg log s := by
  induction run with
  | refl =>
    constructor
    case waits => exact nofun
    case follows =>
      intro t q code
      obtain rfl : .ret (initialPoint t) = q := Option.some.inj code
      exact ⟨[], fun _ => List.forall_mem_nil _, trivial⟩
    case looks =>
      intro t q code _
      obtain rfl : .ret (initialPoint t) = q := Option.some.inj code
      exact ⟨[], List.forall_mem_nil _, trivial⟩
  | act before code effect ih =>
    have flagged := flagged_of_reachable (Machine.reachable_of_logged before)
    exact ⟨waits_of_act ih code effect, follows_of_act ih code effect,
      looks_of_act ih flagged code effect⟩
  | @halt log s t a next c' _ code effect ih =>
    have state : c'.fsmState = s.shared.fsmState := (fsm_honest _).halted effect
    constructor
    case waits =>
      intro asked
      exact ih.waits (state ▸ asked)
    case follows => exact Machine.code_of_update (by rintro q ⟨⟩) fun u q _ => ih.follows u q
    case looks => exact Machine.code_of_update (by rintro q ⟨⟩) fun u q _ => ih.looks u q
  | @start log s t p q _ code admitted ih =>
    constructor
    case waits => exact ih.waits
    case follows =>
      apply Machine.code_of_update _ fun u q _ => ih.follows u q
      rintro q ⟨⟩
      refine ⟨[s.shared.fsmState], ?_, ?_⟩
      · intro _
        exact List.forall_mem_singleton.mpr ih.waits
      · exact Traffic.minds_mono (fun _ _ _ => trivial)
          (Diagram.starts_follow admitted _ (List.cons_ne_nil _ _))
    case looks =>
      apply Machine.code_of_update _ fun u q _ => ih.looks u q
      rintro q ⟨⟩ rfl
      exact ⟨[], List.forall_mem_nil _, sender_looks admitted [] trivial⟩

end

/-! ## Which request it refers to -/

/-- The ID with which the last AUTH or JOIN was transmitted. -/
def requestID (history : List Event) : Option Nat :=
  history.findSome? fun
    | .transmitted m =>
      if m.type = MsgType.msgAuth.toUChar ∨ m.type = MsgType.msgJoin.toUChar then some m.msgID
      else none
    | _ => none

/-- The ID a REPLY refers to. -/
def Disassembled.refMsgID (d : Disassembled) : Option Nat :=
  d.pBlocks.msgReplyRefMsgID.start.map fun p => convert2BytesToU16Int (p.get 0) (p.get 1)

/-- A REPLY moves a client that sent a request, and refers to another one. -/
def movedByOther (cfg : NetworkConfig) (c : Client) (datagram : List UInt8) : Bool :=
  match disassebleProtocolUDP (c.receiving datagram).serverResponse with
  | .error _ => false
  | .ok d =>
    decide (uchar2msgType d.pBlocks.type = .msgReply ∧
      ((c.receiving datagram).afterReply cfg d).fsmState ≠ c.fsmState ∧
      (requestID c.history).isSome ∧ d.refMsgID ≠ requestID c.history)

theorem exists_of_movedByOther {cfg : NetworkConfig} {c : Client} {datagram : List UInt8}
    (h : movedByOther cfg c datagram = true) :
    ∃ d, disassebleProtocolUDP (c.receiving datagram).serverResponse = .ok d ∧
      uchar2msgType d.pBlocks.type = .msgReply ∧
      ¬ Unmoved (c.receiving datagram) ((c.receiving datagram).afterReply cfg d) ∧
      (requestID c.history).isSome ∧ d.refMsgID ≠ requestID c.history := by
  unfold movedByOther at h
  split at h
  · cases h
  · rename_i d decoded
    obtain ⟨reply, moved, sent, other⟩ := of_decide_eq_true h
    exact ⟨d, decoded, reply, fun same => moved same.1, sent, other⟩

/-- A positive REPLY that refers to the ID bytes 12 34; nothing was sent with these. -/
def strangeReply : List UInt8 := [1, 0, 0, 1, 0x12, 0x34, 111, 107, 0]

end Ipk24Chat
