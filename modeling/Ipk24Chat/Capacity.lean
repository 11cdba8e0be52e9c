import Ipk24Chat.Footprint

/-!
# The encoders and their buffers

Whether an encoder stays inside the capacity it establishes. The size estimate
of a JOIN counts the stored channel ID where the display name is written.

* `complete_inside_iff`: one call of an encoder;
* `encoders_inside_iff`: every call of an encoder in every run.
-/

namespace Ipk24Chat

/-- The size estimate of a JOIN covers what is written, or an earlier message
left enough capacity behind. The blocks are the command and the channel ID. -/
def JoinFits (protocol : Protocols) (pBlocks : ProtocolBlocks) (com : CommunicationDetails)
    (allocated : Nat) : Prop :=
  let estimated := pBlocks.totalLen + com.channelID.used
  match protocol with
  | .protUDP =>
    pBlocks.cmdJoinChannelID.len + com.displayName.used + 5 ≤ max (allocated : Int) (estimated + 10)
  | .protTCP =>
    (com.channelID.used + com.displayName.used + 11 : Int) ≤ max (allocated : Int) (estimated + 12)

theorem written_le_capacity_iff {pBlocks : ProtocolBlocks} (protocol : Protocols)
    (com : CommunicationDetails) (allocated : Nat) (measured : pBlocks.Measured)
    (sent : ((uchar2CommandType pBlocks.type).sentAs).isSome) :
    writtenSize protocol pBlocks com ≤ capacity protocol pBlocks com allocated ↔
      (uchar2CommandType pBlocks.type = .cmdJoin → JoinFits protocol pBlocks com allocated) := by
  obtain ⟨h0, h1, h2, h3⟩ := measured
  unfold writtenSize capacity extraSize JoinFits ProtocolBlocks.totalLen
  cases protocol <;> cases cmd : uchar2CommandType pBlocks.type <;>
    simp only [cmd, CommandType.sentAs, CommandType.message, Option.isSome_none,
      Bool.false_eq_true] at sent <;>
    simp (disch := omega) only [ProtocolBlocks.cmdAuthUsername, ProtocolBlocks.cmdAuthSecret,
      ProtocolBlocks.cmdAuthDisplayname, ProtocolBlocks.cmdJoinChannelID,
      ProtocolBlocks.cmdMsgMsgContents, unsigned_of_nonneg, reduceCtorEq, false_implies, iff_true,
      true_implies] <;> omega

/-- A message that was assembled is inside its buffer, unless it is a JOIN whose
size was estimated too low. -/
theorem complete_inside_iff {fresh : Memory} {protocol : Protocols} {pBlocks : ProtocolBlocks}
    {buffer : Buffer} {com : CommunicationDetails} {r : Assembled} (measured : pBlocks.Measured)
    (h : assemble fresh protocol pBlocks buffer com = .ok r) (sendable : r.canBeSended = true) :
    r.buffer.used ≤ r.buffer.allocated ↔
      (uchar2CommandType pBlocks.type = .cmdJoin →
        JoinFits protocol pBlocks com buffer.allocated) := by
  rcases assemble_cases h with ⟨text, b, c, rfl, -⟩ | ⟨type, b, c, sent, rfl, size, written⟩
  · cases sendable
  · have iff := written_le_capacity_iff protocol com buffer.allocated measured
      (by rw [sent]; rfl)
    rw [← size, ← written] at iff
    exact iff

/-- A thread is about to call an encoder, and the call will return true. -/
def EncoderCall (s : Threads Thread Client Act.Answer Point) (protocol : Protocols)
    (buffer : Scratch) (pBlocks : ProtocolBlocks) (r : Assembled) : Prop :=
  ∃ t next, s.code t = some (.act (.assembleProtocol protocol buffer pBlocks) next) ∧
    assemble s.shared.fresh protocol pBlocks (s.shared.scratch buffer) s.shared.comDetails = .ok r ∧
    r.canBeSended = true

namespace Capacity

/-- What the encoders are called with. -/
def Admitted : Act → Prop
  | .assembleProtocol _ _ pBlocks => pBlocks.Measured
  | _ => True

theorem admitted_of_usual (a : Act) (h : a.Usual) : Admitted a := by
  cases a <;> trivial

theorem admitted_of_making {cfg : NetworkConfig} (a : Act) (h : a.Making cfg) : Admitted a := by
  cases a <;> first | trivial | exact h.1

theorem starts_admitted {cfg : NetworkConfig} {t : Thread} {p : Point} {q : Prog Point}
    (h : Starts cfg t p q) : q.Obeys Admitted Act.Truthful := by
  have rules : Program.Compositional Admitted Act.Truthful
      fun {α} (q : Prog α) => q.Obeys Admitted Act.Truthful := Program.compositional_obeys
  by_cases main : t = .main
  · subst main
    have making (a : Act) (h : a.Making cfg) : Admitted a := admitted_of_making a h
    have bye := sendBye_obeys rules (calm_of_usual admitted_of_usual) making
    cases h with
    | userCommandHandling eofDetected stdin =>
      apply userCommandHandling_obeys rules (calm_of_usual admitted_of_usual) bye
        (fun _ _ => id) (fun _ => ⟨trivial, trivial⟩) (fun _ _ => trivial)
      intro pBlocks flags _ measured _ _
      exact assembleCommand_obeys rules (calm_of_usual admitted_of_usual) bye (fun _ _ => id) _ _
        measured fun _ _ => trivial
  · have wiring (a : Act) (h : a.Wiring) : Admitted a := by
      cases a <;> trivial
    exact starts_obeys rules (calm_of_usual admitted_of_usual) (admitted_of_usual _ rfl)
      admitted_of_making wiring (fun _ => trivial) (fun _ => trivial)
      (fun _ _ _ => trivial) (fun _ _ => id)
      (fun _ _ _ _ _ => ⟨trivial, trivial⟩) ⟨trivial, fun _ _ _ _ => trivial⟩ h main

end Capacity

/-- **The encoders stay inside their buffer** exactly if a JOIN fits. -/
theorem encoders_inside_iff {cfg : NetworkConfig} {heap : Nat → Memory} {ipAddress : Buffer}
    {s : Threads Thread Client Act.Answer Point} (reached : Reachable cfg heap ipAddress s)
    {protocol : Protocols} {buffer : Scratch} {pBlocks : ProtocolBlocks} {r : Assembled}
    (call : EncoderCall s protocol buffer pBlocks r) :
    r.buffer.used ≤ r.buffer.allocated ↔
      (uchar2CommandType pBlocks.type = .cmdJoin →
        JoinFits protocol pBlocks s.shared.comDetails (s.shared.scratch buffer).allocated) := by
  obtain ⟨t, next, code, run, sendable⟩ := call
  have obeyed := (Machine.invariant_of_obeys (fun _ => True) (fun _ => False)
    Capacity.Admitted Act.Truthful
    (fun t a c _ _ =>
      ⟨fun r c' ok => Or.inr ⟨trivial, Client.act_truthful (Client.perform_ok ok).2⟩,
        fun _ _ => Or.inr trivial⟩)
    (fun _ _ _ => False.elim) (fun t p q start => Capacity.starts_admitted start) reached trivial
    (fun t q idle => by cases idle; trivial)).resolve_left id
  exact complete_inside_iff (obeyed.2 t _ code).1 run sendable

/-- The result of the encoder call a thread is about to make, if that returns true. -/
def nextAssembled : Prog Point → Client → Option Assembled
  | .act (.assembleProtocol protocol buffer pBlocks) _, c =>
    match assemble c.fresh protocol pBlocks (c.scratch buffer) c.comDetails with
    | .ok r => if r.canBeSended then some r else none
    | .error _ => none
  | _, _ => none

theorem encoderCall_of_next {s : Threads Thread Client Act.Answer Point} {t : Thread}
    {q : Prog Point} {good : Assembled → Bool} (code : s.code t = some q)
    (h : (nextAssembled q s.shared).any good = true) :
    ∃ protocol buffer pBlocks r, EncoderCall s protocol buffer pBlocks r ∧ good r = true := by
  unfold nextAssembled at h
  split at h
  · split at h
    · rename_i run
      split at h
      · exact ⟨_, _, _, _, ⟨t, _, code, run, ‹_›⟩, h⟩
      · cases h
    · cases h
  · cases h

/-- `/join c` right after the authentication fits. -/
theorem encoders_inside_iff_join :
    ∃ s, Reachable ⟨.protUDP, 3⟩ (fun _ _ => 0xC4) ⟨some fun _ => 0, 10, 10⟩ s ∧
      ∃ protocol buffer pBlocks r, EncoderCall s protocol buffer pBlocks r ∧
        r.pBlocks.type = MsgType.msgJoin.toUChar ∧
        (r.buffer.used ≤ r.buffer.allocated ↔
          (uchar2CommandType pBlocks.type = .cmdJoin →
            JoinFits protocol pBlocks s.shared.comDetails
              (s.shared.scratch buffer).allocated)) := by
  obtain ⟨s, t, q, reached, code, good⟩ := reachable_of_playInto ⟨.protUDP, 3⟩
    (fun _ _ => 0xC4) ⟨some fun _ => 0, 10, 10⟩
    [.main (ascii "/auth u s d\n"), .sender 1, .receiver [0, 0, 0],
      .receiver ([1, 0, 0, 1, 0, 0] ++ ascii "ok" ++ [0]), .sender 1]
    (.main (ascii "/join c\n")) 4
    (fun (_, q, c) => (nextAssembled q c).any
      fun r => r.pBlocks.type == MsgType.msgJoin.toUChar)
    (by decide +kernel)
  obtain ⟨protocol, buffer, pBlocks, r, call, type⟩ := encoderCall_of_next code good
  exact ⟨s, reached, protocol, buffer, pBlocks, r, call, by simpa using type,
    encoders_inside_iff reached call⟩

/-- After `/auth u s d`, an OK and `/rename` to a name of 20 bytes, `/join c`
writes 26 bytes into a buffer of 18. -/
theorem encoders_inside_rename_join :
    ∃ s, Reachable ⟨.protUDP, 3⟩ (fun _ _ => 0xC4) ⟨some fun _ => 0, 10, 10⟩ s ∧
      ∃ protocol buffer pBlocks r, EncoderCall s protocol buffer pBlocks r ∧
        r.buffer.used = 26 ∧ r.buffer.allocated = 18 ∧
        ¬ r.buffer.used ≤ r.buffer.allocated := by
  obtain ⟨s, t, q, reached, code, good⟩ := reachable_of_playInto ⟨.protUDP, 3⟩
    (fun _ _ => 0xC4) ⟨some fun _ => 0, 10, 10⟩
    [.main (ascii "/auth u s d\n"), .sender 1, .receiver [0, 0, 0],
      .receiver ([1, 0, 0, 1, 0, 0] ++ ascii "ok" ++ [0]), .sender 1,
      .main (ascii "/rename aaaaaaaaaaaaaaaaaaaa\n")]
    (.main (ascii "/join c\n")) 4
    (fun (_, q, c) => (nextAssembled q c).any
      fun r => r.buffer.used == 26 && r.buffer.allocated == 18)
    (by decide +kernel)
  obtain ⟨protocol, buffer, pBlocks, r, call, outside⟩ := encoderCall_of_next code good
  simp only [Bool.and_eq_true, beq_iff_eq] at outside
  exact ⟨s, reached, protocol, buffer, pBlocks, r, call, outside.1, outside.2, by omega⟩

end Ipk24Chat
