import Ipk24Chat.Sender
import Ipk24Chat.MainLoop

/-!
# Runs of the client

The three threads over the shared state, started by `programInterfaceInit`.
`Threads` interleaves single actions; `Passes` takes whole passes of the loops.
A thread that waits for a condition may wake up at any time, signaled or not.
-/

namespace Ipk24Chat

/-- `programInterfaceInit`, with the server address in `clientInput` and the
receive buffer at its size. `heap` is what memory from `realloc` holds. -/
def programInterfaceInit (heap : Nat → Memory) (ipAddress : Buffer) : Client where
  fsmState := .fsmStart
  sendingQueue := []
  lock := none
  comDetails := ⟨.init, .init, 0⟩
  clientInput := ipAddress
  scratch := fun _ => .init
  serverResponse := bufferResize (heap 0) .init 1500
  confirmedMessages := []
  heap := heap
  reallocs := 1
  nextUid := 0
  status := .running
  history := []

/-- The piece of code a thread takes up at a point: a pass of its loop on any
input, or the rest of a pass behind a wait. -/
inductive Starts (cfg : NetworkConfig) : Thread → Point → Prog Point → Prop where
  | userCommandHandling (eofDetected : Bool) (stdin : List UInt8) :
      Starts cfg .main (.userCommandHandling eofDetected)
        (Ipk24Chat.userCommandHandling cfg eofDetected stdin)
  | protocolReceiver (datagram : List UInt8) (fits : datagram.length ≤ 1500) :
      Starts cfg .receiver .protocolReceiver (Ipk24Chat.protocolReceiver cfg datagram)
  | protocolSender (fuel : Nat) (bytesTx : Int) :
      Starts cfg .sender .protocolSender (Ipk24Chat.protocolSender cfg fuel bytesTx)
  | logicWaitSend (bytesTx : Int) :
      Starts cfg .sender .logicWaitSend (resumeSend cfg bytesTx)
  | logicWaitAgain (bytesTx : Int) :
      Starts cfg .sender .logicWaitAgain (resumeLogic cfg bytesTx)

/-- The client as a machine of three threads. -/
def machine (cfg : NetworkConfig) : Machine Thread Client Act.Answer Point where
  perform := Client.perform
  starts := Starts cfg

def initialPoint : Thread → Point
  | .main => .userCommandHandling false
  | .sender => .protocolSender
  | .receiver => .protocolReceiver

/-- All threads at the head of their loops. -/
def initialThreads (c : Client) : Threads Thread Client Act.Answer Point :=
  ⟨c, fun t => some (.ret (initialPoint t))⟩

def initialPasses (c : Client) : Passes Thread Client Point :=
  ⟨c, fun t => some (initialPoint t)⟩

/-- Reachable by interleaving single actions. -/
def Reachable (cfg : NetworkConfig) (heap : Nat → Memory) (ipAddress : Buffer)
    (s : Threads Thread Client Act.Answer Point) : Prop :=
  (machine cfg).Reachable (initialThreads (programInterfaceInit heap ipAddress)) s

/-- Reachable by interleaving whole passes. -/
def Passed (cfg : NetworkConfig) (heap : Nat → Memory) (ipAddress : Buffer)
    (s : Passes Thread Client Point) : Prop :=
  (machine cfg).Passed (initialPasses (programInterfaceInit heap ipAddress)) s

theorem matches_initial (c : Client) :
    Machine.Matches (R := Act.Answer) (initialPasses c) (initialThreads c) :=
  ⟨rfl, fun t p hp => by simpa [initialPasses, initialThreads] using hp⟩

/-- Runs of whole passes are among the interleavings of single actions. -/
theorem reachable_of_passed {cfg : NetworkConfig} {heap : Nat → Memory} {ipAddress : Buffer}
    {s : Passes Thread Client Point} (h : Passed cfg heap ipAddress s) :
    ∃ u, Reachable cfg heap ipAddress u ∧ u.shared = s.shared := by
  obtain ⟨u, reach, same⟩ := Machine.steps_of_passed h
    (matches_initial _)
  exact ⟨u, reach, same.1⟩

/-! ## Playing a run

Concrete runs of whole passes, for the inputs a theorem speaks about. -/

/-- What happens next: main reads, a datagram arrives, or the sender goes on. -/
inductive Cue where
  | main (stdin : List UInt8)
  | receiver (datagram : List UInt8)
  | sender (bytesTx : Int)

/-- Thread `t` runs `q` to its end. -/
def runPass (m : Machine Thread Client Act.Answer Point) (t : Thread) (q : Prog Point)
    (s : Passes Thread Client Point) : Passes Thread Client Point :=
  match q.exec (m.perform t) s.shared with
  | .done p c => ⟨c, Function.update s.point t (some p)⟩
  | .halted c => ⟨c, Function.update s.point t none⟩

theorem runPass_shared (m : Machine Thread Client Act.Answer Point) (t : Thread) (q : Prog Point)
    (s : Passes Thread Client Point) :
    (runPass m t q s).shared = (q.exec (m.perform t) s.shared).state := by
  unfold runPass
  cases q.exec (m.perform t) s.shared <;> rfl

/-- The program a cue starts. The loop of `filterResentMessages` has one round
for each message at most. -/
def cued (cfg : NetworkConfig) (s : Passes Thread Client Point) :
    Cue → Option (Thread × Prog Point)
  | .main stdin =>
    match s.point .main with
    | some (.userCommandHandling eofDetected) =>
      some (.main, userCommandHandling cfg eofDetected stdin)
    | _ => none
  | .receiver datagram =>
    if datagram.length ≤ 1500 then
      match s.point .receiver with
      | some .protocolReceiver => some (.receiver, protocolReceiver cfg datagram)
      | _ => none
    else none
  | .sender bytesTx =>
    match s.point .sender with
    | some .protocolSender =>
      some (.sender, protocolSender cfg (s.shared.sendingQueue.length + 1) bytesTx)
    | some .logicWaitSend => some (.sender, resumeSend cfg bytesTx)
    | some .logicWaitAgain => some (.sender, resumeLogic cfg bytesTx)
    | _ => none

def playAll (m : Machine Thread Client Act.Answer Point) (cfg : NetworkConfig)
    (s : Passes Thread Client Point) : List Cue → Option (Passes Thread Client Point)
  | [] => some s
  | cue :: cues => (cued cfg s cue).bind fun (t, q) => playAll m cfg (runPass m t q s) cues

/-- Plays cues that pass a check. -/
def playIf (m : Machine Thread Client Act.Answer Point) (cfg : NetworkConfig)
    (check : Client → Cue → Bool) (s : Passes Thread Client Point) :
    List Cue → Option (Passes Thread Client Point)
  | [] => some s
  | cue :: cues =>
    if check s.shared cue then
      (cued cfg s cue).bind fun (t, q) => playIf m cfg check (runPass m t q s) cues
    else none

/-- The first `n` actions of a pass behind a played run: its thread, the rest of
its program and the state. -/
def playInto (m : Machine Thread Client Act.Answer Point) (cfg : NetworkConfig)
    (s : Passes Thread Client Point) (cues : List Cue) (cue : Cue) (n : Nat) :
    Option (Thread × Prog Point × Client) :=
  (playAll m cfg s cues).bind fun s' => (cued cfg s' cue).bind fun (t, q) =>
    (q.advance (m.perform t) n s'.shared).map fun rest => (t, rest)

theorem starts_of_cued {cfg : NetworkConfig} {s : Passes Thread Client Point} {cue : Cue}
    {t : Thread} {q : Prog Point} (h : cued cfg s cue = some (t, q)) :
    ∃ p, s.point t = some p ∧ Starts cfg t p q := by
  cases cue <;> simp only [cued] at h
  case main stdin =>
    split at h <;> cases h
    exact ⟨_, ‹_›, .userCommandHandling _ _⟩
  case receiver datagram =>
    split at h
    · split at h <;> cases h
      exact ⟨_, ‹_›, .protocolReceiver _ ‹_›⟩
    · cases h
  case sender bytesTx =>
    split at h <;> cases h
    · exact ⟨_, ‹_›, .protocolSender _ _⟩
    · exact ⟨_, ‹_›, .logicWaitSend _⟩
    · exact ⟨_, ‹_›, .logicWaitAgain _⟩

section
variable {m : Machine Thread Client Act.Answer Point} {cfg : NetworkConfig}
  (starts : ∀ t p q, Starts cfg t p q → m.starts t p q) (c : Client) (cues : List Cue)
include starts

theorem pass_runPass {s : Passes Thread Client Point} {cue : Cue} {t : Thread} {q : Prog Point}
    (h : cued cfg s cue = some (t, q)) : m.Pass s (runPass m t q s) := by
  obtain ⟨p, point, admitted⟩ := starts_of_cued h
  unfold runPass
  split
  · exact .done point (starts t p q admitted) ‹_›
  · exact .halted point (starts t p q admitted) ‹_›

/-- A pass that is run meets the condition it is run under. -/
theorem passedIf_runPass {ok : Client → Prog Point → Prop} {s₀ s : Passes Thread Client Point}
    {t : Thread} {p : Point} {q : Prog Point} (before : m.PassedIf ok s₀ s)
    (point : s.point t = some p) (admitted : Starts cfg t p q) (fine : ok s.shared q) :
    m.PassedIf ok s₀ (runPass m t q s) := by
  unfold runPass
  split
  · exact .done before point (starts t p q admitted) fine ‹_›
  · exact .halted before point (starts t p q admitted) fine ‹_›

/-- A played run is a run under the condition. -/
theorem passedIf_of_playIf {ok : Client → Prog Point → Prop} {check : Client → Cue → Bool}
    (checked : ∀ s cue t q, check s.shared cue = true → cued cfg s cue = some (t, q) →
      ok s.shared q) {s₀ s s' : Passes Thread Client Point} (reached : m.PassedIf ok s₀ s)
    (played : playIf m cfg check s cues = some s') : m.PassedIf ok s₀ s' := by
  induction cues generalizing s with
  | nil =>
    cases played
    exact reached
  | cons cue cues ih =>
    simp only [playIf] at played
    split at played
    · rename_i good
      obtain ⟨⟨t, q⟩, cued, rest⟩ := Option.bind_eq_some_iff.mp played
      obtain ⟨p, point, admitted⟩ := starts_of_cued cued
      exact ih (passedIf_runPass starts reached point admitted (checked s cue t q good cued)) rest
    · cases played

theorem passed_of_play {s₀ s s' : Passes Thread Client Point} (reached : m.Passed s₀ s)
    (played : playAll m cfg s cues = some s') : m.Passed s₀ s' := by
  induction cues generalizing s with
  | nil =>
    cases played
    exact reached
  | cons cue cues ih =>
    simp only [playAll, Option.bind_eq_some_iff] at played
    obtain ⟨⟨t, q⟩, cued, rest⟩ := played
    exact ih (reached.step (pass_runPass starts cued)) rest

/-- A played run is a run. -/
theorem passed_of_played (good : Passes Thread Client Point → Bool)
    (h : (playAll m cfg (initialPasses c) cues).any good = true) :
    ∃ s, m.Passed (initialPasses c) s ∧ good s = true := by
  cases played : playAll m cfg (initialPasses c) cues with
  | none => simp [played] at h
  | some s =>
    rw [played] at h
    exact ⟨s, passed_of_play starts cues .refl played, h⟩

/-- The first actions of a pass behind a played run. -/
theorem pass_of_playInto {s : Passes Thread Client Point} (cue : Cue) (n : Nat)
    (good : Thread × Prog Point × Client → Bool)
    (h : (playInto m cfg s cues cue n).any good = true) :
    ∃ s' t p q q' c', m.Passed s s' ∧ s'.point t = some p ∧ Starts cfg t p q ∧
      q.advance (m.perform t) n s'.shared = some (q', c') ∧ good (t, q', c') = true := by
  cases played : playInto m cfg s cues cue n with
  | none => simp [played] at h
  | some found =>
    obtain ⟨t, q, c'⟩ := found
    rw [played] at h
    simp only [playInto, Option.bind_eq_some_iff, Option.map_eq_some_iff] at played
    obtain ⟨s', all, ⟨t', q'⟩, cued, rest, advanced, eq⟩ := played
    simp only [Prod.mk.injEq] at eq
    obtain ⟨rfl, rfl⟩ := eq
    obtain ⟨p, point, admitted⟩ := starts_of_cued cued
    exact ⟨s', t', p, q', q, c', passed_of_play starts cues .refl all, point, admitted, advanced, h⟩

/-- A state inside a pass behind a played run is reachable. -/
theorem reachable_of_played (cue : Cue) (n : Nat) (good : Thread × Prog Point × Client → Bool)
    (h : (playInto m cfg (initialPasses c) cues cue n).any good = true) :
    ∃ s t q, m.Reachable (initialThreads c) s ∧ s.code t = some q ∧
      good (t, q, s.shared) = true := by
  obtain ⟨s', t, p, q', q, c', passed, point, admitted, advanced, found⟩ :=
    pass_of_playInto starts cues cue n good h
  obtain ⟨u, reached, same⟩ := Machine.steps_of_passed passed (matches_initial c)
  have start : m.Reachable u ⟨u.shared, Function.update u.code t (some q')⟩ :=
    .step .refl (.start (same.2 t p point) (starts t p q' admitted))
  have steps := Machine.steps_of_advance (m := m) (t := t)
    (s := ⟨u.shared, Function.update u.code t (some q')⟩) (Function.update_self ..)
    (same.1 ▸ advanced)
  exact ⟨_, t, q, (reached.trans start).trans steps, Function.update_self .., found⟩

end

/-! ### Single actions -/

/-- A thread takes up a piece of its code, or goes on for some actions. -/
inductive Move where
  | start (cue : Cue)
  | go (t : Thread) (actions : Nat)

/-- The points at which threads are idle. -/
def idlePoints (s : Threads Thread Client Act.Answer Point) : Passes Thread Client Point :=
  ⟨s.shared, fun t =>
    match s.code t with
    | some (.ret p) => some p
    | _ => none⟩

/-- All threads but `t` are idle or have ended. -/
def othersIdle (s : Threads Thread Client Act.Answer Point) (t : Thread) : Bool :=
  [Thread.main, .sender, .receiver].all fun u =>
    u == t || match s.code u with
      | some (.act _ _) => false
      | _ => true

def playMove (m : Machine Thread Client Act.Answer Point) (cfg : NetworkConfig)
    (s : Threads Thread Client Act.Answer Point) :
    Move → Option (Threads Thread Client Act.Answer Point)
  | .start cue => (cued cfg (idlePoints s) cue).map fun (t, q) =>
      ⟨s.shared, Function.update s.code t (some q)⟩
  | .go t actions => (s.code t).bind fun q =>
      (q.advance (m.perform t) actions s.shared).map fun (q', c) =>
        ⟨c, Function.update s.code t (some q')⟩

/-- Moves with actions pass a check. -/
def Move.passes (check : Threads Thread Client Act.Answer Point → Thread → Bool)
    (s : Threads Thread Client Act.Answer Point) : Move → Bool
  | .start _ => true
  | .go t _ => check s t

/-- Plays moves that pass a check. -/
def playMoves (m : Machine Thread Client Act.Answer Point) (cfg : NetworkConfig)
    (check : Threads Thread Client Act.Answer Point → Thread → Bool)
    (s : Threads Thread Client Act.Answer Point) :
    List Move → Option (Threads Thread Client Act.Answer Point)
  | [] => some s
  | move :: moves =>
    if move.passes check s then
      (playMove m cfg s move).bind fun s' => playMoves m cfg check s' moves
    else none

section
variable {m : Machine Thread Client Act.Answer Point} {cfg : NetworkConfig}
  {ok : Threads Thread Client Act.Answer Point → Thread → Act → Prop}
  {check : Threads Thread Client Act.Answer Point → Thread → Bool}
  (starts : ∀ t p q, Starts cfg t p q → m.starts t p q)
  (checked : ∀ s t, check s t = true →
    ∀ u a, (∀ v, v ≠ t → u.code v = s.code v) → ok u t a)
include starts checked

theorem reachableIf_of_playMoves {s₀ s s' : Threads Thread Client Act.Answer Point}
    {moves : List Move} (reached : m.ReachableIf ok s₀ s)
    (played : playMoves m cfg check s moves = some s') : m.ReachableIf ok s₀ s' := by
  induction moves generalizing s with
  | nil =>
    cases played
    exact reached
  | cons move moves ih =>
    simp only [playMoves] at played
    split at played
    · rename_i free
      obtain ⟨s₁, moved, rest⟩ := Option.bind_eq_some_iff.mp played
      refine ih ?_ rest
      cases move with
      | start cue =>
        obtain ⟨⟨t, q⟩, cued, eq⟩ := Option.map_eq_some_iff.mp moved
        obtain ⟨p, point, admitted⟩ := starts_of_cued cued
        have idle : s.code t = some (.ret p) := by
          simp only [idlePoints] at point
          split at point <;> cases point
          assumption
        rw [← eq]
        exact .start reached idle (starts t p q admitted)
      | go t actions =>
        obtain ⟨q, code, moved⟩ := Option.bind_eq_some_iff.mp moved
        obtain ⟨⟨q', c⟩, run, eq⟩ := Option.map_eq_some_iff.mp moved
        rw [← eq]
        exact reached.advance (checked s t free) code run
    · cases played

/-- A played run of single actions is a run under the condition. -/
theorem reachableIf_of_moves (c : Client) (moves : List Move)
    (good : Threads Thread Client Act.Answer Point → Bool)
    (h : (playMoves m cfg check (initialThreads c) moves).any good = true) :
    ∃ s, m.ReachableIf ok (initialThreads c) s ∧ good s = true := by
  cases played : playMoves m cfg check (initialThreads c) moves with
  | none => simp [played] at h
  | some s =>
    rw [played] at h
    exact ⟨s, reachableIf_of_playMoves starts checked .refl played, h⟩

omit checked in
/-- A played run of single actions is a run. -/
theorem reachable_of_playMoves {s s' : Threads Thread Client Act.Answer Point} {moves : List Move}
    (played : playMoves m cfg (fun _ _ => true) s moves = some s') : m.Reachable s s' := by
  have run : m.ReachableIf (fun _ _ _ => True) s s' :=
    reachableIf_of_playMoves starts (fun _ _ _ _ _ _ => trivial) .refl played
  exact Machine.reachable_of_reachableIf run

end

section
variable (cfg : NetworkConfig) (heap : Nat → Memory) (ipAddress : Buffer) (cues : List Cue)

theorem passed_of_playAll (good : Passes Thread Client Point → Bool)
    (h : (playAll (machine cfg) cfg (initialPasses (programInterfaceInit heap ipAddress))
      cues).any good = true) : ∃ s, Passed cfg heap ipAddress s ∧ good s = true :=
  passed_of_played (fun _ _ _ => id) _ cues good h

theorem reachable_of_playInto (cue : Cue) (n : Nat) (good : Thread × Prog Point × Client → Bool)
    (h : (playInto (machine cfg) cfg (initialPasses (programInterfaceInit heap ipAddress)) cues cue
      n).any good = true) :
    ∃ s t q, Reachable cfg heap ipAddress s ∧ s.code t = some q ∧ good (t, q, s.shared) = true :=
  reachable_of_played (fun _ _ _ => id) _ cues cue n good h

end

end Ipk24Chat
