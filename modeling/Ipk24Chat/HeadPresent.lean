import Ipk24Chat.QueueHead

/-!
# Uses of the head

While a thread holds the lock, what it knows of the queue stays true. The sender
also relies on the queue between giving the lock up and taking it again: what it
found there, or a message that the thread with the lock is about to add, is there
unless another thread empties the queue and unlocks it.

* `Typed`: the levels of the code, which `QueueHead` derives;
* `inv_step`: every thread knows what the level of its code says;
* `head_present`: the head is only used while the queue has one.
-/

namespace Ipk24Chat

/-- A negative REPLY is acted on while a request is in the queue, an AUTH or JOIN,
and no AUTH is discarded in the open state. -/
def headTaken (_ : Thread) : Act → Client → Bool
  | .note .replyNok, c =>
    c.sendingQueue.any fun m =>
      m.type = MsgType.msgAuth.toUChar || m.type = MsgType.msgJoin.toUChar
  | .note .authDiscarded, _ => false
  | _, _ => true

section
variable (s : Threads Thread Client Act.Answer Point)

/-- The sender has given the lock up and is going to take it again. -/
def resuming : Bool :=
  match s.code .sender with
  | some (.ret p) => p = .logicWaitSend || p = .logicWaitAgain
  | some q => QueueHead.relocks q
  | none => false

/-- Thread `t` is about to empty the queue, and unlocks it before it adds a message. -/
def FlushesAway (t : Thread) : Prop :=
  ∃ next, s.code t = some (.act .queuePopAllMessages next) ∧
    QueueHead.unlocks (next ()) = true

/-- No other thread leaves the queue empty while the sender is to take the lock again. -/
def Undisturbed (t : Thread) (_ : Act) : Prop := t ≠ .sender → resuming s → ¬ FlushesAway s t

/-- A message is in the queue, or is added before the queue is unlocked. -/
def Stocked : Prop :=
  s.shared.sendingQueue ≠ [] ∨
    ∃ u q, u ≠ .sender ∧ s.shared.lock = some u ∧ s.code u = some q ∧ QueueHead.Refills q

end

namespace QueueHead

/-! ## The levels of a program -/

/-- A program of thread `t` runs from level `k` to `post`. -/
def Typed (t : Thread) {α : Type} (post : α → Nat) : Prog α → Nat → Prop
  | .ret a, k => post a ≤ k
  | .act a next, k =>
    (a.bySender = true → t = .sender) ∧ needs a ≤ k ∧
      (a = .queuePopAllMessages → ∀ r, Flushed t (next r)) ∧
      ∀ r, Typed t post (next r) (gives (again t (.act a next)) k a r)

theorem flushed_bind {α β : Type} {t : Thread} {q : Prog α} (f : α → Prog β)
    (h : Flushed t q) : Flushed t (q >>= f) :=
  h.imp_right (Or.imp unlocks_bind refills_bind)

theorem typed_weaken {α : Type} {t : Thread} {post : α → Nat} {q : Prog α} {j k : Nat}
    (le : j ≤ k) (h : Typed t post q j) : Typed t post q k := by
  induction q generalizing j k with
  | ret a => exact Nat.le_trans h le
  | act a next ih =>
    obtain ⟨own, enough, flushed, rest⟩ := h
    exact ⟨own, Nat.le_trans enough le, flushed, fun r => ih r (gives_mono id le a r) (rest r)⟩

theorem typed_bind {α β : Type} {t : Thread} {mid : α → Nat} {post : β → Nat} {q : Prog α}
    {f : α → Prog β} {k : Nat} (hq : Typed t mid q k) (hf : ∀ a, Typed t post (f a) (mid a)) :
    Typed t post (q >>= f) k := by
  induction q generalizing k with
  | ret a => exact typed_weaken hq (hf a)
  | act a next ih =>
    obtain ⟨own, enough, flushed, rest⟩ := hq
    refine ⟨own, enough, fun flush r => flushed_bind f (flushed flush r), fun r => ?_⟩
    exact typed_weaken (gives_mono (again_bind t) (Nat.le_refl k) a r) (ih r (rest r))

theorem typed_rules (t : Thread) : Leveled t fun k q post => Typed t post q k where
  ret _ le := le
  bind := typed_bind
  weaken := typed_weaken
  act own enough flushed rest := ⟨own, enough, flushed, rest⟩

/-- Behind an action only the sender's unlocking leaves level 1. -/
theorem unlock_of_gives {b : Bool} {k : Nat} {a : Act} {r : a.Answer} (enough : needs a ≤ k)
    (one : gives b k a r = 1) : a = .queueUnlock ∧ 3 ≤ k := by
  cases a <;> simp only [gives] at one
  case queueUnlock =>
    split at one
    · cases one
    · exact ⟨rfl, by omega⟩
  case queuePopMessage | queuePopAllMessages =>
    change 2 ≤ k at enough
    omega
  all_goals
    exfalso
    repeat' split at one
    all_goals omega

/-! ## What a thread knows -/

variable {cfg : NetworkConfig} {s : Threads Thread Client Act.Answer Point} {t : Thread} {k : Nat}

/-- What the level of thread `t` says of the lock and the queue. -/
structure Knows (t : Thread) (k : Nat) (s : Threads Thread Client Act.Answer Point) : Prop where
  held : Holds t k s.shared
  long : 2 ≤ k → k ≤ s.shared.sendingQueue.length + 2
  found : 1 ≤ k → t = .sender → s.shared.status = .running → resuming s →
    s.shared.lock ≠ some .sender → Stocked s

theorem knows_mono {j : Nat} (le : j ≤ k) (known : Knows t k s) : Knows t j s where
  held two := known.held (Nat.le_trans two le)
  long two := Nat.le_trans le (known.long (Nat.le_trans two le))
  found one := known.found (Nat.le_trans one le)

/-- An action that does not take messages away leaves at least as many. -/
theorem length_queueAfter (c : Client) {a : Act} (pop : a ≠ .queuePopMessage)
    (flush : a ≠ .queuePopAllMessages) : c.sendingQueue.length ≤ (c.queueAfter a).length := by
  cases a <;> simp_all [Client.queueAfter, MessageQueue.addMessage, MessageQueue.addMessagePriority]

/-- Who settles that a message is added adds one, or waits for the lock. -/
theorem adds_of_settles (c : Client) {a : Act} (adds : settles a = some true)
    (lock : a ≠ .queueLock) : c.queueAfter a ≠ [] := by
  cases a <;> simp_all [settles, Client.queueAfter, MessageQueue.addMessage,
    MessageQueue.addMessagePriority]

/-! ### The thread that moves -/

section
variable {a : Act} {next : a.Answer → Prog Point} {r : a.Answer} {c' : Client}
  (code : s.code t = some (.act a next)) (ok : s.shared.perform t a = .ok r c')
  (taken : headTaken t a s.shared = true) (known : Knows t k s) (enough : needs a ≤ k)
include code ok known enough

/-- What the sender left in the queue is there when it takes the lock again. -/
theorem head_of_relock (lock : a = .queueLock) (resumed : again t (.act a next) = true)
    (one : 1 ≤ k) : s.shared.sendingQueue ≠ [] := by
  subst lock
  simp only [again, Bool.and_eq_true, decide_eq_true_eq] at resumed
  obtain ⟨running, ok⟩ := Client.perform_ok ok
  have free := Client.act_queueLock ok
  have resumes : resuming s := by
    rw [resumed.1] at code
    simp only [resuming, code]
    exact resumed.2
  have stocked := known.found one resumed.1 running resumes (by simp [free])
  obtain present | ⟨u, q, -, held, -⟩ := stocked
  · exact present
  · rw [free] at held
    cases held

include taken

/-- The length of the queue behind an action, with the lock. -/
theorem long_with_lock (high : 2 ≤ k) (two : 2 ≤ gives (again t (.act a next)) k a r) :
    gives (again t (.act a next)) k a r ≤ c'.sendingQueue.length + 2 := by
  have effect := (Client.perform_ok ok).2
  have queue := Client.act_queue effect
  have long := known.long high
  have level : ¬ k < 2 := by omega
  cases a <;> simp only [Client.queueAfter] at queue
  case queueLock =>
    have free := Client.act_queueLock effect
    rw [known.held high] at free
    cases free
  case queueUnlock =>
    simp only [gives] at two
    split at two <;> omega
  case queueIsEmpty =>
    cases effect
    simp only [gives, if_neg level]
    cases empty : s.shared.sendingQueue with
    | nil => simpa [empty] using long
    | cons m rest =>
      simp only [empty, List.length_cons] at long ⊢
      simp
      omega
  case queueGetMessage =>
    cases effect
    simp only [gives, if_neg level]
    cases empty : s.shared.sendingQueue with
    | nil => simpa [empty, MessageQueue.getMessage] using long
    | cons m rest =>
      simp only [empty, List.length_cons] at long ⊢
      simp [MessageQueue.getMessage]
      omega
  case note e =>
    have one : granted e ≤ s.shared.sendingQueue.length := by
      cases e <;> simp [headTaken, granted] at taken ⊢
      obtain ⟨m, present, -⟩ := taken
      exact List.length_pos_of_mem present
    simp only [gives, queue]
    split <;> omega
  all_goals
    simp [gives, queue, MessageQueue.popMessage, MessageQueue.addMessage,
      MessageQueue.addMessagePriority]
  all_goals (repeat' split)
  all_goals omega

omit taken in
/-- Without the lock only taking it says anything of the queue. -/
theorem long_without_lock (low : ¬ 2 ≤ k) (two : 2 ≤ gives (again t (.act a next)) k a r) :
    gives (again t (.act a next)) k a r ≤ c'.sendingQueue.length + 2 := by
  have queue := Client.act_queue (Client.perform_ok ok).2
  cases a <;> simp only [gives] at two ⊢
  case queueLock =>
    split at two
    · rename_i resumed
      rw [if_pos resumed]
      by_cases none : k = 0
      · simp [none]
      · have present := head_of_relock code ok known enough rfl resumed (by omega)
        rw [if_neg none, queue]
        have := List.length_pos_of_ne_nil present
        simp only [Client.queueAfter]
        omega
    · rename_i first
      rw [if_neg first]
      omega
  case queuePopMessage | queuePopAllMessages => exact absurd enough low
  all_goals
    exfalso
    repeat' split at two
    all_goals omega

/-- **The length of the queue behind an action.** -/
theorem long_behind (two : 2 ≤ gives (again t (.act a next)) k a r) :
    gives (again t (.act a next)) k a r ≤ c'.sendingQueue.length + 2 := by
  by_cases high : 2 ≤ k
  · exact long_with_lock code ok taken known enough high two
  · exact long_without_lock code ok known enough high two

/-- **What a thread knows behind its action.** -/
theorem knows_behind :
    Knows t (gives (again t (.act a next)) k a r)
      ⟨c', Function.update s.code t (some (next r))⟩ := by
  have effect := (Client.perform_ok ok).2
  have held := holds_step effect known.held enough (again t (.act a next))
  refine ⟨held, long_behind code ok taken known enough, ?_⟩
  intro one own running _ free
  -- the lock is given up with a message in the queue
  have unlocked : gives (again t (.act a next)) k a r = 1 := by
    by_contra more
    exact free (own ▸ held (by omega))
  obtain ⟨rfl, three⟩ := unlock_of_gives enough unlocked
  left
  have long := known.long (by omega)
  rw [Client.act_queue effect]
  intro empty
  simp [Client.queueAfter] at empty
  simp [empty] at long
  omega

end

/-! ### The other threads -/

section
variable {a : Act} {next : a.Answer → Prog Point} {u : Thread}

/-- The sender does as before when another thread has moved. -/
theorem resumes_update {c' : Client} {o : Option (Prog Point)} (other : t ≠ .sender)
    (h : resuming ⟨c', Function.update s.code t o⟩) : resuming s := by
  simpa [resuming, Function.update_of_ne (Ne.symm other)] using h

/-- A message that is about to be added is still to come, unless its thread has moved. -/
theorem stocked_update {c' : Client} {o : Option (Prog Point)} (stocked : Stocked s)
    (queue : s.shared.sendingQueue ≠ [] → Stocked ⟨c', Function.update s.code t o⟩)
    (held : ∀ u, u ≠ t → s.shared.lock = some u → c'.lock = some u)
    (moved : ∀ q, s.code t = some q → Refills q → t ≠ .sender → s.shared.lock = some t →
      Stocked ⟨c', Function.update s.code t o⟩) :
    Stocked ⟨c', Function.update s.code t o⟩ := by
  rcases stocked with present | ⟨u, q, away, lock, code, refills⟩
  · exact queue present
  · by_cases same : u = t
    · subst same
      exact moved q code refills away lock
    · exact Or.inr ⟨u, q, away, held u same lock, by simpa [Function.update_of_ne same] using code,
        refills⟩

/-- **The queue stays stocked.** Another thread may empty it, but adds a message
before it unlocks it. -/
theorem stocked_step {r : a.Answer} {c' : Client} (code : s.code t = some (.act a next))
    (ok : s.shared.perform t a = .ok r c') (locked : LockedAct t a s.shared)
    (flushed : a = .queuePopAllMessages → ∀ r, Flushed t (next r)) (other : t ≠ .sender)
    (calm : ¬ FlushesAway s t) (stocked : Stocked s) :
    Stocked ⟨c', Function.update s.code t (some (next r))⟩ := by
  have effect := (Client.perform_ok ok).2
  have queue := Client.act_queue effect
  have lock := Client.act_lock effect
  apply stocked_update stocked
  · intro present
    by_cases flush : a = .queuePopAllMessages
    · subst flush
      rcases flushed rfl r with sender | away | refills
      · exact absurd sender other
      · exact absurd ⟨next, code, away⟩ calm
      · right
        exact ⟨t, next r, other, lock.trans (locked.1 Nat.two_pos), by simp, refills⟩
    · left
      rw [queue]
      have pop : a ≠ .queuePopMessage := by
        rintro rfl
        exact other (locked.2 rfl)
      have kept := length_queueAfter s.shared pop flush
      exact List.ne_nil_of_length_pos (Nat.lt_of_lt_of_le (List.length_pos_of_ne_nil present) kept)
  · exact fun u away held => lock_kept effect locked away held
  · intro q same refills _ held
    rw [code] at same
    cases same
    unfold Refills at refills
    cases settled : settles a with simp only [settled] at refills
    | some refilled =>
      have free : a ≠ .queueLock := by
        rintro rfl
        rw [Client.act_queueLock effect] at held
        cases held
      left
      rw [queue]
      exact adds_of_settles s.shared (refills ▸ settled) free
    | none =>
      right
      refine ⟨t, next r, other, ?_, by simp, refills r⟩
      rw [lock]
      cases a <;> first | exact held | cases settled

/-- What a thread knows is left true by an action of another. -/
theorem knows_step {r : a.Answer} {c' : Client} (code : s.code t = some (.act a next))
    (ok : s.shared.perform t a = .ok r c') (locked : LockedAct t a s.shared)
    (flushed : a = .queuePopAllMessages → ∀ r, Flushed t (next r))
    (calm : Undisturbed s t a) (other : u ≠ t) (known : Knows u k s) :
    Knows u k ⟨c', Function.update s.code t (some (next r))⟩ := by
  have effect := (Client.perform_ok ok).2
  have kept {v : Thread} (away : v ≠ t) (held : s.shared.lock = some v) : c'.lock = some v :=
    lock_kept effect locked away held
  refine ⟨fun two => kept other (known.held two), fun two => ?_, ?_⟩
  · have held := known.held two
    have away : s.shared.lock ≠ some t :=
      fun lock => other (Option.some.inj (held.symm.trans lock))
    have pop : a ≠ .queuePopMessage := by
      rintro rfl
      exact away (locked.1 Nat.two_pos)
    have flush : a ≠ .queuePopAllMessages := by
      rintro rfl
      exact away (locked.1 Nat.two_pos)
    have more := length_queueAfter s.shared pop flush
    have long := known.long two
    simp only [Client.act_queue effect]
    omega
  · rintro one rfl running resumes free
    have resumes := resumes_update (Ne.symm other) resumes
    apply stocked_step code ok locked flushed (Ne.symm other) (calm (Ne.symm other) resumes)
    have before : s.shared.status = .running := (Client.perform_ok ok).1
    exact known.found one rfl before resumes fun held => free (kept other held)

/-- A thread that stops adds nothing any more, but had not settled that it would. -/
theorem knows_halt {c' : Client} (code : s.code t = some (.act a next))
    (halt : s.shared.perform t a = .halt c') (other : u ≠ t) (known : Knows u k s) :
    Knows u k ⟨c', Function.update s.code t none⟩ := by
  obtain ⟨running, effect⟩ := Client.perform_halt halt
  have same := Client.act_halt effect
  refine ⟨fun two => ?_, fun two => ?_, ?_⟩
  · rw [same]
    exact known.held two
  · rw [same]
    exact known.long two
  · rintro one rfl still resumes free
    have parked : a = .park := by
      cases a <;> simp only [Client.act] at effect <;> (try split at effect) <;> cases effect <;>
        first | rfl | cases still
    subst parked
    rw [same] at free ⊢
    have stocked := known.found one rfl running (resumes_update (Ne.symm other) resumes) free
    refine stocked_update stocked Or.inl (fun _ _ held => held) ?_
    intro q before refills
    rw [code] at before
    cases before
    cases refills

/-- A thread that takes up a piece of its code had none. -/
theorem stocked_start {p : Point} {q : Prog Point} (code : s.code t = some (.ret p))
    (stocked : Stocked s) : Stocked ⟨s.shared, Function.update s.code t (some q)⟩ := by
  refine stocked_update stocked Or.inl (fun _ _ held => held) ?_
  intro q before refills
  rw [code] at before
  cases before
  exact refills.elim

theorem knows_start {p : Point} {q : Prog Point} (code : s.code t = some (.ret p)) (other : u ≠ t)
    (known : Knows u k s) : Knows u k ⟨s.shared, Function.update s.code t (some q)⟩ where
  held := known.held
  long := known.long
  found := by
    rintro one rfl running resumes free
    have resumes := resumes_update (Ne.symm other) resumes
    exact stocked_start code (known.found one rfl running resumes free)

/-- The sender knows at the start of a piece of code what it waited with. -/
theorem knows_taken_up {p : Point} {q : Prog Point} (code : s.code t = some (.ret p))
    (known : Knows t (levelAt p) s) :
    Knows t (levelAt p) ⟨s.shared, Function.update s.code t (some q)⟩ where
  held := known.held
  long := known.long
  found := by
    rintro one rfl running _ free
    have resumes : resuming s := by
      cases p <;> simp [levelAt] at one <;> simp [resuming, code]
    exact stocked_start code (known.found one rfl running resumes free)

end

/-! ## Runs -/

/-- Every thread knows what the level of its code says. -/
def Inv (s : Threads Thread Client Act.Answer Point) : Prop :=
  ∀ t q, s.code t = some q → ∃ k, Typed t levelAt q k ∧ Knows t k s

theorem inv_initial (c : Client) : Inv (initialThreads c) := by
  intro t q code
  cases code
  refine ⟨0, ?_, ⟨nofun, nofun, nofun⟩⟩
  cases t <;> exact Nat.le_refl 0

/-- **The invariant of the runs.** -/
theorem inv_of_reachableIf (udp : cfg.protocol = .protUDP) {c : Client}
    (reached : ((machine cfg).restrict headTaken).ReachableIf Undisturbed (initialThreads c) s) :
    Inv s := by
  induction reached with
  | refl => exact inv_initial c
  | @act s t a next r c' _ code calm ok inv =>
    obtain ⟨taken, ok⟩ := Machine.restrict_perform_ok ok nofun
    obtain ⟨k, ⟨own, enough, flushed, rest⟩, known⟩ := inv t _ code
    have locked := lockedAct_of_holds known.held enough own
    refine Machine.code_of_update ?_ ?_
    · intro q same
      cases same
      exact ⟨_, rest r, knows_behind code ok taken known enough⟩
    · intro u q other same
      obtain ⟨j, typed, known⟩ := inv u q same
      exact ⟨j, typed, knows_step code ok locked flushed calm other known⟩
  | @halt s t a next c' _ code _ halt inv =>
    have halt := (Machine.restrict_perform_ok halt nofun).2
    refine Machine.code_of_update nofun ?_
    intro u q other same
    obtain ⟨j, typed, known⟩ := inv u q same
    exact ⟨j, typed, knows_halt code halt other known⟩
  | @start s t p q _ code start inv =>
    refine Machine.code_of_update ?_ ?_
    · intro q' same
      cases same
      obtain ⟨k, typed, known⟩ := inv t _ code
      have typed' := starts_checked (typed_rules t) udp start
      exact ⟨levelAt p, typed', knows_taken_up code (knows_mono typed known)⟩
    · intro u q' other same
      obtain ⟨j, typed, known⟩ := inv u q' same
      exact ⟨j, typed, knows_start code other known⟩

end QueueHead

/-- **The head of the queue is never used without a head**, in every run in which
negative REPLYs come while a request is in the queue, no AUTH is discarded, and the
queue is not left empty while the sender is to take the lock again. -/
theorem head_present {cfg : NetworkConfig} (udp : cfg.protocol = .protUDP) {heap : Nat → Memory}
    {ipAddress : Buffer} {s : Threads Thread Client Act.Answer Point}
    (reached : ((machine cfg).restrict headTaken).ReachableIf Undisturbed
      (initialThreads (programInterfaceInit heap ipAddress)) s)
    {t : Thread} {a : Act} {next : a.Answer → Prog Point} (code : s.code t = some (.act a next))
    (uses : a.usesHead = true) : s.shared.sendingQueue ≠ [] := by
  obtain ⟨k, ⟨-, enough, -⟩, known⟩ := QueueHead.inv_of_reachableIf udp reached t _ code
  have level : QueueHead.needs a = 3 := by
    cases a <;> simp_all [Act.usesHead, QueueHead.needs]
  have long := known.long (by omega)
  apply List.ne_nil_of_length_pos
  omega

/-- The thread is about to use the head of the queue. -/
def usesHeadNext : Prog Point → Bool
  | .act a _ => a.usesHead
  | .ret _ => false

/-- The sender itself moves, or is not to take the lock again. -/
def alone (s : Threads Thread Client Act.Answer Point) (t : Thread) : Bool :=
  t = .sender || !resuming s

theorem undisturbed_of_alone (s : Threads Thread Client Act.Answer Point) (t : Thread)
    (free : alone s t = true) (u : Threads Thread Client Act.Answer Point) (a : Act)
    (same : ∀ v, v ≠ t → u.code v = s.code v) : Undisturbed u t a := by
  intro other resumes
  simp only [alone, other, decide_false, Bool.false_or, Bool.not_eq_true'] at free
  have before : resuming s = true := by
    simpa only [resuming, same .sender (Ne.symm other)] using resumes
  rw [free] at before
  cases before

/-- The sender reads the flags of an AUTH it has found in the queue. -/
theorem head_present_auth :
    ∃ s, ((machine ⟨.protUDP, 3⟩).restrict headTaken).ReachableIf Undisturbed
        (initialThreads (programInterfaceInit (fun _ _ => 0xC4) ⟨some fun _ => 0, 10, 10⟩)) s ∧
      ∃ t a next, s.code t = some (.act a next) ∧ a.usesHead = true ∧
        s.shared.sendingQueue ≠ [] := by
  obtain ⟨s, reached, uses⟩ := reachableIf_of_moves
    (m := (machine ⟨.protUDP, 3⟩).restrict headTaken) (fun _ _ _ h => h) undisturbed_of_alone
    (programInterfaceInit (fun _ _ => 0xC4) ⟨some fun _ => 0, 10, 10⟩)
    [.start (.main (ascii "/auth u s d\n")), .go .main 11, .start (.sender 1), .go .sender 11]
    (fun s => (s.code .sender).any usesHeadNext) (by decide +kernel)
  simp only [Option.any_eq_true] at uses
  obtain ⟨q, code, uses⟩ := uses
  cases q with
  | ret p => cases uses
  | act a next =>
    exact ⟨s, reached, .sender, a, next, code, uses, head_present rfl reached code uses⟩

/-- The JOIN was confirmed and has left the queue when its negative REPLY comes:
the flags of a message that is not there are read, and the process ends. -/
theorem head_missing_join :
    (∃ s, Reachable ⟨.protUDP, 3⟩ (fun _ _ => 0xC4) ⟨some fun _ => 0, 10, 10⟩ s ∧
      ∃ t a next, s.code t = some (.act a next) ∧ a.usesHead = true ∧
        s.shared.sendingQueue = []) ∧
    ∃ s, Passed ⟨.protUDP, 3⟩ (fun _ _ => 0xC4) ⟨some fun _ => 0, 10, 10⟩ s ∧
      s.shared.status = .faulted := by
  constructor
  · obtain ⟨s, t, q, reached, code, uses⟩ := reachable_of_playInto ⟨.protUDP, 3⟩
      (fun _ _ => 0xC4) ⟨some fun _ => 0, 10, 10⟩
      [.main (ascii "/auth u s d\n"), .sender 1, .receiver [0, 0, 0],
        .receiver ([1, 0, 0, 1, 0, 0] ++ ascii "ok" ++ [0]), .sender 1,
        .main (ascii "/join c\n"), .sender 1, .receiver [0, 1, 0], .sender 1]
      (.receiver ([1, 1, 0, 0, 1, 0] ++ ascii "no" ++ [0])) 11
      (fun (_, q, c) => usesHeadNext q && c.sendingQueue.isEmpty) (by decide +kernel)
    simp only [Bool.and_eq_true, List.isEmpty_iff] at uses
    cases q with
    | ret p => cases uses.1
    | act a next => exact ⟨s, reached, t, a, next, code, uses⟩
  · obtain ⟨s, passed, faulted⟩ := passed_of_playAll ⟨.protUDP, 3⟩
      (fun _ _ => 0xC4) ⟨some fun _ => 0, 10, 10⟩
      [.main (ascii "/auth u s d\n"), .sender 1, .receiver [0, 0, 0],
        .receiver ([1, 0, 0, 1, 0, 0] ++ ascii "ok" ++ [0]), .sender 1,
        .main (ascii "/join c\n"), .sender 1, .receiver [0, 1, 0], .sender 1,
        .receiver ([1, 1, 0, 0, 1, 0] ++ ascii "no" ++ [0])]
      (fun s => s.shared.status = .faulted) (by decide +kernel)
    exact ⟨s, passed, by simpa using faulted⟩

end Ipk24Chat
