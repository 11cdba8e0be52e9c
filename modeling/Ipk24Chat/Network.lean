import Ipk24Chat.Threads

/-!
# A machine and its peer

Threads that exchange messages with a peer over a network that may lose, delay, duplicate
and reorder them. The peer takes one message at a time and answers it. What it ever sent
stays on the wire, and a thread may take any of it at any time, or never.

* `wire_answered`: everything on the wire answers something that was sent before;
* `run_of_wire`: the threads run as they do alone, with the messages on the wire to take;
* `run_of_answers`: the same, where each message that is taken answers one sent by then.
-/

namespace Ipk24Chat

/-- `takes` is the message from the wire that an action needs, and `sent` what the
threads have sent so far. -/
structure Network (T σ : Type) {A : Type} (R : A → Type) (P S M N : Type) where
  machine : Machine T σ R P
  sent : σ → List M
  takes : A → Option N
  answer : S → M → S × List N

namespace Network
variable {T σ A P S M N : Type} {R : A → Type} [DecidableEq T] [DecidableEq N]
  (n : Network T σ R P S M N)

structure State (n : Network T σ R P S M N) where
  threads : Threads T σ R P
  peer : S
  wire : List N

/-- An action can be taken if what it needs is on the wire. -/
def delivers (wire : List N) : T → A → σ → Bool := fun _ a _ =>
  (n.takes a).all fun d => decide (d ∈ wire)

/-- The threads move, or the peer takes something they have sent. -/
inductive Step : n.State → n.State → Prop where
  | threads {s : n.State} {u : Threads T σ R P}
      (move : (n.machine.restrict (n.delivers s.wire)).Step s.threads u) :
      Step s { s with threads := u }
  | peer {s : n.State} {x : M} (taken : x ∈ n.sent s.threads.shared) :
      Step s { s with peer := (n.answer s.peer x).1, wire := (n.answer s.peer x).2 ++ s.wire }

inductive Reachable (s₀ : n.State) : n.State → Prop where
  | refl : Reachable s₀ s₀
  | step {s s' : n.State} : Reachable s₀ s → n.Step s s' → Reachable s₀ s'

/-- The peer sends `d` when it takes `x`, in some state. -/
def Answers (x : M) (d : N) : Prop := ∃ v, d ∈ (n.answer v x).2

/-- What an action needs answers a message that was sent. -/
noncomputable def answered : T → A → σ → Bool := fun _ a s =>
  haveI := Classical.propDecidable
  decide (∀ d, n.takes a = some d → ∃ x ∈ n.sent s, n.Answers x d)

variable {n}

omit [DecidableEq T] [DecidableEq N] in
theorem answered_iff {t : T} {a : A} {s : σ} :
    n.answered t a s = true ↔ ∀ d, n.takes a = some d → ∃ x ∈ n.sent s, n.Answers x d := by
  simp [answered]

omit [DecidableEq T] in
theorem delivers_iff {wire : List N} {t : T} {a : A} {s : σ} :
    n.delivers wire t a s = true ↔ ∀ d, n.takes a = some d → d ∈ wire := by
  simp [delivers, Option.all_eq_true]

/-- What was sent stays sent. -/
def Grows (n : Network T σ R P S M N) : Prop := ∀ t a s,
  (∀ r s', n.machine.perform t a s = .ok r s' → n.sent s ⊆ n.sent s') ∧
    ∀ s', n.machine.perform t a s = .halt s' → n.sent s ⊆ n.sent s'

omit [DecidableEq N] in
theorem sent_of_step (grows : n.Grows) {s u : Threads T σ R P}
    (move : n.machine.Step s u) : n.sent s.shared ⊆ n.sent u.shared := by
  cases move with
  | act _ ok => exact (grows _ _ _).1 _ _ ok
  | halt _ halt => exact (grows _ _ _).2 _ halt
  | start _ _ => exact List.Subset.refl _

/-- **Provenance.** Everything on the wire answers something that was sent. -/
theorem wire_answered (grows : n.Grows) {s₀ s : n.State} (h : n.Reachable s₀ s)
    (empty : s₀.wire = []) : ∀ d ∈ s.wire, ∃ x ∈ n.sent s.threads.shared, n.Answers x d := by
  induction h with
  | refl => simp [empty]
  | step _ move ih =>
    cases move with
    | threads move =>
      intro d hd
      obtain ⟨x, hx, answers⟩ := ih d hd
      exact ⟨x, sent_of_step grows (Machine.step_of_restrict move) hx, answers⟩
    | peer taken =>
      intro d hd
      rcases List.mem_append.mp hd with new | old
      · exact ⟨_, taken, _, new⟩
      · exact ih d old

/-- The wire only grows. -/
theorem wire_subset {s s' : n.State} (move : n.Step s s') : s.wire ⊆ s'.wire := by
  cases move with
  | threads _ => exact List.Subset.refl _
  | peer _ => exact List.subset_append_right _ _

/-- **Projection to the threads.** Apart from what they take from the wire, the threads
run as they do without a peer. -/
theorem run_of_wire {s₀ s : n.State} (h : n.Reachable s₀ s) :
    (n.machine.restrict (n.delivers s.wire)).Reachable s₀.threads s.threads := by
  induction h with
  | refl => exact .refl
  | @step s s' _ move ih =>
    have longer : s.wire ⊆ s'.wire := wire_subset move
    have before : (n.machine.restrict (n.delivers s'.wire)).Reachable s₀.threads s.threads := by
      apply ih.weaken
      intro t a c met
      rw [delivers_iff] at met ⊢
      exact fun d needs => longer (met d needs)
    cases move with
    | threads move => exact before.step move
    | peer _ => exact before

/-- Each message that a thread takes answers one that was sent before. -/
theorem run_of_answers (grows : n.Grows) {s₀ s : n.State} (h : n.Reachable s₀ s)
    (empty : s₀.wire = []) :
    (n.machine.restrict n.answered).Reachable s₀.threads s.threads := by
  induction h with
  | refl => exact .refl
  | @step s _ before move ih =>
    cases move with
    | threads move =>
      apply ih.step
      refine Machine.step_weaken (fun t a met => ?_) move
      rw [answered_iff]
      intro d needs
      exact wire_answered grows before empty d (delivers_iff.mp met d needs)
    | peer _ => exact ih

/-- The threads may run as they do alone, with the messages on the wire to take. -/
theorem reachable_of_threads {s₀ s : n.State} (h : n.Reachable s₀ s) {u : Threads T σ R P}
    (run : (n.machine.restrict (n.delivers s.wire)).Reachable s.threads u) :
    n.Reachable s₀ { s with threads := u } := by
  induction run with
  | refl => exact h
  | step _ move ih => exact ih.step (.threads move)

end Network

end Ipk24Chat
