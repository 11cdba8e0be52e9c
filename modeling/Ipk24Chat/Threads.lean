import Mathlib.Logic.Function.Basic
import Mathlib.Logic.Relation
import Ipk24Chat.Program

/-!
# Interleaved threads

Threads that share a state and take their actions in any order. A thread whose
program has returned a point is idle there and may start any program that
`starts` admits for the point, for instance the next pass of its loop on some
input.

* `invariant_of_obeys`: if every program a thread can start obeys a discipline
  under which actions keep an invariant, the invariant holds in every
  interleaving, until a final condition is reached that nothing undoes;
* `invariant_of_safe`: the same for programs that are safe among each other;
* `invariant_of_annotated`: one thread with assertions, among threads of which only
  their single actions are known;
* `restrict`, `ReachableIf`: the runs in which every action meets a condition;
* `invariant_of_keeps`: what every program keeps from its start to its end holds
  whenever the threads take whole programs at a time;
* `PassedIf`: the runs in which every program that is taken up meets a condition;
* `steps_of_pass`: running a program to its end at once is one interleaving.
-/

namespace Ipk24Chat

/-- Threads with their remaining programs; `none` is a thread that ended. -/
structure Threads (T σ : Type) {A : Type} (R : A → Type) (P : Type) where
  shared : σ
  code : T → Option (Program R P)

/-- How a thread's actions change the state, and what it may start where. -/
structure Machine (T σ : Type) {A : Type} (R : A → Type) (P : Type) where
  perform : T → (a : A) → σ → Effect (R a) σ
  starts : T → P → Program R P → Prop

namespace Machine
variable {T σ A P : Type} {R : A → Type} [DecidableEq T] (m : Machine T σ R P)

/-- One action of one thread, or the start of a thread's next program. -/
inductive Step : Threads T σ R P → Threads T σ R P → Prop where
  | act {s : Threads T σ R P} {t : T} {a : A} {next : R a → Program R P} {r : R a} {s' : σ}
      (code : s.code t = some (.act a next)) (ok : m.perform t a s.shared = .ok r s') :
      Step s ⟨s', Function.update s.code t (some (next r))⟩
  | halt {s : Threads T σ R P} {t : T} {a : A} {next : R a → Program R P} {s' : σ}
      (code : s.code t = some (.act a next)) (halt : m.perform t a s.shared = .halt s') :
      Step s ⟨s', Function.update s.code t none⟩
  | start {s : Threads T σ R P} {t : T} {p : P} {q : Program R P}
      (code : s.code t = some (.ret p)) (admitted : m.starts t p q) :
      Step s ⟨s.shared, Function.update s.code t (some q)⟩

inductive Reachable (s₀ : Threads T σ R P) : Threads T σ R P → Prop where
  | refl : Reachable s₀ s₀
  | step {s s' : Threads T σ R P} : Reachable s₀ s → m.Step s s' → Reachable s₀ s'

variable {m}

theorem Reachable.trans {s₀ s₁ s₂ : Threads T σ R P} (h₁ : m.Reachable s₀ s₁)
    (h₂ : m.Reachable s₁ s₂) : m.Reachable s₀ s₂ := by
  induction h₂ with
  | refl => exact h₁
  | step _ st ih => exact .step ih st

/-- With more programs to start, at least the same is reachable. -/
theorem Reachable.mono (m' : Machine T σ R P) (perform : m'.perform = m.perform)
    (starts : ∀ t p q, m.starts t p q → m'.starts t p q) {s₀ s : Threads T σ R P}
    (h : m.Reachable s₀ s) : m'.Reachable s₀ s := by
  induction h with
  | refl => exact .refl
  | step _ st ih =>
    cases st with
    | act hc ok => exact ih.step (.act hc (perform ▸ ok))
    | halt hc hh => exact ih.step (.halt hc (perform ▸ hh))
    | start hc admitted => exact ih.step (.start hc (starts _ _ _ admitted))

/-- After a step of thread `t`, what holds of the code of all threads follows
from what holds of the code that is left of `t` and of the others' code. -/
theorem code_of_update {f : T → Option (Program R P)} {t : T} {o : Option (Program R P)}
    {good : T → Program R P → Prop} (moved : ∀ q, o = some q → good t q)
    (others : ∀ u q, u ≠ t → f u = some q → good u q) :
    ∀ u q, Function.update f t o u = some q → good u q := by
  intro u q hq
  by_cases hu : u = t
  · subst hu
    rw [Function.update_self] at hq
    exact moved q hq
  · rw [Function.update_of_ne hu] at hq
    exact others u q hu hq

/-- **Discipline gives invariance.** Allowed actions keep `I` and answer as
admitted, or reach `Final`; `Final` is never left; every program a thread may
start obeys. Then `I` holds until `Final` does, in every interleaving. -/
theorem invariant_of_obeys (I Final : σ → Prop) (allowed : A → Prop)
    (answers : (a : A) → R a → Prop)
    (keep : ∀ t a s, I s → allowed a →
      (∀ r s', m.perform t a s = .ok r s' → Final s' ∨ I s' ∧ answers a r) ∧
      ∀ s', m.perform t a s = .halt s' → Final s' ∨ I s')
    (final : ∀ t a s, Final s →
      (∀ r s', m.perform t a s = .ok r s' → Final s') ∧
      ∀ s', m.perform t a s = .halt s' → Final s')
    (obeys : ∀ t p q, m.starts t p q → q.Obeys allowed answers)
    {s₀ s : Threads T σ R P} (h : m.Reachable s₀ s) (init : I s₀.shared)
    (code : ∀ t q, s₀.code t = some q → q.Obeys allowed answers) :
    Final s.shared ∨ I s.shared ∧ ∀ t q, s.code t = some q → q.Obeys allowed answers := by
  induction h with
  | refl => exact Or.inr ⟨init, code⟩
  | step _ st ih =>
    rcases ih with fin | ⟨inv, obey⟩
    · cases st with
      | act _ ok => exact Or.inl ((final _ _ _ fin).1 _ _ ok)
      | halt _ hh => exact Or.inl ((final _ _ _ fin).2 _ hh)
      | start _ _ => exact Or.inl fin
    · cases st with
      | act hc ok =>
        obtain ⟨permitted, rest⟩ := obey _ _ hc
        rcases (keep _ _ _ inv permitted).1 _ _ ok with fin | ⟨inv', answer⟩
        · exact Or.inl fin
        · exact Or.inr ⟨inv', code_of_update (fun q hq => Option.some.inj hq ▸ rest _ answer)
            fun u q _ hq => obey u q hq⟩
      | halt hc hh =>
        rcases (keep _ _ _ inv (obey _ _ hc).1).2 _ hh with fin | inv'
        · exact Or.inl fin
        · exact Or.inr ⟨inv', code_of_update (fun q hq => by cases hq) fun u q _ hq => obey u q hq⟩
      | start hc admitted =>
        exact Or.inr ⟨inv, code_of_update (fun q hq => Option.some.inj hq ▸ obeys _ _ _ admitted)
          fun u q _ hq => obey u q hq⟩

section Safe
variable (m) (I : σ → Prop) (allowed : T → A → σ → Prop) (rely : T → σ → σ → Prop)

/-- A program of thread `t` that is safe if the invariant holds and the other
threads change the state as `t` relies on, and that gives both to them. -/
def SafeFor (t : T) (q : Program R P) (s : σ) : Prop :=
  q.Safe (m.perform t) (allowed t) (fun s s₁ => I s₁ ∧ rely t s s₁)
    (fun s₁ s₂ => I s₂ ∧ ∀ u, u ≠ t → rely u s₁ s₂) (fun _ _ => True) s

variable {m}

/-- **Rely and guarantee.** If every program a thread may start is safe, the
invariant holds in every interleaving and all code that is left is safe. -/
theorem invariant_of_safe (refl : ∀ t s, rely t s s)
    (trans : ∀ t a b c, rely t a b → rely t b c → rely t a c)
    (safe : ∀ t p q s, m.starts t p q → I s → m.SafeFor I allowed rely t q s)
    {s₀ s : Threads T σ R P} (h : m.Reachable s₀ s) (init : I s₀.shared)
    (code : ∀ t q, s₀.code t = some q → m.SafeFor I allowed rely t q s₀.shared) :
    I s.shared ∧ ∀ t q, s.code t = some q → m.SafeFor I allowed rely t q s.shared := by
  have move {t : T} {q : Program R P} {a b : σ} (inv : I b) (hab : rely t a b)
      (hq : m.SafeFor I allowed rely t q a) : m.SafeFor I allowed rely t q b :=
    Program.safe_of_rely (fun _ _ _ h₁ h₂ => ⟨h₂.1, trans _ _ _ _ h₁.2 h₂.2⟩)
      (fun _ _ _ _ _ => trivial) ⟨inv, hab⟩ hq
  induction h with
  | refl => exact ⟨init, code⟩
  | @step s s' _ st ih =>
    obtain ⟨inv, left⟩ := ih
    cases st with
    | @act t a next r s' hc ok =>
      obtain ⟨-, effect⟩ := left t _ hc s.shared ⟨inv, refl t _⟩
      rw [ok] at effect
      obtain ⟨⟨inv', guar⟩, rest⟩ := effect
      refine ⟨inv', code_of_update (fun q hq => Option.some.inj hq ▸ rest) ?_⟩
      intro u q hu hq
      exact move inv' (guar u hu) (left u q hq)
    | @halt t a next s' hc hh =>
      obtain ⟨-, effect⟩ := left t _ hc s.shared ⟨inv, refl t _⟩
      rw [hh] at effect
      refine ⟨effect.1, code_of_update (fun q hq => by cases hq) ?_⟩
      intro u q hu hq
      exact move effect.1 (effect.2 u hu) (left u q hq)
    | start hc admitted =>
      refine ⟨inv, code_of_update (fun q hq => ?_) fun u q _ hq => left u q hq⟩
      exact Option.some.inj hq ▸ safe _ _ _ _ admitted inv

variable {I} {allowed} {rely}

omit [DecidableEq T] in
/-- An action that a thread is about to take is allowed. -/
theorem allowed_of_safeFor (refl : ∀ t s, rely t s s) {t : T} {a : A} {next : R a → Program R P}
    {s : σ} (inv : I s) (h : m.SafeFor I allowed rely t (.act a next) s) : allowed t a s :=
  (h s ⟨inv, refl t s⟩).1

end Safe

/-! ## One thread among the others -/

section Annotated
variable (m)

/-- An action of another thread than `t`. -/
def OtherStep (t : T) (s s' : σ) : Prop :=
  ∃ u a, u ≠ t ∧ ((∃ r, m.perform u a s = .ok r s') ∨ m.perform u a s = .halt s')

/-- What the threads other than `t` can do. -/
def Others (t : T) : σ → σ → Prop := Relation.ReflTransGen (m.OtherStep t)

variable {m}

omit [DecidableEq T] in
theorem stable_of_otherStep {t : T} {K : σ → Prop} (one : ∀ s s', m.OtherStep t s s' → K s → K s')
    {s s' : σ} (moves : m.Others t s s') (hs : K s) : K s' := by
  induction moves with
  | refl => exact hs
  | tail _ step ih => exact one _ _ step ih

variable (m) in
/-- A program of thread `t` that keeps `I` among the other threads, and ends with `Q`. -/
def SafeAmong (t : T) (I : σ → Prop) {α : Type} (q : Program R α) (Q : α → σ → Prop) (s : σ) :
    Prop :=
  q.Safe (m.perform t) (fun _ _ => True) (fun s s₁ => I s₁ ∧ m.Others t s s₁) (fun _ s₂ => I s₂) Q s

/-- **One thread with assertions.** The programs of thread `t` are safe from what is
known at the points they start at to what is known at the points they end at, and
the other threads keep the invariant. Then it always holds. -/
theorem invariant_of_annotated (t : T) (I : σ → Prop) (K : P → σ → Prop)
    (others : ∀ s s', m.OtherStep t s s' → I s → I s')
    (stable : ∀ p s s', m.Others t s s' → K p s → K p s')
    (safe : ∀ p q s, m.starts t p q → I s → K p s → m.SafeAmong t I q K s)
    {s₀ s : Threads T σ R P} (h : m.Reachable s₀ s) (init : I s₀.shared)
    (code : ∀ q, s₀.code t = some q → m.SafeAmong t I q K s₀.shared) :
    I s.shared ∧ ∀ q, s.code t = some q → m.SafeAmong t I q K s.shared := by
  have moved {q : Program R P} {a b : σ} (inv : I b) (step : m.OtherStep t a b)
      (hq : m.SafeAmong t I q K a) : m.SafeAmong t I q K b :=
    Program.safe_of_rely (fun _ _ _ h₁ h₂ => ⟨h₂.1, h₁.2.trans h₂.2⟩)
      (fun p s s' move => stable p s s' move.2) ⟨inv, .single step⟩ hq
  -- a step of another thread leaves the code of `t`
  have other {s : Threads T σ R P} {s' : σ} {u : T} {o : Option (Program R P)} (away : u ≠ t)
      (step : m.OtherStep t s.shared s') (inv : I s.shared)
      (left : ∀ q, s.code t = some q → m.SafeAmong t I q K s.shared) :
      I s' ∧ ∀ q, Function.update s.code u o t = some q → m.SafeAmong t I q K s' := by
    have inv' := others _ _ step inv
    refine ⟨inv', fun q hq => ?_⟩
    rw [Function.update_of_ne (Ne.symm away)] at hq
    exact moved inv' step (left q hq)
  induction h with
  | refl => exact ⟨init, code⟩
  | @step s s' _ st ih =>
    obtain ⟨inv, left⟩ := ih
    cases st with
    | @act u a next r s' hc ok =>
      by_cases own : u = t
      · subst own
        obtain ⟨-, effect⟩ := left _ hc s.shared ⟨inv, .refl⟩
        rw [ok] at effect
        refine ⟨effect.1, fun q hq => ?_⟩
        simp only [Function.update_self, Option.some.injEq] at hq
        exact hq ▸ effect.2
      · exact other own ⟨u, a, own, Or.inl ⟨r, ok⟩⟩ inv left
    | @halt u a next s' hc hh =>
      by_cases own : u = t
      · subst own
        obtain ⟨-, effect⟩ := left _ hc s.shared ⟨inv, .refl⟩
        rw [hh] at effect
        exact ⟨effect, fun q hq => by simp at hq⟩
      · exact other own ⟨u, a, own, Or.inr hh⟩ inv left
    | @start u p q hc admitted =>
      refine ⟨inv, fun q' hq => ?_⟩
      by_cases own : u = t
      · subst own
        simp only [Function.update_self, Option.some.injEq] at hq
        exact hq ▸ safe p q _ admitted inv (left _ hc)
      · simp only [Function.update_of_ne (Ne.symm own)] at hq
        exact left q' hq

end Annotated

/-! ## Runs under a condition -/

/-- The same threads, but an action is only taken where the condition holds. -/
def restrict (m : Machine T σ R P) (ok : T → A → σ → Bool) : Machine T σ R P where
  perform t a s := if ok t a s then m.perform t a s else .blocked
  starts := m.starts

omit [DecidableEq T] in
theorem restrict_perform_of {m : Machine T σ R P} {ok : T → A → σ → Bool} {t : T} {a : A} {s : σ}
    (h : ok t a s = true) : (m.restrict ok).perform t a s = m.perform t a s := if_pos h

omit [DecidableEq T] in
theorem restrict_perform_ok {m : Machine T σ R P} {ok : T → A → σ → Bool} {t : T} {a : A} {s : σ}
    {e : Effect (R a) σ} (h : (m.restrict ok).perform t a s = e) (moves : e ≠ .blocked) :
    ok t a s = true ∧ m.perform t a s = e := by
  simp only [restrict] at h
  split at h
  · exact ⟨‹_›, h⟩
  · exact absurd h.symm moves

theorem step_of_restrict {ok : T → A → σ → Bool} {s u : Threads T σ R P}
    (h : (m.restrict ok).Step s u) : m.Step s u := by
  cases h with
  | act hc hk => exact .act hc (restrict_perform_ok hk (by simp)).2
  | halt hc hh => exact .halt hc (restrict_perform_ok hh (by simp)).2
  | start hc admitted => exact .start hc admitted

/-- A step under a condition is one under a condition that is weaker there. -/
theorem step_weaken {ok ok' : T → A → σ → Bool} {s u : Threads T σ R P}
    (weaker : ∀ t a, ok t a s.shared = true → ok' t a s.shared = true)
    (h : (m.restrict ok).Step s u) : (m.restrict ok').Step s u := by
  cases h with
  | act hc hk =>
    obtain ⟨met, effect⟩ := restrict_perform_ok hk (by simp)
    exact .act hc ((restrict_perform_of (weaker _ _ met)).trans effect)
  | halt hc hh =>
    obtain ⟨met, effect⟩ := restrict_perform_ok hh (by simp)
    exact .halt hc ((restrict_perform_of (weaker _ _ met)).trans effect)
  | start hc admitted => exact .start hc admitted

/-- A run under a condition is a run. -/
theorem reachable_of_restrict {ok : T → A → σ → Bool} {s₀ s : Threads T σ R P}
    (h : (m.restrict ok).Reachable s₀ s) : m.Reachable s₀ s := by
  induction h with
  | refl => exact .refl
  | step _ st ih => exact ih.step (step_of_restrict st)

theorem Reachable.weaken {ok ok' : T → A → σ → Bool}
    (weaker : ∀ t a s, ok t a s = true → ok' t a s = true) {s₀ s : Threads T σ R P}
    (h : (m.restrict ok).Reachable s₀ s) : (m.restrict ok').Reachable s₀ s := by
  induction h with
  | refl => exact .refl
  | step _ st ih => exact ih.step (step_weaken (fun t a => weaker t a _) st)

/-- What is known of every action that is about to be taken can be used as a
condition on the runs. -/
theorem reachable_restrict {ok : T → A → σ → Bool} {s₀ s : Threads T σ R P}
    (known : ∀ u, m.Reachable s₀ u → ∀ t a next, u.code t = some (.act a next) →
      ok t a u.shared = true) (h : m.Reachable s₀ s) : (m.restrict ok).Reachable s₀ s := by
  induction h with
  | refl => exact .refl
  | step before st ih =>
    cases st with
    | act hc hk =>
      have taken := restrict_perform_of (m := m) (known _ before _ _ _ hc)
      exact ih.step (.act hc (taken.trans hk))
    | halt hc hh =>
      have taken := restrict_perform_of (m := m) (known _ before _ _ _ hc)
      exact ih.step (.halt hc (taken.trans hh))
    | start hc admitted => exact ih.step (.start hc admitted)

/-! ## Runs under a condition on all threads -/

section
variable (m) (ok : Threads T σ R P → T → A → Prop)

/-- Reachable by actions that meet a condition, which may look at what the other
threads have left to do. -/
inductive ReachableIf (s₀ : Threads T σ R P) : Threads T σ R P → Prop where
  | refl : ReachableIf s₀ s₀
  | act {s : Threads T σ R P} {t : T} {a : A} {next : R a → Program R P} {r : R a} {s' : σ} :
      ReachableIf s₀ s → s.code t = some (.act a next) → ok s t a →
      m.perform t a s.shared = .ok r s' →
      ReachableIf s₀ ⟨s', Function.update s.code t (some (next r))⟩
  | halt {s : Threads T σ R P} {t : T} {a : A} {next : R a → Program R P} {s' : σ} :
      ReachableIf s₀ s → s.code t = some (.act a next) → ok s t a →
      m.perform t a s.shared = .halt s' → ReachableIf s₀ ⟨s', Function.update s.code t none⟩
  | start {s : Threads T σ R P} {t : T} {p : P} {q : Program R P} :
      ReachableIf s₀ s → s.code t = some (.ret p) → m.starts t p q →
      ReachableIf s₀ ⟨s.shared, Function.update s.code t (some q)⟩

variable {m} {ok}

theorem reachable_of_reachableIf {s₀ s : Threads T σ R P} (h : m.ReachableIf ok s₀ s) :
    m.Reachable s₀ s := by
  induction h with
  | refl => exact .refl
  | act _ code _ effect ih => exact ih.step (.act code effect)
  | halt _ code _ effect ih => exact ih.step (.halt code effect)
  | start _ code admitted ih => exact ih.step (.start code admitted)

/-- A thread goes on for `n` actions while the others stand. -/
theorem ReachableIf.advance {t : T} {n : Nat} {q q' : Program R P} {s₀ s : Threads T σ R P}
    {s' : σ} (reached : m.ReachableIf ok s₀ s)
    (free : ∀ u a, (∀ v, v ≠ t → u.code v = s.code v) → ok u t a) (code : s.code t = some q)
    (run : q.advance (m.perform t) n s.shared = some (q', s')) :
    m.ReachableIf ok s₀ ⟨s', Function.update s.code t (some q')⟩ := by
  induction n generalizing q s with
  | zero =>
    cases run
    rw [← code, Function.update_eq_self]
    exact reached
  | succ n ih =>
    cases q with
    | ret p => cases run
    | act a next =>
      simp only [Program.advance] at run
      cases h : m.perform t a s.shared with
      | ok r s₁ =>
        rw [h] at run
        have first := ReachableIf.act reached code (free s a fun _ _ => rfl) h
        have stands (u : Threads T σ R P) (a : A)
            (same : ∀ v, v ≠ t → u.code v = Function.update s.code t (some (next r)) v) :
            ok u t a := by
          refine free u a fun v other => ?_
          rw [same v other, Function.update_of_ne other]
        have rest := ih first stands (Function.update_self ..) run
        simp only [Function.update_idem] at rest
        exact rest
      | halt s₁ => simp [h] at run
      | blocked => simp [h] at run

end

/-- A program run to its end without interruption is one of the interleavings. -/
theorem steps_of_done {t : T} {q : Program R P} {s : Threads T σ R P} {p : P} {s' : σ}
    (code : s.code t = some q) (run : q.exec (m.perform t) s.shared = .done p s') :
    m.Reachable s ⟨s', Function.update s.code t (some (.ret p))⟩ := by
  induction q generalizing s with
  | ret p =>
    cases run
    have same : Function.update s.code t (some (.ret p)) = s.code := by
      rw [← code, Function.update_eq_self]
    rw [same]
    exact .refl
  | act a next ih =>
    simp only [Program.exec] at run
    cases h : m.perform t a s.shared with
    | ok r s₁ =>
      simp only [h] at run
      have first : m.Step s ⟨s₁, Function.update s.code t (some (next r))⟩ := .act code h
      have rest := ih r (s := ⟨s₁, Function.update s.code t (some (next r))⟩) (by simp) run
      simp only [Function.update_idem] at rest
      exact (Reachable.step .refl first).trans rest
    | halt s₁ => simp [h] at run
    | blocked => simp [h] at run

theorem steps_of_advance {t : T} {n : Nat} {q q' : Program R P} {s : Threads T σ R P} {s' : σ}
    (code : s.code t = some q) (run : q.advance (m.perform t) n s.shared = some (q', s')) :
    m.Reachable s ⟨s', Function.update s.code t (some q')⟩ := by
  have free : m.ReachableIf (fun _ _ _ => True) s ⟨s', Function.update s.code t (some q')⟩ :=
    ReachableIf.refl.advance (fun _ _ _ => trivial) code run
  exact reachable_of_reachableIf free

theorem steps_of_halted {t : T} {q : Program R P} {s : Threads T σ R P} {s' : σ}
    (code : s.code t = some q) (run : q.exec (m.perform t) s.shared = .halted s') :
    ∃ o, m.Reachable s ⟨s', Function.update s.code t o⟩ := by
  induction q generalizing s with
  | ret p => cases run
  | act a next ih =>
    simp only [Program.exec] at run
    cases h : m.perform t a s.shared with
    | ok r s₁ =>
      simp only [h] at run
      have first : m.Step s ⟨s₁, Function.update s.code t (some (next r))⟩ := .act code h
      obtain ⟨o, rest⟩ :=
        ih r (s := ⟨s₁, Function.update s.code t (some (next r))⟩) (by simp) run
      simp only [Function.update_idem] at rest
      exact ⟨o, (Reachable.step .refl first).trans rest⟩
    | halt s₁ =>
      simp only [h, Outcome.halted.injEq] at run
      subst run
      exact ⟨none, .step .refl (.halt code h)⟩
    | blocked =>
      simp only [h, Outcome.halted.injEq] at run
      subst run
      refine ⟨some (.act a next), ?_⟩
      rw [← code, Function.update_eq_self]
      exact .refl

end Machine

/-! ## Passes taken at once -/

/-- Threads that only stop between programs: each is at a point, or ended. -/
structure Passes (T σ P : Type) where
  shared : σ
  point : T → Option P

namespace Machine
variable {T σ A P : Type} {R : A → Type} [DecidableEq T] (m : Machine T σ R P)

/-- One thread runs one program to its end. -/
inductive Pass : Passes T σ P → Passes T σ P → Prop where
  | done {s : Passes T σ P} {t : T} {p p' : P} {q : Program R P} {s' : σ}
      (point : s.point t = some p) (admitted : m.starts t p q)
      (run : q.exec (m.perform t) s.shared = .done p' s') :
      Pass s ⟨s', Function.update s.point t (some p')⟩
  | halted {s : Passes T σ P} {t : T} {p : P} {q : Program R P} {s' : σ}
      (point : s.point t = some p) (admitted : m.starts t p q)
      (run : q.exec (m.perform t) s.shared = .halted s') :
      Pass s ⟨s', Function.update s.point t none⟩

inductive Passed (s₀ : Passes T σ P) : Passes T σ P → Prop where
  | refl : Passed s₀ s₀
  | step {s s' : Passes T σ P} : Passed s₀ s → m.Pass s s' → Passed s₀ s'

variable {m}

/-- An invariant that every program keeps holds between the passes. -/
theorem invariant_of_keeps (I : σ → Prop)
    (keeps : ∀ t p q, m.starts t p q → q.Keeps (m.perform t) I) {s₀ s : Passes T σ P}
    (h : m.Passed s₀ s) (init : I s₀.shared) : I s.shared := by
  induction h with
  | refl => exact init
  | step _ pass ih =>
    cases pass with
    | done _ admitted run =>
      have kept := keeps _ _ _ admitted _ ih
      rw [run] at kept
      exact kept
    | halted _ admitted run =>
      have kept := keeps _ _ _ admitted _ ih
      rw [run] at kept
      exact kept

section PassedIf
variable (m) (ok : σ → Program R P → Prop)

/-- Runs in which every program that is taken up meets a condition. -/
inductive PassedIf (s₀ : Passes T σ P) : Passes T σ P → Prop where
  | refl : PassedIf s₀ s₀
  | done {s : Passes T σ P} {t : T} {p p' : P} {q : Program R P} {s' : σ}
      (before : PassedIf s₀ s) (point : s.point t = some p) (admitted : m.starts t p q)
      (fine : ok s.shared q) (run : q.exec (m.perform t) s.shared = .done p' s') :
      PassedIf s₀ ⟨s', Function.update s.point t (some p')⟩
  | halted {s : Passes T σ P} {t : T} {p : P} {q : Program R P} {s' : σ}
      (before : PassedIf s₀ s) (point : s.point t = some p) (admitted : m.starts t p q)
      (fine : ok s.shared q) (run : q.exec (m.perform t) s.shared = .halted s') :
      PassedIf s₀ ⟨s', Function.update s.point t none⟩

variable {m ok}

/-- An invariant that the programs keep under the condition holds between the passes. -/
theorem invariant_of_passedIf (I : σ → Prop)
    (keeps : ∀ t p q s, m.starts t p q → ok s q → I s → I (q.exec (m.perform t) s).state)
    {s₀ s : Passes T σ P} (h : m.PassedIf ok s₀ s) (init : I s₀.shared) : I s.shared := by
  induction h with
  | refl => exact init
  | done _ _ admitted fine run ih =>
    have kept := keeps _ _ _ _ admitted fine ih
    rw [run] at kept
    exact kept
  | halted _ _ admitted fine run ih =>
    have kept := keeps _ _ _ _ admitted fine ih
    rw [run] at kept
    exact kept

end PassedIf

/-- Interleaved threads that are idle exactly where the passes are. -/
def Matches (s : Passes T σ P) (u : Threads T σ R P) : Prop :=
  u.shared = s.shared ∧ ∀ t p, s.point t = some p → u.code t = some (.ret p)

theorem matches_update {s : Passes T σ P} {u : Threads T σ R P} (h : Matches s u) {t : T}
    {s' : σ} {op : Option P} {oq : Option (Program R P)}
    (idle : ∀ p, op = some p → oq = some (.ret p)) :
    Matches (R := R) ⟨s', Function.update s.point t op⟩ ⟨s', Function.update u.code t oq⟩ := by
  refine ⟨rfl, fun v p hp => ?_⟩
  by_cases hv : v = t
  · subst hv
    simp only [Function.update_self] at hp ⊢
    exact idle p hp
  · simp only [Function.update_of_ne hv] at hp ⊢
    exact h.2 v p hp

theorem steps_of_pass {s s' : Passes T σ P} (h : m.Pass s s') {u : Threads T σ R P}
    (hu : Matches s u) : ∃ u', m.Reachable u u' ∧ Matches s' u' := by
  cases h with
  | @done t p p' q s' point admitted run =>
    have start : m.Reachable u ⟨u.shared, Function.update u.code t (some q)⟩ :=
      .step .refl (.start (hu.2 t p point) admitted)
    have rest := steps_of_done (s := ⟨u.shared, Function.update u.code t (some q)⟩)
      (Function.update_self ..) (hu.1 ▸ run)
    simp only [Function.update_idem] at rest
    exact ⟨_, start.trans rest, matches_update hu fun p hp => by cases hp; rfl⟩
  | @halted t p q s' point admitted run =>
    have start : m.Reachable u ⟨u.shared, Function.update u.code t (some q)⟩ :=
      .step .refl (.start (hu.2 t p point) admitted)
    obtain ⟨o, rest⟩ := steps_of_halted (s := ⟨u.shared, Function.update u.code t (some q)⟩)
      (Function.update_self ..) (hu.1 ▸ run)
    simp only [Function.update_idem] at rest
    exact ⟨_, start.trans rest, matches_update hu fun p hp => by cases hp⟩

theorem steps_of_passed {s₀ s : Passes T σ P} (h : m.Passed s₀ s) {u₀ : Threads T σ R P}
    (hu : Matches s₀ u₀) : ∃ u, m.Reachable u₀ u ∧ Matches s u := by
  induction h with
  | refl => exact ⟨u₀, .refl, hu⟩
  | step _ pass ih =>
    obtain ⟨u, reach, hm⟩ := ih
    obtain ⟨u', reach', hm'⟩ := steps_of_pass pass hm
    exact ⟨u', reach.trans reach', hm'⟩

end Machine

end Ipk24Chat
