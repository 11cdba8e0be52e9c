import Mathlib.Logic.Basic

/-!
# Programs over atomic actions

A thread is a tree of atomic actions: each action has a type of answers, and
what the thread does next depends on the answer. The same tree is read in two
ways: `exec` runs it to its end with nothing in between, and the threads of
`Threads` take its actions one at a time.

* `exec_bind`: running a sequence runs its parts one after the other;
* `Obeys`: on every path, each action is allowed, for all answers that can come;
* `exec_keeps`: allowed actions keep an invariant, so a whole run does;
* `Keeps`: a program keeps an invariant from its first to its last state, for
  invariants that do not hold in between;
* `Leads`: what holds behind a program, by what holds before it;
* `Compositional`: what is proved along the structure of programs, for `Obeys`,
  `Keeps` and the like at once;
* `monitored`, `Heeds`: a program under a monitor that follows its actions, for
  disciplines about their order;
* `actions`: what a run does, in its order;
* `Safe`: what a program does among other threads, if these only change the
  state as it relies on.
-/

namespace Ipk24Chat

inductive Program {A : Type} (R : A → Type) (α : Type) where
  | ret (value : α)
  | act (action : A) (next : R action → Program R α)

/-- What an atomic action does to the state: it answers, or the thread ends
there, or the action cannot be taken now. -/
inductive Effect (β σ : Type) where
  | ok (answer : β) (state : σ)
  | halt (state : σ)
  | blocked

inductive Outcome (α σ : Type) where
  | done (value : α) (state : σ)
  | halted (state : σ)

namespace Outcome
variable {α β σ : Type}

def state : Outcome α σ → σ
  | .done _ s => s
  | .halted s => s

def bind (o : Outcome α σ) (f : α → σ → Outcome β σ) : Outcome β σ :=
  match o with
  | .done a s => f a s
  | .halted s => .halted s

@[simp] theorem bind_done (a : α) (s : σ) (f : α → σ → Outcome β σ) :
    (Outcome.done a s).bind f = f a s := rfl

@[simp] theorem bind_halted (s : σ) (f : α → σ → Outcome β σ) :
    (Outcome.halted s : Outcome α σ).bind f = .halted s := rfl

@[simp] theorem state_done (a : α) (s : σ) : (Outcome.done a s).state = s := rfl

@[simp] theorem state_halted (s : σ) : (Outcome.halted s : Outcome α σ).state = s := rfl

end Outcome

namespace Program
variable {A : Type} {R : A → Type} {α β σ : Type}

def bind (p : Program R α) (f : α → Program R β) : Program R β :=
  match p with
  | .ret a => f a
  | .act a next => .act a fun r => (next r).bind f

instance : Monad (Program R) where
  pure := .ret
  bind := bind

/-- The program that takes one action and returns its answer. -/
def perform (a : A) : Program R (R a) := .act a .ret

@[simp] theorem pure_eq (a : α) : (pure a : Program R α) = .ret a := rfl

@[simp] theorem ret_bind (a : α) (f : α → Program R β) : (.ret a : Program R α) >>= f = f a := rfl

@[simp] theorem act_bind (a : A) (next : R a → Program R α) (f : α → Program R β) :
    (.act a next : Program R α) >>= f = .act a fun r => next r >>= f := rfl

theorem bind_assoc {γ : Type} (p : Program R α) (f : α → Program R β) (g : β → Program R γ) :
    p >>= f >>= g = p >>= fun a => f a >>= g := by
  induction p with
  | ret a => rfl
  | act a next ih =>
    simp only [act_bind]
    congr 1
    funext r
    exact ih r

/-- Runs the program with no other thread in between. A blocked action stops
it: nobody is there to unblock it. -/
def exec (m : (a : A) → σ → Effect (R a) σ) : Program R α → σ → Outcome α σ
  | .ret a, s => .done a s
  | .act a next, s =>
    match m a s with
    | .ok r s' => (next r).exec m s'
    | .halt s' => .halted s'
    | .blocked => .halted s

section exec
variable (m : (a : A) → σ → Effect (R a) σ)

@[simp] theorem exec_ret (a : α) (s : σ) : (.ret a : Program R α).exec m s = .done a s := rfl

theorem exec_bind (p : Program R α) (f : α → Program R β) (s : σ) :
    (p >>= f).exec m s = (p.exec m s).bind fun a s' => (f a).exec m s' := by
  induction p generalizing s with
  | ret a => rfl
  | act a next ih =>
    rw [act_bind]
    simp only [exec]
    cases m a s with
    | ok r s' => exact ih r s'
    | halt s' => rfl
    | blocked => rfl

theorem exec_perform (a : A) (s : σ) :
    (perform a : Program R (R a)).exec m s =
      match m a s with
      | .ok r s' => .done r s'
      | .halt s' => .halted s'
      | .blocked => .halted s := by
  simp only [perform, exec]

end exec

/-- The program and the state after `n` actions. -/
def advance (m : (a : A) → σ → Effect (R a) σ) :
    Nat → Program R α → σ → Option (Program R α × σ)
  | 0, p, s => some (p, s)
  | _ + 1, .ret _, _ => none
  | n + 1, .act a next, s =>
    match m a s with
    | .ok r s' => (next r).advance m n s'
    | _ => none

section advance
variable {m : (a : A) → σ → Effect (R a) σ} {p q : Program R α} {s s' : σ} {n : Nat}

theorem exec_advance (h : p.advance m n s = some (q, s')) : p.exec m s = q.exec m s' := by
  induction n generalizing p s with
  | zero =>
    cases h
    rfl
  | succ n ih =>
    cases p with
    | ret a => cases h
    | act a next =>
      simp only [advance] at h
      simp only [exec]
      cases effect : m a s with
      | ok r s₁ =>
        rw [effect] at h
        exact ih h
      | halt s₁ => simp [effect] at h
      | blocked => simp [effect] at h

theorem advance_add (h : p.advance m n s = some (q, s')) (k : Nat) :
    p.advance m (n + k) s = q.advance m k s' := by
  induction n generalizing p s with
  | zero =>
    cases h
    rw [Nat.zero_add]
  | succ n ih =>
    cases p with
    | ret a => cases h
    | act a next =>
      rw [Nat.succ_add]
      simp only [advance] at h ⊢
      cases effect : m a s with
      | ok r s₁ =>
        rw [effect] at h
        exact ih h
      | halt s₁ => simp [effect] at h
      | blocked => simp [effect] at h

theorem advance_bind (h : p.advance m n s = some (q, s')) (f : α → Program R β) :
    (p >>= f).advance m n s = some (q >>= f, s') := by
  induction n generalizing p s with
  | zero =>
    cases h
    rfl
  | succ n ih =>
    cases p with
    | ret a => cases h
    | act a next =>
      rw [act_bind]
      simp only [advance] at h ⊢
      cases effect : m a s with
      | ok r s₁ =>
        rw [effect] at h
        exact ih h
      | halt s₁ => simp [effect] at h
      | blocked => simp [effect] at h

/-- A program that ends is advanced to its value. -/
theorem advance_of_done {a : α} (h : p.exec m s = .done a s') :
    ∃ n, p.advance m n s = some (.ret a, s') := by
  induction p generalizing s with
  | ret b =>
    cases h
    exact ⟨0, rfl⟩
  | act b next ih =>
    simp only [exec] at h
    cases effect : m b s with
    | ok r s₁ =>
      rw [effect] at h
      obtain ⟨n, rest⟩ := ih r h
      exact ⟨n + 1, by simpa only [advance, effect] using rest⟩
    | halt s₁ => simp [effect] at h
    | blocked => simp [effect] at h

end advance

/-- On every path of the program the actions are `allowed`, as long as the
answers are ones that `answers` admits. -/
def Obeys (allowed : A → Prop) (answers : (a : A) → R a → Prop) : Program R α → Prop
  | .ret _ => True
  | .act a next => allowed a ∧ ∀ r, answers a r → (next r).Obeys allowed answers

section Obeys
variable {allowed : A → Prop} {answers : (a : A) → R a → Prop}

@[simp] theorem obeys_ret (a : α) : (.ret a : Program R α).Obeys allowed answers := trivial

theorem obeys_bind {p : Program R α} {f : α → Program R β} (hp : p.Obeys allowed answers)
    (hf : ∀ a, (f a).Obeys allowed answers) : (p >>= f).Obeys allowed answers := by
  induction p with
  | ret a => exact hf a
  | act a next ih => exact ⟨hp.1, fun r hr => ih r (hp.2 r hr)⟩

/-- A run depends on the effects of allowed actions alone. -/
theorem exec_congr {m m' : (a : A) → σ → Effect (R a) σ} {p : Program R α}
    (hp : p.Obeys allowed fun _ _ => True) (same : ∀ a s, allowed a → m' a s = m a s) (s : σ) :
    p.exec m' s = p.exec m s := by
  induction p generalizing s with
  | ret a => rfl
  | act a next ih =>
    simp only [exec, same a s hp.1]
    cases m a s with
    | ok r s' => exact ih r (hp.2 r trivial) s'
    | halt s' => rfl
    | blocked => rfl

/-- What is left of a program on its way takes allowed actions as well. -/
theorem obeys_advance {m : (a : A) → σ → Effect (R a) σ} {p q : Program R α} {n : Nat} {s s' : σ}
    (hp : p.Obeys allowed fun _ _ => True) (run : p.advance m n s = some (q, s')) :
    q.Obeys allowed fun _ _ => True := by
  induction n generalizing p s with
  | zero =>
    cases run
    exact hp
  | succ n ih =>
    cases p with
    | ret a => cases run
    | act a next =>
      simp only [advance] at run
      cases effect : m a s with
      | ok r s₁ =>
        rw [effect] at run
        exact ih (hp.2 r trivial) run
      | halt s₁ => simp [effect] at run
      | blocked => simp [effect] at run

/-- The values the program can return, as long as the answers are admitted. -/
def Results (answers : (a : A) → R a → Prop) (Q : α → Prop) : Program R α → Prop
  | .ret a => Q a
  | .act a next => ∀ r, answers a r → (next r).Results answers Q

theorem obeys_bind_of_results {p : Program R α} {f : α → Program R β} {Q : α → Prop}
    (hp : p.Obeys allowed answers) (hr : p.Results answers Q)
    (hf : ∀ a, Q a → (f a).Obeys allowed answers) : (p >>= f).Obeys allowed answers := by
  induction p with
  | ret a => exact hf a hr
  | act a next ih => exact ⟨hp.1, fun r admitted => ih r (hp.2 r admitted) (hr r admitted)⟩

theorem results_bind {p : Program R α} {f : α → Program R β} {Q : β → Prop}
    (hf : ∀ a, (f a).Results answers Q) : (p >>= f).Results answers Q := by
  induction p with
  | ret a => exact hf a
  | act a next ih => exact fun r _ => ih r

theorem results_mono {p : Program R α} {Q Q' : α → Prop} (hp : p.Results answers Q)
    (weaker : ∀ a, Q a → Q' a) : p.Results answers Q' := by
  induction p with
  | ret a => exact weaker a hp
  | act a next ih => exact fun r admitted => ih r (hp r admitted)

theorem results_and {p : Program R α} {Q Q' : α → Prop} (hp : p.Results answers Q)
    (hp' : p.Results answers Q') : p.Results answers fun a => Q a ∧ Q' a := by
  induction p with
  | ret a => exact ⟨hp, hp'⟩
  | act a next ih => exact fun r admitted => ih r (hp r admitted) (hp' r admitted)

theorem results_bind_of_results {p : Program R α} {f : α → Program R β} {Q : α → Prop}
    {Q' : β → Prop} (hp : p.Results answers Q) (hf : ∀ a, Q a → (f a).Results answers Q') :
    (p >>= f).Results answers Q' := by
  induction p with
  | ret a => exact hf a hp
  | act a next ih => exact fun r admitted => ih r (hp r admitted)

/-- If the actions keep `I` and give admitted answers, a whole run keeps `I`. -/
theorem exec_keeps {m : (a : A) → σ → Effect (R a) σ} {I : σ → Prop}
    (step : ∀ a s, I s → allowed a →
      (∀ r s', m a s = .ok r s' → I s' ∧ answers a r) ∧ ∀ s', m a s = .halt s' → I s')
    {p : Program R α} (hp : p.Obeys allowed answers) {s : σ} (hs : I s) :
    I (p.exec m s).state := by
  induction p generalizing s with
  | ret a => exact hs
  | act a next ih =>
    obtain ⟨ok, halt⟩ := step a s hs hp.1
    simp only [exec]
    cases h : m a s with
    | ok r s' =>
      obtain ⟨keep, answer⟩ := ok r s' h
      exact ih r (hp.2 r answer) keep
    | halt s' => exact halt s' h
    | blocked => exact hs

end Obeys

/-! ## Properties that follow the program -/

/-- A property of programs that holds if it holds of their parts: of allowed
actions followed by a program with the property for each admitted answer, and of
a program followed by one with the property for each result. -/
structure Compositional (allowed : A → Prop) (answers : (a : A) → R a → Prop)
    (G : {α : Type} → Program R α → Prop) : Prop where
  ret : ∀ {α : Type} (a : α), G (.ret a)
  act : ∀ {α : Type} {a : A} {next : R a → Program R α}, allowed a →
    (∀ r, answers a r → G (next r)) → G (.act a next)
  bind_of_results : ∀ {α β : Type} {p : Program R α} {f : α → Program R β} {Q : α → Prop}, G p →
    p.Results answers Q → (∀ a, Q a → G (f a)) → G (p >>= f)

section Compositional
variable {allowed : A → Prop} {answers : (a : A) → R a → Prop}

theorem results_true (p : Program R α) : p.Results answers fun _ => True := by
  induction p with
  | ret a => trivial
  | act a next ih => exact fun r _ => ih r

namespace Compositional
variable {G : {α : Type} → Program R α → Prop} (rules : Compositional allowed answers G)
include rules

theorem bind {p : Program R α} {f : α → Program R β} (hp : G p) (hf : ∀ a, G (f a)) :
    G (p >>= f) :=
  rules.bind_of_results hp (results_true p) fun a _ => hf a

theorem perform_bind {a : A} {f : R a → Program R α} (ok : allowed a)
    (rest : ∀ r, answers a r → G (f r)) : G (perform a >>= f) := rules.act ok rest

theorem performed {a : A} (ok : allowed a) : G (perform a : Program R (R a)) :=
  rules.act ok fun r _ => rules.ret r

end Compositional

theorem compositional_obeys :
    Compositional allowed answers fun {α} (p : Program R α) => p.Obeys allowed answers where
  ret _ := trivial
  act ok rest := ⟨ok, rest⟩
  bind_of_results := obeys_bind_of_results

end Compositional

/-! ## Invariants of whole runs -/

/-- Whenever the program is run from a state with `I`, it ends in one. -/
def Keeps (m : (a : A) → σ → Effect (R a) σ) (I : σ → Prop) (p : Program R α) : Prop :=
  ∀ s, I s → I (p.exec m s).state

section Keeps
variable {m : (a : A) → σ → Effect (R a) σ} {I : σ → Prop}

theorem keeps_and {J : σ → Prop} {p : Program R α} (hI : p.Keeps m I) (hJ : p.Keeps m J) :
    p.Keeps m fun s => I s ∧ J s :=
  fun s hs => ⟨hI s hs.1, hJ s hs.2⟩

/-- The value a run ends with is one that the program can return. -/
theorem exec_results {answers : (a : A) → R a → Prop}
    (answered : ∀ a s r s', m a s = .ok r s' → answers a r) {p : Program R α} {Q : α → Prop}
    (results : p.Results answers Q) {s s' : σ} {a : α} (run : p.exec m s = .done a s') : Q a := by
  induction p generalizing s with
  | ret b =>
    cases run
    exact results
  | act b next ih =>
    simp only [exec] at run
    cases effect : m b s with
    | ok r s₁ =>
      rw [effect] at run
      exact ih r (results r (answered b s r s₁ effect)) run
    | halt s₁ => simp [effect] at run
    | blocked => simp [effect] at run

/-- An invariant that the allowed actions keep is one to follow programs with. -/
theorem compositional_keeps {allowed : A → Prop} {answers : (a : A) → R a → Prop}
    (answered : ∀ a s r s', m a s = .ok r s' → answers a r)
    (step : ∀ a s, I s → allowed a →
      (∀ r s', m a s = .ok r s' → I s') ∧ ∀ s', m a s = .halt s' → I s') :
    Compositional allowed answers fun {α} (p : Program R α) => p.Keeps m I where
  ret _ := fun _ hs => hs
  act := by
    intro α a next ok rest s hs
    obtain ⟨kept, halted⟩ := step a s hs ok
    simp only [exec]
    cases effect : m a s with
    | ok r s' => exact rest r (answered a s r s' effect) s' (kept r s' effect)
    | halt s' => exact halted s' effect
    | blocked => exact hs
  bind_of_results := by
    intro α β p f Q hp results hf s hs
    rw [exec_bind]
    have first := hp s hs
    cases run : p.exec m s with
    | done a s' =>
      rw [run] at first
      exact hf a (exec_results answered results run) s' first
    | halted s' =>
      rw [run] at first
      exact first

end Keeps

/-- From a state with `P` the program is run to a value and a state with `Q`, or
it ends on its way in a state with `H`. -/
def Leads (m : (a : A) → σ → Effect (R a) σ) (H P : σ → Prop) (p : Program R α)
    (Q : α → σ → Prop) : Prop :=
  ∀ s, P s →
    match p.exec m s with
    | .done a s' => Q a s'
    | .halted s' => H s'

section Leads
variable {m : (a : A) → σ → Effect (R a) σ} {H P : σ → Prop}

theorem leads_ret {a : α} {Q : α → σ → Prop} (h : ∀ s, P s → Q a s) :
    Leads m H P (.ret a : Program R α) Q := h

/-- The rule for one action. A blocked action ends the program where it stands. -/
theorem leads_act {a : A} {next : R a → Program R α} (mid : R a → σ → Prop) {Q : α → σ → Prop}
    (step : ∀ s, P s → (∀ r s', m a s = .ok r s' → mid r s') ∧
      (∀ s', m a s = .halt s' → H s') ∧ (m a s = .blocked → H s))
    (rest : ∀ r, Leads m H (mid r) (next r) Q) : Leads m H P (.act a next) Q := by
  intro s hs
  obtain ⟨ok, halt, blocked⟩ := step s hs
  simp only [exec]
  cases effect : m a s with
  | ok r s' => exact rest r s' (ok r s' effect)
  | halt s' => exact halt s' effect
  | blocked => exact blocked effect

theorem leads_bind {p : Program R α} {f : α → Program R β} {mid : α → σ → Prop}
    {Q : β → σ → Prop} (hp : Leads m H P p mid) (hf : ∀ a, Leads m H (mid a) (f a) Q) :
    Leads m H P (p >>= f) Q := by
  intro s hs
  have first := hp s hs
  rw [exec_bind]
  cases run : p.exec m s with
  | done a s' =>
    rw [run] at first
    exact hf a s' first
  | halted s' =>
    rw [run] at first
    exact first

theorem leads_of_keeps {p : Program R α} (h : p.Keeps m P) : Leads m P P p fun _ => P := by
  intro s hs
  have kept := h s hs
  cases run : p.exec m s <;> rw [run] at kept <;> exact kept

theorem keeps_of_leads {p : Program R α} (h : Leads m P P p fun _ => P) : p.Keeps m P := by
  intro s hs
  have led := h s hs
  cases run : p.exec m s <;> rw [run] at led <;> exact led

/-- A program that never returns leads to anything. -/
theorem leads_of_never {p : Program R α} {Q : α → σ → Prop} (h : p.Keeps m P)
    (never : p.Results (fun _ _ => True) fun _ => False) : Leads m P P p Q := by
  intro s hs
  have kept := h s hs
  cases run : p.exec m s with
  | done a s' => exact (exec_results (fun _ _ _ _ _ => trivial) never run).elim
  | halted s' =>
    rw [run] at kept
    exact kept

theorem leads_mono {H' P' : σ → Prop} {p : Program R α} {Q Q' : α → σ → Prop}
    (h : Leads m H P p Q) (before : ∀ s, P' s → P s) (after : ∀ a s, Q a s → Q' a s)
    (ended : ∀ s, H s → H' s) : Leads m H' P' p Q' := by
  intro s hs
  have led := h s (before s hs)
  cases run : p.exec m s <;> rw [run] at led
  · exact after _ _ led
  · exact ended _ led

end Leads

/-! ## Programs under a monitor -/

/-- Runs the program with no other thread in between, under a monitor that follows its
actions: where the monitor stands at the end, the value and the state. It is `none` if
the monitor refuses an action or the program does not end. -/
def monitored {μ : Type} (m : (a : A) → σ → Effect (R a) σ) (watch : A → μ → Option μ) :
    μ → Program R α → σ → Option (μ × α × σ)
  | seen, .ret a, s => some (seen, a, s)
  | seen, .act a next, s =>
    match watch a seen, m a s with
    | some seen', .ok r s' => (next r).monitored m watch seen' s'
    | _, _ => none

/-- On every path of the program on which it returns, the monitor follows its actions and
ends with `Q`. -/
def Heeds {μ : Type} (watch : A → μ → Option μ) (Q : α → μ → Prop) : μ → Program R α → Prop
  | seen, .ret a => Q a seen
  | seen, .act a next =>
    (Program.act a next).Results (fun _ _ => True) (fun _ => False) ∨
      ∃ seen', watch a seen = some seen' ∧ ∀ r, (next r).Heeds watch Q seen'

section monitored
variable {μ : Type} {m : (a : A) → σ → Effect (R a) σ} {watch : A → μ → Option μ}

theorem monitored_bind (p : Program R α) (f : α → Program R β) (seen : μ) (s : σ) :
    (p >>= f).monitored m watch seen s =
      (p.monitored m watch seen s).bind fun r => (f r.2.1).monitored m watch r.1 r.2.2 := by
  induction p generalizing seen s with
  | ret a => rfl
  | act a next ih =>
    rw [act_bind]
    simp only [monitored]
    cases watch a seen with
    | none => rfl
    | some seen' =>
      cases m a s with
      | ok r s' => exact ih r seen' s'
      | halt s' => rfl
      | blocked => rfl

/-- The monitor looks on and changes nothing. -/
theorem exec_of_monitored {p : Program R α} {seen seen' : μ} {s s' : σ} {a : α}
    (h : p.monitored m watch seen s = some (seen', a, s')) : p.exec m s = .done a s' := by
  induction p generalizing seen s with
  | ret b =>
    cases h
    rfl
  | act b next ih =>
    simp only [monitored] at h
    split at h
    · rename_i effect
      simp only [exec, effect]
      exact ih _ h
    · cases h

/-- A program that heeds the monitor is refused by it only if it does not end. -/
theorem monitored_of_heeds {p : Program R α} {Q : α → μ → Prop} {seen : μ} {s s' : σ} {a : α}
    (h : p.Heeds watch Q seen) (run : p.exec m s = .done a s') :
    ∃ seen', p.monitored m watch seen s = some (seen', a, s') ∧ Q a seen' := by
  induction p generalizing seen s with
  | ret b =>
    cases run
    exact ⟨seen, rfl, h⟩
  | act b next ih =>
    rcases h with never | ⟨seen', follows, rest⟩
    · exact (exec_results (fun _ _ _ _ _ => trivial) never run).elim
    · simp only [exec] at run
      simp only [monitored, follows]
      cases effect : m b s with
      | ok r s₁ =>
        rw [effect] at run
        exact ih r (rest r) run
      | halt s₁ => simp [effect] at run
      | blocked => simp [effect] at run

theorem heeds_act {a : A} {next : R a → Program R α} {Q : α → μ → Prop} {seen seen' : μ}
    (follows : watch a seen = some seen') (rest : ∀ r, (next r).Heeds watch Q seen') :
    (Program.act a next).Heeds watch Q seen := Or.inr ⟨seen', follows, rest⟩

theorem heeds_bind {p : Program R α} {f : α → Program R β} {Q : α → μ → Prop}
    {Q' : β → μ → Prop} {seen : μ} (hp : p.Heeds watch Q seen)
    (hf : ∀ a seen', Q a seen' → (f a).Heeds watch Q' seen') :
    (p >>= f).Heeds watch Q' seen := by
  induction p generalizing seen with
  | ret a => exact hf a seen hp
  | act a next ih =>
    rcases hp with never | ⟨seen', follows, rest⟩
    · left
      intro r _
      exact results_bind_of_results (never r trivial) fun _ none => none.elim
    · exact Or.inr ⟨seen', follows, fun r => ih r (rest r)⟩

theorem heeds_of_results {p : Program R α} {Q : α → μ → Prop} {seen : μ}
    (never : p.Results (fun _ _ => True) fun _ => False) : p.Heeds watch Q seen := by
  cases p with
  | ret a => exact never.elim
  | act a next => exact Or.inl never

end monitored

/-! ## The actions of a run -/

/-- The actions a run takes when no other thread moves in between, whether it ends or not. -/
def actions (m : (a : A) → σ → Effect (R a) σ) : Program R α → σ → List A
  | .ret _, _ => []
  | .act a next, s =>
    match m a s with
    | .ok r s' => a :: (next r).actions m s'
    | .halt _ => [a]
    | .blocked => []

section actions
variable {m : (a : A) → σ → Effect (R a) σ}

@[simp] theorem actions_ret (a : α) (s : σ) : (.ret a : Program R α).actions m s = [] := rfl

theorem actions_bind_done {p : Program R α} {s s' : σ} {a : α} (run : p.exec m s = .done a s')
    (f : α → Program R β) : (p >>= f).actions m s = p.actions m s ++ (f a).actions m s' := by
  induction p generalizing s with
  | ret b =>
    cases run
    rfl
  | act b next ih =>
    rw [act_bind]
    simp only [exec] at run
    simp only [actions]
    cases effect : m b s with
    | ok r s₁ =>
      rw [effect] at run
      exact congrArg (b :: ·) (ih r run)
    | halt s₁ => simp [effect] at run
    | blocked => simp [effect] at run

/-- Behind a program that does not return nothing is done. -/
theorem actions_bind_halted {p : Program R α} {s s' : σ} (run : p.exec m s = .halted s')
    (f : α → Program R β) : (p >>= f).actions m s = p.actions m s := by
  induction p generalizing s with
  | ret b => cases run
  | act b next ih =>
    rw [act_bind]
    simp only [exec] at run
    simp only [actions]
    cases effect : m b s with
    | ok r s₁ =>
      rw [effect] at run
      exact congrArg (b :: ·) (ih r run)
    | halt s₁ => rfl
    | blocked => rfl

/-- A run takes allowed actions only. -/
theorem actions_obey {allowed : A → Prop} {p : Program R α}
    (h : p.Obeys allowed fun _ _ => True) (s : σ) : ∀ a ∈ p.actions m s, allowed a := by
  induction p generalizing s with
  | ret b => nofun
  | act b next ih =>
    simp only [actions]
    cases m b s with
    | ok r s₁ => exact List.forall_mem_cons.mpr ⟨h.1, ih r (h.2 r trivial) s₁⟩
    | halt s₁ => exact List.forall_mem_singleton.mpr h.1
    | blocked => nofun

end actions

/-! ## Programs among other threads -/

/-- Before each action the other threads may have moved as `rely` says. The
action is `allowed` where it is taken then, its effect is one `guar` admits,
and a value is returned with `Q`. -/
def Safe (m : (a : A) → σ → Effect (R a) σ) (allowed : A → σ → Prop) (rely guar : σ → σ → Prop)
    (Q : α → σ → Prop) : Program R α → σ → Prop
  | .ret a, s => Q a s
  | .act a next, s => ∀ s₁, rely s s₁ → allowed a s₁ ∧
    match m a s₁ with
    | .ok r s₂ => guar s₁ s₂ ∧ (next r).Safe m allowed rely guar Q s₂
    | .halt s₂ => guar s₁ s₂
    | .blocked => True

section Safe
variable {m : (a : A) → σ → Effect (R a) σ} {allowed : A → σ → Prop} {rely guar : σ → σ → Prop}

theorem safe_bind {p : Program R α} {f : α → Program R β} {Q : α → σ → Prop} {Q' : β → σ → Prop}
    {s : σ} (hp : p.Safe m allowed rely guar Q s)
    (hf : ∀ a s', Q a s' → (f a).Safe m allowed rely guar Q' s') :
    (p >>= f).Safe m allowed rely guar Q' s := by
  induction p generalizing s with
  | ret a => exact hf a s hp
  | act a next ih =>
    intro s₁ move
    obtain ⟨ok, effect⟩ := hp s₁ move
    refine ⟨ok, ?_⟩
    cases h : m a s₁ with
    | ok r s₂ =>
      rw [h] at effect
      exact ⟨effect.1, ih r effect.2⟩
    | halt s₂ =>
      rw [h] at effect
      exact effect
    | blocked => trivial

/-- The rule for one action: it is allowed wherever the other threads may have
led to, and safe to go on from. -/
theorem safe_perform_bind {a : A} {f : R a → Program R β} {Q : β → σ → Prop} {s : σ}
    (h : ∀ s₁, rely s s₁ → allowed a s₁ ∧
      (∀ r s₂, m a s₁ = .ok r s₂ → guar s₁ s₂ ∧ (f r).Safe m allowed rely guar Q s₂) ∧
      ∀ s₂, m a s₁ = .halt s₂ → guar s₁ s₂) :
    (perform a >>= f).Safe m allowed rely guar Q s := by
  intro s₁ move
  obtain ⟨permitted, ok, halt⟩ := h s₁ move
  refine ⟨permitted, ?_⟩
  cases effect : m a s₁ with
  | ok r s₂ => exact ok r s₂ effect
  | halt s₂ => exact halt s₂ effect
  | blocked => trivial

/-- A program is safe if each action it can take is, in every state. -/
theorem safe_of_obeys {good : A → Prop} {answers : (a : A) → R a → Prop}
    (step : ∀ a s s₁, rely s s₁ → good a → allowed a s₁ ∧
      (∀ r s₂, m a s₁ = .ok r s₂ → guar s₁ s₂ ∧ answers a r) ∧
      ∀ s₂, m a s₁ = .halt s₂ → guar s₁ s₂)
    {p : Program R α} (hp : p.Obeys good answers) (s : σ) :
    p.Safe m allowed rely guar (fun _ _ => True) s := by
  induction p generalizing s with
  | ret a => trivial
  | act a next ih =>
    intro s₁ move
    obtain ⟨permitted, ok, halt⟩ := step a s s₁ move hp.1
    refine ⟨permitted, ?_⟩
    cases effect : m a s₁ with
    | ok r s₂ =>
      obtain ⟨guaranteed, answer⟩ := ok r s₂ effect
      exact ⟨guaranteed, ih r (hp.2 r answer) s₂⟩
    | halt s₂ => exact halt s₂ effect
    | blocked => trivial

theorem safe_results {answers : (a : A) → R a → Prop}
    (answered : ∀ a s r s', m a s = .ok r s' → answers a r) {p : Program R α} {Q : α → Prop}
    (results : p.Results answers Q) {Q' : α → σ → Prop} {s : σ}
    (hp : p.Safe m allowed rely guar Q' s) :
    p.Safe m allowed rely guar (fun a s => Q' a s ∧ Q a) s := by
  induction p generalizing s with
  | ret a => exact ⟨hp, results⟩
  | act a next ih =>
    intro s₁ move
    obtain ⟨permitted, effect⟩ := hp s₁ move
    refine ⟨permitted, ?_⟩
    cases h : m a s₁ with
    | ok r s₂ =>
      rw [h] at effect
      exact ⟨effect.1, ih r (results r (answered a s₁ r s₂ h)) effect.2⟩
    | halt s₂ =>
      rw [h] at effect
      exact effect
    | blocked => trivial

/-- Safety from every state is a property to follow programs with. -/
theorem compositional_safe {good : A → Prop} {answers : (a : A) → R a → Prop}
    (answered : ∀ a s r s', m a s = .ok r s' → answers a r)
    (step : ∀ a s s₁, rely s s₁ → good a → allowed a s₁ ∧
      (∀ r s₂, m a s₁ = .ok r s₂ → guar s₁ s₂) ∧ ∀ s₂, m a s₁ = .halt s₂ → guar s₁ s₂) :
    Compositional good answers fun {α} (p : Program R α) =>
      ∀ s, p.Safe m allowed rely guar (fun _ _ => True) s where
  ret _ := fun _ => trivial
  act := by
    intro α a next ok rest s s₁ move
    obtain ⟨permitted, effect, halt⟩ := step a s s₁ move ok
    refine ⟨permitted, ?_⟩
    cases h : m a s₁ with
    | ok r s₂ => exact ⟨effect r s₂ h, rest r (answered a s₁ r s₂ h) s₂⟩
    | halt s₂ => exact halt s₂ h
    | blocked => trivial
  bind_of_results := by
    intro α β p f Q hp results hf s
    exact safe_bind (safe_results answered results (hp s)) fun a s' known => hf a known.2 s'

/-- The program is safe from wherever `P` holds. -/
def SafeFrom (m : (a : A) → σ → Effect (R a) σ) (allowed : A → σ → Prop)
    (rely guar : σ → σ → Prop) (P : σ → Prop) (q : Program R α) (Q : α → σ → Prop) : Prop :=
  ∀ s, P s → q.Safe m allowed rely guar Q s

theorem safeFrom_bind {p : Program R α} {f : α → Program R β} {P : σ → Prop} {Q : α → σ → Prop}
    {Q' : β → σ → Prop} (hp : SafeFrom m allowed rely guar P p Q)
    (hf : ∀ a, SafeFrom m allowed rely guar (Q a) (f a) Q') :
    SafeFrom m allowed rely guar P (p >>= f) Q' :=
  fun s hs => safe_bind (hp s hs) fun a s' => hf a s'

/-- The rule for one action that is taken where the other threads leave `P`. -/
theorem safeFrom_act {a : A} {next : R a → Program R α} {P : σ → Prop}
    {mid : R a → σ → Prop} {Q : α → σ → Prop} (stable : ∀ s s', rely s s' → P s → P s')
    (step : ∀ s, P s → allowed a s ∧ (∀ r s', m a s = .ok r s' → guar s s' ∧ mid r s') ∧
      ∀ s', m a s = .halt s' → guar s s')
    (rest : ∀ r, SafeFrom m allowed rely guar (mid r) (next r) Q) :
    SafeFrom m allowed rely guar P (.act a next) Q := by
  intro s hs s₁ move
  obtain ⟨permitted, ok, halt⟩ := step s₁ (stable s s₁ move hs)
  refine ⟨permitted, ?_⟩
  cases effect : m a s₁ with
  | ok r s₂ =>
    obtain ⟨guaranteed, known⟩ := ok r s₂ effect
    exact ⟨guaranteed, rest r s₂ known⟩
  | halt s₂ => exact halt s₂ effect
  | blocked => trivial

/-- Safety from an invariant to the same is a property to follow programs with. -/
theorem compositional_safeFrom {good : A → Prop} {answers : (a : A) → R a → Prop} {I : σ → Prop}
    (stable : ∀ s s', rely s s' → I s → I s')
    (answered : ∀ a s r s', m a s = .ok r s' → answers a r)
    (step : ∀ a s, I s → good a → allowed a s ∧
      (∀ r s', m a s = .ok r s' → guar s s' ∧ I s') ∧ ∀ s', m a s = .halt s' → guar s s') :
    Compositional good answers fun {α} (p : Program R α) =>
      SafeFrom m allowed rely guar I p fun _ => I where
  ret _ := fun _ hs => hs
  act := by
    intro α a next ok rest s hs s₁ move
    obtain ⟨permitted, effect, halt⟩ := step a s₁ (stable s s₁ move hs) ok
    refine ⟨permitted, ?_⟩
    cases h : m a s₁ with
    | ok r s₂ =>
      obtain ⟨guaranteed, kept⟩ := effect r s₂ h
      exact ⟨guaranteed, rest r (answered a s₁ r s₂ h) s₂ kept⟩
    | halt s₂ => exact halt s₂ h
    | blocked => trivial
  bind_of_results := by
    intro α β p f Q hp results hf s hs
    exact safe_bind (safe_results answered results (hp s hs))
      fun a s' known => hf a known.2 s' known.1

theorem safe_mono {p : Program R α} {Q Q' : α → σ → Prop} {s : σ}
    (hp : p.Safe m allowed rely guar Q s) (weaker : ∀ a s, Q a s → Q' a s) :
    p.Safe m allowed rely guar Q' s := by
  induction p generalizing s with
  | ret a => exact weaker a s hp
  | act a next ih =>
    intro s₁ move
    obtain ⟨permitted, effect⟩ := hp s₁ move
    refine ⟨permitted, ?_⟩
    cases h : m a s₁ with
    | ok r s₂ =>
      rw [h] at effect
      exact ⟨effect.1, ih r effect.2⟩
    | halt s₂ =>
      rw [h] at effect
      exact effect
    | blocked => trivial

/-- A safe program is safe behind the actions it takes while the other threads stand. -/
theorem safe_advance (refl : ∀ s, rely s s) {p q : Program R α} {Q : α → σ → Prop} {n : Nat}
    {s s' : σ} (hp : p.Safe m allowed rely guar Q s) (run : p.advance m n s = some (q, s')) :
    q.Safe m allowed rely guar Q s' := by
  induction n generalizing p s with
  | zero =>
    cases run
    exact hp
  | succ n ih =>
    cases p with
    | ret a => cases run
    | act a next =>
      obtain ⟨-, effect⟩ := hp s (refl s)
      simp only [advance] at run
      cases h : m a s with
      | ok r s₁ =>
        rw [h] at run effect
        exact ih effect.2 run
      | halt s₁ => simp [h] at run
      | blocked => simp [h] at run

theorem safe_done (refl : ∀ s, rely s s) {p : Program R α} {Q : α → σ → Prop} {s s' : σ} {a : α}
    (hp : p.Safe m allowed rely guar Q s) (run : p.exec m s = .done a s') : Q a s' := by
  obtain ⟨n, advanced⟩ := advance_of_done run
  exact safe_advance refl hp advanced

/-- Where a safe program stops, the action it stops at is allowed. -/
theorem safe_halted (refl : ∀ s, rely s s) {p : Program R α} {Q : α → σ → Prop} {s s' : σ}
    (hp : p.Safe m allowed rely guar Q s) (run : p.exec m s = .halted s') :
    ∃ a s₁, allowed a s₁ ∧ (m a s₁ = .halt s' ∨ m a s₁ = .blocked ∧ s' = s₁) := by
  induction p generalizing s with
  | ret a => cases run
  | act a next ih =>
    obtain ⟨permitted, effect⟩ := hp s (refl s)
    simp only [exec] at run
    cases h : m a s with
    | ok r s₁ =>
      rw [h] at run effect
      exact ih r effect.2 run
    | halt s₁ =>
      simp only [h, Outcome.halted.injEq] at run
      exact ⟨a, s, permitted, Or.inl (run ▸ h)⟩
    | blocked =>
      simp only [h, Outcome.halted.injEq] at run
      exact ⟨a, s, permitted, Or.inr ⟨h, run.symm⟩⟩

/-- What the other threads do leaves a safe program safe. -/
theorem safe_of_rely (trans : ∀ a b c, rely a b → rely b c → rely a c)
    {p : Program R α} {Q : α → σ → Prop} (stable : ∀ a s s', rely s s' → Q a s → Q a s')
    {s s' : σ} (move : rely s s') (hp : p.Safe m allowed rely guar Q s) :
    p.Safe m allowed rely guar Q s' := by
  cases p with
  | ret a => exact stable a s s' move hp
  | act a next => exact fun s₁ later => hp s₁ (trans _ _ _ move later)

end Safe

end Program

end Ipk24Chat
