import Mathlib.Data.List.Infix
import Ipk24Chat.Threads

/-!
# Writes that follow from what was read

Threads read a variable of the shared state in one action and write it in a later one, with
other threads in between. A relation says which value may follow which.

* `Traffic.Minds`: each write follows from a value that the program has read since its last
  write;
* `Infers`: the same from what is known of the values that were read, with rules;
* `walks_of_minds`: a program that is run alone moves the variable along the relation;
* `minded_of_visits`: in every interleaving each value follows from one that the variable had
  before;
* `founded_requires`: what the variable went through before it had a value;
* `Machine.Logged`: runs with a record of their actions.
-/

namespace Ipk24Chat

/-- Actions that read something and others that write it. -/
structure Traffic {A : Type} (R : A → Type) (S : Type) where
  reads : (a : A) → R a → Option S
  writes : A → Option S

/-- A variable of the state, with the actions that read and write it. -/
structure Variable (σ : Type) {A : Type} (R : A → Type) (S : Type) extends Traffic R S where
  value : σ → S

/-- Each value but the first follows from one behind it; the newest value is in front. -/
inductive Founded {S : Type} (E : S → S → Prop) (first : S) : List S → Prop where
  | first : Founded E first [first]
  | next {x y : S} {past : List S} (before : Founded E first past) (known : x ∈ past)
      (follows : E x y) : Founded E first (y :: past)

section
variable {S : Type} {E : S → S → Prop} {first : S} {past : List S}

/-- What the first value has and the relation passes on, all values have. -/
theorem founded_all {good : S → Prop} (start : good first)
    (step : ∀ x y, E x y → good x → good y) (founded : Founded E first past) :
    ∀ x ∈ past, good x := by
  induction founded with
  | first =>
    intro x hx
    exact List.mem_singleton.mp hx ▸ start
  | next _ known follows ih =>
    rintro z (_ | ⟨_, hz⟩)
    · exact step _ _ follows (ih _ known)
    · exact ih z hz

/-- Each value but the first follows from one behind it. -/
theorem founded_suffix (founded : Founded E first past) {y : S}
    {older : List S} (visited : y :: older <:+ past) (later : older ≠ []) : ∃ x ∈ older, E x y := by
  induction founded with
  | first =>
    rcases List.suffix_cons_iff.mp visited with whole | inside
    · cases whole
      exact absurd rfl later
    · simp at inside
  | @next x z past _ known follows ih =>
    rcases List.suffix_cons_iff.mp visited with whole | inside
    · cases whole
      exact ⟨x, known, follows⟩
    · exact ih inside

/-- What a value requires to be behind it is passed on along the relation. -/
theorem founded_requires (required : S → List S) (start : (required first).Sublist [first])
    (step : ∀ x y, E x y → (required y).Sublist (y :: required x))
    (founded : Founded E first past) {y : S} {older : List S} (visited : y :: older <:+ past) :
    (required y).Sublist (y :: older) := by
  induction founded generalizing y older with
  | first =>
    rcases List.suffix_cons_iff.mp visited with whole | inside
    · cases whole
      exact start
    · simp at inside
  | @next x z past _ known follows ih =>
    rcases List.suffix_cons_iff.mp visited with whole | inside
    · cases whole
      obtain ⟨newer, older, rfl⟩ := List.append_of_mem known
      have behind : (required x).Sublist (x :: older) := ih (List.suffix_append newer _)
      have deeper : (required x).Sublist (newer ++ x :: older) :=
        behind.trans (List.sublist_append_right newer _)
      exact (step x z follows).trans (deeper.cons_cons z)
    · exact ih inside

end

namespace Traffic
variable {A S α β : Type} {R : A → Type} (v : Traffic R S)

/-- The values read since the last write, behind an action. -/
def seenAfter (seen : List S) (a : A) (r : R a) : List S :=
  match v.writes a with
  | some y => [y]
  | none => (v.reads a r).toList ++ seen

/-- Each write follows from a value that was read since the last one, as long as the answers
are admitted. -/
def Minds (answers : (a : A) → R a → Prop) (E : S → S → Prop) (Q : α → List S → Prop) :
    List S → Program R α → Prop
  | seen, .ret a => Q a seen
  | seen, .act a next => (∀ y, v.writes a = some y → ∃ x ∈ seen, E x y) ∧
      ∀ r, answers a r → Minds answers E Q (v.seenAfter seen a r) (next r)

section
variable {v} {answers : (a : A) → R a → Prop} {E : S → S → Prop}

theorem minds_mono {Q Q' : α → List S → Prop} (weaker : ∀ a seen, Q a seen → Q' a seen)
    {p : Program R α} {seen : List S} (h : v.Minds answers E Q seen p) :
    v.Minds answers E Q' seen p := by
  induction p generalizing seen with
  | ret a => exact weaker a seen h
  | act a next ih => exact ⟨h.1, fun r admitted => ih r (h.2 r admitted)⟩

theorem minds_bind {Q : α → List S → Prop} {Q' : β → List S → Prop} {p : Program R α}
    {f : α → Program R β} {seen : List S} (hp : v.Minds answers E Q seen p)
    (hf : ∀ a seen, Q a seen → v.Minds answers E Q' seen (f a)) :
    v.Minds answers E Q' seen (p >>= f) := by
  induction p generalizing seen with
  | ret a => exact hf a seen hp
  | act a next ih => exact ⟨hp.1, fun r admitted => ih r (hp.2 r admitted)⟩

theorem minds_results {Q : α → List S → Prop} {Q' : α → Prop} {p : Program R α} {seen : List S}
    (results : p.Results answers Q') (h : v.Minds answers E Q seen p) :
    v.Minds answers E (fun a seen => Q' a ∧ Q a seen) seen p := by
  induction p generalizing seen with
  | ret a => exact ⟨results, h⟩
  | act a next ih =>
    exact ⟨h.1, fun r admitted => ih r (results r admitted) (h.2 r admitted)⟩

/-! ## What is known of the values that were read -/

/-- Knowledge of the values that were read which more of them leave true; there is one. -/
structure Lasting (K : List S → Prop) : Prop where
  given : ∀ {seen}, K seen → seen ≠ []
  more : ∀ {x seen}, K seen → K (x :: seen)

theorem lasting_mem (x : S) : Lasting (x ∈ ·) where
  given h := List.ne_nil_of_mem h
  more h := List.mem_cons_of_mem _ h

theorem lasting_ne_nil : Lasting (fun seen : List S => seen ≠ []) where
  given h := h
  more _ := List.cons_ne_nil _ _

theorem lasting_exists (good : S → Prop) : Lasting (fun seen : List S => ∃ x ∈ seen, good x) where
  given := by
    rintro seen ⟨x, hx, -⟩
    exact List.ne_nil_of_mem hx
  more := by
    rintro y seen ⟨x, hx, known⟩
    exact ⟨x, List.mem_cons_of_mem _ hx, known⟩

/-- What is known of the values at the start is enough for the writes of the program, and at
its end something else is known. -/
def Infers (v : Traffic R S) (answers : (a : A) → R a → Prop) (E : S → S → Prop)
    (K : List S → Prop) (p : Program R α) (K' : List S → Prop) : Prop :=
  ∀ seen, K seen → v.Minds answers E (fun _ seen' => K' seen') seen p

section
variable {K K' M : List S → Prop}

theorem infers_bind {p : Program R α} {f : α → Program R β} (hp : v.Infers answers E K p M)
    (hf : ∀ a, v.Infers answers E M (f a) K') : v.Infers answers E K (p >>= f) K' := by
  intro seen known
  apply minds_bind (hp seen known)
  intro a seen' later
  exact hf a seen' later

/-- An action that reads or does something else. -/
theorem infers_act {a : A} {next : R a → Program R α} (quiet : v.writes a = none)
    (rest : ∀ r, answers a r →
      v.Infers answers E (fun seen' => ∃ seen, K seen ∧ seen' = (v.reads a r).toList ++ seen)
        (next r) K') : v.Infers answers E K (.act a next) K' := by
  intro seen known
  constructor
  · intro y writes
    rw [quiet] at writes
    cases writes
  · intro r admitted
    apply rest r admitted
    exact ⟨seen, known, by simp only [seenAfter, quiet]⟩

/-- A write that follows from what is known. -/
theorem infers_write {a : A} {next : R a → Program R α} {y : S} (writes : v.writes a = some y)
    (follows : ∀ seen, K seen → ∃ x ∈ seen, E x y)
    (rest : ∀ r, v.Infers answers E (y ∈ ·) (next r) K') :
    v.Infers answers E K (.act a next) K' := by
  intro seen known
  constructor
  · intro z other
    obtain rfl : y = z := Option.some.inj (writes.symm.trans other)
    exact follows seen known
  · intro r _
    apply rest r
    simp only [seenAfter, writes]
    exact List.mem_singleton_self y

theorem infers_mono {p : Program R α} {N N' : List S → Prop} (h : v.Infers answers E K p K')
    (stronger : ∀ seen, N seen → K seen) (weaker : ∀ seen, K' seen → N' seen) :
    v.Infers answers E N p N' := by
  intro seen known
  exact minds_mono (fun _ seen' => weaker seen') (h seen (stronger seen known))

/-- A program that does not return may promise anything. -/
theorem infers_of_never {p : Program R α} (never : p.Results answers fun _ => False)
    (h : v.Infers answers E K p K') : v.Infers answers E K p M := by
  intro seen known
  apply minds_mono _ (minds_results never (h seen known))
  rintro a seen' ⟨none, -⟩
  exact none.elim

/-- Programs that write nothing leave true what more values do not make false. -/
theorem compositional_infers (more : ∀ {x seen}, K seen → K (x :: seen)) :
    Program.Compositional (fun a => v.writes a = none) answers
      fun {α} (p : Program R α) => v.Infers answers E K p K where
  ret _ _ known := known
  act := by
    intro α a next quiet rest
    apply infers_act quiet
    intro r admitted seen' behind
    apply rest r admitted
    obtain ⟨seen, known, rfl⟩ := behind
    cases v.reads a r with
    | none => exact known
    | some x => exact more known
  bind_of_results := by
    intro α β p f Q hp results hf seen known
    apply minds_bind (minds_results results (hp seen known))
    rintro a seen' ⟨result, known'⟩
    exact hf a result seen' known'

end

end

end Traffic

namespace Variable
variable {T σ A P S α : Type} {R : A → Type} (v : Variable σ R S)

/-- The actions do with the variable what they say. -/
structure Honest (answers : (a : A) → R a → Prop) (m : (a : A) → σ → Effect (R a) σ) : Prop where
  answered : ∀ {a s r s'}, m a s = .ok r s' → answers a r
  read : ∀ {a s r s'}, m a s = .ok r s' → ∀ x, v.reads a r = some x → x = v.value s
  written : ∀ {a s r s'}, m a s = .ok r s' → v.value s' = (v.writes a).getD (v.value s)
  halted : ∀ {a s s'}, m a s = .halt s' → v.value s' = v.value s

section
variable {v} {answers : (a : A) → R a → Prop} {E : S → S → Prop}

/-! ## A program that is run alone -/

theorem walks_of_minds {m : (a : A) → σ → Effect (R a) σ} (honest : v.Honest answers m)
    {Q : α → List S → Prop} {p : Program R α} {seen : List S} {s : σ}
    (minds : v.Minds answers E Q seen p) (current : ∀ x ∈ seen, x = v.value s) :
    Relation.ReflTransGen E (v.value s) (v.value (p.exec m s).state) := by
  induction p generalizing seen s with
  | ret a => exact .refl
  | act a next ih =>
    simp only [Program.exec]
    cases effect : m a s with
    | blocked => exact .refl
    | halt s' =>
      rw [Outcome.state_halted, honest.halted effect]
    | ok r s' =>
      have later := minds.2 r (honest.answered effect)
      have written := honest.written effect
      cases writes : v.writes a with
      | some y =>
        obtain ⟨x, hx, follows⟩ := minds.1 y writes
        have value : v.value s' = y := by rw [written, writes, Option.getD_some]
        have behind := ih r later (s := s') (by simp [Traffic.seenAfter, writes, value])
        rw [value] at behind
        exact .head (current x hx ▸ follows) behind
      | none =>
        have value : v.value s' = v.value s := by rw [written, writes, Option.getD_none]
        rw [← value]
        apply ih r later
        intro x hx
        simp only [Traffic.seenAfter, writes, List.mem_append, Option.mem_toList] at hx
        rw [value]
        rcases hx with new | old
        · exact honest.read effect x new
        · exact current x old

/-! ## Programs among each other -/

section
variable [DecidableEq T] (v) (m : Machine T σ R P) (s₀ : Threads T σ R P)

/-- The values that the variable has had in a run, with the newest one in front. -/
inductive Visits : List S → Threads T σ R P → Prop where
  | refl : Visits [v.value s₀.shared] s₀
  | stays {past : List S} {s s' : Threads T σ R P} (before : Visits past s) (step : m.Step s s')
      (same : v.value s'.shared = v.value s.shared) : Visits past s'
  | moves {past : List S} {s s' : Threads T σ R P} (before : Visits past s) (step : m.Step s s')
      (other : v.value s'.shared ≠ v.value s.shared) : Visits (v.value s'.shared :: past) s'

variable {v} {m} {s₀}

/-- The newest value is the one that the variable has. -/
theorem visits_head {past : List S} {s : Threads T σ R P} (h : v.Visits m s₀ past s) :
    ∃ older, past = v.value s.shared :: older := by
  induction h with
  | refl => exact ⟨[], rfl⟩
  | stays _ _ same ih => exact same ▸ ih
  | moves _ _ _ _ => exact ⟨_, rfl⟩

theorem visits_of_reachable {s : Threads T σ R P} (h : m.Reachable s₀ s) :
    ∃ past, v.Visits m s₀ past s := by
  induction h with
  | refl => exact ⟨_, .refl⟩
  | @step s s' _ step ih =>
    obtain ⟨past, before⟩ := ih
    by_cases same : v.value s'.shared = v.value s.shared
    · exact ⟨past, .stays before step same⟩
    · exact ⟨_, .moves before step same⟩

variable {E : T → S → S → Prop}

/-- What is known of the threads behind a run: the code that is left minds what was read. -/
structure Minded (answers : (a : A) → R a → Prop) (E : T → S → S → Prop) (first : S)
    (past : List S) (s : Threads T σ R P) : Prop where
  founded : Founded (fun x y => ∃ t, E t x y) first past
  current : v.value s.shared ∈ past
  code : ∀ t q, s.code t = some q → ∃ seen, (∀ x ∈ seen, x ∈ past) ∧
    v.Minds answers (E t) (fun _ _ => True) seen q

theorem founded_of_step {answers : (a : A) → R a → Prop}
    (honest : ∀ t, v.Honest answers (m.perform t)) {first : S} {past : List S}
    {s s' : Threads T σ R P} (h : v.Minded answers E first past s) (step : m.Step s s')
    (other : v.value s'.shared ≠ v.value s.shared) :
    Founded (fun x y => ∃ t, E t x y) first (v.value s'.shared :: past) := by
  cases step with
  | @act t a next r s' code effect =>
    obtain ⟨seen, known, minds⟩ := h.code t _ code
    have written := (honest t).written effect
    cases writes : v.writes a with
    | none =>
      rw [writes, Option.getD_none] at written
      exact absurd written other
    | some y =>
      rw [writes, Option.getD_some] at written
      obtain ⟨x, hx, follows⟩ := minds.1 y writes
      apply Founded.next h.founded (known x hx)
      exact ⟨t, written ▸ follows⟩
  | halt _ effect => exact absurd ((honest _).halted effect) other
  | start _ _ => exact absurd rfl other

theorem code_of_step {answers : (a : A) → R a → Prop}
    (honest : ∀ t, v.Honest answers (m.perform t))
    (minds : ∀ t p q, m.starts t p q → ∀ x, v.Minds answers (E t) (fun _ _ => True) [x] q)
    {first : S} {past past' : List S} {s s' : Threads T σ R P} (h : v.Minded answers E first past s)
    (step : m.Step s s') (longer : ∀ x ∈ past, x ∈ past') (current : v.value s'.shared ∈ past') :
    ∀ t q, s'.code t = some q → ∃ seen, (∀ x ∈ seen, x ∈ past') ∧
      v.Minds answers (E t) (fun _ _ => True) seen q := by
  have others : ∀ t q, s.code t = some q → ∃ seen, (∀ x ∈ seen, x ∈ past') ∧
      v.Minds answers (E t) (fun _ _ => True) seen q := by
    intro t q code
    obtain ⟨seen, known, minds⟩ := h.code t q code
    exact ⟨seen, fun x hx => longer x (known x hx), minds⟩
  cases step with
  | @act t a next r s' code effect =>
    apply Machine.code_of_update _ fun u q _ => others u q
    rintro q ⟨⟩
    obtain ⟨seen, known, minds⟩ := others t _ code
    refine ⟨v.seenAfter seen a r, ?_, minds.2 r ((honest t).answered effect)⟩
    intro x hx
    have written := (honest t).written effect
    cases writes : v.writes a with
    | some y =>
      rw [writes, Option.getD_some] at written
      simp only [Traffic.seenAfter, writes, List.mem_singleton] at hx
      exact hx ▸ written ▸ current
    | none =>
      simp only [Traffic.seenAfter, writes, List.mem_append, Option.mem_toList] at hx
      rcases hx with new | old
      · exact (honest t).read effect x new ▸ longer _ h.current
      · exact known x old
  | halt _ _ => exact Machine.code_of_update (by rintro q ⟨⟩) fun u q _ => others u q
  | @start t p q code admitted =>
    apply Machine.code_of_update _ fun u q _ => others u q
    rintro q ⟨⟩
    refine ⟨[v.value s.shared], ?_, minds t p q admitted _⟩
    exact List.forall_mem_singleton.mpr current

/-- **Each value follows from an earlier one.** If every program a thread may start minds what
it has read, with the value at its start, then in every interleaving the values that the
variable has had are founded. -/
theorem minded_of_visits (honest : ∀ t, v.Honest answers (m.perform t))
    (minds : ∀ t p q, m.starts t p q → ∀ x, v.Minds answers (E t) (fun _ _ => True) [x] q)
    (idle : ∀ t q, s₀.code t = some q → ∃ p, q = .ret p) {past : List S} {s : Threads T σ R P}
    (h : v.Visits m s₀ past s) : v.Minded answers E (v.value s₀.shared) past s := by
  induction h with
  | refl =>
    constructor
    case founded => exact .first
    case current => exact List.mem_singleton_self _
    case code =>
      intro t q code
      obtain ⟨p, rfl⟩ := idle t q code
      exact ⟨[], List.forall_mem_nil _, trivial⟩
  | stays _ step same ih =>
    have current : v.value _ ∈ _ := same ▸ ih.current
    exact ⟨ih.founded, current, code_of_step honest minds ih step (fun _ => id) current⟩
  | moves _ step other ih =>
    constructor
    case founded => exact founded_of_step honest ih step other
    case current => exact List.mem_cons_self
    case code =>
      exact code_of_step honest minds ih step (fun _ => List.mem_cons_of_mem _) List.mem_cons_self

end

end

end Variable

/-! ## Runs with a record -/

/-- An action that was completed, with the state before it. -/
structure Taken (T σ A : Type) where
  thread : T
  act : A
  before : σ

namespace Machine
variable {T σ A P : Type} {R : A → Type} [DecidableEq T] (m : Machine T σ R P)

/-- Reachable with the actions of a record, the last one in front. -/
inductive Logged (s₀ : Threads T σ R P) : List (Taken T σ A) → Threads T σ R P → Prop where
  | refl : Logged s₀ [] s₀
  | act {log : List (Taken T σ A)} {s : Threads T σ R P} {t : T} {a : A}
      {next : R a → Program R P} {r : R a} {s' : σ} (before : Logged s₀ log s)
      (code : s.code t = some (.act a next)) (ok : m.perform t a s.shared = .ok r s') :
      Logged s₀ (⟨t, a, s.shared⟩ :: log) ⟨s', Function.update s.code t (some (next r))⟩
  | halt {log : List (Taken T σ A)} {s : Threads T σ R P} {t : T} {a : A}
      {next : R a → Program R P} {s' : σ} (before : Logged s₀ log s)
      (code : s.code t = some (.act a next)) (halt : m.perform t a s.shared = .halt s') :
      Logged s₀ log ⟨s', Function.update s.code t none⟩
  | start {log : List (Taken T σ A)} {s : Threads T σ R P} {t : T} {p : P} {q : Program R P}
      (before : Logged s₀ log s) (code : s.code t = some (.ret p)) (admitted : m.starts t p q) :
      Logged s₀ log ⟨s.shared, Function.update s.code t (some q)⟩

variable {m} {s₀ s : Threads T σ R P}

/-- Every run has a record. -/
theorem logged_of_reachable (h : m.Reachable s₀ s) : ∃ log, m.Logged s₀ log s := by
  induction h with
  | refl => exact ⟨[], .refl⟩
  | step _ step ih =>
    obtain ⟨log, before⟩ := ih
    cases step with
    | act code ok => exact ⟨_, .act before code ok⟩
    | halt code halt => exact ⟨log, .halt before code halt⟩
    | start code admitted => exact ⟨log, .start before code admitted⟩

theorem reachable_of_logged {log : List (Taken T σ A)} (h : m.Logged s₀ log s) :
    m.Reachable s₀ s := by
  induction h with
  | refl => exact .refl
  | act _ code ok ih => exact ih.step (.act code ok)
  | halt _ code halt ih => exact ih.step (.halt code halt)
  | start _ code admitted ih => exact ih.step (.start code admitted)

end Machine

end Ipk24Chat
