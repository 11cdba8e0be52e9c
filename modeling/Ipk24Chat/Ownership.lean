import Mathlib.Logic.Function.Basic

/-!
# Structures on one heap

Several structures with nodes on the same heap, and operations that each work on one of
them.

* `Local`: an operation writes to its own nodes and to nodes that were free, and what it
  gives up is free again; `Local.trans` composes two of them;
* `Owned`: no two structures share a node, and apart from the nodes the heap is as it was
  at first;
* `Owned.step`: a local operation keeps that; `Owned.others`: it leaves the nodes of the
  others as they are.
-/

namespace Ipk24Chat

variable {ι A V : Type} {h₀ h h' h'' : A → Option V} {nodes nodes' nodes'' : List A}

/-- An operation on a structure with `nodes`, which then has `nodes'`. -/
structure Local (h h' : A → Option V) (nodes nodes' : List A) : Prop where
  taken : ∀ p ∈ nodes', p ∈ nodes ∨ h p = none
  live : ∀ p ∈ nodes', (h' p).isSome
  freed : ∀ p ∈ nodes, p ∉ nodes' → h' p = none
  frame : ∀ p, p ∉ nodes → p ∉ nodes' → h' p = h p

namespace Local

theorem refl (live : ∀ p ∈ nodes, (h p).isSome) : Local h h nodes nodes :=
  ⟨fun _ => Or.inl, live, fun _ hp away => absurd hp away, fun _ _ _ => rfl⟩

theorem trans (first : Local h h' nodes nodes') (second : Local h' h'' nodes' nodes'') :
    Local h h'' nodes nodes'' := by
  constructor
  case taken =>
    intro p hp
    by_cases before : p ∈ nodes
    · exact Or.inl before
    · rcases second.taken p hp with kept | free
      · exact first.taken p kept
      · have away : p ∉ nodes' := fun kept => by simpa [free] using first.live p kept
        exact Or.inr ((first.frame p before away).symm.trans free)
  case live => exact second.live
  case freed =>
    intro p hp away
    by_cases kept : p ∈ nodes'
    · exact second.freed p kept away
    · exact (second.frame p kept away).trans (first.freed p hp kept)
  case frame =>
    intro p before away
    by_cases kept : p ∈ nodes'
    · have free := (first.taken p kept).resolve_left before
      exact (second.freed p kept away).trans free.symm
    · exact (second.frame p kept away).trans (first.frame p before kept)

end Local

/-- Each structure has its nodes for itself; `h₀` is the heap without any of them. -/
structure Owned (h₀ h : A → Option V) (nodes : ι → List A) : Prop where
  live : ∀ i, ∀ p ∈ nodes i, (h p).isSome
  apart : ∀ i j, i ≠ j → ∀ p ∈ nodes i, p ∉ nodes j
  free : ∀ i, ∀ p ∈ nodes i, h₀ p = none
  rest : ∀ p, (∀ i, p ∉ nodes i) → h p = h₀ p

namespace Owned
variable {nodes : ι → List A}

theorem empty (h : A → Option V) : Owned h h fun _ : ι => [] :=
  ⟨fun _ => List.forall_mem_nil _, fun _ _ _ => List.forall_mem_nil _,
    fun _ => List.forall_mem_nil _, fun _ _ => rfl⟩

/-- Nothing is left behind when all structures are gone. -/
theorem released (owned : Owned h₀ h nodes) (gone : ∀ i, nodes i = []) : h = h₀ := by
  funext p
  apply owned.rest
  intro i hp
  rw [gone i] at hp
  cases hp

section
variable (owned : Owned h₀ h nodes) {i : ι} (op : Local h h' (nodes i) nodes')
include owned op

/-- No node is taken from another structure. -/
theorem not_taken {j : ι} (other : j ≠ i) {p : A} (hp : p ∈ nodes j) : p ∉ nodes' := by
  intro taken
  rcases op.taken p taken with own | free
  · exact owned.apart j i other p hp own
  · have live := owned.live j p hp
    simp [free] at live

theorem others {j : ι} (other : j ≠ i) : ∀ p ∈ nodes j, h' p = h p := by
  intro p hp
  exact op.frame p (owned.apart j i other p hp) (owned.not_taken op other hp)

variable [DecidableEq ι]

/-- **A local operation** leaves each structure its own nodes. -/
theorem step : Owned h₀ h' (Function.update nodes i nodes') := by
  have same : Function.update nodes i nodes' i = nodes' := Function.update_self ..
  have kept {j : ι} (other : j ≠ i) : Function.update nodes i nodes' j = nodes j :=
    Function.update_of_ne other ..
  constructor
  case live =>
    intro j p hp
    by_cases own : j = i
    · subst own
      exact op.live p (same ▸ hp)
    · rw [kept own] at hp
      rw [owned.others op own p hp]
      exact owned.live j p hp
  case apart =>
    intro j k different p hp
    by_cases own : j = i
    · subst own
      rw [same] at hp
      rw [kept different.symm]
      exact fun other => owned.not_taken op different.symm other hp
    · rw [kept own] at hp
      by_cases own' : k = i
      · subst own'
        rw [same]
        exact owned.not_taken op own hp
      · rw [kept own']
        exact owned.apart j k different p hp
  case free =>
    intro j p hp
    by_cases own : j = i
    · subst own
      rw [same] at hp
      rcases op.taken p hp with before | none
      · exact owned.free j p before
      · by_contra used
        have nowhere : ∀ k, p ∉ nodes k := by
          intro k hk
          have live := owned.live k p hk
          simp [none] at live
        exact used ((owned.rest p nowhere).symm.trans none)
    · rw [kept own] at hp
      exact owned.free j p hp
  case rest =>
    intro p nowhere
    have away : p ∉ nodes' := same ▸ nowhere i
    by_cases before : p ∈ nodes i
    · exact (op.freed p before away).trans (owned.free i p before).symm
    · rw [op.frame p before away]
      apply owned.rest
      intro j
      by_cases own : j = i
      · exact own ▸ before
      · exact kept own ▸ nowhere j

end

end Owned

end Ipk24Chat
