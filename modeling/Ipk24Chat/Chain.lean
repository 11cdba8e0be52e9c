import Mathlib.Data.List.Nodup

/-!
# Chains of nodes

Linked lists in a heap: following `next` from a node until a given end. The
lemmas say what happens to a chain when nodes are added at either end, and that
writing to other nodes leaves it as it is.
-/

namespace Ipk24Chat

variable {A : Type} {next next' : A → Option A}

/-- Following `next` from `p` passes exactly the nodes `path` and arrives at `q`. -/
def Chain (next : A → Option A) : A → List A → A → Prop
  | p, [], q => p = q
  | p, a :: path, q => p = a ∧ ∃ b, next a = some b ∧ Chain next b path q

theorem chain_congr {p q : A} {path : List A} (h : Chain next p path q)
    (same : ∀ a ∈ path, next' a = next a) : Chain next' p path q := by
  induction path generalizing p with
  | nil => exact h
  | cons a path ih =>
    obtain ⟨rfl, b, link, rest⟩ := h
    have away : ∀ x ∈ path, next' x = next x := fun x hx => same x (List.mem_cons_of_mem _ hx)
    exact ⟨rfl, b, (same p List.mem_cons_self).trans link, ih rest away⟩

theorem chain_append {p q : A} {path path' : List A} :
    Chain next p (path ++ path') q ↔ ∃ r, Chain next p path r ∧ Chain next r path' q := by
  induction path generalizing p with
  | nil =>
    constructor
    · exact fun h => ⟨p, rfl, h⟩
    · rintro ⟨r, rfl, h⟩
      exact h
  | cons a path ih =>
    constructor
    · rintro ⟨rfl, b, link, rest⟩
      obtain ⟨r, first, second⟩ := ih.mp rest
      exact ⟨r, ⟨rfl, b, link, first⟩, second⟩
    · rintro ⟨r, ⟨rfl, b, link, first⟩, second⟩
      exact ⟨rfl, b, link, ih.mpr ⟨r, first, second⟩⟩

/-- Every node of a chain is there, so the end of the list is none of them. -/
theorem chain_mem {p q a : A} {path : List A} (h : Chain next p path q) (ha : a ∈ path) :
    (next a).isSome = true := by
  induction path generalizing p with
  | nil => cases ha
  | cons b path ih =>
    obtain ⟨rfl, c, link, rest⟩ := h
    rcases List.mem_cons.mp ha with rfl | ha
    · rw [link]
      rfl
    · exact ih rest ha

/-- A chain that starts at its end, where nothing follows, has no nodes. -/
theorem chain_end {q : A} {path : List A} (h : Chain next q path q) (stop : next q = none) :
    path = [] := by
  cases path with
  | nil => rfl
  | cons a path =>
    obtain ⟨rfl, b, link, -⟩ := h
    rw [stop] at link
    cases link

/-- The last node of a chain is linked behind by a node that was in none. -/
theorem chain_snoc {p q a l : A} {path : List A} (h : Chain next p (path ++ [l]) q)
    (same : ∀ x ∈ path, next' x = next x) (linked : next' l = some a) (added : next' a = some q) :
    Chain next' p (path ++ [l, a]) q := by
  obtain ⟨r, first, rfl, -⟩ := chain_append.mp h
  exact chain_append.mpr ⟨r, chain_congr first same, rfl, a, linked, rfl, q, added, rfl⟩

end Ipk24Chat
