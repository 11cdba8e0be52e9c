import Mathlib.Data.List.Nodup
import Mathlib.Data.List.Basic

/-!
# A channel that loses all or nothing

What is put into a channel comes out in the same order, each item once. Now and then
the channel is flushed, and everything that is inside is lost.
-/

namespace Ipk24Chat

/-- `accepted`, `sent` and `lost` are all items so far, oldest first. -/
structure Channel (α : Type) where
  accepted : List α
  sent : List α
  pending : List α
  lost : List α

namespace Channel
variable {α : Type}

def accept (ch : Channel α) (x : α) : Channel α :=
  { ch with accepted := ch.accepted ++ [x], pending := ch.pending ++ [x] }

def send (ch : Channel α) : Channel α :=
  match ch.pending with
  | [] => ch
  | x :: rest => { ch with sent := ch.sent ++ [x], pending := rest }

def flush (ch : Channel α) : Channel α :=
  { ch with pending := [], lost := ch.lost ++ ch.pending }

variable [DecidableEq α]

/-- Items come out in order and each once, but for those that were lost. -/
structure InOrder (ch : Channel α) : Prop where
  nodup : ch.accepted.Nodup
  lost : ∀ x ∈ ch.lost, x ∈ ch.accepted
  order : ch.sent ++ ch.pending = ch.accepted.filter (· ∉ ch.lost)

theorem inOrder_empty : InOrder (⟨[], [], [], []⟩ : Channel α) := ⟨List.nodup_nil, nofun, rfl⟩

variable {ch : Channel α}

theorem InOrder.pending_accepted (h : ch.InOrder) {x : α} (pending : x ∈ ch.pending) :
    x ∈ ch.accepted := by
  have kept : x ∈ ch.accepted.filter (· ∉ ch.lost) := by
    rw [← h.order]
    exact List.mem_append_right _ pending
  exact (List.mem_filter.mp kept).1

theorem InOrder.accept (h : ch.InOrder) {x : α} (fresh : x ∉ ch.accepted) :
    (ch.accept x).InOrder where
  nodup := by
    rw [Channel.accept, List.nodup_append]
    refine ⟨h.nodup, List.nodup_singleton x, ?_⟩
    rintro y old z new rfl
    exact fresh (List.mem_singleton.mp new ▸ old)
  lost y gone := List.mem_append_left _ (h.lost y gone)
  order := by
    have safe : x ∉ ch.lost := fun gone => fresh (h.lost x gone)
    change ch.sent ++ (ch.pending ++ [x]) = (ch.accepted ++ [x]).filter (· ∉ ch.lost)
    rw [List.filter_append, ← h.order, List.append_assoc]
    simp [safe]

theorem InOrder.send (h : ch.InOrder) : ch.send.InOrder := by
  unfold Channel.send
  split
  · exact h
  · rename_i x rest pending
    refine ⟨h.nodup, h.lost, ?_⟩
    rw [← h.order, pending]
    simp

theorem InOrder.flush (h : ch.InOrder) : ch.flush.InOrder where
  nodup := h.nodup
  lost x gone := by
    rcases List.mem_append.mp gone with gone | gone
    · exact h.lost x gone
    · exact h.pending_accepted gone
  order := by
    have once : (ch.sent ++ ch.pending).Nodup := h.order ▸ h.nodup.filter _
    -- what is pending is filtered out of what is left of the accepted items
    have again : ch.accepted.filter (· ∉ ch.lost ++ ch.pending) =
        (ch.sent ++ ch.pending).filter (· ∉ ch.pending) := by
      rw [h.order, List.filter_filter]
      congr 1
      funext x
      simp only [List.mem_append, not_or, Bool.decide_and]
      exact Bool.and_comm _ _
    have apart : ∀ x ∈ ch.sent, x ∉ ch.pending := fun x sent pending =>
      (List.nodup_append.mp once).2.2 x sent x pending rfl
    change ch.sent ++ [] = ch.accepted.filter (· ∉ ch.lost ++ ch.pending)
    rw [again, List.filter_append, List.filter_eq_self.mpr (by simpa using apart),
      List.filter_eq_nil_iff.mpr (by simp)]

end Channel

end Ipk24Chat
