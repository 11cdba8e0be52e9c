import Ipk24Chat.Disassemble

/-!
# Scans as text

What the scans and comparisons find, for a pointer at a known text.

* `exists_split`: a text has no stop byte, or it has a first one;
* `startsWith_iff`, `strncmpEq_word`: comparisons are about prefixes;
* `findZeroInString_hit`, `findBlankCharInString_hit`, `findNewLineInString_hit`,
  `skipBlankCharsInString_hit`: a scan stops at the first stop byte, and
  `findBlankCharInString_miss` and the like say what happens without one.
-/

namespace Ipk24Chat

theorem exists_split {α : Type} (stop : α → Bool) (l : List α) :
    (∀ x ∈ l, stop x = false) ∨
      ∃ a c b, l = a ++ c :: b ∧ (∀ x ∈ a, stop x = false) ∧ stop c = true := by
  induction l with
  | nil => exact Or.inl nofun
  | cons x l ih =>
    by_cases first : stop x = true
    · exact Or.inr ⟨[], x, l, rfl, nofun, first⟩
    · have clear : stop x = false := by simpa using first
      rcases ih with all | ⟨a, c, b, rfl, before, hit⟩
      · exact Or.inl (List.forall_mem_cons.mpr ⟨clear, all⟩)
      · exact Or.inr ⟨x :: a, c, b, rfl, List.forall_mem_cons.mpr ⟨clear, before⟩, hit⟩

theorem takeWhile_split {α : Type} {stop : α → Bool} {a b : List α} {c : α}
    (before : ∀ x ∈ a, stop x = false) (hit : stop c = true) :
    (a ++ c :: b).takeWhile (fun x => !stop x) = a := by
  rw [List.takeWhile_append_of_pos (by simpa using before)]
  simp [hit]

theorem takeWhile_clear {α : Type} {stop : α → Bool} {l : List α}
    (clear : ∀ x ∈ l, stop x = false) : l.takeWhile (fun x => !stop x) = l := by
  have whole : (l ++ []).takeWhile (fun x => !stop x) = l ++ [].takeWhile (fun x => !stop x) :=
    List.takeWhile_append_of_pos (by simpa using clear)
  simpa using whole

theorem dropWhile_split {α : Type} {stop : α → Bool} {a b : List α} {c : α}
    (before : ∀ x ∈ a, stop x = false) (hit : stop c = true) :
    (a ++ c :: b).dropWhile (fun x => !stop x) = c :: b := by
  rw [List.dropWhile_append_of_pos (by simpa using before)]
  simp [hit]

theorem dropWhile_clear {α : Type} {stop : α → Bool} {l : List α}
    (clear : ∀ x ∈ l, stop x = false) : l.dropWhile (fun x => !stop x) = [] := by
  have whole : (l ++ []).dropWhile (fun x => !stop x) = [].dropWhile (fun x => !stop x) :=
    List.dropWhile_append_of_pos (by simpa using clear)
  simpa using whole

/-! ## Text at a pointer -/

namespace CharPtr

/-- The text `l` stands at the pointer. -/
def Spells (p : CharPtr) (l : List UInt8) : Prop := p.read l.length = l

theorem spells_append {p : CharPtr} {a b : List UInt8} :
    p.Spells (a ++ b) ↔ p.Spells a ∧ (p.shift a.length).Spells b := by
  unfold Spells
  constructor
  · intro h
    exact Memory.read_split h
  · rintro ⟨front, back⟩
    have both := Memory.read_add p.mem p.off a.length b.length
    rw [List.length_append]
    exact both.trans (congrArg₂ (· ++ ·) front back)

theorem Spells.left {p : CharPtr} {a b : List UInt8} (h : p.Spells (a ++ b)) : p.Spells a :=
  (spells_append.mp h).1

theorem Spells.right {p : CharPtr} {a b : List UInt8} (h : p.Spells (a ++ b)) :
    (p.shift a.length).Spells b := (spells_append.mp h).2

theorem Spells.head {p : CharPtr} {c : UInt8} {l : List UInt8} (h : p.Spells (c :: l)) :
    p.get 0 = c := by
  have first := Memory.read_eq_cons h
  simpa [get] using first

theorem Spells.get {p : CharPtr} {a b : List UInt8} {c : UInt8} (h : p.Spells (a ++ c :: b)) :
    p.get a.length = c := by
  have first := h.right.head
  simpa [CharPtr.get, shift] using first

theorem spells_block {p : CharPtr} {l : List UInt8} (h : p.Spells l) :
    BytesBlock.bytes ⟨some p, l.length⟩ = l := by
  unfold Spells at h
  simpa [BytesBlock.bytes] using h

@[simp] theorem shift_zero (p : CharPtr) : p.shift 0 = p := by simp [shift]

@[simp] theorem shift_shift (p : CharPtr) (i j : Int) : (p.shift i).shift j = p.shift (i + j) := by
  simp [shift, Int.add_assoc]

theorem Spells.start {p : CharPtr} {a l : List UInt8} (h : p.Spells l) (front : a <+: l) :
    p.Spells a := by
  obtain ⟨b, rfl⟩ := front
  exact h.left

/-- Two texts at one pointer agree as far as both go. -/
theorem Spells.agree {p : CharPtr} {l l' : List UInt8} (h : p.Spells l) (h' : p.Spells l') :
    l <+: l' ∨ l' <+: l := by
  have cut {a b : List UInt8} (ha : p.Spells a) (hb : p.Spells b) (short : a.length ≤ b.length) :
      a <+: b := by
    have whole : p.Spells (b.take a.length) := hb.start (List.take_prefix _ _)
    have len : (b.take a.length).length = a.length := by simp [short]
    rw [List.prefix_iff_eq_take]
    unfold Spells at ha whole
    rw [len] at whole
    exact ha.symm.trans whole
  rcases Nat.le_total l.length l'.length with short | short
  · exact Or.inl (cut h h' short)
  · exact Or.inr (cut h' h short)

end CharPtr

/-! ## Comparisons -/

theorem strncmpEq_self_iff (p : CharPtr) (text : List UInt8) :
    strncmpEq p text text.length = true ↔ p.Spells text := by
  induction text generalizing p with
  | nil => simp [strncmpEq, CharPtr.Spells, CharPtr.read]
  | cons c text ih =>
    have split := CharPtr.spells_append (p := p) (a := [c]) (b := text)
    have first : p.Spells [c] ↔ p.get 0 = c := by
      simp [CharPtr.Spells, CharPtr.read, Memory.read_cons, CharPtr.get]
    simp only [List.cons_append, List.nil_append, List.length_singleton] at split
    simp only [List.length_cons, strncmpEq, Bool.and_eq_true, beq_iff_eq, split, first, ih]
    rfl

theorem startsWith_iff (p : CharPtr) (s : String) :
    startsWith p s = true ↔ p.Spells (ascii s) := strncmpEq_self_iff p (ascii s)

/-- The length of the word is the limit of the comparison: every beginning of the text
is taken for it. -/
theorem strncmpEq_word {p : CharPtr} {word text : List UInt8} (spelled : p.Spells word)
    (clear : 0 ∉ word) : strncmpEq p text word.length = true ↔ word <+: text := by
  induction word generalizing p text with
  | nil => simp [strncmpEq]
  | cons c word ih =>
    have rest : (p.shift 1).Spells word := (CharPtr.Spells.right (a := [c]) spelled)
    have other : 0 ∉ word := fun zero => clear (List.mem_cons_of_mem _ zero)
    cases text with
    | nil =>
      have nonzero : c ≠ 0 := fun zero => clear (zero ▸ List.mem_cons_self)
      simp [strncmpEq, spelled.head, nonzero]
    | cons d text =>
      simp only [List.length_cons, strncmpEq, Bool.and_eq_true, beq_iff_eq, spelled.head,
        ih rest other, List.cons_prefix_cons]

/-! ## Scans -/

section
variable {p : CharPtr} {a b : List UInt8} {c : UInt8}

theorem scan_hit (stop : UInt8 → Bool) {n : Nat} (h : p.Spells (a ++ c :: b))
    (before : ∀ x ∈ a, stop x = false) (hit : stop c = true) (bound : a.length < n) :
    p.scan stop n = some a.length := by
  refine Memory.scan_eq_some ?_ ?_ bound
  · rw [show p.mem.read p.off a.length = a from h.left]
    exact before
  · have found := h.get
    unfold CharPtr.get at found
    rw [found]
    exact hit

theorem scan_miss (stop : UInt8 → Bool) {l : List UInt8} (h : p.Spells l)
    (clear : ∀ x ∈ l, stop x = false) : p.scan stop l.length = none := by
  cases found : p.scan stop l.length with
  | none => rfl
  | some k =>
    obtain ⟨lt, hit, -⟩ := Memory.scan_some found
    have same : p.mem (p.off + k) = l.get ⟨k, lt⟩ := by
      have spelled : p.mem.read p.off l.length = l := h
      have entry := Memory.getElem_read p.mem p.off l.length k (by simpa using lt)
      simp only [spelled] at entry
      exact entry.symm
    rw [same, clear _ (List.get_mem l _)] at hit
    cases hit

theorem findBlankCharInString_hit {len : Int} (h : p.Spells (a ++ c :: b))
    (before : ∀ x ∈ a, isBlankOrEnd x = false) (hit : isBlankOrEnd c = true)
    (bound : a.length ≤ len) : findBlankCharInString p len = a.length := by
  have found := scan_hit _ (n := unsigned len + 1) h before hit (by
    rw [unsigned_of_nonneg (by omega)]
    omega)
  simp [findBlankCharInString, found]

theorem findBlankCharInString_miss {l : List UInt8} {len : Int} (h : p.Spells l)
    (clear : ∀ x ∈ l, isBlankOrEnd x = false) (bound : (l.length : Int) = len + 1)
    (nonneg : 0 ≤ len) : findBlankCharInString p len = -1 := by
  have n : unsigned len + 1 = l.length := by
    rw [unsigned_of_nonneg nonneg]
    omega
  simp [findBlankCharInString, n, scan_miss _ h clear]

theorem findNewLineInString_hit {len : Int} (h : p.Spells (a ++ c :: b))
    (before : ∀ x ∈ a, isLineEnd x = false) (hit : isLineEnd c = true)
    (bound : a.length ≤ len) : findNewLineInString p len = a.length := by
  have found := scan_hit _ (n := unsigned len + 1) h before hit (by
    rw [unsigned_of_nonneg (by omega)]
    omega)
  simp [findNewLineInString, found]

theorem findNewLineInString_miss {l : List UInt8} {len : Int} (h : p.Spells l)
    (clear : ∀ x ∈ l, isLineEnd x = false) (bound : (l.length : Int) = len + 1)
    (nonneg : 0 ≤ len) : findNewLineInString p len = -1 := by
  have n : unsigned len + 1 = l.length := by
    rw [unsigned_of_nonneg nonneg]
    omega
  simp [findNewLineInString, n, scan_miss _ h clear]

/-- A blank that `skipBlankCharsInString` passes over. -/
def isSpace (x : UInt8) : Bool := x == ch ' ' || x == ch '\t'

theorem skipBlankCharsInString_hit {len : Int} (h : p.Spells (a ++ c :: b))
    (before : ∀ x ∈ a, isSpace x = true) (hit : isSpace c = false)
    (bound : a.length < len) : skipBlankCharsInString p len = a.length := by
  have found := scan_hit (fun x => !(x == ch ' ' || x == ch '\t')) (n := unsigned len) h
    (fun x hx => congrArg not (before x hx)) (congrArg not hit) (by
      rw [unsigned_of_nonneg (by omega)]
      omega)
  simp only [skipBlankCharsInString, found]

theorem skipBlankCharsInString_miss {l : List UInt8} (h : p.Spells l)
    (clear : ∀ x ∈ l, isSpace x = true) : skipBlankCharsInString p l.length = -1 := by
  have missed := scan_miss (fun x => !(x == ch ' ' || x == ch '\t')) h
    (fun x hx => congrArg not (clear x hx))
  simp only [skipBlankCharsInString, unsigned_natCast, missed]

end

end Ipk24Chat
