import Mathlib.Algebra.Group.Int.Defs
import Mathlib.Algebra.GroupWithZero.Nat
import Mathlib.Data.List.Basic
import Mathlib.Data.List.Range

/-!
# Byte memory

C strings are read and written through pointers, and a scan that misses its
terminator reads on past the object. `Memory` therefore has a byte at every
offset: offset 0 is the first byte of the object, negative offsets lie before
it, and nothing here knows where the object ends.

* `read_write_append`: writing right behind what was read appends to it;
* `scan_eq_some`: a scan stops exactly behind a run of bytes without a stop byte;
* `scan_some`: what a successful scan has seen.
-/

namespace Ipk24Chat

abbrev Memory := Int → UInt8

namespace Memory

def read (m : Memory) (pos : Int) (n : Nat) : List UInt8 :=
  (List.range n).map fun i : Nat => m (pos + i)

def write (m : Memory) (pos : Int) (bytes : List UInt8) : Memory := fun i =>
  if pos ≤ i ∧ i < pos + bytes.length then bytes.getD (i - pos).toNat 0 else m i

/-- Index of the first stop byte among the `n` bytes at `pos`. -/
def scan (stop : UInt8 → Bool) (m : Memory) (pos : Int) : Nat → Option Nat
  | 0 => none
  | n + 1 => if stop (m pos) then some 0 else (scan stop m (pos + 1) n).map (· + 1)

@[simp] theorem read_zero (m : Memory) (pos : Int) : m.read pos 0 = [] := rfl

@[simp] theorem length_read (m : Memory) (pos : Int) (n : Nat) : (m.read pos n).length = n := by
  simp [read]

theorem read_add (m : Memory) (pos : Int) (a b : Nat) :
    m.read pos (a + b) = m.read pos a ++ m.read (pos + a) b := by
  simp only [read, List.range_add, List.map_append, List.map_map]
  congr 1
  apply List.map_congr_left
  intro i _
  simp [Int.add_assoc]

theorem read_cons (m : Memory) (pos : Int) (n : Nat) :
    m.read pos (n + 1) = m pos :: m.read (pos + 1) n := by
  have split := read_add m pos 1 n
  rw [Nat.add_comm 1 n] at split
  simpa [read] using split

theorem read_congr {m m' : Memory} {pos pos' : Int} {n : Nat}
    (same : ∀ i : Nat, i < n → m (pos + i) = m' (pos' + i)) : m.read pos n = m'.read pos' n := by
  apply List.map_congr_left
  intro i hi
  exact same i (List.mem_range.mp hi)

theorem getElem_read (m : Memory) (pos : Int) (n i : Nat) (h : i < (m.read pos n).length) :
    (m.read pos n)[i] = m (pos + i) := by
  simp [read]

/-- Bytes read as `a ++ b` are `a`, and `b` right behind it. -/
theorem read_split {m : Memory} {pos : Int} {n : Nat} {a b : List UInt8}
    (h : m.read pos n = a ++ b) :
    m.read pos a.length = a ∧ m.read (pos + a.length) b.length = b := by
  have hn : n = a.length + b.length := by
    have := congrArg List.length h
    simpa using this
  rw [hn, read_add] at h
  exact List.append_inj h (by simp)

theorem read_eq_cons {m : Memory} {pos : Int} {n : Nat} {c : UInt8} {rest : List UInt8}
    (h : m.read pos n = c :: rest) : m pos = c := by
  cases n with
  | zero => simp at h
  | succ n =>
    rw [read_cons] at h
    exact (List.cons.inj h).1

theorem write_outside {m : Memory} {pos i : Int} {bytes : List UInt8}
    (out : i < pos ∨ pos + bytes.length ≤ i) : m.write pos bytes i = m i := by
  unfold write
  rw [if_neg]
  omega

theorem write_byte (m : Memory) (pos i : Int) (b : UInt8) :
    m.write pos [b] i = if i = pos then b else m i := by
  by_cases here : i = pos
  · subst here
    simp only [write, Int.le_refl, List.length_singleton, true_and, Int.sub_self, if_true]
    exact if_pos (by omega)
  · simp only [write, List.length_singleton, here, if_false]
    exact if_neg (by omega)

theorem write_inside (m : Memory) (pos : Int) {bytes : List UInt8} {i : Nat}
    (inside : i < bytes.length) : m.write pos bytes (pos + i) = bytes[i] := by
  have index : (pos + (i : Int) - pos).toNat = i := by omega
  rw [write, if_pos (by omega), index, List.getD_eq_getElem?_getD, List.getElem?_eq_getElem inside]
  rfl

theorem read_write_self (m : Memory) (pos : Int) (bytes : List UInt8) :
    (m.write pos bytes).read pos bytes.length = bytes := by
  apply List.ext_getElem (by simp)
  intro i hi hb
  rw [getElem_read, write, if_pos (by omega)]
  have index : (pos + (i : Int) - pos).toNat = i := by omega
  rw [index, List.getD_eq_getElem?_getD, List.getElem?_eq_getElem hb]
  rfl

theorem read_write_before {m : Memory} {pos start : Int} {n : Nat} {bytes : List UInt8}
    (before : start + n ≤ pos) : (m.write pos bytes).read start n = m.read start n := by
  apply read_congr
  intro i hi
  exact write_outside (Or.inl (by omega))

theorem read_write_append (m : Memory) (start : Int) (n : Nat) (bytes : List UInt8) :
    (m.write (start + n) bytes).read start (n + bytes.length) = m.read start n ++ bytes := by
  rw [read_add, read_write_before (Int.le_refl _), read_write_self]

theorem scan_eq_some {stop : UInt8 → Bool} {m : Memory} {pos : Int} {k n : Nat}
    (clear : ∀ b ∈ m.read pos k, stop b = false) (hit : stop (m (pos + k)) = true) (bound : k < n) :
    scan stop m pos n = some k := by
  induction k generalizing pos n with
  | zero =>
    obtain ⟨n, rfl⟩ : ∃ n', n = n' + 1 := ⟨n - 1, by omega⟩
    simpa [scan] using hit
  | succ k ih =>
    obtain ⟨n, rfl⟩ : ∃ n', n = n' + 1 := ⟨n - 1, by omega⟩
    rw [read_cons] at clear
    have first : stop (m pos) = false := clear _ List.mem_cons_self
    have next : pos + 1 + (k : Int) = pos + ((k + 1 : Nat) : Int) := by omega
    have rest : scan stop m (pos + 1) n = some k :=
      ih (fun b hb => clear b (List.mem_cons_of_mem _ hb)) (by rw [next]; exact hit) (by omega)
    simp [scan, first, rest]

theorem scan_some {stop : UInt8 → Bool} {m : Memory} {pos : Int} {k n : Nat}
    (h : scan stop m pos n = some k) :
    k < n ∧ stop (m (pos + k)) = true ∧ ∀ b ∈ m.read pos k, stop b = false := by
  induction n generalizing pos k with
  | zero => simp [scan] at h
  | succ n ih =>
    simp only [scan] at h
    split at h
    · cases h
      exact ⟨by omega, by simpa, by simp⟩
    · rename_i first
      obtain ⟨j, hj, rfl⟩ := Option.map_eq_some_iff.mp h
      obtain ⟨lt, hit, clear⟩ := ih hj
      refine ⟨by omega, ?_, ?_⟩
      · rw [show pos + ((j + 1 : Nat) : Int) = pos + 1 + (j : Int) by omega]; exact hit
      · intro b hb
        rw [read_cons] at hb
        rcases List.mem_cons.mp hb with rfl | hb
        · simpa using first
        · exact clear b hb

/-- A scan that has a stop byte within its bound does not miss it. -/
theorem scan_of_hit {stop : UInt8 → Bool} {m : Memory} {pos : Int} (k : Nat) {n : Nat}
    (hit : stop (m (pos + k)) = true) (bound : k < n) : ∃ j, scan stop m pos n = some j := by
  induction n generalizing pos k with
  | zero => omega
  | succ n ih =>
    simp only [scan]
    split
    · exact ⟨0, rfl⟩
    · rename_i first
      cases k with
      | zero => exact absurd (by simpa using hit) first
      | succ k =>
        have next : pos + 1 + (k : Int) = pos + ((k + 1 : Nat) : Int) := by omega
        obtain ⟨j, hj⟩ : ∃ j, scan stop m (pos + 1) n = some j :=
          ih k (by rw [next]; exact hit) (by omega)
        exact ⟨j + 1, by rw [hj]; rfl⟩

end Memory

/-- A `char*`: the object it points into and the offset it points at. -/
structure CharPtr where
  mem : Memory
  off : Int

namespace CharPtr

def get (p : CharPtr) (i : Int) : UInt8 := p.mem (p.off + i)

/-- `&(p[i])`. -/
def shift (p : CharPtr) (i : Int) : CharPtr := ⟨p.mem, p.off + i⟩

def read (p : CharPtr) (n : Nat) : List UInt8 := p.mem.read p.off n

def scan (stop : UInt8 → Bool) (p : CharPtr) (n : Nat) : Option Nat := p.mem.scan stop p.off n

end CharPtr

/-- A `size_t` is kept as the integer the code computed: a negative one stands
for the huge value it wraps to, which as an index moves the pointer backwards. -/
def unsigned (v : Int) : Nat := if 0 ≤ v then v.toNat else (2 ^ 64 + v).toNat

theorem unsigned_of_nonneg {v : Int} (h : 0 ≤ v) : unsigned v = v.toNat := if_pos h

@[simp] theorem unsigned_natCast (n : Nat) : unsigned (n : Int) = n := by
  simp [unsigned]

end Ipk24Chat
