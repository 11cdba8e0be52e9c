import Mathlib.Data.List.TakeWhile
import Ipk24Chat.Buffer

/-!
# Reading a line from stdin

`loadBufferFromStdin` on any stream. The buffer is doubled when it is full, but the
terminating zero is written without a look at the capacity, and a byte 0xFF is the `EOF`
of a signed `char`.

* `Grown`: the capacities that doubling leads to;
* `loadLoop_reads`: what the loop leaves behind;
* `loadsExactly_iff`: the lines that are read exactly.
-/

namespace Ipk24Chat

/-! ## Doubling -/

/-- A capacity for `n` elements, doubled from `initial` only where it was too small. -/
def Grown (initial n capacity : Nat) : Prop :=
  ∃ k, capacity = initial * 2 ^ k ∧ n ≤ capacity ∧ ∀ j < k, initial * 2 ^ j < n

section
variable {initial n capacity : Nat}

theorem grown_initial (h : n ≤ initial) : Grown initial n initial :=
  ⟨0, (Nat.mul_one initial).symm, h, nofun⟩

theorem Grown.more (h : Grown initial n capacity) (room : n < capacity) :
    Grown initial (n + 1) capacity := by
  obtain ⟨k, eq, -, small⟩ := h
  exact ⟨k, eq, room, fun j hj => Nat.lt_succ_of_lt (small j hj)⟩

theorem Grown.double (h : Grown initial n capacity) (pos : 0 < initial) (full : n = capacity) :
    Grown initial (n + 1) (capacity * 2) := by
  obtain ⟨k, eq, -, small⟩ := h
  have some : 0 < initial * 2 ^ k := Nat.mul_pos pos (Nat.two_pow_pos k)
  refine ⟨k + 1, ?_, by omega, fun j hj => ?_⟩
  · rw [eq, Nat.pow_succ, Nat.mul_assoc]
  · rcases Nat.lt_succ_iff_lt_or_eq.mp hj with earlier | rfl
    · exact Nat.lt_succ_of_lt (small j earlier)
    · omega

/-- There is room for one more exactly if the capacity was not met. -/
theorem Grown.lt_iff (h : Grown initial n capacity) :
    n < capacity ↔ ∀ k, n ≠ initial * 2 ^ k := by
  obtain ⟨k, rfl, le, small⟩ := h
  constructor
  · intro room j met
    rcases Nat.lt_or_ge j k with earlier | later
    · exact absurd met (Nat.ne_of_gt (small j earlier))
    · have far : initial * 2 ^ k ≤ initial * 2 ^ j :=
        Nat.mul_le_mul_left _ (Nat.pow_le_pow_right (by decide) later)
      omega
  · intro missed
    exact Nat.lt_of_le_of_ne le (missed k)

end

/-! ## The loop -/

theorem bufferResize_read {fresh : Memory} {b : Buffer} {n : Int} {i : Nat}
    (inside : i ≤ b.allocated) : (bufferResize fresh b n).mem.read 0 i = b.mem.read 0 i := by
  unfold bufferResize
  split
  · rfl
  · apply Memory.read_congr
    intro j hj
    simp only [Buffer.mem, Option.getD_some]
    rw [if_pos (by omega)]

/-- The loop takes the bytes up to the first one that `isEndingCharacter` stops at. -/
theorem loadLoop_reads (fresh : Memory) {initial : Nat} (pos : 0 < initial) (stdin : List UInt8)
    {b : Buffer} {i : Nat} (given : b.data.isSome) (grown : Grown initial i b.allocated) :
    ∃ b', loadLoop fresh b i stdin =
        (b', i + (stdin.takeWhile isEndingCharacter).length,
          getc (stdin.dropWhile isEndingCharacter), (stdin.dropWhile isEndingCharacter).tail) ∧
      b'.mem.read 0 (i + (stdin.takeWhile isEndingCharacter).length) =
        b.mem.read 0 i ++ stdin.takeWhile isEndingCharacter ∧
      Grown initial (i + (stdin.takeWhile isEndingCharacter).length) b'.allocated := by
  induction stdin generalizing b i with
  | nil => exact ⟨b, rfl, (List.append_nil _).symm, grown⟩
  | cons c rest ih =>
    by_cases goesOn : isEndingCharacter c = true
    · obtain ⟨room, eq, inside, kept⟩ : ∃ room : Buffer,
          (if b.data.isNone ∨ b.allocated = 0 then bufferResize fresh b initialBufferSize
            else if b.allocated - 1 < i then bufferResize fresh b (b.allocated * 2 : Nat)
            else b) = room ∧ Grown initial (i + 1) room.allocated ∧
          room.mem.read 0 i = b.mem.read 0 i := by
        refine ⟨_, rfl, ?_⟩
        have some : 0 < b.allocated := by
          obtain ⟨k, eq, -⟩ := grown
          rw [eq]
          exact Nat.mul_pos pos (Nat.two_pow_pos k)
        have le : i ≤ b.allocated := grown.choose_spec.2.1
        rw [if_neg (by simp [Option.isNone_eq_false_iff.mpr given]; omega)]
        split
        · refine ⟨?_, bufferResize_read le⟩
          rw [bufferResize_allocated, unsigned_natCast,
            Nat.max_eq_right (Nat.le_mul_of_pos_right _ (by decide))]
          exact grown.double pos (by omega)
        · exact ⟨grown.more (by omega), rfl⟩
      obtain ⟨b', run, read, grown'⟩ :=
        ih (b := { room with data := some (room.mem.write i [c]) }) rfl inside
      have next : i + 1 + (rest.takeWhile isEndingCharacter).length =
          i + ((c :: rest).takeWhile isEndingCharacter).length := by
        rw [List.takeWhile_cons_of_pos goesOn, List.length_cons]
        omega
      rw [next] at run read grown'
      refine ⟨b', ?_, ?_, grown'⟩
      · rw [List.dropWhile_cons_of_pos goesOn, ← run, loadLoop, if_pos goesOn]
        simp only [eq]
      · have wrote := Memory.read_write_append room.mem 0 i [c]
        rw [Int.zero_add, List.length_singleton, kept] at wrote
        rw [read, List.takeWhile_cons_of_pos goesOn, List.append_cons, ← wrote]
        rfl
    · refine ⟨b, ?_, ?_, ?_⟩
      · rw [List.takeWhile_cons_of_neg goesOn, List.dropWhile_cons_of_neg goesOn, loadLoop,
          if_neg goesOn]
        rfl
      · rw [List.takeWhile_cons_of_neg goesOn, List.append_nil]
        rfl
      · rw [List.takeWhile_cons_of_neg goesOn]
        exact grown

/-! ## Exactly the line -/

/-- Newline, Ctrl-D and Ctrl-C, as the comment in `isEndingCharacter` has them. -/
def endsLine (c : UInt8) : Bool := c == ch '\n' || c == 3 || c == 4

/-- The bytes before the first one that ends a line, or before the end of stdin. -/
def lineOf (stdin : List UInt8) : List UInt8 := stdin.takeWhile fun c => !endsLine c

/-- The line was read faithfully and in bounds. -/
structure Loaded.Exactly (loaded : Loaded) (eofDetected : Bool) (stdin : List UInt8) : Prop where
  used : loaded.used = (lineOf stdin).length
  bytes : loaded.buffer.mem.read 0 loaded.used = lineOf stdin
  terminated : loaded.buffer.mem loaded.used = 0
  inside : loaded.used < loaded.buffer.allocated
  eof : loaded.eofDetected = true → eofDetected = true ∨ lineOf stdin = stdin

/-- The byte 0xFF is the only one that is taken for `EOF`. -/
theorem schar_eof (c : UInt8) : schar c = -1 ↔ c = 255 := by
  have bound := c.toNat_lt
  unfold schar
  constructor
  · intro eof
    apply UInt8.toNat_inj.mp
    have value : (255 : UInt8).toNat = 255 := rfl
    split at eof <;> omega
  · rintro rfl
    rfl

theorem isEndingCharacter_eq (c : UInt8) :
    isEndingCharacter c = (c != 255 && !endsLine c) := by
  have eof : (schar c == -1) = (c == 255) := Bool.eq_iff_iff.mpr (by simp [schar_eof])
  unfold isEndingCharacter endsLine
  rw [eof]
  simp only [Bool.not_or, bne, Bool.and_assoc]

theorem takeWhile_ending (stdin : List UInt8) :
    stdin.takeWhile isEndingCharacter = (lineOf stdin).takeWhile (· != 255) := by
  rw [lineOf, List.takeWhile_takeWhile]
  refine congrArg (List.takeWhile · stdin) (funext fun c => ?_)
  rw [isEndingCharacter_eq, Bool.decide_and, Bool.decide_coe, Bool.decide_coe]

theorem takeWhile_ending_eq_iff {stdin : List UInt8} :
    stdin.takeWhile isEndingCharacter = lineOf stdin ↔ 255 ∉ lineOf stdin := by
  rw [takeWhile_ending, List.takeWhile_eq_self_iff]
  simp only [bne_iff_ne]
  exact ⟨fun clear mem => clear 255 mem rfl, fun clear c mem same => clear (same ▸ mem)⟩

/-- Behind a line without a byte 0xFF only the end of stdin is read as `EOF`. -/
theorem lineOf_of_eof {stdin : List UInt8} (clear : 255 ∉ lineOf stdin)
    (eof : schar (getc (stdin.dropWhile isEndingCharacter)) = -1) : lineOf stdin = stdin := by
  have front := takeWhile_ending_eq_iff.mpr clear
  have whole : lineOf stdin ++ stdin.dropWhile isEndingCharacter = stdin := by
    rw [← front, List.takeWhile_append_dropWhile]
  cases behind : stdin.dropWhile isEndingCharacter with
  | nil =>
    rw [behind, List.append_nil] at whole
    exact whole
  | cons c rest =>
    rw [behind] at eof whole
    obtain rfl : c = 255 := (schar_eof c).mp eof
    have rest' : stdin.dropWhile (fun c => !endsLine c) = 255 :: rest := by
      have split : lineOf stdin ++ stdin.dropWhile (fun c => !endsLine c) = stdin :=
        List.takeWhile_append_dropWhile
      exact List.append_cancel_left (split.trans whole.symm)
    have stops := List.head?_dropWhile_not (fun c => !endsLine c) stdin
    rw [rest'] at stops
    have ends : (!endsLine 255) = false := stops
    exact absurd ends (by decide)

/-- A line is read exactly if it has no byte 0xFF and its length is none of the capacities
that the buffer goes through. -/
theorem loadedExactly_iff (fresh : Memory) {buffer : Buffer} (given : buffer.data.isSome)
    (some : 1 ≤ buffer.allocated) (eofDetected : Bool) (stdin : List UInt8) :
    (loadBufferFromStdin fresh buffer eofDetected stdin).Exactly eofDetected stdin ↔
      255 ∉ lineOf stdin ∧ ∀ k, (lineOf stdin).length ≠ buffer.allocated * 2 ^ k := by
  obtain ⟨b, run, read, grown⟩ := loadLoop_reads fresh (show 0 < buffer.allocated from some)
    stdin given (grown_initial (Nat.zero_le _))
  rw [Nat.zero_add] at run read grown
  have loaded : loadBufferFromStdin fresh buffer eofDetected stdin =
      { buffer := { b with
          data := Option.some (b.mem.write (stdin.takeWhile isEndingCharacter).length [0]) }
        used := (stdin.takeWhile isEndingCharacter).length
        eofDetected := eofDetected || schar (getc (stdin.dropWhile isEndingCharacter)) == -1
        rest := (stdin.dropWhile isEndingCharacter).tail } := by
    unfold loadBufferFromStdin
    rw [run]
  rw [loaded]
  constructor
  · intro exact
    have same : stdin.takeWhile isEndingCharacter = lineOf stdin := by
      have front : stdin.takeWhile isEndingCharacter <+: lineOf stdin := by
        rw [takeWhile_ending]
        exact List.takeWhile_prefix _
      exact front.eq_of_length exact.used
    have room := exact.inside
    rw [same] at grown room
    exact ⟨takeWhile_ending_eq_iff.mp same, grown.lt_iff.mp room⟩
  · rintro ⟨clear, missed⟩
    have same := takeWhile_ending_eq_iff.mpr clear
    rw [same] at grown read ⊢
    have terminated : (b.mem.write (lineOf stdin).length [0]).read (lineOf stdin).length 1 = [0] :=
      Memory.read_write_self _ _ _
    constructor
    case used => rfl
    case bytes =>
      change (b.mem.write (lineOf stdin).length [0]).read 0 (lineOf stdin).length = lineOf stdin
      rw [Memory.read_write_before (by omega), read]
      rfl
    case terminated => exact Memory.read_eq_cons terminated
    case inside => exact grown.lt_iff.mpr missed
    case eof =>
      intro detected
      simp only [Bool.or_eq_true, beq_iff_eq] at detected
      exact detected.imp_right (lineOf_of_eof clear)

/-- The line "hi" fits behind the server address. -/
theorem loadedExactly_hi :
    (loadBufferFromStdin (fun _ => 0) ⟨some fun _ => 0, 10, 10⟩ false
      (ascii "hi\n")).Exactly false (ascii "hi\n") :=
  (loadedExactly_iff (fun _ => 0) rfl (by decide) false (ascii "hi\n")).mpr
    ⟨by decide, fun k => Nat.ne_of_lt (Nat.lt_of_lt_of_le (by decide)
      (Nat.le_mul_of_pos_right 10 (Nat.two_pow_pos k)))⟩

/-- "-s 127.0.0.1" leaves a buffer of ten bytes: the terminating zero of a line of ten bytes
is written behind it. -/
theorem not_loadedExactly_ten :
    ¬ (loadBufferFromStdin (fun _ => 0) ⟨some fun _ => 0, 10, 10⟩ false
      (ascii "0123456789\n")).Exactly false (ascii "0123456789\n") :=
  fun exact => absurd exact.inside (by decide)

end Ipk24Chat
