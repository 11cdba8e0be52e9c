import Ipk24Chat.Queue

/-!
# Message IDs in their order

A message is labelled with the counter, its CONFIRM carries the label back, and
the counter becomes the number read from the CONFIRM plus one. The low byte of the
label is read as a signed `char`, so the counter does not just count. It still
runs through all 65536 values before one comes again.

* `idNumber`: the value of the counter after `n` CONFIRMs;
* `idNumber_inj`: these are different for different `n` below 65536;
* `idPlace`: after how many CONFIRMs the counter has a value.
-/

namespace Ipk24Chat

/-- The counter after the CONFIRM of a message that was labelled with it. -/
def nextId (msgCounter : Nat) : Nat :=
  let (high, low) := breakU16IntToBytes msgCounter
  (convert2BytesToU16Int low high + 1) % 65536

/-- The counter after `n` messages were labelled and confirmed in turn. -/
def idNumber : Nat → Nat
  | 0 => 0
  | n + 1 => nextId (idNumber n)

/-- The sign of the high byte makes no difference modulo 65536. -/
theorem highByte_emod (low : Int) (high : Nat) :
    (low + (if high < 128 then (high : Int) else high - 256) * 256) % 65536 =
      (low + high * 256) % 65536 := by
  split
  · rfl
  · rw [Int.sub_mul, ← Int.add_sub_assoc]
    exact Int.sub_emod_right (low + high * 256) 65536

/-- A low byte from 128 on is read as negative, which borrows from the high byte.
When the low byte wraps, the borrow and the carry cancel. -/
theorem nextId_eq {high low : Nat} (hh : high < 256) (hl : low < 256) :
    nextId (256 * high + low) =
      if low < 128 then 256 * high + (low + 1)
      else if low = 255 then 256 * high
      else 256 * ((high + 255) % 256) + (low + 1) := by
  have lowByte : (256 * high + low) % 256 = low := by omega
  have highByte : (256 * high + low) / 256 = high := by omega
  have toLow : (UInt8.ofNat low).toNat = low := by simpa using Nat.mod_eq_of_lt hl
  have toHigh : (UInt8.ofNat high).toNat = high := by simpa using Nat.mod_eq_of_lt hh
  simp only [nextId, breakU16IntToBytes, convert2BytesToU16Int, schar, lowByte, highByte, toLow,
    toHigh, highByte_emod]
  clear lowByte highByte toLow toHigh
  by_cases positive : low < 128
  · simp only [positive, if_true]
    omega
  · simp only [positive, if_false]
    cases high with
    | zero =>
      split <;> omega
    | succ high =>
      have borrow : (high + 1 + 255) % 256 = high := by omega
      rw [borrow]
      split <;> omega

/-- The high byte of the counter in each block of 256, by the low byte. It goes
down by one with each low byte from 128 on. -/
def highOf (block low : Nat) : Nat := (129 * block + 255 * (low - 128)) % 256

theorem highOf_lt (block low : Nat) : highOf block low < 256 := Nat.mod_lt _ (by decide)

theorem highOf_low {block low : Nat} (h : low < 128) :
    highOf block (low + 1) = highOf block low := by
  have none : low + 1 - 128 = low - 128 := by omega
  simp only [highOf, none]

theorem highOf_borrow {block low : Nat} (h : ¬low < 128) :
    highOf block (low + 1) = (highOf block low + 255) % 256 := by
  have one : low + 1 - 128 = low - 128 + 1 := by omega
  simp only [highOf, one]
  omega

theorem highOf_wrap (block : Nat) : highOf (block + 1) 0 = highOf block 255 := by
  simp only [highOf]
  omega

theorem highOf_inj {block block' low : Nat} (hb : block < 256) (hb' : block' < 256)
    (h : highOf block low = highOf block' low) : block = block' := by
  simp only [highOf] at h
  generalize low - 128 = borrows at h
  have blocks : 129 * block % 256 = 129 * block' % 256 := by omega
  omega

theorem idNumber_eq (n : Nat) : idNumber n = 256 * highOf (n / 256) (n % 256) + n % 256 := by
  induction n with
  | zero => rfl
  | succ n ih =>
    have small : n % 256 < 256 := Nat.mod_lt _ (by decide)
    rw [idNumber, ih, nextId_eq (highOf_lt _ _) small]
    by_cases last : n % 256 = 255
    · have block : (n + 1) / 256 = n / 256 + 1 := by omega
      have low : (n + 1) % 256 = 0 := by omega
      rw [block, low, highOf_wrap, last, if_neg (by decide), if_pos rfl, Nat.add_zero]
    · have block : (n + 1) / 256 = n / 256 := by omega
      have low : (n + 1) % 256 = n % 256 + 1 := by omega
      rw [block, low, if_neg last]
      split
      · rw [highOf_low ‹_›]
      · rw [highOf_borrow ‹_›]

theorem idNumber_lt (n : Nat) : idNumber n < 65536 := by
  have high := highOf_lt (n / 256) (n % 256)
  rw [idNumber_eq]
  omega

theorem idNumber_inj {n n' : Nat} (hn : n < 65536) (hn' : n' < 65536)
    (h : idNumber n = idNumber n') : n = n' := by
  rw [idNumber_eq, idNumber_eq] at h
  have low : n % 256 = n' % 256 := by omega
  have high : highOf (n / 256) (n % 256) = highOf (n' / 256) (n % 256) := by
    rw [low] at h ⊢
    omega
  have block : n / 256 = n' / 256 := highOf_inj (by omega) (by omega) high
  omega

/-- The value comes again after 65536 CONFIRMs. -/
theorem idNumber_mod (n : Nat) : idNumber (n % 65536) = idNumber n := by
  have low : n % 65536 % 256 = n % 256 := by omega
  have block : n % 65536 / 256 = n / 256 % 256 := by omega
  have high : highOf (n / 256 % 256) (n % 256) = highOf (n / 256) (n % 256) := by
    simp only [highOf]
    omega
  rw [idNumber_eq, idNumber_eq, low, block, high]

/-- The place of a value in the order of the counter. -/
def idPlace (v : Nat) : Nat := 256 * (129 * (v / 256 + (v % 256 - 128)) % 256) + v % 256

theorem idPlace_lt (v : Nat) : idPlace v < 65536 := by
  unfold idPlace
  omega

theorem idNumber_idPlace {v : Nat} (small : v < 65536) : idNumber (idPlace v) = v := by
  have low : idPlace v % 256 = v % 256 := by unfold idPlace; omega
  have block : idPlace v / 256 = 129 * (v / 256 + (v % 256 - 128)) % 256 := by
    unfold idPlace
    omega
  have high : highOf (idPlace v / 256) (idPlace v % 256) = v / 256 := by
    rw [low, block]
    simp only [highOf]
    omega
  rw [idNumber_eq, high, low]
  omega

theorem idPlace_idNumber (n : Nat) : idPlace (idNumber n) = n % 65536 := by
  refine idNumber_inj (idPlace_lt _) (Nat.mod_lt _ (by decide)) ?_
  rw [idNumber_idPlace (idNumber_lt n), idNumber_mod]

namespace Message
variable {m m' : Message} {v v' : Nat}

/-- The ID bytes of the message are those of the number. -/
def Carries (m : Message) (v : Nat) : Prop :=
  (m.highMsgIdByte, m.lowMsgIdByte) = breakU16IntToBytes v

theorem carries_setMsgID (long : 3 ≤ m.buffer.length) : (m.setMsgID v).Carries v := by
  have first : 1 < m.buffer.length := by omega
  have second : 2 < m.buffer.length := by omega
  simp [Carries, setMsgID, highMsgIdByte, lowMsgIdByte, List.getD_eq_getElem?_getD,
    first, second]

theorem Carries.msgID_succ (h : m.Carries v) : (m.msgID + 1) % 65536 = nextId v := by
  have bytes := h
  simp only [Carries, breakU16IntToBytes, Prod.mk.injEq] at bytes
  simp only [msgID, nextId, breakU16IntToBytes, bytes]

theorem Carries.eq_of_bytes (h : m.Carries v) (h' : m'.Carries v') (hv : v < 65536)
    (hv' : v' < 65536) (low : m.lowMsgIdByte = m'.lowMsgIdByte)
    (high : m.highMsgIdByte = m'.highMsgIdByte) : v = v' := by
  simp only [Carries, breakU16IntToBytes, Prod.mk.injEq] at h h'
  have lows := congrArg UInt8.toNat (h.2.symm.trans (low.trans h'.2))
  have highs := congrArg UInt8.toNat (h.1.symm.trans (high.trans h'.1))
  simp only [UInt8.toNat_ofNat'] at lows highs
  omega

end Message

end Ipk24Chat
