import Ipk24Chat.Memory

/-!
# Common helpers

`utils.c` and the enumerations of `utils.h`: the scanners that split strings,
the conversions between message IDs and bytes, and command types.
-/

namespace Ipk24Chat

/-- State of the finite state machine shared by the three threads. -/
inductive Fsm where
  | fsmStart
  | fsmAuthW82BeSended
  | fsmAuthSended
  | fsmW84Reply
  | fsmW84ReplyConf
  | fsmOpen
  | fsmJoinAtempt
  | fsmEmptyQBye
  | fsmErr
  | fsmErrW84Conf
  | fsmSigintBye
  | fsmEndW84Conf
  | fsmEnd
  deriving DecidableEq, Repr

/-- The value of the C enumerator; the code compares states with `<` and `<=`. -/
def Fsm.toNat : Fsm → Nat
  | .fsmStart => 0
  | .fsmAuthW82BeSended => 1
  | .fsmAuthSended => 2
  | .fsmW84Reply => 3
  | .fsmW84ReplyConf => 4
  | .fsmOpen => 5
  | .fsmJoinAtempt => 6
  | .fsmEmptyQBye => 7
  | .fsmErr => 8
  | .fsmErrW84Conf => 9
  | .fsmSigintBye => 10
  | .fsmEndW84Conf => 11
  | .fsmEnd => 12

inductive CommandType where
  | cmdAuth
  | cmdJoin
  | cmdRename
  | cmdHelp
  | cmdConf
  | cmdMsg
  | cmdErr
  | cmdExit
  | cmdMissing
  | cmdNone
  | cmdConversionErr
  deriving DecidableEq, Repr

/-- The enumerator as it is stored in the `unsigned char` type fields. -/
def CommandType.toUChar : CommandType → UInt8
  | .cmdAuth => 0
  | .cmdJoin => 1
  | .cmdRename => 2
  | .cmdHelp => 3
  | .cmdConf => 4
  | .cmdMsg => 5
  | .cmdErr => 6
  | .cmdExit => 7
  | .cmdMissing => 8
  | .cmdNone => 9
  | .cmdConversionErr => 10

def uchar2CommandType (input : UInt8) : CommandType :=
  match input.toNat with
  | 0 => .cmdAuth
  | 1 => .cmdJoin
  | 2 => .cmdRename
  | 3 => .cmdHelp
  | 4 => .cmdConf
  | 5 => .cmdMsg
  | 6 => .cmdErr
  | 7 => .cmdExit
  | 8 => .cmdMissing
  | 9 => .cmdNone
  | _ => .cmdConversionErr

@[simp] theorem uchar2CommandType_toUChar (c : CommandType) :
    uchar2CommandType c.toUChar = c := by
  cases c <;> rfl

inductive ErrorCode where
  | errNoErr
  | errMisingProgramArg
  | errNetworkInit
  | errCommunication
  | errInternalUnexpectedResult
  | errInternalBadArg
  | errMemoryFail
  deriving DecidableEq, Repr

/-- The arguments of a call of `errHandling`, which never returns. -/
structure Failure where
  msg : String
  errorCode : ErrorCode
  deriving DecidableEq, Repr

/-- A block of bytes that is pointed at and not owned; `none` is NULL. -/
structure BytesBlock where
  start : Option CharPtr
  len : Int

namespace BytesBlock

def null : BytesBlock := ⟨none, 0⟩

/-- The bytes the block spells. -/
def bytes (b : BytesBlock) : List UInt8 :=
  match b.start with
  | none => []
  | some p => p.read (unsigned b.len)

end BytesBlock

def ch (c : Char) : UInt8 := UInt8.ofNat c.toNat

def ascii (s : String) : List UInt8 := s.toList.map ch

/-- A literal of the program text as a block. -/
def literal (s : String) : BytesBlock :=
  ⟨some ⟨Memory.write (fun _ => 0) 0 (ascii s), 0⟩, (ascii s).length⟩

/-! ## Searching in strings -/

def isBlankOrEnd (c : UInt8) : Bool :=
  c == ch ' ' || c == ch '\t' || c == 0 || c == ch '\n' || c == ch '\r'

def isLineEnd (c : UInt8) : Bool :=
  c == 0 || c == ch '\n' || c == ch '\r'

/-- The loop runs while `index <= len`, so it looks at `len + 1` bytes. -/
def findBlankCharInString (string : CharPtr) (len : Int) : Int :=
  match string.scan isBlankOrEnd (unsigned len + 1) with
  | some index => index
  | none => -1

def findNewLineInString (string : CharPtr) (len : Int) : Int :=
  match string.scan isLineEnd (unsigned len + 1) with
  | some index => index
  | none => -1

/-- The second test of the loop (zero byte or newline) is behind a test that
already returned for both, so it never fires. -/
def skipBlankCharsInString (string : CharPtr) (len : Int) : Int :=
  match string.scan (fun c => !(c == ch ' ' || c == ch '\t')) (unsigned len) with
  | some index => index
  | none => -1

def findZeroInString (string : CharPtr) (len : Int) : Except Failure Int :=
  let index : Nat := (string.scan (· == 0) (unsigned len)).getD (unsigned len)
  if index = 0 then
    .error ⟨"Internal error in findZeroInString(), '\\0' was not found", .errInternalBadArg⟩
  else .ok index

def getWord (block : BytesBlock) (startOfLastWord : CharPtr) (bufferSize : Int) :
    Bool × BytesBlock :=
  if unsigned bufferSize = 0 then (false, block)
  else
    let start := startOfLastWord.shift (skipBlankCharsInString startOfLastWord bufferSize)
    let len := findBlankCharInString start (bufferSize - block.len)
    (decide (len ≠ 0), ⟨some start, len⟩)

/-- `strncmp(p, text, n) == 0` for a literal `text` without zero bytes. -/
def strncmpEq (p : CharPtr) : List UInt8 → Nat → Bool
  | _, 0 => true
  | [], _ + 1 => p.get 0 == 0
  | c :: text, n + 1 => p.get 0 == c && strncmpEq (p.shift 1) text n

theorem strncmpEq_of_read {p : CharPtr} {text : List UInt8} (h : p.read text.length = text) :
    strncmpEq p text text.length = true := by
  induction text generalizing p with
  | nil => rfl
  | cons c text ih =>
    have first : p.get 0 = c := by
      simpa [CharPtr.get] using Memory.read_eq_cons h
    have rest : (p.shift 1).read text.length = text := by
      have split := (Memory.read_split (a := [c]) (b := text) h).2
      simpa [CharPtr.shift, CharPtr.read] using split
    simp [strncmpEq, first, ih rest]

theorem read_of_strncmpEq {p : CharPtr} {text : List UInt8}
    (h : strncmpEq p text text.length = true) : p.read text.length = text := by
  induction text generalizing p with
  | nil => rfl
  | cons c text ih =>
    simp only [strncmpEq, List.length_cons, Bool.and_eq_true, beq_iff_eq] at h
    have first : p.mem p.off = c := by simpa [CharPtr.get] using h.1
    have rest := ih h.2
    simp only [CharPtr.read, CharPtr.shift] at rest ⊢
    rw [List.length_cons, Memory.read_cons, first, rest]

theorem strncmpEq_of_ne {m : Memory} {pos : Int} {c : UInt8} {text : List UInt8}
    (h : m pos ≠ c) {n : Nat} : strncmpEq ⟨m, pos⟩ (c :: text) (n + 1) = false := by
  simp [strncmpEq, CharPtr.get, h]

/-! ## Bytes and numbers -/

/-- `char` is signed: the value a byte has after integer promotion. -/
def schar (b : UInt8) : Int := if b.toNat < 128 then b.toNat else b.toNat - 256

def isEndingCharacter (input : UInt8) : Bool :=
  !(schar input == -1 || input == ch '\n' || input == 3 || input == 4)

def breakU16IntToBytes (msgCounter : Nat) : UInt8 × UInt8 :=
  (UInt8.ofNat (msgCounter / 256), UInt8.ofNat (msgCounter % 256))

def convert2BytesToU16Int (low high : UInt8) : Nat :=
  ((schar low + schar high * 256) % 65536).toNat

/-- Copies `len` bytes; a NULL source copies nothing. -/
def stringReplace (dst : Memory) (pos : Nat) (src : Option CharPtr) (len : Int) : Memory :=
  match src with
  | none => dst
  | some p => dst.write pos (p.read (unsigned len))

/-- The two bytes of an ID determine the number the code computes from them,
and the other way round, although the low byte is sign-extended. -/
theorem convert2BytesToU16Int_inj {low high low' high' : UInt8}
    (h : convert2BytesToU16Int low high = convert2BytesToU16Int low' high') :
    low = low' ∧ high = high' := by
  have hl := low.toNat_lt
  have hh := high.toNat_lt
  have hl' := low'.toNat_lt
  have hh' := high'.toNat_lt
  have sum : (schar low + schar high * 256) % 65536 = (schar low' + schar high' * 256) % 65536 := by
    have nonneg := Int.emod_nonneg (schar low + schar high * 256) (by decide : (65536 : Int) ≠ 0)
    have nonneg' := Int.emod_nonneg (schar low' + schar high' * 256) (by decide : (65536 : Int) ≠ 0)
    unfold convert2BytesToU16Int at h
    omega
  unfold schar at sum
  constructor
  · apply UInt8.toNat_inj.mp
    split at sum <;> split at sum <;> split at sum <;> split at sum <;> omega
  · apply UInt8.toNat_inj.mp
    split at sum <;> split at sum <;> split at sum <;> split at sum <;> omega

end Ipk24Chat
