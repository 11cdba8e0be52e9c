import Ipk24Chat.Utils

/-!
# Buffers

`buffer.c`. A buffer knows its capacity, but the C code writes through the bare
pointer, so `data` has bytes behind `allocated` too: a write there is the
overflow it is in C, and `used ≤ allocated` says that none happened.
-/

namespace Ipk24Chat

def initialBufferSize : Nat := 256

/-- `data = none` is the NULL of `bufferInit`. -/
structure Buffer where
  data : Option Memory
  allocated : Nat
  used : Nat

namespace Buffer

def init : Buffer := ⟨none, 0, 0⟩

/-- The bytes behind the data pointer. -/
def mem (b : Buffer) : Memory := b.data.getD fun _ => 0

/-- The active bytes of the buffer. -/
def bytes (b : Buffer) : List UInt8 := b.mem.read 0 b.used

/-- The data pointer itself. -/
def ptr (b : Buffer) : Option CharPtr := b.data.map fun m => ⟨m, 0⟩

end Buffer

/-- `realloc` keeps the old bytes; `fresh` is whatever the new memory holds. -/
def bufferResize (fresh : Memory) (buffer : Buffer) (newSize : Int) : Buffer :=
  if unsigned newSize ≤ buffer.allocated then buffer
  else
    { buffer with
      data := some fun i => if 0 ≤ i ∧ i < buffer.allocated then buffer.mem i else fresh i
      allocated := unsigned newSize }

theorem bufferResize_allocated (fresh : Memory) (b : Buffer) (n : Int) :
    (bufferResize fresh b n).allocated = max b.allocated (unsigned n) := by
  unfold bufferResize
  split
  · omega
  · change unsigned n = _
    omega

@[simp] theorem bufferResize_used (fresh : Memory) (b : Buffer) (n : Int) :
    (bufferResize fresh b n).used = b.used := by
  unfold bufferResize
  split <;> rfl

/-- Bytes 0 to `used` are copied; the copy has exactly that capacity. -/
def bufferCopy (src : Buffer) : List UInt8 := src.bytes

/-! ## Reading a line -/

/-- `char c = getc(stdin)`: the end of the stream is read as the byte of `EOF`. -/
def getc : List UInt8 → UInt8
  | [] => 255
  | c :: _ => c

/-- The loop of `loadBufferFromStdin` from index `i` on: the filled buffer, the
index it stops at, the ending character and the bytes left in the stream. -/
def loadLoop (fresh : Memory) (buffer : Buffer) (i : Nat) :
    List UInt8 → Buffer × Nat × UInt8 × List UInt8
  | [] => (buffer, i, getc [], [])
  | c :: rest =>
    if isEndingCharacter c then
      let room :=
        if buffer.data.isNone ∨ buffer.allocated = 0 then
          bufferResize fresh buffer initialBufferSize
        else if buffer.allocated - 1 < i then
          bufferResize fresh buffer (buffer.allocated * 2 : Nat)
        else buffer
      loadLoop fresh { room with data := some (room.mem.write i [c]) } (i + 1) rest
    else (buffer, i, c, rest)

/-- What one call of `loadBufferFromStdin` leaves behind. -/
structure Loaded where
  buffer : Buffer
  used : Nat
  eofDetected : Bool
  rest : List UInt8

/-- `clientInput` holds the server address when the first line is read, so the
data pointer the terminating zero is written through is not NULL. -/
def loadBufferFromStdin (fresh : Memory) (buffer : Buffer) (eofDetected : Bool)
    (stdin : List UInt8) : Loaded :=
  match loadLoop fresh buffer 0 stdin with
  | (filled, i, c, rest) =>
    { buffer := { filled with data := some (filled.mem.write i [0]) }
      used := i
      eofDetected := eofDetected || schar c == -1
      rest := rest }

end Ipk24Chat
