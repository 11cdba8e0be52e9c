import Ipk24Chat.Encoding

/-!
# The test server

`tests/serverUDP.c`, the server of the repository. A pass of its loop takes one datagram
and answers it from the buffer it was received in.

* `reply_of_answer`: what it can answer to a datagram;
* `echoed_formatUDP`: the echo of a message that fits into the buffer.
-/

namespace Ipk24Chat

/-- The server between two passes. It ends behind a MSG that says "exit". -/
structure ServerUDP where
  ignoreClient : Bool
  ended : Bool
  deriving DecidableEq, Repr

namespace ServerUDP

def bufferSize : Nat := 512

/-- The zeroed buffer behind `recvfrom`, which cuts a datagram off; `around` is what lies
outside of the array. -/
def received (around : Memory) (datagram : List UInt8) : Memory :=
  Memory.write (fun i => if 0 ≤ i ∧ i < bufferSize then 0 else around i) 0
    (datagram.take bufferSize)

def sendto (buffer : Memory) (bytes : Nat) : List UInt8 := buffer.read 0 bytes

/-- `buffer[1] + 1`, which wraps. -/
def increaseCounter (buffer : Memory) : Memory := buffer.write 1 [buffer 1 + 1]

/-- The header of a CONFIRM of what is in the buffer. -/
def setConfirm (buffer : Memory) : Memory := (buffer.write 0 [0x00]).write 3 [0]

/-- The branch for AUTH and JOIN. -/
def authReceived (server : ServerUDP) (buffer : Memory) : ServerUDP × List (List UInt8) :=
  let name : CharPtr := ⟨buffer, 3⟩
  if startsWith name "sendMeErr" then
    let error := (buffer.write 0 [0xFE]).write 3 (ascii "SERVER" ++ [0] ++ ascii "ERROR" ++ [0])
    (server, [sendto (increaseCounter error) 16])
  else if startsWith name "sendBadMsg" then
    (server, [sendto (increaseCounter (buffer.write 0 [100, 90, 80, 70])) 4])
  else if startsWith name "sendMeBye" then
    -- the counter goes up twice
    let bye := increaseCounter ((setConfirm buffer).write 0 [0xFF])
    (server, [sendto (setConfirm buffer) 3, sendto (increaseCounter bye) 3])
  else if startsWith name "ignoreMe" then ({ server with ignoreClient := true }, [])
  else
    let reply := buffer 3 = ch 'a'
    let confirm := setConfirm buffer
    let buffer := (confirm.write 0 [0x01]).write 4 [confirm 1, confirm 2]
    let buffer := (buffer.write 3 [if reply then 0x01 else 0x00]).write 6
      (ascii (if reply then "OKE" else "BAD"))
    (server, [sendto confirm 3, sendto (increaseCounter (buffer.write 9 [0])) 10])

/-- The index behind the first zero byte. The search starts at the second byte of the
message ID, so a zero there ends it. -/
def contentsIndex (buffer : Memory) (bytesRx : Nat) : Nat :=
  match buffer.scan (· == 0) 2 (bytesRx - 2) with
  | some k => 2 + k + 1
  | none => max 2 bytesRx + 1

/-- The branch for MSG. -/
def msgReceived (server : ServerUDP) (buffer : Memory) (bytesRx : Nat) :
    ServerUDP × List (List UInt8) :=
  if startsWith ⟨buffer, contentsIndex buffer bytesRx⟩ "exit" then
    ({ server with ended := true }, [sendto ((buffer.write 0 [0xFF]).write 3 [0]) 4])
  else
    let echo := ((setConfirm buffer).write 0 [0x04]).write 3 [buffer 3]
    (server, [sendto (setConfirm buffer) 4, sendto (increaseCounter echo) bytesRx])

/-- A pass of the loop. Each branch starts with the look at `ignoreClient`. -/
def pass (around : Memory) (server : ServerUDP) (datagram : List UInt8) :
    ServerUDP × List (List UInt8) :=
  let buffer := received around datagram
  if server.ended ∨ server.ignoreClient then (server, [])
  else if buffer 0 = 0x02 ∨ buffer 0 = 0x03 then authReceived server buffer
  else if buffer 0 = 0x04 then msgReceived server buffer (datagram.take bufferSize).length
  else (server, [sendto (setConfirm buffer) 3])

/-! ## What it answers -/

/-- An AUTH or JOIN whose first field starts with an `a`. -/
def Grants (datagram : List UInt8) : Prop :=
  (datagram[0]? = some 0x02 ∨ datagram[0]? = some 0x03) ∧ datagram[3]? = some (ch 'a')

/-- A message as it comes back. -/
def echoed (datagram : List UInt8) : List UInt8 :=
  (datagram.take bufferSize).modify 1 (· + 1)

/-- The answers to a datagram, by their types. -/
inductive Reply (datagram : List UInt8) : List UInt8 → Prop where
  | confirm (rest : List UInt8) : Reply datagram (0x00 :: rest)
  | bye (rest : List UInt8) : Reply datagram (0xFF :: rest)
  | unknown (rest : List UInt8) : Reply datagram (100 :: rest)
  | error (low high : UInt8) (request : datagram[0]? = some 0x02 ∨ datagram[0]? = some 0x03)
      (asked : ascii "sendMeErr" <+: datagram.drop 3) :
      Reply datagram (formatUDP .msgErr low high [ascii "SERVER", ascii "ERROR"])
  | reply (low high result : UInt8) (rest : List UInt8)
      (granted : result = 1 → Grants datagram) :
      Reply datagram (0x01 :: low :: high :: result :: rest)
  | echo (msg : datagram[0]? = some 0x04) : Reply datagram (echoed datagram)

section received
variable {around : Memory} {datagram : List UInt8} {i : Nat}

variable (around) in
theorem received_byte (short : i < (datagram.take bufferSize).length) :
    received around datagram i = (datagram.take bufferSize)[i] := by
  have inside := Memory.write_inside
    (fun i => if 0 ≤ i ∧ i < bufferSize then 0 else around i) 0 short
  rwa [Int.zero_add] at inside

variable (around) in
/-- A byte that is not zero was received. -/
theorem getElem_of_received {b : UInt8} (within : i < bufferSize)
    (h : received around datagram i = b) (given : b ≠ 0) : datagram[i]? = some b := by
  by_cases short : i < (datagram.take bufferSize).length
  · rw [received_byte around short, List.getElem_take] at h
    exact h ▸ List.getElem?_eq_getElem _
  · have zero : received around datagram i = 0 := by
      unfold received
      rw [Memory.write_outside (by omega)]
      exact if_pos (by omega)
    exact absurd (h.symm.trans zero) given

/-- A text without zeros behind the header was received. -/
theorem prefix_of_startsWith {text : String}
    (h : startsWith ⟨received around datagram, 3⟩ text = true) (given : 0 ∉ ascii text)
    (within : 3 + (ascii text).length ≤ bufferSize) : ascii text <+: datagram.drop 3 := by
  have spelled := read_of_strncmpEq h
  rw [List.prefix_iff_getElem?]
  intro i hi
  rw [List.getElem?_drop]
  have inside : i < ((received around datagram).read 3 (ascii text).length).length := by
    simpa using hi
  apply getElem_of_received around (by omega)
  · have byte := Memory.getElem_read (received around datagram) 3 (ascii text).length i inside
    exact_mod_cast byte.symm.trans (List.getElem_of_eq spelled inside)
  · exact fun zero => given (zero ▸ List.getElem_mem hi)

/-- The echo is the datagram with its counter increased. -/
theorem sendto_echo (msg : received around datagram 0 = 0x04) :
    sendto (increaseCounter
        (((setConfirm (received around datagram)).write 0 [0x04]).write 3
          [received around datagram 3])) (datagram.take bufferSize).length = echoed datagram := by
  apply List.ext_getElem
  · simp [sendto, echoed]
  · intro i sent back
    have short : i < (datagram.take bufferSize).length := by simpa [sendto] using sent
    have byte := received_byte around short
    simp only [sendto, Memory.getElem_read, Int.zero_add, increaseCounter, setConfirm,
      Memory.write_byte, echoed, List.getElem_modify]
    rw [← byte]
    by_cases counter : i = 1
    · subst counter
      simp
    · have other : (i : Int) ≠ 1 := by omega
      rw [if_neg other, if_neg (Ne.symm counter)]
      by_cases third : i = 3
      · subst third
        simp
      · have past : (i : Int) ≠ 3 := by omega
        rw [if_neg past]
        by_cases first : i = 0
        · subst first
          simp [msg]
        · have behind : (i : Int) ≠ 0 := by omega
          rw [if_neg behind, if_neg past, if_neg behind]

end received

theorem sendto_head (buffer : Memory) (n : Nat) :
    sendto buffer (n + 1) = buffer 0 :: buffer.read 1 n := Memory.read_cons buffer 0 n

/-- The counter is part of the header. -/
theorem sendto_increaseCounter (buffer : Memory) (n : Nat) :
    sendto (increaseCounter buffer) (n + 3) =
      buffer 0 :: (buffer 1 + 1) :: buffer 2 :: buffer.read 3 n := by
  have behind : (increaseCounter buffer).read 3 n = buffer.read 3 n := by
    apply Memory.read_congr
    intro i _
    exact Memory.write_outside (Or.inr (by simp; omega))
  unfold sendto
  rw [Memory.read_cons, Memory.read_cons, Memory.read_cons]
  simp [increaseCounter, Memory.write_byte] at behind ⊢
  exact behind

theorem reply_confirm (datagram : List UInt8) (buffer : Memory) (n : Nat) :
    Reply datagram (sendto (setConfirm buffer) (n + 1)) := by
  rw [sendto_head]
  have type : setConfirm buffer 0 = 0x00 := by simp [setConfirm, Memory.write_byte]
  rw [type]
  exact .confirm _

theorem reply_authReceived {around : Memory} {server : ServerUDP} {datagram d : List UInt8}
    (request : received around datagram 0 = 0x02 ∨ received around datagram 0 = 0x03)
    (h : d ∈ (authReceived server (received around datagram)).2) : Reply datagram d := by
  have type : datagram[0]? = some 0x02 ∨ datagram[0]? = some 0x03 :=
    request.imp (getElem_of_received around (i := 0) (by decide) · (by decide))
      (getElem_of_received around (i := 0) (by decide) · (by decide))
  unfold authReceived at h
  simp only at h
  split at h
  · rename_i asked
    obtain rfl := List.mem_singleton.mp h
    have text := Memory.read_write_self ((received around datagram).write 0 [0xFE]) 3
      (ascii "SERVER" ++ [0] ++ ascii "ERROR" ++ [0])
    rw [sendto_increaseCounter _ 13]
    change Reply datagram (_ :: _ :: _ ::
      Memory.read _ 3 (ascii "SERVER" ++ [0] ++ ascii "ERROR" ++ [0]).length)
    rw [text, Memory.write_outside (Or.inl (by decide)), Memory.write_byte, if_pos rfl]
    exact .error _ _ type (prefix_of_startsWith asked (by decide) (by decide))
  · split at h
    · obtain rfl := List.mem_singleton.mp h
      rw [sendto_increaseCounter _ 1]
      exact .unknown _
    · split at h
      · simp only [List.mem_cons, List.not_mem_nil, or_false] at h
        rcases h with rfl | rfl
        · exact reply_confirm _ _ _
        · rw [sendto_increaseCounter _ 0]
          exact .bye _
      · split at h
        · simp at h
        · simp only [List.mem_cons, List.not_mem_nil, or_false] at h
          rcases h with rfl | rfl
          · exact reply_confirm _ _ _
          · rw [sendto_increaseCounter _ 7, Memory.read_cons]
            refine .reply _ _ _ _ fun positive => ⟨type, ?_⟩
            apply getElem_of_received around (i := 3) (by decide) _ (by decide)
            by_contra refused
            have negative : ¬ received around datagram 3 = ch 'a' := refused
            rw [Memory.write_byte, if_neg (by decide), Memory.write_outside (Or.inl (by decide)),
              Memory.write_byte, if_pos rfl, if_neg negative] at positive
            cases positive

/-- **What the server answers.** -/
theorem reply_of_answer {around : Memory} {server : ServerUDP} {datagram d : List UInt8}
    (h : d ∈ (pass around server datagram).2) : Reply datagram d := by
  unfold pass at h
  simp only at h
  split at h
  · simp at h
  · split at h
    · exact reply_authReceived ‹_› h
    · split at h
      · rename_i msg
        unfold msgReceived at h
        split at h
        · obtain rfl := List.mem_singleton.mp h
          rw [sendto_head, Memory.write_byte, Memory.write_byte]
          exact .bye _
        · simp only [List.mem_cons, List.not_mem_nil, or_false] at h
          rcases h with rfl | rfl
          · exact reply_confirm _ _ _
          · rw [sendto_echo msg]
            exact .echo (getElem_of_received around (i := 0) (by decide) msg (by decide))
      · obtain rfl := List.mem_singleton.mp h
        exact reply_confirm _ _ _

theorem echoed_first {datagram : List UInt8} (msg : datagram[0]? = some 0x04) :
    (echoed datagram)[0]? = some 0x04 := by
  simp [echoed, bufferSize, msg]

theorem Reply.ne_nil {datagram d : List UInt8} (reply : Reply datagram d) : d ≠ [] := by
  cases reply with
  | echo msg =>
    intro empty
    have first := echoed_first msg
    simp [empty] at first
  | _ => exact List.cons_ne_nil _ _

/-- A message that fits into the buffer comes back with the next ID, byte by byte. -/
theorem echoed_formatUDP {type : MsgType} {low high : UInt8} {fields : List (List UInt8)}
    (fits : (formatUDP type low high fields).length ≤ bufferSize) :
    echoed (formatUDP type low high fields) = formatUDP type (low + 1) high fields := by
  unfold echoed
  rw [List.take_of_length_le fits]
  rfl

end ServerUDP

end Ipk24Chat
