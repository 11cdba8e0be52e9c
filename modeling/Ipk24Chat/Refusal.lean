import Ipk24Chat.Execution
import Ipk24Chat.WellFormed

/-!
# Refused commands

What `filterCommandsByFSM` leaves of the stored details and of the state when it refuses a
line. JOIN and RENAME look at the state first; AUTH stores its display name before.

* `filteredOut_cases`: what is left behind a refused line;
* `refusalKeeps_iff`: the lines that are refused without an effect.
-/

namespace Ipk24Chat

/-- `userInputToCmds` as main calls it. -/
def parsedLine (clientInput : Buffer) : Parsed :=
  userInputToCmds clientInput (.reset CommandType.cmdNone.toUChar) .msgFlagNone

/-- The filter refuses what was parsed and leaves `c'` behind. -/
def FilteredOut (c : Client) (parsed : Parsed) (c' : Client) : Prop :=
  ∃ flags, (filterCommandsByFSM parsed.pBlocks parsed.flags).exec (Client.perform .main) c =
    .done (false, flags) c'

/-- A RENAME is carried out, although it is not sent. -/
def Renames (c : Client) (parsed : Parsed) : Prop :=
  uchar2CommandType parsed.pBlocks.type = .cmdRename ∧ c.fsmState = .fsmOpen

/-- The names and the state are as they were. -/
structure Unaffected (c c' : Client) : Prop where
  displayName : c'.comDetails.displayName.bytes = c.comDetails.displayName.bytes
  channelID : c'.comDetails.channelID.bytes = c.comDetails.channelID.bytes
  state : c'.fsmState = c.fsmState

/-- If the line is refused, it has no effect. -/
def RefusalKeeps (c : Client) (clientInput : Buffer) : Prop :=
  ∀ c', FilteredOut c (parsedLine clientInput) c' → ¬ Renames c (parsedLine clientInput) →
    Unaffected c c'

theorem unaffected_refl (c : Client) : Unaffected c c := ⟨rfl, rfl, rfl⟩

section
variable {c c' : Client} {parsed : Parsed}

/-- The display name of an AUTH is stored. -/
def Client.nameStored (c : Client) (src : BytesBlock) : Client :=
  { c with
    comDetails := { c.comDetails with
      displayName := storeName c.fresh c.comDetails.displayName src }
    reallocs := c.reallocs + 1 }

theorem filteredOut_auth (running : c.status = .running)
    (auth : uchar2CommandType parsed.pBlocks.type = .cmdAuth) (state : c.fsmState ≠ .fsmStart) :
    FilteredOut c parsed (c.nameStored parsed.pBlocks.cmdAuthDisplayname) := by
  refine ⟨parsed.flags, ?_⟩
  unfold filterCommandsByFSM
  simp only [auth]
  rw [exec_take_bind running]
  simp only [Client.act]
  rw [getProgramState, exec_take_bind (by exact running)]
  simp only [Client.act, if_neg state]
  rw [safePrint, exec_take_bind (by exact running)]
  rfl

theorem filteredOut_cases (running : c.status = .running) (out : FilteredOut c parsed c') :
    c' = c ∨
      uchar2CommandType parsed.pBlocks.type = .cmdAuth ∧ c.fsmState ≠ .fsmStart ∧
        c' = c.nameStored parsed.pBlocks.cmdAuthDisplayname ∨
      Renames c parsed := by
  obtain ⟨flags, run⟩ := out
  obtain ⟨fsmState, queue, lock, com, input, scratch, response, seen, heap, reallocs, nextUid,
    status, history⟩ := c
  obtain rfl : status = .running := running
  unfold filterCommandsByFSM at run
  unfold Renames
  cases command : uchar2CommandType parsed.pBlocks.type <;> rw [command] at run
  case cmdAuth =>
    cases fsmState with
    | fsmStart => cases run
    | _ =>
      cases run
      exact Or.inr (Or.inl ⟨rfl, nofun, rfl⟩)
  case cmdRename =>
    cases fsmState with
    | fsmOpen => exact Or.inr (Or.inr ⟨rfl, rfl⟩)
    | _ =>
      cases run
      exact Or.inl rfl
  case cmdJoin | cmdMsg =>
    cases fsmState <;> cases run <;> exact Or.inl rfl
  case cmdExit => cases run
  all_goals
    cases run
    exact Or.inl rfl

end

/-- The display name of an AUTH is a block of the line. -/
theorem cmdAuthDisplayname_given (buffer : Buffer) (pBlocks : ProtocolBlocks) (flags : MsgFlags)
    (auth : uchar2CommandType (userInputToCmds buffer pBlocks flags).pBlocks.type = .cmdAuth) :
    (userInputToCmds buffer pBlocks flags).pBlocks.cmdAuthDisplayname.start.isSome := by
  revert auth
  unfold userInputToCmds
  simp only
  repeat' split
  all_goals first
    | exact fun _ => rfl
    | exact fun auth => absurd auth (by simp)

/-- A refused line has no effect exactly if it is no AUTH in a state that refuses it, unless
the AUTH brings the name that is stored already. -/
theorem refusalKeeps_iff {c : Client} (running : c.status = .running) (clientInput : Buffer) :
    RefusalKeeps c clientInput ↔
      (uchar2CommandType (parsedLine clientInput).pBlocks.type = .cmdAuth →
        c.fsmState ≠ .fsmStart →
        (parsedLine clientInput).pBlocks.cmdAuthDisplayname.bytes =
          c.comDetails.displayName.bytes) := by
  have stored (auth : uchar2CommandType (parsedLine clientInput).pBlocks.type = .cmdAuth) :
      (c.nameStored
          (parsedLine clientInput).pBlocks.cmdAuthDisplayname).comDetails.displayName.bytes =
        (parsedLine clientInput).pBlocks.cmdAuthDisplayname.bytes :=
    storeName_bytes (cmdAuthDisplayname_given _ _ _ auth)
  constructor
  · intro keeps auth state
    have other : ¬ Renames c (parsedLine clientInput) := by
      rintro ⟨rename, -⟩
      rw [auth] at rename
      cases rename
    have same := keeps _ (filteredOut_auth running auth state) other
    rw [← stored auth]
    exact same.displayName
  · intro harmless c' out other
    rcases filteredOut_cases running out with rfl | ⟨auth, state, rfl⟩ | renames
    · exact unaffected_refl c'
    · exact ⟨(stored auth).trans (harmless auth state), rfl, rfl⟩
    · exact absurd renames other

/-- A buffer as main holds it behind a line. -/
def lineBuffer (line : List UInt8) : Buffer :=
  ⟨some (Memory.write (fun _ => 0) 0 line), initialBufferSize, line.length⟩

/-- A client in the open state that is known as "ann". -/
def annInOpen : Client :=
  { programInterfaceInit (fun _ _ => 0xC4) ⟨some fun _ => 0, 10, 10⟩ with
    fsmState := .fsmOpen
    comDetails := ⟨lineBuffer (ascii "ann"), .init, 0⟩ }

theorem refusalKeeps_ann : RefusalKeeps annInOpen (lineBuffer (ascii "/auth u s ann")) :=
  (refusalKeeps_iff (c := annInOpen) rfl (lineBuffer (ascii "/auth u s ann"))).mpr
    fun _ _ => by decide +kernel

/-- A second AUTH is refused in the open state, but later messages go out as "bob". -/
theorem not_refusalKeeps_bob : ¬ RefusalKeeps annInOpen (lineBuffer (ascii "/auth u s bob")) := by
  intro keeps
  have auth : uchar2CommandType (parsedLine (lineBuffer (ascii "/auth u s bob"))).pBlocks.type =
      .cmdAuth := by decide +kernel
  have other : ¬ Renames annInOpen (parsedLine (lineBuffer (ascii "/auth u s bob"))) := by
    rintro ⟨rename, -⟩
    rw [auth] at rename
    cases rename
  have same := keeps _ (filteredOut_auth (c := annInOpen) rfl auth (by decide)) other
  exact absurd same.displayName (by decide +kernel)

end Ipk24Chat
