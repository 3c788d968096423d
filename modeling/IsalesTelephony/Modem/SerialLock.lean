/-
# Modem.SerialLock -- one client for a tty

`SerialATClient.create_from_tty` opens a tty, takes it for itself with `acquire_exclusive`,
identifies and initialises the modem, and gives a client whose `aclose` ends it all.  Any
number of tasks of any processes do so at once, over one kernel.

On Windows a second open fails.  On POSIX it does not, and the tty is locked: the lock belongs
to the open file, `aclose` closes that first and then releases the lock by its number.  The
number may by then be another file's, so a client has its tty for itself as long as no number
is handed out again for which a release is still to come (`tty_exclusive`), and may lose it
otherwise (`reused_descriptor_unlocks`).  A cancelled `create_from_tty` keeps what it took.
-/
import IsalesTelephony.Theory.FileTable
import IsalesTelephony.Theory.History
import IsalesTelephony.Theory.Transition
import Mathlib.Data.List.Infix

namespace IsalesTelephony.Modem

set_option autoImplicit false

open IsalesTelephony.Theory
open IsalesTelephony.Theory.Transition

/-- `sys.platform`, `win32` or not. -/
inductive SysPlatform where
  | posix
  | win32
  deriving DecidableEq

/-- What the opening of the port raised. -/
structure OpenError where
  permissionError : Bool
  /-- its `__cause__` is a `PermissionError` -/
  causedByPermissionError : Bool
  text : String

/-- What `create_from_tty` raises. -/
inductive NotCreated where
  | busyDeviceError (message : String)
  | runtimeError (message : String)
  /-- what `detect_driver` or `driver.init` raised -/
  | atError
  | cancelled
  deriving DecidableEq

def busyMessage (tty : String) : String := tty ++ " is already locked by another process"

/-- `translate_open_error` -/
def translateOpenError (platform : SysPlatform) (error : OpenError) (tty : String) :
    Option NotCreated :=
  if platform ≠ .win32 then none
  else if error.permissionError then some (.busyDeviceError (busyMessage tty))
  else if error.causedByPermissionError then some (.busyDeviceError (busyMessage tty))
  else if "Access is denied".toList <:+: error.text.toList then
    some (.busyDeviceError (busyMessage tty))
  else none

/-- How `create_from_tty` ends when the opening raises. -/
def openFailed (platform : SysPlatform) (error : OpenError) (tty : String) : NotCreated :=
  (translateOpenError platform error tty).getD
    (.runtimeError ("failed to open " ++ tty ++ ": " ++ error.text))

/-- Where a client is, from the call of `create_from_tty` to the end of `aclose`. -/
inductive TtyPc where
  /-- the port is being opened -/
  | opening
  /-- about to take the port -/
  | opened
  /-- the port is another's; the close of the writer is awaited -/
  | refusing (why : NotCreated)
  /-- in `detect_driver` or `driver.init` -/
  | starting
  /-- one of them raised; `at.aclose()` is awaited -/
  | failing
  | live
  /-- in `aclose`, at `self._at.aclose()` -/
  | closing
  | closed
  | raised (why : NotCreated)
  /-- `create_from_tty` was cancelled once it had the port -/
  | abandoned
  deriving DecidableEq

namespace TtyPc

/-- The client took its tty and has not given it back. -/
def Keeps : TtyPc → Prop
  | .starting | .failing | .live | .closing | .abandoned => True
  | _ => False

/-- The client is to release its tty. -/
def Releases : TtyPc → Prop
  | .starting | .failing | .live | .closing => True
  | _ => False

instance (pc : TtyPc) : Decidable pc.Releases := by
  cases pc <;> unfold Releases <;> infer_instance

theorem Releases.keeps {pc : TtyPc} (releases : pc.Releases) : pc.Keeps := by
  cases pc with
  | abandoned => trivial
  | _ => exact releases

end TtyPc

structure TtyClient where
  process : Nat
  tty : String
  pc : TtyPc := .opening
  /-- `lock_handle`, `_lock_fd` -/
  lockFd : Option Descriptor := none

structure SerialPorts where
  clients : List TtyClient := []
  /-- the file that a client opened goes by the client's index -/
  files : FileTable Nat String := {}

inductive TtyAction where
  | create (process : Nat) (tty : String)
  /-- the port is open and its file has a number -/
  | opens (i number : Nat)
  | openRaises (i : Nat) (error : OpenError)
  /-- `acquire_exclusive` -/
  | acquire (i : Nat)
  /-- `driver.init` returns -/
  | started (i : Nat)
  | startRaises (i : Nat)
  | aclose (i : Nat)
  /-- the transport closes the file, on request or because the device is gone -/
  | fileCloses (i : Nat)
  /-- an awaited close is over -/
  | goesOn (i : Nat)
  /-- the task is cancelled, or the awaited `at.aclose()` of a failed start raises -/
  | cancel (i : Nat)

namespace SerialPorts

def modify (s : SerialPorts) (i : Nat) (f : TtyClient → TtyClient) : SerialPorts :=
  { s with clients := s.clients.modify i f }

def setPc (s : SerialPorts) (i : Nat) (pc : TtyPc) : SerialPorts :=
  s.modify i fun c => { c with pc := pc }

/-- Another client has the tty open. -/
def InOtherHands (s : SerialPorts) (tty : String) : Prop :=
  ∃ entry ∈ s.files.places, (s.clients[entry.1]?.map (·.tty)) = some tty

instance (s : SerialPorts) (tty : String) : Decidable (s.InOtherHands tty) :=
  inferInstanceAs (Decidable (∃ entry ∈ s.files.places, _))

/-- `acquire_exclusive` for a client, with the number of its file. -/
def acquireExclusive (platform : SysPlatform) (s : SerialPorts) (i : Nat) (tty : String) :
    Except NotCreated (FileTable Nat String × Option Descriptor) :=
  match platform with
  | .win32 => .ok (s.files, none)
  | .posix =>
      match s.files.place i with
      | none => .error (.runtimeError ("cannot resolve serial fd for " ++ tty ++
          " (POSIX flock requires an open file descriptor)"))
      | some fd =>
          match s.files.tryLock tty i with
          | none => .error (.busyDeviceError (busyMessage tty))
          | some files => .ok (files, some fd)

/-- `release` -/
def release (platform : SysPlatform) (s : SerialPorts) (handle : Option Descriptor) :
    SerialPorts :=
  match platform, handle with
  | .posix, some fd => { s with files := s.files.release fd }
  | _, _ => s

/-- What a client does. -/
def move (platform : SysPlatform) (s : SerialPorts) (i : Nat) (c : TtyClient) :
    TtyAction → Option SerialPorts
  | .opens _ number =>
      if c.pc = .opening ∧ ¬(platform = .win32 ∧ s.InOtherHands c.tty) then
        (s.files.openAt i ⟨c.process, number⟩).map fun files =>
          { s.setPc i .opened with files := files }
      else none
  | .openRaises _ error =>
      if c.pc = .opening then some (s.setPc i (.raised (openFailed platform error c.tty))) else none
  | .acquire _ =>
      if c.pc = .opened then
        match s.acquireExclusive platform i c.tty with
        | .error why => some (s.setPc i (.refusing why))
        | .ok (files, handle) =>
            some { s.modify i fun c => { c with pc := .starting, lockFd := handle } with
              files := files }
      else none
  | .started _ => if c.pc = .starting then some (s.setPc i .live) else none
  | .startRaises _ => if c.pc = .starting then some (s.setPc i .failing) else none
  | .aclose _ => if c.pc = .live then some (s.setPc i .closing) else none
  | .fileCloses _ => some { s with files := s.files.close i }
  | .goesOn _ =>
      match c.pc with
      | .refusing why => some (s.setPc i (.raised why))
      | .failing => some ((s.release platform c.lockFd).setPc i (.raised .atError))
      | .closing =>
          some ((s.release platform c.lockFd).modify i fun c =>
            { c with pc := .closed, lockFd := none })
      | _ => none
  | .cancel _ =>
      match c.pc with
      | .opening | .opened | .refusing _ => some (s.setPc i (.raised .cancelled))
      | .starting | .failing => some (s.setPc i .abandoned)
      -- `aclose` may be called again
      | .closing => some (s.setPc i .live)
      | _ => none
  | .create _ _ => none

end SerialPorts

/-- The client that an action is about. -/
def TtyAction.client : TtyAction → Option Nat
  | .create _ _ => none
  | .opens i _ | .openRaises i _ | .acquire i | .started i | .startRaises i | .aclose i
  | .fileCloses i | .goesOn i | .cancel i => some i

namespace SerialPorts

def step (platform : SysPlatform) (s : SerialPorts) (action : TtyAction) : Option SerialPorts :=
  match action with
  | .create process tty =>
      some { s with clients := s.clients ++ [{ process := process, tty := tty }] }
  | action => action.client.bind fun i => s.clients[i]?.bind fun c => s.move platform i c action

/-- A client talks to the modem on its tty. -/
def InUse (s : SerialPorts) (i : Nat) (tty : String) : Prop :=
  ∃ c, s.clients[i]? = some c ∧ c.tty = tty ∧ (c.pc = .starting ∨ c.pc = .live) ∧
    (s.files.place i).isSome

/-- No two clients are on one tty. -/
def Exclusive (s : SerialPorts) : Prop := ∀ i j tty, s.InUse i tty → s.InUse j tty → i = j

/-- `acquire_exclusive` finds the tty busy for a client whose file is open if and only if
another keeps it open. -/
def RefusesKept (s : SerialPorts) : Prop :=
  ∀ i c, s.clients[i]? = some c → c.pc = .opened → (s.files.place i).isSome →
    (s.acquireExclusive .posix i c.tty = .error (.busyDeviceError (busyMessage c.tty)) ↔
      ∃ j other, j ≠ i ∧ s.clients[j]? = some other ∧ other.tty = c.tty ∧ other.pc.Keeps ∧
        (s.files.place j).isSome)

/-- A release of a number is to come whose file is closed. -/
def Due (s : SerialPorts) (fd : Descriptor) : Prop :=
  ∃ entry ∈ s.clients.zipIdx, entry.1.lockFd = some fd ∧ entry.1.pc.Releases ∧
    s.files.place entry.2 = none

instance (s : SerialPorts) (fd : Descriptor) : Decidable (s.Due fd) :=
  inferInstanceAs (Decidable (∃ entry ∈ s.clients.zipIdx, _))

/-- On POSIX no file is given a number for which a release is due. -/
def NoReuse (platform : SysPlatform) (s : SerialPorts) : TtyAction → Prop
  | .opens i number => platform = .posix → ∀ c ∈ s.clients[i]?, ¬s.Due ⟨c.process, number⟩
  | _ => True

instance (platform : SysPlatform) (s : SerialPorts) :
    (action : TtyAction) → Decidable (NoReuse platform s action)
  | .opens i number =>
      inferInstanceAs (Decidable
        (platform = .posix → ∀ c ∈ s.clients[i]?, ¬s.Due ⟨c.process, number⟩))
  | .create .. | .openRaises .. | .acquire _ | .started _ | .startRaises _ | .aclose _
  | .fileCloses _ | .goesOn _ | .cancel _ => inferInstanceAs (Decidable True)

/-! ## One step -/

variable {platform : SysPlatform} {s t : SerialPorts} {action : TtyAction} {i : Nat}
  {c c' : TtyClient}

/-- One client is another than before. -/
structure Turns (s t : SerialPorts) (i : Nat) (c c' : TtyClient) : Prop where
  before : s.clients[i]? = some c
  after : t.clients[i]? = some c'
  others : ∀ j, j ≠ i → t.clients[j]? = s.clients[j]?
  tty : c'.tty = c.tty
  length : t.clients.length = s.clients.length

theorem turns_modify {f : TtyClient → TtyClient} {files : FileTable Nat String}
    (at_ : s.clients[i]? = some c) (tty : (f c).tty = c.tty) :
    Turns s { s.modify i f with files := files } i c (f c) where
  before := at_
  after := by simp [modify, at_]
  others := fun j other => by simp [modify, Ne.symm other]
  tty := tty
  length := by simp [modify]

/-- A client of the state after is the one that moved or was there before. -/
theorem Turns.cases {k : Nat} {other : TtyClient} (turns : Turns s t i c c')
    (here : t.clients[k]? = some other) :
    k = i ∧ other = c' ∨ k ≠ i ∧ s.clients[k]? = some other := by
  by_cases same : k = i
  · subst same
    exact .inl ⟨rfl, Option.some.inj (here.symm.trans turns.after)⟩
  · exact .inr ⟨same, turns.others k same ▸ here⟩

/-- A client's tty is what it was. -/
theorem Turns.known {other : TtyClient} {k : Nat} (turns : Turns s t i c c')
    (here : t.clients[k]? = some other) :
    ∃ before, s.clients[k]? = some before ∧ other.tty = before.tty := by
  rcases turns.cases here with ⟨rfl, rfl⟩ | ⟨-, there⟩
  · exact ⟨c, turns.before, turns.tty⟩
  · exact ⟨other, there, rfl⟩

/-- The clients that are there stay, and the new one is opening. -/
theorem create_cases {process : Nat} {tty : String} :
    (s.clients[i]? = some c →
      (s.clients ++ [{ process := process, tty := tty : TtyClient }])[i]? = some c) ∧
    ((s.clients ++ [{ process := process, tty := tty : TtyClient }])[i]? = some c →
      s.clients[i]? = some c ∨ i = s.clients.length ∧ c.pc = .opening) := by
  refine ⟨fun here => ?_, fun here => ?_⟩
  · rw [List.getElem?_append_left (List.getElem?_eq_some_iff.mp here).1]
    exact here
  · rcases getElem?_snoc_cases here with there | ⟨rfl, rfl⟩
    · exact .inl there
    · exact .inr ⟨rfl, rfl⟩

/-- What a step does to the client that takes it. -/
inductive Moved (platform : SysPlatform) (s : SerialPorts) (action : TtyAction) (i : Nat)
    (c : TtyClient) (t : SerialPorts) : Prop
  | opens (number : Nat) (isOpens : action = .opens i number)
      (turns : Turns s t i c { c with pc := .opened }) (early : c.pc = .opening)
      (alone : platform = .win32 → ¬s.InOtherHands c.tty)
      (opened : s.files.openAt i ⟨c.process, number⟩ = some t.files)
  | takes (fd : Descriptor) (posix : platform = .posix)
      (turns : Turns s t i c { c with pc := .starting, lockFd := some fd })
      (early : c.pc = .opened) (isOpen : s.files.place i = some fd)
      (took : s.files.tryLock c.tty i = some t.files)
  | goes (c' : TtyClient) (turns : Turns s t i c c') (files : t.files = s.files)
      (old : platform = .posix → c'.pc.Keeps → c.pc.Keeps ∧ c'.lockFd = c.lockFd)
      (still : platform = .posix → c.pc.Keeps → c'.pc.Keeps ∨ c.lockFd = none)
      (due : platform = .posix → c'.pc.Releases → c.pc.Releases)
  | gives (c' : TtyClient) (fd : Descriptor) (turns : Turns s t i c c')
      (files : t.files = s.files.release fd) (lockFd : c.lockFd = some fd)
      (due : c.pc.Releases) (finished : ¬c'.pc.Keeps)
  | closes (same : t.clients = s.clients) (files : t.files = s.files.close i)

theorem turns_setPc (at_ : s.clients[i]? = some c) (pc : TtyPc) :
    Turns s (s.setPc i pc) i c { c with pc := pc } :=
  turns_modify at_ rfl

theorem moved_setPc {before after : TtyPc} (at_ : s.clients[i]? = some c) (pc : c.pc = before)
    (kept : after.Keeps ↔ before.Keeps) (due : after.Releases → before.Releases) :
    Moved platform s action i c (s.setPc i after) := by
  subst pc
  exact .goes _ (turns_setPc at_ after) rfl (fun _ keeps => ⟨kept.mp keeps, rfl⟩)
    (fun _ keeps => .inl (kept.mpr keeps)) fun _ => due

/-- The port is taken, or refused. -/
theorem moved_acquire (at_ : s.clients[i]? = some c) (pc : c.pc = .opened)
    (ran : s.step platform (.acquire i) = some t) : Moved platform s action i c t := by
  have early : ¬c.pc.Keeps := by rw [pc]; nofun
  simp only [step, TtyAction.client, Option.bind_some, at_, move, pc, if_true] at ran
  cases platform with
  | win32 =>
      simp only [acquireExclusive, Option.some.injEq] at ran
      subst ran
      exact .goes _ (turns_modify at_ rfl) rfl nofun nofun nofun
  | posix =>
      cases isOpen : s.files.place i with
      | none =>
          simp only [acquireExclusive, isOpen, Option.some.injEq] at ran
          subst ran
          exact moved_setPc at_ pc Iff.rfl id
      | some fd =>
          cases took : s.files.tryLock c.tty i with
          | none =>
              simp only [acquireExclusive, isOpen, took, Option.some.injEq] at ran
              subst ran
              exact moved_setPc at_ pc Iff.rfl id
          | some files =>
              simp only [acquireExclusive, isOpen, took, Option.some.injEq] at ran
              subst ran
              exact .takes fd rfl (turns_modify at_ rfl) pc isOpen took

/-- The lock is released, if there is one. -/
theorem moved_release {f : TtyClient → TtyClient} (at_ : s.clients[i]? = some c)
    (tty : (f c).tty = c.tty) (due : c.pc.Releases) (finished : ¬(f c).pc.Keeps) :
    Moved platform s action i c ((s.release platform c.lockFd).modify i f) := by
  have goes (unlocked : platform = .posix → c.lockFd = none) :
      Moved platform s action i c (s.modify i f) :=
    .goes _ (turns_modify at_ tty) rfl (fun _ keeps => absurd keeps finished)
      (fun posix _ => .inr (unlocked posix)) fun _ releases => absurd releases.keeps finished
  cases platform with
  | win32 => exact goes nofun
  | posix =>
      cases lockFd : c.lockFd with
      | none => exact goes fun _ => lockFd
      | some fd => exact .gives _ fd (turns_modify at_ tty) rfl lockFd due finished

/-- A client that is there takes a step. -/
theorem moved_of_move (isClient : action.client = some i) (at_ : s.clients[i]? = some c)
    (ran : s.move platform i c action = some t) : Moved platform s action i c t := by
  cases action with
  | create => cases isClient
  | opens k number =>
      obtain rfl := Option.some.inj isClient
      simp only [move] at ran
      split at ran
      · rename_i guard
        obtain ⟨files, opened, rfl⟩ := Option.map_eq_some_iff.mp ran
        exact .opens number rfl (turns_modify at_ rfl) guard.1
          (fun win32 others => guard.2 ⟨win32, others⟩) opened
      · cases ran
  | openRaises =>
      simp only [move] at ran
      split at ran
      · rename_i opening
        obtain rfl := Option.some.inj ran
        exact moved_setPc at_ opening Iff.rfl id
      · cases ran
  | acquire k =>
      obtain rfl := Option.some.inj isClient
      by_cases opened : c.pc = .opened
      · refine moved_acquire at_ opened ?_
        rw [← ran]
        simp only [step, TtyAction.client, Option.bind_some, at_]
      · simp [move, opened] at ran
  | started =>
      simp only [move] at ran
      split at ran
      · rename_i starting
        obtain rfl := Option.some.inj ran
        exact moved_setPc at_ starting Iff.rfl id
      · cases ran
  | startRaises =>
      simp only [move] at ran
      split at ran
      · rename_i starting
        obtain rfl := Option.some.inj ran
        exact moved_setPc at_ starting Iff.rfl id
      · cases ran
  | aclose =>
      simp only [move] at ran
      split at ran
      · rename_i live
        obtain rfl := Option.some.inj ran
        exact moved_setPc at_ live Iff.rfl id
      · cases ran
  | fileCloses k =>
      obtain rfl := Option.some.inj isClient
      obtain rfl := Option.some.inj ran
      exact .closes rfl rfl
  | goesOn =>
      cases pc : c.pc with
      | refusing why =>
          simp only [move, pc, Option.some.injEq] at ran
          subst ran
          exact moved_setPc at_ pc Iff.rfl id
      | failing =>
          simp only [move, pc, Option.some.injEq] at ran
          subst ran
          exact moved_release at_ rfl (by rw [pc]; trivial) id
      | closing =>
          simp only [move, pc, Option.some.injEq] at ran
          subst ran
          exact moved_release at_ rfl (by rw [pc]; trivial) id
      | _ => simp [move, pc] at ran
  | cancel =>
      cases pc : c.pc with
      | opening | opened | refusing =>
          simp only [move, pc, Option.some.injEq] at ran
          subst ran
          exact moved_setPc at_ pc Iff.rfl id
      | starting | failing =>
          simp only [move, pc, Option.some.injEq] at ran
          subst ran
          exact moved_setPc at_ pc Iff.rfl False.elim
      | closing =>
          simp only [move, pc, Option.some.injEq] at ran
          subst ran
          exact moved_setPc at_ pc Iff.rfl id
      | _ => simp [move, pc] at ran

/-- A step is that of a new client or of one that is there. -/
theorem moved_of_step (ran : s.step platform action = some t) :
    (∃ process tty, action = .create process tty ∧
      t = { s with clients := s.clients ++ [{ process := process, tty := tty }] }) ∨
    ∃ i c, s.clients[i]? = some c ∧ Moved platform s action i c t := by
  cases action with
  | create process tty => exact .inl ⟨process, tty, rfl, (Option.some.inj ran).symm⟩
  | _ =>
      obtain ⟨c, at_, ran⟩ := Option.bind_eq_some_iff.mp ran
      exact .inr ⟨_, c, at_, moved_of_move rfl at_ ran⟩

end SerialPorts

end IsalesTelephony.Modem
