/-
# Modem.TtyExclusive -- no two clients are on one tty

On POSIX the file of a client that took its tty is the lock's holder (`Locked`): the release
of a client reaches its own file or none, unless its number has gone to another
(`NoReuse`).  On Windows no tty has two open files (`Sole`).
-/
import IsalesTelephony.Modem.SerialLock

namespace IsalesTelephony.Modem.SerialPorts

set_option autoImplicit false

open IsalesTelephony.Theory
open IsalesTelephony.Theory.Transition

variable {platform : SysPlatform} {s t : SerialPorts} {action : TtyAction} {i j : Nat}
  {c c' : TtyClient} {d : Descriptor}

/-! ## On POSIX -/

theorem due_iff : s.Due d ↔ ∃ i c, s.clients[i]? = some c ∧ c.lockFd = some d ∧
    c.pc.Releases ∧ s.files.place i = none := by
  simp only [Due, Prod.exists, List.mem_zipIdx_iff_getElem?]
  constructor
  · rintro ⟨c, i, rest⟩
    exact ⟨i, c, rest⟩
  · rintro ⟨i, c, rest⟩
    exact ⟨c, i, rest⟩

/-- What holds in every state on POSIX. -/
structure Locked (s : SerialPorts) : Prop where
  holder : ∀ i tty, s.files.holder tty = some i →
    ∃ c, s.clients[i]? = some c ∧ c.tty = tty ∧ c.pc.Keeps
  keeps : ∀ i c d, s.clients[i]? = some c → c.pc.Keeps → s.files.place i = some d →
    c.lockFd = some d ∧ s.files.holder c.tty = some i
  apart : ∀ i d, s.files.place i = some d → ¬s.Due d

section
variable (locked : Locked s) (turns : Turns s t i c c')

include turns

/-- A client that is due after was due before, if none has come to release and no file but the
one that moved is closed. -/
theorem Turns.due (isDue : t.Due d) (own : c'.pc.Releases → c'.lockFd = some d →
      t.files.place i = none → s.Due d)
    (open_ : ∀ j, j ≠ i → t.files.place j = none → s.files.place j = none) : s.Due d := by
  obtain ⟨k, other, here, number, releases, closed⟩ := due_iff.mp isDue
  rcases turns.cases here with ⟨rfl, rfl⟩ | ⟨away, there⟩
  · exact own releases number closed
  · exact due_iff.mpr ⟨k, other, there, number, releases, open_ k away closed⟩

include locked

/-- The client goes on, and the files stay as they are. -/
theorem locked_goes (files : t.files = s.files)
    (old : c'.pc.Keeps → c.pc.Keeps ∧ c'.lockFd = c.lockFd)
    (still : c.pc.Keeps → c'.pc.Keeps ∨ c.lockFd = none)
    (due : c'.pc.Releases → c.pc.Releases) : Locked t := by
  refine ⟨fun k tty holds => ?_, fun k other d here keeps isOpen => ?_, fun k d isOpen isDue => ?_⟩
  · rw [files] at holds
    obtain ⟨before, there, same, keeps⟩ := locked.holder k tty holds
    by_cases own : k = i
    · subst own
      obtain rfl := Option.some.inj (turns.before.symm.trans there)
      rcases still keeps with goesOn | unlocked
      · exact ⟨c', turns.after, turns.tty.trans same, goesOn⟩
      · obtain ⟨d, isOpen⟩ := FileTable.open_of_holder holds
        have number := (locked.keeps k c d there keeps isOpen).1
        rw [unlocked] at number
        cases number
    · exact ⟨before, (turns.others k own).trans there, same, keeps⟩
  · rw [files] at isOpen ⊢
    rcases turns.cases here with ⟨rfl, rfl⟩ | ⟨-, there⟩
    · obtain ⟨kept, lockFd⟩ := old keeps
      rw [lockFd, turns.tty]
      exact locked.keeps k c d turns.before kept isOpen
    · exact locked.keeps k other d there keeps isOpen
  · rw [files] at isOpen
    refine locked.apart k d isOpen (turns.due isDue (fun releases number closed => ?_) ?_)
    · have lockFd := (old releases.keeps).2
      exact due_iff.mpr ⟨i, c, turns.before, lockFd ▸ number, due releases, files ▸ closed⟩
    · intro j _ closed
      exact files ▸ closed

/-- The client's file is open, and the client has not taken its tty yet. -/
theorem locked_opens {number : Descriptor} (opened : s.files.openAt i number = some t.files)
    (early : ¬c.pc.Keeps) (early' : ¬c'.pc.Keeps)
    (noReuse : ¬s.Due number) : Locked t := by
  have still : ∀ d, t.Due d → s.Due d := fun d isDue =>
    turns.due isDue (fun releases => absurd releases.keeps early') fun j _ closed => by
      cases before : s.files.place j with
      | none => rfl
      | some e => exact absurd ((FileTable.place_openAt opened).mpr (.inl before)) (by simp [closed])
  refine ⟨fun k tty holds => ?_, fun k other d here keeps isOpen => ?_, fun k d isOpen isDue => ?_⟩
  · rw [FileTable.holder_openAt opened] at holds
    obtain ⟨old, there, same, keeps⟩ := locked.holder k tty holds
    by_cases own : k = i
    · subst own
      obtain rfl := Option.some.inj (turns.before.symm.trans there)
      exact absurd keeps early
    · exact ⟨old, (turns.others k own).trans there, same, keeps⟩
  · rcases turns.cases here with ⟨rfl, rfl⟩ | ⟨away, there⟩
    · exact absurd keeps early'
    · rcases (FileTable.place_openAt opened).mp isOpen with old | ⟨same, -⟩
      · rw [FileTable.holder_openAt opened]
        exact locked.keeps k other d there keeps old
      · exact absurd same away
  · rcases (FileTable.place_openAt opened).mp isOpen with old | ⟨-, rfl⟩
    · exact locked.apart k d old (still d isDue)
    · exact noReuse (still d isDue)

/-- The client has locked its tty. -/
theorem locked_acquires (took : s.files.tryLock c.tty i = some t.files)
    (early : ¬c.pc.Keeps) (isOpen : s.files.place i = some d) (keeps : c'.pc.Keeps)
    (lockFd : c'.lockFd = some d) : Locked t := by
  have place : ∀ j, t.files.place j = s.files.place j := fun j => FileTable.place_tryLock took
  refine ⟨fun k tty holds => ?_, fun k other e here kept opened => ?_, fun k e opened isDue => ?_⟩
  · rcases (FileTable.holder_tryLock took).mp holds with old | ⟨rfl, rfl⟩
    · obtain ⟨old, there, same, kept⟩ := locked.holder k tty old
      by_cases own : k = i
      · subst own
        obtain rfl := Option.some.inj (turns.before.symm.trans there)
        exact absurd kept early
      · exact ⟨old, (turns.others k own).trans there, same, kept⟩
    · exact ⟨c', turns.after, turns.tty, keeps⟩
  · rw [place] at opened
    rcases turns.cases here with ⟨rfl, rfl⟩ | ⟨away, there⟩
    · refine ⟨lockFd.trans (isOpen.symm.trans opened), ?_⟩
      exact (FileTable.holder_tryLock took).mpr (.inr ⟨turns.tty, rfl⟩)
    · obtain ⟨number, holds⟩ := locked.keeps k other e there kept opened
      exact ⟨number, (FileTable.holder_tryLock took).mpr (.inl holds)⟩
  · rw [place] at opened
    refine locked.apart k e opened (turns.due isDue (fun _ _ closed => ?_) fun j _ closed => ?_)
    · rw [place, isOpen] at closed
      cases closed
    · rw [← place]
      exact closed

/-- The client has released the lock by the number it was taken with. -/
theorem locked_releases {number : Descriptor} (files : t.files = s.files.release number)
    (lockFd : c.lockFd = some number) (due : c.pc.Releases)
    (finished : ¬c'.pc.Keeps) : Locked t := by
  have place : ∀ j, t.files.place j = s.files.place j := fun j => by rw [files]; rfl
  -- the number reaches the client's own file or none
  have own : ∀ j, s.files.place j = some number → j = i := by
    intro j isOpen
    cases here : s.files.place i with
    | none =>
        exact absurd (due_iff.mpr ⟨i, c, turns.before, lockFd, due, here⟩)
          (locked.apart j number isOpen)
    | some e =>
        obtain ⟨same, -⟩ := locked.keeps i c e turns.before due.keeps here
        obtain rfl := Option.some.inj (lockFd.symm.trans same)
        exact FileTable.place_inj isOpen here
  refine ⟨fun k tty holds => ?_, fun k other e here keeps opened => ?_, fun k e opened isDue => ?_⟩
  · rw [files, FileTable.holder_release] at holds
    obtain ⟨holds, other⟩ := holds
    obtain ⟨old, there, same, keeps⟩ := locked.holder k tty holds
    by_cases mine : k = i
    · subst mine
      obtain rfl := Option.some.inj (turns.before.symm.trans there)
      obtain ⟨e, isOpen⟩ := FileTable.open_of_holder holds
      obtain ⟨number', -⟩ := locked.keeps k c e there keeps isOpen
      exact absurd (isOpen.trans (number'.symm.trans lockFd)) other
    · exact ⟨old, (turns.others k mine).trans there, same, keeps⟩
  · rw [place] at opened
    rcases turns.cases here with ⟨rfl, rfl⟩ | ⟨away, there⟩
    · exact absurd keeps finished
    · obtain ⟨number', holds⟩ := locked.keeps k other e there keeps opened
      refine ⟨number', ?_⟩
      rw [files, FileTable.holder_release]
      exact ⟨holds, fun same => away (own k same)⟩
  · rw [place] at opened
    refine locked.apart k e opened (turns.due isDue (fun releases => absurd releases.keeps finished) ?_)
    intro j _ closed
    rw [← place]
    exact closed

end

/-- A file is closed. -/
theorem locked_close (locked : Locked s) (i : Nat) :
    Locked { s with files := s.files.close i } := by
  refine ⟨fun k tty holds => ?_, fun k other d here keeps opened => ?_, fun k d opened isDue => ?_⟩
  · exact locked.holder k tty (FileTable.holder_close.mp holds).1
  · obtain ⟨opened, away⟩ := FileTable.place_close.mp opened
    obtain ⟨number, holds⟩ := locked.keeps k other d here keeps opened
    exact ⟨number, FileTable.holder_close.mpr ⟨holds, away⟩⟩
  · obtain ⟨isOpen, away⟩ := FileTable.place_close.mp opened
    obtain ⟨j, other, here, number, releases, closed⟩ := due_iff.mp isDue
    cases before : s.files.place j with
    | none => exact locked.apart k d isOpen (due_iff.mpr ⟨j, other, here, number, releases, before⟩)
    | some e =>
        by_cases own : j = i
        · subst own
          obtain ⟨same, -⟩ := locked.keeps j other e here releases.keeps before
          obtain rfl := Option.some.inj (number.symm.trans same)
          exact away (FileTable.place_inj isOpen before)
        · exact absurd (FileTable.place_close.mpr ⟨before, own⟩) (by rw [closed]; nofun)

/-- A new client has neither a file nor a lock. -/
theorem locked_create (locked : Locked s) (process : Nat) (tty : String) :
    Locked { s with clients := s.clients ++ [{ process := process, tty := tty }] } := by
  refine ⟨fun k tty holds => ?_, fun k other d here keeps isOpen => ?_, fun k d isOpen isDue => ?_⟩
  · obtain ⟨c, here, rest⟩ := locked.holder k tty holds
    exact ⟨c, create_cases.1 here, rest⟩
  · rcases create_cases.2 here with there | ⟨-, opening⟩
    · exact locked.keeps k other d there keeps isOpen
    · rw [opening] at keeps
      exact keeps.elim
  · obtain ⟨j, other, here, number, releases, closed⟩ := due_iff.mp isDue
    rcases create_cases.2 here with there | ⟨-, opening⟩
    · exact locked.apart k d isOpen (due_iff.mpr ⟨j, other, there, number, releases, closed⟩)
    · rw [opening] at releases
      exact releases.elim

theorem locked_step (locked : Locked s) (ok : s.NoReuse .posix action)
    (ran : s.step .posix action = some t) : Locked t := by
  rcases moved_of_step ran with ⟨process, tty, rfl, rfl⟩ | ⟨i, c, at_, moved⟩
  · exact locked_create locked process tty
  · cases moved with
    | opens number isOpens turns early alone opened =>
        subst isOpens
        refine locked_opens locked turns opened ?_ nofun (ok rfl c at_)
        rw [early]
        nofun
    | takes fd posix turns early isOpen took =>
        refine locked_acquires locked turns took ?_ isOpen trivial rfl
        rw [early]
        nofun
    | goes c' turns files old still due =>
        exact locked_goes locked turns files (old rfl) (still rfl) (due rfl)
    | gives c' fd turns files lockFd due finished =>
        exact locked_releases locked turns files lockFd due finished
    | closes same files =>
        obtain rfl : t = { s with files := s.files.close i } := by
          cases t
          cases same
          cases files
          rfl
        exact locked_close locked i

theorem locked_start : Locked {} where
  holder := nofun
  keeps := nofun
  apart := nofun

/-- A locked tty is one client's. -/
theorem Locked.exclusive (locked : Locked s) : s.Exclusive := by
  have holds : ∀ k tty, s.InUse k tty → s.files.holder tty = some k := by
    rintro k tty ⟨c, here, rfl, pc, isOpen⟩
    obtain ⟨d, isOpen⟩ := Option.isSome_iff_exists.mp isOpen
    refine (locked.keeps k c d here ?_ isOpen).2
    rcases pc with pc | pc
    · rw [pc]
      trivial
    · rw [pc]
      trivial
  intro i j tty first second
  exact Option.some.inj ((holds i tty first).symm.trans (holds j tty second))

/-- It is refused to the others. -/
theorem Locked.refusesKept (locked : Locked s) : s.RefusesKept := by
  intro i c here opened isOpen
  obtain ⟨d, isOpen⟩ := Option.isSome_iff_exists.mp isOpen
  have busy : s.acquireExclusive .posix i c.tty = .error (.busyDeviceError (busyMessage c.tty)) ↔
      s.files.tryLock c.tty i = none := by
    cases took : s.files.tryLock c.tty i with
    | none => simp only [acquireExclusive, isOpen, took]
    | some files => simp only [acquireExclusive, isOpen, took, reduceCtorEq]
  rw [busy, FileTable.tryLock_eq_none isOpen]
  constructor
  · rintro ⟨j, away, holds⟩
    obtain ⟨other, there, tty, keeps⟩ := locked.holder j c.tty holds
    obtain ⟨e, open_⟩ := FileTable.open_of_holder holds
    exact ⟨j, other, away, there, tty, keeps, by rw [open_]; rfl⟩
  · rintro ⟨j, other, away, there, tty, keeps, open_⟩
    obtain ⟨e, open_⟩ := Option.isSome_iff_exists.mp open_
    exact ⟨j, away, tty ▸ (locked.keeps j other e there keeps open_).2⟩

/-! ## On Windows -/

/-- What holds in every state on Windows. -/
structure Sole (s : SerialPorts) : Prop where
  known : ∀ i d, s.files.place i = some d → i < s.clients.length
  sole : ∀ i j c c', s.clients[i]? = some c → s.clients[j]? = some c' → c.tty = c'.tty →
    (s.files.place i).isSome → (s.files.place j).isSome → i = j

theorem inOtherHands_iff {tty : String} : s.InOtherHands tty ↔
    ∃ j other, s.clients[j]? = some other ∧ other.tty = tty ∧ (s.files.place j).isSome := by
  simp only [InOtherHands, Prod.exists, ← FileTable.place_iff, Option.map_eq_some_iff,
    Option.isSome_iff_exists]
  constructor
  · rintro ⟨j, d, isOpen, other, there, tty⟩
    exact ⟨j, other, there, tty, d, isOpen⟩
  · rintro ⟨j, other, there, tty, d, isOpen⟩
    exact ⟨j, d, isOpen, other, there, tty⟩

/-- No file is opened. -/
theorem sole_fewer (sole : Sole s) (longer : s.clients.length ≤ t.clients.length)
    (fewer : ∀ i d, t.files.place i = some d → s.files.place i = some d)
    (old : ∀ i c, i < s.clients.length → t.clients[i]? = some c →
      ∃ before, s.clients[i]? = some before ∧ c.tty = before.tty) : Sole t := by
  have before : ∀ i c, t.clients[i]? = some c → (t.files.place i).isSome →
      (s.files.place i).isSome ∧ ∃ b, s.clients[i]? = some b ∧ c.tty = b.tty := by
    intro i c here isOpen
    obtain ⟨d, isOpen⟩ := Option.isSome_iff_exists.mp isOpen
    have was := fewer i d isOpen
    exact ⟨by rw [was]; rfl, old i c (sole.known i d was) here⟩
  refine ⟨fun i d isOpen => ?_, fun i j c c' here there tty isOpen isOpen' => ?_⟩
  · exact Nat.lt_of_lt_of_le (sole.known i d (fewer i d isOpen)) longer
  · obtain ⟨was, b, bHere, same⟩ := before i c here isOpen
    obtain ⟨was', b', bThere, same'⟩ := before j c' there isOpen'
    exact sole.sole i j b b' bHere bThere (same.symm.trans (tty.trans same')) was was'

/-- The file that is opened is the only one of its tty. -/
theorem sole_opens {number : Descriptor} (sole : Sole s) (turns : Turns s t i c c')
    (alone : ¬s.InOtherHands c.tty) (opened : s.files.openAt i number = some t.files) :
    Sole t := by
  have alone : ∀ j b, s.clients[j]? = some b → b.tty = c.tty → s.files.place j = none := by
    intro j b there tty
    by_contra isOpen
    exact alone (inOtherHands_iff.mpr ⟨j, b, there, tty, Option.isSome_iff_ne_none.mpr isOpen⟩)
  -- what is open is the new file or was open before
  have cases : ∀ j, (t.files.place j).isSome → (s.files.place j).isSome ∨ j = i := by
    intro j isOpen
    obtain ⟨d, isOpen⟩ := Option.isSome_iff_exists.mp isOpen
    rcases (FileTable.place_openAt opened).mp isOpen with was | ⟨rfl, -⟩
    · exact .inl (by rw [was]; rfl)
    · exact .inr rfl
  refine ⟨fun k d isOpen => ?_, fun k j b b' here there tty isOpen isOpen' => ?_⟩
  · rw [turns.length]
    rcases cases k (by rw [isOpen]; rfl) with was | rfl
    · obtain ⟨e, was⟩ := Option.isSome_iff_exists.mp was
      exact sole.known k e was
    · exact (List.getElem?_eq_some_iff.mp turns.before).1
  · obtain ⟨o, oHere, same⟩ := turns.known here
    obtain ⟨o', oThere, same'⟩ := turns.known there
    have tty : o.tty = o'.tty := same.symm.trans (tty.trans same')
    rcases cases k isOpen with was | rfl
    · rcases cases j isOpen' with was' | rfl
      · exact sole.sole k j o o' oHere oThere tty was was'
      · obtain rfl := Option.some.inj (turns.before.symm.trans oThere)
        rw [alone k o oHere tty] at was
        cases was
    · obtain rfl := Option.some.inj (turns.before.symm.trans oHere)
      rcases cases j isOpen' with was' | rfl
      · rw [alone j o' oThere tty.symm] at was'
        cases was'
      · rfl

theorem sole_step (sole : Sole s) (ran : s.step .win32 action = some t) : Sole t := by
  rcases moved_of_step ran with ⟨process, tty, rfl, rfl⟩ | ⟨i, c, at_, moved⟩
  · refine sole_fewer sole (by simp) (fun _ _ isOpen => isOpen) fun k other old here => ?_
    rcases create_cases.2 here with there | ⟨rfl, -⟩
    · exact ⟨other, there, rfl⟩
    · exact absurd old (Nat.lt_irrefl _)
  · cases moved with
    | opens number isOpens turns early alone opened => exact sole_opens sole turns (alone rfl) opened
    | takes fd posix => cases posix
    | goes c' turns files =>
        refine sole_fewer sole (Nat.le_of_eq turns.length.symm) (fun k d isOpen => ?_)
          fun k other _ => turns.known
        exact files ▸ isOpen
    | gives c' fd turns files =>
        refine sole_fewer sole (Nat.le_of_eq turns.length.symm) (fun k d isOpen => ?_)
          fun k other _ => turns.known
        rw [files] at isOpen
        exact isOpen
    | closes same files =>
        refine sole_fewer sole (Nat.le_of_eq (by rw [same])) (fun k d isOpen => ?_) fun k other _ here => ?_
        · rw [files] at isOpen
          exact (FileTable.place_close.mp isOpen).1
        · exact ⟨other, same ▸ here, rfl⟩

theorem Sole.exclusive (sole : Sole s) : s.Exclusive := by
  rintro i j tty ⟨c, here, rfl, -, isOpen⟩ ⟨c', there, same, -, isOpen'⟩
  exact sole.sole i j c c' here there same.symm isOpen isOpen'

theorem sole_start : Sole {} where
  known := nofun
  sole := nofun

/-! ## Any run -/

/-- **A tty is one client's.**  Whichever clients open, take, use, close and release whichever
ttys, in whatever order: as long as POSIX hands out no number for which a release is to come,
no two clients are on one tty, and a client is refused a tty if and only if another keeps it
open. -/
theorem tty_exclusive (platform : SysPlatform) (s : SerialPorts)
    (reached : Reachable (step platform) (NoReuse platform) {} s) :
    s.Exclusive ∧ (platform = .posix → s.RefusesKept) := by
  cases platform with
  | posix =>
      have locked : Locked s := reached.invariant locked_start fun _ _ _ => locked_step
      exact ⟨locked.exclusive, fun _ => locked.refusesKept⟩
  | win32 =>
      have sole : Sole s := reached.invariant sole_start fun _ _ _ sole _ ran => sole_step sole ran
      exact ⟨sole.exclusive, nofun⟩

/-! ## Poles -/

/-- Two processes want one tty, the first dials on it and leaves, the second asks again. -/
def turnByTurn : List TtyAction :=
  [.create 0 "/dev/ttyUSB2", .create 1 "/dev/ttyUSB2", .opens 0 9, .opens 1 9, .acquire 0,
    .started 0, .acquire 1, .fileCloses 1, .goesOn 1, .aclose 0, .fileCloses 0, .goesOn 0,
    .create 1 "/dev/ttyUSB2", .opens 2 9, .acquire 2, .started 2]

theorem turn_by_turn_exclusive :
    ∃ s, guardedRun (step .posix) (NoReuse .posix) {} turnByTurn = some s ∧
      s.InUse 2 "/dev/ttyUSB2" ∧ s.Exclusive ∧ (SysPlatform.posix = .posix → s.RefusesKept) := by
  have ran : (guardedRun (step .posix) (NoReuse .posix) {} turnByTurn).isSome = true := by decide
  exact ⟨_, (Option.some_get ran).symm, ⟨_, rfl, rfl, .inr rfl, rfl⟩,
    tty_exclusive .posix _ (reachable_guarded_get ran)⟩

/-- A client of `/dev/ttyUSB2` is closed, and its number goes to `/dev/ttyUSB6` before its lock
is released: the lock that is released is the other's. -/
def reused : List TtyAction :=
  [.create 0 "/dev/ttyUSB2", .opens 0 9, .acquire 0, .started 0, .aclose 0, .fileCloses 0,
    .create 0 "/dev/ttyUSB6", .opens 1 9, .acquire 1, .started 1, .goesOn 0,
    .create 1 "/dev/ttyUSB6", .opens 2 9, .acquire 2, .started 2]

theorem reused_descriptor_unlocks :
    ∃ s, Reachable (step .posix) Free {} s ∧ ¬s.Exclusive := by
  have ran : (run (step .posix) {} reused).isSome = true := by decide
  refine ⟨_, reachable_get ran, fun exclusive => ?_⟩
  have same := exclusive 1 2 "/dev/ttyUSB6" ⟨_, rfl, rfl, .inr rfl, rfl⟩ ⟨_, rfl, rfl, .inr rfl, rfl⟩
  cases same

end IsalesTelephony.Modem.SerialPorts
