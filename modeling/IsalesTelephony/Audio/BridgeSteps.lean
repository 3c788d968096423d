/-
# Audio.BridgeSteps -- what a step of the bridge keeps

How far the SDK has been given the chunks is decided by where the loop is: nothing more than the
chunks pushed while it has none in hand, a part of the one it pushes, and of the one it ended
with (`Feeds`).  A push that goes on moves this by a frame (`core_settlePush`); whatever the
session does else leaves it (`core_quiet`).  Where the bridge is says where its session is
(`Phase`), and so that a loop that runs has an engine that is alive (`Sound.alive`).
-/
import IsalesTelephony.Audio.AudioBridge

namespace IsalesTelephony.Audio

set_option autoImplicit false

open IsalesTelephony.Theory
open IsalesTelephony.Theory.Transition

namespace AudioBridge

variable {config : WindowsSessionConfig} {sp : Scipy} {s t : AudioBridge}

/-- The bytes of the frames the SDK was given. -/
def given (s : AudioBridge) : Pcm := WindowsSession.audio s.session.heard

/-- The chunks pushed, each filled up to whole frames. -/
def done (s : AudioBridge) : Pcm := s.up.pushed.flatMap WindowsSession.padded

/-- Where the loop and its push are, and how far the SDK has been given the chunks. -/
inductive Feeds (sp : Scipy) (s : AudioBridge) : Prop
  | rests (push : s.push = none)
      (pc : s.up.pc = .loop ∨ s.up.pc = .waiting ∨ ∃ why, s.up.pc = .ended why none)
      (line : s.given = s.done)
  | pushes (n : Nat) (chunk resampled part : Pcm) (frames : List Handed) (push : s.push = some n)
      (pc : s.up.pc = .pushing chunk resampled)
      (task : s.session.tasks[n]? = some (.pushing 0 frames)) (some_ : frames ≠ [])
      (grid : ∀ frame ∈ frames, WindowsSession.Grid frame) (line : s.given = s.done ++ part)
      (rest : part ++ WindowsSession.audio frames = WindowsSession.padded resampled)
  | ends (why : UpEnd) (chunk part : Pcm) (push : s.push = none)
      (pc : s.up.pc = .ended why (some chunk)) (line : s.given = s.done ++ part)
      (begun : part = [] ∨ ∃ resampled, Resampler.upstream.resample sp chunk = .ok resampled ∧
        part <+: WindowsSession.padded resampled)

/-- What holds wherever the bridge is. -/
structure Core (sp : Scipy) (s : AudioBridge) : Prop where
  session : WindowsSession.Told s.session ∧ WindowsSession.Owned s.session
  attempts : s.session.attempts.length ≤ 1
  rate : s.session.sendSampleRate = 16000 ∧ s.session.sendChannels = 1
  grid : ∀ frame ∈ s.session.heard, WindowsSession.Grid frame
  pushing : ∀ (i a : Nat) (frames : List Handed),
    s.session.tasks[i]? = some (.pushing a frames) → s.push = some i
  fed : s.up.Fed sp s.refused.isSome
  feeds : s.Feeds sp
  cancelled : ∀ inHand, s.up.pc = .ended .cancelled inHand → s.up.stopEvent = true
  refused : ∀ rc ∈ s.refused, rc ≠ 0

/-- Where the bridge and its session are. -/
def Phase (s : AudioBridge) : Prop :=
  match s.bridge with
  | .idle => s.session = {} ∧ s.up.pc = .loop
  | .joining i => s.session.tasks[i]? = some (.joining 0) ∧ s.session.closed = false ∧
      s.up.pc = .loop
  | .joined => s.session.joined = true ∧ s.session.closed = false
  | .notJoined => s.session.joined = false ∧ (s.cancelled = false → s.session.engine = none) ∧
      s.up.pc = .loop
  | .leaving i => s.session.joined = true ∧ s.session.closed = false ∧
      s.session.tasks[i]? = some (.stopping .leave) ∧ s.up.stopEvent = true
  | .left => (s.cancelled = false → s.session.engine = none) ∧ s.push = none ∧
      s.up.stopEvent = true ∧ (s.up.pc = .loop ∨ ∃ why inHand, s.up.pc = .ended why inHand)

structure Sound (sp : Scipy) (s : AudioBridge) : Prop where
  core : s.Core sp
  phase : s.Phase

/-! ### The session moves -/

/-- The bridge's own state is as it was, and the session's frames are. -/
theorem core_quiet (core : s.Core sp)
    (owned : WindowsSession.Told t.session ∧ WindowsSession.Owned t.session)
    (quiet : WindowsSession.Quiet s.session t.session) (up : t.up = s.up) (push : t.push = s.push)
    (refused : t.refused = s.refused) : t.Core sp := by
  have given : t.given = s.given := by rw [given, quiet.heard]; rfl
  have done_ : t.done = s.done := by rw [done, up]; rfl
  constructor
  case session => exact owned
  case attempts => exact quiet.attempts.trans_le core.attempts
  case rate => rw [quiet.rate.1, quiet.rate.2]; exact core.rate
  case grid => exact quiet.heard ▸ core.grid
  case pushing =>
    intro i a frames task
    rw [push]
    exact core.pushing i a frames ((quiet.pushing i a frames).mp task)
  case fed => rw [up, refused]; exact core.fed
  case feeds =>
    cases core.feeds with
    | rests none_ pc line => exact .rests (push.trans none_) (up ▸ pc) (by rw [given, done_, line])
    | pushes n chunk resampled part frames some_ pc task more grid line rest =>
        exact .pushes n chunk resampled part frames (push.trans some_) (up ▸ pc)
          ((quiet.pushing n 0 frames).mpr task) more grid (by rw [given, done_, line]) rest
    | ends why chunk part none_ pc line begun =>
        exact .ends why chunk part (push.trans none_) (up ▸ pc) (by rw [given, done_, line]) begun
  case cancelled => rw [up]; exact core.cancelled
  case refused => rw [refused]; exact core.refused

/-! ### The loop pushes -/

/-- Where the loop is before it looks at the push that has gone on: the SDK has replied to a frame
of the chunk in hand, and `rest` is to come. -/
structure Replied (sp : Scipy) (s : AudioBridge) (n : Nat) (rc : Int) (rest : List Handed)
    (chunk resampled part : Pcm) : Prop where
  session : WindowsSession.Told s.session ∧ WindowsSession.Owned s.session
  attempts : s.session.attempts.length ≤ 1
  rate : s.session.sendSampleRate = 16000 ∧ s.session.sendChannels = 1
  grid : ∀ frame ∈ s.session.heard ++ rest, WindowsSession.Grid frame
  pushing : ∀ (i a : Nat) (frames : List Handed),
    s.session.tasks[i]? = some (.pushing a frames) → i = n
  fed : s.up.Fed sp false
  unrefused : s.refused = none
  pc : s.up.pc = .pushing chunk resampled
  task : s.session.tasks[n]? = some (WindowsSession.replied rc rest)
  line : s.given = s.done ++ part
  rest : part ++ WindowsSession.audio rest = WindowsSession.padded resampled

variable {n : Nat} {rc : Int} {rest : List Handed} {chunk resampled part : Pcm}

theorem core_settlePush (replied : s.Replied sp n rc rest chunk resampled part) :
    (s.settlePush n rc).Core sp := by
  have pc := replied.pc
  have sound : Upstream.Sound sp s.up := by simpa using replied.fed.sound
  obtain ⟨some_, converts⟩ := sound.pending chunk resampled (.inl pc)
  have heard : ∀ frame ∈ s.session.heard, WindowsSession.Grid frame := fun frame member =>
    replied.grid frame (List.mem_append_left _ member)
  have quiet : ∀ {push : Option Nat}, (rc ≠ 0 ∨ rest = []) → ∀ (i a : Nat) (frames : List Handed),
      s.session.tasks[i]? = some (.pushing a frames) → push = some i := by
    intro push finished i a frames task
    rw [replied.pushing i a frames task, replied.task, WindowsSession.replied] at task
    rcases finished with refused | rfl
    · rw [if_pos refused] at task
      cases task
    · split at task
      · cases task
      · cases task
  by_cases refused : rc = 0
  · by_cases last : rest = []
    · -- the chunk is pushed
      have task : s.session.tasks[n]? = some .pushed := by
        rw [replied.task, WindowsSession.replied, if_neg (by simpa using refused), if_pos last]
      have settled : s.settlePush n rc =
          { s with push := none, up := s.up.pushDone chunk resampled } := by
        simp only [settlePush, task, pc]
      have pushed : s.up.step sp .pushed = some (s.up.pushDone chunk resampled) := by
        simp only [Upstream.step, pc]
      rw [settled]
      refine ⟨replied.session, replied.attempts, replied.rate, heard, quiet (.inr last), ?_, ?_,
        (fun inHand ended => by cases ended), ?_⟩
      · rw [replied.unrefused]
        exact Upstream.fed_step replied.fed pushed
      · refine .rests rfl (.inl rfl) ?_
        have whole : part = WindowsSession.padded resampled := by
          have rest := replied.rest
          rw [last] at rest
          exact (List.append_nil part).symm.trans rest
        have grown : ({ s with push := none, up := s.up.pushDone chunk resampled } : AudioBridge).done =
            s.done ++ WindowsSession.padded resampled := by
          simp [done, Upstream.pushDone]
        rw [grown, ← whole]
        exact replied.line
      · rw [replied.unrefused]
        intro other same
        cases same
    · have task : s.session.tasks[n]? = some (.pushing 0 rest) := by
        rw [replied.task, WindowsSession.replied, if_neg (by simpa using refused), if_neg last]
      have settled : s.settlePush n rc = { s with push := some n } := by
        simp only [settlePush, task, pc]
      rw [settled]
      refine ⟨replied.session, replied.attempts, replied.rate, heard, fun i a frames task => ?_, ?_, ?_,
        fun inHand ended => ?_, ?_⟩
      · rw [replied.pushing i a frames task]
      · rw [replied.unrefused]
        exact replied.fed
      · exact .pushes n chunk resampled part rest rfl pc task last
          (fun frame member => replied.grid frame (List.mem_append_right _ member)) replied.line
          replied.rest
      · cases pc.symm.trans ended
      · rw [replied.unrefused]
        intro other same
        cases same
  · have task : s.session.tasks[n]? =
        some (.raised (.pushFailed ⟨rc, "PushExternalAudioFrame failed"⟩)) := by
      rw [replied.task, WindowsSession.replied, if_pos refused]
    have settled : s.settlePush n rc = { s with
        push := none
        up := { s.up with pc := .ended .pushFailed (some chunk) }
        refused := some rc } := by
      simp only [settlePush, task, pc]
    rw [settled]
    refine ⟨replied.session, replied.attempts, replied.rate, heard, quiet (.inl refused), ?_, ?_,
      (fun inHand ended => by cases ended), ?_⟩
    · exact Upstream.fed_refused replied.fed pc
    · exact .ends .pushFailed chunk part rfl rfl replied.line
        (.inr ⟨resampled, converts, _, replied.rest⟩)
    · intro other same
      rw [← Option.some.inj same]
      exact refused

/-- While the loops run the session is joined, over the engine that is alive. -/
theorem Sound.alive (sound : s.Sound sp) (loops : s.looping = true) :
    ∃ x, s.session.attempts = [x] ∧ x.handle.engine = true ∧ s.session.joined = true ∧
      s.session.engine = some 0 := by
  have joined : s.session.joined = true ∧ s.session.closed = false := by
    have phase := sound.phase
    unfold looping at loops
    unfold Phase at phase
    split at loops
    · rename_i at_
      simp only [at_] at phase
      exact phase
    · rename_i at_
      simp only [at_] at phase
      exact ⟨phase.1, phase.2.1⟩
    · cases loops
  have owned := sound.core.session.2
  obtain ⟨a, engine, -⟩ := owned.joined joined.1 joined.2
  obtain ⟨x, here, alive⟩ := owned.here a engine
  have few := sound.core.attempts
  cases attempts : s.session.attempts with
  | nil =>
      rw [attempts] at here
      cases here
  | cons y rest =>
      rw [attempts] at few here
      obtain rfl : rest = [] := List.eq_nil_of_length_eq_zero (by simpa using few)
      cases a with
      | zero =>
          obtain rfl := Option.some.inj here
          exact ⟨y, rfl, alive, joined.1, engine⟩
      | succ a => cases here

/-- A phase is about the bridge, its session and the end of the loop. -/
theorem phase_loops (loops : s.looping = true) (phase : s.Phase) (bridge : t.bridge = s.bridge)
    (joined : t.session.joined = s.session.joined) (closed : t.session.closed = s.session.closed)
    (stop : t.up.stopEvent = s.up.stopEvent)
    (tasks : ∀ (i : Nat) (teardown : Teardown), s.session.tasks[i]? = some (.stopping teardown) →
      t.session.tasks[i]? = some (.stopping teardown)) : t.Phase := by
  unfold looping at loops
  unfold Phase at phase ⊢
  rw [bridge]
  split at loops
  · rename_i at_
    simp only [at_] at phase ⊢
    rw [joined, closed]
    exact phase
  · rename_i i at_
    simp only [at_] at phase ⊢
    rw [joined, closed, stop]
    exact ⟨phase.1, phase.2.1, tasks i _ phase.2.2.1, phase.2.2.2⟩
  · cases loops

theorem settlePush_same (s : AudioBridge) (n : Nat) (rc : Int) :
    (s.settlePush n rc).bridge = s.bridge ∧ (s.settlePush n rc).session = s.session ∧
      (s.settlePush n rc).up.stopEvent = s.up.stopEvent ∧
        (s.settlePush n rc).cancelled = s.cancelled := by
  unfold settlePush
  split
  all_goals exact ⟨rfl, rfl, rfl, rfl⟩

theorem Core.unrefused (core : s.Core sp) (goes : ∀ why chunk, s.up.pc ≠ .ended why chunk) :
    s.refused = none := by
  by_contra some_
  obtain ⟨chunk, ended⟩ := core.fed.finished (Option.isSome_iff_ne_none.mpr some_)
  exact goes _ _ ended

/-- An engine has been given one more frame of the chunk in hand. -/
theorem replied_of_handed {x y : JoinAttempt} {first : Handed} {before : Pcm} (core : s.Core sp)
    (attempts : s.session.attempts = [x]) (handed : t.session.attempts = [y])
    (heard : y.handle.heard = x.handle.heard ++ [first])
    (owned : WindowsSession.Told t.session ∧ WindowsSession.Owned t.session)
    (rate : t.session.sendSampleRate = 16000 ∧ t.session.sendChannels = 1)
    (grid : ∀ frame ∈ first :: rest, WindowsSession.Grid frame)
    (pushing : ∀ (i a : Nat) (frames : List Handed),
      t.session.tasks[i]? = some (.pushing a frames) → i = n)
    (fed : t.up.Fed sp false) (unrefused : t.refused = none) (pc : t.up.pc = .pushing chunk resampled)
    (task : t.session.tasks[n]? = some (WindowsSession.replied rc rest))
    (line : s.given = t.done ++ before)
    (whole : before ++ WindowsSession.audio (first :: rest) = WindowsSession.padded resampled) :
    t.Replied sp n rc rest chunk resampled (before ++ first.pcm) := by
  have told : t.session.heard = s.session.heard ++ [first] := by
    rw [WindowsSession.heard_single handed, WindowsSession.heard_single attempts, heard]
  constructor
  case session => exact owned
  case attempts => rw [handed]; exact le_refl 1
  case rate => exact rate
  case grid =>
    intro frame member
    rw [told, List.append_assoc] at member
    rcases List.mem_append.mp member with old | new
    · exact core.grid frame old
    · exact grid frame new
  case pushing => exact pushing
  case fed => exact fed
  case unrefused => exact unrefused
  case pc => exact pc
  case task => exact task
  case line =>
    have one : WindowsSession.audio [first] = first.pcm := List.append_nil _
    rw [given, told, WindowsSession.audio_append, one, ← List.append_assoc, ← line]
    rfl
  case rest =>
    rw [List.append_assoc]
    exact whole

/-- The loop has gone round, and pushes what it took. -/
theorem sound_beginPush (config : WindowsSessionConfig) {action : UpAction} {up : Upstream}
    (sound : s.Sound sp) (loops : s.looping = true) (turns : action = .turn ∨ action = .wake)
    (ran : s.up.step sp action = some up) (timestampMs rc : Int) :
    ({ s with up := up }.beginPush timestampMs rc).Sound sp := by
  obtain ⟨idle, turned, pushed, stop⟩ := Upstream.turned_step turns ran
  have core := sound.core
  have goes : ∀ why chunk, s.up.pc ≠ .ended why chunk := by
    intro why chunk ended
    rcases idle with atLoop | waiting
    · exact absurd (atLoop.symm.trans ended) nofun
    · exact absurd (waiting.symm.trans ended) nofun
  have refused := core.unrefused goes
  have fed : up.Fed sp s.refused.isSome := Upstream.fed_step core.fed ran
  have resting : s.push = none ∧ s.given = s.done := by
    cases core.feeds with
    | rests push pc line => exact ⟨push, line⟩
    | pushes n chunk resampled part frames push pc =>
        rcases idle with atLoop | waiting
        · exact absurd (atLoop.symm.trans pc) nofun
        · exact absurd (waiting.symm.trans pc) nofun
    | ends why chunk part push pc => exact absurd pc (goes why _)
  have done_ : ({ s with up := up } : AudioBridge).done = s.done := by rw [done, pushed]; rfl
  obtain ⟨x, attempts, alive, joined, engine⟩ := sound.alive loops
  -- what does not push leaves the session alone
  have rests : ∀ feeds : ({ s with up := up } : AudioBridge).Feeds sp,
      (∀ inHand, up.pc ≠ .ended .cancelled inHand) → ({ s with up := up } : AudioBridge).Sound sp := by
    intro feeds other
    refine ⟨⟨core.session, core.attempts, core.rate, core.grid, core.pushing, fed, feeds,
      fun inHand ended => absurd ended (other inHand), core.refused⟩, ?_⟩
    exact phase_loops loops sound.phase rfl rfl rfl stop fun _ _ => id
  unfold beginPush
  cases turned' : up.pc with
  | loop | waiting =>
      refine rests (.rests resting.1 ?_ (resting.2.trans done_.symm)) (by simp [turned'])
      simp [turned']
  | sleeping chunk resampled =>
      rw [turned'] at turned
      cases turned
  | ended why inHand =>
      rw [turned'] at turned
      cases turned with
      | ended why other =>
          refine rests (.rests resting.1 (.inr (.inr ⟨why, turned'⟩)) (resting.2.trans done_.symm)) ?_
          intro inHand same
          rw [turned'] at same
          cases same
          exact other rfl
      | odd chunk =>
          refine rests (.ends .notResampled chunk [] resting.1 turned' ?_ (.inl rfl)) (by simp [turned'])
          rw [done_, List.append_nil]
          exact resting.2
  | pushing chunk resampled =>
      rw [turned'] at turned
      cases turned with
      | pushing _ _ whole some_ converts =>
          have long : resampled ≠ [] := by
            obtain ⟨form, same, length⟩ := @Resampler.resample_upstream sp chunk whole
            obtain rfl := Except.ok.inj (same.symm.trans converts)
            intro empty
            rw [empty, List.length_nil] at length
            exact some_ (List.eq_nil_of_length_eq_zero (by omega))
          obtain ⟨y, first, rest, alive', heard, grid, flat, became⟩ :=
            WindowsSession.push_alive timestampMs rc attempts alive joined engine core.rate long
          have pushes : s.session.step config (.push resampled timestampMs rc) =
              some (s.session.push resampled timestampMs rc) := rfl
          have fresh : s.session.Fresh (.push resampled timestampMs rc) := trivial
          have owned := WindowsSession.owned_step core.session fresh pushes
          dsimp only
          rw [became] at owned ⊢
          have replied : Replied sp { s with
              up := up
              session := { s.session with
                attempts := [y], tasks := s.session.tasks ++ [WindowsSession.replied rc rest] } }
              s.session.tasks.length rc rest chunk resampled ([] ++ first.pcm) := by
            refine replied_of_handed core attempts rfl heard owned core.rate grid ?_ ?_ refused turned'
              List.getElem?_concat_length ?_ flat
            · intro i a frames task
              rcases getElem?_snoc_cases task with old | ⟨here, -⟩
              · rw [core.pushing i a frames old] at resting
                cases resting.1
              · exact here
            · rw [refused] at fed
              exact fed
            · exact resting.2.trans (done_.symm.trans (List.append_nil _).symm)
          refine ⟨core_settlePush replied, ?_⟩
          obtain ⟨bridge, session, same, -⟩ := settlePush_same { s with
              up := up
              session := { s.session with
                attempts := [y], tasks := s.session.tasks ++ [WindowsSession.replied rc rest] } }
            s.session.tasks.length rc
          refine phase_loops loops sound.phase bridge ?_ ?_ (same.trans stop) ?_
          · rw [session]
          · rw [session]
          · rw [session]
            intro i teardown here
            exact (List.getElem?_append_left (List.getElem?_eq_some_iff.mp here).1).trans here

/-- A push is under way only while the loops run. -/
theorem Sound.loops_of_push (sound : s.Sound sp) (push : s.push = some n) : s.looping = true := by
  have pushing : ∃ chunk resampled, s.up.pc = .pushing chunk resampled := by
    cases sound.core.feeds with
    | rests none_ => cases push.symm.trans none_
    | pushes n chunk resampled part frames some_ pc => exact ⟨chunk, resampled, pc⟩
    | ends why chunk part none_ => cases push.symm.trans none_
  obtain ⟨chunk, resampled, pc⟩ := pushing
  have phase := sound.phase
  unfold Phase at phase
  unfold looping
  split at phase
  · exact absurd (pc.symm.trans phase.2) nofun
  · exact absurd (pc.symm.trans phase.2.2) nofun
  · rename_i at_
    simp only [at_]
  · exact absurd (pc.symm.trans phase.2.2) nofun
  · rename_i at_
    simp only [at_]
  · cases push.symm.trans phase.2.1

/-- `push_audio` goes on after a sleep. -/
theorem sound_pushResumes {session : WindowsSession} (sound : s.Sound sp) (push : s.push = some n)
    (ran : s.session.step config (.pushResumes n rc) = some session) :
    ({ s with session := session }.settlePush n rc).Sound sp := by
  have core := sound.core
  have loops := sound.loops_of_push push
  obtain ⟨x, attempts, alive, -⟩ := sound.alive loops
  have fresh : s.session.Fresh (.pushResumes n rc) := trivial
  have owned := WindowsSession.owned_step core.session fresh ran
  cases core.feeds with
  | rests none_ => cases push.symm.trans none_
  | ends why chunk part none_ => cases push.symm.trans none_
  | pushes m chunk resampled part frames some_ pc task more grid line rest =>
      obtain rfl := Option.some.inj (push.symm.trans some_)
      have known := (List.getElem?_eq_some_iff.mp task).1
      have refused := core.unrefused fun why inHand ended => by cases pc.symm.trans ended
      cases frames with
      | nil => exact absurd rfl more
      | cons first later =>
          obtain ⟨y, -, heard, became⟩ := WindowsSession.pushOn_alive (s := s.session) (i := n) later rc
            attempts alive (grid first List.mem_cons_self)
          simp only [WindowsSession.step, task, Option.some.injEq] at ran
          rw [became] at ran
          subst ran
          have replied : Replied sp { s with session := { s.session with
              attempts := [y], tasks := s.session.tasks.set n (WindowsSession.replied rc later) } }
              n rc later chunk resampled (part ++ first.pcm) := by
            refine replied_of_handed core attempts rfl heard owned core.rate grid ?_ ?_ refused pc
              (List.getElem?_set_self known) line rest
            · intro i a frames here
              rcases WindowsSession.tasks_setTask here with ⟨-, old⟩ | ⟨same, -⟩
              · exact (Option.some.inj (push.symm.trans (core.pushing i a frames old))).symm
              · exact same
            · have fed := core.fed
              rw [refused] at fed
              exact fed
          refine ⟨core_settlePush replied, ?_⟩
          obtain ⟨bridge, session, same, -⟩ := settlePush_same { s with session := { s.session with
            attempts := [y], tasks := s.session.tasks.set n (WindowsSession.replied rc later) } } n rc
          refine phase_loops loops sound.phase bridge ?_ ?_ same ?_
          · rw [session]
          · rw [session]
          · rw [session]
            intro i teardown here
            have away : n ≠ i := by
              rintro rfl
              cases task.symm.trans here
            exact (List.getElem?_set_ne away).trans here

/-- What the loop has no part in. -/
theorem sound_aside {action : UpAction} {up : Upstream} (sound : s.Sound sp)
    (aside : (∃ chunk, action = .read chunk ∨ action = .put chunk) ∨ action = .close ∨
      ∃ pcm, action = .tapAi pcm) (ran : s.up.step sp action = some up) :
    ({ s with up := up } : AudioBridge).Sound sp := by
  obtain ⟨pc, pushed, stop⟩ := Upstream.aside_step aside ran
  have core := sound.core
  have done_ : ({ s with up := up } : AudioBridge).done = s.done := by rw [done, pushed]; rfl
  refine ⟨⟨core.session, core.attempts, core.rate, core.grid, core.pushing,
    Upstream.fed_step core.fed ran, ?_, ?_, core.refused⟩, ?_⟩
  · cases core.feeds with
    | rests push at_ line => exact .rests push (by rw [pc]; exact at_) (line.trans done_.symm)
    | pushes n chunk resampled part frames push at_ task some_ grid line rest =>
        exact .pushes n chunk resampled part frames push (pc.trans at_) task some_ grid
          (by rw [done_]; exact line) rest
    | ends why chunk part push at_ line begun =>
        exact .ends why chunk part push (pc.trans at_) (by rw [done_]; exact line) begun
  · rw [pc, stop]
    exact core.cancelled
  · have phase := sound.phase
    unfold Phase at phase ⊢
    simp only [pc, stop]
    exact phase

/-- What the SDK's threads and the clock do. -/
theorem sound_idles (action : SessionAction) {session : WindowsSession} (sound : s.Sound sp)
    (fresh : s.session.Fresh action) (aside : WindowsSession.SessionAction.Aside action)
    (ran : s.session.step config action = some session) (idles : WindowsSession.Idles s.session session)
    (begun : s.bridge ≠ .idle) : ({ s with session := session } : AudioBridge).Sound sp := by
  have owned := WindowsSession.owned_step sound.core.session fresh ran
  have quiet := WindowsSession.quiet_step aside ran
  refine ⟨core_quiet sound.core owned quiet rfl rfl rfl, ?_⟩
  have phase := sound.phase
  unfold Phase at phase ⊢
  rw [idles.joined, idles.closed, idles.engine, idles.tasks]
  dsimp only
  split at phase
  · rename_i at_
    exact absurd at_ begun
  all_goals exact phase

/-- Nothing calls back before `join`. -/
theorem Sound.begun_of_callback {action : SessionAction} {session : WindowsSession}
    (sound : s.Sound sp) (ran : s.session.step config action = some session)
    (calls : (∃ a event, action = .callback a event) ∨ action = .runCallback) : s.bridge ≠ .idle := by
  intro idle
  have phase := sound.phase
  unfold Phase at phase
  simp only [idle] at phase
  rw [phase.1] at ran
  rcases calls with ⟨a, event, rfl⟩ | rfl
  · cases ran
  · cases ran

/-- The bridge looks at the session's `join`, which has returned or raised or waits. -/
theorem sound_settleJoin {i : Nat} (core : s.Core sp) (unrefused : s.refused = none)
    (pc : s.up.pc = .loop)
    (tasks : s.session.tasks[i]? = some (.joining 0) ∧ s.session.closed = false ∨
      s.session.tasks[i]? = some (.joined 0) ∧ s.session.joined = true ∧ s.session.closed = false ∨
      ∃ task, s.session.tasks[i]? = some task ∧ task.raises = true ∧ s.session.joined = false ∧
        s.session.engine = none) : (s.settleJoin i).Sound sp := by
  have resting : s.push = none ∧ s.given = s.done := by
    cases core.feeds with
    | rests push _ line => exact ⟨push, line⟩
    | pushes n chunk resampled part frames push at_ => exact absurd (pc.symm.trans at_) nofun
    | ends why chunk part push at_ => exact absurd (pc.symm.trans at_) nofun
  unfold settleJoin
  rcases tasks with ⟨task, open_⟩ | ⟨task, joined, open_⟩ | ⟨raised, task, raises, away, engine⟩
  · simp only [task]
    exact ⟨⟨core.session, core.attempts, core.rate, core.grid, core.pushing, core.fed,
      .rests resting.1 (.inl pc) resting.2, core.cancelled, core.refused⟩, task, open_, pc⟩
  · simp only [task]
    have fed : s.up.Fed sp false := by
      have fed := core.fed
      rw [unrefused] at fed
      exact fed
    refine ⟨⟨core.session, core.attempts, core.rate, core.grid, core.pushing, ?_,
      .rests resting.1 (.inl pc) resting.2, ?_, core.refused⟩, joined, open_⟩
    · rw [unrefused]
      exact Upstream.fed_restop fed fun why chunk ended => absurd (pc.symm.trans ended) nofun
    · exact fun inHand ended => absurd (pc.symm.trans ended) nofun
  · have finished : ({ s with bridge := .notJoined } : AudioBridge).Sound sp :=
      ⟨⟨core.session, core.attempts, core.rate, core.grid, core.pushing, core.fed,
        .rests resting.1 (.inl pc) resting.2, core.cancelled, core.refused⟩, away, fun _ => engine, pc⟩
    cases raised with
    | raised error | failed a error =>
        simp only [task]
        exact finished
    | _ => cases raises

/-! ### Joining and leaving -/

theorem core_stopped (core : s.Core sp) :
    ({ s with up := { s.up with stopEvent := true } } : AudioBridge).Core sp := by
  have left : s.up.step sp .leave = some { s.up with stopEvent := true } := rfl
  refine ⟨core.session, core.attempts, core.rate, core.grid, core.pushing,
    Upstream.fed_step core.fed left, ?_, fun _ _ => rfl, core.refused⟩
  cases core.feeds with
  | rests push pc line => exact .rests push pc line
  | pushes n chunk resampled part frames push pc task some_ grid line rest =>
      exact .pushes n chunk resampled part frames push pc task some_ grid line rest
  | ends why chunk part push pc line begun => exact .ends why chunk part push pc line begun

/-- The loops are cancelled and awaited. -/
theorem sound_finishLeave (config : WindowsSessionConfig) (core : s.Core sp)
    (stop : s.up.stopEvent = true) (engine : s.cancelled = false → s.session.engine = none)
    (begun : s.looping = false → s.up.pc = .loop) (passesOn : Bool) :
    (s.finishLeave config sp passesOn).Sound sp := by
  -- the loop, once it is cancelled if it runs
  have upstream : ∃ up, (if s.looping then (s.up.step sp (.cancel passesOn)).getD s.up else s.up) = up ∧
      up.Fed sp s.refused.isSome ∧ up.pushed = s.up.pushed ∧ up.stopEvent = true ∧
        (up = s.up ∧ s.up.pc = .loop ∨ up = s.up ∧ (∃ why inHand, s.up.pc = .ended why inHand) ∨
          up.pc = .ended .cancelled s.up.inHand) := by
    refine ⟨_, rfl, ?_⟩
    by_cases loops : s.looping = true
    · rw [if_pos loops]
      rcases Upstream.cancel_cases sp s.up passesOn with ⟨ended, none_⟩ | ⟨up, ran, pc, pushed, same⟩
      · rw [none_]
        exact ⟨core.fed, rfl, stop, .inr (.inl ⟨rfl, ended⟩)⟩
      · rw [ran]
        exact ⟨Upstream.fed_step core.fed ran, pushed, same.trans stop, .inr (.inr pc)⟩
    · rw [if_neg loops]
      exact ⟨core.fed, rfl, stop, .inl ⟨rfl, begun (Bool.eq_false_of_not_eq_true loops)⟩⟩
  obtain ⟨up, isUp, fed, pushed, stopped, pc⟩ := upstream
  have finished : up.pc = .loop ∨ ∃ why inHand, up.pc = .ended why inHand := by
    rcases pc with ⟨rfl, atLoop⟩ | ⟨rfl, ended⟩ | cancelled
    · exact .inl atLoop
    · exact .inr ended
    · exact .inr ⟨_, _, cancelled⟩
  unfold finishLeave
  rw [isUp]
  cases core.feeds with
  | rests push at_ line =>
      simp only [push]
      have done_ : s.done = s.up.pushed.flatMap WindowsSession.padded := rfl
      refine ⟨⟨core.session, core.attempts, core.rate, core.grid, ?_, fed, .rests rfl ?_ ?_,
        fun _ _ => stopped, core.refused⟩, engine, rfl, stopped, finished⟩
      · intro i a frames task
        cases push.symm.trans (core.pushing i a frames task)
      · rcases pc with ⟨rfl, atLoop⟩ | ⟨rfl, ended⟩ | cancelled
        · exact .inl atLoop
        · exact at_
        · refine .inr (.inr ⟨_, cancelled.trans (congrArg _ ?_)⟩)
          rcases at_ with atLoop | waiting | ⟨why, ended⟩
          · exact Upstream.inHand_idle (.inl atLoop)
          · exact Upstream.inHand_idle (.inr waiting)
          · simp [Upstream.inHand, ended]
      · rw [done, pushed]
        exact line
  | pushes n chunk resampled part frames push at_ task some_ grid line rest =>
      simp only [push]
      have known := (List.getElem?_eq_some_iff.mp task).1
      have cancels : s.session.step config (.cancel n) = some (s.session.setTask n .cancelled) := by
        simp only [WindowsSession.step, task, Option.bind_some, WindowsSession.cancel]
      have fresh : s.session.Fresh (.cancel n) := trivial
      have owned := WindowsSession.owned_step core.session fresh cancels
      rw [cancels, Option.getD_some]
      have held := Upstream.inHand_held (.inl at_)
      have sound : Upstream.Sound sp s.up := by
        have unrefused := core.unrefused fun why inHand ended => by
          cases at_.symm.trans ended
        have sound := core.fed.sound
        rw [unrefused] at sound
        simpa using sound
      have converts := (sound.pending chunk resampled (.inl at_)).2
      refine ⟨⟨owned, core.attempts, core.rate, core.grid, ?_, fed, ?_, fun _ _ => stopped,
        core.refused⟩, engine, rfl, stopped, finished⟩
      · intro i a frames here
        rcases WindowsSession.tasks_setTask here with ⟨away, old⟩ | ⟨-, same⟩
        · exact absurd (Option.some.inj (push.symm.trans (core.pushing i a frames old))).symm away
        · cases same
      · have ended : up.pc = .ended .cancelled (some chunk) := by
          rcases pc with ⟨-, atLoop⟩ | ⟨-, why, inHand, ended⟩ | cancelled
          · cases at_.symm.trans atLoop
          · cases at_.symm.trans ended
          · rw [cancelled, held]
        refine .ends .cancelled chunk part rfl ended ?_ (.inr ⟨resampled, converts, _, rest⟩)
        rw [done, pushed]
        exact line
  | ends why chunk part push at_ line begun =>
      simp only [push]
      refine ⟨⟨core.session, core.attempts, core.rate, core.grid, ?_, fed, ?_, fun _ _ => stopped,
        core.refused⟩, engine, rfl, stopped, finished⟩
      · intro i a frames task
        cases push.symm.trans (core.pushing i a frames task)
      · have ended : ∃ why, up.pc = .ended why (some chunk) := by
          rcases pc with ⟨rfl, atLoop⟩ | ⟨rfl, -⟩ | cancelled
          · exact ⟨why, at_⟩
          · exact ⟨why, at_⟩
          · exact ⟨.cancelled, cancelled.trans (by simp [Upstream.inHand, at_])⟩
        obtain ⟨why', ended⟩ := ended
        refine .ends why' chunk part rfl ended ?_ begun
        rw [done, pushed]
        exact line

theorem sound_join (config : WindowsSessionConfig) (sound : s.Sound sp) (idle : s.bridge = .idle)
    (call : JoinCall) (rate : call.sendSampleRate = 16000 ∧ call.sendChannels = 1) :
    ({ s with session := s.session.join config call }.settleJoin s.session.tasks.length).Sound sp := by
  obtain ⟨core, phase⟩ := sound
  unfold Phase at phase
  simp only [idle] at phase
  obtain ⟨empty, pc⟩ := phase
  have joins : s.session.step config (.join call) = some (s.session.join config call) := rfl
  have fresh : s.session.Fresh (.join call) := by
    intro _ _
    rw [empty]
  have owned := WindowsSession.owned_step core.session fresh joins
  obtain ⟨heard, one, open_, away, sampleRate, channels, tasks⟩ :=
    WindowsSession.join_cases config call
  have length : s.session.tasks.length = 0 := by
    rw [empty]
    rfl
  rw [length]
  rw [empty] at owned ⊢
  have resting : s.push = none ∧ s.done = [] := by
    cases core.feeds with
    | rests push _ line =>
        refine ⟨push, line.symm.trans ?_⟩
        rw [given, empty]
        rfl
    | pushes n chunk resampled part frames push at_ => exact absurd (pc.symm.trans at_) nofun
    | ends why chunk part push at_ => exact absurd (pc.symm.trans at_) nofun
  have unrefused := core.unrefused fun why inHand ended => absurd (pc.symm.trans ended) nofun
  refine sound_settleJoin ⟨owned, one.le, ⟨sampleRate.trans rate.1, channels.trans rate.2⟩, ?_, ?_,
    core.fed, .rests resting.1 (.inl pc) ?_, core.cancelled, core.refused⟩ unrefused pc ?_
  · rw [heard]
    nofun
  · intro i a frames task
    rcases tasks with same | ⟨error, same, -⟩
    · rw [same] at task
      rcases i with - | i <;> cases task
    · rw [same] at task
      rcases i with - | i <;> cases task
  · rw [given, heard]
    exact resting.2.symm
  · rcases tasks with same | ⟨error, same, engine⟩
    · refine .inl ⟨?_, open_⟩
      rw [same]
      rfl
    · refine .inr (.inr ⟨.raised error, ?_, rfl, away, engine⟩)
      rw [same]
      rfl

theorem sound_joinResumes {i : Nat} {session : WindowsSession} (sound : s.Sound sp)
    (joining : s.bridge = .joining i) (ran : s.session.step config (.resumes i) = some session) :
    ({ s with session := session }.settleJoin i).Sound sp := by
  obtain ⟨core, phase⟩ := sound
  unfold Phase at phase
  simp only [joining] at phase
  obtain ⟨task, open_, pc⟩ := phase
  have fresh : s.session.Fresh (.resumes i) := trivial
  have owned := WindowsSession.owned_step core.session fresh ran
  have aside : WindowsSession.SessionAction.Aside (.resumes i) := trivial
  have unrefused := core.unrefused fun why inHand ended => absurd (pc.symm.trans ended) nofun
  have quiet := WindowsSession.quiet_step aside ran
  refine sound_settleJoin (core_quiet core owned quiet rfl rfl rfl) unrefused pc (.inr ?_)
  rcases WindowsSession.resumes_cases core.session.2 task ran with
    ⟨joined, up, same⟩ | ⟨error, failed, away, engine⟩
  · exact .inl ⟨joined, up, same.trans open_⟩
  · exact .inr ⟨_, failed, rfl, away, engine⟩

theorem sound_cancelJoin {i : Nat} {session : WindowsSession} (sound : s.Sound sp)
    (joining : s.bridge = .joining i) (ran : s.session.step config (.cancel i) = some session) :
    ({ s with session := session, bridge := .notJoined, cancelled := true } : AudioBridge).Sound
      sp := by
  obtain ⟨core, phase⟩ := sound
  unfold Phase at phase
  simp only [joining] at phase
  obtain ⟨task, -, pc⟩ := phase
  have fresh : s.session.Fresh (.cancel i) := trivial
  have owned := WindowsSession.owned_step core.session fresh ran
  have away := (core.session.2.waits i 0 task).1
  simp only [WindowsSession.step, task, Option.bind_some, WindowsSession.cancel,
    Option.some.injEq] at ran
  subst ran
  have quiet : WindowsSession.Quiet s.session
      ((s.session.giveUp 0).setTask i .cancelled) := by
    refine WindowsSession.quiet_giveUp.trans (WindowsSession.quiet_setTask .cancelled (by simp) ?_)
    intro a frames here
    cases task.symm.trans here
  exact ⟨core_quiet core owned quiet rfl rfl rfl, away, (fun isFalse => by cases isFalse), pc⟩

theorem sound_leave {rc : Int} (sound : s.Sound sp)
    (may : s.bridge = .idle ∨ s.bridge = .joined ∨ s.bridge = .notJoined)
    (ran : (if s.session.joined then
        some { s with
          up := { s.up with stopEvent := true }
          session := s.session.leave rc
          bridge := .leaving s.session.tasks.length }
      else some (({ s with up := { s.up with stopEvent := true } } : AudioBridge).finishLeave config
        sp false)) = some t) : t.Sound sp := by
  obtain ⟨core, phase⟩ := sound
  have stopped := core_stopped core
  unfold Phase at phase
  split at ran
  · rename_i joined
    obtain rfl := Option.some.inj ran
    have isJoined : s.session.closed = false := by
      rcases may with idle | joined' | notJoined
      · simp only [idle] at phase
        rw [phase.1] at joined
        cases joined
      · simp only [joined'] at phase
        exact phase.2
      · simp only [notJoined] at phase
        rw [phase.1] at joined
        cases joined
    have leaves : s.session.step config (.leave rc) = some (s.session.leave rc) := rfl
    have fresh : s.session.Fresh (.leave rc) := trivial
    have owned := WindowsSession.owned_step core.session fresh leaves
    obtain ⟨up, open_, task⟩ := WindowsSession.leave_waits core.session.2 joined isJoined rc
    exact ⟨core_quiet stopped owned WindowsSession.quiet_leave rfl rfl rfl, up, open_, task, rfl⟩
  · rename_i joined
    obtain rfl := Option.some.inj ran
    rcases may with idle | joined' | notJoined
    · simp only [idle] at phase
      refine sound_finishLeave config stopped rfl (fun _ => ?_) (fun _ => phase.2) false
      rw [show _ = ({} : WindowsSession) from phase.1]
    · simp only [joined'] at phase
      exact absurd phase.1 joined
    · simp only [notJoined] at phase
      exact sound_finishLeave config stopped rfl phase.2.1 (fun _ => phase.2.2) false

/-- **One step.** -/
theorem sound_step {action : BridgeAction} (sound : s.Sound sp)
    (ran : s.step config sp action = some t) : t.Sound sp := by
  cases action with
  | join call =>
      simp only [step, Option.ite_none_right_eq_some, Option.some.injEq] at ran
      obtain ⟨idle, rfl⟩ := ran
      exact sound_join config sound idle _ ⟨rfl, rfl⟩
  | callback a event =>
      obtain ⟨session, moved, rfl⟩ := Option.map_eq_some_iff.mp ran
      exact sound_idles (.callback a event) sound trivial trivial moved
        (WindowsSession.idles_callback moved)
        (sound.begun_of_callback moved (.inl ⟨a, event, rfl⟩))
  | runCallback =>
      obtain ⟨session, moved, rfl⟩ := Option.map_eq_some_iff.mp ran
      exact sound_idles .runCallback sound trivial trivial moved
        (WindowsSession.idles_runCallback moved)
        (sound.begun_of_callback moved (.inr rfl))
  | timeout =>
      simp only [step] at ran
      split at ran
      · rename_i i joining
        obtain ⟨session, moved, rfl⟩ := Option.map_eq_some_iff.mp ran
        exact sound_idles (.timeout i) sound trivial trivial moved
          (WindowsSession.idles_timeout moved)
          fun idle => absurd (joining.symm.trans idle) nofun
      · cases ran
  | joinResumes =>
      simp only [step] at ran
      split at ran
      · rename_i i joining
        obtain ⟨session, moved, rfl⟩ := Option.map_eq_some_iff.mp ran
        exact sound_joinResumes sound joining moved
      · cases ran
  | cancelJoin =>
      simp only [step] at ran
      split at ran
      · rename_i i joining
        obtain ⟨session, moved, rfl⟩ := Option.map_eq_some_iff.mp ran
        exact sound_cancelJoin sound joining moved
      · cases ran
  | read chunk =>
      obtain ⟨up, moved, rfl⟩ := Option.map_eq_some_iff.mp ran
      exact sound_aside sound (.inl ⟨chunk, .inl rfl⟩) moved
  | put chunk =>
      simp only [step] at ran
      obtain ⟨up, moved, rfl⟩ := Option.map_eq_some_iff.mp ran
      exact sound_aside sound (.inl ⟨chunk, .inr rfl⟩) moved
  | close =>
      simp only [step] at ran
      obtain ⟨up, moved, rfl⟩ := Option.map_eq_some_iff.mp ran
      exact sound_aside sound (.inr (.inl rfl)) moved
  | tapAi pcm =>
      simp only [step] at ran
      obtain ⟨up, moved, rfl⟩ := Option.map_eq_some_iff.mp ran
      exact sound_aside sound (.inr (.inr ⟨pcm, rfl⟩)) moved
  | turn timestampMs rc =>
      simp only [step, Option.ite_none_right_eq_some] at ran
      obtain ⟨loops, ran⟩ := ran
      obtain ⟨up, moved, rfl⟩ := Option.map_eq_some_iff.mp ran
      exact sound_beginPush config sound loops (.inl rfl) moved timestampMs rc
  | wake timestampMs rc =>
      simp only [step, Option.ite_none_right_eq_some] at ran
      obtain ⟨loops, ran⟩ := ran
      obtain ⟨up, moved, rfl⟩ := Option.map_eq_some_iff.mp ran
      exact sound_beginPush config sound loops (.inr rfl) moved timestampMs rc
  | pushResumes rc =>
      obtain ⟨n, push, ran⟩ := Option.bind_eq_some_iff.mp ran
      obtain ⟨session, moved, rfl⟩ := Option.map_eq_some_iff.mp ran
      exact sound_pushResumes sound push moved
  | leave rc =>
      simp only [step] at ran
      split at ran
      · rename_i idle
        exact sound_leave sound (.inl idle) ran
      · rename_i joined
        exact sound_leave sound (.inr (.inl joined)) ran
      · rename_i notJoined
        exact sound_leave sound (.inr (.inr notJoined)) ran
      · cases ran
  | sessionLeft passesOn =>
      simp only [step] at ran
      split at ran
      · rename_i i leaving
        obtain ⟨session, moved, rfl⟩ := Option.map_eq_some_iff.mp ran
        obtain ⟨core, phase⟩ := sound
        unfold Phase at phase
        simp only [leaving] at phase
        obtain ⟨-, -, task, stop⟩ := phase
        have aside : WindowsSession.SessionAction.Aside (.goesOn i) := trivial
        have fresh : s.session.Fresh (.goesOn i) := trivial
        have owned := WindowsSession.owned_step core.session fresh moved
        have left : ({ s with session := session } : AudioBridge).Core sp :=
          core_quiet core owned (WindowsSession.quiet_step aside moved) rfl rfl rfl
        refine sound_finishLeave config left stop (fun _ => (WindowsSession.left_cases task moved).2)
          (fun loops => ?_) passesOn
        simp [looping, leaving] at loops
      · cases ran

end AudioBridge

end IsalesTelephony.Audio
