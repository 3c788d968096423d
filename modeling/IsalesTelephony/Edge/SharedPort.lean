/-
# Edge.SharedPort -- what the pumps of the calls hear and say on the one handle

The handle is opened once and is open until the capture closes it.  Each pump runs as
`run_duplex_pump` does, captures what its reads gave but for the chunk of a read that it was
cancelled in, and ends with the stream when fifty reads in a row gave nothing (`port_conveys`).

A pump is started when those before it are over.  Then of two operations under way one is of a
cancelled pump, which takes one chunk at most from the calls that follow (`later_calls_hear`).
That it does is `stray_read_steals`.
-/
import IsalesTelephony.Edge.PortTurns

namespace IsalesTelephony.Edge

set_option autoImplicit false

open IsalesTelephony.Audio
open IsalesTelephony.Theory
open IsalesTelephony.Theory.Transition

/-- What holds of a pump, with what its reads gave and what it had the driver write. -/
structure PortPump.Sound (cfg : PortConfig) (heard spoken : List Pcm) (x : PortPump) : Prop where
  stage : Standing heard spoken x
  runs : Reachable DuplexPump.step Free
    (DuplexPump.started cfg.ringCapacity cfg.ringCapacity cfg.positive cfg.positive) x.pump
  small : ∀ chunk ∈ heard, chunk.length ≤ cfg.chunkBytes

theorem PortPump.Sound.turn {cfg : PortConfig} {heard spoken new said : List Pcm} {x y : PortPump}
    (sound : x.Sound cfg heard spoken) (turn : Turn cfg heard spoken x y new said) :
    y.Sound cfg (heard ++ new) (spoken ++ said) :=
  ⟨turn.stage, sound.runs.trans turn.runs, fun chunk member =>
    (List.mem_append.mp member).elim (sound.small chunk) (turn.small chunk)⟩

namespace AudioPort

open PortPump

variable {cfg : PortConfig} {path : String} {s t : AudioPort} {action : PortAction}

/-- What holds in every state. -/
structure Sound (cfg : PortConfig) (path : String) (s : AudioPort) : Prop where
  shared : s.Shared path
  heard : ∀ entry ∈ s.heard, entry.1 < s.pumps.length
  spoken : ∀ entry ∈ s.spoken, entry.1 < s.pumps.length
  pumps : ∀ (i : Nat) (x : PortPump), s.pumps[i]? = some x →
    x.Sound cfg (ofPump s.heard i) (ofPump s.spoken i)

theorem sound_build {opens : Bool} (built : build path opens = some s) : s.Sound cfg path := by
  obtain ⟨-, shared, pumps, heard, spoken⟩ := shared_build built
  refine ⟨shared, ?_, ?_, ?_⟩
  · rw [heard]
    exact nofun
  · rw [spoken]
    exact nofun
  · intro i x here
    rw [pumps] at here
    cases here

theorem change_of_sound (sound : s.Sound cfg path) (ran : s.step cfg action = some t) :
    Change cfg s action t :=
  step_cases sound.shared (fun i x here => (sound.pumps i x here).stage) ran

/-- The entries of a log after a step of a pump are of the pumps there are. -/
theorem entries_turn {n i : Nat} {log : List (Nat × Pcm)} {new : List Pcm}
    (before : ∀ entry ∈ log, entry.1 < n) (known : i < n) :
    ∀ entry ∈ log ++ new.map (fun pcm => (i, pcm)), entry.1 < n := by
  intro entry member
  rcases List.mem_append.mp member with old | fresh
  · exact before entry old
  · obtain ⟨pcm, -, rfl⟩ := List.mem_map.mp fresh
    exact known

/-- **One step.** -/
theorem sound_step (sound : s.Sound cfg path) (ran : s.step cfg action = some t) :
    t.Sound cfg path := by
  have longer : ∀ {log : List (Nat × Pcm)}, (∀ entry ∈ log, entry.1 < s.pumps.length) →
      ∀ entry ∈ log, entry.1 < (s.pumps ++ [({
        pump := DuplexPump.started cfg.ringCapacity cfg.ringCapacity cfg.positive cfg.positive
        since := s.heard.length } : PortPump)]).length := by
    intro log before entry member
    have := before entry member
    simp only [List.length_append, List.length_singleton]
    omega
  cases change_of_sound sound ran with
  | creates =>
      obtain ⟨⟨handles, opened, owner, capture, playback⟩, heard, spoken, pumps⟩ := sound
      refine ⟨⟨handles, opened, owner, capture, playback⟩, longer heard, longer spoken, ?_⟩
      intro j x here
      rcases Nat.lt_trichotomy j s.pumps.length with old | last | beyond
      · rw [List.getElem?_append_left old] at here
        exact pumps j x here
      · subst last
        rw [List.getElem?_concat_length] at here
        obtain rfl := Option.some.inj here
        have noHeard : ofPump s.heard s.pumps.length = [] :=
          ofPump_none fun entry member => Nat.ne_of_lt (heard entry member)
        have noSpoken : ofPump s.spoken s.pumps.length = [] :=
          ofPump_none fun entry member => Nat.ne_of_lt (spoken entry member)
        show PortPump.Sound cfg (ofPump s.heard s.pumps.length) (ofPump s.spoken s.pumps.length) _
        rw [noHeard, noSpoken]
        exact ⟨.rests ⟨rfl, rfl, rfl, rfl⟩, Reachable.refl _, nofun⟩
      · rw [List.getElem?_eq_none (by simp; omega)] at here
        cases here
  | @turns action i x y new said here turn =>
      have known : i < s.pumps.length := (List.getElem?_eq_some_iff.mp here).1
      obtain ⟨⟨handles, opened, owner, capture, playback⟩, heard, spoken, pumps⟩ := sound
      refine ⟨⟨handles, opened, owner, capture, playback⟩, ?_, ?_, fun j z there => ?_⟩
      · show ∀ entry ∈ s.heard ++ _, entry.1 < (s.pumps.set i y).length
        rw [List.length_set]
        exact entries_turn heard known
      · show ∀ entry ∈ s.spoken ++ _, entry.1 < (s.pumps.set i y).length
        rw [List.length_set]
        exact entries_turn spoken known
      · show z.Sound cfg (ofPump (s.heard ++ _) j) (ofPump (s.spoken ++ _) j)
        have there : (s.pumps.set i y)[j]? = some z := there
        rw [ofPump_append, ofPump_append]
        by_cases same : i = j
        · subst same
          rw [List.getElem?_set_self known] at there
          obtain rfl := Option.some.inj there
          rw [ofPump_own, ofPump_own]
          exact (pumps i x here).turn turn
        · rw [List.getElem?_set_ne same] at there
          rw [ofPump_other same, ofPump_other same, List.append_nil, List.append_nil]
          exact pumps j z there
  | closesCapture =>
      exact ⟨shared_closeCapture sound.shared, sound.heard, sound.spoken, sound.pumps⟩
  | closesPlayback =>
      exact ⟨shared_closePlayback sound.shared, sound.heard, sound.spoken, sound.pumps⟩

theorem sound_of_reachable {ok : AudioPort → PortAction → Prop} {first : AudioPort} {opens : Bool}
    (built : build path opens = some first) (run : Reachable (step cfg) ok first s) :
    s.Sound cfg path :=
  run.invariant (sound_build built) fun _ _ _ sound _ ran => sound_step sound ran

/-! ## What is conveyed -/

/-- What is conveyed for pump `i`. -/
structure Conveys (cfg : PortConfig) (s : AudioPort) (i : Nat) (x : PortPump) : Prop where
  /-- it runs as `run_duplex_pump` does -/
  runs : Reachable DuplexPump.step Free
    (DuplexPump.started cfg.ringCapacity cfg.ringCapacity cfg.positive cfg.positive) x.pump
  /-- it captures what its reads gave, but for what it has in hand -/
  heard : ∃ back, ofPump s.heard i = back ++ x.hand ∧ x.pump.captured = gave back
  /-- which is lost only if it is cancelled -/
  kept : ∀ why, x.pump.pc = .ended why → x.hand ≠ [] → why = .cancelled
  small : ∀ chunk ∈ ofPump s.heard i, chunk.length ≤ cfg.chunkBytes
  /-- the stream ends with fifty reads of nothing -/
  eof : x.pump.pc = .ended .eof →
    ∃ front, ofPump s.heard i = front ++ List.replicate maxEmpty []
  /-- the driver is given the frames in order, each once, but for the last -/
  spoken : ∃ rest, ofPump s.spoken i ++ rest = x.pump.written.map Frame.bytes ∧ rest.length ≤ 1 ∧
    (x.pump.pc = .reading → rest = [])

theorem conveys_of_sound {i : Nat} {x : PortPump}
    (sound : x.Sound cfg (ofPump s.heard i) (ofPump s.spoken i)) : s.Conveys cfg i x := by
  obtain ⟨stage, runs, small⟩ := sound
  cases stage with
  | rests rests =>
      obtain ⟨reading, call, captured, said⟩ := rests
      have hand : x.hand = [] := by simp [PortPump.hand, call]
      refine ⟨runs, ⟨_, by rw [hand, List.append_nil], captured⟩, fun _ _ some_ => absurd hand some_,
        small, ?_, [], (List.append_nil _).trans said, Nat.zero_le 1, fun _ => rfl⟩
      intro ended
      cases reading.symm.trans ended
  | reads front handle phase reading call few all captured said =>
      refine ⟨runs, ⟨_, all, ?_⟩, ?_, small, ?_, [], (List.append_nil _).trans said, Nat.zero_le 1,
        fun _ => rfl⟩
      · rw [gave_append, gave_empties, List.append_nil]
        exact captured
      · intro why ended
        cases reading.symm.trans ended
      · intro ended
        cases reading.symm.trans ended
  | writes handle phase rest writing call captured said withheld =>
      have hand : x.hand = [] := by simp [PortPump.hand, call]
      refine ⟨runs, ⟨_, by rw [hand, List.append_nil], captured⟩, fun _ _ some_ => absurd hand some_,
        small, ?_, rest, said, withheld.short, ?_⟩
      · intro ended
        cases writing.symm.trans ended
      · intro ended
        cases writing.symm.trans ended
  | finished why rest ended call captured said short eof =>
      have hand : x.hand = [] := by simp [PortPump.hand, call]
      refine ⟨runs, ⟨_, by rw [hand, List.append_nil], captured⟩, fun _ _ some_ => absurd hand some_,
        small, fun isEof => eof ?_, rest, said, short, ?_⟩
      · exact DuplexPc.ended.inj (ended.symm.trans isEof)
      · intro reading
        cases ended.symm.trans reading
  | strays stray back rest ended call started all captured said short =>
      refine ⟨runs, ⟨back, all, captured⟩, fun why isWhy _ => ?_, small, ?_, rest, said, short, ?_⟩
      · exact (DuplexPc.ended.inj (ended.symm.trans isWhy)).symm
      · intro reading
        cases ended.symm.trans reading
      · intro reading
        cases ended.symm.trans reading

/-- **The audio port.**  From the start of the process, in every run of the calls' pumps, the
worker threads, the driver and the cancellations: one handle is opened, by the capture, which
alone closes it; each pump runs as `run_duplex_pump` does, captures what its reads gave, but
for the chunk of a read that it was cancelled in, and has the driver write its frames in order,
each once, but for the last. -/
theorem port_conveys (cfg : PortConfig) (path : String) (opens : Bool) (first s : AudioPort)
    (built : build path opens = some first) (run : Reachable (step cfg) Free first s) :
    s.Shared path ∧ ∀ i x, s.pumps[i]? = some x → s.Conveys cfg i x :=
  have sound := sound_of_reachable built run
  ⟨sound.shared, fun i x here => conveys_of_sound (sound.pumps i x here)⟩

/-! ## One call after the other -/

/-- A call's pump is started when those of the calls before it are over (`Edge.AudioOwnership`). -/
def InTurn (s : AudioPort) : PortAction → Prop
  | .create => ∀ x ∈ s.pumps, x.pump.Live = false
  | _ => True

instance (s : AudioPort) (action : PortAction) : Decidable (s.InTurn action) := by
  unfold InTurn
  split <;> infer_instance

/-- What pump `i` still has to take, or took, since as many reads as `since` had come back. -/
def strays (s : AudioPort) (i : Nat) (x : PortPump) (since : Nat) : Nat :=
  (ofPump (s.heard.drop since) i).length + if x.Running then 1 else 0

/-- What a pump leaves to those that follow it. -/
structure Apart (s : AudioPort) : Prop where
  since : ∀ y ∈ s.pumps, y.since ≤ s.heard.length
  /-- it is over -/
  finished : ∀ (i j : Nat) (x : PortPump), i < j → j < s.pumps.length → s.pumps[i]? = some x →
    x.pump.Live = false
  one : ∀ (i j : Nat) (x y : PortPump), i < j → s.pumps[i]? = some x → s.pumps[j]? = some y →
    s.strays i x y.since ≤ 1
  /-- a chunk that it took later was read by a thread that outlived it -/
  cancelled : ∀ (i j : Nat) (x y : PortPump), i < j → s.pumps[i]? = some x →
    s.pumps[j]? = some y → ofPump (s.heard.drop y.since) i ≠ [] → x.pump.pc = .ended .cancelled

/-- A pump that is over and has a thread in a call was cancelled. -/
theorem cancelled_of_running {heard spoken : List Pcm} {x : PortPump}
    (stage : Standing heard spoken x) (running : x.Running = true) (finished : x.pump.Live = false) :
    x.pump.pc = .ended .cancelled := by
  obtain ⟨why, isOver⟩ := DuplexPump.ended_of_not_live finished
  have called : x.call ≠ none := by
    intro none_
    simp [Running, none_] at running
  cases stage with
  | rests rests => exact absurd rests.call called
  | reads _ _ _ reading => cases reading.symm.trans isOver
  | writes _ _ _ writing => cases writing.symm.trans isOver
  | finished _ _ _ call => exact absurd call called
  | strays _ _ _ ended => exact ended

/-- The log of pump `i` from `since` on after a step of pump `j`. -/
theorem later_turn {j i since : Nat} {y : PortPump} {new said : List Pcm}
    (before : since ≤ s.heard.length) :
    ofPump ((s.turn j y new said).heard.drop since) i =
      ofPump (s.heard.drop since) i ++ if j = i then new else [] := by
  show ofPump ((s.heard ++ new.map fun pcm => (j, pcm)).drop since) i = _
  rw [List.drop_append_of_le_length before, ofPump_append]
  split
  · rename_i same
    rw [same, ofPump_own]
  · rename_i other
    rw [ofPump_other other]

theorem apart_create {x : PortPump} (apart : s.Apart) (finished : ∀ x ∈ s.pumps, x.pump.Live = false)
    (since : x.since = s.heard.length) :
    Apart { s with pumps := s.pumps ++ [x] } := by
  have earlier : ∀ {i j : Nat} {z : PortPump}, i < j → j < (s.pumps ++ [x]).length →
      (s.pumps ++ [x])[i]? = some z → s.pumps[i]? = some z := by
    intro i j z before known there
    rw [List.length_append, List.length_singleton] at known
    rwa [List.getElem?_append_left (by omega)] at there
  have fresh : ∀ i, ofPump (s.heard.drop s.heard.length) i = [] := by simp [ofPump]
  have split : ∀ {j : Nat} {y : PortPump}, (s.pumps ++ [x])[j]? = some y →
      s.pumps[j]? = some y ∨ y = x := by
    intro j y there
    rcases Nat.lt_or_ge j s.pumps.length with old | new
    · rw [List.getElem?_append_left old] at there
      exact .inl there
    · rw [List.getElem?_append_right new] at there
      exact .inr (List.mem_singleton.mp (List.mem_of_getElem? there))
  refine ⟨?_, ?_, ?_, ?_⟩
  · intro y member
    rcases List.mem_append.mp member with old | new
    · exact apart.since y old
    · exact (congrArg PortPump.since (List.mem_singleton.mp new)).trans since |>.le
  · intro i j z before known there
    exact finished z (List.mem_of_getElem? (earlier before known there))
  · intro i j z y before here there
    have here := earlier before (List.getElem?_eq_some_iff.mp there).1 here
    rcases split there with old | rfl
    · exact apart.one i j z y before here old
    · show (ofPump (s.heard.drop y.since) i).length + _ ≤ 1
      rw [since, fresh]
      split <;> simp
  · intro i j z y before here there some_
    have here := earlier before (List.getElem?_eq_some_iff.mp there).1 here
    rcases split there with old | rfl
    · exact apart.cancelled i j z y before here old some_
    · rw [since] at some_
      exact absurd (fresh i) some_

/-- **One step.** -/
theorem apart_step (sound : s.Sound cfg path) (apart : s.Apart) (turn : s.InTurn action)
    (ran : s.step cfg action = some t) : t.Apart := by
  cases change_of_sound sound ran with
  | creates => exact apart_create apart turn rfl
  | closesCapture => exact ⟨apart.since, apart.finished, apart.one, apart.cancelled⟩
  | closesPlayback => exact ⟨apart.since, apart.finished, apart.one, apart.cancelled⟩
  | @turns action k x y new said here turn =>
      have known : k < s.pumps.length := (List.getElem?_eq_some_iff.mp here).1
      have stage := (sound.pumps k x here).stage
      -- a pump of the new state is one of the old, gone on if it is `k`
      have back : ∀ {i : Nat} {z : PortPump}, (s.pumps.set k y)[i]? = some z →
          ∃ w, s.pumps[i]? = some w ∧ z.since = w.since ∧
            (k = i ∧ w = x ∧ z = y ∨ k ≠ i ∧ w = z) := by
        intro i z there
        by_cases same : k = i
        · subst same
          rw [List.getElem?_set_self known] at there
          obtain rfl := Option.some.inj there
          exact ⟨x, here, turn.since, .inl ⟨rfl, rfl, rfl⟩⟩
        · rw [List.getElem?_set_ne same] at there
          exact ⟨z, there, rfl, .inr ⟨same, rfl⟩⟩
      refine ⟨fun z member => ?_, fun i j z before beyond there => ?_,
        fun i j z w before here' there => ?_, fun i j z w before here' there some_ => ?_⟩
      · obtain ⟨i, isAt⟩ := List.mem_iff_getElem?.mp member
        obtain ⟨w, was, since, -⟩ := back isAt
        rw [since]
        show w.since ≤ (s.heard ++ _).length
        rw [List.length_append]
        exact (apart.since w (List.mem_of_getElem? was)).trans (Nat.le_add_right _ _)
      · have within : j < s.pumps.length := lt_of_lt_of_eq beyond List.length_set
        obtain ⟨w, was, -, ⟨rfl, rfl, rfl⟩ | ⟨-, rfl⟩⟩ := back there
        · obtain ⟨why, ended⟩ := DuplexPump.ended_of_not_live (apart.finished _ j w before within was)
          exact DuplexPump.not_live (turn.finished why ended)
        · exact apart.finished i j w before within was
      · obtain ⟨w', was', since', -⟩ := back there
        have bound := apart.since w' (List.mem_of_getElem? was')
        obtain ⟨z', was, -, ⟨rfl, rfl, rfl⟩ | ⟨other, rfl⟩⟩ := back here'
        · have one := apart.one _ j z' w' before was was'
          have finished := apart.finished _ j z' before (List.getElem?_eq_some_iff.mp was').1 was
          unfold strays at one ⊢
          rw [since', later_turn bound, if_pos rfl, List.length_append]
          have running : z.Running = true → z'.Running = true := by
            intro running
            rcases turn.running running with before | live
            · exact before
            · rw [finished] at live
              cases live
          rcases turn.comes with rfl | ⟨ran, idle, single⟩
          · by_cases still : z.Running = true
            · rw [if_pos (running still)] at one
              rw [if_pos still]
              exact one
            · rw [if_neg still]
              exact (Nat.le_add_right _ _).trans one
          · rw [if_pos ran] at one
            rw [idle, single]
            simpa using one
        · have one := apart.one i j z' w' before was was'
          unfold strays at one ⊢
          rw [since', later_turn bound, if_neg other, List.append_nil]
          exact one
      · obtain ⟨w', was', since', -⟩ := back there
        have bound := apart.since w' (List.mem_of_getElem? was')
        rw [since', later_turn bound] at some_
        obtain ⟨z', was, -, ⟨rfl, rfl, rfl⟩ | ⟨other, rfl⟩⟩ := back here'
        · rw [if_pos rfl] at some_
          have finished := apart.finished _ j z' before (List.getElem?_eq_some_iff.mp was').1 was
          rcases turn.comes with rfl | ⟨ran, -⟩
          · rw [List.append_nil] at some_
            exact turn.finished _ (apart.cancelled _ j z' w' before was was' some_)
          · exact turn.finished _ (cancelled_of_running stage ran finished)
        · rw [if_neg other, List.append_nil] at some_
          exact apart.cancelled i j z' w' before was was' some_

theorem apart_of_reachable {first : AudioPort} {opens : Bool} (built : build path opens = some first)
    (run : Reachable (step cfg) InTurn first s) : s.Sound cfg path ∧ s.Apart := by
  have none_ : first.pumps = [] := (shared_build built).2.2.1
  have apart : first.Apart := by
    refine ⟨?_, ?_, ?_, ?_⟩
    all_goals
      rw [none_]
      intros
      contradiction
  refine run.invariant (P := fun s => s.Sound cfg path ∧ s.Apart) ⟨sound_build built, apart⟩ ?_
  rintro s action t ⟨sound, apart⟩ turn ran
  exact ⟨sound_step sound ran, apart_step sound apart turn ran⟩

/-- What calls one after the other have of each other. -/
structure OneByOne (s : AudioPort) : Prop where
  alive : ∀ (i j : Nat) (x y : PortPump), s.pumps[i]? = some x → s.pumps[j]? = some y →
    x.pump.Live = true → y.pump.Live = true → i = j
  /-- of two operations under way one has outlived its pump -/
  collide : ∀ (i j : Nat) (x y : PortPump), i < j → s.pumps[i]? = some x → s.pumps[j]? = some y →
    x.Running = true → y.Running = true → x.pump.pc = .ended .cancelled
  /-- from the start of a call on, a call before it takes one chunk at most, if cancelled -/
  stolen : ∀ (i j : Nat) (x y : PortPump), i < j → s.pumps[i]? = some x → s.pumps[j]? = some y →
    (ofPump (s.heard.drop y.since) i).length ≤ 1 ∧
      (ofPump (s.heard.drop y.since) i ≠ [] → x.pump.pc = .ended .cancelled)

/-- **One operation at a time**, but for the threads that outlive their pumps.  In every run in
which a call's pump is started when those before it are over: one pump at most is alive, of two
operations under way on the handle one is of a cancelled pump, and of what the port gives from
the start of a call on each call before it takes one chunk at most. -/
theorem later_calls_hear (cfg : PortConfig) (path : String) (opens : Bool) (first s : AudioPort)
    (built : build path opens = some first) (run : Reachable (step cfg) InTurn first s) :
    s.OneByOne := by
  obtain ⟨sound, apart⟩ := apart_of_reachable built run
  have known : ∀ {j : Nat} {y : PortPump}, s.pumps[j]? = some y → j < s.pumps.length :=
    fun there => (List.getElem?_eq_some_iff.mp there).1
  constructor
  case alive =>
    intro i j x y here there live live'
    rcases Nat.lt_trichotomy i j with before | same | after
    · rw [apart.finished i j x before (known there) here] at live
      cases live
    · exact same
    · rw [apart.finished j i y after (known here) there] at live'
      cases live'
  case collide =>
    intro i j x y before here there running _
    exact cancelled_of_running (sound.pumps i x here).stage running
      (apart.finished i j x before (known there) here)
  case stolen =>
    intro i j x y before here there
    exact ⟨(Nat.le_add_right _ _).trans (apart.one i j x y before here there),
      apart.cancelled i j x y before here there⟩

/-! ## Poles -/

/-- The port when the process has started. -/
def started : AudioPort := Option.get (build "COM11" true) rfl

/-- A call is cancelled while it reads, and the next one has read a chunk and writes. -/
def strayRead : List PortAction :=
  [.create, .begin 0 true, .takeUp 0, .comeBack 0 (.data [1, 2]), .resume 0 true, .takeUp 0,
    .comeBack 0 .wrote, .resume 0 true, .takeUp 0, .cancel 0, .create, .begin 1 true, .takeUp 1,
    .comeBack 1 (.data [3, 4]), .resume 1 true, .takeUp 1]

theorem strayRead_runs : (guardedRun (step {}) InTurn started strayRead).isSome = true := by
  decide +kernel

theorem strayRead_conveys :
    (Option.get _ strayRead_runs).Shared "COM11" ∧
      ∀ i x, (Option.get _ strayRead_runs).pumps[i]? = some x →
        (Option.get _ strayRead_runs).Conveys {} i x :=
  port_conveys {} "COM11" true started _ rfl (reachable_guarded_get strayRead_runs).free

theorem strayRead_oneByOne : (Option.get _ strayRead_runs).OneByOne :=
  later_calls_hear {} "COM11" true started _ rfl (reachable_guarded_get strayRead_runs)

/-- **A read and a write at once**: the read of the call before, and the write of this one. -/
theorem stray_read_collides : ∃ s, Reachable (step {}) InTurn started s ∧
    s.pumps.map (·.call) = [some { op := .read, handle := 0, phase := .running },
      some { op := .write (List.replicate 320 0), handle := 0, phase := .running }] :=
  ⟨_, reachable_guarded_get strayRead_runs, by decide +kernel⟩

/-- The read that is left comes back. -/
theorem stolenRead_runs : (guardedRun (step {}) InTurn started
    (strayRead ++ [.comeBack 0 (.data [5, 6])])).isSome = true := by decide +kernel

/-- **A chunk lost** to the read that outlived its call. -/
theorem stray_read_steals : ∃ s, Reachable (step {}) InTurn started s ∧
    s.heard = [(0, [1, 2]), (1, [3, 4]), (0, [5, 6])] ∧
      s.pumps.map (·.pump.captured) = [[[1, 2]], [[3, 4]]] :=
  ⟨_, reachable_guarded_get stolenRead_runs, by decide +kernel, by decide +kernel⟩

end AudioPort

end IsalesTelephony.Edge
