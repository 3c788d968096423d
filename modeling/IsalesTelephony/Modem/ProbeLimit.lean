/-
# Modem.ProbeLimit -- how often a port is probed

`identify_modem_channel` of `modem_controller/at_probe.py` and its `RateLimitedProber`: any
number of calls for any nodes, between whose suspensions other calls run.  From the test of
the limit to the stamp and the opening of the port nothing suspends, so a call is one step up
to its first suspension.  A probe starts at its stamp.

The node's stamp is that of its last probe since it was forgotten, and no probe of it is
later (`Sound`).  So a probe that the limit allows comes late enough after all of them
(`probes_spaced`).
-/
import IsalesTelephony.Theory.Dict
import IsalesTelephony.Theory.History
import IsalesTelephony.Theory.Transition
import Mathlib.Algebra.Order.Ring.Rat

namespace IsalesTelephony.Modem

set_option autoImplicit false

open IsalesTelephony.Theory IsalesTelephony.Theory.Transition

/-- Readings of a clock.  Of two readings the later one is not the nearer to a third: so it
is with exact differences, and with rounded ones. -/
class Seconds (T : Type) extends LinearOrder T, Sub T where
  sub_le_sub : ∀ {a b : T}, a ≤ b → ∀ c, a - c ≤ b - c

instance : Seconds ℚ where
  sub_le_sub le c := sub_le_sub_right le c

/-- `skipped_reason`, or how the identity was read. -/
inductive IdentifyResult where
  | rateLimited
  | probeNoOk
  | initFailure
  | identity
  deriving DecidableEq, Repr

/-- Where a call of `identify_modem_channel` is suspended, or how it ended. -/
inductive IdentifyPc where
  | probeOpening
  | probeAwaiting
  | identityOpening
  | identityAwaiting
  | returned (result : IdentifyResult)
  /-- `CancelledError` -/
  | cancelled
  deriving DecidableEq, Repr

structure IdentifyCall where
  node : String
  pc : IdentifyPc
  deriving DecidableEq, Repr

/-- What the calls do to the ports, and `forget`. -/
inductive PortEntry (T : Type) where
  /-- `record`, and then the connector is called for the probe -/
  | probe (call : Nat) (node : String) (stamp : T)
  /-- the connector is called for the identity -/
  | identity (call : Nat) (node : String)
  /-- a command is written -/
  | send (call : Nat) (node : String)
  | forget (node : String)
  deriving DecidableEq, Repr

/-- The call whose entry it is. -/
def PortEntry.call {T : Type} : PortEntry T → Option Nat
  | .probe call _ _ | .identity call _ | .send call _ => some call
  | .forget _ => none

inductive IdentifyAction (T : Type) where
  /-- a call runs to its first suspension; what the clock says in `allow` and in `record` -/
  | call (node : String) (vendorId productId : Option String) (allowAt recordAt : T)
  /-- the connector yields the port, and the first command goes out -/
  | portOpens (call : Nat)
  /-- another command of the identity sequence goes out -/
  | sends (call : Nat)
  /-- OK, or anything else: another answer, a timeout, an exception -/
  | probeEnds (call : Nat) (ok : Bool)
  /-- the identity, or an exception -/
  | identityEnds (call : Nat) (ok : Bool)
  | cancel (call : Nat)
  | forget (node : String)
  deriving DecidableEq, Repr

/-- The prober's interval, and the whitelist of lowercase ids with `str.lower`. -/
structure ProbeConfig (T : Type) where
  interval : T
  whitelist : List (String × String)
  lower : String → String

structure Identifying (T : Type) where
  /-- no reading of the clock is earlier -/
  now : T
  /-- `_last_probed` -/
  lastProbed : List (String × T) := []
  calls : List IdentifyCall := []
  /-- oldest first -/
  log : List (PortEntry T) := []
  deriving DecidableEq, Repr

/-- `(vid, pid) in whitelist`; an id that is missing or empty is in no whitelist. -/
def ProbeConfig.inWhitelist {T : Type} (config : ProbeConfig T) (vendorId productId : Option String) :
    Bool :=
  match vendorId, productId with
  | some vendorId, some productId => vendorId ≠ "" && productId ≠ "" &&
      config.whitelist.contains (config.lower vendorId, config.lower productId)
  | _, _ => false

namespace Identifying

section
variable {T : Type} [Seconds T]

/-- `prober.allow`. -/
def allow (s : Identifying T) (config : ProbeConfig T) (node : String) (clock : T) : Bool :=
  match s.lastProbed.lookup node with
  | none => true
  | some last => decide (config.interval ≤ clock - last)

/-- The call goes on elsewhere. -/
def goto (s : Identifying T) (i : Nat) (call : IdentifyCall) (pc : IdentifyPc) : Identifying T :=
  { s with calls := s.calls.set i { call with pc := pc } }

def append (s : Identifying T) (entry : PortEntry T) : Identifying T := { s with log := s.log ++ [entry] }

/-- A call up to its first suspension. -/
def identify (s : Identifying T) (config : ProbeConfig T) (node : String)
    (vendorId productId : Option String) (allowAt recordAt : T) : Identifying T :=
  let i := s.calls.length
  let started (s : Identifying T) (pc : IdentifyPc) : Identifying T :=
    { s with calls := s.calls ++ [⟨node, pc⟩] }
  if config.inWhitelist vendorId productId then
    (started s .identityOpening).append (.identity i node)
  else if s.allow config node allowAt then
    (started { s with lastProbed := Dict.put s.lastProbed node recordAt } .probeOpening).append
      (.probe i node recordAt)
  else started s (.returned .rateLimited)

def step (config : ProbeConfig T) (s : Identifying T) : IdentifyAction T → Option (Identifying T)
  | .call node vendorId productId allowAt recordAt =>
      if s.now ≤ allowAt ∧ allowAt ≤ recordAt then
        some ({ s with now := recordAt }.identify config node vendorId productId allowAt recordAt)
      else none
  | .portOpens i => s.calls[i]?.bind fun call =>
      match call.pc with
      | .probeOpening => some ((s.goto i call .probeAwaiting).append (.send i call.node))
      | .identityOpening => some ((s.goto i call .identityAwaiting).append (.send i call.node))
      | _ => none
  | .sends i => s.calls[i]?.bind fun call =>
      if call.pc = .identityAwaiting then some (s.append (.send i call.node)) else none
  | .probeEnds i ok => s.calls[i]?.bind fun call =>
      match call.pc, ok with
      -- an OK needs a port
      | .probeOpening, true => none
      | .probeAwaiting, true => some ((s.goto i call .identityOpening).append (.identity i call.node))
      | .probeOpening, false | .probeAwaiting, false => some (s.goto i call (.returned .probeNoOk))
      | _, _ => none
  | .identityEnds i ok => s.calls[i]?.bind fun call =>
      match call.pc, ok with
      | .identityAwaiting, true => some (s.goto i call (.returned .identity))
      | .identityOpening, false | .identityAwaiting, false =>
          some (s.goto i call (.returned .initFailure))
      | _, _ => none
  | .cancel i => s.calls[i]?.bind fun call =>
      match call.pc with
      | .returned _ | .cancelled => none
      | _ => some (s.goto i call .cancelled)
  | .forget node =>
      some ({ s with lastProbed := Dict.erase s.lastProbed node }.append (.forget node))

/-! ## Steps -/

/-- What a step does: a call starts in one of three ways, a call goes on, or a node is
forgotten. -/
inductive Moves (config : ProbeConfig T) (s : Identifying T) : Identifying T → Prop where
  | listed {node : String} {clock : T} (later : s.now ≤ clock) :
      Moves config s { s with
        now := clock, calls := s.calls ++ [⟨node, .identityOpening⟩]
        log := s.log ++ [.identity s.calls.length node] }
  | probes {node : String} {allowAt recordAt : T} (later : s.now ≤ allowAt) (order : allowAt ≤ recordAt)
      (allowed : s.allow config node allowAt = true) :
      Moves config s {
        now := recordAt, lastProbed := Dict.put s.lastProbed node recordAt
        calls := s.calls ++ [⟨node, .probeOpening⟩]
        log := s.log ++ [.probe s.calls.length node recordAt] }
  | rejected {node : String} {clock : T} (later : s.now ≤ clock) :
      Moves config s { s with
        now := clock, calls := s.calls ++ [⟨node, .returned .rateLimited⟩] }
  | goes {i : Nat} {call : IdentifyCall} {pc : IdentifyPc} {entries : List (PortEntry T)}
      (at_ : s.calls[i]? = some call) (pending : call.pc ≠ .returned .rateLimited)
      (unrejected : pc ≠ .returned .rateLimited)
      (own : entries = [] ∨ entries = [.send i call.node] ∨ entries = [.identity i call.node]) :
      Moves config s { s with
        calls := s.calls.set i { call with pc := pc }, log := s.log ++ entries }
  | forgets (node : String) :
      Moves config s { s with
        lastProbed := Dict.erase s.lastProbed node, log := s.log ++ [.forget node] }

variable {config : ProbeConfig T} {s t : Identifying T} {action : IdentifyAction T}

theorem moves_goto {i : Nat} {call : IdentifyCall} {pc : IdentifyPc} (at_ : s.calls[i]? = some call)
    (pending : call.pc ≠ .returned .rateLimited) (unrejected : pc ≠ .returned .rateLimited) :
    Moves config s (s.goto i call pc) := by
  have moves : Moves config s { s with
      calls := s.calls.set i { call with pc := pc }, log := s.log ++ [] } :=
    .goes at_ pending unrejected (.inl rfl)
  rwa [List.append_nil] at moves

theorem moves_sends {i : Nat} {call : IdentifyCall} (at_ : s.calls[i]? = some call)
    (pending : call.pc ≠ .returned .rateLimited) :
    Moves config s (s.append (.send i call.node)) := by
  have moves : Moves config s { s with
      calls := s.calls.set i call, log := s.log ++ [.send i call.node] } :=
    .goes at_ pending pending (.inr (.inl rfl))
  obtain ⟨inside, rfl⟩ := List.getElem?_eq_some_iff.mp at_
  rwa [List.set_getElem_self] at moves

theorem step_cases (ran : step config s action = some t) : Moves config s t := by
  cases action with
  | call node vendorId productId allowAt recordAt =>
      simp only [step, Option.ite_none_right_eq_some, Option.some.injEq] at ran
      obtain ⟨⟨later, order⟩, rfl⟩ := ran
      unfold identify
      split
      · exact .listed (later.trans order)
      · split
        · rename_i allowed
          exact .probes later order allowed
        · exact .rejected (later.trans order)
  | portOpens i =>
      obtain ⟨call, at_, ran⟩ := Option.bind_eq_some_iff.mp ran
      split at ran
      · rename_i opening
        obtain rfl := Option.some.inj ran
        exact .goes at_ (by rw [opening]; nofun) nofun (.inr (.inl rfl))
      · rename_i opening
        obtain rfl := Option.some.inj ran
        exact .goes at_ (by rw [opening]; nofun) nofun (.inr (.inl rfl))
      · cases ran
  | sends i =>
      obtain ⟨call, at_, ran⟩ := Option.bind_eq_some_iff.mp ran
      split at ran
      · rename_i awaiting
        obtain rfl := Option.some.inj ran
        exact moves_sends at_ (by rw [awaiting]; nofun)
      · cases ran
  | probeEnds i ok =>
      obtain ⟨call, at_, ran⟩ := Option.bind_eq_some_iff.mp ran
      split at ran
      · cases ran
      · rename_i awaiting _
        obtain rfl := Option.some.inj ran
        exact .goes at_ (by rw [awaiting]; nofun) nofun (.inr (.inr rfl))
      · rename_i opening _
        obtain rfl := Option.some.inj ran
        exact moves_goto at_ (by rw [opening]; nofun) nofun
      · rename_i awaiting _
        obtain rfl := Option.some.inj ran
        exact moves_goto at_ (by rw [awaiting]; nofun) nofun
      · cases ran
  | identityEnds i ok =>
      obtain ⟨call, at_, ran⟩ := Option.bind_eq_some_iff.mp ran
      split at ran
      · rename_i awaiting _
        obtain rfl := Option.some.inj ran
        exact moves_goto at_ (by rw [awaiting]; nofun) nofun
      · rename_i opening _
        obtain rfl := Option.some.inj ran
        exact moves_goto at_ (by rw [opening]; nofun) nofun
      · rename_i awaiting _
        obtain rfl := Option.some.inj ran
        exact moves_goto at_ (by rw [awaiting]; nofun) nofun
      · cases ran
  | cancel i =>
      obtain ⟨call, at_, ran⟩ := Option.bind_eq_some_iff.mp ran
      split at ran
      · cases ran
      · cases ran
      · rename_i running _
        obtain rfl := Option.some.inj ran
        exact moves_goto at_ (running _) nofun
  | forget node =>
      obtain rfl := Option.some.inj ran
      exact .forgets node

/-! ## The limit -/

/-- A probe of the node has started then, and the node has not been forgotten since. -/
def Kept (log : List (PortEntry T)) (node : String) (stamp : T) : Prop :=
  ∃ call after, LastSince (· = .forget node) log (.probe call node stamp) after

/-- A probe starts at least the interval after every earlier probe of its node, unless the
node has been forgotten between. -/
def Spaced (config : ProbeConfig T) (log : List (PortEntry T)) : Prop :=
  ∀ before call node stamp after, log = before ++ .probe call node stamp :: after →
    ∀ earlier, Kept before node earlier → config.interval ≤ stamp - earlier

/-- The call is returned `rate_limited`. -/
def Rejected (s : Identifying T) (i : Nat) : Prop :=
  s.calls[i]?.map IdentifyCall.pc = some (.returned .rateLimited)

structure Sound (config : ProbeConfig T) (s : Identifying T) : Prop where
  /-- the node's stamp is that of its last probe, and the others are far enough before it -/
  stamped : ∀ node stamp, Kept s.log node stamp → ∃ last, s.lastProbed.lookup node = some last ∧
    (last = stamp ∨ config.interval ≤ last - stamp)
  recorded : ∀ node last, s.lastProbed.lookup node = some last → last ≤ s.now
  spaced : Spaced config s.log
  /-- entries are of calls that were not rejected -/
  owned : ∀ e ∈ s.log, ∀ i, e.call = some i → i < s.calls.length ∧ ¬s.Rejected i

section
variable {log entries : List (PortEntry T)} {e : PortEntry T} {node : String} {stamp : T}

omit [Seconds T] in
theorem kept_snoc : Kept (log ++ [e]) node stamp ↔
    (∃ call, e = .probe call node stamp) ∨ (e ≠ .forget node ∧ Kept log node stamp) := by
  constructor
  · rintro ⟨call, after, since⟩
    rcases lastSince_snoc.mp since with ⟨same, -⟩ | ⟨going, front, -, since⟩
    · exact .inl ⟨call, same⟩
    · exact .inr ⟨going, call, front, since⟩
  · rintro (⟨call, same⟩ | ⟨going, call, front, since⟩)
    · exact ⟨call, [], lastSince_snoc.mpr (.inl ⟨same, rfl⟩)⟩
    · exact ⟨call, _, lastSince_snoc.mpr (.inr ⟨going, front, rfl, since⟩)⟩

theorem spaced_snoc (spaced : Spaced config log)
    (late : ∀ call node stamp, e = .probe call node stamp →
      ∀ earlier, Kept log node earlier → config.interval ≤ stamp - earlier) :
    Spaced config (log ++ [e]) := by
  intro before call node stamp after split earlier kept
  rcases snoc_eq_split.mp split with ⟨rfl, same, -⟩ | ⟨front, -, rfl⟩
  · exact late call node stamp same earlier kept
  · exact spaced before call node stamp front rfl earlier kept

end

/-- Entries that are neither probes nor `forget` leave the stamps alone. -/
theorem Sound.aside (sound : s.Sound config) {calls : List IdentifyCall} {clock : T} {e : PortEntry T}
    (later : s.now ≤ clock) (unprobed : ∀ call node stamp, e ≠ .probe call node stamp)
    (owned : ∀ other ∈ s.log ++ [e], ∀ i, other.call = some i →
      i < calls.length ∧ calls[i]?.map IdentifyCall.pc ≠ some (.returned .rateLimited)) :
    Sound config { s with now := clock, calls := calls, log := s.log ++ [e] } where
  stamped node stamp kept := by
    rcases kept_snoc.mp kept with ⟨call, same⟩ | ⟨-, kept⟩
    · exact absurd same (unprobed call node stamp)
    · exact sound.stamped node stamp kept
  recorded node last found := (sound.recorded node last found).trans later
  spaced := spaced_snoc sound.spaced fun call node stamp same => absurd same (unprobed call node stamp)
  owned := owned

/-- A new call leaves the entries with their calls. -/
theorem Sound.owned_started (sound : s.Sound config) (call : IdentifyCall) :
    ∀ e ∈ s.log, ∀ i, e.call = some i →
      i < (s.calls ++ [call]).length ∧
        (s.calls ++ [call])[i]?.map IdentifyCall.pc ≠ some (.returned .rateLimited) := by
  intro e member i mine
  obtain ⟨inside, unrejected⟩ := sound.owned e member i mine
  rw [List.length_append, List.getElem?_append_left inside]
  exact ⟨by omega, unrejected⟩

/-- The entry of a new call is its own. -/
theorem Sound.owned_entered (sound : s.Sound config) {call : IdentifyCall} {e : PortEntry T}
    (pending : call.pc ≠ .returned .rateLimited) (own : e.call = some s.calls.length) :
    ∀ other ∈ s.log ++ [e], ∀ i, other.call = some i →
      i < (s.calls ++ [call]).length ∧
        (s.calls ++ [call])[i]?.map IdentifyCall.pc ≠ some (.returned .rateLimited) := by
  intro other member i mine
  rcases List.mem_append.mp member with member | member
  · exact sound.owned_started call other member i mine
  · obtain rfl := List.mem_singleton.mp member
    obtain rfl := Option.some.inj (own.symm.trans mine)
    simpa using pending

/-- A call that goes on is not rejected. -/
theorem not_rejected_set (i j : Nat) {call : IdentifyCall} {calls : List IdentifyCall}
    (inside : j < calls.length) (unrejected : calls[j]?.map IdentifyCall.pc ≠ some (.returned .rateLimited))
    (pending : call.pc ≠ .returned .rateLimited) :
    (calls.set i call)[j]?.map IdentifyCall.pc ≠ some (.returned .rateLimited) := by
  rw [List.getElem?_set]
  split
  · rename_i same
    subst same
    simpa [inside] using pending
  · exact unrejected

theorem sound_step (sound : s.Sound config) (ran : step config s action = some t) : t.Sound config := by
  cases step_cases ran with
  | listed later =>
      exact sound.aside later nofun (sound.owned_entered nofun rfl)
  | @probes node allowAt recordAt later order allowed =>
      have spaced : ∀ earlier, Kept s.log node earlier → config.interval ≤ recordAt - earlier := by
        intro earlier kept
        obtain ⟨last, found, far⟩ := sound.stamped node earlier kept
        rw [allow, found] at allowed
        rcases far with rfl | far
        · exact (of_decide_eq_true allowed).trans (Seconds.sub_le_sub order _)
        · exact far.trans (Seconds.sub_le_sub (((sound.recorded node last found).trans later).trans order) _)
      refine ⟨fun other stamp kept => ?_, fun other last found => ?_,
        spaced_snoc sound.spaced fun call other stamp same => ?_, sound.owned_entered nofun rfl⟩
      · rw [Dict.lookup_put]
        rcases kept_snoc.mp kept with ⟨call, same⟩ | ⟨-, earlier⟩
        · cases same
          exact ⟨recordAt, if_pos rfl, .inl rfl⟩
        · split
          · rename_i same
            subst same
            exact ⟨recordAt, rfl, .inr (spaced stamp earlier)⟩
          · exact sound.stamped other stamp earlier
      · rw [Dict.lookup_put] at found
        split at found
        · exact le_of_eq (Option.some.inj found).symm
        · exact ((sound.recorded other last found).trans later).trans order
      · cases same
        exact spaced
  | rejected later =>
      exact ⟨sound.stamped, fun node last found => (sound.recorded node last found).trans later,
        sound.spaced, sound.owned_started _⟩
  | @goes i call pc entries at_ pending unrejected own =>
      have kept : ∀ e ∈ s.log, ∀ j, e.call = some j →
          j < (s.calls.set i { call with pc := pc }).length ∧
            (s.calls.set i { call with pc := pc })[j]?.map IdentifyCall.pc ≠
              some (.returned .rateLimited) := by
        intro e member j mine
        obtain ⟨inside, before⟩ := sound.owned e member j mine
        rw [List.length_set]
        exact ⟨inside, not_rejected_set i j inside before unrejected⟩
      have mine : ∀ e : PortEntry T, e.call = some i → ∀ other ∈ s.log ++ [e], ∀ j,
          other.call = some j → j < (s.calls.set i { call with pc := pc }).length ∧
            (s.calls.set i { call with pc := pc })[j]?.map IdentifyCall.pc ≠
              some (.returned .rateLimited) := by
        intro e own other member j mine
        rcases List.mem_append.mp member with member | member
        · exact kept other member j mine
        · obtain rfl := List.mem_singleton.mp member
          obtain rfl := Option.some.inj (own.symm.trans mine)
          obtain ⟨inside, -⟩ := List.getElem?_eq_some_iff.mp at_
          rw [List.length_set]
          exact ⟨inside, not_rejected_set i i inside (by simpa [at_] using pending) unrejected⟩
      rcases own with rfl | rfl | rfl
      · rw [List.append_nil]
        exact ⟨sound.stamped, sound.recorded, sound.spaced, kept⟩
      · exact sound.aside le_rfl nofun (mine _ rfl)
      · exact sound.aside le_rfl nofun (mine _ rfl)
  | forgets node =>
      refine ⟨fun other stamp kept => ?_, fun other last found => ?_, spaced_snoc sound.spaced nofun,
        fun e member i mine => ?_⟩
      · rcases kept_snoc.mp kept with ⟨call, same⟩ | ⟨going, kept⟩
        · cases same
        · have ne : other ≠ node := by
            rintro rfl
            exact going rfl
          rw [Dict.lookup_erase_ne _ ne]
          exact sound.stamped other stamp kept
      · rw [Dict.lookup_erase] at found
        split at found
        · cases found
        · exact sound.recorded other last found
      · rcases List.mem_append.mp member with member | member
        · exact sound.owned e member i mine
        · obtain rfl := List.mem_singleton.mp member
          cases mine

theorem sound_of_reachable {start : T} (run : Reachable (step config) Free { now := start } s) :
    s.Sound config := by
  refine run.invariant (P := Sound config) ⟨?_, nofun, ?_, nofun⟩ fun _ _ _ sound _ ran =>
    sound_step sound ran
  · rintro node stamp ⟨call, after, since⟩
    exact absurd since not_lastSince_nil
  · intro before call node stamp after split
    exact absurd split.symm (List.append_ne_nil_of_right_ne_nil _ nofun)

/-- **Rate limit.**  However the calls interleave and whatever becomes of their probes, two
probes of a node that is not forgotten between start the interval apart, and a call that is
rejected does nothing to any port. -/
theorem probes_spaced {start : T} (run : Reachable (step config) Free { now := start } s) :
    (∀ before call node stamp between call' stamp' after,
      s.log = before ++ .probe call node stamp :: (between ++ .probe call' node stamp' :: after) →
      .forget node ∉ between → config.interval ≤ stamp' - stamp) ∧
    ∀ i, s.Rejected i → ∀ e ∈ s.log, e.call ≠ some i := by
  have sound := sound_of_reachable run
  constructor
  · intro before call node stamp between call' stamp' after split going
    refine sound.spaced (before ++ .probe call node stamp :: between) call' node stamp' after
      (by rw [split]; simp) stamp ⟨call, between, before, rfl, ?_⟩
    rintro e member rfl
    exact going member
  · intro i rejected e member mine
    exact (sound.owned e member i mine).2 rejected

/-! ## Poles -/

/-- A minute, and one vendor whose ports are not probed. -/
def minutely : ProbeConfig ℚ where
  interval := 60
  whitelist := [("12d1", "1506")]
  lower := String.toLower

/-- Two ports probed at once, one again while its first probe is under way and once more after
a minute; a port of the whitelist; a port that is forgotten. -/
def replugged : List (IdentifyAction ℚ) :=
  [.call "COM7" (some "dead") (some "beef") 0 0, .call "COM9" none none (1 / 2) (1 / 2),
    .portOpens 0, .call "COM7" (some "dead") (some "beef") 1 1, .probeEnds 0 false,
    .call "COM3" (some "12d1") (some "1506") 2 2, .cancel 1,
    .call "COM7" (some "dead") (some "beef") 60 61, .portOpens 4, .probeEnds 4 true, .forget "COM9",
    .call "COM9" none none 61 61]

theorem replugged_runs : (Transition.run (step minutely) { now := 0 } replugged).isSome = true := by
  decide +kernel

theorem replugged_spaced :
    let s := (Transition.run (step minutely) { now := 0 } replugged).get replugged_runs
    minutely.interval ≤ (61 : ℚ) - 0 ∧ s.Rejected 2 ∧ ∀ e ∈ s.log, e.call ≠ some 2 := by
  have spaced := probes_spaced (reachable_get replugged_runs)
  have rejected : ((Transition.run (step minutely) { now := 0 } replugged).get
      replugged_runs).Rejected 2 := by
    unfold Rejected
    decide +kernel
  refine ⟨?_, rejected, spaced.2 2 rejected⟩
  exact spaced.1 [] 0 "COM7" 0
    [.probe 1 "COM9" (1 / 2), .send 0 "COM7", .identity 3 "COM3"] 4 61
    [.send 4 "COM7", .identity 4 "COM7", .forget "COM9", .probe 5 "COM9" 61] (by decide +kernel)
    (by decide)

end

end Identifying

end IsalesTelephony.Modem
