/-
# Ui.LogFanOut -- the bus, its subscribers and the log handler that publishes

`_RingBufferLogHandler` sits on the root logger and puts each record into the status with
`bus.update`; `set` and `update` call the subscribers one after the other and log a
subscriber that raises.  So a delivery can log, a record is published, and publishing
delivers again, in the thread and on the stack of the first call.

The state is that stack, innermost frame first.  A subscriber is what it may do when it is
called (`Reaction`); which of it it does, the action says.  The stack has no limit here:
an interpreter that sets one cuts a fan-out that does not end by a `RecursionError`, which
an `except Exception` further down the stack catches, and logs, and so fans out again.

The deliveries end, whatever the subscribers choose to do, if and only if none of them can
bring about a record that is published (`fan_out_ends_iff`).
-/
import IsalesTelephony.Ui.StateBus
import IsalesTelephony.Theory.SeqLog
import Mathlib.Logic.Function.Iterate

namespace IsalesTelephony.Ui

set_option autoImplicit false

open IsalesTelephony.Theory
open IsalesTelephony.Theory.Transition

/-! ## Records and subscribers -/

/-- A record a logger was called with. -/
structure LogRecord where
  level : Nat
  /-- what `format` makes of it; `none` when that raises -/
  line : Option String
  deriving DecidableEq, Repr

/-- `logging.ERROR`. -/
def errorLevel : Nat := 40

/-- `RECENT_LOG_LINES_MAX`. -/
def recentLogLinesMax : Nat := 10

/-- What a subscriber does when it is called: the records it logs, and, if it raises, the
line of the record `state_bus: subscriber raised`. -/
structure Reaction where
  logs : List LogRecord := []
  raised : Option String := none
  deriving DecidableEq, Repr

/-- A subscriber, by what it may do; it may do something. -/
structure Subscriber where
  allows : Reaction → Bool
  able : ∃ reaction, allows reaction = true

/-- A subscriber that only does this. -/
def Subscriber.only (reaction : Reaction) : Subscriber where
  allows := fun other => other = reaction
  able := ⟨reaction, by simp⟩

/-- The level of the root logger, and the subscribers of the bus. -/
structure Logging where
  rootLevel : Nat := 20
  subscribers : List Subscriber

/-- The record reaches the handler, which publishes its line. -/
def Logging.publishes (cfg : Logging) (record : LogRecord) : Bool :=
  cfg.rootLevel ≤ record.level && record.line.isSome

/-- `logger.exception("state_bus: subscriber raised")`. -/
def raisedRecord (line : String) : LogRecord := ⟨errorLevel, some line⟩

/-- The records a reaction brings about. -/
def Reaction.records (reaction : Reaction) : List LogRecord :=
  reaction.logs ++ (reaction.raised.map raisedRecord).toList

/-- No record of the reaction is published. -/
def Reaction.Silent (cfg : Logging) (reaction : Reaction) : Prop :=
  ∀ record ∈ reaction.records, cfg.publishes record = false

/-- Whatever the subscribers do, they bring about no record that is published. -/
def Logging.Quiet (cfg : Logging) : Prop :=
  ∀ subscriber ∈ cfg.subscribers, ∀ reaction, subscriber.allows reaction = true →
    reaction.Silent cfg

/-- `TrayIconController._on_status`: each of its two setters logs when it fails. -/
def trayReaction (iconFails titleFails : Option String) : Reaction where
  logs := (iconFails.map raisedRecord).toList ++ (titleFails.map raisedRecord).toList

/-! ## The stack -/

inductive Frame where
  /-- `for sub in subs` of `set` or `update` -/
  | fan (snapshot : EdgeStatus) (remaining : List Subscriber)
  /-- a subscriber that has still to log, and then returns or raises -/
  | subscriber (logs : List LogRecord) (raised : Option String)

structure FanOut where
  status : EdgeStatus := {}
  stack : List Frame := []
  /-- history: how many times a subscriber was called -/
  deliveries : Nat := 0

/-- What starts a fan-out. -/
inductive Trigger where
  | set (status : EdgeStatus)
  | update (changes : Changes)
  /-- a record is logged -/
  | log (record : LogRecord)

/-- The trigger publishes: `set` and `update` do, a record that is logged may. -/
def Trigger.Publishes (cfg : Logging) : Trigger → Prop
  | .set _ => True
  | .update _ => True
  | .log record => cfg.publishes record = true

inductive FanAction where
  /-- the next subscriber is called, and reacts -/
  | deliver (reaction : Reaction)
  /-- the innermost frame goes on -/
  | goOn

namespace FanOut

variable (cfg : Logging)

/-- `set`, up to its first delivery. -/
def publish (l : FanOut) (status : EdgeStatus) : FanOut :=
  { l with status := status, stack := .fan status cfg.subscribers :: l.stack }

/-- `emit`. -/
def emit (l : FanOut) (line : String) : FanOut :=
  l.publish cfg
    (l.status.replace
      { recentLogLines := some (keepNewest recentLogLinesMax (l.status.recentLogLines ++ [line])) })

/-- A logger is called. -/
def log (l : FanOut) (record : LogRecord) : FanOut :=
  match record.line with
  | some line => if cfg.rootLevel ≤ record.level then l.emit cfg line else l
  | none => l

def begin (l : FanOut) : Trigger → FanOut
  | .set status => l.publish cfg status
  | .update changes => l.publish cfg (l.status.replace changes)
  | .log record => l.log cfg record

def step (l : FanOut) : FanAction → Option FanOut
  | .deliver reaction =>
      match l.stack with
      | .fan snapshot (subscriber :: rest) :: below =>
          if subscriber.allows reaction then
            some
              { l with
                stack := .subscriber reaction.logs reaction.raised :: .fan snapshot rest :: below
                deliveries := l.deliveries + 1 }
          else none
      | _ => none
  | .goOn =>
      match l.stack with
      | .fan _ [] :: below => some { l with stack := below }
      | .subscriber (record :: logs) raised :: below =>
          some ({ l with stack := .subscriber logs raised :: below }.log cfg record)
      | .subscriber [] none :: below => some { l with stack := below }
      | .subscriber [] (some line) :: below =>
          some ({ l with stack := below }.log cfg (raisedRecord line))
      | _ => none

/-! ## Quiet subscribers -/

variable {cfg} {l m : FanOut} {action : FanAction} {below : List Frame} {snapshot : EdgeStatus}
  {rest : List Subscriber} {logs : List LogRecord} {raised : Option String}

theorem log_silent {record : LogRecord} (silent : cfg.publishes record = false) :
    l.log cfg record = l := by
  unfold log
  split
  · rename_i line isLine
    refine if_neg fun loud => ?_
    simp [Logging.publishes, isLine, loud] at silent
  · rfl

theorem log_published {record : LogRecord} (published : cfg.publishes record = true) :
    ∃ status, l.log cfg record = l.publish cfg status := by
  simp only [Logging.publishes, Bool.and_eq_true, decide_eq_true_eq] at published
  obtain ⟨loud, isSome⟩ := published
  obtain ⟨line, isLine⟩ := Option.isSome_iff_exists.mp isSome
  exact ⟨_, by simp only [log, isLine, if_pos loud]; rfl⟩

/-- What is left of a fan-out whose subscribers are quiet: at most one of them is running. -/
inductive Shallow (cfg : Logging) : List Frame → Nat → Prop
  | done : Shallow cfg [] 0
  | fan {snapshot : EdgeStatus} {rest : List Subscriber}
      (listed : ∀ s ∈ rest, s ∈ cfg.subscribers) :
      Shallow cfg [.fan snapshot rest] rest.length
  | subscriber {logs : List LogRecord} {raised : Option String} {snapshot : EdgeStatus}
      {rest : List Subscriber} (silent : Reaction.Silent cfg ⟨logs, raised⟩)
      (listed : ∀ s ∈ rest, s ∈ cfg.subscribers) :
      Shallow cfg [.subscriber logs raised, .fan snapshot rest] rest.length

/-- The deliveries made and those to come are within the bound. -/
def Within (cfg : Logging) (bound : Nat) (l : FanOut) : Prop :=
  ∃ left, Shallow cfg l.stack left ∧ l.deliveries + left ≤ bound

theorem within_step {bound : Nat} (quiet : cfg.Quiet) (within : Within cfg bound l)
    (next : l.step cfg action = some m) : Within cfg bound m := by
  obtain ⟨status, stack, deliveries⟩ := l
  obtain ⟨left, shallow, fits⟩ := within
  have shallow : Shallow cfg stack left := shallow
  have fits : deliveries + left ≤ bound := fits
  cases action with
  | deliver reaction =>
      simp only [step] at next
      cases shallow with
      | done => cases next
      | subscriber => cases next
      | @fan snapshot rest listed =>
          cases rest with
          | nil => cases next
          | cons subscriber rest =>
              dsimp only at next
              split at next
              · rename_i allowed
                obtain rfl := Option.some.inj next
                refine ⟨rest.length, .subscriber ?_ fun s member => listed s (.tail _ member), ?_⟩
                · exact quiet subscriber (listed subscriber (.head _)) reaction allowed
                · simp only [List.length_cons] at fits
                  show deliveries + 1 + rest.length ≤ bound
                  omega
              · cases next
  | goOn =>
      simp only [step] at next
      cases shallow with
      | done => cases next
      | @fan snapshot rest listed =>
          cases rest with
          | nil =>
              obtain rfl := Option.some.inj next
              exact ⟨0, .done, fits⟩
          | cons => cases next
      | @subscriber logs raised snapshot rest silent listed =>
          cases logs with
          | nil =>
              cases raised with
              | none =>
                  obtain rfl := Option.some.inj next
                  exact ⟨_, .fan listed, fits⟩
              | some line =>
                  obtain rfl := Option.some.inj next
                  rw [log_silent (silent (raisedRecord line) (List.mem_singleton_self _))]
                  exact ⟨_, .fan listed, fits⟩
          | cons record logs =>
              obtain rfl := Option.some.inj next
              rw [log_silent (silent record (.head _))]
              exact ⟨_, .subscriber (fun other member => silent other (.tail _ member)) listed, fits⟩

/-! ## Loud subscribers -/

/-- A subscriber that brings about no published record returns to the loop. -/
theorem returns_of_silent (l : FanOut) (stack : l.stack = .subscriber logs raised :: below)
    (silent : Reaction.Silent cfg ⟨logs, raised⟩) :
    Reachable (step cfg) Free l { l with stack := below } := by
  induction logs generalizing l with
  | nil =>
      refine (Reachable.refl l).snoc (a := FanAction.goOn) trivial ?_
      cases raised with
      | none => simp only [step, stack]
      | some line =>
          simp only [step, stack]
          rw [log_silent (silent (raisedRecord line) (List.mem_singleton_self _))]
  | cons record logs ih =>
      have first : l.step cfg .goOn = some { l with stack := .subscriber logs raised :: below } := by
        simp only [step, stack]
        rw [log_silent (silent record (.head _))]
      exact Relation.ReflTransGen.head ⟨.goOn, trivial, first⟩
        (ih _ rfl fun other member => silent other (.tail _ member))

/-- A published record starts the loop over all subscribers again. -/
theorem recurs_of_loud (l : FanOut) (stack : l.stack = .subscriber logs raised :: below)
    (loud : ¬ Reaction.Silent cfg ⟨logs, raised⟩) :
    ∃ snapshot deeper m, Reachable (step cfg) Free l m ∧
      m.stack = .fan snapshot cfg.subscribers :: deeper ∧ m.deliveries = l.deliveries := by
  induction logs generalizing l with
  | nil =>
      cases raised with
      | none => exact absurd (fun _ member => by cases member) loud
      | some line =>
          have published : cfg.publishes (raisedRecord line) = true := by
            by_contra silent
            refine loud fun record member => ?_
            obtain rfl := List.mem_singleton.mp member
            simpa using silent
          obtain ⟨status, logged⟩ := log_published (l := { l with stack := below }) published
          refine ⟨status, below, { l with stack := below }.publish cfg status,
            (Reachable.refl l).snoc (a := FanAction.goOn) trivial ?_, rfl, rfl⟩
          simp only [step, stack]
          rw [logged]
  | cons record logs ih =>
      by_cases published : cfg.publishes record = true
      · obtain ⟨status, logged⟩ :=
          log_published (l := { l with stack := .subscriber logs raised :: below }) published
        refine ⟨status, _, { l with stack := .subscriber logs raised :: below }.publish cfg status,
          (Reachable.refl l).snoc (a := FanAction.goOn) trivial ?_, rfl, rfl⟩
        simp only [step, stack]
        rw [logged]
      · have first : l.step cfg .goOn =
            some { l with stack := .subscriber logs raised :: below } := by
          simp only [step, stack]
          rw [log_silent (by simpa using published)]
        have later : ¬ Reaction.Silent cfg ⟨logs, raised⟩ := fun silent => loud fun other member => by
          rcases List.mem_cons.mp member with rfl | member
          · simpa using published
          · exact silent other member
        obtain ⟨snapshot, deeper, m, run, at_, same⟩ :=
          ih { l with stack := .subscriber logs raised :: below } rfl later
        exact ⟨snapshot, deeper, m, Relation.ReflTransGen.head ⟨.goOn, trivial, first⟩ run, at_, same⟩

/-- The loop reaches a subscriber that may be loud, and starts again from there. -/
theorem fan_recurs (l : FanOut) (stack : l.stack = .fan snapshot rest :: below)
    (loud : ∃ s ∈ rest, ∃ reaction, s.allows reaction = true ∧ ¬ reaction.Silent cfg) :
    ∃ snapshot' deeper m, Reachable (step cfg) Free l m ∧
      m.stack = .fan snapshot' cfg.subscribers :: deeper ∧ l.deliveries < m.deliveries := by
  induction rest generalizing l with
  | nil =>
      obtain ⟨s, member, -⟩ := loud
      cases member
  | cons subscriber rest ih =>
      have delivered : ∀ reaction, subscriber.allows reaction = true →
          l.step cfg (.deliver reaction) = some
            { l with
              stack := .subscriber reaction.logs reaction.raised :: .fan snapshot rest :: below
              deliveries := l.deliveries + 1 } := by
        intro reaction allowed
        simp only [step, stack, if_pos allowed]
      by_cases here : ∃ reaction, subscriber.allows reaction = true ∧ ¬ reaction.Silent cfg
      · obtain ⟨reaction, allowed, loud⟩ := here
        obtain ⟨snapshot', deeper, m, run, at_, same⟩ := recurs_of_loud
          { l with
            stack := .subscriber reaction.logs reaction.raised :: .fan snapshot rest :: below
            deliveries := l.deliveries + 1 } rfl loud
        refine ⟨snapshot', deeper, m,
          Relation.ReflTransGen.head ⟨_, trivial, delivered reaction allowed⟩ run, at_, ?_⟩
        rw [same]
        exact Nat.lt_succ_self _
      · obtain ⟨reaction, allowed⟩ := subscriber.able
        have silent : reaction.Silent cfg := by
          by_contra loud
          exact here ⟨reaction, allowed, loud⟩
        have later : ∃ s ∈ rest, ∃ reaction, s.allows reaction = true ∧ ¬ reaction.Silent cfg := by
          obtain ⟨s, member, isLoud⟩ := loud
          rcases List.mem_cons.mp member with rfl | member
          · exact absurd isLoud here
          · exact ⟨s, member, isLoud⟩
        obtain ⟨snapshot', deeper, m, run, at_, more⟩ := ih
          { l with stack := .fan snapshot rest :: below, deliveries := l.deliveries + 1 } rfl later
        refine ⟨snapshot', deeper, m,
          Relation.ReflTransGen.head ⟨_, trivial, delivered reaction allowed⟩
            (Relation.ReflTransGen.trans (returns_of_silent _ rfl silent) run), at_, ?_⟩
        exact Nat.lt_of_succ_lt more

/-! ### Main result -/

/-- However the fan-out goes on, it makes finitely many deliveries: `chain` is any
execution, cut up in any way. -/
def Ends (cfg : Logging) (start : FanOut) : Prop :=
  ∀ chain : Nat → FanOut, chain 0 = start →
    (∀ n, Reachable (step cfg) Free (chain n) (chain (n + 1))) →
      ∃ bound, ∀ n, (chain n).deliveries ≤ bound

theorem begin_published {trigger : Trigger} (publishes : Trigger.Publishes cfg trigger) :
    ∃ status, l.begin cfg trigger = l.publish cfg status := by
  cases trigger with
  | set status => exact ⟨status, rfl⟩
  | update changes => exact ⟨_, rfl⟩
  | log record => exact log_published publishes

theorem ends_of_within {bound : Nat} (quiet : cfg.Quiet) (within : Within cfg bound l) :
    Ends cfg l := by
  intro chain first goes
  have all : ∀ n, Within cfg bound (chain n) :=
    Reachable.invariant_along goes (first ▸ within) fun _ _ _ within _ next =>
      within_step quiet within next
  exact ⟨bound, fun n => Nat.le_trans (Nat.le_add_right _ _) (all n).choose_spec.2⟩

/-- On an idle bus nothing goes on. -/
theorem ends_of_idle (idle : l.stack = []) : Ends cfg l := by
  intro chain first goes
  have all : ∀ n, (chain n).stack = [] ∧ (chain n).deliveries = l.deliveries := by
    refine Reachable.invariant_along (P := fun m => m.stack = [] ∧ m.deliveries = l.deliveries) goes
      ⟨first ▸ idle, first ▸ rfl⟩ fun m action m' before _ next => ?_
    cases action <;> simp [step, before.1] at next
  exact ⟨l.deliveries, fun n => Nat.le_of_eq (all n).2⟩

/-- With a subscriber that may be loud, some execution delivers without end. -/
theorem not_ends_of_loud
    (stack : ∃ snapshot below, l.stack = .fan snapshot cfg.subscribers :: below)
    (loud : ¬ cfg.Quiet) : ¬ Ends cfg l := by
  have isLoud : ∃ s ∈ cfg.subscribers, ∃ reaction, s.allows reaction = true ∧
      ¬ reaction.Silent cfg := by
    simpa [Logging.Quiet] using loud
  let Looping := { m : FanOut // ∃ snapshot deeper, m.stack = .fan snapshot cfg.subscribers :: deeper }
  have again : ∀ m : Looping, ∃ m' : Looping, Reachable (step cfg) Free m.1 m'.1 ∧
      m.1.deliveries < m'.1.deliveries := by
    rintro ⟨m, snapshot, deeper, at_⟩
    obtain ⟨snapshot', deeper', m', run, at', more⟩ := fan_recurs m at_ isLoud
    exact ⟨⟨m', snapshot', deeper', at'⟩, run, more⟩
  choose next goes more using again
  intro ends
  obtain ⟨bound, least⟩ := ends (fun n => (next^[n] ⟨l, stack⟩).1) rfl fun n => by
    rw [Function.iterate_succ_apply']
    exact goes _
  have grows : ∀ n, n ≤ (next^[n] ⟨l, stack⟩).1.deliveries := by
    intro n
    induction n with
    | zero => exact Nat.zero_le _
    | succ n ih =>
        rw [Function.iterate_succ_apply']
        exact Nat.succ_le_of_lt (Nat.lt_of_le_of_lt ih (more _))
  have := grows (bound + 1)
  have := least (bound + 1)
  omega

/-- **When the fan-out ends.**  What one trigger starts on an idle bus ends, whatever the
subscribers do, if and only if it publishes nothing or no subscriber can bring about a
record that is published. -/
theorem fan_out_ends_iff (cfg : Logging) (status : EdgeStatus) (trigger : Trigger) :
    Ends cfg (({ status := status } : FanOut).begin cfg trigger) ↔
      (Trigger.Publishes cfg trigger → cfg.Quiet) := by
  constructor
  · intro ends publishes
    obtain ⟨published, begun⟩ := begin_published (l := { status := status }) publishes
    rw [begun] at ends
    by_contra loud
    exact not_ends_of_loud ⟨published, [], rfl⟩ loud ends
  · intro quiet
    by_cases publishes : Trigger.Publishes cfg trigger
    · obtain ⟨published, begun⟩ := begin_published (l := { status := status }) publishes
      rw [begun]
      refine ends_of_within (quiet publishes) (?_ : Within cfg cfg.subscribers.length _)
      exact ⟨_, .fan fun s member => member, Nat.le_of_eq (Nat.zero_add _)⟩
    · have silent : ∃ record, trigger = .log record ∧ cfg.publishes record = false := by
        cases trigger with
        | set | update => exact absurd trivial publishes
        | log record => exact ⟨record, rfl, by simpa [Trigger.Publishes] using publishes⟩
      obtain ⟨record, rfl, silent⟩ := silent
      exact ends_of_idle (congrArg FanOut.stack (log_silent silent))

/-! ## Poles -/

/-- The tray whose setters work. -/
def trayAlone : Logging where
  subscribers := [.only (trayReaction none none)]

theorem tray_quiet : trayAlone.Quiet := by
  intro subscriber member reaction allowed record listed
  obtain rfl := List.mem_singleton.mp member
  obtain rfl : reaction = trayReaction none none := by simpa [Subscriber.only] using allowed
  simp [trayReaction, Reaction.records] at listed

theorem tray_ends : Ends trayAlone (({} : FanOut).begin trayAlone (.set {})) :=
  (fan_out_ends_iff trayAlone {} (.set {})).mpr fun _ => tray_quiet

/-- A tray that cannot set its title. -/
def trayFailing : Logging where
  subscribers := [.only (trayReaction none (some "tray: failed to update title"))]

/-- **An endless fan-out.**  The tray logs that it failed, the record is published, and the
tray is called again. -/
theorem failing_tray_never_ends :
    ¬ ∀ (cfg : Logging) (status : EdgeStatus) (trigger : Trigger),
      Ends cfg (({ status := status } : FanOut).begin cfg trigger) := by
  intro claim
  refine not_ends_of_loud ⟨{}, [], rfl⟩ (fun quiet => ?_)
    (claim trayFailing {} (.set {}))
  have silent := quiet _ (List.mem_singleton_self _)
    (trayReaction none (some "tray: failed to update title")) (by simp [Subscriber.only])
  exact absurd (silent _ (List.mem_singleton_self _)) (by decide)

end FanOut

end IsalesTelephony.Ui
