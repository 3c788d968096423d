/-
# Modem.FreeSlot -- a free slot and a free line

`ModemLine` is the serial client joined to its modem: how many of the commands
it was sent are answered, the lines it sent that are not read yet, and the calls
whose end it has reported -- by a hangup-class URC, or by an error as the final
result of the ATD.  The modem answers in order and may report an end at any time.

* `abandoned_stream_keeps_line`: a consumer drops the stream of a live call, the
  slot is free, and nothing on the wire ended the call;
* `free_slot_means_free_line`: in a run in which what ends a call for the client
  finds it over, a free slot is a free line.
-/
import IsalesTelephony.Modem.Attended

namespace IsalesTelephony.Modem

set_option autoImplicit false

open IsalesTelephony.Theory.Transition

/-! ## The modem on the line -/

structure ModemLine where
  client : SerialAtClient := {}
  /-- how many of the written commands have their final result -/
  answered : Nat := 0
  /-- lines sent and not read -/
  wire : List Text := []
  /-- the ATDs whose call's end was reported -/
  reported : List Nat := []
  deriving DecidableEq, Repr

inductive ModemAction where
  /-- the client moves, but for what it reads -/
  | client (action : SerialAction)
  /-- the final result of the oldest command without one -/
  | answer (raw : Text)
  /-- a hangup-class URC about the call of an ATD -/
  | callEnd (atd : Nat) (raw : Text)
  /-- any other line -/
  | line (raw : Text)
  /-- the client reads a line -/
  | read
  deriving DecidableEq, Repr

def isDialCommand (command : Text) : Bool := "ATD".toList.isPrefixOf command

/-- The line is a URC that says a call is over. -/
def isHangupUrc (raw : Text) : Bool :=
  terminalOf (stripLine raw) = none && ((classifyUrc (stripLine raw)).bind hangupUrcCause).isSome

/-- What the client reads comes off the wire. -/
def SerialAction.reads : SerialAction → Bool
  | .read _ => true
  | _ => false

namespace ModemLine

def step (m : ModemLine) : ModemAction → Option ModemLine
  | .client action =>
      if action.reads then none
      else (m.client.step action).map fun client => { m with client := client }
  | .answer raw =>
      match m.client.atClient.written[m.answered]?, terminalOf (stripLine raw) with
      | some (id, command), some error =>
          some
            { m with
              answered := m.answered + 1
              wire := m.wire ++ [raw]
              reported :=
                if isDialCommand command && error.isSome then m.reported ++ [id] else m.reported }
      | _, _ => none
  | .callEnd atd raw =>
      if isHangupUrc raw ∧ ∃ w ∈ m.client.atClient.written, w.1 = atd ∧ isDialCommand w.2 then
        some { m with wire := m.wire ++ [raw], reported := m.reported ++ [atd] }
      else none
  | .line raw =>
      if isHangupUrc raw = false ∧ terminalOf (stripLine raw) = none then
        some { m with wire := m.wire ++ [raw] }
      else none
  | .read =>
      match m.wire with
      | raw :: rest =>
          (m.client.step (.read raw)).map fun client => { m with client := client, wire := rest }
      | [] => none

/-- The end of the call of this ATD was reported, or an ATH was written after it. -/
def Over (m : ModemLine) (id : Nat) : Prop :=
  id ∈ m.reported ∨ ∃ w ∈ m.client.atClient.written, w.2 = ModemDriver.hangupCommand ∧ id < w.1

instance (m : ModemLine) : DecidablePred m.Over := fun _ => by unfold Over; infer_instance

/-- What ends a call for the client finds it over. -/
def Attends (m : ModemLine) : ModemAction → Prop
  | .client action => SerialAtClient.Heeds m.Over m.client action
  | _ => True

instance (m : ModemLine) (action : ModemAction) : Decidable (m.Attends action) := by
  unfold Attends
  split <;> infer_instance

/-- Every ATD on the wire has its call's end reported, or an ATH after it. -/
def LineFree (m : ModemLine) : Prop :=
  ∀ before id command after, m.client.atClient.written = before ++ (id, command) :: after →
    isDialCommand command = true →
      id ∈ m.reported ∨ ∃ w ∈ after, w.2 = ModemDriver.hangupCommand

/-! ## One step -/

variable {m n : ModemLine} {action : ModemAction}

/-- The client of a step, and the reports. -/
theorem step_cases (next : m.step action = some n) :
    (∃ a, m.client.step a = some n.client ∧ m.reported = n.reported ∧
      (m.Attends action → SerialAtClient.Heeds m.Over m.client a)) ∨
    n.client = m.client ∧ m.reported ⊆ n.reported := by
  cases action with
  | client a =>
      simp only [step] at next
      split at next
      · cases next
      · obtain ⟨client, moved, rfl⟩ := Option.map_eq_some_iff.mp next
        exact .inl ⟨a, moved, rfl, id⟩
  | answer raw =>
      simp only [step] at next
      split at next
      · obtain rfl := Option.some.inj next
        refine .inr ⟨rfl, ?_⟩
        dsimp only
        split
        · exact List.subset_append_left _ _
        · exact List.Subset.refl _
      · cases next
  | callEnd atd raw =>
      simp only [step] at next
      split at next
      · obtain rfl := Option.some.inj next
        exact .inr ⟨rfl, List.subset_append_left _ _⟩
      · cases next
  | line raw =>
      simp only [step] at next
      split at next
      · obtain rfl := Option.some.inj next
        exact .inr ⟨rfl, List.Subset.refl _⟩
      · cases next
  | read =>
      simp only [step] at next
      split at next
      · obtain ⟨client, moved, rfl⟩ := Option.map_eq_some_iff.mp next
        exact .inl ⟨_, moved, rfl, fun _ => trivial⟩
      · cases next

/-- A call that is over stays over. -/
theorem over_step (next : m.step action = some n) : ∀ id, m.Over id → n.Over id := by
  rcases step_cases next with ⟨a, moved, same, -⟩ | ⟨same, more⟩
  · have written := (SerialAtClient.written_prefix moved).subset
    rintro id (reported | ⟨w, wrote, ath, later⟩)
    · exact .inl (same ▸ reported)
    · exact .inr ⟨w, written wrote, ath, later⟩
  · rintro id (reported | ended)
    · exact .inl (more reported)
    · exact .inr (same ▸ ended)

theorem attended_step (wired : m.client.Wired) (attended : SerialAtClient.Attended m.Over m.client)
    (attends : m.Attends action) (next : m.step action = some n) :
    n.client.Wired ∧ SerialAtClient.Attended n.Over n.client := by
  have weaker := over_step next
  rcases step_cases next with ⟨a, moved, -, heeds⟩ | ⟨same, -⟩
  · refine ⟨SerialAtClient.wired_step wired moved, ?_⟩
    exact SerialAtClient.attended_step wired (attended.mono weaker) ((heeds attends).mono weaker)
      moved fun w wrote ath id earlier => .inr ⟨w, wrote, ath, earlier⟩
  · rw [same]
    exact ⟨wired, attended.mono weaker⟩

/-- Only `dial` sends an ATD. -/
theorem isDialCommand_command {owner : Owner} (dials : isDialCommand owner.command = true) :
    ∃ call number, owner = .dial call number := by
  cases owner with
  | dial call number => exact ⟨call, number, rfl⟩
  | hangup call =>
      have other : ¬ isDialCommand ModemDriver.hangupCommand = true := by decide
      exact absurd dials other
  | poll call =>
      have other : ¬ isDialCommand "AT+CLCC".toList = true := by decide
      exact absurd dials other
  | query query =>
      have other : ¬ isDialCommand query.command = true := by
        cases query with
        | cpcmreg on => cases on <;> decide
        | _ => decide
      exact absurd dials other

/-- With no call in the slot, every ATD on the wire is over. -/
theorem lineFree_of_attended (wired : m.client.Wired)
    (attended : SerialAtClient.Attended m.Over m.client) (free : m.client.active = none) :
    m.LineFree := by
  intro before id command after wire dials
  have wrote : (id, command) ∈ m.client.atClient.written := by simp [wire]
  obtain ⟨owner, isOwner, rfl : command = owner.command⟩ :=
    wired.commands _ (List.mem_append_left _ wrote)
  obtain ⟨call, number, rfl⟩ := isDialCommand_command dials
  obtain ⟨c, at_, rfl⟩ := wired.dials isOwner
  rcases (attended call c at_).free (by simp [free]) ⟨_, wrote⟩ with reported | ⟨w, later, ath, past⟩
  · exact .inl reported
  · refine .inr ⟨w, ?_, ath⟩
    -- the wire is in the order of the sends, so the ATH comes after
    have sorted := (List.pairwise_append.mp wired.ordered.sorted).1
    rw [wire, List.pairwise_append] at sorted
    rw [wire] at later
    rcases List.mem_append.mp later with earlier | here
    · have := sorted.2.2 w earlier _ (List.mem_cons_self ..)
      exact absurd this (Nat.lt_asymm past)
    · rcases List.mem_cons.mp here with rfl | after'
      · exact absurd past (Nat.lt_irrefl _)
      · exact after'

/-! ## Main result -/

/-- **A free slot is a free line**, in every run in which what ends a call for the
client finds it over: an ATD that goes out and ends without OK, a hangup-class URC
that is handled, `hangup` on a closed AT client, a stream closed before its
remote_hangup, and `aclose` during a call. -/
theorem free_slot_means_free_line (run : Reachable step Attends {} m)
    (free : m.client.active = none) : m.LineFree := by
  have held : m.client.Wired ∧ SerialAtClient.Attended m.Over m.client :=
    run.invariant (P := fun m => m.client.Wired ∧ SerialAtClient.Attended m.Over m.client)
      ⟨SerialAtClient.wired_init, SerialAtClient.attended_init⟩
      fun _ _ _ held attends next => attended_step held.1 held.2 attends next
  exact lineFree_of_attended held.1 held.2 free

/-! ## Poles -/

/-- A number is dialled, the modem says OK, and the consumer waits for events. -/
def dialled : List ModemAction :=
  [.client (.dial "10086".toList), .client (.serial .acquire), .client (.serial .drained),
    .answer "OK\r\n".toList, .read, .client (.serial .receive), .client (.next 0)]

/-- The call is hung up, and its stream exhausted. -/
def hungUp : List ModemAction :=
  dialled ++
    [.client (.hangup 0), .client (.serial .acquire), .client (.serial .drained),
      .answer "OK\r\n".toList, .read, .client (.serial .receive), .client (.wake 0),
      .client (.next 0)]

theorem hung_up : (guardedRun step Attends {} hungUp).isSome = true := by decide

theorem line_free_after_hangup :
    (Option.get _ hung_up).client.active = none ∧ (Option.get _ hung_up).LineFree :=
  ⟨by decide, free_slot_means_free_line (reachable_guarded_get hung_up) (by decide)⟩

/-- The consumer of the stream goes away. -/
def abandoned : List ModemAction := dialled ++ [.client (.close 0)]

theorem abandoned_runs : (run step {} abandoned).isSome = true := by decide

/-- **An abandoned call.**  The generator's `finally` frees the slot and says
nothing to the modem, which holds the call it accepted. -/
theorem abandoned_stream_keeps_line :
    ¬ ∀ m : ModemLine, Reachable step Free {} m → m.client.active = none → m.LineFree := by
  intro claim
  have lineFree := claim _ (reachable_get abandoned_runs) (by decide)
  have wire : (Option.get _ abandoned_runs).client.atClient.written =
      [] ++ (0, ModemDriver.dialCommand "10086".toList) :: [] := by decide
  rcases lineFree _ _ _ _ wire (by decide) with reported | ⟨w, after, -⟩
  · exact absurd reported (by decide)
  · cases after

end ModemLine

end IsalesTelephony.Modem
