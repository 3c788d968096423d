/-
# Ui.StateBus -- the edge status and its subscribers

`EdgeStatus` and `StateBus` of `ui/state.py`.  `set` and `update` swap the snapshot under
the lock and deliver it to the subscribers afterwards, outside the lock, one after the
other.  A call is then one swap and as many deliveries; any thread may run in between, and
a subscriber may itself publish.

Each swap has a version, and `received` is history: who was handed which version.  When
all calls have finished every subscriber has had the last version (`Covered`).  It has it
last if nobody was handed a snapshot that is older than one it had before
(`bus_converges`); the lock does not see to that, since it is free during the deliveries.
-/
import IsalesTelephony.Theory.Transition

namespace IsalesTelephony.Ui

set_option autoImplicit false

open IsalesTelephony.Theory.Transition

/-! ## The status -/

/-- `CloudLinkState`. -/
inductive CloudLinkState where
  | connected | disconnected | awaitingActivation | authRejected
  deriving DecidableEq, Repr

/-- `ModemState`. -/
inductive ModemState where
  | idle | busy | error | offline
  deriving DecidableEq, Repr

structure ModemSummary where
  deviceNode : String
  state : ModemState
  deriving DecidableEq, Repr

structure EdgeStatus where
  cloudLink : CloudLinkState := .awaitingActivation
  modems : List ModemSummary := []
  recentLogLines : List String := []
  lastActivationError : Option String := none
  deriving DecidableEq, Repr

/-- The keyword arguments of `update`. -/
structure Changes where
  cloudLink : Option CloudLinkState := none
  modems : Option (List ModemSummary) := none
  recentLogLines : Option (List String) := none
  lastActivationError : Option (Option String) := none
  deriving DecidableEq, Repr

/-- `replace(status, **changes)`. -/
def EdgeStatus.replace (status : EdgeStatus) (changes : Changes) : EdgeStatus where
  cloudLink := changes.cloudLink.getD status.cloudLink
  modems := changes.modems.getD status.modems
  recentLogLines := changes.recentLogLines.getD status.recentLogLines
  lastActivationError := changes.lastActivationError.getD status.lastActivationError

/-! ## The bus -/

/-- A call of `set` or `update` that has swapped the snapshot. -/
structure Delivery where
  version : Nat
  snapshot : EdgeStatus
  /-- the subscribers it has still to call -/
  remaining : List Nat
  deriving DecidableEq, Repr

/-- A subscriber was called. -/
structure Receipt where
  subscriber : Nat
  version : Nat
  snapshot : EdgeStatus
  deriving DecidableEq, Repr

structure StateBus where
  status : EdgeStatus := {}
  /-- `_subscribers`, by number -/
  subscribers : List Nat := []
  delivering : List Delivery := []
  /-- how many swaps there were -/
  version : Nat := 0
  received : List Receipt := []
  deriving DecidableEq, Repr

inductive BusAction where
  /-- the swap of `set` -/
  | set (status : EdgeStatus)
  /-- the swap of `update` -/
  | update (changes : Changes)
  /-- a call makes its next delivery -/
  | deliver (call : Nat)
  /-- a call has made all its deliveries and returns -/
  | finish (call : Nat)
  deriving DecidableEq, Repr

namespace StateBus

/-- The part of `set` and `update` under the lock. -/
def swap (b : StateBus) (status : EdgeStatus) : StateBus :=
  { b with
    status := status
    version := b.version + 1
    delivering := b.delivering ++ [⟨b.version + 1, status, b.subscribers⟩] }

/-- `sub(status)`. -/
def callSubscriber (b : StateBus) (call : Nat) (d : Delivery) (subscriber : Nat)
    (rest : List Nat) : StateBus :=
  { b with
    delivering := b.delivering.set call { d with remaining := rest }
    received := b.received ++ [⟨subscriber, d.version, d.snapshot⟩] }

def step (b : StateBus) : BusAction → Option StateBus
  | .set status => some (b.swap status)
  | .update changes => some (b.swap (b.status.replace changes))
  | .deliver call =>
      b.delivering[call]?.bind fun d =>
        match d.remaining with
        | subscriber :: rest => some (b.callSubscriber call d subscriber rest)
        | [] => none
  | .finish call =>
      b.delivering[call]?.bind fun d =>
        if d.remaining = [] then some { b with delivering := b.delivering.eraseIdx call } else none

/-- What a subscriber was handed, oldest first. -/
def heard (b : StateBus) (subscriber : Nat) : List Receipt :=
  b.received.filter fun r => r.subscriber = subscriber

/-- Once all the calls have finished, the last snapshot of each subscriber is the status. -/
def Converged (b : StateBus) : Prop :=
  b.delivering = [] → b.version ≠ 0 → ∀ s ∈ b.subscribers,
    (b.heard s).getLast?.map Receipt.snapshot = some b.status

instance (b : StateBus) : Decidable b.Converged :=
  inferInstanceAs (Decidable (_ → _ → ∀ s ∈ b.subscribers, _))

/-- No subscriber is called with a snapshot that is older than one it was called with. -/
def InTurn (b : StateBus) : BusAction → Prop
  | .deliver call => ∀ d ∈ b.delivering[call]?, ∀ s ∈ d.remaining.head?,
      ∀ r ∈ b.heard s, r.version ≤ d.version
  | _ => True

instance (b : StateBus) (action : BusAction) : Decidable (b.InTurn action) := by
  unfold InTurn
  split <;> infer_instance

/-! ## Every subscriber has the last version -/

variable {b c : StateBus} {action : BusAction}

/-- What one action can do. -/
inductive Moves (b : StateBus) : BusAction → StateBus → Prop
  | swaps {action : BusAction} (status : EdgeStatus)
      (publishes : action = .set status ∨ ∃ changes, action = .update changes) :
      Moves b action (b.swap status)
  | delivers {call : Nat} {d : Delivery} {subscriber : Nat} {rest : List Nat}
      (at_ : b.delivering[call]? = some d) (due : d.remaining = subscriber :: rest) :
      Moves b (.deliver call) (b.callSubscriber call d subscriber rest)
  | finishes {call : Nat} {d : Delivery} (at_ : b.delivering[call]? = some d)
      (done : d.remaining = []) :
      Moves b (.finish call) { b with delivering := b.delivering.eraseIdx call }

theorem step_cases (next : b.step action = some c) : b.Moves action c := by
  cases action with
  | set status =>
      obtain rfl := Option.some.inj next
      exact .swaps status (.inl rfl)
  | update changes =>
      obtain rfl := Option.some.inj next
      exact .swaps _ (.inr ⟨changes, rfl⟩)
  | deliver call =>
      obtain ⟨d, at_, delivered⟩ := Option.bind_eq_some_iff.mp next
      split at delivered
      · rename_i subscriber rest due
        obtain rfl := Option.some.inj delivered
        exact .delivers at_ due
      · cases delivered
  | finish call =>
      obtain ⟨d, at_, finished⟩ := Option.bind_eq_some_iff.mp next
      split at finished
      · rename_i done
        obtain rfl := Option.some.inj finished
        exact .finishes at_ done
      · cases finished

/-- The snapshot is that of its version, as far as the last version goes. -/
def Current (b : StateBus) (version : Nat) (snapshot : EdgeStatus) : Prop :=
  version ≤ b.version ∧ (version = b.version → snapshot = b.status)

/-- Every subscriber was called with the last version, or is to be. -/
structure Covered (b : StateBus) : Prop where
  calls : ∀ d ∈ b.delivering, b.Current d.version d.snapshot
  receipts : ∀ r ∈ b.received, b.Current r.version r.snapshot
  newest : b.version ≠ 0 → ∀ s ∈ b.subscribers, (∃ r ∈ b.heard s, r.version = b.version) ∨
    ∃ (call : Nat) (d : Delivery), b.delivering[call]? = some d ∧ d.version = b.version ∧
      s ∈ d.remaining

theorem covered_init (status : EdgeStatus) (subscribers : List Nat) :
    Covered { status := status, subscribers := subscribers } where
  calls := fun _ member => by cases member
  receipts := fun _ member => by cases member
  newest := fun some_swap => absurd rfl some_swap

theorem covered_swap (covered : Covered b) (status : EdgeStatus) : Covered (b.swap status) := by
  have older : ∀ {version snapshot}, b.Current version snapshot →
      (b.swap status).Current version snapshot := by
    intro version snapshot before
    have bound : version < b.version + 1 := Nat.lt_succ_of_le before.1
    exact ⟨Nat.le_of_lt bound, fun same => absurd same (Nat.ne_of_lt bound)⟩
  refine ⟨fun d member => ?_, fun r member => older (covered.receipts r member),
    fun _ s listed => .inr ⟨b.delivering.length, _, List.getElem?_concat_length, rfl, listed⟩⟩
  rcases List.mem_append.mp member with old | new
  · exact older (covered.calls d old)
  · obtain rfl := List.mem_singleton.mp new
    exact ⟨Nat.le_refl _, fun _ => rfl⟩

theorem heard_callSubscriber (b : StateBus) (call : Nat) (d : Delivery) (subscriber : Nat)
    (rest : List Nat) (s : Nat) :
    (b.callSubscriber call d subscriber rest).heard s =
      b.heard s ++ if subscriber = s then [⟨subscriber, d.version, d.snapshot⟩] else [] := by
  simp only [heard, callSubscriber, List.filter_append]
  split
  · rename_i same
    simp [same]
  · rename_i other
    simp [other]

theorem covered_deliver {call : Nat} {d : Delivery} {subscriber : Nat} {rest : List Nat}
    (covered : Covered b) (at_ : b.delivering[call]? = some d)
    (due : d.remaining = subscriber :: rest) :
    Covered (b.callSubscriber call d subscriber rest) := by
  have current := covered.calls d (List.mem_of_getElem? at_)
  have bound := (List.getElem?_eq_some_iff.mp at_).1
  refine ⟨fun d' member => ?_, fun r member => ?_, fun some_swap s listed => ?_⟩
  · rcases List.mem_or_eq_of_mem_set member with old | rfl
    · exact covered.calls d' old
    · exact current
  · rcases List.mem_append.mp member with old | new
    · exact covered.receipts r old
    · obtain rfl := List.mem_singleton.mp new
      exact current
  · rw [heard_callSubscriber]
    rcases covered.newest some_swap s listed with ⟨r, member, last⟩ | ⟨other, d', at', last, waits⟩
    · exact .inl ⟨r, List.mem_append_left _ member, last⟩
    · by_cases same : call = other
      · subst same
        obtain rfl := Option.some.inj (at_.symm.trans at')
        rw [due] at waits
        rcases List.mem_cons.mp waits with here | later
        · exact .inl ⟨_, List.mem_append_right _ (by rw [if_pos here.symm]; exact List.mem_singleton_self _),
            last⟩
        · exact .inr ⟨call, _, List.getElem?_set_self bound, last, later⟩
      · exact .inr ⟨other, d', (List.getElem?_set_ne same).trans at', last, waits⟩

theorem covered_finish {call : Nat} {d : Delivery} (covered : Covered b)
    (at_ : b.delivering[call]? = some d) (done : d.remaining = []) :
    Covered { b with delivering := b.delivering.eraseIdx call } := by
  refine ⟨fun d' member => covered.calls d' (List.mem_of_mem_eraseIdx member), covered.receipts,
    fun some_swap s listed => (covered.newest some_swap s listed).imp_right ?_⟩
  rintro ⟨other, d', at', last, waits⟩
  have different : other ≠ call := by
    rintro rfl
    obtain rfl := Option.some.inj (at_.symm.trans at')
    rw [done] at waits
    cases waits
  obtain ⟨here, at''⟩ :=
    List.mem_iff_getElem?.mp (List.mem_eraseIdx_iff_getElem?.mpr ⟨other, different, at'⟩)
  exact ⟨here, d', at'', last, waits⟩

/-- **One step.** -/
theorem covered_step (covered : Covered b) (next : b.step action = some c) : Covered c := by
  cases step_cases next with
  | swaps status => exact covered_swap covered status
  | delivers at_ due => exact covered_deliver covered at_ due
  | finishes at_ done => exact covered_finish covered at_ done

/-! ## In turn -/

/-- Each subscriber was called with ever newer versions. -/
def Ordered (b : StateBus) : Prop :=
  ∀ s, (b.heard s).Pairwise fun older newer => older.version ≤ newer.version

theorem ordered_step (ordered : Ordered b) (inTurn : b.InTurn action)
    (next : b.step action = some c) : Ordered c := by
  cases step_cases next with
  | swaps => exact ordered
  | finishes => exact ordered
  | @delivers call d subscriber rest at_ due =>
      intro s
      rw [heard_callSubscriber]
      split
      · rename_i same
        subst same
        refine List.pairwise_append.mpr ⟨ordered subscriber, List.pairwise_singleton _ _, ?_⟩
        intro r member new isNew
        obtain rfl := List.mem_singleton.mp isNew
        exact inTurn d at_ subscriber (by rw [due]; rfl) r member
      · rw [List.append_nil]
        exact ordered s

theorem converged_of (covered : Covered b) (ordered : Ordered b) : b.Converged := by
  intro settled some_swap s listed
  obtain ⟨r, member, last⟩ : ∃ r ∈ b.heard s, r.version = b.version := by
    refine (covered.newest some_swap s listed).resolve_right ?_
    rintro ⟨call, d, at_, -⟩
    rw [settled] at at_
    cases at_
  obtain ⟨before, final, split⟩ : ∃ before final, b.heard s = before ++ [final] :=
    ⟨_, _, (List.dropLast_concat_getLast (List.ne_nil_of_mem member)).symm⟩
  have newer : r.version ≤ final.version := by
    have sorted := ordered s
    rw [split] at member sorted
    rcases List.mem_append.mp member with earlier | here
    · exact (List.pairwise_append.mp sorted).2.2 r earlier final (List.mem_singleton_self _)
    · exact Nat.le_of_eq (congrArg Receipt.version (List.mem_singleton.mp here))
  have current : b.Current final.version final.snapshot :=
    covered.receipts final (List.mem_filter.mp (split ▸ List.mem_concat_self : final ∈ b.heard s)).1
  rw [split, List.getLast?_concat, Option.map_some,
    current.2 (Nat.le_antisymm current.1 (last ▸ newer))]

/-! ### Main result -/

/-- **The subscribers converge**, in every run in which no subscriber is handed an older
snapshot after a newer one. -/
theorem bus_converges (status : EdgeStatus) (subscribers : List Nat) (b : StateBus)
    (run : Reachable step InTurn { status := status, subscribers := subscribers } b) :
    b.Converged := by
  have both : Covered b ∧ Ordered b :=
    run.invariant (P := fun b => Covered b ∧ Ordered b)
      ⟨covered_init status subscribers, fun _ => List.Pairwise.nil⟩
      fun _ _ _ ⟨covered, ordered⟩ inTurn next =>
        ⟨covered_step covered next, ordered_step ordered inTurn next⟩
  exact converged_of both.1 both.2

/-! ## Poles -/

/-- The link comes up: the swap, its delivery, the return. -/
def linkUp : List BusAction :=
  [.update { cloudLink := some .connected }, .deliver 0, .finish 0]

theorem link_up : (guardedRun step InTurn { subscribers := [0] } linkUp).isSome = true := by decide

theorem tray_sees_link_up :
    (Option.get _ link_up).Converged ∧
      ((Option.get _ link_up).heard 0).map (·.snapshot.cloudLink) = [.connected] :=
  ⟨bus_converges {} [0] _ (reachable_guarded_get link_up), by decide⟩

/-- Two threads swap one after the other, and the first delivers last. -/
def overtaken : List BusAction :=
  [.update { cloudLink := some .connected }, .update { cloudLink := some .disconnected },
    .deliver 1, .deliver 0, .finish 0, .finish 0]

theorem overtaken_runs : (run step { subscribers := [0] } overtaken).isSome = true := by decide

/-- **A stale subscriber.**  The status is disconnected; the tray was last told that the
link is up. -/
theorem overtaken_call_leaves_stale :
    ¬ ∀ (status : EdgeStatus) (subscribers : List Nat) (b : StateBus),
      Reachable step Free { status := status, subscribers := subscribers } b → b.Converged := by
  intro claim
  have stale : ¬ (Option.get _ overtaken_runs).Converged := by decide
  exact stale (claim _ _ _ (reachable_get overtaken_runs))

end StateBus

end IsalesTelephony.Ui
