/-
# Modem.HangupLog -- what indicates that a call is over, in order of arrival

What says that a call is over reaches it on three paths: a line such as BUSY through a
URC handler task, the failure of the ATD through `dial`, an ATH through `hangup`.
`HangupLog` is the serial client with the history of its event streams and of these
indications in the order they arrive, and with a stamp beside each handler task, which
indication its line was.  A line counts when it is read, an answer that refuses the ATD
when it waits for the ATD, a timeout when it expires, and an ATH when it is written.

`FirstWins` is that a call is told of the first of its indications, and `Timely` that none
of them overtakes an earlier one, or is a line that ends the reader.
-/
import IsalesTelephony.Modem.QueuedHangups

namespace IsalesTelephony.Modem

set_option autoImplicit false

open IsalesTelephony.Theory.Transition

/-! ## Indications -/

/-- Something that says that a call is over. -/
inductive Indication where
  /-- a hangup line was read -/
  | line (call : Nat) (cause : Text)
  /-- the ATD has an error for its answer, or has failed -/
  | refused (call : Nat) (cause : Text)
  /-- the ATH of `hangup` was written -/
  | manual (call : Nat)
  deriving DecidableEq, Repr

def Indication.call : Indication → Nat
  | .line call _ => call
  | .refused call _ => call
  | .manual call => call

/-- The cause that the indication stands for. -/
def Indication.cause : Indication → Text
  | .line _ cause => cause
  | .refused _ cause => cause
  | .manual _ => "manual_hangup".toList

/-- The cause of a line that the reader takes for a hangup URC. -/
def hangupLine (raw : Text) : Option Text :=
  match terminalOf (stripLine raw) with
  | some _ => none
  | none => (classifyUrc (stripLine raw)).bind hangupUrcCause

structure HangupLog where
  streams : StreamLog := {}
  /-- in order of arrival -/
  indications : List Indication := []
  /-- beside each URC handler task: the indication that its line was -/
  stamps : List (Option Nat) := []
  deriving DecidableEq, Repr

namespace HangupLog

abbrev client (l : HangupLog) : SerialAtClient := l.streams.client

/-- The ATD of the call is on the wire. -/
def Dialled (s : SerialAtClient) (call : Nat) : Prop :=
  ∃ c ∈ s.calls[call]?, ∃ w ∈ s.atClient.written, w.1 = c.atd

instance (s : SerialAtClient) (call : Nat) : Decidable (Dialled s call) :=
  inferInstanceAs (Decidable (∃ c ∈ s.calls[call]?, _))

/-- A hangup line is that of the call in the slot, once its ATD is written. -/
def line (s : SerialAtClient) : SerialAction → Option Indication
  | .read raw =>
      match s.active, hangupLine raw with
      | some call, some cause => if Dialled s call then some (.line call cause) else none
      | _, _ => none
  | _ => none

/-- An ATD gets an error for its answer. -/
def answered (before after : SerialAtClient) : Option Indication :=
  if after.refusal = before.refusal then none
  else after.refusal.map fun refused => .refused refused.1 refused.2

/-- An ATD that was written fails. -/
def failed (s : SerialAtClient) : SerialAction → Option Indication
  | .serial action =>
      match s.atClient.ends action with
      | some (id, outcome) =>
          match s.owners[id]? with
          | some (.dial call _) =>
              if outcome.refuses then outcome.refusal?.map (.refused call) else none
          | _ => none
      | none => none
  | _ => none

/-- The ATHs that a step writes. -/
def hungUp (before after : SerialAtClient) : List Indication :=
  (after.atClient.written.drop before.atClient.written.length).filterMap fun (command : Nat × Text) =>
    match after.owners[command.1]? with
    | some (.hangup call) => some (.manual call)
    | _ => none

def indicated (before after : SerialAtClient) (action : SerialAction) : List Indication :=
  (line before action).toList ++ (failed before action).toList ++
    (answered before after).toList ++ hungUp before after

def stampsAfter (l : HangupLog) (client : SerialAtClient) : SerialAction → List (Option Nat)
  | .read raw =>
      l.stamps ++ List.replicate
        (client.atClient.urcTasks.length - l.client.atClient.urcTasks.length)
        ((line l.client (.read raw)).map fun _ => l.indications.length)
  | .urc index => l.stamps.eraseIdx index
  | _ => l.stamps

def step (l : HangupLog) (action : SerialAction) : Option HangupLog :=
  (l.streams.step action).map fun streams =>
    { streams := streams
      indications := l.indications ++ indicated l.client streams.client action
      stamps := l.stampsAfter streams.client action }

/-- The first indication of a call. -/
def first (l : HangupLog) (call : Nat) : Option Indication :=
  l.indications.find? fun i => i.call = call

/-- The causes of the remote_hangups that the stream of a call yielded. -/
def hangups (l : HangupLog) (call : Nat) : List Text :=
  (l.streams.yieldsOf call).filterMap fun event => hangupOf (some event)

/-- A call whose ATD was written is told of one hangup, the first indicated. -/
def FirstWins (l : HangupLog) : Prop :=
  ∀ call, Dialled l.client call → ∀ cause ∈ l.hangups call,
    l.hangups call = [cause] ∧ (l.first call).map (·.cause) = some cause

/-! ## No indication overtakes another -/

/-- No hangup is on the queue of the call, and its stream is at none. -/
def Unreported (s : SerialAtClient) (call : Nat) : Prop :=
  s.queued call = [] ∧ (StreamLog.stream s call).last? = none

instance (s : SerialAtClient) (call : Nat) : Decidable (Unreported s call) :=
  inferInstanceAs (Decidable (_ ∧ _))

/-- The indication with this number is a line of the call. -/
def IsLine (l : HangupLog) (call number : Nat) : Bool :=
  match l.indications[number]? with
  | some (.line k _) => k = call
  | _ => false

/-- The stamped line is of the call and from before its ATH, and no earlier line of the
call waits for its handler. -/
def InTurn (l : HangupLog) (call number : Nat) : Prop :=
  l.IsLine call number = true ∧ .manual call ∉ l.indications.take number ∧
    ∀ stamp ∈ l.stamps, ∀ earlier ∈ stamp, earlier < number → l.IsLine call earlier = false

instance (l : HangupLog) (call number : Nat) : Decidable (l.InTurn call number) :=
  inferInstanceAs (Decidable (_ ∧ _))

/-- What an ATD or an ATH may end behind: no indication of another cause, and no line
that still waits for its handler. -/
def EndsInTurn (l : HangupLog) (ended : Nat × SendOutcome) : Prop :=
  match l.client.owners[ended.1]? with
  | some (.dial call _) => ∀ cause ∈ ended.2.refusal?, ∀ i ∈ l.first call, i.cause = cause
  | some (.hangup call) => ended.2 ≠ .cancelled → Unreported l.client call →
      ∀ stamp ∈ l.stamps, ∀ number ∈ stamp, l.IsLine call number = true →
        .manual call ∈ l.indications.take number
  | _ => True

instance (l : HangupLog) (ended : Nat × SendOutcome) : Decidable (l.EndsInTurn ended) := by
  unfold EndsInTurn
  split
  · infer_instance
  · exact instDecidableForall
  · infer_instance

def Timely (l : HangupLog) : SerialAction → Prop
  | .read raw => ∀ _ ∈ line l.client (.read raw), ¬Overruns raw
  | .serial action => ∀ ended ∈ l.client.atClient.ends action, l.EndsInTurn ended
  | .urc index => ∀ task ∈ l.client.atClient.urcTasks[index]?, ∀ call ∈ l.client.active,
      hangupUrcCause task.2.type ≠ none → Unreported l.client call →
        ∃ stamp ∈ l.stamps[index]?, ∃ number ∈ stamp, l.InTurn call number
  | .hangup call => l.client.active = some call → Unreported l.client call →
      l.client.atClient.closed = false
  | _ => True

instance (l : HangupLog) (action : SerialAction) : Decidable (l.Timely action) := by
  unfold Timely
  induction action using SerialAction.casesOn <;> infer_instance

/-! ## The history -/

section History

variable {l m : HangupLog} {s t : SerialAtClient} {action : SerialAction} {call number : Nat}
  {cause : Text} {c c' : Call} {i : Indication}

theorem step_eq (next : l.step action = some m) : l.streams.step action = some m.streams ∧
    m.indications = l.indications ++ indicated l.client m.client action ∧
    m.stamps = l.stampsAfter m.client action := by
  obtain ⟨streams, stepped, rfl⟩ := Option.map_eq_some_iff.mp next
  exact ⟨stepped, rfl, rfl⟩

theorem client_step (next : l.step action = some m) : l.client.step action = some m.client :=
  (StreamLog.step_eq (step_eq next).1).1

theorem indicated_stays (next : l.step action = some m) (old : i ∈ l.indications) :
    i ∈ m.indications := by
  rw [(step_eq next).2.1]
  exact List.mem_append_left _ old

theorem numbered_stays (next : l.step action = some m) (old : l.indications[number]? = some i) :
    m.indications[number]? = some i := by
  rw [(step_eq next).2.1, List.getElem?_append_left (List.getElem?_eq_some_iff.mp old).1]
  exact old

/-- The first indication of a call remains the first. -/
theorem first_stays (next : l.step action = some m) (isFirst : l.first call = some i) :
    m.first call = some i := by
  rw [first, (step_eq next).2.1, List.find?_append, show l.indications.find? _ = _ from isFirst]
  rfl

theorem first_numbered (isFirst : l.first call = some i) : i.call = call ∧
    ∃ number, l.indications[number]? = some i ∧
      ∀ (earlier : Nat) (other : Indication), earlier < number →
        l.indications[earlier]? = some other → other.call ≠ call := by
  obtain ⟨own, number, bound, here, before⟩ := List.find?_eq_some_iff_getElem.mp isFirst
  refine ⟨of_decide_eq_true own, number, by rw [List.getElem?_eq_getElem bound, here], ?_⟩
  intro earlier other sooner there
  obtain ⟨known, rfl⟩ := List.getElem?_eq_some_iff.mp there
  simpa using before earlier sooner

theorem first_of_mem (listed : i ∈ l.indications) : ∃ j, l.first i.call = some j :=
  Option.isSome_iff_exists.mp (List.find?_isSome.mpr ⟨i, listed, by simp⟩)

/-- The call is told of what came first. -/
def Tells (l : HangupLog) (call : Nat) (cause : Text) : Prop :=
  (l.first call).map (·.cause) = some cause

theorem Tells.step (tells : l.Tells call cause) (next : l.step action = some m) :
    m.Tells call cause := by
  obtain ⟨i, isFirst, same⟩ := Option.map_eq_some_iff.mp tells
  rw [Tells, first_stays next isFirst, Option.map_some, same]

/-! ### What a step indicates -/

theorem mem_indicated : i ∈ indicated s t action ↔
    line s action = some i ∨ failed s action = some i ∨ answered s t = some i ∨ i ∈ hungUp s t := by
  simp [indicated]

theorem line_cases (heard : line s action = some i) : ∃ raw call cause, action = .read raw ∧
    s.active = some call ∧ hangupLine raw = some cause ∧ i = .line call cause := by
  unfold line at heard
  split at heard
  · split at heard
    · rename_i call cause active isHangup
      split at heard
      · obtain rfl := Option.some.inj heard
        exact ⟨_, call, cause, rfl, active, isHangup, rfl⟩
      · cases heard
    · cases heard
  · cases heard

theorem answered_cases (new : answered s t = some i) :
    ∃ call cause, t.refusal = some (call, cause) ∧ i = .refused call cause := by
  unfold answered at new
  split at new
  · cases new
  · obtain ⟨⟨call, cause⟩, refused, rfl⟩ := Option.map_eq_some_iff.mp new
    exact ⟨call, cause, refused, rfl⟩

theorem failed_cases (new : failed s action = some i) :
    ∃ a id outcome call number cause, action = .serial a ∧
      s.atClient.ends a = some (id, outcome) ∧ s.owners[id]? = some (.dial call number) ∧
      outcome.refusal? = some cause ∧ i = .refused call cause := by
  unfold failed at new
  split at new
  · rename_i a
    split at new
    · rename_i id outcome ended
      split at new
      · rename_i call number owner
        split at new
        · obtain ⟨cause, fails, rfl⟩ := Option.map_eq_some_iff.mp new
          exact ⟨a, id, outcome, call, number, cause, rfl, ended, owner, fails, rfl⟩
        · cases new
      · cases new
    · cases new
  · cases new

theorem hungUp_cases (new : i ∈ hungUp s t) :
    ∃ w call, w ∈ t.atClient.written ∧ t.owners[w.1]? = some (.hangup call) ∧ i = .manual call := by
  obtain ⟨w, wrote, isManual⟩ := List.mem_filterMap.mp new
  split at isManual
  · rename_i call owner
    obtain rfl := Option.some.inj isManual
    exact ⟨w, call, (List.drop_sublist _ _).subset wrote, owner, rfl⟩
  · cases isManual

/-- A new line is the first that its step indicates. -/
theorem line_numbered (new : (indicated s t action)[number]? = some (.line call cause)) :
    number = 0 ∧ line s action = some (.line call cause) := by
  have others : ∀ {i}, i ∈ (failed s action).toList ++ (answered s t).toList ++ hungUp s t →
      i ≠ .line call cause := by
    rintro i listed rfl
    rcases List.mem_append.mp listed with early | isManual
    · rcases List.mem_append.mp early with fails | isAnswer
      · obtain ⟨_, _, _, _, _, _, -, -, -, -, same⟩ := failed_cases (Option.mem_toList.mp fails)
        cases same
      · obtain ⟨_, _, -, same⟩ := answered_cases (Option.mem_toList.mp isAnswer)
        cases same
    · obtain ⟨_, _, -, -, same⟩ := hungUp_cases isManual
      cases same
  rw [indicated, List.append_assoc, List.append_assoc, ← List.append_assoc (failed s action).toList]
    at new
  cases heard : line s action with
  | none =>
      rw [heard] at new
      exact absurd rfl (others (List.mem_of_getElem? new))
  | some i =>
      rw [heard] at new
      cases number with
      | zero =>
          obtain rfl := Option.some.inj new
          exact ⟨rfl, rfl⟩
      | succ number => exact absurd rfl (others (List.mem_of_getElem? new))

/-- The handler tasks of a hangup line. -/
theorem readLine_tasks (a : AtClient) (raw : Text) :
    ∃ tasks, (a.readLine raw).urcTasks = a.urcTasks ++ tasks ∧
      ∀ cause, hangupLine raw = some cause →
        (¬Overruns raw → tasks.length = a.urcHandlers) ∧
          ∀ task ∈ tasks, hangupUrcCause task.2.type = some cause := by
  by_cases long : Overruns raw
  · rw [AtClient.readLine_overruns long]
    exact ⟨[], (List.append_nil _).symm, fun _ _ => ⟨fun fits => absurd long fits, by simp⟩⟩
  rw [AtClient.readLine, if_neg long]
  by_cases blank : stripLine raw = []
  · exact ⟨[], by simp [blank], by simp [hangupLine, blank]⟩
  · rw [if_neg blank, AtClient.dispatchLine]
    cases terminal : terminalOf (stripLine raw) with
    | some error => exact ⟨[], by simp, by simp [hangupLine, terminal]⟩
    | none =>
        cases isUrc : classifyUrc (stripLine raw) with
        | none => exact ⟨[], by simp, by simp [hangupLine, terminal, isUrc]⟩
        | some type =>
            refine ⟨_, rfl, fun cause isHangup => ⟨by simp, fun task listed => ?_⟩⟩
            obtain ⟨h, -, rfl⟩ := List.mem_map.mp listed
            simpa [hangupLine, terminal, isUrc] using isHangup

/-- A handler task of a hangup URC puts on the queue of the call in the slot. -/
theorem urc_puts {index : Nat} {task : Nat × Urc} (wired : s.Wired)
    (next : s.step (.urc index) = some t) (ready : s.atClient.urcTasks[index]? = some task)
    (active : s.active = some call) (isHangup : hangupUrcCause task.2.type = some cause) :
    t.queued call = s.queued call ++ [cause] := by
  obtain ⟨other, isReady, rfl⟩ := Option.map_eq_some_iff.mp next
  obtain rfl := Option.some.inj (ready.symm.trans isReady)
  obtain ⟨c, at_⟩ := wired.filled active
  have dropped : (s.dropTask index).CallAt call c := at_
  have unchanged : (s.dropTask index).active = some call := active
  simp only [SerialAtClient.onUrc, unchanged, isHangup]
  exact SerialAtClient.queued_put dropped rfl

/-! ### The ATD -/

/-- A dial that is over has written its ATD by now, or never will. -/
theorem dialled_before (wired : s.Wired) (next : s.step action = some t) (at_ : s.CallAt call c)
    (isOver : c.dial ≠ .awaiting) (dialled : Dialled t call) : Dialled s call := by
  obtain ⟨c', at', w, wrote, atd⟩ := dialled
  obtain ⟨c'', at'', same⟩ := SerialAtClient.callAt_stays wired next at_
  obtain rfl := Option.some.inj (at'.symm.trans at'')
  rcases SerialAtClient.written_step next wrote with old | waits
  · exact ⟨c, at_, w, old, atd.trans same⟩
  · exact absurd (wired.pending at_ (.inr ⟨w, waits, atd.trans same⟩)) isOver

/-- A call that was over at once has written no ATD. -/
theorem undialled_new (wired : s.Wired) (next : s.step action = some t)
    (new : call = s.calls.length) (at' : t.CallAt call c') : ¬ Dialled t call := by
  rintro ⟨d, here, w, wrote, atd⟩
  obtain rfl := Option.some.inj (at'.symm.trans here)
  have late := StreamLog.new_atd wired next new at'
  have early : w.1 < s.atClient.nextSend := by
    refine wired.ordered.fresh w ?_
    rcases SerialAtClient.written_step next wrote with old | waits
    · exact List.mem_append_left _ old
    · exact List.mem_append_right _ waits
  omega

/-- An ATD that fails and was refused by nothing was not written. -/
theorem undialled_of_ends {a : AtAction} {outcome : SendOutcome} (wired : s.Wired)
    (next : s.step (.serial a) = some t) (at_ : s.CallAt call c)
    (ended : s.atClient.ends a = some (c.atd, outcome)) (fails : outcome.refusal? = some cause)
    (unrefused : outcome.refuses = false) : ¬ Dialled t call := by
  have early : outcome = .clientClosed ∨ ∃ line, outcome = .encodeFailed line := by
    cases outcome with
    | returned response =>
        cases ok : response.ok with
        | true =>
            simp only [SendOutcome.refusal?, ModemDriver.dialResult, ok, if_true] at fails
            cases fails
        | false =>
            rw [SendOutcome.refuses, ok] at unrefused
            cases unrefused
    | clientClosed => exact .inl rfl
    | encodeFailed line => exact .inr ⟨line, rfl⟩
    | cancelled => cases fails
    | raised | timedOut | drainFailed => cases unrefused
  rintro ⟨c', at', w, wrote, atd⟩
  obtain ⟨c'', at'', same⟩ := SerialAtClient.callAt_stays wired next at_
  obtain rfl := Option.some.inj (at'.symm.trans at'')
  obtain ⟨atClient, -, stepped, rfl⟩ := SerialAtClient.serial_step next
  rw [SerialAtClient.moved_atClient stepped] at wrote
  have unwritten := AtClient.unwritten_of_ends wired.ordered stepped ended early w.2
  rw [← same, ← atd] at unwritten
  exact unwritten wrote

end History

end HangupLog

end IsalesTelephony.Modem
