/-
# Modem.FirstHangup -- the hangup indication that a call is told of

* `busy_lost_behind_error`: BUSY is read while `dial` waits, then ERROR; the queue that
  the BUSY is put on is dropped, and the call is told of the ERROR;
* `first_hangup_wins`: in a run in which no indication overtakes an earlier one
  (`Timely`), the one remote_hangup of a call has the cause of its first indication.

The invariant (`Sound`) follows an indication to where the call is told of it: a line waits
for its handler, a refusal for the end of its ATD, what is queued for the event stream.
-/
import IsalesTelephony.Modem.HangupLog

namespace IsalesTelephony.Modem

set_option autoImplicit false

open IsalesTelephony.Theory.Transition

namespace HangupLog

/-! ## The run -/

/-- The call may still be told of what is on its queue. -/
def Live (c : Call) : Prop := c.dial = .awaiting ∨ c.stream.isOpen = true

/-- What holds of every timely run. -/
structure Sound (l : HangupLog) : Prop where
  streams : StreamLog.Sound l.streams
  handlers : l.client.atClient.urcHandlers = 1
  parallel : l.stamps.length = l.client.atClient.urcTasks.length
  known : ∀ i ∈ l.indications, ∃ c, l.client.CallAt i.call c
  /-- a stamp is that of a hangup line -/
  stamped : ∀ index number : Nat, l.stamps[index]? = some (some number) →
    ∃ task call cause, l.client.atClient.urcTasks[index]? = some task ∧
      hangupUrcCause task.2.type = some cause ∧ l.indications[number]? = some (.line call cause)
  /-- the lines of a call that is told of no hangup yet wait for their handlers -/
  waiting : ∀ (number call : Nat) (cause : Text), l.client.active = some call →
    Unreported l.client call → l.indications[number]? = some (.line call cause) → some number ∈ l.stamps
  manual : ∀ w ∈ l.client.atClient.written, ∀ call,
    l.client.owners[w.1]? = some (.hangup call) → .manual call ∈ l.indications
  /-- an ATD that is refused does not open a stream -/
  refused : ∀ call cause c, .refused call cause ∈ l.indications → l.client.CallAt call c →
    c.stream.isOpen = false ∧ (c.dial = .awaiting → ∃ why, l.client.refusal = some (call, why))
  queued : ∀ call cause c, l.client.CallAt call c → Live c →
    (∀ why, .refused call why ∉ l.indications) → c.stream.last? = none →
      (l.client.queued call).head? = some cause → l.Tells call cause
  single : ∀ call k cause c, l.client.CallAt call c → c.stream = .single (.remoteHangup k cause) →
    Dialled l.client call → l.Tells call cause
  delivered : ∀ call, Dialled l.client call → ∀ cause ∈ l.hangups call, l.Tells call cause

theorem sound_init : Sound {} where
  streams := StreamLog.sound_init
  handlers := rfl
  parallel := rfl
  known := fun _ listed => by cases listed
  stamped := fun _ _ stamp => by cases stamp
  waiting := fun _ _ _ active => by cases active
  manual := fun _ listed => by cases listed
  refused := fun _ _ _ listed => by cases listed
  queued := fun _ _ _ at_ => by cases at_
  single := fun _ _ _ _ at_ => by cases at_
  delivered := fun _ _ _ listed => by cases listed

section Steps

variable {l m : HangupLog} {action : SerialAction} {call number : Nat} {cause : Text} {c c' : Call}
  {i : Indication}

theorem Sound.wired (sound : Sound l) : l.client.Wired := sound.streams.wired

theorem known_step (sound : Sound l) (next : l.step action = some m) :
    ∀ i ∈ m.indications, ∃ c, m.client.CallAt i.call c := by
  have stepped := client_step next
  have wired' := SerialAtClient.wired_step sound.wired stepped
  have stays : ∀ {k c}, l.client.CallAt k c → ∃ c', m.client.CallAt k c' := fun at_ =>
    (SerialAtClient.callAt_stays sound.wired stepped at_).imp fun _ at' => at'.1
  intro i listed
  rw [(step_eq next).2.1] at listed
  rcases List.mem_append.mp listed with old | new
  · obtain ⟨c, at_⟩ := sound.known i old
    exact stays at_
  · rcases mem_indicated.mp new with heard | fails | isAnswer | isManual
    · obtain ⟨raw, call, cause, -, active, -, rfl⟩ := line_cases heard
      obtain ⟨c, at_⟩ := sound.wired.filled active
      exact stays at_
    · obtain ⟨a, id, outcome, call, number, cause, -, -, owner, -, rfl⟩ := failed_cases fails
      obtain ⟨c, at_, -⟩ := sound.wired.dials owner
      exact stays at_
    · obtain ⟨call, cause, refused, rfl⟩ := answered_cases isAnswer
      obtain ⟨c, at_, -⟩ := SerialAtClient.awaiting_of_refusal wired' refused
      exact ⟨c, at_⟩
    · obtain ⟨w, call, -, owner, rfl⟩ := hungUp_cases isManual
      obtain ⟨c, at_, -⟩ := wired'.hangups owner
      exact ⟨c, at_⟩

theorem read_tasks {raw : Text} (next : l.step (.read raw) = some m) :
    m.client.atClient = l.client.atClient.readLine raw := by
  have stepped := client_step next
  simp only [SerialAtClient.step] at stepped
  split at stepped
  · exact congrArg SerialAtClient.atClient (Option.some.inj stepped).symm
  · cases stepped

theorem urc_tasks {index : Nat} (next : l.step (.urc index) = some m) :
    m.client.atClient.urcTasks = l.client.atClient.urcTasks.eraseIdx index := by
  obtain ⟨task, -, same⟩ := Option.map_eq_some_iff.mp (client_step next)
  rw [← same]
  unfold SerialAtClient.onUrc
  split <;> rfl

/-- The stamps of the tasks that a line starts. -/
theorem read_stamps {raw : Text} (next : l.step (.read raw) = some m) :
    ∃ tasks, m.client.atClient.urcTasks = l.client.atClient.urcTasks ++ tasks ∧
      m.stamps = l.stamps ++ List.replicate tasks.length
        ((line l.client (.read raw)).map fun _ => l.indications.length) ∧
      ∀ cause, hangupLine raw = some cause →
        (¬Overruns raw → tasks.length = l.client.atClient.urcHandlers) ∧
          ∀ task ∈ tasks, hangupUrcCause task.2.type = some cause := by
  obtain ⟨tasks, grown, own⟩ := readLine_tasks l.client.atClient raw
  rw [← read_tasks next] at grown
  refine ⟨tasks, grown, ?_, own⟩
  rw [(step_eq next).2.2, stampsAfter, grown, List.length_append, Nat.add_sub_cancel_left]

theorem stamps_stay (next : l.step action = some m) (unread : action.handlesUrcs = false) :
    m.stamps = l.stamps := by
  rw [(step_eq next).2.2]
  cases action <;> first | rfl | cases unread

theorem parallel_step (sound : Sound l) (next : l.step action = some m) :
    m.stamps.length = m.client.atClient.urcTasks.length := by
  have before := sound.parallel
  cases unread : action.handlesUrcs with
  | false =>
      rw [stamps_stay next unread, SerialAtClient.tasks_stay (client_step next) unread]
      exact before
  | true =>
      cases action with
      | read raw =>
          obtain ⟨tasks, grown, stamps, -⟩ := read_stamps next
          simp [grown, stamps, before]
      | urc index =>
          rw [urc_tasks next, (step_eq next).2.2, stampsAfter, List.length_eraseIdx,
            List.length_eraseIdx, before]
      | _ => cases unread

theorem stamped_step (sound : Sound l) (next : l.step action = some m) (index number : Nat)
    (stamp : m.stamps[index]? = some (some number)) :
    ∃ task call cause, m.client.atClient.urcTasks[index]? = some task ∧
      hangupUrcCause task.2.type = some cause ∧ m.indications[number]? = some (.line call cause) := by
  cases unread : action.handlesUrcs with
  | false =>
      rw [stamps_stay next unread] at stamp
      obtain ⟨task, call, cause, ready, isHangup, isLine⟩ := sound.stamped index number stamp
      rw [SerialAtClient.tasks_stay (client_step next) unread]
      exact ⟨task, call, cause, ready, isHangup, numbered_stays next isLine⟩
  | true =>
      cases action with
      | read raw =>
          obtain ⟨tasks, grown, stamps, own⟩ := read_stamps next
          rw [stamps] at stamp
          by_cases old : index < l.stamps.length
          · rw [List.getElem?_append_left old] at stamp
            obtain ⟨task, call, cause, ready, isHangup, isLine⟩ := sound.stamped index number stamp
            rw [grown, List.getElem?_append_left (sound.parallel ▸ old)]
            exact ⟨task, call, cause, ready, isHangup, numbered_stays next isLine⟩
          · -- the stamp of a new task is that of the line
            rw [List.getElem?_append_right (Nat.le_of_not_lt old)] at stamp
            obtain ⟨bound, isStamp⟩ := List.getElem?_eq_some_iff.mp stamp
            rw [List.length_replicate] at bound
            rw [List.getElem_replicate] at isStamp
            obtain ⟨i, heard, rfl⟩ := Option.map_eq_some_iff.mp isStamp
            obtain ⟨_, call, cause, same, -, isHangup, rfl⟩ := line_cases heard
            obtain rfl := SerialAction.read.inj same
            refine ⟨tasks[index - l.stamps.length], call, cause, ?_, ?_, ?_⟩
            · rw [grown, List.getElem?_append_right (sound.parallel ▸ Nat.le_of_not_lt old),
                ← sound.parallel, List.getElem?_eq_getElem bound]
            · exact (own cause isHangup).2 _ (List.getElem_mem bound)
            · rw [(step_eq next).2.1, List.getElem?_append_right (Nat.le_refl _), Nat.sub_self,
                indicated, heard]
              rfl
      | urc handled =>
          rw [(step_eq next).2.2, stampsAfter, List.getElem?_eraseIdx] at stamp
          rw [urc_tasks next, List.getElem?_eraseIdx]
          split at stamp
          · rename_i sooner
            obtain ⟨task, call, cause, ready, isHangup, isLine⟩ := sound.stamped _ number stamp
            rw [if_pos sooner]
            exact ⟨task, call, cause, ready, isHangup, numbered_stays next isLine⟩
          · rename_i later
            obtain ⟨task, call, cause, ready, isHangup, isLine⟩ := sound.stamped _ number stamp
            rw [if_neg later]
            exact ⟨task, call, cause, ready, isHangup, numbered_stays next isLine⟩
      | _ => cases unread

/-- A call that is told of nothing now was told of nothing before. -/
theorem unreported_before (wired : l.client.Wired) (next : l.step action = some m)
    (active : m.client.active = some call) (at_ : l.client.CallAt call c)
    (unreported : Unreported m.client call) : Unreported l.client call := by
  have stepped := client_step next
  obtain ⟨empty, noLast⟩ := unreported
  constructor
  · cases SerialAtClient.queue_step wired stepped call with
    | same queued => exact queued.symm.trans empty
    | taken _ _ last =>
        rw [noLast] at last
        cases last
    | heard _ _ _ _ queued | manual _ _ _ _ queued | unsent _ _ _ queued =>
        rw [empty] at queued
        exact absurd queued.symm (List.append_ne_nil_of_right_ne_nil _ (List.cons_ne_nil _ _))
  · obtain ⟨c', at', -⟩ := SerialAtClient.callAt_stays wired stepped at_
    rw [StreamLog.stream_eq at'] at noLast
    rw [StreamLog.stream_eq at_]
    exact SerialAtClient.unlast_before wired stepped active at_ at' noLast

theorem waiting_step (sound : Sound l) (timely : l.Timely action) (next : l.step action = some m)
    (active : m.client.active = some call) (unreported : Unreported m.client call)
    (isLine : m.indications[number]? = some (.line call cause)) : some number ∈ m.stamps := by
  have stepped := client_step next
  rw [(step_eq next).2.1] at isLine
  by_cases old : number < l.indications.length
  · rw [List.getElem?_append_left old] at isLine
    obtain ⟨c, at_⟩ := sound.known _ (List.mem_of_getElem? isLine)
    have before : l.client.active = some call := by
      refine (SerialAtClient.active_of_step stepped active).resolve_right ?_
      rintro ⟨-, -, rfl⟩
      exact absurd (List.getElem?_eq_some_iff.mp at_).1 (Nat.lt_irrefl _)
    have silent := unreported_before sound.wired next active at_ unreported
    have waits := sound.waiting number call cause before silent isLine
    cases unread : action.handlesUrcs with
    | false =>
        rw [stamps_stay next unread]
        exact waits
    | true =>
        cases action with
        | read raw =>
            obtain ⟨tasks, -, stamps, -⟩ := read_stamps next
            rw [stamps]
            exact List.mem_append_left _ waits
        | urc handled =>
            obtain ⟨index, stamp⟩ := List.getElem?_of_mem waits
            rw [(step_eq next).2.2, stampsAfter, List.mem_eraseIdx_iff_getElem?]
            refine ⟨index, fun same => ?_, stamp⟩
            -- the handler of the line would tell the call
            subst same
            obtain ⟨task, k, why, ready, isHangup, isOwn⟩ := sound.stamped index number stamp
            have puts := urc_puts sound.wired stepped ready before isHangup
            rw [unreported.1] at puts
            exact absurd puts.symm (List.append_ne_nil_of_right_ne_nil _ (List.cons_ne_nil _ _))
        | _ => cases unread
  · rw [List.getElem?_append_right (Nat.le_of_not_lt old)] at isLine
    obtain ⟨isFirst, heard⟩ := line_numbered isLine
    obtain ⟨raw, k, why, rfl, -, isHangup, same⟩ := line_cases heard
    obtain ⟨tasks, -, stamps, own⟩ := read_stamps next
    rw [stamps, (own why isHangup).1 (timely _ heard), sound.handlers, heard]
    have isNew : number = l.indications.length := by omega
    exact List.mem_append_right _ (by simp [isNew])

theorem manual_step (sound : Sound l) (next : l.step action = some m) (w : Nat × Text)
    (wrote : w ∈ m.client.atClient.written) (owner : m.client.owners[w.1]? = some (.hangup call)) :
    .manual call ∈ m.indications := by
  have stepped := client_step next
  obtain ⟨more, grown⟩ := SerialAtClient.written_prefix stepped
  rw [← grown] at wrote
  rcases List.mem_append.mp wrote with old | new
  · obtain ⟨other, owns, -⟩ := sound.wired.commands w (List.mem_append_left _ old)
    obtain rfl := Option.some.inj ((SerialAtClient.owner_stays stepped owns).symm.trans owner)
    exact indicated_stays next (sound.manual w old call owns)
  · rw [(step_eq next).2.1]
    refine List.mem_append_right _ (mem_indicated.mpr (.inr (.inr (.inr ?_))))
    rw [hungUp, ← grown, List.drop_left]
    exact List.mem_filterMap.mpr ⟨w, new, by rw [owner]⟩

/-- A call that may still be told of a hangup was such a call, or begins. -/
theorem live_before {s t : SerialAtClient} (moves : SerialAtClient.CallMoves s t action call c c')
    (live : Live c') : Live c := by
  cases moves with
  | kept dial stream =>
      rw [Live, dial, stream] at live
      exact live
  | accepted waits => exact .inl waits
  | refused waits dial stream =>
      rcases live with waits' | opened
      · rw [dial] at waits'
        cases waits'
      · rw [stream] at opened
        cases opened
  | cancelled _ _ waits => exact .inl waits
  | running _ _ before => exact .inr before
  | ended _ dial _ isOver =>
      rcases live with waits | opened
      · exact .inl (dial ▸ waits)
      · rw [isOver] at opened
        cases opened

theorem live_active {s : SerialAtClient} (wired : s.Wired) (at_ : s.CallAt call c) (live : Live c) :
    s.active = some call := by
  rcases live with waits | opened
  · exact ((wired.slots at_).awaiting waits).1
  · exact (wired.slots at_).opened opened

/-- A refusal that came before keeps the stream shut, and waits until the ATD ends. -/
theorem refused_old (sound : Sound l) (next : l.step action = some m)
    (old : .refused call cause ∈ l.indications) (at' : m.client.CallAt call c') :
    c'.stream.isOpen = false ∧
      (c'.dial = .awaiting → ∃ why, m.client.refusal = some (call, why)) := by
  have stepped := client_step next
  obtain ⟨c, at_⟩ := sound.known _ old
  obtain ⟨shut, waiting⟩ := sound.refused call cause c old at_
  rcases SerialAtClient.call_step sound.wired stepped at' with ⟨d, here, moves⟩ | begins
  · obtain rfl := Option.some.inj (at_.symm.trans here)
    have stands : c.dial = .awaiting → c'.dial = .awaiting →
        ∃ why, m.client.refusal = some (call, why) := by
      intro waits waits'
      obtain ⟨why, refusal⟩ := waiting waits
      exact ⟨why, SerialAtClient.refusal_stays sound.wired stepped refusal at' waits'⟩
    cases moves with
    | kept dial stream => exact ⟨stream ▸ shut, fun waits => stands (dial ▸ waits) waits⟩
    | accepted waits dial stream =>
        -- the ATD fails
        have isOver : c'.dial ≠ .awaiting := by rw [dial]; decide
        obtain ⟨a, outcome, rfl, ended⟩ :=
          SerialAtClient.ends_of_over sound.wired stepped at_ waits at' isOver
        obtain ⟨why, refusal⟩ := waiting waits
        have isEnd := SerialAtClient.dial_over sound.wired stepped ended at_ at'
        have fails := SerialAtClient.fails_of_refusal sound.wired at_ refusal ended
        rcases isEnd.cases with ⟨cut, -⟩ | ⟨-, -, accepts, uncut⟩ | ⟨_, -, single, -⟩
        · rw [dial] at cut
          cases cut
        · exact absurd accepts (fails.resolve_left uncut)
        · rw [stream] at single
          cases single
    | refused _ dial stream =>
        refine ⟨by rw [stream]; rfl, fun waits => ?_⟩
        rw [dial] at waits
        cases waits
    | cancelled _ _ _ dial stream =>
        refine ⟨stream ▸ shut, fun waits => ?_⟩
        rw [dial] at waits
        cases waits
    | running _ _ before =>
        rw [shut] at before
        cases before
    | ended _ dial _ isOver => exact ⟨isOver, fun waits => stands (dial ▸ waits) waits⟩
  · exact absurd begins.last (Nat.ne_of_lt (List.getElem?_eq_some_iff.mp at_).1)

theorem refused_step (sound : Sound l) (next : l.step action = some m)
    (listed : .refused call cause ∈ m.indications) (at' : m.client.CallAt call c') :
    c'.stream.isOpen = false ∧
      (c'.dial = .awaiting → ∃ why, m.client.refusal = some (call, why)) := by
  have stepped := client_step next
  have wired' := SerialAtClient.wired_step sound.wired stepped
  rw [(step_eq next).2.1] at listed
  rcases List.mem_append.mp listed with old | new
  · exact refused_old sound next old at'
  · rcases mem_indicated.mp new with heard | fails | isAnswer | isManual
    · obtain ⟨_, _, _, -, -, -, same⟩ := line_cases heard
      cases same
    · obtain ⟨a, id, outcome, k, number, why, rfl, ended, owner, fails, same⟩ := failed_cases fails
      obtain ⟨rfl, rfl⟩ := Indication.refused.inj same
      obtain ⟨c, at_, rfl⟩ := sound.wired.dials owner
      have isEnd := SerialAtClient.dial_over sound.wired stepped ended at_ at'
      refine ⟨?_, fun waits => absurd waits isEnd.isOver⟩
      rcases isEnd.cases with ⟨-, -, cut⟩ | ⟨-, -, accepts, -⟩ | ⟨_, -, stream, -⟩
      · simp [SendOutcome.refusal?, cut] at fails
      · rw [fails] at accepts
        cases accepts
      · rw [stream]
        rfl
    · obtain ⟨k, why, refusal, same⟩ := answered_cases isAnswer
      obtain ⟨rfl, rfl⟩ := Indication.refused.inj same
      obtain ⟨c, here, waits⟩ := SerialAtClient.awaiting_of_refusal wired' refusal
      obtain rfl := Option.some.inj (at'.symm.trans here)
      refine ⟨?_, fun _ => ⟨_, refusal⟩⟩
      rw [((wired'.slots at').awaiting waits).2]
      rfl
    · obtain ⟨_, _, -, -, same⟩ := hungUp_cases isManual
      cases same

/-! ### What the call is told -/

theorem isLine_iff : l.IsLine call number = true ↔
    ∃ cause, l.indications[number]? = some (.line call cause) := by
  unfold IsLine
  split
  · rename_i k cause isLine
    constructor
    · intro same
      obtain rfl : k = call := of_decide_eq_true same
      exact ⟨cause, isLine⟩
    · rintro ⟨why, same⟩
      obtain ⟨rfl, -⟩ := Indication.line.inj (Option.some.inj (isLine.symm.trans same))
      exact decide_eq_true rfl
  · rename_i other
    constructor
    · intro same
      cases same
    · rintro ⟨why, isLine⟩
      exact absurd isLine (other call why)

/-- A line in its turn is the first indication of its call. -/
theorem tells_of_line (sound : Sound l) (active : l.client.active = some call)
    (unreported : Unreported l.client call) (unrefused : ∀ why, .refused call why ∉ l.indications)
    (inTurn : l.InTurn call number) (isLine : l.indications[number]? = some (.line call cause)) :
    l.Tells call cause := by
  obtain ⟨-, unasked, handled⟩ := inTurn
  obtain ⟨j, isFirst⟩ := first_of_mem (List.mem_of_getElem? isLine)
  obtain ⟨own, n, here, before⟩ := first_numbered isFirst
  rw [Tells, show l.first call = some j from isFirst]
  rcases Nat.lt_trichotomy n number with sooner | rfl | later
  · exfalso
    cases j with
    | line k why =>
        obtain rfl : k = call := own
        have waits := sound.waiting n k why active unreported here
        have ready := handled _ waits n rfl sooner
        rw [isLine_iff.mpr ⟨why, here⟩] at ready
        cases ready
    | refused k why =>
        obtain rfl : k = call := own
        exact unrefused why (List.mem_of_getElem? here)
    | manual k =>
        obtain rfl : k = call := own
        refine unasked (List.mem_of_getElem? (i := n) ?_)
        rw [List.getElem?_take_of_lt sooner]
        exact here
  · obtain rfl := Option.some.inj (here.symm.trans isLine)
    rfl
  · exact absurd rfl (before number _ later isLine)

/-- An ATH that ends behind no line is the first indication of its call. -/
theorem tells_of_manual (sound : Sound l) (active : l.client.active = some call)
    (unreported : Unreported l.client call) (unrefused : ∀ why, .refused call why ∉ l.indications)
    (asked : .manual call ∈ l.indications)
    (inTurn : ∀ stamp ∈ l.stamps, ∀ number ∈ stamp, l.IsLine call number = true →
      .manual call ∈ l.indications.take number) : l.Tells call "manual_hangup".toList := by
  obtain ⟨j, isFirst⟩ := first_of_mem asked
  obtain ⟨own, n, here, before⟩ := first_numbered isFirst
  rw [Tells, show l.first call = some j from isFirst]
  cases j with
  | line k why =>
      obtain rfl : k = call := own
      have waits := sound.waiting n k why active unreported here
      have sooner := inTurn _ waits n rfl (isLine_iff.mpr ⟨why, here⟩)
      obtain ⟨earlier, there⟩ := List.getElem?_of_mem sooner
      rw [List.getElem?_take] at there
      split at there
      · rename_i less
        exact absurd rfl (before earlier _ less there)
      · cases there
  | refused k why =>
      obtain rfl : k = call := own
      exact absurd (List.mem_of_getElem? here) (unrefused why)
  | manual k => rfl

/-- **What is queued** first is what was indicated first. -/
theorem queued_step (sound : Sound l) (timely : l.Timely action) (next : l.step action = some m)
    (at' : m.client.CallAt call c') (live' : Live c')
    (unrefused' : ∀ why, .refused call why ∉ m.indications) (noLast' : c'.stream.last? = none)
    (head' : (m.client.queued call).head? = some cause) : m.Tells call cause := by
  have stepped := client_step next
  have wired' := SerialAtClient.wired_step sound.wired stepped
  have active' := live_active wired' at' live'
  have unrefused : ∀ why, .refused call why ∉ l.indications := fun why old =>
    unrefused' why (indicated_stays next old)
  have moves := SerialAtClient.queue_step sound.wired stepped call
  rcases SerialAtClient.call_step sound.wired stepped at' with ⟨c, at_, moved⟩ | begins
  · have live := live_before moved live'
    have active := live_active sound.wired at_ live
    have noLast := SerialAtClient.unlast_before sound.wired stepped active' at_ at' noLast'
    have kept : (l.client.queued call).head? = some cause → m.Tells call cause := fun head =>
      (sound.queued call cause c at_ live unrefused noLast head).step next
    -- the first hangup put on the queue
    have put : ∀ {why}, m.client.queued call = l.client.queued call ++ [why] →
        (Unreported l.client call → l.Tells call why) → m.Tells call cause := by
      intro why queued tells
      cases before : l.client.queued call with
      | nil =>
          rw [queued, before] at head'
          obtain rfl := Option.some.inj head'
          refine (tells ⟨before, ?_⟩).step next
          rw [StreamLog.stream_eq at_]
          exact noLast
      | cons first rest =>
          rw [queued, before] at head'
          exact kept (by rw [before]; exact head')
    cases moves with
    | same queued => exact kept (queued ▸ head')
    | taken _ _ last =>
        rw [StreamLog.stream_eq at', noLast'] at last
        cases last
    | @heard index task why from_ ready _ isHangup queued =>
        subst from_
        refine put queued fun unreported => ?_
        obtain ⟨stamp, isStamp, number, isNumber, inTurn⟩ :=
          timely task ready call active (by simp [isHangup]) unreported
        obtain rfl := isNumber
        obtain ⟨other, k, cause, isReady, isCause, isLine⟩ := sound.stamped index number isStamp
        obtain rfl := Option.some.inj (ready.symm.trans isReady)
        obtain rfl := Option.some.inj (isHangup.symm.trans isCause)
        obtain ⟨cause, own⟩ := isLine_iff.mp inTurn.1
        obtain ⟨rfl, -⟩ := Indication.line.inj (Option.some.inj (isLine.symm.trans own))
        exact tells_of_line sound active unreported unrefused inTurn isLine
    | @manual a id outcome from_ ended owner uncut queued =>
        subst from_
        refine put queued fun unreported => ?_
        have inTurn := timely (id, outcome) ended
        simp only [EndsInTurn, owner] at inTurn
        have unsent : ∀ command, a ≠ .send command := by
          rintro command rfl
          obtain ⟨_, may, -⟩ := SerialAtClient.serial_step stepped
          cases may
        obtain ⟨command, wrote⟩ :=
          SerialAtClient.hangup_wrote sound.wired owner ended unsent uncut
        exact tells_of_manual sound active unreported unrefused (sound.manual _ wrote call owner)
          (inTurn uncut unreported)
    | unsent from_ _ closed queued =>
        subst from_
        refine put queued fun unreported => ?_
        rw [timely active unreported] at closed
        cases closed
  · rw [SerialAtClient.queued_begins moves begins] at head'
    cases head'

/-- An ATD that fails is the first indication of its call, or has its cause. -/
theorem tells_of_failure {a : AtAction} {outcome : SendOutcome} (sound : Sound l)
    (timely : l.Timely (.serial a)) (next : l.step (.serial a) = some m)
    (at_ : l.client.CallAt call c) (ended : l.client.atClient.ends a = some (c.atd, outcome))
    (fails : outcome.refusal? = some cause) (refuses : outcome.refuses = true) :
    m.Tells call cause := by
  have owner := sound.wired.owned at_
  cases isFirst : l.first call with
  | some i =>
      have inTurn := timely _ ended
      simp only [EndsInTurn, owner] at inTurn
      rw [Tells, first_stays next isFirst, Option.map_some, inTurn cause fails i isFirst]
  | none =>
      have new : failed l.client (.serial a) = some (.refused call cause) := by
        simp only [failed, ended, owner, refuses, fails, if_true, Option.map_some]
      have shape : indicated l.client m.client (.serial a) = .refused call cause ::
          ((answered l.client m.client).toList ++ hungUp l.client m.client) := by
        rw [indicated, new]
        simp only [line, Option.toList_none, Option.toList_some, List.nil_append,
          List.cons_append]
      have nowFirst : m.first call = some (.refused call cause) := by
        rw [first, (step_eq next).2.1, List.find?_append,
          show l.indications.find? _ = none from isFirst, shape, List.find?_cons,
          show decide ((Indication.refused call cause).call = call) = true from decide_eq_true rfl]
        rfl
      rw [Tells, nowFirst]
      rfl

/-- A stream that moves is no longer at the event of a failed dial. -/
theorem unsingle_of_moves {s t : SerialAtClient} {event : AtEvent} (wired : s.Wired)
    (next : s.step action = some t) (moves : action.stream? = some call)
    (at' : t.CallAt call c') : c'.stream ≠ .single event := by
  intro single
  cases action with
  | next k =>
      obtain rfl := Option.some.inj moves
      obtain ⟨c, d, -, here, -, turn⟩ := StreamLog.next_stream wired next
      obtain rfl := Option.some.inj (at'.symm.trans here)
      rw [single] at turn
      generalize c.stream = before at turn
      cases turn
  | wake k =>
      obtain rfl := Option.some.inj moves
      obtain ⟨c, d, -, here, -, turn⟩ := StreamLog.wake_stream wired next
      obtain rfl := Option.some.inj (at'.symm.trans here)
      rw [single] at turn
      generalize c.stream = before at turn
      cases turn
  | close k =>
      obtain rfl := Option.some.inj moves
      obtain ⟨c, -, closes⟩ := Option.bind_eq_some_iff.mp next
      rw [StreamLog.closeStream_stream closes at'] at single
      cases single
  | _ => cases moves

/-- **What a failed dial tells** was indicated first. -/
theorem single_step {k : Nat} (sound : Sound l) (timely : l.Timely action)
    (next : l.step action = some m) (at' : m.client.CallAt call c')
    (stream' : c'.stream = .single (.remoteHangup k cause)) (dialled : Dialled m.client call) :
    m.Tells call cause := by
  have stepped := client_step next
  rcases SerialAtClient.call_step sound.wired stepped at' with ⟨c, at_, moves⟩ | begins
  · cases moves with
    | kept _ same =>
        rw [stream'] at same
        have isOver : c.dial ≠ .awaiting := (sound.wired.slots at_).isOver fun absent => by
          rw [absent] at same
          cases same
        have before := dialled_before sound.wired stepped at_ isOver dialled
        exact (sound.single call k cause c at_ same.symm before).step next
    | accepted _ _ stream =>
        rw [stream'] at stream
        cases stream
    | @refused why waits dial stream =>
        have isOver : c'.dial ≠ .awaiting := by rw [dial]; decide
        obtain ⟨a, outcome, rfl, ended⟩ :=
          SerialAtClient.ends_of_over sound.wired stepped at_ waits at' isOver
        have fails : outcome.refusal? = some cause := by
          have isEnd := SerialAtClient.dial_over sound.wired stepped ended at_ at'
          rcases isEnd.cases with ⟨cut, -⟩ | ⟨-, unstarted, -⟩ | ⟨_, -, single, fails⟩
          · rw [dial] at cut
            cases cut
          · rw [stream'] at unstarted
            cases unstarted
          · rw [stream'] at single
            cases single
            exact fails
        cases refuses : outcome.refuses with
        | false =>
            exact absurd dialled
              (undialled_of_ends sound.wired stepped at_ ended fails refuses)
        | true => exact tells_of_failure sound timely next at_ ended fails refuses
    | cancelled _ _ waits _ stream =>
        rw [stream', ((sound.wired.slots at_).awaiting waits).2] at stream
        cases stream
    | running _ _ _ now =>
        rw [stream'] at now
        cases now
    | ended moves =>
        exact absurd stream' (unsingle_of_moves sound.wired stepped moves at')
  · exact absurd dialled (undialled_new sound.wired stepped begins.last at')

/-- The stream that moves yields what is handed over. -/
theorem hangups_step (next : l.step action = some m) (told : cause ∈ m.hangups call) :
    cause ∈ l.hangups call ∨ ∃ event, hangupOf (some event) = some cause ∧
      StreamLog.handed l.client m.client action = some (call, event) := by
  have streams := (step_eq next).1
  unfold hangups at told ⊢
  by_cases moves : action.stream? = some call
  · rw [StreamLog.yieldsOf_moves streams moves, List.filterMap_append] at told
    refine (List.mem_append.mp told).imp_right fun new => ?_
    obtain ⟨event, handed, isHangup⟩ := List.mem_filterMap.mp new
    obtain ⟨⟨k, event⟩, isHanded, rfl⟩ := Option.map_eq_some_iff.mp (Option.mem_toList.mp handed)
    obtain rfl : k = call :=
      Option.some.inj ((StreamLog.handed_stream isHanded).symm.trans moves)
    exact ⟨event, isHangup, isHanded⟩
  · rw [StreamLog.yieldsOf_other streams moves] at told
    exact .inl told

/-- A stream that has yielded is that of a dial that is over. -/
theorem over_of_hangups (sound : Sound l) (told : cause ∈ l.hangups call) :
    ∃ c, l.client.CallAt call c ∧ c.dial ≠ .awaiting := by
  have some_ : l.streams.yieldsOf call ≠ [] := by
    intro empty
    rw [hangups, empty] at told
    cases told
  cases at_ : l.client.calls[call]? with
  | none => exact absurd (sound.streams.fresh (List.getElem?_eq_none_iff.mp at_)) some_
  | some c =>
      refine ⟨c, at_, (sound.wired.slots at_).isOver fun absent => some_ ?_⟩
      have yielded := sound.streams.told call c at_
      rw [absent] at yielded
      exact yielded

/-- A hangup that the stream of a call yields. -/
theorem delivered_step (sound : Sound l) (next : l.step action = some m)
    (dialled : Dialled m.client call) (told : cause ∈ m.hangups call) : m.Tells call cause := by
  have stepped := client_step next
  rcases hangups_step next told with old | ⟨event, isHangup, isHanded⟩
  · obtain ⟨c, at_, isOver⟩ := over_of_hangups sound old
    have before := dialled_before sound.wired stepped at_ isOver dialled
    exact (sound.delivered call before cause old).step next
  · unfold StreamLog.handed at isHanded
    split at isHanded
    · -- the one event of a failed dial
      rename_i k
      obtain ⟨c, at_, -⟩ := Option.bind_eq_some_iff.mp stepped
      split at isHanded
      · rename_i other stream
        obtain ⟨rfl, rfl⟩ := Prod.mk.inj (Option.some.inj isHanded)
        rw [StreamLog.stream_eq at_] at stream
        have isOver : c.dial ≠ .awaiting := (sound.wired.slots at_).isOver fun absent => by
          rw [absent] at stream
          cases stream
        have before := dialled_before sound.wired stepped at_ isOver dialled
        cases other with
        | connected => cases isHangup
        | remoteHangup j why =>
            obtain rfl := Option.some.inj isHangup
            exact (sound.single k j why c at_ stream before).step next
      · cases isHanded
    · -- the first hangup on the queue
      rename_i k
      split at isHanded
      · rename_i source seen other stream
        obtain ⟨rfl, rfl⟩ := Prod.mk.inj (Option.some.inj isHanded)
        have last : (StreamLog.stream m.client k).last? = some cause := by
          rw [stream]
          exact isHangup
        obtain ⟨head, c, source', seen', at_, waits⟩ :=
          SerialAtClient.wake_takes sound.wired stepped last
        have opened : c.stream.isOpen = true := by rw [waits]; rfl
        refine (sound.queued k cause c at_ (.inr opened) (fun why refused => ?_) ?_ head).step next
        · rw [(sound.refused k why c refused at_).1] at opened
          cases opened
        · rw [waits]
          rfl
      · cases isHanded
    · cases isHanded

/-- **One step.** -/
theorem sound_step (sound : Sound l) (timely : l.Timely action) (next : l.step action = some m) :
    Sound m where
  streams := StreamLog.sound_step sound.streams (step_eq next).1
  handlers := (SerialAtClient.handlers_step (client_step next)).trans sound.handlers
  parallel := parallel_step sound next
  known := known_step sound next
  stamped := stamped_step sound next
  waiting := fun _ _ _ active unreported isLine =>
    waiting_step sound timely next active unreported isLine
  manual := fun w wrote _ owner => manual_step sound next w wrote owner
  refused := fun _ _ _ listed at' => refused_step sound next listed at'
  queued := fun _ _ _ at' live unrefused noLast head =>
    queued_step sound timely next at' live unrefused noLast head
  single := fun _ _ _ _ at' stream dialled => single_step sound timely next at' stream dialled
  delivered := fun _ dialled _ told => delivered_step sound next dialled told

end Steps

/-! ### Main result -/

theorem sound_of_reachable {l : HangupLog} (run : Reachable step Timely {} l) : Sound l :=
  run.invariant sound_init fun _ _ _ sound timely next => sound_step sound timely next

/-- **The first hangup indication wins**, in every run in which no ATD fails behind an
indication of another cause, no hangup line is handled behind an ATH or an earlier line of
its call, or for a call whose ATD came after it, no ATH ends before an earlier line is
handled, and no hangup line is too long for the reader. -/
theorem first_hangup_wins (l : HangupLog) (run : Reachable step Timely {} l) : FirstWins l := by
  have sound := sound_of_reachable run
  rintro call ⟨c, at_, wrote⟩ cause told
  refine ⟨?_, sound.delivered call ⟨c, at_, wrote⟩ cause told⟩
  obtain ⟨complete, ⟨connected, hangup, events, first, last⟩, -⟩ :=
    (sound.streams.told call c at_).word
  have silent : connected.filterMap (fun event => hangupOf (some event)) = [] := by
    rcases first with rfl | rfl <;> rfl
  have all : l.hangups call = hangup.filterMap fun event => hangupOf (some event) := by
    rw [hangups, events, List.filterMap_append, silent, List.nil_append]
  rw [all] at told ⊢
  cases complete with
  | true =>
      obtain ⟨why, rfl⟩ := last
      obtain rfl := List.mem_singleton.mp told
      rfl
  | false =>
      rw [show hangup = [] from last] at told
      cases told

/-! ## Poles -/

/-- BUSY is read while `dial` waits; the ATD is accepted, and the line drops. -/
def busyThenOk : List SerialAction :=
  [.dial "10086".toList, .serial .acquire, .serial .drained, .read "BUSY".toList,
    .read "OK".toList, .urc 0, .serial .receive, .read "NO CARRIER".toList, .next 0, .wake 0]

theorem busy_then_ok_runs : (guardedRun step Timely {} busyThenOk).isSome = true := by decide

theorem busy_while_dialling_wins :
    (Option.get _ busy_then_ok_runs).hangups 0 = ["user_busy".toList] ∧
      FirstWins (Option.get _ busy_then_ok_runs) :=
  ⟨by decide, first_hangup_wins _ (reachable_guarded_get busy_then_ok_runs)⟩

/-- BUSY is read while `dial` waits, and then ERROR. -/
def busyThenError : List SerialAction :=
  [.dial "10086".toList, .serial .acquire, .serial .drained, .read "BUSY".toList,
    .read "ERROR".toList, .urc 0, .serial .receive, .next 0]

theorem busy_then_error_runs : (run step {} busyThenError).isSome = true := by decide

theorem busy_lost_behind_error :
    ¬ ∀ l : HangupLog, Reachable step Free {} l → FirstWins l := by
  intro claim
  have told : "network_out_of_order".toList ∈ (Option.get _ busy_then_error_runs).hangups 0 := by
    decide
  have busy : ((Option.get _ busy_then_error_runs).first 0).map (·.cause) ≠
      some "network_out_of_order".toList := by decide
  exact busy (claim _ (reachable_get busy_then_error_runs) 0 (by decide) _ told).2

end HangupLog

end IsalesTelephony.Modem
