/-
# Modem.QueuedHangups -- the hangups on a call's queue, and the end of its ATD

What a step does to the hangups queued for a call (`QueueMoves`, `queue_step`): the
handler task of a URC and an ATH that ends put one, the event stream takes one, and
everything else leaves them.  What the end of an ATD does to its call (`Ended`,
`dial_step`, `dial_over`), and which ATD has an answer waiting that refuses it
(`refusal`, `refusal_stays`).
-/
import IsalesTelephony.Modem.Attended
import IsalesTelephony.Modem.Streams

namespace IsalesTelephony.Modem

set_option autoImplicit false

/-- The cause of a hangup event. -/
def hangupOf : Option AtEvent → Option Text
  | some (.remoteHangup _ cause) => some cause
  | _ => none

/-- The cause of the hangup that the stream is at. -/
def StreamPc.last? : StreamPc → Option Text
  | .yielded _ _ event => hangupOf (some event)
  | _ => none

/-- The cause of the one event of a dial whose ATD ended so. -/
def SendOutcome.refusal? (outcome : SendOutcome) : Option Text :=
  match ModemDriver.dialResult outcome with
  | some result =>
      if result.connected then none
      else some (result.hangupCause.getD "network_out_of_order".toList)
  | none => none

namespace SerialAtClient

variable {s t : SerialAtClient} {call k : Nat} {c c' : Call} {f : Call → Call}
  {action : SerialAction}

/-! ## What is queued -/

/-- The causes of the hangups on the queue of a call, in order. -/
def queued (s : SerialAtClient) (call : Nat) : List Text :=
  ((s.calls[call]?.map (·.queue)).getD []).filterMap hangupOf

theorem queued_eq (at_ : s.CallAt call c) : s.queued call = c.queue.filterMap hangupOf := by
  simp [queued, show s.calls[call]? = some c from at_]

theorem queued_absent (absent : s.calls.length ≤ call) : s.queued call = [] := by
  simp [queued, List.getElem?_eq_none absent]

theorem queued_congr (calls : t.calls = s.calls) : t.queued k = s.queued k := by
  rw [queued, calls]
  rfl

/-- A change of one call that leaves the hangups on its queue. -/
theorem queued_modify
    (same : ∀ c, s.CallAt call c → (f c).queue.filterMap hangupOf = c.queue.filterMap hangupOf) :
    (s.modify call f).queued k = s.queued k := by
  by_cases known : k < s.calls.length
  · obtain ⟨c, at_⟩ : ∃ c, s.CallAt k c := ⟨_, List.getElem?_eq_getElem known⟩
    rw [queued_eq (modify_callAt.mpr ⟨c, at_, rfl⟩), queued_eq at_]
    split
    · rename_i here
      subst here
      exact same c at_
    · rfl
  · have absent : s.calls.length ≤ k := Nat.le_of_not_lt known
    have longer : (s.modify call f).calls.length ≤ k := by simpa [modify] using absent
    rw [queued_absent absent, queued_absent longer]

theorem queued_put_plain {item : Option AtEvent} (plain : hangupOf item = none) :
    (s.put call item).queued k = s.queued k :=
  queued_modify fun c _ => by simp [plain]

theorem queued_put_other {item : Option AtEvent} (other : k ≠ call) :
    (s.put call item).queued k = s.queued k := by
  simp [queued, put, modify, Ne.symm other]

theorem queued_put_absent {item : Option AtEvent} (absent : s.calls.length ≤ call) :
    (s.put call item).queued k = s.queued k := by
  simp [queued, put, modify, List.modify_eq_self absent]

theorem queued_put {item : Option AtEvent} {cause : Text} (at_ : s.CallAt call c)
    (hangup : hangupOf item = some cause) :
    (s.put call item).queued call = s.queued call ++ [cause] := by
  have here : (s.put call item).CallAt call { c with queue := c.queue ++ [item] } :=
    modify_callAt.mpr ⟨c, at_, by simp⟩
  rw [queued_eq here, queued_eq at_, List.filterMap_append]
  simp [hangup]

theorem queued_cancelPoller : s.cancelPoller.queued k = s.queued k := by
  unfold cancelPoller
  split
  · refine queued_modify fun c _ => ?_
    split <;> rfl
  · rfl

theorem queued_resetCallState : s.resetCallState.queued k = s.queued k :=
  (queued_congr rfl).trans queued_cancelPoller

theorem queued_setStream {stream : StreamPc} : (s.setStream call stream).queued k = s.queued k :=
  queued_modify fun _ _ => rfl

theorem queued_endStream : (s.endStream call).queued k = s.queued k := by
  unfold endStream
  dsimp only
  split
  · exact queued_resetCallState.trans queued_setStream
  · exact queued_setStream

/-! ### A send ends -/

theorem queued_dialEnded {outcome : SendOutcome} :
    (s.dialEnded call outcome).queued k = s.queued k := by
  unfold dialEnded
  split
  · exact queued_modify fun _ _ => rfl
  · split
    · rename_i result _ _
      have accepted : (s.modify call fun c =>
          { c with dial := .returned, stream := .unstarted, poller := .sleeping }).queued k =
            s.queued k := queued_modify fun _ _ => rfl
      exact (queued_congr rfl).trans accepted
    · refine (queued_modify fun _ _ => ?_).trans queued_resetCallState
      rfl

theorem queued_pollEnded {outcome : SendOutcome} :
    (s.pollEnded call outcome).queued k = s.queued k := by
  have again : (s.pollAgain call).queued k = s.queued k := queued_modify fun _ _ => rfl
  have done : (s.modify call fun c => { c with poller := .done }).queued k = s.queued k :=
    queued_modify fun _ _ => rfl
  cases outcome with
  | returned response =>
      simp only [pollEnded]
      split
      · split
        · exact (queued_put_plain rfl).trans done
        · exact done
      · exact again
  | raised | timedOut | clientClosed => exact again
  | encodeFailed | drainFailed | cancelled => exact done

/-- Only an ATH that ends puts a hangup, for its call. -/
theorem queued_settle {id : Nat} {outcome : SendOutcome} :
    (s.settle (id, outcome)).queued k = s.queued k ∨
      s.owners[id]? = some (.hangup k) ∧ outcome ≠ .cancelled ∧
        (s.settle (id, outcome)).queued k = s.queued k ++ ["manual_hangup".toList] := by
  unfold settle
  split
  · exact .inl queued_dialEnded
  · rename_i call owner
    unfold hangupEnded
    split
    · exact .inl rfl
    · rename_i uncut
      by_cases known : k < s.calls.length
      · by_cases mine : k = call
        · subst mine
          exact .inr ⟨owner, uncut, queued_put (List.getElem?_eq_getElem known) rfl⟩
        · exact .inl (queued_put_other mine)
      · left
        by_cases mine : k = call
        · subst mine
          exact queued_put_absent (Nat.le_of_not_lt known)
        · exact queued_put_other mine
  · exact .inl queued_pollEnded
  · exact .inl rfl

theorem queued_send {owner : Owner} (counted : s.owners.length = s.atClient.nextSend) :
    (s.send owner).queued k = s.queued k ∨
      owner = .hangup k ∧ s.atClient.closed = true ∧
        (s.send owner).queued k = s.queued k ++ ["manual_hangup".toList] := by
  rw [send_eq]
  dsimp only
  split
  · rename_i closed
    rcases queued_settle (s := { s with
        owners := s.owners ++ [owner]
        atClient := s.atClient.callSend owner.command }) with same | ⟨isOwner, -, put⟩
    · exact .inl same
    · have isOwner : (s.owners ++ [owner])[s.atClient.nextSend]? = _ := isOwner
      rw [getElem?_snoc, if_pos counted.symm] at isOwner
      exact .inr ⟨Option.some.inj isOwner, closed, put⟩
  · exact .inl rfl

/-! ### Any step -/

/-- What one step does to the hangups queued for a call. -/
inductive QueueMoves (s t : SerialAtClient) (action : SerialAction) (call : Nat) : Prop
  | same (queued : t.queued call = s.queued call)
  | taken {cause : Text} (from_ : action = .wake call)
      (queued : s.queued call = cause :: t.queued call)
      (last : (StreamLog.stream t call).last? = some cause)
  | heard {index : Nat} {task : Nat × Urc} {cause : Text} (from_ : action = .urc index)
      (ready : s.atClient.urcTasks[index]? = some task) (active : s.active = some call)
      (hangup : hangupUrcCause task.2.type = some cause)
      (queued : t.queued call = s.queued call ++ [cause])
  | manual {a : AtAction} {id : Nat} {outcome : SendOutcome} (from_ : action = .serial a)
      (ended : s.atClient.ends a = some (id, outcome)) (owner : s.owners[id]? = some (.hangup call))
      (uncut : outcome ≠ .cancelled)
      (queued : t.queued call = s.queued call ++ ["manual_hangup".toList])
  | unsent (from_ : action = .hangup call) (active : s.active = some call)
      (closed : s.atClient.closed = true)
      (queued : t.queued call = s.queued call ++ ["manual_hangup".toList])

theorem queued_gotItem {source : Nat} {seen : Bool} {item : Option AtEvent} :
    (s.gotItem call source seen item).queued k = s.queued k := by
  unfold gotItem
  split
  · exact queued_endStream
  · split
    · rfl
    · exact queued_setStream
  · exact queued_setStream

/-- `queue.get()` of a stream takes the head of the queue of its call. -/
theorem queue_got {seen : Bool} {item : Option AtEvent} {rest : List (Option AtEvent)}
    (at_ : s.CallAt call c) (queue : c.queue = item :: rest) :
    QueueMoves s ((s.modify call fun c => { c with queue := rest }).gotItem call call seen item)
      (.wake call) k := by
  have popped : (s.modify call fun c => { c with queue := rest }).CallAt call
      { c with queue := rest } := modify_callAt.mpr ⟨c, at_, by simp⟩
  by_cases mine : k = call
  · subst mine
    cases hangup : hangupOf item with
    | none =>
        refine .same (queued_gotItem.trans (queued_modify fun d here => ?_))
        obtain rfl := Option.some.inj (here.symm.trans at_)
        simp [queue, hangup]
    | some cause =>
        refine @QueueMoves.taken _ _ _ _ cause rfl ?_ ?_
        · rw [queued_gotItem, queued_eq popped, queued_eq at_, queue]
          simp [hangup]
        · rcases item with _ | ⟨j⟩ | ⟨j, why⟩
          · cases hangup
          · cases hangup
          · obtain rfl := Option.some.inj hangup
            have now : ((s.modify k fun c => { c with queue := rest }).setStream k
                (.yielded k seen (.remoteHangup j why))).CallAt k _ :=
              modify_callAt.mpr ⟨_, popped, rfl⟩
            simp only [gotItem]
            rw [StreamLog.stream_eq now, StreamLog.setStream_stream now]
            rfl
  · refine .same (queued_gotItem.trans ?_)
    simp [queued, modify, Ne.symm mine]

/-- **One step.**  The hangups queued for a call. -/
theorem queue_step (wired : Wired s) (next : s.step action = some t) (k : Nat) :
    QueueMoves s t action k := by
  cases step_cases next with
  | dialRefused | hangupIgnored | read | eof | urcIgnored | acloseSerial => exact .same rfl
  | @dial number free =>
      have taken : (s.taken number).queued k = s.queued k := by
        by_cases known : k < s.calls.length
        · simp [queued, SerialAtClient.taken, List.getElem?_append_left known]
        · rw [queued_absent (Nat.le_of_not_lt known)]
          cases at_ : (s.taken number).calls[k]? with
          | none => simp [queued, at_]
          | some c =>
              rcases taken_callAt.mp at_ with before | ⟨-, rfl⟩
              · exact absurd (List.getElem?_eq_some_iff.mp before).1 known
              · simp [queued, at_]
      rcases @queued_send (s.taken number) k (.dial s.calls.length number) wired.counted with
        same | ⟨isHangup, -⟩
      · exact .same (same.trans taken)
      · cases isHangup
  | hangup active =>
      rcases queued_send wired.counted with same | ⟨isHangup, closed, put⟩
      · exact .same same
      · obtain rfl := Owner.hangup.inj isHangup
        exact .unsent rfl active closed put
  | query query =>
      rcases queued_send wired.counted with same | ⟨isHangup, -⟩
      · exact .same same
      · cases isHangup
  | @serial a atClient may stepped =>
      rw [moved_eq stepped]
      cases isEnd : s.atClient.ends a with
      | none => exact .same rfl
      | some ended =>
          obtain ⟨id, outcome⟩ := ended
          rcases queued_settle (s := { s with atClient := atClient }) with
            same | ⟨owner, uncut, put⟩
          · exact .same same
          · exact .manual rfl isEnd owner uncut put
  | @urc index task call cause ready active hangup =>
      obtain ⟨c, at_⟩ := wired.filled active
      by_cases mine : k = call
      · subst mine
        have dropped : (s.dropTask index).CallAt k c := at_
        exact .heard rfl ready active hangup (queued_put dropped rfl)
      · exact .same (queued_put_other mine)
  | @poll call c at_ sleeping active =>
      have polling : (s.modify call fun c => { c with poller := .polling }).queued k = s.queued k :=
        queued_modify fun _ _ => rfl
      rcases @queued_send (s.modify call fun c => { c with poller := .polling }) k (.poll call)
        wired.counted with same | ⟨isHangup, -⟩
      · exact .same (same.trans polling)
      · cases isHangup
  | pollDone => exact .same (queued_modify fun _ _ => rfl)
  | streamStarted | streamResumed | streamShut => exact .same queued_setStream
  | streamOver | streamClosed => exact .same queued_endStream
  | @got call source c from_ seen item rest at_ stream reads queue =>
      obtain rfl : source = call := (wired.slots at_).source source (by rw [stream]; rfl)
      exact queue_got reads queue
  | aclose =>
      refine .same ((queued_put_plain rfl).trans (queued_cancelPoller.trans ?_))
      exact queued_congr rfl
  | acloseIdle => exact .same (queued_cancelPoller.trans (queued_congr rfl))

/-- A stream that comes to a hangup has taken it from the head of the queue. -/
theorem wake_takes {cause : Text} (wired : Wired s) (next : s.step (.wake k) = some t)
    (last : (StreamLog.stream t k).last? = some cause) :
    (s.queued k).head? = some cause ∧
      ∃ c source seen, s.CallAt k c ∧ c.stream = .waiting source seen := by
  obtain ⟨c, at_, taken⟩ := Option.bind_eq_some_iff.mp next
  unfold wakeStream at taken
  split at taken
  · rename_i source seen stream
    refine ⟨?_, c, source, seen, at_, stream⟩
    obtain ⟨from_, reads, popped⟩ := Option.bind_eq_some_iff.mp taken
    obtain rfl : source = k := (wired.slots at_).source source (by rw [stream]; rfl)
    obtain rfl := Option.some.inj (reads.symm.trans at_)
    split at popped
    · rename_i item rest queue
      obtain rfl := Option.some.inj popped
      have here : (s.modify source fun c => { c with queue := rest }).CallAt source
          { from_ with queue := rest } := modify_callAt.mpr ⟨from_, at_, by simp⟩
      obtain ⟨d, now⟩ : ∃ d, ((s.modify source fun c => { c with queue := rest }).gotItem source
          source seen item).CallAt source d := (callAt_stays wired next at_).imp fun _ now => now.1
      rw [StreamLog.stream_eq now] at last
      rcases item with _ | ⟨j⟩ | ⟨j, why⟩
      · rw [StreamLog.endStream_stream now] at last
        cases last
      · cases seen with
        | true =>
            obtain rfl := Option.some.inj (here.symm.trans now)
            have waits : ({ from_ with queue := rest } : Call).stream = _ := stream
            rw [waits] at last
            cases last
        | false =>
            rw [StreamLog.setStream_stream now] at last
            cases last
      · rw [StreamLog.setStream_stream now] at last
        obtain rfl := Option.some.inj last
        rw [queued_eq at_, queue]
        rfl
    · cases popped
  · cases taken

/-! ## The hangup that a stream is at -/

/-- A stream that moves on from its hangup lets go of the slot. -/
theorem freed_of_last {cause : Text} (next : s.step action = some t)
    (moves : action.stream? = some k) (at_ : s.CallAt k c) (last : c.stream.last? = some cause) :
    t.active ≠ some k := by
  have isAt : ∃ source seen j, c.stream = .yielded source seen (.remoteHangup j cause) := by
    cases stream : c.stream with
    | yielded source seen event =>
        cases event with
        | connected => simp [stream, StreamPc.last?, hangupOf] at last
        | remoteHangup j why =>
            rw [stream] at last
            obtain rfl := Option.some.inj last
            exact ⟨source, seen, j, rfl⟩
    | _ => simp [stream, StreamPc.last?] at last
  obtain ⟨source, seen, j, stream⟩ := isAt
  cases action with
  | next call =>
      obtain rfl := Option.some.inj moves
      obtain ⟨d, here, taken⟩ := Option.bind_eq_some_iff.mp next
      obtain rfl := Option.some.inj (here.symm.trans at_)
      rw [stream] at taken
      obtain rfl := Option.some.inj taken
      exact endStream_active
  | wake call =>
      obtain rfl := Option.some.inj moves
      obtain ⟨d, here, taken⟩ := Option.bind_eq_some_iff.mp next
      obtain rfl := Option.some.inj (here.symm.trans at_)
      rw [stream] at taken
      cases taken
  | close call =>
      obtain rfl := Option.some.inj moves
      obtain ⟨d, here, taken⟩ := Option.bind_eq_some_iff.mp next
      obtain rfl := Option.some.inj (here.symm.trans at_)
      rw [stream] at taken
      obtain rfl := Option.some.inj taken
      exact endStream_active
  | _ => cases moves

/-- A stream stays at its hangup for as long as its call holds the slot. -/
theorem last_stays {cause : Text} (wired : Wired s) (next : s.step action = some t)
    (active : t.active = some k) (at_ : s.CallAt k c) (last : c.stream.last? = some cause)
    (at' : t.CallAt k c') : c'.stream.last? = some cause := by
  rcases call_step wired next at' with ⟨c₀, before, moves⟩ | begins
  · obtain rfl := Option.some.inj (at_.symm.trans before)
    cases moves with
    | kept _ same | cancelled _ _ _ _ same =>
        rw [same]
        exact last
    | accepted waits | refused waits =>
        rw [((wired.slots at_).awaiting waits).2] at last
        cases last
    | running moves | ended moves => exact absurd active (freed_of_last next moves at_ last)
  · exact absurd begins.last (Nat.ne_of_lt (List.getElem?_eq_some_iff.mp at_).1)

/-- A stream that has yielded no hangup had yielded none before. -/
theorem unlast_before (wired : Wired s) (next : s.step action = some t)
    (active : t.active = some k) (at_ : s.CallAt k c) (at' : t.CallAt k c')
    (noLast : c'.stream.last? = none) : c.stream.last? = none := by
  cases last : c.stream.last? with
  | none => rfl
  | some cause =>
      have stays := last_stays wired next active at_ last at'
      rw [noLast] at stays
      cases stays

/-- A call begins with an empty queue. -/
theorem queued_begins (moves : QueueMoves s t action call)
    (begins : CallBegins s t action call c') : t.queued call = [] := by
  obtain ⟨number, isDial⟩ := begins.number
  cases moves with
  | same queued => exact queued.trans (queued_absent begins.last.ge)
  | taken from_ | heard from_ | manual from_ | unsent from_ =>
      rw [from_] at isDial
      cases isDial

/-! ## The end of an ATD -/

/-- What the end of its ATD does to a call. -/
def Ended (outcome : SendOutcome) (call : Nat) (c c' : Call) : Prop :=
  match ModemDriver.dialResult outcome with
  | none => c'.dial = .cancelled ∧ c'.stream = c.stream
  | some _ =>
      c'.dial = .returned ∧
        match outcome.refusal? with
        | none => c'.stream = .unstarted
        | some cause => c'.stream = .single (.remoteHangup call cause)

/-- An ATD ends cancelled, accepted or failed. -/
theorem Ended.cases {outcome : SendOutcome} (ended : Ended outcome call c c') :
    c'.dial = .cancelled ∧ c'.stream = c.stream ∧ ModemDriver.dialResult outcome = none ∨
      c'.dial = .returned ∧ c'.stream = .unstarted ∧ outcome.refusal? = none ∧
        ModemDriver.dialResult outcome ≠ none ∨
      ∃ cause, c'.dial = .returned ∧ c'.stream = .single (.remoteHangup call cause) ∧
        outcome.refusal? = some cause := by
  unfold Ended at ended
  cases isResult : ModemDriver.dialResult outcome with
  | none =>
      simp only [isResult] at ended
      exact .inl ⟨ended.1, ended.2, rfl⟩
  | some result =>
      simp only [isResult] at ended
      cases isRefusal : outcome.refusal? with
      | none =>
          simp only [isRefusal] at ended
          exact .inr (.inl ⟨ended.1, ended.2, rfl, nofun⟩)
      | some cause =>
          simp only [isRefusal] at ended
          exact .inr (.inr ⟨cause, ended.1, ended.2, rfl⟩)

theorem Ended.isOver {outcome : SendOutcome} (ended : Ended outcome call c c') :
    c'.dial ≠ .awaiting := by
  rcases ended.cases with ⟨dial, -⟩ | ⟨dial, -⟩ | ⟨_, dial, -⟩
  all_goals
    rw [dial]
    decide

theorem ended_at {outcome : SendOutcome} (at_ : s.CallAt call c)
    (at' : (s.dialEnded call outcome).CallAt call c') : Ended outcome call c c' := by
  unfold dialEnded at at'
  unfold Ended SendOutcome.refusal?
  cases isResult : ModemDriver.dialResult outcome with
  | none =>
      rw [isResult] at at'
      obtain ⟨d, here, rfl⟩ := modify_callAt.mp at'
      obtain rfl := Option.some.inj (at_.symm.trans here)
      exact ⟨by simp, by simp⟩
  | some result =>
      simp only [isResult] at at'
      split at at'
      · rename_i connected
        obtain ⟨d, -, rfl⟩ := modify_callAt.mp at'
        exact ⟨by simp, by simp [connected]⟩
      · rename_i failed
        obtain ⟨d, -, rfl⟩ := modify_callAt.mp at'
        exact ⟨by simp, by simp [failed]⟩

/-- The ATD of a call ends. -/
theorem dial_over {a : AtAction} {outcome : SendOutcome} (wired : Wired s)
    (next : s.step (.serial a) = some t) (ended : s.atClient.ends a = some (c.atd, outcome))
    (at_ : s.CallAt k c) (at' : t.CallAt k c') : Ended outcome k c c' := by
  obtain ⟨atClient, -, stepped, rfl⟩ := serial_step next
  have moved : ({ s with atClient := atClient } : SerialAtClient).CallAt k c := at_
  rw [moved_eq stepped, ended] at at'
  simp only [settle, wired.owned at_] at at'
  exact ended_at moved at'

/-- A dial is over when its ATD has ended, and by nothing else. -/
theorem ends_of_over (wired : Wired s) (next : s.step action = some t) (at_ : s.CallAt k c)
    (waits : c.dial = .awaiting) (at' : t.CallAt k c') (isOver : c'.dial ≠ .awaiting) :
    ∃ a outcome, action = .serial a ∧ s.atClient.ends a = some (c.atd, outcome) := by
  have same : ∀ {d}, s.CallAt k d → c'.dial ≠ d.dial := by
    intro d here dial
    obtain rfl := Option.some.inj (at_.symm.trans here)
    exact isOver (dial.trans waits)
  cases moves : action.stream? with
  | some call =>
      obtain ⟨d, here, dial⟩ := stream_keeps_dials next moves at'
      exact absurd dial (same here)
  | none =>
      cases action with
      | dial number =>
          obtain rfl := Option.some.inj next
          unfold dial at at'
          split at at'
          · exact absurd rfl (same at')
          · rename_i free
            rcases dial_callAt wired.counted (by simpa using free) at' with ⟨d, here, dial, -⟩ | begins
            · exact absurd dial (same here)
            · exact absurd begins.last (Nat.ne_of_lt (List.getElem?_eq_some_iff.mp at_).1)
      | serial a =>
          obtain ⟨atClient, -, stepped, rfl⟩ := serial_step next
          rw [moved_eq stepped] at at'
          cases isEnd : s.atClient.ends a with
          | none =>
              rw [isEnd] at at'
              exact absurd rfl (same at')
          | some ended =>
              obtain ⟨id, outcome⟩ := ended
              rw [isEnd] at at'
              obtain ⟨d, here, ⟨dial, -⟩ | ⟨⟨number, owner⟩, -⟩⟩ := settle_callAt at'
              · exact absurd dial (same here)
              · obtain ⟨d, here, rfl⟩ := wired.dials owner
                obtain rfl := Option.some.inj (here.symm.trans at_)
                exact ⟨a, outcome, rfl, isEnd⟩
      | _ =>
          obtain ⟨d, here, dial, -⟩ := keeps_step wired next nofun nofun moves k c' at'
          exact absurd dial (same here)

/-! ## The answer that refuses an ATD -/

/-- The ATD that holds the lock while the first answer on the response queue is an
error: its call, and the cause it will fail with. -/
def refusal (s : SerialAtClient) : Option (Nat × Text) :=
  match s.atClient.holder, s.atClient.responseQueue with
  | some holder, response :: _ =>
      match s.owners[holder.id]? with
      | some (.dial call _) => (AtClient.outcomeOf response).refusal?.map fun cause => (call, cause)
      | _ => none
  | _, _ => none

/-- A refusal in full. -/
theorem refusal_iff {cause : Text} (wired : Wired s) (at_ : s.CallAt k c) :
    s.refusal = some (k, cause) ↔ ∃ holder response rest, s.atClient.holder = some holder ∧
      holder.id = c.atd ∧ s.atClient.responseQueue = response :: rest ∧
      (AtClient.outcomeOf response).refusal? = some cause := by
  constructor
  · intro refused
    unfold refusal at refused
    split at refused
    · rename_i holder response rest held queue
      split at refused
      · rename_i call number owner
        obtain ⟨why, fails, same⟩ := Option.map_eq_some_iff.mp refused
        obtain ⟨rfl, rfl⟩ := Prod.mk.inj same
        obtain ⟨d, here, atd⟩ := wired.dials owner
        obtain rfl := Option.some.inj (here.symm.trans at_)
        exact ⟨holder, response, rest, held, atd.symm, queue, fails⟩
      · cases refused
    · cases refused
  · rintro ⟨holder, response, rest, held, isAtd, queue, fails⟩
    simp [refusal, held, queue, isAtd, wired.owned at_, fails]

/-- An ATD with its answer waiting holds the lock, and so its dial waits. -/
theorem awaiting_of_refusal {cause : Text} (wired : Wired s)
    (refused : s.refusal = some (k, cause)) : ∃ c, s.CallAt k c ∧ c.dial = .awaiting := by
  have owner : ∃ holder number, s.atClient.holder = some holder ∧
      s.owners[holder.id]? = some (.dial k number) := by
    unfold refusal at refused
    split at refused
    · rename_i holder response rest held queue
      split at refused
      · rename_i call number owner
        obtain ⟨why, -, same⟩ := Option.map_eq_some_iff.mp refused
        obtain ⟨rfl, -⟩ := Prod.mk.inj same
        exact ⟨holder, number, held, owner⟩
      · cases refused
    · cases refused
  obtain ⟨holder, number, held, owner⟩ := owner
  obtain ⟨c, at_, atd⟩ := wired.dials owner
  exact ⟨c, at_, wired.pending at_ (.inl ⟨holder, held, atd.symm⟩)⟩

/-- Nothing but the calls of `send` moves the lock on, or takes an answer. -/
theorem answers_wait (next : s.step action = some t) (unsent : ∀ a, action ≠ .serial a) :
    t.atClient.holder = s.atClient.holder ∧
      ∃ more, t.atClient.responseQueue = s.atClient.responseQueue ++ more := by
  have moves := atClient_step next
  generalize t.atClient = c' at moves ⊢
  cases moves with
  | serial => exact absurd rfl (unsent _)
  | same | urc | shut => exact ⟨rfl, [], (List.append_nil _).symm⟩
  | sends _ command =>
      unfold AtClient.callSend
      split <;> exact ⟨rfl, [], (List.append_nil _).symm⟩
  | read raw =>
      refine ⟨s.atClient.readLine_holder raw, ?_⟩
      unfold AtClient.readLine AtClient.dispatchLine
      repeat' split
      all_goals first | exact ⟨_, rfl⟩ | exact ⟨[], (List.append_nil _).symm⟩
  | eof =>
      unfold AtClient.readEof
      dsimp only
      split
      · exact ⟨rfl, _, rfl⟩
      · exact ⟨rfl, [], (List.append_nil _).symm⟩

/-- **A refusal stands** until its ATD has ended. -/
theorem refusal_stays {cause : Text} (wired : Wired s) (next : s.step action = some t)
    (refused : s.refusal = some (k, cause)) (at' : t.CallAt k c') (waits : c'.dial = .awaiting) :
    t.refusal = some (k, cause) := by
  have wired' := wired_step wired next
  obtain ⟨c, at_, -⟩ := awaiting_of_refusal wired refused
  obtain ⟨c'', at'', atd⟩ := callAt_stays wired next at_
  obtain rfl := Option.some.inj (at'.symm.trans at'')
  obtain ⟨holder, response, rest, held, isAtd, queue, fails⟩ := (refusal_iff wired at_).mp refused
  refine (refusal_iff wired' at').mpr ?_
  rw [atd]
  -- an action that ends the ATD would end the dial
  have open_ : ∀ {a id outcome}, action = .serial a → s.atClient.ends a = some (id, outcome) →
      id ≠ c.atd := by
    rintro a id outcome rfl ended rfl
    exact (dial_over wired next ended at_ at').isOver waits
  by_cases serial : ∃ a, action = .serial a
  · obtain ⟨a, rfl⟩ := serial
    obtain ⟨atClient, -, stepped, rfl⟩ := serial_step next
    rw [moved_atClient stepped]
    cases AtClient.step_cases stepped with
    | send command =>
        unfold AtClient.callSend
        split <;> exact ⟨holder, response, rest, held, isAtd, queue, fails⟩
    | acquire free =>
        rw [held] at free
        cases free
    | drained isHolder =>
        obtain rfl := Option.some.inj (held.symm.trans isHolder)
        exact ⟨_, response, rest, rfl, isAtd, queue, fails⟩
    | drainFailed _ isHolder | timeout isHolder =>
        obtain rfl := Option.some.inj (held.symm.trans isHolder)
        exact absurd isAtd (open_ rfl (by rw [AtClient.ends, held]; rfl))
    | receive isHolder isFirst =>
        obtain rfl := Option.some.inj (held.symm.trans isHolder)
        exact absurd isAtd (open_ rfl (by rw [AtClient.ends, held, isFirst]))
    | cancel id =>
        by_cases own : holder.id = id
        · exact absurd (own.symm.trans isAtd) (open_ rfl rfl)
        · exact ⟨holder, response, rest, by simp [AtClient.finish, held, own], isAtd, queue, fails⟩
    | aclose => exact ⟨holder, response, rest, held, isAtd, queue, fails⟩
  · obtain ⟨sameHolder, more, sameQueue⟩ := answers_wait next fun a isSerial => serial ⟨a, isSerial⟩
    exact ⟨holder, response, rest ++ more, sameHolder.trans held, isAtd,
      by rw [sameQueue, queue]; rfl, fails⟩

/-- An ATD with a refusal waiting is cancelled or fails. -/
theorem fails_of_refusal {a : AtAction} {outcome : SendOutcome} {cause : Text} (wired : Wired s)
    (at_ : s.CallAt k c) (refused : s.refusal = some (k, cause))
    (ended : s.atClient.ends a = some (c.atd, outcome)) :
    ModemDriver.dialResult outcome = none ∨ outcome.refusal? ≠ none := by
  obtain ⟨holder, response, rest, held, isAtd, queue, fails⟩ := (refusal_iff wired at_).mp refused
  cases a with
  | send command =>
      simp only [AtClient.ends] at ended
      split at ended
      · obtain ⟨-, rfl⟩ := Prod.mk.inj (Option.some.inj ended)
        exact .inr (by decide)
      · cases ended
  | acquire =>
      simp only [AtClient.ends] at ended
      split at ended
      · split at ended
        · cases ended
        · obtain ⟨-, rfl⟩ := Prod.mk.inj (Option.some.inj ended)
          exact .inr (by simp [SendOutcome.refusal?, ModemDriver.dialResult, SendOutcome.exception?])
      · cases ended
  | drained | aclose => cases ended
  | drainFailed | timeout =>
      obtain ⟨h, -, same⟩ := Option.map_eq_some_iff.mp ended
      obtain ⟨-, rfl⟩ := Prod.mk.inj same
      exact .inr (by simp [SendOutcome.refusal?, ModemDriver.dialResult, SendOutcome.exception?])
  | receive =>
      simp only [AtClient.ends, held, queue] at ended
      obtain ⟨-, rfl⟩ := Prod.mk.inj (Option.some.inj ended)
      exact .inr (by simp [fails])
  | cancel id =>
      obtain ⟨-, rfl⟩ := Prod.mk.inj (Option.some.inj ended)
      exact .inl rfl

/-! ## The handler tasks -/

theorem tasks_stay (next : s.step action = some t) (unread : action.handlesUrcs = false) :
    t.atClient.urcTasks = s.atClient.urcTasks := by
  have moves := atClient_step next
  generalize t.atClient = c' at moves ⊢
  cases moves with
  | same | shut => rfl
  | sends _ command =>
      unfold AtClient.callSend
      split <;> rfl
  | serial stepped =>
      cases AtClient.step_cases stepped with
      | send command =>
          unfold AtClient.callSend
          split <;> rfl
      | acquire =>
          unfold AtClient.grant
          split <;> rfl
      | _ => rfl
  | read | urc => cases unread
  | eof =>
      unfold AtClient.readEof
      dsimp only
      split <;> rfl

theorem handlers_step (next : s.step action = some t) :
    t.atClient.urcHandlers = s.atClient.urcHandlers := by
  have moves := atClient_step next
  generalize t.atClient = c' at moves ⊢
  cases moves with
  | same | urc | shut => rfl
  | sends _ command =>
      unfold AtClient.callSend
      split <;> rfl
  | serial stepped =>
      cases AtClient.step_cases stepped with
      | send command =>
          unfold AtClient.callSend
          split <;> rfl
      | acquire =>
          unfold AtClient.grant
          split <;> rfl
      | _ => rfl
  | read raw =>
      unfold AtClient.readLine AtClient.dispatchLine
      repeat' split
      all_goals rfl
  | eof =>
      unfold AtClient.readEof
      dsimp only
      split <;> rfl

end SerialAtClient

end IsalesTelephony.Modem
