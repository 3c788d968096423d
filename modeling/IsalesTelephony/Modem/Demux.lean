/-
# Modem.Demux -- one stream of lines, two kinds of reader

The reader of `AtClient` parts an interleaved stream: the lines of the answers go to the
sends, the URC lines to the handlers.  `Demux` is the `Link` to the modem with the calls of
`send` in call order, the URC lines read, each with the number of handlers registered by
then, and the handler tasks that have started; tasks start in the order they were created.

While no send times out, is cancelled or loses its transport, and no line is longer than the
stream's limit, the answer of the command in flight is all that the modem owes, so the sends
end with their own answers in call order and the handlers run for the URC lines in line
order, whatever the interleaving (`demultiplexed`); and once nothing new is sent or read,
everything ends (`Settles`).  A longer line, be it blank, ends the reader and with it the
answers and the URCs (`overlong_line_ends_all`).
-/
import IsalesTelephony.Modem.AtPairing
import Mathlib.Algebra.GroupWithZero.Nat

namespace IsalesTelephony.Modem

set_option autoImplicit false

open IsalesTelephony.Theory.Transition

/-! ## The two consumers -/

structure Demux where
  link : Link
  /-- history: the calls of `send`, in call order -/
  calls : List (Nat × Text) := []
  /-- history: the URC lines read, and how many handlers were registered -/
  urcs : List (Urc × Nat) := []
  /-- history: the handler tasks that have started -/
  invoked : List (Nat × Urc) := []

inductive DemuxAction where
  | link (action : LinkAction)
  /-- `on_urc` -/
  | onUrc
  /-- the oldest handler task starts -/
  | startTask

namespace Demux

/-- The call an action makes. -/
def called (s : Demux) : LinkAction → List (Nat × Text)
  | .client (.send command) => [(s.link.client.nextSend, command)]
  | _ => []

/-- The URC line an action reads, and the handlers it is for. -/
def heard (s : Demux) : LinkAction → List (Urc × Nat)
  | .noise raw =>
      ((classifyUrc (stripLine raw)).map fun type =>
        ((⟨type, stripLine raw⟩ : Urc), s.link.client.urcHandlers)).toList
  | _ => []

def step (answer : Nat → Answer) (s : Demux) : DemuxAction → Option Demux
  | .link action =>
      (s.link.step answer action).map fun link =>
        { s with link := link, calls := s.calls ++ s.called action, urcs := s.urcs ++ s.heard action }
  | .onUrc =>
      some { s with
        link := { s.link with
          client := { s.link.client with urcHandlers := s.link.client.urcHandlers + 1 } } }
  | .startTask =>
      match s.link.client.urcTasks with
      | task :: rest =>
          some { s with
            link := { s.link with client := { s.link.client with urcTasks := rest } }
            invoked := s.invoked ++ [task] }
      | [] => none

/-- No send times out, is cancelled or loses its transport, and the client is not closed. -/
def Undisturbed (_ : Demux) : DemuxAction → Prop
  | .link (.client .timeout) | .link (.client (.cancel _)) | .link (.client (.drainFailed _))
  | .link (.client .aclose) => False
  | _ => True

/-- The line the reader comes to, if any, is within the stream's limit. -/
def WithinLimit (s : Demux) : DemuxAction → Prop
  | .link .deliver => ∀ owed ∈ s.link.wire.head?, ∀ raw ∈ owed.2.head?, ¬Overruns raw
  | .link (.noise raw) => ¬Overruns raw
  | _ => True

/-! ## What the client promises -/

variable (answer : Nat → Answer)

/-- How a call ends: with the terminal line of its answer, and the body lines as they came,
unless the command could not be written. -/
def resultOf (call : Nat × Text) : SendOutcome :=
  if isAscii (commandLine call.2) then
    AtClient.outcomeOf
      ⟨(answer call.1).error.isNone, (answer call.1).body.map stripLine, (answer call.1).error⟩
  else .encodeFailed (commandLine call.2)

/-- The handler tasks for a URC line. -/
def tasksOf (urc : Urc × Nat) : List (Nat × Urc) := (List.range urc.2).map fun h => (h, urc.1)

/-- The sends that have ended did so in call order with their own answers, and the tasks that
have started are the first of those the URC lines call for. -/
structure Demultiplexed (s : Demux) : Prop where
  numbered : s.calls.map (·.1) = List.range s.calls.length
  outcomes : ∃ waiting, s.calls.map (fun call => (call.1, resultOf answer call)) =
    s.link.client.outcomes ++ waiting
  invoked : ∃ waiting, s.urcs.flatMap tasksOf = s.invoked ++ waiting

/-- What goes on by itself. -/
def Internal : DemuxAction → Prop
  | .link (.client .acquire) | .link (.client .drained) | .link (.client .receive)
  | .link .deliver | .startTask => True
  | _ => False

/-- All sends have ended and all tasks have started. -/
structure Done (s : Demux) : Prop where
  outcomes : s.link.client.outcomes = s.calls.map fun call => (call.1, resultOf answer call)
  invoked : s.invoked = s.urcs.flatMap tasksOf

/-- How many internal steps a call in flight still takes, but for the lines of its answer. -/
def phaseSteps : Option InFlight → Nat
  | none => 0
  | some ⟨_, _, .draining⟩ => 2
  | some ⟨_, _, .awaiting⟩ => 1

/-- How many internal steps are left, at most. -/
def remaining (s : Demux) : Nat :=
  (s.link.client.lockWaiters.map fun call => 3 + (answer call.1).rawLines.length).sum +
    phaseSteps s.link.client.holder + (s.link.wire.map fun owed => owed.2.length).sum +
      s.link.client.urcTasks.length

/-- Each internal step leaves fewer, and when none is left all is done. -/
structure Settles (s : Demux) : Prop where
  shrinks : ∀ action t, Internal action → s.step answer action = some t →
    t.remaining answer < s.remaining answer
  ends : (∀ action, Internal action → s.step answer action = none) → Done answer s

/-! ## The channel -/

/-- What is in flight, as a call. -/
def inFlight (c : AtClient) : List (Nat × Text) := c.holder.toList.map fun h => (h.id, h.command)

/-- The channel holds the answer of the call in flight and nothing else. -/
def Channel (s : Link) : Prop :=
  match s.client.holder with
  | none => s.Quiet
  | some h => Link.Owes answer s h.id ∧ isAscii (commandLine h.command) = true

structure Sound (s : Demux) : Prop where
  running : s.link.client.closed = false ∧ s.link.client.readerRunning = true
  numbered : s.calls.map (·.1) = List.range s.link.client.nextSend
  served : ∃ ended, s.calls = ended ++ inFlight s.link.client ++ s.link.client.lockWaiters ∧
    s.link.client.outcomes = ended.map fun call => (call.1, resultOf answer call)
  channel : Channel answer s.link
  tasks : s.invoked ++ s.link.client.urcTasks = s.urcs.flatMap tasksOf

variable {answer} {s t : Demux}

/-- A call in flight is not among those that wait, and was numbered before the next. -/
theorem waiters_ne (sound : Sound answer s) {h : InFlight} (held : s.link.client.holder = some h) :
    ∀ waiter ∈ s.link.client.lockWaiters, waiter.1 ≠ h.id := by
  obtain ⟨ended, calls, -⟩ := sound.served
  have distinct : (s.calls.map (·.1)).Nodup := by
    rw [sound.numbered]
    exact List.nodup_range
  rw [calls, inFlight, held, List.map_append] at distinct
  obtain ⟨-, -, apart⟩ := List.nodup_append.mp distinct
  intro waiter member same
  refine apart h.id ?_ waiter.1 (List.mem_map_of_mem member) same.symm
  simp

/-- What an answer without blank lines is handed over as. -/
theorem outcome_response (full : ∀ id, ∀ line ∈ (answer id).body, stripLine line ≠ [])
    {call : Nat × Text} (ascii : isAscii (commandLine call.2) = true) :
    AtClient.outcomeOf (answer call.1).response = resultOf answer call := by
  have body : bodyLines (answer call.1).body = (answer call.1).body.map stripLine := by
    refine List.filter_eq_self.mpr fun line member => ?_
    obtain ⟨raw, listed, rfl⟩ := List.mem_map.mp member
    exact decide_eq_true (full call.1 raw listed)
  rw [resultOf, if_pos ascii, Answer.response, body]

/-! ### One step -/

theorem link_cases {action : AtAction} (next : s.step answer (.link (.client action)) = some t) :
    ∃ client, s.link.client.Moves action client ∧
      t = { s with
        link := { client := client,
                  wire := s.link.wire ++ Link.owedSince answer s.link.client client }
        calls := s.calls ++ s.called (.client action) } := by
  obtain ⟨link, linked, rfl⟩ := Option.map_eq_some_iff.mp next
  obtain ⟨client, moved, rfl⟩ := Option.map_eq_some_iff.mp linked
  have heard : s.heard (.client action) = [] := rfl
  refine ⟨client, AtClient.step_cases moved, ?_⟩
  rw [heard, List.append_nil]

/-- An action of the client that makes no call and writes nothing. -/
theorem link_step {action : AtAction} (ne : action ≠ .acquire)
    (silent : s.called (.client action) = [])
    (next : s.step answer (.link (.client action)) = some t) :
    ∃ client, s.link.client.Moves action client ∧
      t = { s with link := { client := client, wire := s.link.wire } } := by
  obtain ⟨client, moves, rfl⟩ := link_cases next
  refine ⟨client, moves, ?_⟩
  rw [Link.owedSince_eq_nil (moves.written_eq ne), silent, List.append_nil, List.append_nil]

theorem sound_send {command : Text} (sound : Sound answer s)
    (next : s.step answer (.link (.client (.send command))) = some t) : Sound answer t := by
  obtain ⟨client, moves, rfl⟩ := link_cases next
  obtain ⟨ended, calls, outcomes⟩ := sound.served
  have unwritten : Link.owedSince answer s.link.client client = [] :=
    Link.owedSince_eq_nil (moves.written_eq (by simp))
  cases moves with
  | send =>
      rw [unwritten, List.append_nil]
      rw [AtClient.callSend, if_neg (by rw [sound.running.1]; decide)]
      refine ⟨sound.running, ?_, ⟨ended, ?_, outcomes⟩, sound.channel, sound.tasks⟩
      · show (s.calls ++ [(s.link.client.nextSend, command)]).map (·.1) =
          List.range (s.link.client.nextSend + 1)
        rw [List.map_append, sound.numbered, List.range_succ]
        rfl
      · show s.calls ++ [(s.link.client.nextSend, command)] =
          ended ++ inFlight s.link.client ++
            (s.link.client.lockWaiters ++ [(s.link.client.nextSend, command)])
        rw [← List.append_assoc, ← calls]

theorem sound_acquire (sound : Sound answer s)
    (next : s.step answer (.link (.client .acquire)) = some t) : Sound answer t := by
  obtain ⟨client, moves, rfl⟩ := link_cases next
  obtain ⟨ended, calls, outcomes⟩ := sound.served
  have channel := sound.channel
  have silent : s.called (.client .acquire) = [] := rfl
  rw [silent, List.append_nil]
  cases moves with
  | @acquire id command rest free first =>
      have quiet : s.link.Quiet := by simpa [Channel, free] using channel
      obtain ⟨wire, queue⟩ := quiet
      have none_ : inFlight s.link.client = [] := by simp [inFlight, free]
      rw [none_, List.append_nil, first] at calls
      by_cases ascii : isAscii (commandLine command) = true
      · have owed : Link.owedSince answer s.link.client (s.link.client.grant id command rest) =
            [(id, (answer id).rawLines)] := by
          simp [Link.owedSince, AtClient.grant, ascii]
        have open_ : (answer id).rawLines ≠ [] := by simp [Answer.rawLines]
        rw [owed, wire, AtClient.grant, if_pos ascii]
        refine ⟨sound.running, sound.numbered, ⟨ended, ?_, outcomes⟩,
          ⟨.inl ⟨queue, [], _, rfl, open_, rfl, rfl⟩, ascii⟩, sound.tasks⟩
        rw [calls, List.append_assoc]
        rfl
      · have owed : Link.owedSince answer s.link.client (s.link.client.grant id command rest) =
            [] := by
          simp [Link.owedSince, AtClient.grant, ascii]
        rw [owed, wire, AtClient.grant, if_neg ascii]
        refine ⟨sound.running, sound.numbered, ⟨ended ++ [(id, command)], ?_, ?_⟩, ?_, sound.tasks⟩
        · rw [calls]
          simp [inFlight, free]
        · rw [outcomes, List.map_append]
          simp [resultOf, ascii]
        · simp only [Channel, free]
          exact ⟨rfl, queue⟩

theorem sound_drained (sound : Sound answer s)
    (next : s.step answer (.link (.client .drained)) = some t) : Sound answer t := by
  obtain ⟨client, moves, rfl⟩ := link_step (by simp) rfl next
  obtain ⟨ended, calls, outcomes⟩ := sound.served
  have channel := sound.channel
  cases moves with
  | @drained id command held =>
      simp only [Channel, held] at channel
      simp only [inFlight, held] at calls
      exact ⟨sound.running, sound.numbered, ⟨ended, calls, outcomes⟩, channel, sound.tasks⟩

theorem sound_receive (full : ∀ id, ∀ line ∈ (answer id).body, stripLine line ≠ [])
    (sound : Sound answer s)
    (next : s.step answer (.link (.client .receive)) = some t) : Sound answer t := by
  obtain ⟨client, moves, rfl⟩ := link_step (by simp) rfl next
  obtain ⟨ended, calls, outcomes⟩ := sound.served
  have channel := sound.channel
  cases moves with
  | @receive id command response rest held queued =>
      have apart := waiters_ne sound held
      simp only [Channel, held] at channel
      obtain ⟨owes, ascii⟩ := channel
      simp only [inFlight, held] at calls
      -- the answer of the call in flight is complete, and nothing else is on the channel
      obtain ⟨own, wire⟩ :
          s.link.client.responseQueue = [(answer id).response] ∧ s.link.wire = [] := by
        rcases owes with ⟨empty, -⟩ | own
        · exact absurd (queued.symm.trans empty) nofun
        · rcases own with own | ⟨-, empty⟩
          · exact own
          · exact absurd (queued.symm.trans empty) nofun
      obtain ⟨rfl, rfl⟩ := List.cons.inj (queued.symm.trans own)
      have free : ({ s.link.client with responseQueue := [] }.finish id
          (AtClient.outcomeOf (answer id).response)).holder = none := by
        simp [AtClient.finish, held]
      have waiters : s.link.client.lockWaiters.filter (fun w => w.1 ≠ id) =
          s.link.client.lockWaiters :=
        List.filter_eq_self.mpr fun w member => decide_eq_true (apart w member)
      have result : AtClient.outcomeOf (answer (id, command).1).response =
          resultOf answer (id, command) := outcome_response full ascii
      refine ⟨sound.running, sound.numbered, ⟨ended ++ [(id, command)], ?_, ?_⟩, ?_, sound.tasks⟩
      · show s.calls = ended ++ [(id, command)] ++ inFlight _ ++
          s.link.client.lockWaiters.filter (fun w => w.1 ≠ id)
        rw [inFlight, free, waiters, calls]
        simp
      · show s.link.client.outcomes ++ [(id, AtClient.outcomeOf (answer id).response)] = _
        rw [outcomes, List.map_append, List.map_singleton, ← result]
      · simp only [Channel, free]
        exact ⟨wire, rfl⟩

/-- A line of an answer starts no handler and leaves the lock alone. -/
theorem readLine_answer {id : Nat} (plain : (answer id).Plain) {c : AtClient} {done rest : List Text}
    {line : Text} (fits : ¬Overruns line) (split : (answer id).rawLines = done ++ line :: rest) :
    ∃ queue pending,
      c.readLine line = { c with responseQueue := queue, pendingLines := pending } := by
  rcases Answer.rawLines_split split with ⟨-, -, rfl⟩ | ⟨-, inBody⟩
  · exact ⟨_, _, AtClient.readLine_terminal fits (answer id).terminates⟩
  · exact ⟨c.responseQueue, _,
      AtClient.readLine_body fits ((answer id).open_body line inBody) (plain line inBody)⟩

/-- The line the reader reads next is of the answer of the call in flight. -/
theorem deliver_cases (sound : Sound answer s) (next : s.step answer (.link .deliver) = some t) :
    ∃ h done line rest, s.link.client.holder = some h ∧
      s.link.wire = [(h.id, line :: rest)] ∧ (answer h.id).rawLines = done ++ line :: rest ∧
        t = { s with
          link := { client := s.link.client.readLine line
                    wire := if rest = [] then [] else [(h.id, rest)] } } := by
  obtain ⟨link, linked, rfl⟩ := Option.map_eq_some_iff.mp next
  have channel := sound.channel
  have silent : s.called .deliver = [] ∧ s.heard .deliver = [] := ⟨rfl, rfl⟩
  rw [silent.1, silent.2]
  simp only [List.append_nil]
  simp only [Link.step] at linked
  split at linked
  · rename_i id line rest later running wire
    obtain rfl := Option.some.inj linked
    cases held : s.link.client.holder with
    | none =>
        have quiet : s.link.Quiet := by simpa [Channel, held] using channel
        cases wire.symm.trans quiet.1
    | some h =>
        simp only [Channel, held] at channel
        rcases channel.1 with ⟨-, done, todo, split, -, only, -⟩ | ⟨-, none_⟩ | ⟨ended, -⟩
        · obtain ⟨first, rfl⟩ := List.cons.inj (wire.symm.trans only)
          obtain ⟨rfl, rfl⟩ := Prod.mk.inj first
          exact ⟨h, done, line, rest, rfl, wire, split, rfl⟩
        · cases wire.symm.trans none_
        · cases running.symm.trans ended
  · cases linked

theorem sound_deliver (plain : ∀ id, (answer id).Plain) (sound : Sound answer s)
    (within : s.WithinLimit (.link .deliver)) (next : s.step answer (.link .deliver) = some t) :
    Sound answer t := by
  obtain ⟨h, done, line, rest, held, wire, split, rfl⟩ := deliver_cases sound next
  have fits : ¬Overruns line := by simpa [WithinLimit, wire] using within
  have channel := sound.channel
  simp only [Channel, held] at channel
  obtain ⟨owes, ascii⟩ := channel
  have owes : Link.Owes answer ⟨s.link.client, [(h.id, line :: rest)]⟩ h.id :=
    Link.owes_congr wire.symm rfl rfl (fun ended => ended) owes
  have delivered := Link.owes_deliver sound.running.2 (plain h.id) owes
  obtain ⟨queue, pending, read⟩ := readLine_answer (c := s.link.client) (plain h.id) fits split
  rw [read] at delivered ⊢
  refine ⟨sound.running, sound.numbered, sound.served, ?_, sound.tasks⟩
  simp only [Channel, held]
  exact ⟨delivered, ascii⟩

/-- A blank line changes nothing, and a URC line starts its handlers. -/
theorem readLine_heard {raw : Text} (fits : ¬Overruns raw) (noise : IsNoise raw) :
    s.link.client.readLine raw =
      { s.link.client with
        urcTasks := s.link.client.urcTasks ++ (s.heard (.noise raw)).flatMap tasksOf } := by
  rcases noise with blank | ⟨body, urc⟩
  · have none_ : s.heard (.noise raw) = [] := by simp [heard, blank]
    rw [none_, AtClient.readLine, if_neg fits, if_pos blank]
    simp
  · obtain ⟨type, classified⟩ := Option.ne_none_iff_exists'.mp urc
    have full : stripLine raw ≠ [] := by
      intro blank
      rw [blank, classifyUrc_nil] at urc
      exact urc rfl
    have one : s.heard (.noise raw) = [(⟨type, stripLine raw⟩, s.link.client.urcHandlers)] := by
      simp [heard, classified]
    rw [one, AtClient.readLine, if_neg fits, if_neg full, AtClient.dispatchLine, body]
    simp [classified, tasksOf]

theorem sound_noise {raw : Text} (sound : Sound answer s) (fits : ¬Overruns raw)
    (next : s.step answer (.link (.noise raw)) = some t) : Sound answer t := by
  obtain ⟨link, linked, rfl⟩ := Option.map_eq_some_iff.mp next
  have silent : s.called (.noise raw) = [] := rfl
  rw [silent, List.append_nil]
  simp only [Link.step] at linked
  split at linked
  · rename_i enabled
    obtain rfl := Option.some.inj linked
    rw [readLine_heard fits enabled.2]
    refine ⟨sound.running, sound.numbered, sound.served, ?_, ?_⟩
    · exact sound.channel
    · show s.invoked ++ (s.link.client.urcTasks ++ (s.heard (.noise raw)).flatMap tasksOf) =
        (s.urcs ++ s.heard (.noise raw)).flatMap tasksOf
      rw [← List.append_assoc, sound.tasks, List.flatMap_append]
  · cases linked

theorem sound_startTask (sound : Sound answer s) (next : s.step answer .startTask = some t) :
    Sound answer t := by
  simp only [step] at next
  split at next
  · rename_i task rest queued
    obtain rfl := Option.some.inj next
    have tasks := sound.tasks
    rw [queued, ← List.singleton_append, ← List.append_assoc] at tasks
    exact ⟨sound.running, sound.numbered, sound.served, sound.channel, tasks⟩
  · cases next

/-- **One step.** -/
theorem sound_step (plain : ∀ id, (answer id).Plain)
    (full : ∀ id, ∀ line ∈ (answer id).body, stripLine line ≠ []) {action : DemuxAction}
    (sound : Sound answer s) (ok : s.Undisturbed action ∧ s.WithinLimit action)
    (next : s.step answer action = some t) : Sound answer t := by
  cases action with
  | link action =>
      cases action with
      | client action =>
          cases action with
          | send command => exact sound_send sound next
          | acquire => exact sound_acquire sound next
          | drained => exact sound_drained sound next
          | receive => exact sound_receive full sound next
          | _ => exact absurd ok.1 id
      | deliver => exact sound_deliver plain sound ok.2 next
      | noise raw => exact sound_noise sound ok.2 next
  | onUrc =>
      obtain rfl := Option.some.inj next
      exact ⟨sound.running, sound.numbered, sound.served, sound.channel, sound.tasks⟩
  | startTask => exact sound_startTask sound next

theorem demultiplexed_of_sound (sound : Sound answer s) : Demultiplexed answer s := by
  obtain ⟨ended, calls, outcomes⟩ := sound.served
  refine ⟨?_, ?_, s.link.client.urcTasks, sound.tasks.symm⟩
  · have length := congrArg List.length sound.numbered
    rw [List.length_map, List.length_range] at length
    rw [sound.numbered, length]
  · refine ⟨(inFlight s.link.client ++ s.link.client.lockWaiters).map
      fun call => (call.1, resultOf answer call), ?_⟩
    rw [outcomes, calls, List.append_assoc, List.map_append]

/-! ### The end -/

/-- The waiters of a client whose call in flight ends. -/
theorem finish_waiters (sound : Sound answer s) {h : InFlight}
    (held : s.link.client.holder = some h) :
    s.link.client.lockWaiters.filter (fun w => w.1 ≠ h.id) = s.link.client.lockWaiters :=
  List.filter_eq_self.mpr fun w member => decide_eq_true (waiters_ne sound held w member)

theorem shrinks_client (sound : Sound answer s) {action : AtAction}
    (internal : Internal (.link (.client action)))
    (next : s.step answer (.link (.client action)) = some t) :
    t.remaining answer < s.remaining answer := by
  obtain ⟨client, moves, rfl⟩ := link_cases next
  cases moves with
  | @acquire id command rest free first =>
      have waiting : (s.link.client.lockWaiters.map
          fun call => 3 + (answer call.1).rawLines.length).sum =
            3 + (answer id).rawLines.length +
              (rest.map fun call => 3 + (answer call.1).rawLines.length).sum := by
        rw [first, List.map_cons, List.sum_cons]
      by_cases ascii : isAscii (commandLine command) = true
      · have owed : Link.owedSince answer s.link.client (s.link.client.grant id command rest) =
            [(id, (answer id).rawLines)] := by
          simp [Link.owedSince, AtClient.grant, ascii]
        rw [owed, remaining, remaining, waiting, free]
        simp only [AtClient.grant, ascii, if_true, phaseSteps, List.map_append, List.sum_append,
          List.map_singleton, List.sum_singleton]
        omega
      · have owed : Link.owedSince answer s.link.client (s.link.client.grant id command rest) =
            [] := by
          simp [Link.owedSince, AtClient.grant, ascii]
        rw [owed, remaining, remaining, waiting, free]
        simp only [AtClient.grant, if_neg ascii, free, phaseSteps, List.append_nil]
        omega
  | @drained id command held =>
      have unwritten : Link.owedSince answer s.link.client
          { s.link.client with holder := some ⟨id, command, .awaiting⟩ } = [] :=
        Link.owedSince_eq_nil rfl
      rw [unwritten, remaining, remaining, held]
      simp only [phaseSteps, List.append_nil]
      omega
  | @receive id command response rest held queued =>
      have unwritten : Link.owedSince answer s.link.client
          ({ s.link.client with responseQueue := rest }.finish id
            (AtClient.outcomeOf response)) = [] := Link.owedSince_eq_nil rfl
      have free : ({ s.link.client with responseQueue := rest }.finish id
          (AtClient.outcomeOf response)).holder = none := by
        simp [AtClient.finish, held]
      have waiters : ({ s.link.client with responseQueue := rest }.finish id
          (AtClient.outcomeOf response)).lockWaiters = s.link.client.lockWaiters :=
        finish_waiters sound held
      rw [unwritten, remaining, remaining, free, waiters, held]
      simp only [phaseSteps, List.append_nil]
      exact Nat.add_lt_add_right (Nat.add_lt_add_right (Nat.lt_succ_self _) _) _
  | _ => exact absurd internal id

theorem shrinks_step (plain : ∀ id, (answer id).Plain) (sound : Sound answer s)
    {action : DemuxAction} (internal : Internal action) (next : s.step answer action = some t) :
    t.remaining answer < s.remaining answer := by
  cases action with
  | link action =>
      cases action with
      | client action => exact shrinks_client sound internal next
      | deliver =>
          obtain ⟨h, done, line, rest, held, wire, split, rfl⟩ := deliver_cases sound next
          have shorter : ((if rest = [] then [] else [(h.id, rest)]).map
              fun owed : Nat × List Text => owed.2.length).sum = rest.length := by
            by_cases last : rest = [] <;> simp [last]
          by_cases long : Overruns line
          · rw [AtClient.readLine_overruns long, remaining, remaining, wire]
            simp only [shorter, List.map_singleton, List.sum_singleton, List.length_cons]
            omega
          · obtain ⟨queue, pending, read⟩ :=
              readLine_answer (c := s.link.client) (plain h.id) long split
            rw [read, remaining, remaining, wire]
            simp only [shorter, List.map_singleton, List.sum_singleton, List.length_cons]
            omega
      | noise raw => exact absurd internal id
  | onUrc => exact absurd internal id
  | startTask =>
      simp only [step] at next
      split at next
      · rename_i task rest queued
        obtain rfl := Option.some.inj next
        rw [remaining, remaining, queued]
        exact Nat.add_lt_add_left (Nat.lt_succ_self _) _
      · cases next

/-- When nothing goes on by itself, nothing is left to do. -/
theorem done_of_stuck (sound : Sound answer s)
    (stuck : ∀ action, Internal action → s.step answer action = none) : Done answer s := by
  have started : s.link.client.urcTasks = [] := by
    cases tasks : s.link.client.urcTasks with
    | nil => rfl
    | cons task rest =>
        have next := stuck .startTask trivial
        simp only [step, tasks] at next
        cases next
  have channel := sound.channel
  have free : s.link.client.holder = none := by
    cases held : s.link.client.holder with
    | none => rfl
    | some h =>
        obtain ⟨id, command, phase⟩ := h
        simp only [Channel, held] at channel
        cases phase with
        | draining =>
            have next := stuck (.link (.client .drained)) trivial
            simp [step, Link.step, AtClient.step, held] at next
        | awaiting =>
            rcases channel.1 with ⟨-, done, todo, -, some_, wire, -⟩ | ⟨queue, -⟩ | ⟨ended, -⟩
            · have next := stuck (.link .deliver) trivial
              obtain ⟨line, rest, rfl⟩ := List.exists_cons_of_ne_nil some_
              simp [step, Link.step, sound.running.2, wire] at next
            · have next := stuck (.link (.client .receive)) trivial
              simp [step, Link.step, AtClient.step, held, queue] at next
            · cases sound.running.2.symm.trans ended
  have waiters : s.link.client.lockWaiters = [] := by
    cases waiting : s.link.client.lockWaiters with
    | nil => rfl
    | cons call rest =>
        have next := stuck (.link (.client .acquire)) trivial
        simp [step, Link.step, AtClient.step, free, waiting] at next
  obtain ⟨ended, calls, outcomes⟩ := sound.served
  have tasks := sound.tasks
  rw [inFlight, free, waiters] at calls
  rw [started, List.append_nil] at tasks
  exact ⟨by rw [outcomes, calls]; simp, tasks⟩

/-! ### A reader that has ended -/

theorem ended_moves {c d : AtClient} {action : AtAction} (moves : c.Moves action d)
    (ended : c.readerRunning = false) : d.readerRunning = false := by
  cases moves with
  | send =>
      unfold AtClient.callSend
      split
      · exact ended
      · exact ended
  | acquire =>
      unfold AtClient.grant
      split
      · exact ended
      · exact ended
  | aclose => rfl
  | _ => exact ended

theorem ended_step {action : DemuxAction} (ended : s.link.client.readerRunning = false)
    (next : s.step answer action = some t) : t.link.client.readerRunning = false := by
  cases action with
  | link action =>
      cases action with
      | client action =>
          obtain ⟨client, moves, rfl⟩ := link_cases next
          exact ended_moves moves ended
      | deliver => simp [step, Link.step, ended] at next
      | noise raw => simp [step, Link.step, ended] at next
  | onUrc =>
      obtain rfl := Option.some.inj next
      exact ended
  | startTask =>
      simp only [step] at next
      split at next
      · obtain rfl := Option.some.inj next
        exact ended
      · cases next

/-- A reader that has ended reads no line any more. -/
theorem unread_run {ok : Demux → DemuxAction → Prop} (ended : s.link.client.readerRunning = false)
    (run : Reachable (step answer) ok s t) (raw : Text) :
    t.step answer (.link (.noise raw)) = none := by
  have still : t.link.client.readerRunning = false :=
    run.invariant (P := fun u => u.link.client.readerRunning = false) ended
      fun _ _ _ ended _ next => ended_step ended next
  simp [step, Link.step, still]

/-! ### Main result -/

theorem sound_init (handlers : Nat) : Sound answer { link := Link.init handlers } :=
  ⟨⟨rfl, rfl⟩, rfl, ⟨[], rfl, rfl⟩, ⟨rfl, rfl⟩, rfl⟩

/-- **Demultiplexing.**  Whatever the modem answers with nonblank body lines of no other
shape, and however URC and blank lines are interleaved: in every undisturbed run whose lines
are within the stream's limit, the sends end with their own answers in call order and the
handlers run once for each URC line in line order, and all of them do once nothing new is
sent or read. -/
theorem demultiplexed (answer : Nat → Answer) (plain : ∀ id, (answer id).Plain)
    (full : ∀ id, ∀ line ∈ (answer id).body, stripLine line ≠ []) (handlers : Nat) :
    ∀ s, Reachable (step answer) (fun s action => s.Undisturbed action ∧ s.WithinLimit action)
        { link := Link.init handlers } s →
      Demultiplexed answer s ∧ Settles answer s := by
  intro s run
  have sound := run.invariant (P := Sound answer) (sound_init handlers)
    fun _ _ _ sound ok next => sound_step plain full sound ok next
  exact ⟨demultiplexed_of_sound sound,
    fun _ _ internal next => shrinks_step plain sound internal next, done_of_stuck sound⟩

instance (s : Demux) (action : DemuxAction) : Decidable (s.Undisturbed action) := by
  cases action with
  | link action =>
      cases action with
      | client action => cases action <;> unfold Undisturbed <;> infer_instance
      | _ => unfold Undisturbed; infer_instance
  | _ => unfold Undisturbed; infer_instance

instance (s : Demux) (action : DemuxAction) : Decidable (s.WithinLimit action) := by
  cases action with
  | link action => cases action <;> unfold WithinLimit <;> infer_instance
  | _ => unfold WithinLimit; infer_instance

/-! ## Poles -/

/-- Two sends, a URC line before, between and after the lines of their answers. -/
def interleaved : List DemuxAction :=
  [.onUrc, .link (.client (.send "AT+CPCMREG=1".toList)), .link (.client (.send "AT+CLCC".toList)),
    .link (.noise "RING\r\n".toList), .link (.client .acquire), .link .deliver,
    .link (.client .drained), .link (.client .receive), .link (.client .acquire),
    .link (.client .drained), .link .deliver, .link (.noise "\r\n".toList),
    .link (.noise "BUSY\r\n".toList), .startTask, .link .deliver, .link (.client .receive),
    .startTask]

theorem interleaved_runs : (guardedRun (step okThenError)
    (fun s action => s.Undisturbed action ∧ s.WithinLimit action)
    { link := Link.init 0 } interleaved).isSome = true := by decide

theorem okThenError_body (id : Nat) : ∀ line ∈ (okThenError id).body,
    classifyUrc (stripLine line) = none ∧ stripLine line ≠ [] := by
  unfold okThenError
  split <;> decide

theorem interleaved_demultiplexed :
    let s := (guardedRun (step okThenError)
      (fun s action => s.Undisturbed action ∧ s.WithinLimit action) _ interleaved).get
        interleaved_runs
    Demultiplexed okThenError s ∧ s.link.client.outcomes.length = 2 ∧ s.invoked.length = 2 :=
  ⟨(demultiplexed okThenError (fun id line member => (okThenError_body id line member).1)
      (fun id line member => (okThenError_body id line member).2) 0 _
      (reachable_guarded_get interleaved_runs)).1, by decide, by decide⟩

/-- One more blank than a line may hold. -/
def longBlank : Text := List.replicate (streamLimit + 1) ' ' ++ ['\n']

theorem longBlank_overruns : Overruns longBlank := by
  have blanks : ∀ c ∈ List.replicate (streamLimit + 1) ' ', decide (c ≠ '\n') = true := by
    intro c listed
    rw [List.eq_of_mem_replicate listed]
    rfl
  rw [Overruns, longBlank, List.takeWhile_append_of_pos blanks, List.length_append,
    List.length_replicate]
  omega

theorem longBlank_blank : stripLine longBlank = [] := by
  have blanks : ∀ c ∈ longBlank,
      (decide (c = '\r') || decide (c = '\n') || decide (c = ' ')) = true := by
    intro c listed
    rcases List.mem_append.mp listed with front | last
    · rw [List.eq_of_mem_replicate front]
      rfl
    · rw [List.mem_singleton.mp last]
      rfl
  rw [stripLine, List.dropWhile_eq_nil_iff.mpr blanks]
  rfl

/-- A send waits for its answer. -/
def awaiting : List DemuxAction :=
  [.link (.client (.send "AT+CPCMREG=1".toList)), .link (.client .acquire),
    .link (.client .drained)]

theorem awaiting_runs : (guardedRun (step okThenError) Undisturbed { link := Link.init 0 }
    awaiting).isSome = true := by decide

/-- The client once its reader has come to the long blank line. -/
def deafened (s : Demux) : Demux :=
  { s with link := { s.link with client := { s.link.client with readerRunning := false } } }

theorem deafened_step (s : Demux) (running : s.link.client.readerRunning = true) :
    s.step answer (.link (.noise longBlank)) = some s.deafened := by
  have unheard : s.heard (.noise longBlank) = [] := by
    rw [heard, longBlank_blank]
    rfl
  have called : s.called (.noise longBlank) = [] := rfl
  rw [step, Link.step, if_pos ⟨running, .inl longBlank_blank⟩,
    AtClient.readLine_overruns longBlank_overruns, Option.map_some, unheard, called,
    List.append_nil, List.append_nil]
  rfl

/-- The send that waits, after that line. -/
def deaf : Demux :=
  deafened ((guardedRun (step okThenError) Undisturbed _ awaiting).get awaiting_runs)

theorem deaf_reachable :
    Reachable (step okThenError) Undisturbed { link := Link.init 0 } deaf := by
  refine (reachable_guarded_get awaiting_runs).snoc (a := .link (.noise longBlank)) ?_
    (deafened_step _ (by decide))
  trivial

/-- **An overlong line ends all.**  A send waits for the OK that the modem owes, a blank line
longer than the limit comes first, and without a timeout the send waits for ever.  And with no
send at all, none of the URC lines that come after such a line is read. -/
theorem overlong_line_ends_all :
    (¬ ∀ (answer : Nat → Answer), (∀ id, (answer id).Plain) →
      (∀ id, ∀ line ∈ (answer id).body, stripLine line ≠ []) → ∀ (handlers : Nat) (s : Demux),
        Reachable (step answer) Undisturbed { link := Link.init handlers } s →
          Demultiplexed answer s ∧ Settles answer s) ∧
      ∃ s, Reachable (step okThenError) Undisturbed { link := Link.init 1 } s ∧ s.calls = [] ∧
        ∀ t raw, Reachable (step okThenError) Free s t →
          t.step okThenError (.link (.noise raw)) = none := by
  constructor
  · intro claim
    have settles := (claim okThenError (fun id line member => (okThenError_body id line member).1)
      (fun id line member => (okThenError_body id line member).2) 0 deaf deaf_reachable).2
    have stuck : ∀ action, Internal action → deaf.step okThenError action = none := by
      intro action internal
      cases action with
      | link action =>
          cases action with
          | client action =>
              cases action with
              | acquire | drained | receive => rfl
              | _ => exact absurd internal id
          | deliver => rfl
          | noise raw => exact absurd internal id
      | onUrc => exact absurd internal id
      | startTask => rfl
    have unanswered : deaf.link.client.outcomes.length ≠ deaf.calls.length := by decide
    apply unanswered
    rw [(settles.ends stuck).outcomes, List.length_map]
  · refine ⟨deafened { link := Link.init 1 }, ?_, rfl, fun t raw run => unread_run rfl run raw⟩
    refine (Reachable.refl _).snoc (a := .link (.noise longBlank)) ?_ (deafened_step _ rfl)
    trivial

end Demux

end IsalesTelephony.Modem
