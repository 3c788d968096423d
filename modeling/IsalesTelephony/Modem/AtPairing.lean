/-
# Modem.AtPairing -- a command gets the answer to that very command

`Link` is the client joined to a modem that answers every command it receives
once, in the order received: raw body lines, then one terminal line
(`Answer`).  An answer may be late by any amount; URC lines and blank lines may
arrive between any two lines (`LinkAction.noise`).

The response queue is shared by all commands and is never drained, so a command
abandoned after its write (timeout, cancellation, failing `drain`) leaves its
answer behind for whichever command comes next.

* `late_answer_misattributed`: two commands, the first timing out, and the
  second returns the first one's answer;
* `tracked_step`: while a command is written on a quiet channel -- nothing owed,
  nothing queued -- the channel holds exactly that command's answer;
* `pairing_of_quiet_writes`: hence in every run whose writes are quiet, every
  response and every error belongs to the execution it is handed to.
-/
import IsalesTelephony.Modem.SerialProtocol
import IsalesTelephony.Theory.History

namespace IsalesTelephony.Modem

set_option autoImplicit false

open IsalesTelephony.Theory.Transition

/-- The modem's answer to one execution of a command. -/
structure Answer where
  body : List Text
  terminal : Text
  error : Option AtCommandError
  terminates : terminalOf (stripLine terminal) = some error
  open_body : ∀ line ∈ body, terminalOf (stripLine line) = none

/-- The body the client collects from raw lines: stripped, blanks skipped. -/
def bodyLines (raw : List Text) : List Text := (raw.map stripLine).filter fun line => line ≠ []

namespace Answer

def rawLines (a : Answer) : List Text := a.body ++ [a.terminal]

/-- The exchange the modem produced. -/
def response (a : Answer) : AtResponse := ⟨a.error.isNone, bodyLines a.body, a.error⟩

/-- No body line has the shape of a URC. -/
def Plain (a : Answer) : Prop := ∀ line ∈ a.body, classifyUrc (stripLine line) = none

instance (a : Answer) : Decidable a.Plain := inferInstanceAs (Decidable (∀ line ∈ a.body, _))

/-- A returned response, or a raised error, is the one this answer holds. -/
def Pairs (a : Answer) : SendOutcome → Prop
  | .returned response => a.error = none ∧ response = a.response
  | .raised error => a.error = some error
  | _ => True

theorem pairs_outcomeOf (a : Answer) : a.Pairs (AtClient.outcomeOf a.response) := by
  simp only [AtClient.outcomeOf, response]
  cases h : a.error <;> simp [Pairs, response, h]

/-- The raw line that is next either ends the answer or is one of its body lines. -/
theorem rawLines_split {a : Answer} {done rest : List Text} {line : Text}
    (split : a.rawLines = done ++ line :: rest) :
    rest = [] ∧ done = a.body ∧ line = a.terminal ∨ rest ≠ [] ∧ line ∈ a.body := by
  rcases Theory.snoc_eq_split.mp split with ⟨body, same, rfl⟩ | ⟨front, rfl, body⟩
  · exact .inl ⟨rfl, body.symm, same.symm⟩
  · exact .inr ⟨List.concat_ne_nil _ _, by rw [body]; simp⟩

end Answer

/-! ## The client and its modem -/

/-- The client and what the modem still has to deliver: for each command it
received, the raw lines of the answer not yet read. -/
structure Link where
  client : AtClient := {}
  wire : List (Nat × List Text) := []
  deriving DecidableEq, Repr

inductive LinkAction where
  | client (action : AtAction)
  /-- the reader reads the next line of the oldest answer owed -/
  | deliver
  /-- the reader reads a blank line or a URC line -/
  | noise (raw : Text)
  deriving DecidableEq, Repr

/-- A line that is blank or a URC. -/
def IsNoise (raw : Text) : Prop :=
  stripLine raw = [] ∨ terminalOf (stripLine raw) = none ∧ classifyUrc (stripLine raw) ≠ none

instance (raw : Text) : Decidable (IsNoise raw) := inferInstanceAs (Decidable (_ ∨ _ ∧ _))

namespace Link

/-- The client before its first command, with some URC handlers registered. -/
def init (handlers : Nat) : Link := { client := { urcHandlers := handlers } }

variable (answer : Nat → Answer)

/-- The answers the modem owes for the commands written since `before`. -/
def owedSince (before after : AtClient) : List (Nat × List Text) :=
  (after.written.drop before.written.length).map fun w => (w.1, (answer w.1).rawLines)

def step (s : Link) : LinkAction → Option Link
  | .client action =>
      (s.client.step action).map fun client =>
        { client := client, wire := s.wire ++ owedSince answer s.client client }
  | .deliver =>
      match s.client.readerRunning, s.wire with
      | true, (id, line :: rest) :: later =>
          some
            { client := s.client.readLine line
              wire := if rest = [] then later else (id, rest) :: later }
      | _, _ => none
  | .noise raw =>
      if s.client.readerRunning ∧ IsNoise raw then
        some { s with client := s.client.readLine raw }
      else none

/-- Nothing is owed and nothing is queued. -/
def Quiet (s : Link) : Prop := s.wire = [] ∧ s.client.responseQueue = []

instance (s : Link) : Decidable s.Quiet := inferInstanceAs (Decidable (_ ∧ _))

/-- The commands that `Q` selects are written on a quiet channel, and their
answers have no body line that looks like a URC. -/
def QuietWriteFor (Q : Nat → Prop) (s : Link) : LinkAction → Prop
  | .client .acquire =>
      match s.client.lockWaiters with
      | (id, _) :: _ => Q id → s.Quiet ∧ (answer id).Plain
      | [] => True
  | _ => True

/-- Every command is written on a quiet channel, its answer free of URC shapes. -/
def QuietWrite (s : Link) (action : LinkAction) : Prop :=
  QuietWriteFor answer (fun _ => True) s action

instance (s : Link) (action : LinkAction) : Decidable (QuietWrite answer s action) := by
  unfold QuietWrite QuietWriteFor
  split
  · split <;> infer_instance
  · infer_instance

/-! ## The channel holds the answer of the command in flight -/

/-- The channel holds exactly the answer of execution `id`: partly read and
collected in the body buffer, or complete on the response queue.  Once the reader
has ended, an empty queue stays empty. -/
def Owes (s : Link) (id : Nat) : Prop :=
  (s.client.responseQueue = [] ∧ ∃ done rest, (answer id).rawLines = done ++ rest ∧ rest ≠ [] ∧
      s.wire = [(id, rest)] ∧ s.client.pendingLines = bodyLines done) ∨
    (s.client.responseQueue = [(answer id).response] ∧ s.wire = []) ∨
    (s.client.readerRunning = false ∧ s.client.responseQueue = [])

/-- Each selected command in flight has its own answer on the channel, and each
selected call that has ended was handed its own answer. -/
structure Tracked (Q : Nat → Prop) (s : Link) : Prop where
  inFlight : ∀ h, s.client.holder = some h → Q h.id → (answer h.id).Plain ∧ Owes answer s h.id
  paired : ∀ id outcome, (id, outcome) ∈ s.client.outcomes → Q id → (answer id).Pairs outcome

variable {answer} {Q : Nat → Prop}

theorem owes_congr {s t : Link} {id : Nat} (wire : t.wire = s.wire)
    (queue : t.client.responseQueue = s.client.responseQueue)
    (body : t.client.pendingLines = s.client.pendingLines)
    (reader : s.client.readerRunning = false → t.client.readerRunning = false)
    (owes : Owes answer s id) : Owes answer t id := by
  rcases owes with partly | complete | ⟨ended, empty⟩
  · exact .inl (by simpa only [wire, queue, body] using partly)
  · exact .inr (.inl (by simpa only [wire, queue] using complete))
  · exact .inr (.inr ⟨reader ended, queue.trans empty⟩)

theorem tracked_init (handlers : Nat) : Tracked answer Q (init handlers) where
  inFlight := by intro h held; simp [init] at held
  paired := by intro id outcome ended; simp [init] at ended

/-- Reading the next line of the answer that is owed keeps it owed. -/
theorem owes_deliver {c : AtClient} {id : Nat} {line : Text} {rest : List Text}
    (running : c.readerRunning = true) (plain : (answer id).Plain)
    (owes : Owes answer ⟨c, [(id, line :: rest)]⟩ id) :
    Owes answer ⟨c.readLine line, if rest = [] then [] else [(id, rest)]⟩ id := by
  rcases owes with ⟨queue, done, todo, split, -, wire, body⟩ | ⟨-, wire⟩ | ⟨ended, empty⟩
  · obtain rfl : todo = line :: rest := by
      simpa using congrArg (fun w => w.map (·.2)) wire.symm
    replace queue : c.responseQueue = [] := queue
    replace body : c.pendingLines = bodyLines done := body
    by_cases long : Overruns line
    · rw [AtClient.readLine_overruns long]
      exact .inr (.inr ⟨rfl, queue⟩)
    rcases Answer.rawLines_split split with ⟨rfl, rfl, rfl⟩ | ⟨more, inBody⟩
    · refine .inr (.inl ⟨?_, by simp⟩)
      simp only [AtClient.readLine_terminal long (answer id).terminates, queue, body,
        List.nil_append, Answer.response]
    · refine .inl ?_
      rw [AtClient.readLine_body long ((answer id).open_body line inBody) (plain line inBody)]
      refine ⟨queue, done ++ [line], rest, by simpa using split, more, by simp [more], ?_⟩
      simp [body, bodyLines]
  · simp at wire
  · rw [running] at ended
    cases ended

/-- What is tracked rests on the id of the command in flight, on the channel and on the calls
that have ended. -/
theorem tracked_congr {s t : Link} (tracked : Tracked answer Q s)
    (holder : ∀ h, t.client.holder = some h → ∃ h', s.client.holder = some h' ∧ h'.id = h.id)
    (wire : t.wire = s.wire) (queue : t.client.responseQueue = s.client.responseQueue)
    (body : t.client.pendingLines = s.client.pendingLines)
    (reader : s.client.readerRunning = false → t.client.readerRunning = false)
    (ended : ∀ id outcome, (id, outcome) ∈ t.client.outcomes →
      (id, outcome) ∈ s.client.outcomes ∨ (Q id → (answer id).Pairs outcome)) :
    Tracked answer Q t where
  inFlight := by
    intro h held selected
    obtain ⟨h', held', same⟩ := holder h held
    rw [← same] at selected ⊢
    obtain ⟨plain, owes⟩ := tracked.inFlight h' held' selected
    exact ⟨plain, owes_congr wire queue body reader owes⟩
  paired := by
    intro id outcome listed selected
    rcases ended id outcome listed with old | pairs
    · exact tracked.paired id outcome old selected
    · exact pairs selected

/-- The entry of a call that ends is the only new one. -/
theorem ended_snoc {outcomes : List (Nat × SendOutcome)} {id other : Nat}
    {outcome result : SendOutcome} (pairs : Q id → (answer id).Pairs outcome)
    (listed : (other, result) ∈ outcomes ++ [(id, outcome)]) :
    (other, result) ∈ outcomes ∨ (Q other → (answer other).Pairs result) := by
  refine (List.mem_append.mp listed).imp_right fun new => ?_
  obtain ⟨rfl, rfl⟩ := Prod.mk.inj (List.mem_singleton.mp new)
  exact pairs

/-- A call that ends without a response keeps the rest tracked. -/
theorem tracked_finish {s : Link} {id : Nat} {outcome : SendOutcome}
    (tracked : Tracked answer Q s) (pairs : Q id → (answer id).Pairs outcome) :
    Tracked answer Q { s with client := s.client.finish id outcome } :=
  tracked_congr tracked (fun h held => ⟨h, (AtClient.of_finish_holder held).1, rfl⟩) rfl rfl rfl
    (fun ended => ended) fun _ _ => ended_snoc pairs

/-- The command that is written on a quiet channel owns the channel. -/
theorem tracked_acquire {s : Link} {id : Nat} {command : Text} {rest : List (Nat × Text)}
    (tracked : Tracked answer Q s) (free : s.client.holder = none)
    (quiet : Q id → s.Quiet ∧ (answer id).Plain) :
    Tracked answer Q
      { client := s.client.grant id command rest
        wire := s.wire ++ owedSince answer s.client (s.client.grant id command rest) } := by
  by_cases ascii : isAscii (commandLine command) = true
  · have owed : owedSince answer s.client (s.client.grant id command rest) =
        [(id, (answer id).rawLines)] := by
      simp [owedSince, AtClient.grant, ascii]
    rw [owed]
    refine ⟨?_, ?_⟩
    · intro h held selected
      obtain rfl : h = ⟨id, command, .draining⟩ := by
        simpa [AtClient.grant, ascii] using held.symm
      obtain ⟨⟨wire, queue⟩, plain⟩ := quiet selected
      refine ⟨plain, Or.inl ⟨by simpa [AtClient.grant, ascii] using queue, [],
        (answer id).rawLines, rfl, by simp [Answer.rawLines], by simp [wire], ?_⟩⟩
      simp [AtClient.grant, ascii, bodyLines]
    · intro other outcome ended selected
      exact tracked.paired other outcome (by simpa [AtClient.grant, ascii] using ended) selected
  · refine ⟨?_, ?_⟩
    · intro h held
      simp [AtClient.grant, ascii, free] at held
    · intro other outcome ended selected
      have cases_ : (other, outcome) ∈ s.client.outcomes ∨
          other = id ∧ outcome = .encodeFailed (commandLine command) := by
        simpa [AtClient.grant, ascii] using ended
      rcases cases_ with old | ⟨rfl, rfl⟩
      · exact tracked.paired other outcome old selected
      · trivial

/-- Actions that write nothing leave the wire alone. -/
theorem owedSince_eq_nil {before after : AtClient} (same : after.written = before.written) :
    owedSince answer before after = [] := by
  simp [owedSince, same]

/-- **One step.**  Under quiet writes of the selected commands, what is tracked
stays tracked. -/
theorem tracked_step {s t : Link} {action : LinkAction} (tracked : Tracked answer Q s)
    (quiet : QuietWriteFor answer Q s action) (next : step answer s action = some t) :
    Tracked answer Q t := by
  cases action with
  | client action =>
      obtain ⟨client, moved, rfl⟩ := Option.map_eq_some_iff.mp next
      have moves := AtClient.step_cases moved
      have unwritten : action ≠ .acquire → owedSince answer s.client client = [] :=
        fun ne => owedSince_eq_nil (moves.written_eq ne)
      cases moves with
      | send command =>
          rw [unwritten (by simp), List.append_nil]
          unfold AtClient.callSend
          split
          · exact tracked_congr tracked (fun h held => ⟨h, held, rfl⟩) rfl rfl rfl id
              fun _ _ => ended_snoc fun _ => trivial
          · exact tracked_congr tracked (fun h held => ⟨h, held, rfl⟩) rfl rfl rfl id
              fun _ _ => .inl
      | @acquire id command rest free first =>
          refine tracked_acquire tracked free ?_
          simpa [QuietWriteFor, first] using quiet
      | @drained id command held =>
          rw [unwritten (by simp), List.append_nil]
          refine tracked_congr tracked (fun h now => ⟨_, held, ?_⟩) rfl rfl rfl
            (fun ended => ended) fun _ _ => .inl
          obtain rfl : h = ⟨id, command, .awaiting⟩ := (Option.some.inj now).symm
          rfl
      | drainFailed _ held =>
          rw [unwritten (by simp), List.append_nil]
          exact tracked_finish tracked fun _ => trivial
      | @receive id command response rest held queued =>
          rw [unwritten (by simp), List.append_nil]
          refine ⟨fun h now => ?_, fun other outcome ended selected => ?_⟩
          · obtain ⟨before, ne⟩ := AtClient.of_finish_holder now
            obtain rfl := Option.some.inj (held.symm.trans before)
            exact absurd rfl ne
          · rcases List.mem_append.mp ended with old | new
            · exact tracked.paired other outcome old selected
            · obtain ⟨rfl, rfl⟩ := Prod.mk.inj (List.mem_singleton.mp new)
              obtain ⟨-, owes⟩ := tracked.inFlight _ held selected
              rcases owes with ⟨empty, -⟩ | ⟨own, -⟩ | ⟨-, empty⟩
              · simp [queued] at empty
              · obtain ⟨rfl, -⟩ := List.cons.inj (queued.symm.trans own)
                exact (answer other).pairs_outcomeOf
              · simp [queued] at empty
      | timeout held =>
          rw [unwritten (by simp), List.append_nil]
          exact tracked_finish tracked fun _ => trivial
      | cancel id =>
          rw [unwritten (by simp), List.append_nil]
          exact tracked_finish tracked fun _ => trivial
      | aclose =>
          rw [unwritten (by simp), List.append_nil]
          exact tracked_congr tracked (fun h held => ⟨h, held, rfl⟩) rfl rfl rfl (fun _ => rfl)
            fun _ _ => .inl
  | deliver =>
      simp only [step] at next
      split at next
      · rename_i id line rest later running wire
        obtain rfl := Option.some.inj next
        refine ⟨fun h held selected => ?_, fun other outcome ended => ?_⟩
        · obtain ⟨plain, owes⟩ := tracked.inFlight h (by simpa using held) selected
          refine ⟨plain, ?_⟩
          -- the answer owed is the only one on the wire, so the line read is its next line
          have alone : s.wire = [(h.id, line :: rest)] := by
            rcases owes with ⟨-, _, todo, -, -, only, -⟩ | ⟨-, none_⟩ | ⟨ended, -⟩
            · rw [only] at wire ⊢
              obtain ⟨rfl, rfl⟩ : h.id = id ∧ todo = line :: rest := by
                simpa using (List.cons.inj wire).1
              rfl
            · simp [none_] at wire
            · simp [running] at ended
          obtain ⟨rfl, rfl⟩ : h.id = id ∧ later = [] := by
            rw [alone] at wire
            simpa [eq_comm] using wire
          exact owes_deliver running plain (owes_congr alone.symm rfl rfl id owes)
        · exact tracked.paired other outcome (by simpa using ended)
      · simp at next
  | noise raw =>
      simp only [step] at next
      split at next
      · rename_i enabled
        obtain rfl := Option.some.inj next
        by_cases long : Overruns raw
        · rw [AtClient.readLine_overruns long]
          exact tracked_congr tracked (fun h held => ⟨h, held, rfl⟩) rfl rfl rfl (fun _ => rfl)
            fun _ _ => .inl
        · obtain ⟨tasks, same⟩ := AtClient.readLine_noise (c := s.client) long enabled.2
          rw [same]
          exact tracked_congr tracked (fun h held => ⟨h, held, rfl⟩) rfl rfl rfl id
            fun _ _ => .inl
      · simp at next

/-- What is tracked stays tracked along a run. -/
theorem tracked_run {s t : Link} (tracked : Tracked answer Q s)
    (run : Reachable (step answer) (QuietWriteFor answer Q) s t) : Tracked answer Q t :=
  run.invariant tracked fun _ _ _ held quiet next => tracked_step held quiet next

end Link

/-! ## Pairing -/

/-- **Pairing.**  In a run whose commands are all written on a quiet channel,
every response returned and every error raised by `send` is the one the modem
produced for that very execution. -/
theorem pairing_of_quiet_writes (answer : Nat → Answer) (handlers : Nat) (s : Link)
    (run : Reachable (Link.step answer) (Link.QuietWrite answer) (Link.init handlers) s)
    (id : Nat) (outcome : SendOutcome) (ended : (id, outcome) ∈ s.client.outcomes) :
    (answer id).Pairs outcome :=
  (Link.tracked_run (Q := fun _ => True) (Link.tracked_init handlers) run).paired
    id outcome ended trivial

/-! ## Poles -/

/-- A modem that answers the first command OK and every other one ERROR. -/
def okThenError (id : Nat) : Answer :=
  if id = 0 then ⟨[], "OK\r\n".toList, none, by decide, by simp⟩
  else ⟨["+CLCC: 1,0,0,0,0\r\n".toList], "ERROR\r\n".toList, some { code := "ERROR".toList },
    by decide, by decide⟩

/-- One exchange after the other, each answered before the next is written. -/
def promptActions : List LinkAction :=
  [.client (.send "AT+CPCMREG=1".toList), .client .acquire, .client .drained, .deliver,
    .client .receive, .client (.send "AT+CLCC".toList), .client .acquire, .client .drained,
    .deliver, .noise "RING\r\n".toList, .deliver, .client .receive]

theorem prompt_quiet : (guardedRun (Link.step okThenError) (Link.QuietWrite okThenError)
    (Link.init 1) promptActions).isSome = true := by decide

/-- Answers that arrive in time are paired: the second command raises its own
error, the URC in between notwithstanding. -/
theorem prompt_answers_paired :
    (1, SendOutcome.raised { code := "ERROR".toList }) ∈
        (Option.get _ prompt_quiet).client.outcomes ∧
      (okThenError 1).Pairs (.raised { code := "ERROR".toList }) := by
  have ended : (1, SendOutcome.raised { code := "ERROR".toList }) ∈
      (Option.get _ prompt_quiet).client.outcomes := by decide
  exact ⟨ended, pairing_of_quiet_writes okThenError 1 _ (reachable_guarded_get prompt_quiet)
    1 _ ended⟩

/-- The first command times out, its OK arrives late, the second takes it. -/
def lateActions : List LinkAction :=
  [.client (.send "AT+CPCMREG=1".toList), .client .acquire, .client .drained, .client .timeout,
    .deliver, .client (.send "AT+CLCC".toList), .client .acquire, .client .drained,
    .client .receive]

theorem late_runs : (run (Link.step okThenError) (Link.init 0) lateActions).isSome = true := by
  decide

/-- **A late answer is misattributed.**  Without the guard pairing is false: the
command after a timeout returns OK although the modem answered it ERROR. -/
theorem late_answer_misattributed :
    ¬ ∀ (answer : Nat → Answer) (handlers : Nat) (s : Link),
      Reachable (Link.step answer) Free (Link.init handlers) s →
        ∀ id outcome, (id, outcome) ∈ s.client.outcomes → (answer id).Pairs outcome := by
  intro claim
  have ended : (1, SendOutcome.returned { ok := true }) ∈
      (Option.get _ late_runs).client.outcomes := by decide
  have paired := claim okThenError 0 _ (reachable_get late_runs) 1 _ ended
  exact absurd paired.1 (by decide)

end IsalesTelephony.Modem
