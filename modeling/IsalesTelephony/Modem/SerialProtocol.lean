/-
# Modem.SerialProtocol -- the asynchronous AT command client

`AtClient` of `modem_controller/serial_protocol.py`.  One reader splits the line
stream: a terminal line (`OK`, `ERROR`, `+CME ERROR`, `+CMS ERROR`) completes a
response and puts it on the response queue, a line that matches a URC pattern
starts one task per registered handler, and any other line joins the body of the
command in flight (`AtClient.dispatchLine`).  A line longer than the stream reader's
limit ends the reader (`Overruns`).  `AtClient.send` serialises commands
through a FIFO lock and takes whatever the response queue yields first.

Every `await` of `send` is a place where other tasks run, so one call of `send`
is the actions `send` (the call reaches the lock), `acquire` (it holds the lock:
the body buffer is reset and the command is written), `drained`, and one of
`receive`, `timeout`, `cancel` or `drainFailed`.  Between two actions the event
loop may run anything; inside one action the source does not suspend.

Calls of `send` are numbered in call order.  `written` and `outcomes` are the
history a caller can observe: what went over the wire, and how each call ended.
-/
import Mathlib.Data.List.DropRight
import IsalesTelephony.Theory.Transition

namespace IsalesTelephony.Modem

set_option autoImplicit false

/-- Decoded text, as its characters. -/
abbrev Text := List Char

/-- `AtCommandError`: the modem answered ERROR, +CME ERROR or +CMS ERROR. -/
structure AtCommandError where
  code : Text
  detail : Text := []
  deriving DecidableEq, Repr

/-- `AtResponse`: a completed command-response exchange. -/
structure AtResponse where
  ok : Bool
  lines : List Text := []
  error : Option AtCommandError := none
  deriving DecidableEq, Repr

inductive UrcType where
  | ring | noCarrier | busy | noDialtone | noAnswer | clip | creg | cmti
  deriving DecidableEq, Repr

structure Urc where
  type : UrcType
  raw : Text
  deriving DecidableEq, Repr

/-! ## Line classification -/

def cmeError : Text := "+CME ERROR".toList

def cmsError : Text := "+CMS ERROR".toList

/-- `_URC_PATTERNS`, in the order the source tries them. -/
def urcPatterns : List (Text × UrcType) :=
  [("RING".toList, .ring), ("NO CARRIER".toList, .noCarrier), ("BUSY".toList, .busy),
    ("NO DIALTONE".toList, .noDialtone), ("NO ANSWER".toList, .noAnswer),
    ("+CLIP".toList, .clip), ("+CREG".toList, .creg), ("+CMTI".toList, .cmti)]

/-- `_classify_urc`. -/
def classifyUrc (line : Text) : Option UrcType :=
  (urcPatterns.find? fun p =>
    line = p.1 || (p.1 ++ [':']).isPrefixOf line || (p.1 ++ [' ']).isPrefixOf line).map (·.2)

/-- The error detail behind a `+CME ERROR` or `+CMS ERROR` prefix. -/
def errorDetail (code line : Text) : Text :=
  (line.drop code.length).dropWhile fun c => c = ':' || c = ' '

/-- What a terminal line completes a command with: `some none` for OK, the error
otherwise.  `none` when the line does not terminate a command. -/
def terminalOf (line : Text) : Option (Option AtCommandError) :=
  if line = "OK".toList then some none
  else if line = "ERROR".toList then some (some { code := "ERROR".toList })
  else if cmeError.isPrefixOf line then
    some (some { code := cmeError, detail := errorDetail cmeError line })
  else if cmsError.isPrefixOf line then
    some (some { code := cmsError, detail := errorDetail cmsError line })
  else none

@[simp] theorem classifyUrc_nil : classifyUrc [] = none := by decide

@[simp] theorem terminalOf_nil : terminalOf [] = none := by decide

/-- `line.strip("\r\n ")`. -/
def stripLine (raw : Text) : Text :=
  let blank (c : Char) : Bool := c = '\r' || c = '\n' || c = ' '
  (raw.dropWhile blank).rdropWhile blank

/-- The `limit` of an `asyncio.StreamReader` that is opened without one. -/
def streamLimit : Nat := 64 * 1024

/-- `readline` raises `ValueError`: more than the limit stands before the newline. -/
def Overruns (raw : Text) : Prop := streamLimit < (raw.takeWhile fun c => c ≠ '\n').length

instance (raw : Text) : Decidable (Overruns raw) := inferInstanceAs (Decidable (_ < _))

/-! ## The client -/

/-- Where the call that holds the command lock is suspended. -/
inductive SendPhase where
  /-- `await self._writer.drain()` -/
  | draining
  /-- `await asyncio.wait_for(self._response_queue.get(), timeout=deadline)` -/
  | awaiting
  deriving DecidableEq, Repr

structure InFlight where
  id : Nat
  command : Text
  phase : SendPhase
  deriving DecidableEq, Repr

/-- How one call of `send` ended. -/
inductive SendOutcome where
  | returned (response : AtResponse)
  /-- `raise response.error` -/
  | raised (error : AtCommandError)
  /-- `AtTimeoutError` -/
  | timedOut (command : Text)
  /-- `AtError("client_closed")` -/
  | clientClosed
  /-- the line is not ASCII: `encode` raised before anything was written -/
  | encodeFailed (line : Text)
  /-- the transport failed in `drain`, after the write -/
  | drainFailed (message : Text)
  /-- `CancelledError` at the current await -/
  | cancelled
  deriving DecidableEq, Repr

structure AtClient where
  closed : Bool := false
  readerRunning : Bool := true
  /-- `_command_lock`: the call that holds it, and the waiters in FIFO order -/
  holder : Option InFlight := none
  lockWaiters : List (Nat × Text) := []
  responseQueue : List AtResponse := []
  pendingLines : List Text := []
  /-- number of registered URC handlers -/
  urcHandlers : Nat := 0
  /-- URC handler tasks created and not yet run, in creation order -/
  urcTasks : List (Nat × Urc) := []
  /-- the number the next call of `send` gets -/
  nextSend : Nat := 0
  /-- history: the calls whose command was written, in write order -/
  written : List (Nat × Text) := []
  /-- history: how the calls ended -/
  outcomes : List (Nat × SendOutcome) := []
  deriving DecidableEq, Repr

/-- The line a command is sent as. -/
def commandLine (command : Text) : Text :=
  if command.getLast? = some '\r' then command else command ++ ['\r']

def isAscii (text : Text) : Bool := text.all fun c => c.toNat < 128

namespace AtClient

/-- `_dispatch_line`. -/
def dispatchLine (c : AtClient) (line : Text) : AtClient :=
  match terminalOf line with
  | some error =>
      { c with
        responseQueue := c.responseQueue ++ [⟨error.isNone, c.pendingLines, error⟩]
        pendingLines := [] }
  | none =>
      match classifyUrc line with
      | some type =>
          { c with
            urcTasks := c.urcTasks ++ (List.range c.urcHandlers).map fun h => (h, ⟨type, line⟩) }
      | none => { c with pendingLines := c.pendingLines ++ [line] }

/-- One turn of `_read_loop` on the line that comes next.  It catches `CancelledError` only,
so the `ValueError` of `readline` ends the reader task. -/
def readLine (c : AtClient) (raw : Text) : AtClient :=
  if Overruns raw then { c with readerRunning := false }
  else if stripLine raw = [] then c
  else c.dispatchLine (stripLine raw)

/-- The turn of `_read_loop` that sees end of file. -/
def readEof (c : AtClient) : AtClient :=
  let error : AtCommandError := ⟨"EOF".toList, "modem closed connection".toList⟩
  if c.holder.isSome then
    { c with
      responseQueue := c.responseQueue ++ [{ ok := false, error := some error }]
      readerRunning := false }
  else { c with readerRunning := false }

/-- The call `id` ends with `outcome` and, when it holds the lock, releases it. -/
def finish (c : AtClient) (id : Nat) (outcome : SendOutcome) : AtClient :=
  { c with
    holder := c.holder.filter fun h => h.id ≠ id
    lockWaiters := c.lockWaiters.filter fun w => w.1 ≠ id
    outcomes := c.outcomes ++ [(id, outcome)] }

theorem of_finish_holder {c : AtClient} {h : InFlight} {id : Nat} {outcome : SendOutcome}
    (held : (c.finish id outcome).holder = some h) : c.holder = some h ∧ h.id ≠ id := by
  simpa [finish, Option.filter_eq_some_iff] using held

end AtClient

/-- What the tasks that use the client do. -/
inductive AtAction where
  /-- a task calls `send(command)` -/
  | send (command : Text)
  /-- the first waiter gets the lock and writes its command -/
  | acquire
  | drained
  | drainFailed (message : Text)
  /-- `_response_queue.get()` yields to the holder of the lock -/
  | receive
  /-- the deadline of the holder of the lock expires -/
  | timeout
  /-- the task of call `id` is cancelled inside `send` -/
  | cancel (id : Nat)
  | aclose
  deriving DecidableEq, Repr

namespace AtClient

/-- A task calls `send`. -/
def callSend (c : AtClient) (command : Text) : AtClient :=
  if c.closed then
    { c with
      nextSend := c.nextSend + 1
      outcomes := c.outcomes ++ [(c.nextSend, .clientClosed)] }
  else
    { c with
      nextSend := c.nextSend + 1
      lockWaiters := c.lockWaiters ++ [(c.nextSend, command)] }

/-- The first waiter holds the lock: reset the body buffer and write. -/
def grant (c : AtClient) (id : Nat) (command : Text) (rest : List (Nat × Text)) : AtClient :=
  if isAscii (commandLine command) then
    { c with
      lockWaiters := rest
      holder := some ⟨id, command, .draining⟩
      pendingLines := []
      written := c.written ++ [(id, command)] }
  else
    { c with
      lockWaiters := rest
      pendingLines := []
      outcomes := c.outcomes ++ [(id, .encodeFailed (commandLine command))] }

/-- What `send` does with the response it got. -/
def outcomeOf (response : AtResponse) : SendOutcome :=
  match response.error with
  | some error => .raised error
  | none => .returned response

def step (c : AtClient) : AtAction → Option AtClient
  | .send command => some (c.callSend command)
  | .acquire =>
      match c.holder, c.lockWaiters with
      | none, (id, command) :: rest => some (c.grant id command rest)
      | _, _ => none
  | .drained =>
      match c.holder with
      | some ⟨id, command, .draining⟩ => some { c with holder := some ⟨id, command, .awaiting⟩ }
      | _ => none
  | .drainFailed message =>
      match c.holder with
      | some ⟨id, _, .draining⟩ => some (c.finish id (.drainFailed message))
      | _ => none
  | .receive =>
      match c.holder, c.responseQueue with
      | some ⟨id, _, .awaiting⟩, response :: rest =>
          some ({ c with responseQueue := rest }.finish id (outcomeOf response))
      | _, _ => none
  | .timeout =>
      match c.holder with
      | some ⟨id, command, .awaiting⟩ => some (c.finish id (.timedOut command))
      | _ => none
  | .cancel id =>
      if c.holder.any (fun h => h.id = id) || c.lockWaiters.any (fun w => w.1 = id) then
        some (c.finish id .cancelled)
      else none
  | .aclose => some { c with closed := true, readerRunning := false }

/-- What one action can do, guards included. -/
inductive Moves (c : AtClient) : AtAction → AtClient → Prop
  | send (command : Text) : Moves c (.send command) (c.callSend command)
  | acquire {id : Nat} {command : Text} {rest : List (Nat × Text)} (free : c.holder = none)
      (first : c.lockWaiters = (id, command) :: rest) : Moves c .acquire (c.grant id command rest)
  | drained {id : Nat} {command : Text} (held : c.holder = some ⟨id, command, .draining⟩) :
      Moves c .drained { c with holder := some ⟨id, command, .awaiting⟩ }
  | drainFailed {id : Nat} {command : Text} (message : Text)
      (held : c.holder = some ⟨id, command, .draining⟩) :
      Moves c (.drainFailed message) (c.finish id (.drainFailed message))
  | receive {id : Nat} {command : Text} {response : AtResponse} {rest : List AtResponse}
      (held : c.holder = some ⟨id, command, .awaiting⟩)
      (queued : c.responseQueue = response :: rest) :
      Moves c .receive ({ c with responseQueue := rest }.finish id (outcomeOf response))
  | timeout {id : Nat} {command : Text} (held : c.holder = some ⟨id, command, .awaiting⟩) :
      Moves c .timeout (c.finish id (.timedOut command))
  | cancel (id : Nat) : Moves c (.cancel id) (c.finish id .cancelled)
  | aclose : Moves c .aclose { c with closed := true, readerRunning := false }

theorem step_cases {c c' : AtClient} {a : AtAction} (next : c.step a = some c') :
    c.Moves a c' := by
  cases a with
  | send command =>
      obtain rfl : c.callSend command = c' := by simpa [step] using next
      exact .send command
  | acquire =>
      simp only [step] at next
      split at next
      · rename_i id command rest free first
        obtain rfl := Option.some.inj next
        exact .acquire free first
      · simp at next
  | drained =>
      simp only [step] at next
      split at next
      · rename_i id command held
        obtain rfl := Option.some.inj next
        exact .drained held
      · simp at next
  | drainFailed message =>
      simp only [step] at next
      split at next
      · rename_i id command held
        obtain rfl := Option.some.inj next
        exact .drainFailed message held
      · simp at next
  | receive =>
      simp only [step] at next
      split at next
      · rename_i id command response rest held queued
        obtain rfl := Option.some.inj next
        exact .receive held queued
      · simp at next
  | timeout =>
      simp only [step] at next
      split at next
      · rename_i id command held
        obtain rfl := Option.some.inj next
        exact .timeout held
      · simp at next
  | cancel id =>
      simp only [step] at next
      split at next
      · obtain rfl := Option.some.inj next
        exact .cancel id
      · simp at next
  | aclose =>
      obtain rfl := Option.some.inj next
      exact .aclose

/-- Only `acquire` writes. -/
theorem Moves.written_eq {c c' : AtClient} {a : AtAction} (moved : c.Moves a c')
    (ne : a ≠ .acquire) : c'.written = c.written := by
  cases moved with
  | send command => unfold callSend; split <;> rfl
  | acquire => exact absurd rfl ne
  | _ => rfl

/-! ### What a line does to the client -/

@[simp] theorem readLine_holder (c : AtClient) (raw : Text) :
    (c.readLine raw).holder = c.holder := by
  unfold readLine dispatchLine
  repeat' split
  all_goals rfl

@[simp] theorem readLine_outcomes (c : AtClient) (raw : Text) :
    (c.readLine raw).outcomes = c.outcomes := by
  unfold readLine dispatchLine
  repeat' split
  all_goals rfl

theorem readLine_overruns {c : AtClient} {raw : Text} (long : Overruns raw) :
    c.readLine raw = { c with readerRunning := false } := by
  rw [readLine, if_pos long]

theorem readLine_noise {c : AtClient} {raw : Text} (fits : ¬Overruns raw)
    (noise : stripLine raw = [] ∨
      terminalOf (stripLine raw) = none ∧ classifyUrc (stripLine raw) ≠ none) :
    ∃ tasks, c.readLine raw = { c with urcTasks := tasks } := by
  rcases noise with blank | ⟨body, urc⟩
  · exact ⟨c.urcTasks, by simp [readLine, fits, blank]⟩
  · obtain ⟨type, classified⟩ := Option.ne_none_iff_exists'.mp urc
    have full : stripLine raw ≠ [] := by
      intro blank
      rw [blank, classifyUrc_nil] at urc
      exact urc rfl
    exact ⟨_, by simp only [readLine, fits, full, if_false, dispatchLine, body, classified]; rfl⟩

theorem readLine_body {c : AtClient} {raw : Text} (fits : ¬Overruns raw)
    (body : terminalOf (stripLine raw) = none) (plain : classifyUrc (stripLine raw) = none) :
    c.readLine raw =
      { c with pendingLines := c.pendingLines ++ [stripLine raw].filter fun l => l ≠ [] } := by
  by_cases blank : stripLine raw = []
  · simp [readLine, fits, blank]
  · simp [readLine, fits, blank, dispatchLine, body, plain]

theorem readLine_terminal {c : AtClient} {raw : Text} {error : Option AtCommandError}
    (fits : ¬Overruns raw) (terminates : terminalOf (stripLine raw) = some error) :
    c.readLine raw =
      { c with
        responseQueue := c.responseQueue ++ [⟨error.isNone, c.pendingLines, error⟩]
        pendingLines := [] } := by
  have full : stripLine raw ≠ [] := by
    intro blank
    rw [blank, terminalOf_nil] at terminates
    cases terminates
  simp only [readLine, fits, full, if_false, dispatchLine, terminates]

end AtClient

end IsalesTelephony.Modem
