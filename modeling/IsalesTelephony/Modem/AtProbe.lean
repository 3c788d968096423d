/-
# Modem.AtProbe -- what the modem says it is

`read_modem_identity` of `modem_controller/at_probe.py`: four commands in turn, and the
ICCID with a second command if the modem refuses the first.  The lines of a transcript come
within the timeouts, so a read gives the next of them, whenever it arrives.

Blank lines and the echo of the command are passed over (`takeLines_said`), and the prefix of
an answer is taken off by the name of the stage.  The second ICCID command is asked in the
stage of the first, so of its own prefix nothing is taken off, and the ICCID is right if and
only if it comes without it (`read_modem_identity_iff`).
-/
import IsalesTelephony.Modem.SerialProtocol
import IsalesTelephony.Theory.Strip
import Mathlib.Data.Bool.AllAny

namespace IsalesTelephony.Modem.AtProbe

set_option autoImplicit false

open IsalesTelephony.Theory
open IsalesTelephony.Theory.Strip (isSpace)

/-! ## One command -/

/-- What a read of the port gives. -/
inductive Incoming where
  /-- a line, with its newline -/
  | line (raw : List UInt8)
  /-- `b""` -/
  | eof
  | osError (text : Text)
  deriving DecidableEq, Repr

/-- `raw.decode("ascii", errors="replace")`. -/
def decodeAscii (raw : List UInt8) : Text :=
  raw.map fun b => if b.toNat < 128 then Char.ofNat b.toNat else Char.ofNat 0xfffd

def strip (s : Text) : Text := Strip.strip isSpace s

/-- `raw.decode("ascii", errors="replace").strip("\r\n").strip()`. -/
def lineOf (raw : List UInt8) : Text :=
  strip (Strip.strip (fun c => c = '\r' || c = '\n') (decodeAscii raw))

/-- How `_send_and_collect` ends: it returns, with `none` for the error when the answer does
not end in time, or a read raises. -/
inductive Collected where
  | ended (ok : Bool) (payload : List Text) (error : Option Text)
  | osError (text : Text)
  /-- the line is longer than the limit of the reader -/
  | valueError
  deriving DecidableEq, Repr

/-- What a line does to the payload, or how it ends the answer. -/
def takeLine (command : Text) (payload : List Text) (line : Text) : Collected ⊕ List Text :=
  if line = [] then .inr payload
  else if line = strip command ∧ payload = [] then .inr payload
  else if line = "OK".toList then .inl (.ended true payload none)
  else if line = "ERROR".toList then .inl (.ended false payload (some "ERROR".toList))
  else if "+CME ERROR".toList.isPrefixOf line || "+CMS ERROR".toList.isPrefixOf line then
    .inl (.ended false payload (some line))
  else .inr (payload ++ [line])

/-- The loop of `_send_and_collect`. -/
def collect (limit : Nat) (command : Text) : List Text → List Incoming → Collected × List Incoming
  -- nothing more comes before the deadline
  | payload, [] => (.ended false payload none, [])
  | payload, .eof :: rest => (.ended false payload none, rest)
  | _, .osError text :: rest => (.osError text, rest)
  | payload, .line raw :: rest =>
      if limit + 1 < raw.length then (.valueError, rest)
      else
        match takeLine command payload (lineOf raw) with
        | .inl collected => (collected, rest)
        | .inr payload => collect limit command payload rest

/-! ## The identity -/

structure ModemIdentity where
  manufacturer : Text
  model : Text
  imei : Text
  iccid : Text
  deriving DecidableEq, Repr

inductive ProbeError where
  /-- `ModemInitFailedError` -/
  | initFailed (stage detail : Text)
  | valueError
  deriving DecidableEq, Repr

/-- What comes in, and the commands that went out. -/
structure Port where
  incoming : List Incoming
  written : List Text := []
  deriving DecidableEq, Repr

abbrev AtM := ExceptT ProbeError (StateM Port)

def sendAndCollect (limit : Nat) (command : Text) : StateM Port Collected := fun port =>
  let answer := collect limit command [] port.incoming
  (answer.1, { incoming := answer.2, written := port.written ++ [command] })

/-- The value without the prefix of the stage. -/
def stripStage (stage value : Text) : Text :=
  let lead := '+' :: stage ++ [':']
  if lead.isPrefixOf value then strip (value.drop lead.length) else value

/-- The value that an answer stands for. -/
def valueOf (stage : Text) (payload : List Text) : Except ProbeError Text :=
  let cleaned := (payload.filter fun line => strip line ≠ []).map strip
  if cleaned = [] then .error (.initFailed stage "empty_response".toList)
  else .ok (stripStage stage ([' '].intercalate cleaned))

/-- What `_run_identity_command` makes of an answer. -/
def identityOf (stage : Text) : Collected → Except ProbeError Text
  | .osError text => .error (.initFailed stage ("io_error: ".toList ++ text))
  | .valueError => .error .valueError
  | .ended false _ none => .error (.initFailed stage "timeout".toList)
  | .ended false _ (some error) => .error (.initFailed stage error)
  | .ended true payload _ => valueOf stage payload

def runIdentityCommand (limit : Nat) (command stage : String) : AtM Text :=
  ExceptT.mk do return identityOf stage.toList (← sendAndCollect limit command.toList)

/-- The second ICCID command, asked for the reason given. -/
def iccidFallback (limit : Nat) (primary : ProbeError) : AtM Text :=
  match primary with
  | .valueError => throw .valueError
  | .initFailed stage detail =>
      if "timeout".toList.isPrefixOf detail then throw (.initFailed stage detail)
      else
        tryCatch (runIdentityCommand limit "AT+ICCID" "CCID") fun fallback =>
          match fallback with
          | .valueError => throw .valueError
          | .initFailed _ other => throw (.initFailed "CCID".toList
              ("AT+CCID=".toList ++ detail ++ "; AT+ICCID=".toList ++ other))

def readModemIdentity (limit : Nat) : AtM ModemIdentity := do
  let manufacturer ← runIdentityCommand limit "AT+CGMI" "CGMI"
  let model ← runIdentityCommand limit "AT+CGMM" "CGMM"
  let imei ← runIdentityCommand limit "AT+CGSN" "CGSN"
  let iccid ← tryCatch (runIdentityCommand limit "AT+CCID" "CCID") (iccidFallback limit)
  return { manufacturer, model, imei, iccid }

/-- What `read_modem_identity` comes back with on a connection, the limit of its reader given. -/
def identityRead (limit : Nat) (incoming : List Incoming) : Except ProbeError ModemIdentity :=
  ((readModemIdentity limit).run.run { incoming }).1

/-! ## Answers -/

/-- The lines that are not blank. -/
def said (lines : List (List UInt8)) : List Text := (lines.map lineOf).filter (· ≠ [])

/-- The prefix that the answer to a command may have. -/
def ownPrefix (command : Text) : Text := command.drop 2 ++ ": ".toList

/-- The line that holds the value, bare or behind the prefix of the command. -/
def shown (command : Text) (prefixed : Bool) (value : Text) : Text :=
  if prefixed then ownPrefix command ++ value else value

/-- Perhaps the echo of the command. -/
def Echo (command : Text) (echo : List Text) : Prop := echo = [] ∨ echo = [command]

/-- An answer up to its OK, with blank lines anywhere. -/
structure Answer (command value : Text) (prefixed : Bool) (lines : List (List UInt8)) : Prop where
  split : ∃ front last echo, lines = front ++ [last] ∧ Echo command echo ∧
    said front = echo ++ [shown command prefixed value] ∧ lineOf last = "OK".toList

/-- A refusal, with blank lines anywhere. -/
structure Refusal (command : Text) (lines : List (List UInt8)) : Prop where
  split : ∃ front last echo, lines = front ++ [last] ∧ Echo command echo ∧ said front = echo ∧
    (lineOf last = "ERROR".toList ∨ "+CME ERROR".toList.isPrefixOf (lineOf last) = true)

/-- The commands of the sequence. -/
def commands : List Text :=
  ["AT+CGMI".toList, "AT+CGMM".toList, "AT+CGSN".toList, "AT+CCID".toList, "AT+ICCID".toList]

/-- What a modem says of itself. -/
structure IdentityValue (value : Text) : Prop where
  nonempty : value ≠ []
  printable : ∀ c ∈ value, 0x20 ≤ c.toNat ∧ c.toNat ≤ 0x7e ∧ c ≠ '"' ∧ c ≠ '\'' ∧ c ≠ ':'
  stripped : strip value = value
  notOk : value ≠ "OK".toList
  notError : value ≠ "ERROR".toList
  notCommand : value ≠ "AT".toList ∧ value ∉ commands
  unsigned : value.head? ≠ some '+'

/-- The answers for the ICCID; the flag says that the one to the second command has its prefix. -/
inductive Iccid (value : Text) : Bool → List (List UInt8) → Prop where
  | direct {prefixed : Bool} {lines : List (List UInt8)}
      (answer : Answer "AT+CCID".toList value prefixed lines) : Iccid value false lines
  | fallback {prefixed : Bool} {refused lines : List (List UInt8)}
      (refusal : Refusal "AT+CCID".toList refused)
      (answer : Answer "AT+ICCID".toList value prefixed lines) : Iccid value prefixed (refused ++ lines)

/-- A modem that answers each command with its value. -/
structure Transcript (id : ModemIdentity) (aliased : Bool) (lines : List (List UInt8)) : Prop where
  values : ∀ value ∈ [id.manufacturer, id.model, id.imei, id.iccid], IdentityValue value
  answers : ∃ cgmi cgmm cgsn ccid prefixed₁ prefixed₂ prefixed₃,
    lines = cgmi ++ (cgmm ++ (cgsn ++ ccid)) ∧ Answer "AT+CGMI".toList id.manufacturer prefixed₁ cgmi ∧
      Answer "AT+CGMM".toList id.model prefixed₂ cgmm ∧ Answer "AT+CGSN".toList id.imei prefixed₃ cgsn ∧
      Iccid id.iccid aliased ccid

/-! ## The lines of an answer -/

variable {limit : Nat} {command value : Text} {lines front : List (List UInt8)}
  {payload after : List Text} {rest : List Incoming}

/-- The payload after some lines, none of which ends the answer. -/
def takeLines (command : Text) (payload : List Text) (lines : List Text) : Option (List Text) :=
  lines.foldlM (fun payload line => (takeLine command payload line).getRight?) payload

theorem takeLines_cons (command : Text) (payload : List Text) (line : Text) (later : List Text) :
    takeLines command payload (line :: later) =
      (takeLine command payload line).getRight?.bind fun payload => takeLines command payload later :=
  rfl

theorem takeLine_blank (command : Text) (payload : List Text) :
    takeLine command payload [] = .inr payload := if_pos rfl

theorem said_cons (raw : List UInt8) (later : List (List UInt8)) :
    said (raw :: later) = if lineOf raw = [] then said later else lineOf raw :: said later := by
  by_cases blank : lineOf raw = []
  · rw [if_pos blank, said, List.map_cons, List.filter_cons_of_neg (by simp [blank])]
    rfl
  · rw [if_neg blank, said, List.map_cons, List.filter_cons_of_pos (by simp [blank])]
    rfl

/-- Blank lines are passed over. -/
theorem takeLines_said (command : Text) (payload : List Text) (lines : List (List UInt8)) :
    takeLines command payload (lines.map lineOf) = takeLines command payload (said lines) := by
  induction lines generalizing payload with
  | nil => rfl
  | cons raw later ih =>
      rw [List.map_cons, takeLines_cons, said_cons]
      split
      · rename_i blank
        rw [blank, takeLine_blank]
        exact ih payload
      · rw [takeLines_cons]
        exact congrArg _ (funext fun payload => ih payload)

/-- Within the limit, lines that do not end the answer are read one after the other. -/
theorem collect_lines (taken : takeLines command payload (lines.map lineOf) = some after)
    (fits : ∀ raw ∈ lines, raw.length ≤ limit + 1) :
    collect limit command payload (lines.map .line ++ rest) = collect limit command after rest := by
  induction lines generalizing payload with
  | nil =>
      obtain rfl := Option.some.inj taken
      rfl
  | cons raw later ih =>
      obtain ⟨first, laterFit⟩ := List.forall_mem_cons.mp fits
      rw [List.map_cons, List.cons_append, collect, if_neg (Nat.not_lt.mpr first)]
      rw [List.map_cons, takeLines_cons] at taken
      cases took : takeLine command payload (lineOf raw) with
      | inl collected =>
          rw [took] at taken
          cases taken
      | inr between =>
          rw [took] at taken
          exact ih taken laterFit

/-- A line that is too long ends the reading. -/
theorem collect_overlong (taken : takeLines command payload (lines.map lineOf) = some after)
    (overlong : ∃ raw ∈ lines, limit + 1 < raw.length) :
    (collect limit command payload (lines.map .line ++ rest)).1 = .valueError := by
  induction lines generalizing payload with
  | nil =>
      obtain ⟨raw, member, -⟩ := overlong
      cases member
  | cons raw later ih =>
      rw [List.map_cons, List.cons_append, collect]
      by_cases long : limit + 1 < raw.length
      · rw [if_pos long]
      · rw [if_neg long]
        have inLater : ∃ raw ∈ later, limit + 1 < raw.length := by
          obtain ⟨other, member, tooLong⟩ := overlong
          rcases List.mem_cons.mp member with rfl | member
          · exact absurd tooLong long
          · exact ⟨other, member, tooLong⟩
        rw [List.map_cons, takeLines_cons] at taken
        cases took : takeLine command payload (lineOf raw) with
        | inl collected =>
            rw [took] at taken
            cases taken
        | inr between =>
            rw [took] at taken
            exact ih taken inLater

/-- An answer is read to the line that ends it. -/
theorem collect_answer {last : List UInt8} {collected : Collected}
    (taken : takeLines command [] (front.map lineOf) = some payload)
    (ends : takeLine command payload (lineOf last) = .inl collected)
    (fits : ∀ raw ∈ front ++ [last], raw.length ≤ limit + 1) :
    collect limit command [] ((front ++ [last]).map .line ++ rest) = (collected, rest) := by
  rw [List.map_append, List.append_assoc,
    collect_lines taken fun raw member => fits raw (List.mem_append_left _ member)]
  have lastFits := fits last (List.mem_append_right _ List.mem_cons_self)
  rw [List.map_singleton, List.singleton_append, collect, if_neg (Nat.not_lt.mpr lastFits), ends]

theorem collect_answer_overlong {last : List UInt8}
    (taken : takeLines command [] (front.map lineOf) = some payload)
    (overlong : ∃ raw ∈ front ++ [last], limit + 1 < raw.length) :
    (collect limit command [] ((front ++ [last]).map .line ++ rest)).1 = .valueError := by
  by_cases within : ∃ raw ∈ front, limit + 1 < raw.length
  · rw [List.map_append, List.append_assoc]
    exact collect_overlong taken within
  · obtain ⟨raw, member, long⟩ := overlong
    have fits : ∀ raw ∈ front, raw.length ≤ limit + 1 := fun raw member =>
      Nat.not_lt.mp fun long => within ⟨raw, member, long⟩
    rw [List.map_append, List.append_assoc, collect_lines taken fits]
    rcases List.mem_append.mp member with inFront | isLast
    · exact absurd ⟨raw, inFront, long⟩ within
    · obtain rfl := List.mem_singleton.mp isLast
      rw [List.map_singleton, List.singleton_append, collect, if_pos long]

/-! ## What is shown -/

/-- A line that neither ends an answer nor echoes its command. -/
structure Plain (command line : Text) : Prop where
  nonempty : line ≠ []
  notEcho : line ≠ command
  notOk : line ≠ "OK".toList
  notError : line ≠ "ERROR".toList
  notCme : "+CME ERROR".toList.isPrefixOf line = false
  notCms : "+CMS ERROR".toList.isPrefixOf line = false

theorem strip_command {command : Text} (listed : command ∈ commands) : strip command = command :=
  (by decide : ∀ command ∈ commands, strip command = command) command listed

theorem takeLine_plain (listed : command ∈ commands) {line : Text} (plain : Plain command line) :
    takeLine command payload line = .inr (payload ++ [line]) := by
  rw [takeLine, if_neg plain.nonempty, strip_command listed, if_neg fun echo => plain.notEcho echo.1,
    if_neg plain.notOk, if_neg plain.notError, plain.notCme, plain.notCms]
  rfl

/-- The echo of the command is dropped. -/
theorem takeLines_echo (listed : command ∈ commands) {echo : List Text} (echoes : Echo command echo)
    (more : List Text) : takeLines command [] (echo ++ more) = takeLines command [] more := by
  rcases echoes with rfl | rfl
  · rfl
  · have nonempty : command ≠ [] := by
      rintro rfl
      exact absurd listed (by decide)
    have dropped : takeLine command [] command = .inr [] := by
      rw [takeLine, if_neg nonempty, strip_command listed, if_pos ⟨rfl, rfl⟩]
    rw [List.singleton_append, takeLines_cons, dropped]
    rfl

theorem not_isPrefixOf_of_head? {line lead : Text} {c : Char} (head : line.head? ≠ some c) :
    (c :: lead).isPrefixOf line = false := by
  cases line with
  | nil => rfl
  | cons first more =>
      have other : (c == first) = false := beq_eq_false_iff_ne.mpr fun same => head (congrArg some same.symm)
      rw [List.isPrefixOf, other, Bool.false_and]

theorem plain_value (listed : command ∈ commands) (ok : IdentityValue value) : Plain command value where
  nonempty := ok.nonempty
  notEcho := fun same => ok.notCommand.2 (same ▸ listed)
  notOk := ok.notOk
  notError := ok.notError
  notCme := not_isPrefixOf_of_head? ok.unsigned
  notCms := not_isPrefixOf_of_head? ok.unsigned

theorem plain_prefixed (listed : command ∈ commands) (value : Text) :
    Plain command (ownPrefix command ++ value) := by
  simp only [commands, List.mem_cons, List.not_mem_nil, or_false] at listed
  rcases listed with rfl | rfl | rfl | rfl | rfl
  all_goals exact ⟨nofun, fun same => absurd (List.cons.inj same).1 (by decide),
    fun same => absurd (List.cons.inj same).1 (by decide),
    fun same => absurd (List.cons.inj same).1 (by decide), rfl, rfl⟩

theorem plain_shown (listed : command ∈ commands) (ok : IdentityValue value) (prefixed : Bool) :
    Plain command (shown command prefixed value) := by
  cases prefixed
  · exact plain_value listed ok
  · exact plain_prefixed listed value

theorem strip_shown (listed : command ∈ commands) (ok : IdentityValue value) (prefixed : Bool) :
    strip (shown command prefixed value) = shown command prefixed value := by
  cases prefixed
  · exact ok.stripped
  · have plus : ∃ more, ownPrefix command = '+' :: more := by
      simp only [commands, List.mem_cons, List.not_mem_nil, or_false] at listed
      rcases listed with rfl | rfl | rfl | rfl | rfl <;> exact ⟨_, rfl⟩
    obtain ⟨more, lead⟩ := plus
    rw [shown, if_pos rfl, lead]
    exact Strip.strip_cons_append (by decide) ok.stripped ok.nonempty

theorem valueOf_shown (listed : command ∈ commands) (ok : IdentityValue value) (prefixed : Bool)
    (stage : Text) :
    valueOf stage [shown command prefixed value] = .ok (stripStage stage (shown command prefixed value)) := by
  have same := strip_shown listed ok prefixed
  have full := (plain_shown listed ok prefixed).nonempty
  rw [valueOf, List.filter_cons_of_pos (by simp [same, full])]
  simp only [List.filter_nil, List.map_cons, List.map_nil, same, List.intercalate_singleton]
  rfl

theorem stripStage_value (stage : Text) (ok : IdentityValue value) : stripStage stage value = value := by
  rw [stripStage]
  simp only [List.cons_append, not_isPrefixOf_of_head? ok.unsigned]
  rfl

/-- The prefix of the stage is taken off. -/
theorem stripStage_own (stage : Text) (ok : IdentityValue value) :
    stripStage stage ('+' :: stage ++ ": ".toList ++ value) = value := by
  have lead : '+' :: stage ++ ": ".toList ++ value = ('+' :: stage ++ [':']) ++ ' ' :: value := by simp
  have blank : strip ([' '] ++ value ++ []) = strip value :=
    Strip.strip_pad (List.forall_mem_singleton.mpr rfl) (List.forall_mem_nil _)
  have starts : ('+' :: stage ++ [':']).isPrefixOf (('+' :: stage ++ [':']) ++ ' ' :: value) = true := by
    rw [List.isPrefixOf_iff_prefix]
    exact List.prefix_append _ _
  rw [lead, stripStage]
  simp only [starts, if_true, List.drop_left]
  rw [List.append_nil, ok.stripped] at blank
  exact blank

/-- The prefix of the second ICCID command is not that of the stage. -/
theorem stripStage_alias (value : Text) :
    stripStage "CCID".toList (ownPrefix "AT+ICCID".toList ++ value) = ownPrefix "AT+ICCID".toList ++ value :=
  rfl

/-! ## The stages -/

section
variable {α β : Type} {x : AtM α} {f : α → AtM β} {port next : Port}

theorem run_bind_ok {a : α} (ran : x.run.run port = (.ok a, next)) :
    (x >>= f).run.run port = (f a).run.run next := by
  rw [ExceptT.run_bind, StateT.run_bind, ran]
  rfl

theorem run_bind_error {error : ProbeError} (ran : (x.run.run port).1 = .error error) :
    ((x >>= f).run.run port).1 = .error error := by
  rw [ExceptT.run_bind, StateT.run_bind]
  generalize x.run.run port = result at ran ⊢
  obtain ⟨outcome, after⟩ := result
  subst ran
  rfl

theorem run_tryCatch_ok {handler : ProbeError → AtM α} {a : α} (ran : x.run.run port = (.ok a, next)) :
    (tryCatch x handler).run.run port = (.ok a, next) := by
  rw [ExceptT.run_tryCatch, StateT.run_bind, ran]
  rfl

theorem run_tryCatch_error {handler : ProbeError → AtM α} {error : ProbeError}
    (ran : x.run.run port = (.error error, next)) :
    (tryCatch x handler).run.run port = (handler error).run.run next := by
  rw [ExceptT.run_tryCatch, StateT.run_bind, ran]
  rfl

end

variable {written : List Text}

/-- One stage is one answer collected. -/
theorem run_command (limit : Nat) (command stage : String) (port : Port) :
    (runIdentityCommand limit command stage).run.run port =
      (identityOf stage.toList (collect limit command.toList [] port.incoming).1,
        { incoming := (collect limit command.toList [] port.incoming).2,
          written := port.written ++ [command.toList] }) := rfl

/-- Up to its last line an answer has what it shows. -/
theorem Answer.taken {command : Text} {prefixed : Bool} (listed : command ∈ commands)
    (ok : IdentityValue value) (answer : Answer command value prefixed lines) :
    ∃ front last, lines = front ++ [last] ∧
      takeLines command [] (front.map lineOf) = some [shown command prefixed value] ∧
      lineOf last = "OK".toList := by
  obtain ⟨front, last, echo, rfl, echoes, holds, done⟩ := answer.split
  refine ⟨front, last, rfl, ?_, done⟩
  rw [takeLines_said, holds, takeLines_echo listed echoes, takeLines_cons,
    takeLine_plain listed (plain_shown listed ok prefixed)]
  rfl

/-- Up to its last line a refusal has nothing. -/
theorem Refusal.taken {command : Text} (listed : command ∈ commands)
    (refusal : Refusal command lines) :
    ∃ front last, lines = front ++ [last] ∧ takeLines command [] (front.map lineOf) = some [] ∧
      (lineOf last = "ERROR".toList ∨ "+CME ERROR".toList.isPrefixOf (lineOf last) = true) := by
  obtain ⟨front, last, echo, rfl, echoes, holds, refused⟩ := refusal.split
  refine ⟨front, last, rfl, ?_, refused⟩
  rw [takeLines_said, holds, ← List.append_nil echo, takeLines_echo listed echoes]
  rfl

/-- An answer gives what it shows, without the prefix of the stage. -/
theorem run_answer (command stage : String) (rest : List Incoming) (written : List Text)
    {prefixed : Bool} (listed : command.toList ∈ commands)
    (ok : IdentityValue value) (answer : Answer command.toList value prefixed lines)
    (fits : ∀ raw ∈ lines, raw.length ≤ limit + 1) :
    (runIdentityCommand limit command stage).run.run ⟨lines.map .line ++ rest, written⟩ =
      (.ok (stripStage stage.toList (shown command.toList prefixed value)),
        ⟨rest, written ++ [command.toList]⟩) := by
  obtain ⟨front, last, rfl, taken, done⟩ := answer.taken listed ok
  have ends : takeLine command.toList [shown command.toList prefixed value] (lineOf last) =
      .inl (.ended true [shown command.toList prefixed value] none) := by
    rw [done, takeLine, if_neg nofun, if_neg fun echo => absurd echo.2 nofun, if_pos rfl]
  rw [run_command, collect_answer taken ends fits]
  simp only [identityOf, valueOf_shown listed ok]

/-- A line that is too long ends the stage with a `ValueError`. -/
theorem run_answer_overlong {command stage : String} {prefixed : Bool}
    (listed : command.toList ∈ commands) (ok : IdentityValue value)
    (answer : Answer command.toList value prefixed lines)
    (overlong : ∃ raw ∈ lines, limit + 1 < raw.length) :
    ((runIdentityCommand limit command stage).run.run ⟨lines.map .line ++ rest, written⟩).1 =
      .error .valueError := by
  obtain ⟨front, last, rfl, taken, done⟩ := answer.taken listed ok
  rw [run_command, collect_answer_overlong taken overlong]
  rfl

/-- A refusal fails the stage with the line that refuses. -/
theorem run_refusal (command stage : String) (rest : List Incoming) (written : List Text)
    (listed : command.toList ∈ commands)
    (refusal : Refusal command.toList lines) (fits : ∀ raw ∈ lines, raw.length ≤ limit + 1) :
    ∃ detail, "timeout".toList.isPrefixOf detail = false ∧
      (runIdentityCommand limit command stage).run.run ⟨lines.map .line ++ rest, written⟩ =
        (.error (.initFailed stage.toList detail), ⟨rest, written ++ [command.toList]⟩) := by
  obtain ⟨front, last, rfl, taken, refused⟩ := refusal.taken listed
  have notEcho : lineOf last ≠ command.toList := by
    rintro same
    rw [same] at refused
    revert refused listed
    generalize command.toList = command
    exact (by decide : ∀ command ∈ commands, ¬(command = "ERROR".toList ∨
      "+CME ERROR".toList.isPrefixOf command = true)) command
  have ends : ∃ detail, "timeout".toList.isPrefixOf detail = false ∧
      takeLine command.toList [] (lineOf last) = .inl (.ended false [] (some detail)) := by
    rw [takeLine, strip_command listed]
    rcases refused with plain | cme
    · exact ⟨"ERROR".toList, rfl, by
        rw [if_neg (by rw [plain]; nofun), if_neg fun echo => notEcho echo.1,
          if_neg (by rw [plain]; decide), if_pos plain]⟩
    · obtain ⟨more, whole⟩ := List.isPrefixOf_iff_prefix.mp cme
      rw [← whole] at notEcho ⊢
      have notOk : "+CME ERROR".toList ++ more ≠ "OK".toList := fun same =>
        absurd (congrArg List.head? same) (show some '+' ≠ some 'O' by decide)
      have notError : "+CME ERROR".toList ++ more ≠ "ERROR".toList := fun same =>
        absurd (congrArg List.head? same) (show some '+' ≠ some 'E' by decide)
      exact ⟨"+CME ERROR".toList ++ more, rfl, by
        rw [if_neg nofun, if_neg fun echo => notEcho echo.1, if_neg notOk, if_neg notError]
        rfl⟩
  obtain ⟨detail, unhurried, ends⟩ := ends
  refine ⟨detail, unhurried, ?_⟩
  rw [run_command, collect_answer taken ends fits]
  rfl

theorem run_refusal_overlong {command stage : String} (listed : command.toList ∈ commands)
    (refusal : Refusal command.toList lines) (overlong : ∃ raw ∈ lines, limit + 1 < raw.length) :
    ((runIdentityCommand limit command stage).run.run ⟨lines.map .line ++ rest, written⟩).1 =
      .error .valueError := by
  obtain ⟨front, last, rfl, taken, refused⟩ := refusal.taken listed
  rw [run_command, collect_answer_overlong taken overlong]
  rfl

/-! ## The sequence -/

/-- Some line is longer than the reader takes. -/
def Overlong (limit : Nat) (lines : List (List UInt8)) : Prop := ∃ raw ∈ lines, limit + 1 < raw.length

theorem fits_of_not_overlong (fits : ¬Overlong limit lines) : ∀ raw ∈ lines, raw.length ≤ limit + 1 :=
  fun raw member => Nat.not_lt.mp fun long => fits ⟨raw, member, long⟩

theorem overlong_append {a b : List (List UInt8)} :
    Overlong limit (a ++ b) ↔ Overlong limit a ∨ Overlong limit b := by
  simp [Overlong, or_and_right, exists_or]

/-- What the stages make of the ICCID. -/
def iccidRead (aliased : Bool) (value : Text) : Text :=
  if aliased then ownPrefix "AT+ICCID".toList ++ value else value

/-- A stage under its own name gives the value. -/
theorem run_stage {command stage : String} {prefixed : Bool} (listed : command.toList ∈ commands)
    (named : ownPrefix command.toList = '+' :: stage.toList ++ ": ".toList) (ok : IdentityValue value)
    (answer : Answer command.toList value prefixed lines) (fits : ¬Overlong limit lines) :
    (runIdentityCommand limit command stage).run.run ⟨lines.map .line ++ rest, written⟩ =
      (.ok value, ⟨rest, written ++ [command.toList]⟩) := by
  have bare : stripStage stage.toList (shown command.toList prefixed value) = value := by
    cases prefixed
    · exact stripStage_value _ ok
    · rw [shown, if_pos rfl, named]
      exact stripStage_own _ ok
  rw [run_answer command stage rest written listed ok answer (fits_of_not_overlong fits), bare]

/-- The stage of the ICCID, with its second command. -/
theorem run_iccid (rest : List Incoming) (written : List Text) {aliased : Bool} (ok : IdentityValue value) (iccid : Iccid value aliased lines)
    (fits : ¬Overlong limit lines) :
    ∃ next, (tryCatch (runIdentityCommand limit "AT+CCID" "CCID") (iccidFallback limit)).run.run
      ⟨lines.map .line ++ rest, written⟩ = (.ok (iccidRead aliased value), next) := by
  cases iccid with
  | direct answer => exact ⟨_, run_tryCatch_ok (run_stage (by decide) (by decide) ok answer fits)⟩
  | @fallback prefixed refused asked refusal answer =>
      obtain ⟨refusedFits, askedFits⟩ := not_or.mp (overlong_append.not.mp fits)
      obtain ⟨detail, unhurried, failed⟩ := run_refusal "AT+CCID" "CCID" (asked.map .line ++ rest)
        written (by decide) refusal (fits_of_not_overlong refusedFits)
      have second := run_answer "AT+ICCID" "CCID" rest (written ++ ["AT+CCID".toList]) (by decide) ok
        answer (fits_of_not_overlong askedFits)
      have read : stripStage "CCID".toList (shown "AT+ICCID".toList aliased value) =
          iccidRead aliased value := by
        cases aliased
        · exact stripStage_value _ ok
        · exact stripStage_alias value
      rw [read] at second
      rw [List.map_append, List.append_assoc, run_tryCatch_error failed, iccidFallback, unhurried,
        if_neg Bool.false_ne_true]
      exact ⟨_, run_tryCatch_ok second⟩

theorem run_iccid_overlong {aliased : Bool} (ok : IdentityValue value) (iccid : Iccid value aliased lines)
    (overlong : Overlong limit lines) :
    ((tryCatch (runIdentityCommand limit "AT+CCID" "CCID") (iccidFallback limit)).run.run
      ⟨lines.map .line ++ rest, written⟩).1 = .error .valueError := by
  cases iccid with
  | direct answer =>
      rw [run_tryCatch_error (Prod.ext (run_answer_overlong (by decide) ok answer overlong) rfl)]
      rfl
  | @fallback prefixed refused asked refusal answer =>
      rw [List.map_append, List.append_assoc]
      by_cases refusedLong : Overlong limit refused
      · rw [run_tryCatch_error
          (Prod.ext (run_refusal_overlong (by decide) refusal refusedLong) rfl)]
        rfl
      · have askedLong : Overlong limit asked := (overlong_append.mp overlong).resolve_left refusedLong
        obtain ⟨detail, unhurried, failed⟩ := run_refusal "AT+CCID" "CCID" (asked.map .line ++ rest)
          written (by decide) refusal (fits_of_not_overlong refusedLong)
        rw [run_tryCatch_error failed, iccidFallback, unhurried, if_neg Bool.false_ne_true,
          run_tryCatch_error (Prod.ext (run_answer_overlong (by decide) ok answer askedLong) rfl)]
        rfl

/-- The sequence gives each value as its stage reads it. -/
theorem identityRead_eq {id : ModemIdentity} {aliased : Bool} (transcript : Transcript id aliased lines)
    (fits : ¬Overlong limit lines) :
    identityRead limit (lines.map .line ++ rest) = .ok { id with iccid := iccidRead aliased id.iccid } := by
  obtain ⟨cgmi, cgmm, cgsn, ccid, _, _, _, rfl, first, second, third, fourth⟩ := transcript.answers
  have ok := transcript.values
  simp only [List.forall_mem_cons] at ok
  simp only [overlong_append, not_or] at fits
  obtain ⟨next, last⟩ := run_iccid rest
    ([] ++ ["AT+CGMI".toList] ++ ["AT+CGMM".toList] ++ ["AT+CGSN".toList]) ok.2.2.2.1 fourth fits.2.2.2
  simp only [List.map_append, List.append_assoc]
  rw [identityRead, readModemIdentity, run_bind_ok (run_stage (by decide) (by decide) ok.1 first fits.1),
    run_bind_ok (run_stage (by decide) (by decide) ok.2.1 second fits.2.1),
    run_bind_ok (run_stage (by decide) (by decide) ok.2.2.1 third fits.2.2.1), run_bind_ok last]
  rfl

/-- A line that is too long ends the sequence. -/
theorem identityRead_overlong {id : ModemIdentity} {aliased : Bool}
    (transcript : Transcript id aliased lines) (overlong : Overlong limit lines) :
    identityRead limit (lines.map .line ++ rest) = .error .valueError := by
  obtain ⟨cgmi, cgmm, cgsn, ccid, _, _, _, rfl, first, second, third, fourth⟩ := transcript.answers
  have ok := transcript.values
  simp only [List.forall_mem_cons] at ok
  simp only [overlong_append] at overlong
  simp only [List.map_append, List.append_assoc]
  rw [identityRead, readModemIdentity]
  by_cases one : Overlong limit cgmi
  · exact run_bind_error (run_answer_overlong (by decide) ok.1 first one)
  rw [run_bind_ok (run_stage (by decide) (by decide) ok.1 first one)]
  by_cases two : Overlong limit cgmm
  · exact run_bind_error (run_answer_overlong (by decide) ok.2.1 second two)
  rw [run_bind_ok (run_stage (by decide) (by decide) ok.2.1 second two)]
  by_cases three : Overlong limit cgsn
  · exact run_bind_error (run_answer_overlong (by decide) ok.2.2.1 third three)
  rw [run_bind_ok (run_stage (by decide) (by decide) ok.2.2.1 third three)]
  have four : Overlong limit ccid := ((overlong.resolve_left one).resolve_left two).resolve_left three
  exact run_bind_error (run_iccid_overlong ok.2.2.2.1 fourth four)

/-- **Identity.**  From a modem that answers each command with its value, the values are read
as they are if and only if no line is longer than the reader takes and the answer to the
second ICCID command, if it is asked, does not have its prefix. -/
theorem read_modem_identity_iff {id : ModemIdentity} {aliased : Bool}
    (transcript : Transcript id aliased lines) :
    identityRead limit (lines.map .line ++ rest) = .ok id ↔ ¬Overlong limit lines ∧ aliased = false := by
  constructor
  · intro read
    have fits : ¬Overlong limit lines := fun overlong => by
      rw [identityRead_overlong transcript overlong] at read
      cases read
    refine ⟨fits, (Bool.not_eq_true _).mp fun isAlias => ?_⟩
    rw [identityRead_eq transcript fits, isAlias] at read
    have same := congrArg ModemIdentity.iccid (Except.ok.inj read)
    have longer := congrArg List.length same
    simp only [iccidRead, if_true, List.length_append, ownPrefix] at longer
    simp at longer
  · rintro ⟨fits, rfl⟩
    rw [identityRead_eq transcript fits]
    rfl

/-! ## Poles -/

/-- A line as a modem sends it. -/
def sent (text : String) : List UInt8 := text.toList.map (fun c => UInt8.ofNat c.toNat) ++ [13, 10]

def aModem : ModemIdentity where
  manufacturer := "SIMCom".toList
  model := "A7670 E".toList
  imei := "868000000000001".toList
  iccid := "89860422111111111111".toList

theorem aModem_values : ∀ value ∈ [aModem.manufacturer, aModem.model, aModem.imei, aModem.iccid],
    IdentityValue value := by
  rintro value member
  simp only [List.mem_cons, List.not_mem_nil, or_false] at member
  rcases member with rfl | rfl | rfl | rfl
  all_goals exact ⟨by decide, List.all_iff_forall_prop.mp (by decide), by decide, by decide, by decide,
    by decide, by decide⟩

/-- Echoes, blank lines and prefixes; the first ICCID command is refused, and the second has
the line given. -/
def answersWith (iccid : String) : List (List UInt8) :=
  ["AT+CGMI", "", " SIMCom", "", "OK"].map sent ++ (["", "+CGMM: A7670 E", "OK"].map sent ++
    (["AT+CGSN", "868000000000001", "OK"].map sent ++
      (["AT+CCID", "", "+CME ERROR: 100"].map sent ++ ["AT+ICCID", iccid, "", "OK"].map sent)))

theorem transcript_answersWith {iccid : String} {aliased : Bool}
    (shows : said (["AT+ICCID", iccid, ""].map sent) =
      ["AT+ICCID".toList, shown "AT+ICCID".toList aliased aModem.iccid]) :
    Transcript aModem aliased (answersWith iccid) where
  values := aModem_values
  answers := by
    have manufacturer : Answer "AT+CGMI".toList aModem.manufacturer false
        (["AT+CGMI", "", " SIMCom", "", "OK"].map sent) :=
      ⟨["AT+CGMI", "", " SIMCom", ""].map sent, sent "OK", ["AT+CGMI".toList], rfl, .inr rfl,
        by decide, by decide⟩
    have model : Answer "AT+CGMM".toList aModem.model true (["", "+CGMM: A7670 E", "OK"].map sent) :=
      ⟨["", "+CGMM: A7670 E"].map sent, sent "OK", [], rfl, .inl rfl, by decide, by decide⟩
    have imei : Answer "AT+CGSN".toList aModem.imei false
        (["AT+CGSN", "868000000000001", "OK"].map sent) :=
      ⟨["AT+CGSN", "868000000000001"].map sent, sent "OK", ["AT+CGSN".toList], rfl, .inr rfl,
        by decide, by decide⟩
    have refusal : Refusal "AT+CCID".toList (["AT+CCID", "", "+CME ERROR: 100"].map sent) :=
      ⟨["AT+CCID", ""].map sent, sent "+CME ERROR: 100", ["AT+CCID".toList], rfl, .inr rfl,
        by decide, .inr (by decide)⟩
    have second : Answer "AT+ICCID".toList aModem.iccid aliased
        (["AT+ICCID", iccid, "", "OK"].map sent) :=
      ⟨["AT+ICCID", iccid, ""].map sent, sent "OK", ["AT+ICCID".toList], rfl, .inr rfl, shows,
        by decide⟩
    exact ⟨_, _, _, _, _, _, _, rfl, manufacturer, model, imei, .fallback refusal second⟩

/-- The second command answered by the bare value. -/
theorem bare_identity_read :
    identityRead 65536 ((answersWith "89860422111111111111").map .line ++ []) = .ok aModem :=
  (read_modem_identity_iff (transcript_answersWith (by decide : _ =
    ["AT+ICCID".toList, shown "AT+ICCID".toList false aModem.iccid]))).mpr
    ⟨by unfold Overlong; decide, rfl⟩

/-- The second command answered with its prefix: the ICCID that is read has it too. -/
theorem alias_prefix_read :
    (∃ aliased, Transcript aModem aliased (answersWith "+ICCID: 89860422111111111111")) ∧
      identityRead 65536 ((answersWith "+ICCID: 89860422111111111111").map .line) =
        .ok { aModem with iccid := "+ICCID: 89860422111111111111".toList } ∧
      "+ICCID: 89860422111111111111".toList ≠ aModem.iccid :=
  ⟨⟨true, transcript_answersWith (by decide)⟩, rfl, by decide⟩

end IsalesTelephony.Modem.AtProbe
