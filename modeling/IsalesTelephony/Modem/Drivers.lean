/-
# Modem.Drivers -- the vendor drivers and the dial-failure cause

`modem_controller/drivers.py`.  The three drivers share `dial` and `hangup`, so
one definition models them.  `dial` turns every exception of `AtClient.send` into
a `DialResult` whose cause is read off the exception's text; what the text is
follows Python's `str` of the exception.
-/
import IsalesTelephony.Modem.SerialProtocol
import Mathlib.Data.List.Infix

namespace IsalesTelephony.Modem

set_option autoImplicit false

/-! ## Texts of exceptions -/

def hexDigits (width n : Nat) : Text :=
  let digits := Nat.toDigits 16 n
  List.replicate (width - digits.length) '0' ++ digits

def reprChar (quote c : Char) : Text :=
  if c = '\\' then "\\\\".toList
  else if c = quote then ['\\', quote]
  else if c = '\n' then "\\n".toList
  else if c = '\r' then "\\r".toList
  else if c = '\t' then "\\t".toList
  else if c.toNat < 32 ∨ c.toNat = 127 then "\\x".toList ++ hexDigits 2 c.toNat
  else [c]

def reprText (text : Text) : Text :=
  let quote := if '\'' ∈ text ∧ '"' ∉ text then '"' else '\''
  quote :: text.flatMap (reprChar quote) ++ [quote]

def escapeChar (c : Char) : Text :=
  if c.toNat < 0x100 then "\\x".toList ++ hexDigits 2 c.toNat
  else if c.toNat < 0x10000 then "\\u".toList ++ hexDigits 4 c.toNat
  else "\\U".toList ++ hexDigits 8 c.toNat

/-- `str` of the `UnicodeEncodeError` of a line that is not ASCII. -/
def encodeErrorText (line : Text) : Text :=
  let ascii (c : Char) : Bool := c.toNat < 128
  let start := (line.takeWhile ascii).length
  let run := (line.dropWhile ascii).takeWhile fun c => !ascii c
  let subject :=
    match run with
    | [c] => "character '".toList ++ escapeChar c ++ "' in position ".toList ++ Nat.toDigits 10 start
    | _ =>
        "characters in position ".toList ++ Nat.toDigits 10 start ++ ['-'] ++
          Nat.toDigits 10 (start + run.length - 1)
  "'ascii' codec can't encode ".toList ++ subject ++ ": ordinal not in range(128)".toList

def AtCommandError.text (error : AtCommandError) : Text :=
  if error.detail = [] then error.code else error.code ++ ": ".toList ++ error.detail

/-- The exception `send` raised, by its text; `none` when it returned.  A
cancellation is not an `Exception`. -/
def SendOutcome.exception? : SendOutcome → Option Text
  | .returned _ => none
  | .raised error => some error.text
  | .timedOut command => some ("timed out waiting for response to ".toList ++ reprText command)
  | .clientClosed => some "client_closed".toList
  | .encodeFailed line => some (encodeErrorText line)
  | .drainFailed message => some message
  | .cancelled => none

/-! ## The cause of a failed dial -/

/-- `HANGUP_CAUSE_MAP`, in the order the source tries its tokens. -/
def hangupCauseMap : List (Text × Text) :=
  [("NO CARRIER".toList, "user_hangup".toList), ("BUSY".toList, "user_busy".toList),
    ("NO ANSWER".toList, "no_answer".toList),
    ("NO DIALTONE".toList, "network_out_of_order".toList), ("1".toList, "call_rejected".toList),
    ("16".toList, "normal_clearing".toList), ("17".toList, "user_busy".toList),
    ("18".toList, "no_answer".toList), ("19".toList, "no_answer".toList),
    ("27".toList, "network_out_of_order".toList), ("31".toList, "network_out_of_order".toList),
    ("34".toList, "network_out_of_order".toList), ("38".toList, "network_out_of_order".toList),
    ("41".toList, "temporary_failure".toList)]

/-- `_classify_dial_failure`; the texts above are ASCII but for what a failing
transport says, so `upper` is that of ASCII. -/
def classifyDialFailure (message : Text) : Text :=
  match hangupCauseMap.find? fun entry => entry.1 <:+: message.map Char.toUpper with
  | some entry => entry.2
  | none => "network_out_of_order".toList

/-! ## The drivers -/

structure DialResult where
  connected : Bool
  hangupCause : Option Text := none
  deriving DecidableEq, Repr

namespace ModemDriver

def dialCommand (phone : Text) : Text := "ATD".toList ++ phone ++ [';']

def hangupCommand : Text := "ATH".toList

/-- `dial`, once its send has ended; `none` when it was cancelled. -/
def dialResult (outcome : SendOutcome) : Option DialResult :=
  match outcome, outcome.exception? with
  | .returned response, _ => some { connected := response.ok }
  | _, some message =>
      some { connected := false, hangupCause := some (classifyDialFailure message) }
  | _, none => none

end ModemDriver

end IsalesTelephony.Modem
