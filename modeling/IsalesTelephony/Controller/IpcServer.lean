/-
# Controller.IpcServer -- newline-delimited JSON over a stream

`modem_controller/ipc_server.py`.  `Connection.send` writes `json.dumps` of a message and a
newline, at most 1 MiB together.  `_read_loop` takes lines out of an `asyncio.StreamReader`
with `readuntil`, whose limit is the 64 KiB of `start_unix_server`, since `start` passes none.

`json.dumps(msg, ensure_ascii=False)` is `Json.dumps`; `json.loads` is a parameter.  Texts
are sequences of scalar values: a string that `encode` refuses is not one.  What a handler
does with its message, reply or raise, is the action's to choose.
-/
import IsalesTelephony.Modem.SerialProtocol
import IsalesTelephony.Theory.Transition

namespace IsalesTelephony.Controller

set_option autoImplicit false

open IsalesTelephony.Modem

abbrev Bytes := List UInt8

/-! ## JSON -/

/-- What a message is built from; a dict is its entries, in insertion order. -/
inductive Json where
  | null
  | bool (b : Bool)
  | int (n : Int)
  | str (text : Text)
  | list (items : List Json)
  | dict (entries : List (Text × Json))
  deriving Repr

namespace Json

def hexDigit (n : Nat) : Char := "0123456789abcdef".toList.getD n '0'

/-- `ESCAPE_DCT`, and `\u00xx` for the other control characters. -/
def escape (c : Char) : Text :=
  if c = '"' then ['\\', '"']
  else if c = '\\' then ['\\', '\\']
  else if c = '\n' then ['\\', 'n']
  else if c = '\r' then ['\\', 'r']
  else if c = '\t' then ['\\', 't']
  else if c.toNat = 8 then ['\\', 'b']
  else if c.toNat = 12 then ['\\', 'f']
  else if c.toNat < 32 then
    ['\\', 'u', '0', '0', hexDigit (c.toNat / 16), hexDigit (c.toNat % 16)]
  else [c]

def quote (text : Text) : Text := '"' :: text.flatMap escape ++ ['"']

/-- `int.__repr__`. -/
def digits : Int → Text
  | .ofNat n => Nat.toDigits 10 n
  | .negSucc n => '-' :: Nat.toDigits 10 (n + 1)

mutual

/-- `json.dumps(msg, ensure_ascii=False)`. -/
def dumps : Json → Text
  | .null => "null".toList
  | .bool true => "true".toList
  | .bool false => "false".toList
  | .int n => digits n
  | .str text => quote text
  | .list [] => "[]".toList
  | .list (item :: items) => '[' :: dumps item ++ dumpsItems items ++ [']']
  | .dict [] => "{}".toList
  | .dict (entry :: entries) => '{' :: dumpsEntry entry ++ dumpsEntries entries ++ ['}']

def dumpsItems : List Json → Text
  | [] => []
  | item :: items => ", ".toList ++ dumps item ++ dumpsItems items

def dumpsEntry : Text × Json → Text
  | (key, value) => quote key ++ ": ".toList ++ dumps value

def dumpsEntries : List (Text × Json) → Text
  | [] => []
  | entry :: entries => ", ".toList ++ dumpsEntry entry ++ dumpsEntries entries

end

end Json

/-! ## Frames -/

/-- `str.encode()`. -/
def encode (text : Text) : Bytes := text.flatMap String.utf8EncodeChar

def newline : UInt8 := 10

/-- `MAX_FRAME_BYTES`. -/
def maxFrameBytes : Nat := 1 * 1024 * 1024

/-- `json.dumps(msg, ensure_ascii=False).encode() + b"\n"`. -/
def frame (msg : Json) : Bytes := encode msg.dumps ++ [newline]

/-- `FrameError`, with what it says. -/
inductive FrameError where
  /-- `outbound frame ... bytes > 1048576` -/
  | outbound (size : Nat)
  /-- `incomplete frame at EOF (... bytes, no terminator)` -/
  | incomplete (size : Nat)
  | overrun
  | inbound (size : Nat)
  | invalidJson
  | notObject
  | noCmd
  deriving DecidableEq, Repr

/-- `Connection.send`: what it writes, or the error it raises. -/
def send (msg : Json) : Except FrameError Bytes :=
  if maxFrameBytes < (frame msg).length then .error (.outbound (frame msg).length)
  else .ok (frame msg)

/-! ## The reader -/

/-- The default limit of `start_unix_server`. -/
def readerLimit : Nat := 64 * 1024

/-- What `StreamReader.readuntil(b"\n")` comes to with what is buffered. -/
inductive ReadResult where
  | waits
  /-- it returns a line, its newline included -/
  | line (line rest : Bytes)
  | limitOverrun
  | incomplete (rest : Bytes)
  deriving DecidableEq, Repr

def readuntil (buffer : Bytes) (eof : Bool) : ReadResult :=
  match buffer.idxOf? newline with
  | some found =>
      if readerLimit < found then .limitOverrun
      else .line (buffer.take (found + 1)) (buffer.drop (found + 1))
  | none =>
      if readerLimit < buffer.length then .limitOverrun
      else if eof then .incomplete buffer
      else .waits

/-! ## The read loop -/

inductive Ending where
  | eof
  | frameError (error : FrameError)
  | handlerError
  deriving DecidableEq, Repr

inductive HandlerResult where
  | done
  | reply (reply : Json)
  | raises
  deriving Repr

structure IpcConnection where
  buffer : Bytes := []
  eof : Bool := false
  /-- `_read_loop` has ended, and `_on_connect` closed the connection -/
  ended : Option Ending := none
  handled : List Json := []
  sent : List Json := []
  received : Bytes := []

inductive IpcAction where
  | data (chunk : Bytes)
  | eof
  /-- `_read_loop` goes on with a line, and a handler with its message -/
  | read (result : HandlerResult)

namespace IpcConnection

def close (c : IpcConnection) (ending : Ending) : IpcConnection := { c with ended := some ending }

/-- `msg.get("cmd")`, when it is a string. -/
def cmd? : Json → Option Text
  | .dict entries =>
      match entries.lookup "cmd".toList with
      | some (.str cmd) => some cmd
      | _ => none
  | _ => none

def answer (c : IpcConnection) (reply : Json) : IpcConnection :=
  match send reply with
  | .ok _ => { c with sent := c.sent ++ [reply] }
  | .error error => c.close (.frameError error)

/-- The handler was called, or there is none. -/
def dispatch (c : IpcConnection) (handlers : List Text) (msg : Json) (cmd : Text)
    (result : HandlerResult) : IpcConnection :=
  if cmd ∈ handlers then
    let called := { c with handled := c.handled ++ [msg] }
    match result with
    | .done => called
    | .reply reply => called.answer reply
    | .raises => called.close .handlerError
  else
    c.answer (.dict [("error".toList, .str "unknown_cmd".toList), ("cmd".toList, .str cmd)])

def handleLine (c : IpcConnection) (loads : Bytes → Option Json) (handlers : List Text)
    (line : Bytes) (result : HandlerResult) : IpcConnection :=
  if maxFrameBytes < line.length then c.close (.frameError (.inbound line.length))
  else
    match loads line with
    | none => c.close (.frameError .invalidJson)
    | some (.dict entries) =>
        match cmd? (.dict entries) with
        | some cmd => c.dispatch handlers (.dict entries) cmd result
        | none => c.close (.frameError .noCmd)
    | some _ => c.close (.frameError .notObject)

/-- `_read_loop`, once `readuntil` does not wait. -/
def readLoop (c : IpcConnection) (loads : Bytes → Option Json) (handlers : List Text)
    (result : HandlerResult) : Option IpcConnection :=
  match readuntil c.buffer c.eof with
  | .waits => none
  | .line line rest => some ({ c with buffer := rest }.handleLine loads handlers line result)
  | .limitOverrun => some (c.close (.frameError .overrun))
  | .incomplete [] => some (c.close .eof)
  | .incomplete rest => some (c.close (.frameError (.incomplete rest.length)))

def step (loads : Bytes → Option Json) (handlers : List Text) (c : IpcConnection) :
    IpcAction → Option IpcConnection
  | .data chunk =>
      if c.eof = false ∧ chunk ≠ [] then
        some { c with buffer := c.buffer ++ chunk, received := c.received ++ chunk }
      else none
  | .eof => if c.eof = false then some { c with eof := true } else none
  | .read result => if c.ended = none then c.readLoop loads handlers result else none

end IpcConnection

end IsalesTelephony.Controller
