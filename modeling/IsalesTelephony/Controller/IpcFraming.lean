/-
# Controller.IpcFraming -- what the line framing carries

`dumps` escapes the control characters and UTF-8 writes no other character with the byte of
the newline, so a frame has its newline at the end and nowhere else (`frame_lines`).  The
reader therefore finds the frames of a stream however it is cut into reads (`framed_step`):
after any run, the handlers have had a first part of the messages and the buffer begins
with the rest.

The sender allows 1 MiB and so does `_read_loop`, but the reader stops at 64 KiB: a stream
comes through exactly when none of its lines is longer than that
(`framing_round_trip`).
-/
import IsalesTelephony.Controller.IpcServer
import IsalesTelephony.Theory.Lines

namespace IsalesTelephony.Controller

set_option autoImplicit false

open IsalesTelephony.Modem
open IsalesTelephony.Theory
open IsalesTelephony.Theory.Transition

/-! ## One newline -/

namespace Json

/-- No control character. -/
def Printable (text : Text) : Prop := ∀ c ∈ text, 32 ≤ c.toNat

instance : DecidablePred Printable := List.decidableBAll fun c : Char => 32 ≤ c.toNat

theorem printable_append {a b : Text} (first : Printable a) (second : Printable b) :
    Printable (a ++ b) := by
  intro c member
  rcases List.mem_append.mp member with left | right
  · exact first c left
  · exact second c right

theorem printable_cons {c : Char} {text : Text} (head : 32 ≤ c.toNat) (tail : Printable text) :
    Printable (c :: text) := by
  intro d member
  rcases List.mem_cons.mp member with rfl | later
  · exact head
  · exact tail d later

theorem printable_nil : Printable [] := fun _ member => by cases member

theorem hexDigit_printable {n : Nat} (small : n < 16) : 32 ≤ (hexDigit n).toNat := by
  have all : ∀ n < 16, 32 ≤ (hexDigit n).toNat := by decide
  exact all n small

theorem escape_printable (c : Char) : Printable (escape c) := by
  unfold escape
  split_ifs with h₁ h₂ h₃ h₄ h₅ h₆ h₇ control
  · decide
  · decide
  · decide
  · decide
  · decide
  · decide
  · decide
  · intro d member
    simp only [List.mem_cons, List.not_mem_nil, or_false] at member
    rcases member with rfl | rfl | rfl | rfl | rfl | rfl
    · decide
    · decide
    · decide
    · decide
    · exact hexDigit_printable (by omega)
    · exact hexDigit_printable (by omega)
  · intro d member
    obtain rfl := List.mem_singleton.mp member
    omega

theorem quote_printable (text : Text) : Printable (quote text) := by
  refine printable_append (printable_cons (by decide) fun c member => ?_)
    (printable_cons (by decide) printable_nil)
  obtain ⟨d, -, escaped⟩ := List.mem_flatMap.mp member
  exact escape_printable d c escaped

theorem digits_printable (n : Int) : Printable (digits n) := by
  have natural : ∀ n, Printable (Nat.toDigits 10 n) := by
    intro n c member
    have isDigit := Nat.isDigit_of_mem_toDigits (by decide) (by decide) member
    simp only [Char.isDigit, ge_iff_le, Bool.and_eq_true, decide_eq_true_eq] at isDigit
    exact Nat.le_trans (by decide) isDigit.1
  cases n with
  | ofNat n => exact natural n
  | negSucc n => exact printable_cons (by decide) (natural (n + 1))

mutual

/-- `dumps` writes no control character. -/
theorem dumps_printable : ∀ v : Json, Printable v.dumps
  | .null => by simp only [dumps]; decide
  | .bool true => by simp only [dumps]; decide
  | .bool false => by simp only [dumps]; decide
  | .int n => by simpa only [dumps] using digits_printable n
  | .str text => by simpa only [dumps] using quote_printable text
  | .list [] => by simp only [dumps]; decide
  | .list (item :: items) => by
      simp only [dumps]
      exact printable_cons (by decide) (printable_append
        (printable_append (dumps_printable item) (dumpsItems_printable items))
        (printable_cons (by decide) printable_nil))
  | .dict [] => by simp only [dumps]; decide
  | .dict (entry :: entries) => by
      simp only [dumps]
      exact printable_cons (by decide) (printable_append
        (printable_append (dumpsEntry_printable entry) (dumpsEntries_printable entries))
        (printable_cons (by decide) printable_nil))

theorem dumpsItems_printable : ∀ items : List Json, Printable (dumpsItems items)
  | [] => by simpa only [dumpsItems] using printable_nil
  | item :: items => by
      simp only [dumpsItems]
      exact printable_append (printable_append (by decide) (dumps_printable item))
        (dumpsItems_printable items)

theorem dumpsEntry_printable : ∀ entry : Text × Json, Printable (dumpsEntry entry)
  | (key, value) => by
      simp only [dumpsEntry]
      exact printable_append (printable_append (quote_printable key) (by decide))
        (dumps_printable value)

theorem dumpsEntries_printable : ∀ entries : List (Text × Json), Printable (dumpsEntries entries)
  | [] => by simpa only [dumpsEntries] using printable_nil
  | entry :: entries => by
      simp only [dumpsEntries]
      exact printable_append
        (printable_append (by decide) (dumpsEntry_printable entry))
        (dumpsEntries_printable entries)

end

end Json

/-- Only the newline is written with its byte: the others of a longer sequence are past 127. -/
theorem newline_of_mem_utf8 {c : Char} (member : newline ∈ String.utf8EncodeChar c) :
    c.toNat = 10 := by
  have byte : ∀ n : Nat, newline = UInt8.ofNat n → n % 256 = 10 := by
    intro n same
    have value := congrArg UInt8.toNat same
    rw [UInt8.toNat_ofNat'] at value
    exact value.symm
  have value : c.val.toNat = c.toNat := rfl
  simp only [String.utf8EncodeChar] at member
  split_ifs at member
  · have first := byte _ (List.mem_singleton.mp member)
    omega
  · simp only [List.mem_cons, List.not_mem_nil, or_false] at member
    rcases member with here | here <;> (have value := byte _ here; omega)
  · simp only [List.mem_cons, List.not_mem_nil, or_false] at member
    rcases member with here | here | here <;> (have value := byte _ here; omega)
  · simp only [List.mem_cons, List.not_mem_nil, or_false] at member
    rcases member with here | here | here | here <;> (have value := byte _ here; omega)

theorem newline_notMem_encode {text : Text} (printable : Json.Printable text) :
    newline ∉ encode text := by
  intro member
  obtain ⟨c, inText, written⟩ := List.mem_flatMap.mp member
  have control := newline_of_mem_utf8 written
  have := printable c inText
  omega

/-- A message without its newline. -/
def body (msg : Json) : Bytes := encode msg.dumps

/-- The frames of the messages, one after the other. -/
def stream (msgs : List Json) : Bytes := Lines.stream newline (msgs.map body)

theorem frame_eq (msg : Json) : frame msg = body msg ++ [newline] := rfl

theorem newline_notMem_body (msg : Json) : newline ∉ body msg :=
  newline_notMem_encode (Json.dumps_printable msg)

/-- The line is within the limit of the reader. -/
def Short (msg : Json) : Prop := (frame msg).length ≤ readerLimit + 1

theorem short_iff (msg : Json) : Short msg ↔ (body msg).length ≤ readerLimit := by
  rw [Short, frame_eq, List.length_append, List.length_singleton]
  omega

theorem readuntil_frame (msg : Json) (more : Bytes) (eof : Bool) :
    readuntil (frame msg ++ more) eof =
      if readerLimit < (body msg).length then .limitOverrun else .line (frame msg) more := by
  have size : (frame msg).length = (body msg).length + 1 := by simp [frame_eq]
  simp only [readuntil]
  rw [show (frame msg ++ more).idxOf? newline = some (body msg).length from
    Lines.idxOf?_line (newline_notMem_body msg) more]
  simp only [← size, List.take_left, List.drop_left]

theorem readuntil_within {msg : Json} {buffer : Bytes} (within : buffer <+: body msg) :
    readuntil buffer false = if readerLimit < buffer.length then .limitOverrun else .waits := by
  simp only [readuntil]
  rw [Lines.idxOf?_within (newline_notMem_body msg) within]
  simp

/-! ## Runs -/

namespace IpcConnection

variable {loads : Bytes → Option Json} {handlers : List Text} {msgs : List Json}
variable {c d : IpcConnection}

/-- The peer keeps its side open, and handlers return no reply. -/
def Plain : IpcConnection → IpcAction → Prop
  | _, .data _ => True
  | _, .eof => False
  | _, .read result => result = .done

/-- The read loop alone goes on. -/
def Reading : IpcConnection → IpcAction → Prop
  | _, .read result => result = .done
  | _, _ => False

/-- The message is a dict with the name of a handler for its `cmd`. -/
def Addressed (handlers : List Text) (msg : Json) : Prop :=
  ∃ cmd ∈ handlers, cmd? msg = some cmd

/-- A line within the limit is parsed back and has a handler. -/
def Understood (loads : Bytes → Option Json) (handlers : List Text) (msg : Json) : Prop :=
  loads (frame msg) = some msg ∧ Addressed handlers msg

@[simp] theorem answer_received (c : IpcConnection) (reply : Json) :
    (c.answer reply).received = c.received := by
  unfold answer
  split <;> rfl

@[simp] theorem dispatch_received (c : IpcConnection) (handlers : List Text) (msg : Json)
    (cmd : Text) (result : HandlerResult) :
    (c.dispatch handlers msg cmd result).received = c.received := by
  unfold dispatch
  split
  · cases result with
    | done => rfl
    | reply reply => exact answer_received _ reply
    | raises => rfl
  · exact answer_received _ _

@[simp] theorem handleLine_received (c : IpcConnection) (loads : Bytes → Option Json)
    (handlers : List Text) (line : Bytes) (result : HandlerResult) :
    (c.handleLine loads handlers line result).received = c.received := by
  unfold handleLine
  split
  · rfl
  · split
    · rfl
    · split
      · exact dispatch_received _ _ _ _ _
      · rfl
    · rfl

/-- The read loop receives nothing by itself. -/
theorem readLoop_received {result : HandlerResult}
    (next : c.readLoop loads handlers result = some d) : d.received = c.received := by
  unfold readLoop at next
  split at next
  · cases next
  · obtain rfl := Option.some.inj next
    exact handleLine_received _ _ _ _ _
  · obtain rfl := Option.some.inj next
    rfl
  · obtain rfl := Option.some.inj next
    rfl
  · obtain rfl := Option.some.inj next
    rfl

theorem handleLine_frame {msg : Json} (understood : Understood loads handlers msg)
    (short : Short msg) :
    c.handleLine loads handlers (frame msg) .done = { c with handled := c.handled ++ [msg] } := by
  obtain ⟨inverts, cmd, known, isCmd⟩ := understood
  have fits : ¬ maxFrameBytes < (frame msg).length := by
    have : readerLimit + 1 ≤ maxFrameBytes := by decide
    unfold Short at short
    omega
  cases msg with
  | dict entries => simp only [handleLine, if_neg fits, inverts, isCmd, dispatch, if_pos known]
  | _ => cases isCmd

/-- Where a connection stands that has received a first part of the stream: some messages
are handled, and the buffer goes on from there.  It ends at a long line alone. -/
structure Framed (msgs : List Json) (c : IpcConnection) (done : Nat) : Prop where
  handled : c.handled = msgs.take done
  received : c.received = stream (msgs.take done) ++ c.buffer
  short : ∀ msg ∈ msgs.take done, Short msg
  open_ : c.eof = false
  ended : c.ended = none ∨ ∃ msg, msgs[done]? = some msg ∧ ¬ Short msg

variable {done : Nat}

theorem stream_split (msgs : List Json) (done : Nat) :
    stream msgs = stream (msgs.take done) ++ stream (msgs.drop done) := by
  rw [stream, stream, stream, ← Lines.stream_append, ← List.map_append, List.take_append_drop]

/-- The buffer begins the messages still to come. -/
theorem Framed.buffered (framed : Framed msgs c done) (part : c.received <+: stream msgs) :
    c.buffer <+: stream (msgs.drop done) := by
  rw [framed.received, stream_split msgs done] at part
  exact (List.prefix_append_right_inj _).mp part

theorem framed_init : Framed msgs {} 0 :=
  ⟨rfl, rfl, fun _ member => (by cases member), rfl, .inl rfl⟩

/-- The next message is handled. -/
theorem framed_line {msg : Json} {more : Bytes} (framed : Framed msgs c done)
    (next : msgs[done]? = some msg) (short : Short msg) (live : c.ended = none)
    (buffer : c.buffer = frame msg ++ more) :
    Framed msgs { c with buffer := more, handled := c.handled ++ [msg] } (done + 1) := by
  have taken : msgs.take (done + 1) = msgs.take done ++ [msg] := by
    rw [List.take_add_one, next]
    rfl
  refine ⟨?_, ?_, fun other member => ?_, framed.open_, .inl live⟩
  · rw [taken, framed.handled]
  · rw [taken, framed.received, buffer]
    simp [stream, Lines.stream, frame_eq]
  · rw [taken] at member
    rcases List.mem_append.mp member with before | last
    · exact framed.short other before
    · obtain rfl := List.mem_singleton.mp last
      exact short

/-- A long line ends the read loop. -/
theorem framed_overrun {msg : Json} (framed : Framed msgs c done)
    (next : msgs[done]? = some msg) (long : ¬ Short msg) (ending : Ending) :
    Framed msgs (c.close ending) done :=
  ⟨framed.handled, framed.received, framed.short, framed.open_, .inr ⟨msg, next, long⟩⟩

/-- What the read loop can do with what it has of the stream. -/
inductive LineMoves (msgs : List Json) (c : IpcConnection) (done : Nat) :
    Option IpcConnection → Prop
  | waits (incomplete : c.buffer = stream (msgs.drop done) → msgs.length ≤ done) :
      LineMoves msgs c done none
  | handles {d : IpcConnection} (framed : Framed msgs d (done + 1)) (live : d.ended = none)
      (received : d.received = c.received) : LineMoves msgs c done (some d)
  | overruns {d : IpcConnection} {msg : Json} (next : msgs[done]? = some msg)
      (long : ¬ Short msg) (framed : Framed msgs d done) (ending : d.ended ≠ none)
      (received : d.received = c.received) : LineMoves msgs c done (some d)

/-- **One line**: the read loop waits, hands the next message to its handler, or ends at a
long one. -/
theorem framed_read (understood : ∀ msg ∈ msgs, Short msg → Understood loads handlers msg)
    (framed : Framed msgs c done) (part : c.received <+: stream msgs) (live : c.ended = none) :
    LineMoves msgs c done (c.readLoop loads handlers .done) := by
  have buffered := framed.buffered part
  cases rest : msgs.drop done with
  | nil =>
      rw [rest] at buffered
      have empty : c.buffer = [] := List.prefix_nil.mp buffered
      simp only [readLoop, empty, framed.open_]
      exact .waits fun _ => List.drop_eq_nil_iff.mp rest
  | cons msg later =>
      have next : msgs[done]? = some msg := by
        rw [← List.head?_drop, rest]
        rfl
      have member : msg ∈ msgs := List.mem_of_getElem? next
      rw [rest] at buffered
      rcases Lines.prefix_stream_cons buffered with within | ⟨more, whole, -⟩
      · by_cases full : readerLimit < c.buffer.length
        · have long : ¬ Short msg := by
            have := within.length_le
            rw [short_iff]
            omega
          simp only [readLoop, framed.open_, readuntil_within within, if_pos full]
          exact .overruns next long (framed_overrun framed next long _) (by simp [close]) rfl
        · simp only [readLoop, framed.open_, readuntil_within within, if_neg full]
          refine .waits fun all => ?_
          have size := within.length_le
          rw [all, rest] at size
          simp only [stream, List.map_cons, Lines.stream_cons, List.length_append,
            List.length_singleton] at size
          omega
      · have whole : c.buffer = frame msg ++ more := whole
        by_cases short : Short msg
        · have fits := Nat.not_lt.mpr ((short_iff msg).mp short)
          simp only [readLoop, whole, readuntil_frame, if_neg fits]
          rw [handleLine_frame (understood msg member short) short]
          have handled := framed_line framed next short live whole
          exact .handles handled live rfl
        · have exceeds := Nat.not_le.mp ((short_iff msg).not.mp short)
          simp only [readLoop, whole, readuntil_frame, if_pos exceeds]
          exact .overruns next short (framed_overrun framed next short _) (by simp [close]) rfl

/-- The data of the peer only grows. -/
theorem framed_step (understood : ∀ msg ∈ msgs, Short msg → Understood loads handlers msg)
    {action : IpcAction} (plain : Plain c action) (next : step loads handlers c action = some d)
    (before : c.received <+: stream msgs → ∃ k, Framed msgs c k)
    (part : d.received <+: stream msgs) : ∃ k, Framed msgs d k := by
  cases action with
  | data chunk =>
      simp only [step] at next
      split at next
      · obtain rfl := Option.some.inj next
        obtain ⟨k, framed⟩ := before ((List.prefix_append _ _).trans part)
        exact ⟨k, framed.handled, by simp [framed.received], framed.short, framed.open_,
          framed.ended⟩
      · cases next
  | eof => cases plain
  | read result =>
      obtain rfl := plain
      simp only [step] at next
      split at next
      · rename_i live
        have same := readLoop_received next
        obtain ⟨k, framed⟩ := before (same ▸ part)
        have moves := framed_read understood framed (same ▸ part) live
        rw [next] at moves
        cases moves with
        | handles framed => exact ⟨_, framed⟩
        | overruns _ _ framed => exact ⟨_, framed⟩
      · cases next

theorem framed_run (understood : ∀ msg ∈ msgs, Short msg → Understood loads handlers msg)
    (run : Reachable (step loads handlers) Plain {} c) (part : c.received <+: stream msgs) :
    ∃ k, Framed msgs c k :=
  run.invariant (P := fun c => c.received <+: stream msgs → ∃ k, Framed msgs c k)
    (fun _ => ⟨0, framed_init⟩)
    (fun _ _ _ before plain next part => framed_step understood plain next before part) part

/-- With the whole stream received and no long line to come, the read loop hands over the
rest by itself. -/
theorem framed_drains (understood : ∀ msg ∈ msgs, Short msg → Understood loads handlers msg)
    (short : ∀ msg ∈ msgs, Short msg) (framed : Framed msgs c done) (live : c.ended = none)
    (all : c.received = stream msgs) :
    ∃ d, Reachable (step loads handlers) Reading c d ∧ d.handled = msgs ∧ d.ended = none := by
  induction left : msgs.length - done generalizing c done with
  | zero =>
      refine ⟨c, Reachable.refl c, ?_, live⟩
      rw [framed.handled, List.take_of_length_le (by omega)]
  | succ left ih =>
      have moves := framed_read understood framed (all ▸ List.prefix_rfl) live
      have rest : c.buffer = stream (msgs.drop done) := by
        have split := framed.received.symm.trans (all.trans (stream_split msgs done))
        exact List.append_cancel_left split
      generalize read : c.readLoop loads handlers .done = e at moves
      cases moves with
      | waits incomplete =>
          have := incomplete rest
          omega
      | @handles d framed' live' received =>
          obtain ⟨last, run, handled, open_⟩ := ih framed' live' (received.trans all) (by omega)
          refine ⟨last, Relation.ReflTransGen.head ⟨.read .done, rfl, ?_⟩ run, handled, open_⟩
          simp only [step, if_pos live]
          exact read
      | overruns next long => exact absurd (short _ (List.mem_of_getElem? next)) long

/-! ### Main result -/

/-- The messages come through a connection: their frames are lines, whatever part of the
stream is received leaves the connection open and hands out a first part of them, and with
the whole stream received the read loop hands out the rest. -/
structure RoundTrip (loads : Bytes → Option Json) (handlers : List Text) (msgs : List Json) :
    Prop where
  line : ∀ msg ∈ msgs, ∃ text, frame msg = text ++ [newline] ∧ newline ∉ text
  stays : ∀ c, Reachable (step loads handlers) Plain {} c → c.received <+: stream msgs →
    c.ended = none ∧ c.handled <+: msgs
  arrives : ∀ c, Reachable (step loads handlers) Plain {} c → c.received = stream msgs →
    ∃ d, Reachable (step loads handlers) Reading c d ∧ d.handled = msgs ∧ d.ended = none

/-- A message is refused: `send` raises, and a read loop that receives its frame closes the
connection and hands out nothing. -/
structure Refused (loads : Bytes → Option Json) (handlers : List Text) (msg : Json) :
    Prop where
  sender : send msg = .error (.outbound (frame msg).length)
  receiver : ∀ c, Reachable (step loads handlers) Plain {} c → c.received = frame msg →
    c.handled = [] ∧
      (c.ended = none → ∃ d, step loads handlers c (.read .done) = some d ∧ d.ended ≠ none)

theorem round_trip_of_short (understood : ∀ msg ∈ msgs, Understood loads handlers msg)
    (short : ∀ msg ∈ msgs, Short msg) : RoundTrip loads handlers msgs where
  line := fun msg _ => ⟨body msg, rfl, newline_notMem_body msg⟩
  stays := by
    intro c run part
    obtain ⟨done, framed⟩ := framed_run (fun msg member _ => understood msg member) run part
    refine ⟨framed.ended.resolve_right ?_, framed.handled ▸ List.take_prefix _ _⟩
    rintro ⟨msg, next, long⟩
    exact long (short msg (List.mem_of_getElem? next))
  arrives := by
    intro c run all
    obtain ⟨done, framed⟩ :=
      framed_run (fun msg member _ => understood msg member) run (all ▸ List.prefix_rfl)
    refine framed_drains (fun msg member _ => understood msg member) short framed
      (framed.ended.resolve_right ?_) all
    rintro ⟨msg, next, long⟩
    exact long (short msg (List.mem_of_getElem? next))

/-- The whole stream arrives at once. -/
theorem received_at_once (loads : Bytes → Option Json) (handlers : List Text) (msgs : List Json) :
    ∃ c, Reachable (step loads handlers) Plain {} c ∧ c.received = stream msgs := by
  by_cases empty : stream msgs = []
  · exact ⟨{}, Reachable.refl _, empty.symm⟩
  · refine ⟨{ buffer := stream msgs, received := stream msgs },
      (Reachable.refl _).snoc (a := IpcAction.data (stream msgs)) trivial ?_, rfl⟩
    simp [step, empty]

theorem short_of_round_trip (understood : ∀ msg ∈ msgs, Understood loads handlers msg)
    (trip : RoundTrip loads handlers msgs) : ∀ msg ∈ msgs, Short msg := by
  obtain ⟨c, run, all⟩ := received_at_once loads handlers msgs
  obtain ⟨d, reads, handled, -⟩ := trip.arrives c run all
  have reached : Reachable (step loads handlers) Plain {} d := by
    refine Relation.ReflTransGen.trans run (reads.mono fun c action reading => ?_)
    cases action with
    | read => exact reading
    | data | eof => cases reading
  have received : d.received = stream msgs := by
    refine reads.invariant (P := fun d => d.received = stream msgs) all
      fun c action d same reading next => ?_
    cases action with
    | data | eof => cases reading
    | read result =>
        simp only [step] at next
        split at next
        · exact (readLoop_received next).trans same
        · cases next
  obtain ⟨done, framed⟩ :=
    framed_run (fun msg member _ => understood msg member) reached (received ▸ List.prefix_rfl)
  intro msg member
  rw [← handled, framed.handled] at member
  exact framed.short msg member

/-- A line past the limit of the sender is past that of the reader. -/
theorem refused_of_large (loads : Bytes → Option Json) (handlers : List Text) (msg : Json)
    (large : maxFrameBytes < (frame msg).length) : Refused loads handlers msg where
  sender := if_pos large
  receiver := by
    intro c run all
    have long : ¬ Short msg := by
      have : readerLimit + 1 ≤ maxFrameBytes := by decide
      unfold Short
      omega
    have all' : c.received = stream [msg] := by simpa [stream, frame_eq] using all
    have understood : ∀ other ∈ [msg], Short other → Understood loads handlers other := by
      intro other member short
      obtain rfl := List.mem_singleton.mp member
      exact absurd short long
    obtain ⟨done, framed⟩ := framed_run understood run (all' ▸ List.prefix_rfl)
    have none_done : done = 0 := by
      by_contra some_done
      refine long (framed.short msg ?_)
      obtain ⟨k, rfl⟩ := Nat.exists_eq_succ_of_ne_zero some_done
      simp
    subst none_done
    refine ⟨framed.handled, fun live => ?_⟩
    have moves := framed_read understood framed (all' ▸ List.prefix_rfl) live
    have rest : c.buffer = stream ([msg].drop 0) := by
      have split := framed.received.symm.trans (all'.trans (stream_split [msg] 0))
      exact List.append_cancel_left split
    generalize read : c.readLoop loads handlers .done = e at moves
    cases moves with
    | waits incomplete => exact absurd (incomplete rest) (by simp)
    | handles framed' => exact absurd (framed'.short msg (by simp)) long
    | @overruns d _ _ _ _ ending _ =>
        exact ⟨d, by simp only [step, if_pos live]; exact read, ending⟩

/-- **The framing holds up to 64 KiB.**  With a codec that parses back what it writes,
messages for handlers that neither raise nor reply come through if and only if no line is
longer than the reader takes; past 1 MiB a message is refused at both ends. -/
theorem framing_round_trip (loads : Bytes → Option Json) (handlers : List Text)
    (msgs : List Json) (inverts : ∀ msg ∈ msgs, loads (frame msg) = some msg)
    (addressed : ∀ msg ∈ msgs, Addressed handlers msg) :
    (RoundTrip loads handlers msgs ↔ ∀ msg ∈ msgs, (frame msg).length ≤ readerLimit + 1) ∧
      ∀ msg, maxFrameBytes < (frame msg).length → Refused loads handlers msg := by
  have understood : ∀ msg ∈ msgs, Understood loads handlers msg :=
    fun msg member => ⟨inverts msg member, addressed msg member⟩
  exact ⟨⟨short_of_round_trip understood, round_trip_of_short understood⟩,
    fun msg large => refused_of_large loads handlers msg large⟩

/-! ## Poles -/

/-- `{"cmd": "status"}`. -/
def statusMessage : Json := .dict [("cmd".toList, .str "status".toList)]

/-- `{"cmd": "audio_downstream", "bytes_b64": "AAAA..."}`. -/
def audioMessage (chars : Nat) : Json :=
  .dict [("cmd".toList, .str "audio_downstream".toList),
    ("bytes_b64".toList, .str (List.replicate chars 'A'))]

/-- A parser that knows these two messages. -/
def loadsEither (chars : Nat) (line : Bytes) : Option Json :=
  if line = frame statusMessage then some statusMessage
  else if line = frame (audioMessage chars) then some (audioMessage chars)
  else none

theorem audio_text (chars : Nat) : (audioMessage chars).dumps =
    "\x7b\"cmd\": \"audio_downstream\", \"bytes_b64\": \"".toList ++
      List.replicate chars 'A' ++ "\"\x7d".toList := by
  have plain : (List.replicate chars 'A').flatMap Json.escape = List.replicate chars 'A' := by
    rw [List.flatMap_replicate, show Json.escape 'A' = ['A'] from rfl,
      List.flatten_replicate_singleton]
  simp only [audioMessage, Json.dumps, Json.dumpsEntry, Json.dumpsEntries, Json.quote, plain,
    List.append_assoc, List.append_nil, List.cons_append]
  rfl

theorem audio_length (chars : Nat) : (frame (audioMessage chars)).length = chars + 45 := by
  have size : ∀ n, (encode (List.replicate n 'A')).length = n := by
    intro n
    rw [encode, List.flatMap_replicate, show String.utf8EncodeChar 'A' = [65] from rfl,
      List.flatten_replicate_singleton, List.length_replicate]
  have parts : ∀ a b : Text, encode (a ++ b) = encode a ++ encode b := fun _ _ =>
    List.flatMap_append
  have front : (encode "\x7b\"cmd\": \"audio_downstream\", \"bytes_b64\": \"".toList).length = 42 := by
    decide
  have back : (encode "\"\x7d".toList).length = 2 := by decide
  rw [frame, audio_text, parts, parts]
  simp only [List.length_append, size, front, back, List.length_singleton]
  omega

theorem loadsEither_audio (chars : Nat) :
    loadsEither chars (frame (audioMessage chars)) = some (audioMessage chars) := by
  have other : frame (audioMessage chars) ≠ frame statusMessage := by
    intro same
    have length := congrArg List.length same
    rw [audio_length, show (frame statusMessage).length = 18 by decide] at length
    omega
  rw [loadsEither, if_neg other, if_pos rfl]

/-- Three messages, that in the middle as long as a line may be. -/
theorem status_comes_through :
    RoundTrip (loadsEither 65492) ["status".toList, "audio_downstream".toList]
        [statusMessage, audioMessage 65492, statusMessage] ∧
      (frame (audioMessage 65492)).length = readerLimit + 1 := by
  have known : ∀ msg ∈ [statusMessage, audioMessage 65492, statusMessage],
      msg = statusMessage ∨ msg = audioMessage 65492 := by
    intro msg member
    simp only [List.mem_cons, List.not_mem_nil, or_false] at member
    tauto
  have longest : (frame (audioMessage 65492)).length = readerLimit + 1 := audio_length 65492
  refine ⟨(framing_round_trip _ _ _ (fun msg member => ?_) fun msg member => ?_).1.mpr
    fun msg member => ?_, longest⟩
  · rcases known msg member with rfl | rfl
    · exact if_pos rfl
    · exact loadsEither_audio 65492
  · rcases known msg member with rfl | rfl
    · exact ⟨"status".toList, by decide, rfl⟩
    · exact ⟨"audio_downstream".toList, by decide, rfl⟩
  · rcases known msg member with rfl | rfl
    · decide
    · exact longest.le

/-- The audio of 51 KiB. -/
theorem long_audio_refused :
    ¬ ∀ (loads : Bytes → Option Json) (handlers : List Text) (msgs : List Json),
      (∀ msg ∈ msgs, loads (frame msg) = some msg) → (∀ msg ∈ msgs, Addressed handlers msg) →
        (∀ msg ∈ msgs, send msg = .ok (frame msg)) → RoundTrip loads handlers msgs := by
  intro claim
  have understood : ∀ msg ∈ [audioMessage 69632],
      Understood (loadsEither 69632) ["audio_downstream".toList] msg := by
    intro msg member
    obtain rfl := List.mem_singleton.mp member
    exact ⟨loadsEither_audio 69632, "audio_downstream".toList, by decide, rfl⟩
  have trip := claim (loadsEither 69632) ["audio_downstream".toList] [audioMessage 69632]
    (fun msg member => (understood msg member).1) (fun msg member => (understood msg member).2)
    fun msg member => by
      obtain rfl := List.mem_singleton.mp member
      exact if_neg (by rw [audio_length]; decide)
  have short := short_of_round_trip understood trip (audioMessage 69632) (List.mem_singleton_self _)
  unfold Short at short
  rw [audio_length] at short
  exact absurd short (by decide)

end IpcConnection

end IsalesTelephony.Controller
