/-
# Modem.Streams -- what the event streams yield

`StreamLog` is the serial client with the history of its event streams: what each
has yielded, and which were ended by `aclose`, of the stream or of the client.

* `events_form_a_word`: what the stream of a call yields is `connected`, at most
  once, then `remote_hangup`, all of them its own, and the word is complete when the
  stream ended otherwise than by `aclose`;
* `hangup_stays_with_its_call`: an ATH that `hangup` sends is on the wire before the
  ATD of any later call, and its event on no other stream.
-/
import IsalesTelephony.Modem.CallSlot
import IsalesTelephony.Modem.CallQueue

namespace IsalesTelephony.Modem

set_option autoImplicit false

open IsalesTelephony.Theory.Transition

/-! ## The history of the streams -/

structure StreamLog where
  client : SerialAtClient := {}
  /-- what the stream of a call yielded, in order -/
  yields : List (Nat × AtEvent) := []
  /-- the streams ended by `aclose` -/
  cut : List Nat := []
  deriving DecidableEq, Repr

namespace StreamLog

/-- The stream of a call. -/
def stream (s : SerialAtClient) (call : Nat) : StreamPc :=
  (s.calls[call]?.map (·.stream)).getD .absent

/-- What a step yields to the consumer of a stream. -/
def handed (before after : SerialAtClient) : SerialAction → Option (Nat × AtEvent)
  | .next call =>
      match stream before call with
      | .single event => some (call, event)
      | _ => none
  | .wake call =>
      match stream after call with
      | .yielded _ _ event => some (call, event)
      | _ => none
  | _ => none

/-- The stream a step ends for `aclose`: its own, or that of the client, which left
the sentinel. -/
def cuts (after : SerialAtClient) : SerialAction → Option Nat
  | .close call => some call
  | .wake call => if after.closing ∧ stream after call = .closed then some call else none
  | _ => none

def step (l : StreamLog) (action : SerialAction) : Option StreamLog :=
  (l.client.step action).map fun client =>
    { client := client
      yields := l.yields ++ (handed l.client client action).toList
      cut := l.cut ++ (cuts client action).toList }

/-- The events the stream of a call yielded. -/
def yieldsOf (l : StreamLog) (call : Nat) : List AtEvent :=
  l.yields.filterMap fun y => if y.1 = call then some y.2 else none

end StreamLog

/-! ## The language -/

/-- At most one connected and then, if `complete`, one remote_hangup, of the call. -/
def Word (call : Nat) (events : List AtEvent) (complete : Bool) : Prop :=
  ∃ connected hangup, events = connected ++ hangup ∧
    (connected = [] ∨ connected = [.connected call]) ∧
    if complete then ∃ cause, hangup = [.remoteHangup call cause] else hangup = []

/-- What a stream has yielded, by where it is. -/
def Told (call : Nat) (events : List AtEvent) (cut : Prop) : StreamPc → Prop
  | .absent => events = []
  | .unstarted => events = []
  | .waiting _ seen => events = if seen then [.connected call] else []
  | .yielded _ seen (.connected _) => seen = true ∧ events = [.connected call]
  | .yielded _ seen (.remoteHangup _ _) =>
      ∃ cause, events = (if seen then [.connected call] else []) ++ [.remoteHangup call cause]
  | .single event => events = [] ∧ ∃ cause, event = .remoteHangup call cause
  | .singleYielded => ∃ cause, events = [.remoteHangup call cause]
  | .closed => ∃ complete, Word call events complete ∧ (complete = true ∨ cut)

section Language

variable {call : Nat} {events : List AtEvent} {cut cut' : Prop} {stream : StreamPc}

theorem word_before (call : Nat) (seen : Bool) :
    Word call (if seen then [.connected call] else []) false := by
  refine ⟨if seen then [.connected call] else [], [], by simp, ?_, rfl⟩
  cases seen <;> simp

theorem word_after (call : Nat) (seen : Bool) (cause : Text) :
    Word call ((if seen then [.connected call] else []) ++ [.remoteHangup call cause]) true := by
  refine ⟨if seen then [.connected call] else [], _, rfl, ?_, cause, rfl⟩
  cases seen <;> simp

/-- Whatever a stream has yielded is a word or the beginning of one. -/
theorem Told.word (told : Told call events cut stream) : ∃ complete, Word call events complete ∧
    (stream = .closed → complete = true ∨ cut) := by
  have fresh : Word call [] false := word_before call false
  cases stream with
  | absent | unstarted =>
      obtain rfl : events = [] := told
      exact ⟨false, fresh, fun closed => by cases closed⟩
  | waiting source seen =>
      rw [show events = _ from told]
      exact ⟨false, word_before call seen, fun closed => by cases closed⟩
  | yielded source seen event =>
      cases event with
      | connected k =>
          rw [told.2]
          exact ⟨false, word_before call true, fun closed => by cases closed⟩
      | remoteHangup k why =>
          obtain ⟨cause, rfl⟩ := told
          exact ⟨true, word_after call seen cause, fun closed => by cases closed⟩
  | single event =>
      obtain ⟨rfl, -⟩ := told
      exact ⟨false, fresh, fun closed => by cases closed⟩
  | singleYielded =>
      obtain ⟨cause, rfl⟩ := told
      exact ⟨true, word_after call false cause, fun closed => by cases closed⟩
  | closed =>
      obtain ⟨complete, word, ended⟩ := told
      exact ⟨complete, word, fun _ => ended⟩

theorem Told.mono (told : Told call events cut stream) (weaker : cut → cut') :
    Told call events cut' stream := by
  cases stream with
  | closed =>
      obtain ⟨complete, word, ended⟩ := told
      exact ⟨complete, word, ended.imp_right weaker⟩
  | yielded source seen event => cases event <;> exact told
  | _ => exact told

/-- A stream that is ended by `aclose` may end anywhere. -/
theorem Told.close (told : Told call events cut stream) (isCut : cut') :
    Told call events cut' .closed := by
  obtain ⟨complete, word, -⟩ := told.word
  exact ⟨complete, word, .inr isCut⟩

end Language

namespace StreamLog

variable {l m : StreamLog} {s t : SerialAtClient} {call k : Nat} {c c' : Call}
  {action : SerialAction} {events : List AtEvent} {cut cut' : Prop}

theorem setStream_stream {stream : StreamPc} (at' : (s.setStream call stream).CallAt call c') :
    c'.stream = stream := by
  obtain ⟨-, -, ⟨-, rfl⟩ | ⟨other, -⟩⟩ := SerialAtClient.setStream_callAt at'
  · rfl
  · exact absurd rfl other

theorem endStream_stream (at' : (s.endStream call).CallAt call c') : c'.stream = .closed := by
  obtain ⟨-, -, -, ⟨-, closed⟩ | ⟨other, -⟩⟩ := SerialAtClient.endStream_callAt at'
  · exact closed
  · exact absurd rfl other

theorem closeStream_stream {stream : StreamPc} (closes : s.closeStream call stream = some t)
    (at' : t.CallAt call c') : c'.stream = .closed := by
  unfold SerialAtClient.closeStream at closes
  split at closes
  · obtain rfl := Option.some.inj closes
    exact setStream_stream at'
  · obtain rfl := Option.some.inj closes
    exact setStream_stream at'
  · obtain rfl := Option.some.inj closes
    exact setStream_stream at'
  · obtain rfl := Option.some.inj closes
    exact endStream_stream at'
  · obtain rfl := Option.some.inj closes
    exact endStream_stream at'
  · cases closes

theorem stream_eq (at_ : s.CallAt call c) : stream s call = c.stream := by
  simp [stream, show s.calls[call]? = some c from at_]

/-- What `__anext__` does to its stream. -/
inductive NextMoves : StreamPc → StreamPc → Prop
  | started (source : Nat) : NextMoves .unstarted (.waiting source false)
  | shut : NextMoves .unstarted .closed
  | resumed (source : Nat) (seen : Bool) (k : Nat) :
      NextMoves (.yielded source seen (.connected k)) (.waiting source seen)
  | ended (source : Nat) (seen : Bool) (k : Nat) (cause : Text) :
      NextMoves (.yielded source seen (.remoteHangup k cause)) .closed
  | single (event : AtEvent) : NextMoves (.single event) .singleYielded
  | singleEnded : NextMoves .singleYielded .closed

/-- What `queue.get()` does to its stream. -/
inductive WakeMoves : StreamPc → StreamPc → Prop
  | connected (source k : Nat) :
      WakeMoves (.waiting source false) (.yielded source true (.connected k))
  | again (source : Nat) : WakeMoves (.waiting source true) (.waiting source true)
  | hangup (source : Nat) (seen : Bool) (k : Nat) (cause : Text) :
      WakeMoves (.waiting source seen) (.yielded source seen (.remoteHangup k cause))
  | sentinel (source : Nat) (seen : Bool) : WakeMoves (.waiting source seen) .closed

theorem next_stream (wired : s.Wired) (next : s.step (.next call) = some t) :
    ∃ c c', s.CallAt call c ∧ t.CallAt call c' ∧ c'.dial = c.dial ∧ NextMoves c.stream c'.stream := by
  obtain ⟨c, at_, taken⟩ := Option.bind_eq_some_iff.mp next
  obtain ⟨c', at', -⟩ := SerialAtClient.callAt_stays wired next at_
  refine ⟨c, c', at_, at', ?_⟩
  have sets : ∀ {stream}, NextMoves c.stream stream → (s.setStream call stream).CallAt call c' →
      c'.dial = c.dial ∧ NextMoves c.stream c'.stream := by
    intro stream moves at'
    rw [setStream_stream at']
    obtain ⟨before, here, ⟨-, rfl⟩ | ⟨other, -⟩⟩ := SerialAtClient.setStream_callAt at'
    · obtain rfl := Option.some.inj (at_.symm.trans here)
      exact ⟨rfl, moves⟩
    · exact absurd rfl other
  unfold SerialAtClient.nextEvent at taken
  split at taken
  · rename_i stream
    split at taken <;> obtain rfl := Option.some.inj taken
    · exact sets (stream ▸ .started _) at'
    · exact sets (stream ▸ .shut) at'
  · rename_i source seen event stream
    cases event with
    | connected k =>
        obtain rfl := Option.some.inj taken
        exact sets (stream ▸ .resumed source seen k) at'
    | remoteHangup k cause =>
        obtain rfl := Option.some.inj taken
        obtain ⟨before, here, dial, -⟩ := SerialAtClient.endStream_callAt at'
        obtain rfl := Option.some.inj (at_.symm.trans here)
        rw [endStream_stream at', stream]
        exact ⟨dial, .ended source seen k cause⟩
  · rename_i event stream
    obtain rfl := Option.some.inj taken
    exact sets (stream ▸ .single event) at'
  · rename_i stream
    obtain rfl := Option.some.inj taken
    exact sets (stream ▸ .singleEnded) at'
  · cases taken

theorem wake_stream (wired : s.Wired) (next : s.step (.wake call) = some t) :
    ∃ c c', s.CallAt call c ∧ t.CallAt call c' ∧ c'.dial = c.dial ∧ WakeMoves c.stream c'.stream := by
  obtain ⟨c, at_, taken⟩ := Option.bind_eq_some_iff.mp next
  obtain ⟨c', at', -⟩ := SerialAtClient.callAt_stays wired next at_
  refine ⟨c, c', at_, at', ?_⟩
  unfold SerialAtClient.wakeStream at taken
  split at taken
  · rename_i source seen stream
    obtain ⟨from_, reads, popped⟩ := Option.bind_eq_some_iff.mp taken
    split at popped
    · rename_i item rest queue
      obtain rfl := Option.some.inj popped
      -- the queue of `source` changes, and then the stream of the call
      have was : ∀ {d}, (s.modify source fun c => { c with queue := rest }).CallAt call d →
          d.dial = c.dial ∧ d.stream = c.stream := by
        intro d here
        obtain ⟨old, before, rfl⟩ := SerialAtClient.modify_callAt.mp here
        obtain rfl := Option.some.inj (at_.symm.trans before)
        split <;> exact ⟨rfl, rfl⟩
      have sets : ∀ {now}, WakeMoves c.stream now →
          ((s.modify source fun c => { c with queue := rest }).setStream call now).CallAt call c' →
          c'.dial = c.dial ∧ WakeMoves c.stream c'.stream := by
        intro now moves at'
        rw [setStream_stream at']
        obtain ⟨before, here, ⟨-, rfl⟩ | ⟨other, -⟩⟩ := SerialAtClient.setStream_callAt at'
        · exact ⟨(was here).1, moves⟩
        · exact absurd rfl other
      rcases item with _ | ⟨j⟩ | ⟨j, cause⟩
      · obtain ⟨before, here, dial, -⟩ := SerialAtClient.endStream_callAt at'
        rw [endStream_stream at', stream]
        exact ⟨dial.trans (was here).1, .sentinel source seen⟩
      · cases seen with
        | true =>
            have same := was at'
            rw [same.2, stream]
            exact ⟨same.1, .again source⟩
        | false => exact sets (stream ▸ .connected source j) at'
      · exact sets (stream ▸ .hangup source seen j cause) at'
    · cases popped
  · cases taken

/-- Before `aclose` no queue holds the sentinel, so no stream ends as it reads. -/
theorem wake_open (tidy : s.Tidy) (unclosed : s.closing = false)
    (next : s.step (.wake call) = some t) (at' : t.CallAt call c') : c'.stream ≠ .closed := by
  obtain ⟨c, at_, taken⟩ := Option.bind_eq_some_iff.mp next
  unfold SerialAtClient.wakeStream at taken
  split at taken
  · rename_i source seen stream
    obtain ⟨from_, reads, popped⟩ := Option.bind_eq_some_iff.mp taken
    split at popped
    · rename_i item rest queue
      obtain rfl := Option.some.inj popped
      have own := (tidy.calls source from_ reads).own item (by rw [queue]; exact List.mem_cons_self)
      rcases item with _ | ⟨j⟩ | ⟨j, cause⟩
      · have closing : s.closing = true := own
        rw [unclosed] at closing
        cases closing
      · cases seen with
        | true =>
            obtain ⟨old, before, rfl⟩ := SerialAtClient.modify_callAt.mp at'
            obtain rfl := Option.some.inj (at_.symm.trans before)
            split <;> simp [stream]
        | false =>
            rw [setStream_stream at']
            simp
      · rw [setStream_stream at']
        simp
    · cases popped
  · cases taken

/-! ## The stream that moves -/

/-- `__anext__`: nothing is yielded, or the one event of a failed dial. -/
theorem told_next (told : Told call events cut c.stream) (at_ : s.CallAt call c)
    (wired : s.Wired) (next : s.step (.next call) = some t) (at' : t.CallAt call c') :
    Told call (events ++ ((handed s t (.next call)).map (·.2)).toList) cut c'.stream := by
  obtain ⟨found, here, taken⟩ := Option.bind_eq_some_iff.mp next
  obtain rfl := Option.some.inj (here.symm.trans at_)
  rw [handed, stream_eq at_]
  cases now : found.stream with
  | unstarted =>
      rw [now] at told taken
      have active : s.active = some call := (wired.slots at_).opened (by rw [now]; rfl)
      simp only [SerialAtClient.nextEvent, active] at taken
      obtain rfl := Option.some.inj taken
      obtain rfl : events = [] := told
      rw [setStream_stream at']
      rfl
  | yielded source seen event =>
      rw [now] at told taken
      cases event with
      | connected j =>
          obtain ⟨rfl, rfl⟩ := told
          simp only [SerialAtClient.nextEvent, AtEvent.IsHangup] at taken
          obtain rfl := Option.some.inj taken
          rw [setStream_stream at']
          rfl
      | remoteHangup j why =>
          obtain ⟨cause, rfl⟩ := told
          simp only [SerialAtClient.nextEvent, AtEvent.IsHangup, if_true] at taken
          obtain rfl := Option.some.inj taken
          rw [endStream_stream at']
          exact ⟨true, by simpa using word_after call seen cause, .inl rfl⟩
  | single event =>
      rw [now] at told taken
      obtain ⟨rfl, cause, rfl⟩ := told
      obtain rfl := Option.some.inj taken
      rw [setStream_stream at']
      exact ⟨cause, rfl⟩
  | singleYielded =>
      rw [now] at told taken
      obtain ⟨cause, rfl⟩ := told
      obtain rfl := Option.some.inj taken
      rw [setStream_stream at']
      exact ⟨true, word_after call false cause, .inl rfl⟩
  | absent | waiting | closed =>
      rw [now] at taken
      cases taken

/-- `queue.get()` returned: what the queue of the call holds is the call's own. -/
theorem told_wake (told : Told call events cut c.stream) (at_ : s.CallAt call c)
    (wired : s.Wired) (tidy : s.Tidy) (next : s.step (.wake call) = some t)
    (at' : t.CallAt call c') (isCut : t.closing = true → c'.stream = .closed → cut') :
    Told call (events ++ ((handed s t (.wake call)).map (·.2)).toList) cut' c'.stream := by
  obtain ⟨found, here, taken⟩ := Option.bind_eq_some_iff.mp next
  obtain rfl := Option.some.inj (here.symm.trans at_)
  rw [handed, stream_eq at']
  cases now : found.stream with
  | waiting source seen =>
      rw [now] at told taken
      simp only [SerialAtClient.wakeStream] at taken
      obtain ⟨from_, reads, popped⟩ := Option.bind_eq_some_iff.mp taken
      obtain rfl : source = call := (wired.slots at_).source source (by rw [now]; rfl)
      obtain rfl := Option.some.inj (reads.symm.trans at_)
      split at popped
      · rename_i item rest queue
        obtain rfl := Option.some.inj popped
        have own := (tidy.calls source from_ at_).own item (by rw [queue]; exact List.mem_cons_self ..)
        have here : (s.modify source fun c => { c with queue := rest }).CallAt source
            { from_ with queue := rest } := SerialAtClient.modify_callAt.mpr ⟨from_, at_, by simp⟩
        rcases item with _ | ⟨j⟩ | ⟨j, why⟩
        · have closed := endStream_stream at'
          rw [closed, Option.map_none, Option.toList_none, List.append_nil]
          refine told.close (isCut ?_ closed)
          rw [SerialAtClient.gotItem, SerialAtClient.endStream_closing]
          exact own
        · obtain rfl : j = source := own
          cases seen with
          | true =>
              simp only [SerialAtClient.gotItem, if_true] at at'
              obtain rfl := Option.some.inj (here.symm.trans at')
              rw [show ({ from_ with queue := rest } : Call).stream = _ from now]
              rw [show events = _ from told]
              rfl
          | false =>
              simp only [SerialAtClient.gotItem] at at'
              obtain rfl : events = [] := told
              rw [setStream_stream at']
              exact ⟨rfl, rfl⟩
        · obtain rfl : j = source := own
          rw [setStream_stream at', show events = _ from told]
          exact ⟨why, rfl⟩
      · cases popped
  | absent | unstarted | single | singleYielded | closed | yielded =>
      rw [now] at taken
      cases taken

/-! ## The run -/

/-- What a step does to the history. -/
theorem step_eq (next : l.step action = some m) : l.client.step action = some m.client ∧
    m.yields = l.yields ++ (handed l.client m.client action).toList ∧
    m.cut = l.cut ++ (cuts m.client action).toList := by
  obtain ⟨client, stepped, rfl⟩ := Option.map_eq_some_iff.mp next
  exact ⟨stepped, rfl, rfl⟩

/-- Only the stream that an action moves yields. -/
theorem handed_stream {event : AtEvent} (yields : handed s t action = some (call, event)) :
    action.stream? = some call := by
  unfold handed at yields
  split at yields
  · split at yields
    · obtain ⟨rfl, -⟩ := Prod.mk.inj (Option.some.inj yields)
      rfl
    · cases yields
  · split at yields
    · obtain ⟨rfl, -⟩ := Prod.mk.inj (Option.some.inj yields)
      rfl
    · cases yields
  · cases yields

/-- A stream that does not move yields nothing. -/
theorem yieldsOf_other (next : l.step action = some m) (other : action.stream? ≠ some call) :
    m.yieldsOf call = l.yieldsOf call := by
  obtain ⟨-, yields, -⟩ := step_eq next
  have none_ : ((handed l.client m.client action).toList.filterMap fun y =>
      if y.1 = call then some y.2 else none) = [] := by
    cases isHanded : handed l.client m.client action with
    | none => rfl
    | some y =>
        obtain ⟨k, event⟩ := y
        have apart : k ≠ call := fun same => other (same ▸ handed_stream isHanded)
        simp [apart]
  rw [yieldsOf, yields, List.filterMap_append, none_, List.append_nil]
  rfl

/-- The stream that moves yields what is handed over. -/
theorem yieldsOf_moves (next : l.step action = some m) (moves : action.stream? = some call) :
    m.yieldsOf call =
      l.yieldsOf call ++ ((handed l.client m.client action).map (·.2)).toList := by
  obtain ⟨-, yields, -⟩ := step_eq next
  have mine : ((handed l.client m.client action).toList.filterMap fun y =>
      if y.1 = call then some y.2 else none) =
        ((handed l.client m.client action).map (·.2)).toList := by
    cases isHanded : handed l.client m.client action with
    | none => rfl
    | some y =>
        obtain ⟨k, event⟩ := y
        obtain rfl : k = call := Option.some.inj ((handed_stream isHanded).symm.trans moves)
        simp
  rw [yieldsOf, yields, List.filterMap_append, mine]
  rfl

/-- What holds of every run. -/
structure Sound (l : StreamLog) : Prop where
  wired : l.client.Wired
  tidy : l.client.Tidy
  told : ∀ call c, l.client.CallAt call c → Told call (l.yieldsOf call) (call ∈ l.cut) c.stream
  known : ∀ y ∈ l.yields, ∃ c, l.client.CallAt y.1 c

theorem sound_init : Sound {} where
  wired := SerialAtClient.wired_init
  tidy := SerialAtClient.tidy_init
  told := fun _ _ at_ => by simp [SerialAtClient.CallAt] at at_
  known := fun _ listed => by cases listed

/-- A new call has yielded nothing. -/
theorem Sound.fresh (sound : Sound l) (absent : l.client.calls.length ≤ call) :
    l.yieldsOf call = [] := by
  rw [yieldsOf, List.filterMap_eq_nil_iff]
  intro y listed
  obtain ⟨c, at_⟩ := sound.known y listed
  have bound : y.1 < l.client.calls.length := (List.getElem?_eq_some_iff.mp at_).1
  rw [if_neg (by omega)]

/-- A stream that does not move has yielded what it had. -/
theorem told_other (sound : Sound l) (next : l.step action = some m)
    (other : action.stream? ≠ some call) (at' : m.client.CallAt call c') :
    Told call (m.yieldsOf call) (call ∈ m.cut) c'.stream := by
  obtain ⟨stepped, -, cut⟩ := step_eq next
  have kept : call ∈ l.cut → call ∈ m.cut := fun isCut => by
    rw [cut]
    exact List.mem_append_left _ isCut
  rw [yieldsOf_other next other]
  rcases SerialAtClient.call_step sound.wired stepped at' with ⟨c, at_, moves⟩ | begins
  · have told := sound.told call c at_
    have untold : c.dial = .awaiting → l.yieldsOf call = [] := by
      intro waits
      rw [((sound.wired.slots at_).awaiting waits).2] at told
      exact told
    cases moves with
    | kept _ same | cancelled _ _ _ _ same =>
        rw [same]
        exact told.mono kept
    | accepted waits _ stream =>
        rw [stream]
        exact untold waits
    | refused waits _ stream =>
        rw [stream]
        exact ⟨untold waits, _, rfl⟩
    | running moves | ended moves => exact absurd moves other
  · have fresh := sound.fresh begins.last.ge
    rcases begins.dial with ⟨-, stream⟩ | ⟨-, ⟨cause, stream⟩, -⟩
    · rw [stream]
      exact fresh
    · rw [stream]
      exact ⟨fresh, cause, rfl⟩

/-- The stream that moves. -/
theorem told_moves (sound : Sound l) (next : l.step action = some m)
    (moves : action.stream? = some call) (at' : m.client.CallAt call c') :
    Told call (m.yieldsOf call) (call ∈ m.cut) c'.stream := by
  obtain ⟨stepped, -, cut⟩ := step_eq next
  have kept : call ∈ l.cut → call ∈ m.cut := fun isCut => by
    rw [cut]
    exact List.mem_append_left _ isCut
  rw [yieldsOf_moves next moves]
  cases action with
  | next k =>
      obtain rfl := Option.some.inj moves
      obtain ⟨c, at_, -⟩ := Option.bind_eq_some_iff.mp stepped
      exact (told_next (sound.told _ c at_) at_ sound.wired stepped at').mono kept
  | wake k =>
      obtain rfl := Option.some.inj moves
      obtain ⟨c, at_, -⟩ := Option.bind_eq_some_iff.mp stepped
      refine told_wake (sound.told _ c at_) at_ sound.wired sound.tidy stepped at'
        fun closing closed => ?_
      have isCut : cuts m.client (.wake k) = some k := by
        rw [cuts, stream_eq at', if_pos ⟨closing, closed⟩]
      rw [cut, isCut]
      exact List.mem_append_right _ (List.mem_singleton_self k)
  | close k =>
      obtain rfl := Option.some.inj moves
      obtain ⟨c, at_, closes⟩ := Option.bind_eq_some_iff.mp stepped
      have told := sound.told _ c at_
      have isCut : k ∈ m.cut := by
        rw [cut]
        exact List.mem_append_right _ (List.mem_singleton_self k)
      rw [closeStream_stream closes at', show handed _ _ (.close k) = none from rfl,
        Option.map_none, Option.toList_none, List.append_nil]
      exact told.close isCut
  | _ => cases moves

/-- **One step.** -/
theorem sound_step (sound : Sound l) (next : l.step action = some m) : Sound m := by
  obtain ⟨stepped, yields, -⟩ := step_eq next
  refine ⟨SerialAtClient.wired_step sound.wired stepped,
    SerialAtClient.tidy_step sound.wired sound.tidy stepped, fun call c' at' => ?_, fun y listed => ?_⟩
  · by_cases moves : action.stream? = some call
    · exact told_moves sound next moves at'
    · exact told_other sound next moves at'
  · have stays : ∀ c, l.client.CallAt y.1 c → ∃ c', m.client.CallAt y.1 c' := fun c at_ =>
      (SerialAtClient.callAt_stays sound.wired stepped at_).imp fun _ at' => at'.1
    rw [yields] at listed
    rcases List.mem_append.mp listed with old | new
    · obtain ⟨c, at_⟩ := sound.known y old
      exact stays c at_
    · -- the stream that yields is that of a call
      have moves := handed_stream (Option.mem_toList.mp new)
      cases action with
      | next k | wake k =>
          obtain rfl := Option.some.inj moves
          obtain ⟨c, at_, -⟩ := Option.bind_eq_some_iff.mp stepped
          exact stays c at_
      | close => simp [handed] at new
      | _ => cases moves

theorem sound_of_reachable (run : Reachable step Free {} l) : Sound l :=
  run.invariant sound_init fun _ _ _ sound _ next => sound_step sound next

/-! ### Main result -/

/-- **The grammar of a stream.**  What the stream of a call yields is at most one
connected and then at most one remote_hangup, all of the call; and a stream that ended
has yielded its remote_hangup, unless it was ended by `aclose`. -/
theorem events_form_a_word (l : StreamLog) (run : Reachable step Free {} l) (call : Nat) (c : Call)
    (at_ : l.client.CallAt call c) :
    ∃ complete, Word call (l.yieldsOf call) complete ∧
      (c.stream = .closed → complete = true ∨ call ∈ l.cut) :=
  ((sound_of_reachable run).told call c at_).word

/-! ## The hangups of earlier calls -/

/-- The call in the slot is the last one, and an ATH was sent before the ATD of any
call later than its own. -/
structure Earlier (s : SerialAtClient) : Prop where
  latest : ∀ call k c, s.active = some call → s.CallAt k c → k ≤ call
  hangups : ∀ id call k c, s.owners[id]? = some (.hangup call) → call < k → s.CallAt k c →
    id < c.atd

theorem earlier_init : Earlier {} where
  latest := fun _ _ _ active => by cases active
  hangups := fun _ _ _ _ owner => by simp at owner

/-- A new call has the latest send. -/
theorem new_atd (wired : s.Wired) (next : s.step action = some t) (new : call = s.calls.length)
    (at' : t.CallAt call c') : s.atClient.nextSend ≤ c'.atd := by
  by_contra early
  have owner := (SerialAtClient.wired_step wired next).owned at'
  have before : c'.atd < s.owners.length := by
    rw [wired.counted]
    omega
  obtain ⟨o, owns⟩ : ∃ o, s.owners[c'.atd]? = some o := ⟨_, List.getElem?_eq_getElem before⟩
  obtain rfl := Option.some.inj ((SerialAtClient.owner_stays next owns).symm.trans owner)
  obtain ⟨c, at_, -⟩ := wired.dials owns
  have bound : call < s.calls.length := (List.getElem?_eq_some_iff.mp at_).1
  omega

theorem earlier_step (wired : s.Wired) (earlier : Earlier s) (next : s.step action = some t) :
    Earlier t := by
  constructor
  · intro call k c' active at'
    rcases SerialAtClient.call_step wired next at' with ⟨c, at_, -⟩ | begins
    · rcases SerialAtClient.active_of_step next active with same | ⟨-, -, rfl⟩
      · exact earlier.latest call k c same at_
      · exact (List.getElem?_eq_some_iff.mp at_).1.le
    · rcases SerialAtClient.active_of_step next active with same | ⟨-, -, rfl⟩
      · rw [begins.free] at same
        cases same
      · exact begins.last.le
  · intro id call k c' owner later at'
    have known : s.owners[id]? = some (.hangup call) ∨
        id = s.owners.length ∧ s.active = some call := by
      rcases SerialAtClient.owners_step next with same | ⟨new, more, holds⟩
      · exact .inl (same ▸ owner)
      · rw [more, SerialAtClient.getElem?_snoc] at owner
        split at owner
        · rename_i here
          exact .inr ⟨here, holds call (Option.some.inj owner)⟩
        · exact .inl owner
    rcases SerialAtClient.call_step wired next at' with ⟨c, at_, -⟩ | begins
    · obtain ⟨c'', at'', atd⟩ := SerialAtClient.callAt_stays wired next at_
      obtain rfl := Option.some.inj (at'.symm.trans at'')
      rw [atd]
      rcases known with old | ⟨-, active⟩
      · exact earlier.hangups id call k c old later at_
      · exact absurd (earlier.latest call k c active at_) (by omega)
    · have last := new_atd wired next begins.last at'
      rcases known with old | ⟨-, active⟩
      · have bound := (List.getElem?_eq_some_iff.mp old).1
        rw [wired.counted] at bound
        omega
      · rw [begins.free] at active
        cases active

theorem earlier_of_reachable (run : Reachable step Free {} l) : Earlier l.client :=
  (run.invariant (P := fun l => Sound l ∧ Earlier l.client) ⟨sound_init, earlier_init⟩
    fun _ _ _ ⟨sound, earlier⟩ _ next =>
      ⟨sound_step sound next, earlier_step sound.wired earlier (step_eq next).1⟩).2

/-- What a stream yields is of its own call. -/
theorem hangup_own (sound : Sound l) {cause : Text} (yields : .remoteHangup k cause ∈ l.yieldsOf call) :
    k = call := by
  by_cases known : call < l.client.calls.length
  · have at_ : l.client.CallAt call _ := List.getElem?_eq_getElem known
    obtain ⟨complete, ⟨connected, hangup, events, first, last⟩, -⟩ := (sound.told call _ at_).word
    rw [events] at yields
    rcases List.mem_append.mp yields with before | after
    · rcases first with rfl | rfl <;> simp at before
    · cases complete with
      | true =>
          obtain ⟨why, rfl⟩ := last
          exact (AtEvent.remoteHangup.inj (List.mem_singleton.mp after)).1
      | false =>
          rw [show hangup = [] from last] at after
          cases after
  · rw [sound.fresh (Nat.le_of_not_lt known)] at yields
    cases yields

/-- **A hangup stays with its call.**  Every ATH of `hangup k`, written or still
waiting, comes before the ATD of a later call once that is written, and no stream but
that of call `k` yields a hangup of call `k`. -/
theorem hangup_stays_with_its_call (l : StreamLog) (run : Reachable step Free {} l) (k : Nat) :
    (∀ j c before after command w, k < j → l.client.CallAt j c →
      l.client.atClient.written = before ++ (c.atd, command) :: after →
      w ∈ l.client.atClient.written ++ l.client.atClient.lockWaiters →
      l.client.owners[w.1]? = some (.hangup k) → w ∈ before) ∧
    ∀ stream cause, .remoteHangup k cause ∈ l.yieldsOf stream → stream = k := by
  have sound := sound_of_reachable run
  refine ⟨fun j c before after command w later at_ written listed owner => ?_, fun stream cause
    yields => (hangup_own sound yields).symm⟩
  have order := sound.wired.ordered.sorted
  have sooner := (earlier_of_reachable run).hangups w.1 k j c owner later at_
  rw [written, List.append_assoc] at listed order
  rcases List.mem_append.mp listed with first | rest
  · exact first
  · -- what comes after the ATD has a later send
    have past : c.atd ≤ w.1 := by
      rcases List.mem_cons.mp rest with rfl | late
      · exact le_rfl
      · have tailOrder := (List.pairwise_append.mp order).2.1
        exact ((List.pairwise_cons.mp tailOrder).1 w late).le
    omega

/-! ## Poles -/

/-- A call is dialled, is answered and ends by a URC. -/
def answered : List SerialAction :=
  [.dial "10086".toList, .serial .acquire, .serial .drained, .read "OK".toList, .serial .receive,
    .next 0, .poll 0, .serial .acquire, .serial .drained, .read "+CLCC: 1,0,0,0,0".toList,
    .read "OK".toList, .serial .receive, .wake 0, .next 0, .read "NO CARRIER".toList, .urc 0,
    .wake 0, .next 0]

theorem answered_runs : (run step {} answered).isSome = true := by decide

theorem answered_call_is_a_word :
    (Option.get _ answered_runs).yields.length = 2 ∧
      ∃ complete, Word 0 ((Option.get _ answered_runs).yieldsOf 0) complete ∧
        ((Option.get _ answered_runs).client.calls[0].stream = .closed →
          complete = true ∨ 0 ∈ (Option.get _ answered_runs).cut) :=
  ⟨by decide, events_form_a_word _ (reachable_get answered_runs) 0 _ rfl⟩

/-- A call is hung up and its stream closed while the ATH waits; the next is dialled. -/
def hungUpLate : List SerialAction :=
  [.dial "10086".toList, .serial .acquire, .serial .drained, .read "OK".toList, .serial .receive,
    .next 0, .hangup 0, .close 0, .dial "10010".toList, .serial .acquire, .serial .drained,
    .read "OK".toList, .serial .receive, .serial .acquire]

theorem hung_up_late : (run step {} hungUpLate).isSome = true := by decide

theorem late_hangup_before_dial :
    (1, "ATH".toList) ∈ [(0, "ATD10086;".toList), (1, "ATH".toList)] ∧
      ∀ stream cause, .remoteHangup 0 cause ∈ (Option.get _ hung_up_late).yieldsOf stream →
        stream = 0 :=
  have isolated := hangup_stays_with_its_call _ (reachable_get hung_up_late) 0
  ⟨isolated.1 1 _ [(0, "ATD10086;".toList), (1, "ATH".toList)] [] "ATD10010;".toList
    (1, "ATH".toList) (by decide) rfl (by decide) (by decide) (by decide), isolated.2⟩

end StreamLog

end IsalesTelephony.Modem
