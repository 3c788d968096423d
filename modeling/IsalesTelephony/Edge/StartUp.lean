/-
# Edge.StartUp -- cloud commands around start-up

`_run_one_stream` reads the stream as soon as it is up, and `continue`s past a message
while `_cloud_callback` is `None`.  The daemons register the callback afterwards:
`edge/main.py` calls `orchestrator.start` when `grpc_client.start` has returned, and
`main_windows.py` leaves it to a task of its own.  `start` returns some turns of the event
loop after `_connected` is set, so the reader can come first.

`StartUp` is the client with what arrives on its streams and the start-up of the daemon.
A message is stamped with its stream and its place there; `dropped` is history, what was
read and handed to nobody.

What is read is what was dropped and then what was handed over (`Heard`), so the commands
come through as long as nothing is read before the callback is registered
(`commands_handed_in_order`), and one that is read earlier is lost for good.
-/
import IsalesTelephony.Transport.Channels

namespace IsalesTelephony.Edge

set_option autoImplicit false

open IsalesTelephony.Transport
open IsalesTelephony.Theory.Transition

universe u v

/-- Which daemon wires the steps. -/
inductive Wiring where
  /-- `edge/main.py` -/
  | edge
  /-- `main_windows.py` -/
  | tray
  deriving DecidableEq, Repr

/-- Where the start-up of the daemon is. -/
inductive StartPc where
  | idle
  /-- `await grpc_client.start(...)` -/
  | connecting
  /-- in the tray: the task of `orchestrator.start` has not run yet -/
  | connected
  /-- the callback is registered -/
  | registered
  deriving DecidableEq, Repr

/-- A message of the cloud: which stream, which of its messages, and what it says. -/
structure Inbound (M : Type v) where
  stream : Nat
  index : Nat
  message : M
  deriving DecidableEq, Repr

/-- The order of the streams, and on a stream that of its messages. -/
def Inbound.Before {M : Type v} (a b : Inbound M) : Prop :=
  a.stream < b.stream ∨ a.stream = b.stream ∧ a.index < b.index

structure StartUp (F : Type u) (M : Type v) where
  wiring : Wiring
  client : GrpcClient F
  pc : StartPc := .idle
  /-- `_connected` was set since `start`: its `wait_connected` is done -/
  up : Bool := false
  /-- `_cloud_callback` is set -/
  callback : Bool := false
  /-- `await self._cloud_callback(response)` -/
  handling : Bool := false
  /-- the messages of the stream that the client has not read -/
  unread : List (Inbound M) := []
  /-- how many messages the stream has brought -/
  arrivals : Nat := 0
  /-- history: what the client has read -/
  read : List (Inbound M) := []
  /-- history: what `_on_cloud_message` was called with -/
  handed : List (Inbound M) := []
  /-- history: what was read with no callback to call -/
  dropped : List (Inbound M) := []

inductive StartAction (F : Type u) (M : Type v) where
  /-- the daemon calls `grpc_client.start` -/
  | startClient
  /-- `grpc_client.start` returns -/
  | startReturns
  /-- in the tray, the task of `orchestrator.start` runs -/
  | orchestratorStarts
  /-- a turn of `grpc_heartbeat_loop` -/
  | heartbeat (frame : F) (fault : Option AppendFault)
  /-- the connect loop, the outbound iterator or another sender -/
  | client (action : ClientAction F)
  /-- the cloud sends on the stream -/
  | arrive (message : M)
  /-- `async for response in call` has the next message -/
  | read
  /-- the callback returns, or raises -/
  | handled

namespace StartUp

variable {F : Type u} {M : Type v}

/-- The server has accepted the RPC, or may have. -/
def streamOpen (l : StartUp F M) : Bool :=
  l.client.phase = .opening || l.client.phase = .streaming

/-- A message comes in. -/
def receive (l : StartUp F M) (message : M) : StartUp F M :=
  { l with
    unread := l.unread ++ [⟨l.client.nextChannel, l.arrivals, message⟩]
    arrivals := l.arrivals + 1 }

/-- The body of the read loop, up to its await. -/
def readOne (l : StartUp F M) (response : Inbound M) (rest : List (Inbound M)) : StartUp F M :=
  if l.callback then
    { l with
      unread := rest, read := l.read ++ [response], handed := l.handed ++ [response]
      handling := true }
  else
    { l with unread := rest, read := l.read ++ [response], dropped := l.dropped ++ [response] }

/-- `orchestrator.start`. -/
def register (l : StartUp F M) : StartUp F M := { l with callback := true, pc := .registered }

/-- When the client makes a move: the read loop awaits its callback, and the daemon stops
the client once it is up. -/
def mayMove (l : StartUp F M) : ClientAction F → Bool
  | .start => false
  | .streamEnded => !l.handling
  | .stop => l.pc = .registered
  | _ => true

/-- The client moves on; a new stream brings nothing yet, and what a stream that is over
still had is gone. -/
def move (l : StartUp F M) (client : GrpcClient F) : ClientAction F → StartUp F M
  | .openStream => { l with client := client, unread := [], arrivals := 0 }
  | .metadataReady _ => { l with client := client, up := l.up || client.connected }
  | .streamEnded => { l with client := client, unread := [] }
  | .stop => { l with client := client, unread := [], handling := false }
  | _ => { l with client := client }

def step (l : StartUp F M) : StartAction F M → Option (StartUp F M)
  | .startClient =>
      if l.pc = .idle then
        (l.client.step .start).map fun client => { l with client := client, pc := .connecting }
      else none
  | .startReturns =>
      if l.pc = .connecting ∧ l.up = true then
        some (match l.wiring with
          | .edge => l.register
          | .tray => { l with pc := .connected })
      else none
  | .orchestratorStarts => if l.pc = .connected then some l.register else none
  | .heartbeat frame fault =>
      if l.pc = .registered then some { l with client := (l.client.send frame false fault).1 }
      else none
  | .client action =>
      if l.mayMove action then
        (l.client.step action).map fun client => l.move client action
      else none
  | .arrive message => if l.streamOpen then some (l.receive message) else none
  | .read =>
      if l.client.phase = .streaming ∧ l.handling = false then
        match l.unread with
        | response :: rest => some (l.readOne response rest)
        | [] => none
      else none
  | .handled => if l.handling then some { l with handling := false } else none

/-- The daemon before its start-up. -/
def init (wiring : Wiring) (pending : Pending (Sent F)) : StartUp F M :=
  { wiring := wiring, client := .init pending }

/-! ## What was read -/

variable {l m n : StartUp F M} {action : StartAction F M}

/-- What was read was dropped or handed over, the dropped first; what is read and unread is
in the order of its stamps, none of them past the next. -/
structure Heard (l : StartUp F M) : Prop where
  split : l.read = l.dropped ++ l.handed
  silent : l.callback = false → l.handed = []
  ordered : (l.read ++ l.unread).Pairwise Inbound.Before
  stamped : ∀ x ∈ l.read ++ l.unread,
    x.stream < l.client.nextChannel ∨ x.stream = l.client.nextChannel ∧ x.index < l.arrivals

theorem heard_init (wiring : Wiring) (pending : Pending (Sent F)) :
    Heard (init wiring pending : StartUp F M) where
  split := rfl
  silent := fun _ => rfl
  ordered := List.Pairwise.nil
  stamped := fun _ member => by cases member

/-- A step that reads nothing, and perhaps gives up what is unread. -/
theorem heard_congr (heard : Heard l) (read : m.read = l.read) (dropped : m.dropped = l.dropped)
    (handed : m.handed = l.handed) (callback : l.callback = true → m.callback = true)
    (unread : m.unread = l.unread ∨ m.unread = [])
    (stamps : m.client.nextChannel = l.client.nextChannel ∧ m.arrivals = l.arrivals ∨
      l.client.nextChannel < m.client.nextChannel) : Heard m := by
  have part : (m.read ++ m.unread).Sublist (l.read ++ l.unread) := by
    rw [read]
    refine (List.Sublist.refl _).append ?_
    rcases unread with same | empty
    · exact same ▸ List.Sublist.refl _
    · exact empty ▸ List.nil_sublist _
  refine ⟨by rw [read, dropped, handed, heard.split], fun unset => ?_,
    heard.ordered.sublist part, fun x member => ?_⟩
  · rw [handed]
    refine heard.silent (Bool.eq_false_iff.mpr fun isSet => ?_)
    rw [callback isSet] at unset
    cases unset
  · have before := heard.stamped x (part.subset member)
    rcases stamps with ⟨channel, arrivals⟩ | newer
    · rw [channel, arrivals]
      exact before
    · rcases before with older | ⟨here, -⟩
      · exact .inl (Nat.lt_trans older newer)
      · exact .inl (here ▸ newer)

theorem heard_receive (heard : Heard l) (message : M) : Heard (l.receive message) := by
  refine ⟨heard.split, heard.silent, ?_, fun x member => ?_⟩
  · show (l.read ++ (l.unread ++ [_])).Pairwise _
    rw [← List.append_assoc]
    refine List.pairwise_append.mpr ⟨heard.ordered, List.pairwise_singleton _ _, ?_⟩
    intro x member y new
    obtain rfl := List.mem_singleton.mp new
    exact heard.stamped x member
  · have member : x ∈ l.read ++ (l.unread ++ [⟨l.client.nextChannel, l.arrivals, message⟩]) := member
    rw [← List.append_assoc] at member
    rcases List.mem_append.mp member with old | new
    · refine (heard.stamped x old).imp_right fun here => ⟨here.1, Nat.lt_succ_of_lt here.2⟩
    · obtain rfl := List.mem_singleton.mp new
      exact .inr ⟨rfl, Nat.lt_succ_self _⟩

/-- The read loop takes the first message that is unread. -/
theorem heard_readOne {response : Inbound M} {rest : List (Inbound M)} (heard : Heard l)
    (first : l.unread = response :: rest) : Heard (l.readOne response rest) := by
  have same : ∀ after : StartUp F M, after.read = l.read ++ [response] → after.unread = rest →
      after.read ++ after.unread = l.read ++ l.unread := by
    intro after read unread
    rw [read, unread, first, List.append_assoc]
    rfl
  unfold readOne
  split
  · rename_i isSet
    refine ⟨by simp [heard.split], fun unset => ?_, ?_, ?_⟩
    · rw [show l.callback = false from unset] at isSet
      cases isSet
    · rw [same _ rfl rfl]
      exact heard.ordered
    · rw [same _ rfl rfl]
      exact heard.stamped
  · rename_i unset
    have none_handed := heard.silent (by simpa using unset)
    refine ⟨by simp [heard.split, none_handed], fun _ => none_handed, ?_, ?_⟩
    · rw [same _ rfl rfl]
      exact heard.ordered
    · rw [same _ rfl rfl]
      exact heard.stamped

/-- Only a new attempt moves on to the next stream. -/
theorem client_nextChannel {c c' : GrpcClient F} {a : ClientAction F} (next : c.step a = some c') :
    c'.nextChannel = if a matches .openStream then c.nextChannel + 1 else c.nextChannel := by
  cases a with
  | send frame critical fault =>
      obtain rfl := Option.some.inj next
      simp only [GrpcClient.send]
      split
      · rfl
      · split
        · rfl
        · split <;> rfl
  | start | openStream | metadataFailed | backoffElapsed =>
      simp only [GrpcClient.step] at next
      split at next <;> cases next
      rfl
  | metadataReady fault =>
      simp only [GrpcClient.step, GrpcClient.metadataReady] at next
      split at next
      · obtain rfl := Option.some.inj next
        split <;> rfl
      · cases next
  | streamEnded =>
      simp only [GrpcClient.step] at next
      split at next <;> cases next
      exact GrpcClient.closeChannel_nextChannel c
  | take =>
      simp only [GrpcClient.step] at next
      split at next <;> cases next <;> rfl
  | stop =>
      obtain rfl := Option.some.inj next
      exact GrpcClient.closeChannel_nextChannel c

theorem heard_move {client : GrpcClient F} {a : ClientAction F} (heard : Heard l)
    (next : l.client.step a = some client) : Heard (l.move client a) := by
  have channel := client_nextChannel next
  cases a with
  | openStream =>
      exact heard_congr heard rfl rfl rfl id (.inr rfl) (.inr (channel ▸ Nat.lt_succ_self _))
  | streamEnded | stop => exact heard_congr heard rfl rfl rfl id (.inr rfl) (.inl ⟨channel, rfl⟩)
  | _ => exact heard_congr heard rfl rfl rfl id (.inl rfl) (.inl ⟨channel, rfl⟩)

/-- **One step.** -/
theorem heard_step (heard : Heard l) (next : l.step action = some m) : Heard m := by
  cases action with
  | startClient =>
      simp only [step] at next
      split at next
      · obtain ⟨client, moved, rfl⟩ := Option.map_eq_some_iff.mp next
        exact heard_congr heard rfl rfl rfl id (.inl rfl) (.inl ⟨client_nextChannel moved, rfl⟩)
      · cases next
  | startReturns =>
      simp only [step] at next
      split at next
      · obtain rfl := Option.some.inj next
        split
        · exact heard_congr heard rfl rfl rfl (fun _ => rfl) (.inl rfl) (.inl ⟨rfl, rfl⟩)
        · exact heard_congr heard rfl rfl rfl id (.inl rfl) (.inl ⟨rfl, rfl⟩)
      · cases next
  | orchestratorStarts =>
      simp only [step] at next
      split at next <;> cases next
      exact heard_congr heard rfl rfl rfl (fun _ => rfl) (.inl rfl) (.inl ⟨rfl, rfl⟩)
  | heartbeat frame fault =>
      simp only [step] at next
      split at next <;> cases next
      have channel := client_nextChannel (c := l.client) (a := .send frame false fault) rfl
      exact heard_congr heard rfl rfl rfl id (.inl rfl) (.inl ⟨channel, rfl⟩)
  | client a =>
      simp only [step] at next
      split at next
      · obtain ⟨client, moved, rfl⟩ := Option.map_eq_some_iff.mp next
        exact heard_move heard moved
      · cases next
  | arrive message =>
      simp only [step] at next
      split at next <;> cases next
      exact heard_receive heard message
  | read =>
      simp only [step] at next
      split at next
      · split at next
        · rename_i response rest first
          obtain rfl := Option.some.inj next
          exact heard_readOne heard first
        · cases next
      · cases next
  | handled =>
      simp only [step] at next
      split at next <;> cases next
      exact heard_congr heard rfl rfl rfl id (.inl rfl) (.inl ⟨rfl, rfl⟩)

theorem heard_run {ok : StartUp F M → StartAction F M → Prop} {wiring : Wiring}
    {pending : Pending (Sent F)} (run : Reachable step ok (init wiring pending) l) : Heard l :=
  run.invariant (heard_init wiring pending) fun _ _ _ heard _ next => heard_step heard next

/-! ## What was dropped -/

/-- A message is read when there is a callback to call. -/
def Awaited (l : StartUp F M) : StartAction F M → Prop
  | .read => l.callback = true
  | _ => True

instance (l : StartUp F M) (action : StartAction F M) : Decidable (l.Awaited action) := by
  unfold Awaited
  split <;> infer_instance

theorem readOne_dropped (l : StartUp F M) (response : Inbound M) (rest : List (Inbound M)) :
    (l.readOne response rest).dropped =
      l.dropped ++ if l.callback = true then [] else [response] := by
  unfold readOne
  split
  · exact (List.append_nil _).symm
  · rfl

/-- A step drops the message it reads without a callback, and no other. -/
theorem dropped_step (next : l.step action = some m) :
    ∃ more, m.dropped = l.dropped ++ more ∧ (more = [] ↔ l.Awaited action) := by
  have keeps : ∀ {a}, l.Awaited a → m.dropped = l.dropped →
      ∃ more, m.dropped = l.dropped ++ more ∧ (more = [] ↔ l.Awaited a) :=
    fun awaited same => ⟨[], by rw [same, List.append_nil], iff_of_true rfl awaited⟩
  cases action with
  | startClient =>
      simp only [step] at next
      split at next
      · obtain ⟨client, -, rfl⟩ := Option.map_eq_some_iff.mp next
        exact keeps trivial rfl
      · cases next
  | startReturns =>
      simp only [step] at next
      split at next
      · obtain rfl := Option.some.inj next
        refine keeps trivial ?_
        split <;> rfl
      · cases next
  | orchestratorStarts | heartbeat | arrive | handled =>
      simp only [step] at next
      split at next <;> cases next
      exact keeps trivial rfl
  | client a =>
      simp only [step] at next
      split at next
      · obtain ⟨client, -, rfl⟩ := Option.map_eq_some_iff.mp next
        refine keeps trivial ?_
        cases a <;> rfl
      · cases next
  | read =>
      simp only [step] at next
      split at next
      · split at next
        · rename_i response rest first
          obtain rfl := Option.some.inj next
          refine ⟨_, readOne_dropped l response rest, ?_⟩
          by_cases isSet : l.callback = true <;> simp [Awaited, isSet]
        · cases next
      · cases next

theorem dropped_stays (run : Reachable step Free m n) (lost : m.dropped ≠ []) : n.dropped ≠ [] :=
  run.invariant (P := fun n => n.dropped ≠ []) lost fun _ _ _ lost _ next => by
    obtain ⟨more, grown, -⟩ := dropped_step next
    rw [grown]
    exact List.append_ne_nil_of_left_ne_nil lost _

/-! ### Main result -/

/-- Every message the client has read was handed to `_on_cloud_message`, once and in the
order of the streams. -/
def HandedInOrder (l : StartUp F M) : Prop := l.handed = l.read ∧ l.read.Pairwise Inbound.Before

theorem handedInOrder_iff (heard : Heard l) : l.HandedInOrder ↔ l.dropped = [] := by
  refine ⟨fun inOrder => ?_, fun none_dropped => ⟨?_, ?_⟩⟩
  · have split := heard.split
    rw [inOrder.1] at split
    exact List.append_left_eq_self.mp split.symm
  · rw [heard.split, none_dropped, List.nil_append]
  · exact (List.pairwise_append.mp heard.ordered).1

/-- **Commands are handed over in order**, in every run in which the callback is registered
before the first message is read; a message that is read earlier is lost for good. -/
theorem commands_handed_in_order (wiring : Wiring) (pending : Pending (Sent F)) :
    (∀ l : StartUp F M, Reachable step Awaited (init wiring pending) l → l.HandedInOrder) ∧
      ∀ (l m n : StartUp F M) (action : StartAction F M),
        Reachable step Free (init wiring pending) l → l.step action = some m →
          ¬ l.Awaited action → Reachable step Free m n → ¬ n.HandedInOrder := by
  refine ⟨fun l run => ?_, fun l m n action run next early later inOrder => ?_⟩
  · rw [handedInOrder_iff (heard_run run)]
    exact run.invariant (P := fun l => l.dropped = []) rfl fun _ _ _ none_dropped awaited next => by
      obtain ⟨more, grown, kept⟩ := dropped_step next
      rw [grown, none_dropped, kept.mpr awaited]
      rfl
  · obtain ⟨more, grown, kept⟩ := dropped_step next
    have lost : m.dropped ≠ [] := by
      rw [grown]
      exact List.append_ne_nil_of_right_ne_nil _ fun isNil => early (kept.mp isNil)
    have reached : Reachable step Free (init wiring pending) m := run.snoc trivial next
    have heard := heard_run (reached.trans later)
    exact dropped_stays later lost ((handedInOrder_iff heard).mp inOrder)

/-! ## Poles -/

/-- A daemon with an empty buffer. -/
def fresh (wiring : Wiring) : StartUp String String := init wiring (.memory 10 (by decide) [])

/-- The stream comes up, and the cloud sends a command at once. -/
def dialAtOnce : List (StartAction String String) :=
  [.startClient, .client .openStream, .client (.metadataReady none), .arrive "dial"]

/-- Start-up is done before the command is read. -/
theorem registered_first :
    (guardedRun step Awaited (fresh .edge) (dialAtOnce ++ [.startReturns, .read])).isSome = true := by
  decide

theorem dial_handed_over :
    (Option.get _ registered_first).handed = [⟨1, 0, "dial"⟩] ∧
      (Option.get _ registered_first).HandedInOrder :=
  ⟨by decide, (commands_handed_in_order .edge _).1 _ (reachable_guarded_get registered_first)⟩

/-- The reader comes first. -/
theorem read_first :
    (run step (fresh .edge) (dialAtOnce ++ [.read, .startReturns])).isSome = true := by decide

/-- **A lost command.**  The dial is read before `grpc_client.start` returns; the daemon is
up, and nobody has heard of the call. -/
theorem early_dial_dropped :
    ¬ ∀ (wiring : Wiring) (pending : Pending (Sent String)) (l : StartUp String String),
      Reachable step Free (init wiring pending) l → l.HandedInOrder := by
  intro claim
  have handed := (claim _ _ _ (reachable_get read_first)).1
  exact absurd handed (by decide)

end StartUp

end IsalesTelephony.Edge
