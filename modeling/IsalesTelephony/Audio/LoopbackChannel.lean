/-
# Audio.LoopbackChannel -- the sessions that meet in one process

`MacosRtcSession` has no network.  Its sessions find each other in a registry of the class, by
the name of the channel, and `push_audio` puts a frame straight onto the queues of the others;
every so many frames it plays a full buffer, and pushes await the drain that the loop runs
later.

Seen from outside the registry is not there: a push is a post to whoever is in the channel
(`Sound.replayed`), and each action is in the log as what it does there (`Noted`).  What a
session has got is what the others pushed while it was there and had room, in the order of the
pushes, which is one for all (`loopback_is_broadcast`).

Tokens and the channels of what is sent are not used by the class.
-/
import IsalesTelephony.Audio.InboundQueue
import IsalesTelephony.Theory.Broadcast
import IsalesTelephony.Theory.Dict
import Mathlib.Data.List.InsertIdx

namespace IsalesTelephony.Audio.Loopback

set_option autoImplicit false

open IsalesTelephony.Theory IsalesTelephony.Theory.Broadcast IsalesTelephony.Theory.Transition

structure MacosRtcSessionConfig where
  inboundCapacity : Nat := 1024
  outboundCapacity : Nat := 64
  channels : Nat := 1

/-- The exceptions of `isales_common.audio.rtc`. -/
inductive RtcError where
  | rtcError (text : String)
  | rtcNotJoined (text : String)
  | rtcPushBackpressure (text : String)
  deriving DecidableEq, Repr

structure MacosRtcSession where
  config : MacosRtcSessionConfig
  joined : Bool := false
  channel : Option String := none
  uid : Option String := none
  sendSampleRate : Nat := 16000
  inbound : List Item := []
  /-- `_drain_event.is_set()` -/
  drainEvent : Bool := true
  outboundCount : Nat := 0
  forceBackpressureOnNextPush : Bool := false
  backpressureEvents : Nat := 0
  /-- history: what was taken off the inbound queue -/
  taken : List Item := []
  /-- history: how often the test hook raised -/
  forced : Nat := 0

namespace MacosRtcSession

/-- `Queue.full()`; a queue of size 0 is never full. -/
def Full (x : MacosRtcSession) : Prop :=
  0 < x.config.inboundCapacity ∧ x.config.inboundCapacity ≤ x.inbound.length

instance (x : MacosRtcSession) : Decidable x.Full := inferInstanceAs (Decidable (_ ∧ _))

/-- `put_nowait`; `none` is `QueueFull`. -/
def putNowait (x : MacosRtcSession) (item : Item) : Option MacosRtcSession :=
  if x.Full then none else some { x with inbound := x.inbound ++ [item] }

/-- The frame `push_audio` builds. -/
def frameOf (x : MacosRtcSession) (pcm : Pcm) : PcmFrame where
  senderUid := x.uid.getD ""
  pcm := pcm
  sampleRate := x.sendSampleRate
  channels := x.config.channels

/-- The session as a party of the channel. -/
def view (x : MacosRtcSession) : Party String Item where
  inside := x.joined
  channel := x.channel
  box := x.inbound
  read := x.taken

end MacosRtcSession

/-- A `push_audio` that awaits the drain. -/
structure WaitingPush where
  session : Nat
  pcm : Pcm
  /-- the event was set, and the task has not gone on yet -/
  woken : Bool := false
  deriving DecidableEq

namespace WaitingPush

/-- The event of a session was set. -/
def wake (push : WaitingPush) (i : Nat) : WaitingPush :=
  if push.session = i then { push with woken := true } else push

@[simp] theorem session_wake (push : WaitingPush) (i : Nat) :
    (push.wake i).session = push.session := by
  unfold wake
  split <;> rfl

@[simp] theorem pcm_wake (push : WaitingPush) (i : Nat) : (push.wake i).pcm = push.pcm := by
  unfold wake
  split <;> rfl

end WaitingPush

/-- All sessions of the process; a session is a number. -/
structure Sessions where
  session : Nat → MacosRtcSession
  /-- `_channel_registry` -/
  channelRegistry : List (String × List Nat) := []
  /-- the calls of `_drain_event.set` that the loop has scheduled -/
  callbacks : List Nat := []
  waiting : List WaitingPush := []
  /-- the sessions whose `leave` awaits room for the sentinel -/
  leaving : List Nat := []
  /-- the sessions with an iteration of `audio_frames` -/
  iterating : List Nat := []
  /-- history -/
  log : List (Note Nat String Item) := []

/-- What a call of `push_audio` does until it is over or awaits the drain. -/
inductive PushEnd where
  | returned
  | waits
  | raised (error : RtcError)
  deriving DecidableEq

inductive Action where
  | join (i : Nat) (channel uid : String) (sendSampleRate : Nat)
  | leave (i : Nat)
  /-- `leave` goes on once there is room for the sentinel -/
  | putResumes (i : Nat)
  | leaveCancelled (i : Nat)
  | pushAudio (i : Nat) (pcm : Pcm)
  /-- the `k`th waiting push goes on -/
  | pushResumes (k : Nat)
  | pushCancelled (k : Nat)
  /-- the loop runs the next scheduled callback -/
  | callback
  /-- an iteration of `audio_frames` begins -/
  | audioFrames (i : Nat)
  /-- an iteration takes an item -/
  | take (i : Nat)
  /-- a test sets `force_backpressure_on_next_push` -/
  | force (i : Nat)

namespace Sessions

def set (s : Sessions) (i : Nat) (x : MacosRtcSession) : Sessions :=
  { s with session := Function.update s.session i x }

def members (s : Sessions) (channel : String) : List Nat :=
  (s.channelRegistry.lookup channel).getD []

/-- `join`. -/
def join (s : Sessions) (i : Nat) (channel uid : String) (sendSampleRate : Nat) :
    Except RtcError Sessions :=
  let self := s.session i
  if self.joined then .error (.rtcError "session already joined")
  else
    let t := s.set i { self with
      joined := true
      channel := some channel
      uid := some uid
      sendSampleRate := sendSampleRate }
    .ok { t with
      channelRegistry := Dict.put s.channelRegistry channel (s.members channel ++ [i])
      log := s.log ++ [.enter i channel] }

/-- `_drain_event.set()`. -/
def setDrainEvent (s : Sessions) (i : Nat) : Sessions :=
  if (s.session i).drainEvent then s
  else
    { s.set i { s.session i with drainEvent := true } with
      waiting := s.waiting.map (·.wake i) }

/-- `leave` until it puts the sentinel: the session is not joined and not in the registry. -/
def unregister (s : Sessions) (i : Nat) : Sessions :=
  let t := s.set i { s.session i with joined := false }
  let left := { t with log := s.log ++ [.exit i] }
  match (s.session i).channel with
  | none => left
  | some channel =>
      let siblings := (s.members channel).erase i
      if siblings = [] then { left with channelRegistry := Dict.erase s.channelRegistry channel }
      else { left with channelRegistry := Dict.put s.channelRegistry channel siblings }

/-- `leave` from the sentinel on. -/
def putSentinel (s : Sessions) (i : Nat) : Sessions :=
  let t := s.set i { s.session i with inbound := (s.session i).inbound ++ [.sentinel] }
  { t with log := s.log ++ [Note.put i Item.sentinel] }.setDrainEvent i

/-- `leave`. -/
def leave (s : Sessions) (i : Nat) : Sessions :=
  if (s.session i).joined then
    let t := s.unregister i
    if (t.session i).Full then { t with leaving := t.leaving ++ [i] } else t.putSentinel i
  else s

/-- The sessions a push is for. -/
def peers (s : Sessions) (i : Nat) : List Nat :=
  (s.members ((s.session i).channel.getD "")).filter fun j => j ≠ i ∧ (s.session j).joined

/-- One peer gets the frame, unless its queue is full. -/
def offer (frame : PcmFrame) (session : Nat → MacosRtcSession) (peer : Nat) :
    Nat → MacosRtcSession :=
  match (session peer).putNowait (.frame frame) with
  | some x => Function.update session peer x
  | none => session

/-- The simulated buffer takes one more chunk. -/
def countPush (s : Sessions) (i : Nat) : Sessions :=
  let self := s.session i
  if self.config.outboundCapacity ≤ self.outboundCount + 1 then
    { s.set i { self with
        drainEvent := false
        outboundCount := 0
        backpressureEvents := self.backpressureEvents + 1 } with
      callbacks := s.callbacks ++ [i] }
  else s.set i { self with outboundCount := self.outboundCount + 1 }

/-- The loop over the peers. -/
def post (s : Sessions) (i : Nat) (pcm : Pcm) : Sessions :=
  let frame := (s.session i).frameOf pcm
  { s with
    session := (s.peers i).foldl (offer frame) s.session
    log := s.log ++ [.post i (.frame frame)] }

/-- `push_audio` once it need not wait. -/
def deliver (s : Sessions) (i : Nat) (pcm : Pcm) : Sessions := (s.post i pcm).countPush i

/-- `push_audio`. -/
def pushAudio (s : Sessions) (i : Nat) (pcm : Pcm) : Sessions × PushEnd :=
  let self := s.session i
  if !self.joined then
    (s, .raised (.rtcNotJoined "push_audio() called before join()"))
  else if self.forceBackpressureOnNextPush then
    (s.set i { self with
      forceBackpressureOnNextPush := false
      backpressureEvents := self.backpressureEvents + 1
      forced := self.forced + 1 },
      .raised (.rtcPushBackpressure "forced backpressure (test hook)"))
  else if self.drainEvent then (s.deliver i pcm, .returned)
  else ({ s with waiting := s.waiting ++ [{ session := i, pcm := pcm }] }, .waits)

/-- The first `__anext__` of `audio_frames`. -/
def audioFrames (s : Sessions) (i : Nat) : Except RtcError Sessions :=
  if (s.session i).joined then .ok { s with iterating := s.iterating ++ [i] }
  else .error (.rtcNotJoined "audio_frames() called before join()")

/-- An iteration has an item. -/
def gotItem (s : Sessions) (i : Nat) (item : Item) (rest : List Item) : Sessions :=
  let t := s.set i { s.session i with inbound := rest, taken := (s.session i).taken ++ [item] }
  let noted := { t with log := s.log ++ [.take i] }
  match item with
  | .frame _ => noted
  | .sentinel => { noted with iterating := s.iterating.erase i }

/-- An exception leaves the sessions as they are. -/
def orStays (s : Sessions) : Except RtcError Sessions → Sessions
  | .ok t => t
  | .error _ => s

def step (s : Sessions) : Action → Option Sessions
  | .join i channel uid sendSampleRate => some (s.orStays (s.join i channel uid sendSampleRate))
  | .leave i => some (s.leave i)
  | .putResumes i =>
      if i ∈ s.leaving ∧ ¬(s.session i).Full then
        some ({ s with leaving := s.leaving.erase i }.putSentinel i)
      else none
  | .leaveCancelled i =>
      if i ∈ s.leaving then some { s with leaving := s.leaving.erase i } else none
  | .pushAudio i pcm => some (s.pushAudio i pcm).1
  | .pushResumes k =>
      match s.waiting[k]? with
      | some push =>
          if push.woken then
            some ({ s with waiting := s.waiting.eraseIdx k }.deliver push.session push.pcm)
          else none
      | none => none
  | .pushCancelled k => some { s with waiting := s.waiting.eraseIdx k }
  | .callback =>
      match s.callbacks with
      | [] => none
      | i :: rest => some ({ s with callbacks := rest }.setDrainEvent i)
  | .audioFrames i => some (s.orStays (s.audioFrames i))
  | .take i =>
      if i ∈ s.iterating then
        match (s.session i).inbound with
        | [] => none
        | item :: rest => some (s.gotItem i item rest)
      else none
  | .force i => some (s.set i { s.session i with forceBackpressureOnNextPush := true })

/-! ## The registry is not there -/

def start (config : Nat → MacosRtcSessionConfig) : Sessions where
  session := fun i => { config := config i }

/-- A queue of that length is full. -/
def full (config : Nat → MacosRtcSessionConfig) (i n : Nat) : Bool :=
  decide (0 < (config i).inboundCapacity ∧ (config i).inboundCapacity ≤ n)

def views (s : Sessions) (i : Nat) : Party String Item := (s.session i).view

variable {config : Nat → MacosRtcSessionConfig} {s t : Sessions} {i j : Nat}
  {c name : String} {pcm : Pcm} {action : Action}

/-- What holds in every state.  The registry has the joined sessions, once each, under their
channels and nothing else, and the sessions are where the posts in the log take them. -/
structure Sound (config : Nat → MacosRtcSessionConfig) (s : Sessions) : Prop where
  configured : ∀ i, (s.session i).config = config i
  registered : ∀ c i,
    i ∈ s.members c ↔ (s.session i).joined = true ∧ (s.session i).channel = some c
  once : ∀ c, (s.members c).Nodup
  occupied : ∀ c, s.channelRegistry.lookup c ≠ some []
  placed : ∀ i, (s.session i).joined = true → (s.session i).channel ≠ none
  waitsPlaced : ∀ push ∈ s.waiting, (s.session push.session).channel ≠ none
  replayed : replay (full config) (fun _ => {}) s.log = s.views

/-- Every session is where it was. -/
def Stays (s t : Sessions) : Prop :=
  ∀ i, (t.session i).config = (s.session i).config ∧ (t.session i).joined = (s.session i).joined ∧
    (t.session i).channel = (s.session i).channel

theorem stays_update {x : MacosRtcSession} (session : t.session = Function.update s.session i x)
    (same : x.config = (s.session i).config ∧ x.joined = (s.session i).joined ∧
      x.channel = (s.session i).channel) : Stays s t := by
  intro j
  by_cases here : j = i
  · subst here
    simpa [session] using same
  · simp [session, here]

/-- What leaves the sessions where they are, and the registry alone. -/
theorem Sound.stays (sound : Sound config s) (stays : Stays s t)
    (registry : t.channelRegistry = s.channelRegistry)
    (waiting : ∀ push ∈ t.waiting, (s.session push.session).channel ≠ none)
    (replayed : replay (full config) (fun _ => {}) t.log = t.views) : Sound config t := by
  have members : ∀ c, t.members c = s.members c := fun c => by
    rw [Sessions.members, registry]
    rfl
  constructor
  · intro i
    rw [(stays i).1, sound.configured]
  · intro c i
    rw [members, sound.registered, (stays i).2.1, (stays i).2.2]
  · intro c
    rw [members]
    exact sound.once c
  · intro c
    rw [registry]
    exact sound.occupied c
  · intro i
    rw [(stays i).2.1, (stays i).2.2]
    exact sound.placed i
  · intro push member
    rw [(stays push.session).2.2]
    exact waiting push member
  · exact replayed

/-- Sessions that are the same but for the buffer that is played. -/
def Alike (s t : Sessions) : Prop :=
  ∀ i, (t.session i).config = (s.session i).config ∧ (t.session i).view = (s.session i).view

theorem alike_refl (s : Sessions) : Alike s s := fun _ => ⟨rfl, rfl⟩

theorem alike_set {x : MacosRtcSession} (sameConfig : x.config = (s.session i).config)
    (sameView : x.view = (s.session i).view) : Alike s (s.set i x) := by
  intro j
  by_cases here : j = i
  · subst here
    simp [set, sameConfig, sameView]
  · simp [set, here]

theorem alike_setDrainEvent (s : Sessions) (i : Nat) : Alike s (s.setDrainEvent i) := by
  unfold setDrainEvent
  split
  · exact alike_refl s
  · exact alike_set (s := s) (i := i) rfl rfl

theorem alike_countPush (s : Sessions) (i : Nat) : Alike s (s.countPush i) := by
  unfold countPush
  dsimp only
  split
  · exact alike_set (s := s) (i := i) rfl rfl
  · exact alike_set rfl rfl

theorem Sound.alike (sound : Sound config s) (alike : Alike s t)
    (registry : t.channelRegistry = s.channelRegistry) (log : t.log = s.log)
    (waiting : ∀ push ∈ t.waiting, (s.session push.session).channel ≠ none) : Sound config t := by
  refine sound.stays (fun i => ⟨(alike i).1, ?_, ?_⟩) registry waiting ?_
  · exact congrArg Party.inside (alike i).2
  · exact congrArg Party.channel (alike i).2
  · rw [log, sound.replayed]
    exact funext fun i => (alike i).2.symm

/-- One more note, which does to a party what was done to its session. -/
theorem replayed_update {note : Note Nat String Item} {x : MacosRtcSession}
    (replayed : replay (full config) (fun _ => {}) s.log = s.views)
    (log : t.log = s.log ++ [note]) (session : t.session = Function.update s.session i x)
    (noted : apply (full config) s.views note = Function.update s.views i x.view) :
    replay (full config) (fun _ => {}) t.log = t.views := by
  rw [log, replay_append, replayed]
  refine noted.trans (funext fun j => ?_)
  by_cases here : j = i
  · subst here
    simp [session, views]
  · simp [session, views, here]

/-! ### Joining and leaving -/

theorem members_put {siblings : List Nat}
    (became : t.channelRegistry = Dict.put s.channelRegistry name siblings) :
    t.members c = if c = name then siblings else s.members c := by
  rw [members, became, Dict.lookup_put]
  split <;> rfl

theorem sound_join {uid : String} {sendSampleRate : Nat} (sound : Sound config s)
    (joins : s.join i name uid sendSampleRate = .ok t) : Sound config t := by
  unfold join at joins
  dsimp only at joins
  split at joins
  · cases joins
  rename_i out
  obtain rfl := Except.ok.inj joins
  have absent : ∀ c, i ∉ s.members c := fun c member => out ((sound.registered c i).mp member).1
  constructor
  · intro j
    by_cases here : j = i
    · subst here
      simpa [set] using sound.configured j
    · simpa [set, here] using sound.configured j
  · intro c j
    rw [members_put rfl]
    by_cases here : j = i
    · subst here
      by_cases same : c = name
      · subst same
        simp [set]
      · simp [set, same, absent, Ne.symm same]
    · have registered := sound.registered c j
      by_cases same : c = name
      · subst same
        simpa [set, here] using registered
      · simpa [set, here, same] using registered
  · intro c
    rw [members_put rfl]
    split
    · exact List.nodup_append.mpr ⟨sound.once _, List.nodup_singleton i, by
        rintro j member _ last rfl
        obtain rfl := List.mem_singleton.mp last
        exact absent _ member⟩
    · exact sound.once c
  · intro c
    show (Dict.put s.channelRegistry name (s.members name ++ [i])).lookup c ≠ some []
    rw [Dict.lookup_put]
    split
    · simp
    · exact sound.occupied c
  · intro j
    by_cases here : j = i
    · subst here
      simp [set]
    · simpa [set, here] using sound.placed j
  · intro push member
    have placed := sound.waitsPlaced push member
    by_cases here : push.session = i
    · simp [set, here]
    · simpa [set, here] using placed
  · exact replayed_update sound.replayed rfl rfl rfl

/-- What `unregister` does, but for the registry. -/
theorem unregister_frame (placed : (s.session i).channel = some name) :
    (s.unregister i).session = Function.update s.session i { s.session i with joined := false } ∧
      (s.unregister i).log = s.log ++ [.exit i] ∧ (s.unregister i).waiting = s.waiting := by
  unfold unregister
  rw [placed]
  dsimp only
  split <;> exact ⟨rfl, rfl, rfl⟩

theorem members_unregister (placed : (s.session i).channel = some name) (c : String) :
    (s.unregister i).members c = if c = name then (s.members name).erase i else s.members c := by
  unfold unregister
  rw [placed]
  dsimp only
  split
  · rename_i last
    rw [members, Dict.lookup_erase]
    split
    · exact last.symm
    · rfl
  · exact members_put rfl

theorem sound_unregister (sound : Sound config s) (joined : (s.session i).joined = true) :
    Sound config (s.unregister i) := by
  obtain ⟨name, placed⟩ := Option.ne_none_iff_exists'.mp (sound.placed i joined)
  obtain ⟨session, log, waiting⟩ := unregister_frame placed
  constructor
  · intro j
    rw [session]
    by_cases here : j = i
    · subst here
      simpa using sound.configured j
    · simpa [here] using sound.configured j
  · intro c j
    rw [members_unregister placed, session]
    by_cases same : c = name
    · subst same
      rw [if_pos rfl, (sound.once c).mem_erase_iff, sound.registered]
      by_cases here : j = i
      · subst here
        simp
      · simp [here]
    · rw [if_neg same, sound.registered]
      by_cases here : j = i
      · subst here
        simp [placed, Ne.symm same]
      · simp [here]
  · intro c
    rw [members_unregister placed]
    split
    · exact (sound.once _).erase i
    · exact sound.once c
  · intro c
    unfold unregister
    rw [placed]
    dsimp only
    split
    · rw [Dict.lookup_erase]
      split
      · simp
      · exact sound.occupied c
    · rename_i more
      rw [Dict.lookup_put]
      split
      · simpa using more
      · exact sound.occupied c
  · intro j
    rw [session]
    by_cases here : j = i
    · subst here
      simp
    · simpa [here] using sound.placed j
  · intro push member
    rw [waiting] at member
    have before := sound.waitsPlaced push member
    rw [session]
    by_cases here : push.session = i
    · simp [here, placed]
    · simpa [here] using before
  · exact replayed_update sound.replayed log session rfl

/-! ### Frames and sentinels -/

theorem setDrainEvent_frame (s : Sessions) (i : Nat) :
    (s.setDrainEvent i).channelRegistry = s.channelRegistry ∧ (s.setDrainEvent i).log = s.log ∧
      (s.setDrainEvent i).callbacks = s.callbacks ∧
      (s.setDrainEvent i).waiting.map (·.session) = s.waiting.map (·.session) := by
  unfold setDrainEvent
  split
  · exact ⟨rfl, rfl, rfl, rfl⟩
  · refine ⟨rfl, rfl, rfl, ?_⟩
    rw [List.map_map]
    exact List.map_congr_left fun push _ => push.session_wake i

theorem sound_setDrainEvent (sound : Sound config s) (i : Nat) :
    Sound config (s.setDrainEvent i) := by
  obtain ⟨registry, log, -, waiting⟩ := setDrainEvent_frame s i
  refine sound.alike (alike_setDrainEvent s i) registry log fun push member => ?_
  have listed : push.session ∈ s.waiting.map (·.session) := by
    rw [← waiting]
    exact List.mem_map_of_mem member
  obtain ⟨old, before, same⟩ := List.mem_map.mp listed
  rw [← same]
  exact sound.waitsPlaced old before

theorem sound_putSentinel (sound : Sound config s) (i : Nat) : Sound config (s.putSentinel i) := by
  refine sound_setDrainEvent ?_ i
  refine sound.stays (stays_update (i := i) rfl ⟨rfl, rfl, rfl⟩) rfl sound.waitsPlaced ?_
  exact replayed_update sound.replayed rfl rfl rfl

theorem sound_leave (sound : Sound config s) (i : Nat) : Sound config (s.leave i) := by
  unfold leave
  dsimp only
  split
  · rename_i joined
    have left := sound_unregister sound joined
    split
    · exact left.alike (alike_refl _) rfl rfl left.waitsPlaced
    · exact sound_putSentinel left i
  · exact sound

theorem sound_gotItem {item : Item} {rest : List Item} (sound : Sound config s)
    (first : (s.session i).inbound = item :: rest) : Sound config (s.gotItem i item rest) := by
  have noted : Sound config { s.set i { s.session i with
      inbound := rest, taken := (s.session i).taken ++ [item] } with log := s.log ++ [.take i] } := by
    refine sound.stays (stays_update (i := i) rfl ⟨rfl, rfl, rfl⟩) rfl sound.waitsPlaced ?_
    refine replayed_update sound.replayed rfl rfl ?_
    simp [apply, views, MacosRtcSession.view, first]
  cases item with
  | frame _ => exact noted
  | sentinel => exact noted.alike (alike_refl _) rfl rfl noted.waitsPlaced

/-- The loop over the peers, seen from one of the sessions. -/
theorem foldl_offer (frame : PcmFrame) {peers : List Nat} (once : peers.Nodup)
    (session : Nat → MacosRtcSession) (j : Nat) :
    peers.foldl (offer frame) session j =
      if j ∈ peers ∧ ¬(session j).Full then
        { session j with inbound := (session j).inbound ++ [.frame frame] }
      else session j := by
  induction peers generalizing session with
  | nil => simp
  | cons peer rest ih =>
      obtain ⟨absent, later⟩ := List.nodup_cons.mp once
      rw [List.foldl_cons, ih later]
      have offered : offer frame session peer j =
          if j = peer ∧ ¬(session j).Full then
            { session j with inbound := (session j).inbound ++ [.frame frame] }
          else session j := by
        unfold offer MacosRtcSession.putNowait
        by_cases full : (session peer).Full
        · by_cases here : j = peer
          · subst here
            simp [full]
          · simp [full, here]
        · by_cases here : j = peer
          · subst here
            simp [full]
          · simp [full, here]
      rw [offered]
      by_cases here : j = peer
      · subst here
        simp [absent]
      · simp [here]

/-- The peers of a push are those who hear it. -/
theorem mem_peers (sound : Sound config s) (placed : (s.session i).channel ≠ none) :
    j ∈ s.peers i ↔ Hears s.views i j := by
  obtain ⟨name, there⟩ := Option.ne_none_iff_exists'.mp placed
  rw [peers, List.mem_filter, there, Option.getD_some, sound.registered]
  simp only [Hears, views, MacosRtcSession.view, there, ne_eq, Bool.decide_and, Bool.and_eq_true,
    decide_eq_true_eq]
  tauto

theorem sound_post (sound : Sound config s) (placed : (s.session i).channel ≠ none) (pcm : Pcm) :
    Sound config (s.post i pcm) := by
  have session : ∀ j, (s.post i pcm).session j =
      if j ∈ s.peers i ∧ ¬(s.session j).Full then
        { s.session j with
          inbound := (s.session j).inbound ++ [.frame ((s.session i).frameOf pcm)] }
      else s.session j :=
    foldl_offer _ ((sound.once _).filter _) s.session
  refine sound.stays (fun j => ?_) rfl sound.waitsPlaced ?_
  · rw [session]
    split <;> exact ⟨rfl, rfl, rfl⟩
  · show replay (full config) (fun _ => {}) (s.log ++ [_]) = _
    rw [replay_append, sound.replayed]
    funext j
    have room : full config j (s.views j).box.length = false ↔ ¬(s.session j).Full := by
      rw [full, decide_eq_false_iff_not, MacosRtcSession.Full, sound.configured]
      rfl
    have reaches : Reaches (full config) s.views i j ↔ j ∈ s.peers i ∧ ¬(s.session j).Full := by
      rw [Reaches, room, mem_peers sound placed]
    show (if Reaches (full config) s.views i j then _ else _) = ((s.post i pcm).session j).view
    rw [session]
    by_cases gets : j ∈ s.peers i ∧ ¬(s.session j).Full
    · rw [if_pos (reaches.mpr gets), if_pos gets]
      rfl
    · rw [if_neg (mt reaches.mp gets), if_neg gets]
      rfl

theorem countPush_frame (s : Sessions) (i : Nat) :
    (s.countPush i).channelRegistry = s.channelRegistry ∧ (s.countPush i).log = s.log ∧
      (s.countPush i).waiting = s.waiting := by
  unfold countPush
  dsimp only
  split <;> exact ⟨rfl, rfl, rfl⟩

theorem sound_deliver (sound : Sound config s) (placed : (s.session i).channel ≠ none) (pcm : Pcm) :
    Sound config (s.deliver i pcm) := by
  have posted := sound_post sound placed pcm
  obtain ⟨registry, log, waiting⟩ := countPush_frame (s.post i pcm) i
  exact posted.alike (alike_countPush _ i) registry log fun push member =>
    posted.waitsPlaced push (waiting ▸ member)

theorem sound_pushAudio (sound : Sound config s) (i : Nat) (pcm : Pcm) :
    Sound config (s.pushAudio i pcm).1 := by
  unfold pushAudio
  dsimp only
  split
  · exact sound
  rename_i joined
  have placed : (s.session i).channel ≠ none := sound.placed i (by simpa using joined)
  split
  · exact sound.alike (alike_set rfl rfl) rfl rfl sound.waitsPlaced
  split
  · exact sound_deliver sound placed pcm
  · refine sound.alike (alike_refl _) rfl rfl fun push member => ?_
    rcases List.mem_append.mp member with before | new
    · exact sound.waitsPlaced push before
    · obtain rfl := List.mem_singleton.mp new
      exact placed

theorem sound_step (sound : Sound config s) (ran : s.step action = some t) : Sound config t := by
  cases action with
  | join i name uid sendSampleRate =>
      obtain rfl := Option.some.inj ran
      cases joins : s.join i name uid sendSampleRate with
      | ok u => exact sound_join sound joins
      | error _ => exact sound
  | leave i =>
      obtain rfl := Option.some.inj ran
      exact sound_leave sound i
  | putResumes i =>
      simp only [step, Option.ite_none_right_eq_some, Option.some.injEq] at ran
      obtain ⟨-, rfl⟩ := ran
      have less : Sound config { s with leaving := s.leaving.erase i } :=
        sound.alike (alike_refl _) rfl rfl sound.waitsPlaced
      exact sound_putSentinel less i
  | leaveCancelled i =>
      simp only [step, Option.ite_none_right_eq_some, Option.some.injEq] at ran
      obtain ⟨-, rfl⟩ := ran
      exact sound.alike (alike_refl _) rfl rfl sound.waitsPlaced
  | pushAudio i pcm =>
      obtain rfl := Option.some.inj ran
      exact sound_pushAudio sound i pcm
  | pushResumes k =>
      simp only [step] at ran
      split at ran
      · rename_i push found
        simp only [Option.ite_none_right_eq_some, Option.some.injEq] at ran
        obtain ⟨-, rfl⟩ := ran
        have less : Sound config { s with waiting := s.waiting.eraseIdx k } :=
          sound.alike (alike_refl _) rfl rfl fun other member =>
            sound.waitsPlaced other (List.mem_of_mem_eraseIdx member)
        exact sound_deliver less (sound.waitsPlaced push (List.mem_of_getElem? found)) push.pcm
      · cases ran
  | pushCancelled k =>
      obtain rfl := Option.some.inj ran
      exact sound.alike (alike_refl _) rfl rfl fun other member =>
        sound.waitsPlaced other (List.mem_of_mem_eraseIdx member)
  | callback =>
      simp only [step] at ran
      split at ran
      · cases ran
      · rename_i j rest _
        obtain rfl := Option.some.inj ran
        have less : Sound config { s with callbacks := rest } :=
          sound.alike (alike_refl _) rfl rfl sound.waitsPlaced
        exact sound_setDrainEvent less j
  | audioFrames i =>
      obtain rfl := Option.some.inj ran
      unfold audioFrames
      split
      · exact sound.alike (alike_refl _) rfl rfl sound.waitsPlaced
      · exact sound
  | take i =>
      simp only [step, Option.ite_none_right_eq_some] at ran
      obtain ⟨-, ran⟩ := ran
      split at ran
      · cases ran
      · rename_i item rest first
        obtain rfl := Option.some.inj ran
        exact sound_gotItem sound first
  | force i =>
      obtain rfl := Option.some.inj ran
      exact sound.alike (alike_set rfl rfl) rfl rfl sound.waitsPlaced

theorem sound_start (config : Nat → MacosRtcSessionConfig) : Sound config (start config) where
  configured := fun _ => rfl
  registered := fun c i => by simp [members, start]
  once := fun _ => List.nodup_nil
  occupied := fun _ => nofun
  placed := fun _ joined => nomatch joined
  waitsPlaced := List.forall_mem_nil _
  replayed := rfl

theorem sound_of_reachable (run : Reachable step Free (start config) s) : Sound config s :=
  run.invariant (sound_start config) fun _ _ _ sound _ ran => sound_step sound ran

/-! ### What an action notes -/

/-- What an action does to the channel, by the sessions before it. -/
def notes (s : Sessions) : Action → List (Note Nat String Item)
  | .join i channel _ _ => if (s.session i).joined then [] else [.enter i channel]
  | .leave i =>
      if (s.session i).joined then
        if (s.session i).Full then [.exit i] else [.exit i, .put i .sentinel]
      else []
  | .putResumes i => [.put i .sentinel]
  | .pushAudio i pcm =>
      let self := s.session i
      if self.joined ∧ self.forceBackpressureOnNextPush = false ∧ self.drainEvent then
        [.post i (.frame (self.frameOf pcm))]
      else []
  | .pushResumes k =>
      (s.waiting[k]?.map fun push =>
        Note.post push.session (Item.frame ((s.session push.session).frameOf push.pcm))).toList
  | .take i => [.take i]
  | _ => []

/-- The pushes that await the drain. -/
def pushes (s : Sessions) : List (Nat × Pcm) := s.waiting.map fun push => (push.session, push.pcm)

/-- The pushes that await the drain after an action. -/
def awaited (s : Sessions) : Action → List (Nat × Pcm)
  | .pushAudio i pcm =>
      let self := s.session i
      if self.joined ∧ self.forceBackpressureOnNextPush = false ∧ self.drainEvent = false then
        s.pushes ++ [(i, pcm)]
      else s.pushes
  | .pushResumes k => s.pushes.eraseIdx k
  | .pushCancelled k => s.pushes.eraseIdx k
  | _ => s.pushes

/-- An action is in the log for what it does, and a push that must wait stands by. -/
def Noted (s : Sessions) (action : Action) (t : Sessions) : Prop :=
  t.log = s.log ++ s.notes action ∧ t.pushes = s.awaited action

theorem pushes_setDrainEvent (s : Sessions) (i : Nat) : (s.setDrainEvent i).pushes = s.pushes := by
  unfold setDrainEvent
  split
  · rfl
  · show (s.waiting.map _).map _ = _
    rw [List.map_map]
    refine List.map_congr_left fun push _ => ?_
    simp

theorem putSentinel_noted (s : Sessions) (i : Nat) :
    (s.putSentinel i).log = s.log ++ [.put i .sentinel] ∧ (s.putSentinel i).pushes = s.pushes := by
  unfold putSentinel
  refine ⟨(setDrainEvent_frame _ i).2.1, ?_⟩
  rw [pushes_setDrainEvent]
  rfl

theorem deliver_noted (s : Sessions) (i : Nat) (pcm : Pcm) :
    (s.deliver i pcm).log = s.log ++ [.post i (.frame ((s.session i).frameOf pcm))] ∧
      (s.deliver i pcm).pushes = s.pushes := by
  obtain ⟨-, log, waiting⟩ := countPush_frame (s.post i pcm) i
  refine ⟨log, ?_⟩
  rw [pushes, deliver, waiting]
  rfl

theorem noted_leave (sound : Sound config s) (i : Nat) : Noted s (.leave i) (s.leave i) := by
  unfold leave Noted
  simp only [notes, awaited]
  split
  · rename_i joined
    obtain ⟨name, placed⟩ := Option.ne_none_iff_exists'.mp (sound.placed i joined)
    obtain ⟨session, log, waiting⟩ := unregister_frame placed
    have pushes : (s.unregister i).pushes = s.pushes := by rw [pushes, waiting]; rfl
    have full : ((s.unregister i).session i).Full ↔ (s.session i).Full := by
      rw [session, Function.update_self]
      exact Iff.rfl
    simp only [full]
    split
    · exact ⟨log, pushes⟩
    · obtain ⟨put, same⟩ := putSentinel_noted (s.unregister i) i
      rw [put, log, same, pushes, List.append_assoc]
      exact ⟨rfl, rfl⟩
  · exact ⟨(List.append_nil _).symm, rfl⟩

theorem noted_pushAudio (s : Sessions) (i : Nat) (pcm : Pcm) :
    Noted s (.pushAudio i pcm) (s.pushAudio i pcm).1 := by
  unfold pushAudio Noted
  simp only [notes, awaited]
  by_cases joined : (s.session i).joined = true
  · by_cases forced : (s.session i).forceBackpressureOnNextPush = true
    · simp [joined, forced, set, pushes]
    · by_cases drain : (s.session i).drainEvent = true
      · obtain ⟨log, same⟩ := deliver_noted s i pcm
        simp [joined, forced, drain, log, same]
      · simp [joined, forced, drain, pushes]
  · simp [joined]

/-- **What an action notes.** -/
theorem noted_step (sound : Sound config s) (ran : s.step action = some t) : Noted s action t := by
  have silent : s.log = s.log ++ [] := (List.append_nil _).symm
  cases action with
  | join i name uid sendSampleRate =>
      obtain rfl := Option.some.inj ran
      unfold join Noted
      simp only [notes, awaited]
      split
      · exact ⟨silent, rfl⟩
      · exact ⟨rfl, rfl⟩
  | leave i =>
      obtain rfl := Option.some.inj ran
      exact noted_leave sound i
  | putResumes i =>
      simp only [step, Option.ite_none_right_eq_some, Option.some.injEq] at ran
      obtain ⟨-, rfl⟩ := ran
      exact putSentinel_noted { s with leaving := s.leaving.erase i } i
  | leaveCancelled i =>
      simp only [step, Option.ite_none_right_eq_some, Option.some.injEq] at ran
      obtain ⟨-, rfl⟩ := ran
      exact ⟨silent, rfl⟩
  | pushAudio i pcm =>
      obtain rfl := Option.some.inj ran
      exact noted_pushAudio s i pcm
  | pushResumes k =>
      simp only [step] at ran
      split at ran
      · rename_i push found
        simp only [Option.ite_none_right_eq_some, Option.some.injEq] at ran
        obtain ⟨-, rfl⟩ := ran
        obtain ⟨log, same⟩ :=
          deliver_noted { s with waiting := s.waiting.eraseIdx k } push.session push.pcm
        refine ⟨?_, ?_⟩
        · simp [notes, found, log]
        · rw [same]
          exact (List.eraseIdx_map _ _ _).symm
      · cases ran
  | pushCancelled k =>
      obtain rfl := Option.some.inj ran
      exact ⟨silent, (List.eraseIdx_map _ _ _).symm⟩
  | callback =>
      simp only [step] at ran
      split at ran
      · cases ran
      · rename_i j rest _
        obtain rfl := Option.some.inj ran
        refine ⟨(setDrainEvent_frame _ j).2.1.trans silent, ?_⟩
        rw [pushes_setDrainEvent]
        rfl
  | audioFrames i =>
      obtain rfl := Option.some.inj ran
      unfold audioFrames
      split
      · exact ⟨silent, rfl⟩
      · exact ⟨silent, rfl⟩
  | take i =>
      simp only [step, Option.ite_none_right_eq_some] at ran
      obtain ⟨-, ran⟩ := ran
      split at ran
      · cases ran
      · rename_i item rest first
        obtain rfl := Option.some.inj ran
        cases item with
        | frame _ => exact ⟨rfl, rfl⟩
        | sentinel => exact ⟨rfl, rfl⟩
  | force i =>
      obtain rfl := Option.some.inj ran
      exact ⟨silent, rfl⟩

/-! ### Main result -/

/-- The frames and sentinels a session got: those taken off its queue and those on it. -/
def got (s : Sessions) (i : Nat) : List Item := (s.session i).taken ++ (s.session i).inbound

/-- A channel has an entry while a session is in it. -/
theorem isSome_registry_iff (sound : Sound config s) (c : String) :
    (s.channelRegistry.lookup c).isSome = true ↔
      ∃ i, (s.session i).joined = true ∧ (s.session i).channel = some c := by
  constructor
  · intro listed
    obtain ⟨siblings, found⟩ := Option.isSome_iff_exists.mp listed
    have ne : siblings ≠ [] := fun empty => sound.occupied c (by rw [found, empty])
    obtain ⟨i, member⟩ := List.exists_mem_of_ne_nil siblings ne
    exact ⟨i, (sound.registered c i).mp (by rwa [members, found])⟩
  · rintro ⟨i, there⟩
    have member := (sound.registered c i).mpr there
    cases found : s.channelRegistry.lookup c with
    | some _ => rfl
    | none => simp [members, found] at member

theorem got_sublist (sound : Sound config s) (i : Nat) :
    (s.got i).Sublist (s.log.flatMap (offers i)) := by
  have account := read_append_box (full config) i (fun _ => {}) s.log
  rw [sound.replayed] at account
  rw [got, show (s.session i).taken ++ (s.session i).inbound =
    Broadcast.reached (full config) i (fun _ => {}) s.log from account]
  exact reached_sublist (full config) i _ s.log

/-- A frame that is posted comes to those whom it reaches. -/
theorem got_post (sound : Sound config s) (ran : s.step action = some t) {frame : Item}
    (posts : s.notes action = [.post i frame]) (j : Nat) :
    t.got j = s.got j ++ if Reaches (full config) s.views i j then [frame] else [] := by
  have after : t.views = apply (full config) s.views (.post i frame) := by
    rw [← (sound_step sound ran).replayed, (noted_step sound ran).1, posts, replay_append,
      sound.replayed]
    rfl
  have account := read_append_box_apply (full config) s.views j (.post i frame)
  rw [← after] at account
  exact account

/-- The sessions are an ideal channel. -/
structure Broadcasts (config : Nat → MacosRtcSessionConfig) (s : Sessions) : Prop where
  /-- the registry lists a session once under the channel it has joined -/
  registered : ∀ c i, (s.members c).count i =
    if (s.session i).joined = true ∧ (s.session i).channel = some c then 1 else 0
  /-- a channel that all have left has no entry -/
  forgotten : ∀ c, (s.channelRegistry.lookup c).isSome = true ↔
    ∃ i, (s.session i).joined = true ∧ (s.session i).channel = some c
  /-- the log explains the sessions without a registry -/
  replayed : replay (full config) (fun _ => {}) s.log = s.views
  /-- what a session got was pushed by others, in the one order of all pushes -/
  inOrder : ∀ i, (s.got i).Sublist (s.log.flatMap (offers i))
  /-- each action that is carried out is in the log for what it does -/
  noted : ∀ action t, s.step action = some t → Noted s action t
  /-- and one that posts a frame brings it to exactly the others in the channel with room -/
  posts : ∀ action t i frame, s.step action = some t → s.notes action = [.post i frame] →
    ∀ j, t.got j = s.got j ++ if Reaches (full config) s.views i j then [frame] else []

/-- **The registry is a broadcast channel.**  However joins, leaves, pushes, cancellations and
consumers interleave, a push reaches every other session that is in the channel then and has
room, and all sessions see the pushes in one order. -/
theorem loopback_is_broadcast (config : Nat → MacosRtcSessionConfig)
    (reached : Reachable step Free (start config) s) : Broadcasts config s := by
  have sound := sound_of_reachable reached
  constructor
  case registered =>
    intro c i
    rw [(sound.once c).count]
    simp only [sound.registered]
  case forgotten => exact isSome_registry_iff sound
  case replayed => exact sound.replayed
  case inOrder => exact got_sublist sound
  case noted => exact fun _ _ ran => noted_step sound ran
  case posts => exact fun _ _ _ _ ran posts => got_post sound ran posts

/-! ## Poles -/

/-- Sessions whose buffer is full after each push. -/
def strict (_ : Nat) : MacosRtcSessionConfig := { outboundCapacity := 1 }

/-- A session leaves while a push of its own awaits the drain. -/
def farewell : List Action :=
  [.join 0 "call" "edge" 16000, .join 1 "call" "engine" 16000, .pushAudio 0 [1, 0],
    .pushAudio 0 [2, 0], .leave 0]

theorem farewell_runs : (run step (start strict) farewell).isSome = true := by decide +kernel

def parting : Sessions := (run step (start strict) farewell).get farewell_runs

theorem parting_reached : Reachable step Free (start strict) parting := reachable_get farewell_runs

theorem parting_broadcasts : Broadcasts strict parting ∧ (parting.got 1).length = 1 :=
  ⟨loopback_is_broadcast strict parting_reached, by decide +kernel⟩

end Sessions

end IsalesTelephony.Audio.Loopback
