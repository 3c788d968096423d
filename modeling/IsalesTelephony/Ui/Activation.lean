/-
# Ui.Activation -- what becomes of a rejected activation code

`process_submission` expects the restarter to raise when the cloud rejects the code.  The
restarter waits for `client.start`, and `start` waits until a stream is up or the client is
stopped: the connect loop catches `UNAUTHENTICATED` like any other failure and tries again
after its backoff.

While the connect loop runs for a submission, the submission waits, or it has returned
without an error because a stream came up (`Sound`).  It has never returned an error, so an
attempt that follows a rejected one is made unreported, and the submission keeps what it
promises exactly if there is no such attempt (`rejection_reported_iff`).
-/
import IsalesTelephony.Transport.ClientSteps
import IsalesTelephony.Ui.TrayLink

namespace IsalesTelephony.Ui

set_option autoImplicit false

open IsalesTelephony.Transport
open IsalesTelephony.Theory.Transition

universe u

namespace TrayLink

variable {F : Type u} {l m : TrayLink F} {action : LinkAction F}

/-! ## What a submission promises -/

/-- The client runs with the code of submission `i`: nobody has restarted or stopped it
since that submission did. -/
def RunsFor (l : TrayLink F) (i : Nat) : Prop :=
  l.owner = some i ∧ l.calls[i]?.map StartCall.starter = some .submission

instance (l : TrayLink F) (i : Nat) : Decidable (l.RunsFor i) :=
  inferInstanceAs (Decidable (_ ∧ _))

/-- The submission returns without an error only if a stream was up, and after a rejected
attempt there is no other before the rejection is reported. -/
def Reports (l : TrayLink F) (i : Nat) : Prop :=
  (l.calls[i]?.map StartCall.pc = some (.done none) →
      ∃ a ∈ l.attemptsOf i, a.established = true) ∧
    (l.attemptsOf i).Pairwise fun later earlier =>
      earlier.failure = some .unauthenticated → later.reported = true

instance (l : TrayLink F) (i : Nat) : Decidable (l.Reports i) :=
  inferInstanceAs (Decidable (_ ∧ _))

/-! ## Waiting for a stream -/

/-- What the attempts of call `i` say about where it is, while the connect loop runs for it. -/
def Answered (attempts : List Attempt) (i : Nat) : CallPc → Prop
  | .starting false => True
  | .starting true | .done none => ∃ a ∈ attempts, a.call = i ∧ a.established = true
  | _ => False

theorem answered_mono {attempts attempts' : List Attempt} {i : Nat} {pc : CallPc}
    (kept : ∀ a ∈ attempts, ∃ a' ∈ attempts', a'.call = a.call ∧
      (a.established = true → a'.established = true))
    (answered : Answered attempts i pc) : Answered attempts' i pc := by
  have found : (∃ a ∈ attempts, a.call = i ∧ a.established = true) →
      ∃ a ∈ attempts', a.call = i ∧ a.established = true := by
    rintro ⟨a, member, rfl, up⟩
    obtain ⟨a', member', same, still⟩ := kept a member
    exact ⟨a', member', same, still up⟩
  unfold Answered at answered ⊢
  split
  · trivial
  · exact found answered
  · exact found answered
  · simp_all

theorem mem_modifyHead {attempts : List Attempt} {note : Attempt → Attempt} {b : Attempt}
    (member : b ∈ attempts.modifyHead note) : ∃ a ∈ attempts, b = a ∨ b = note a := by
  cases attempts with
  | nil => cases member
  | cons newest rest =>
      rw [List.modifyHead_cons] at member
      rcases List.mem_cons.mp member with rfl | earlier
      · exact ⟨newest, List.mem_cons_self .., .inr rfl⟩
      · exact ⟨b, List.mem_cons_of_mem _ earlier, .inl rfl⟩

theorem exists_modifyHead {attempts : List Attempt} (note : Attempt → Attempt) {a : Attempt}
    (member : a ∈ attempts) : ∃ b ∈ attempts.modifyHead note, b = a ∨ b = note a := by
  cases attempts with
  | nil => cases member
  | cons newest rest =>
      rw [List.modifyHead_cons]
      rcases List.mem_cons.mp member with rfl | earlier
      · exact ⟨_, List.mem_cons_self .., .inr rfl⟩
      · exact ⟨a, List.mem_cons_of_mem _ earlier, .inl rfl⟩

/-- While the connect loop runs for a call, the call has not returned an error, and it goes
on only after a stream was up. -/
structure Sound (l : TrayLink F) : Prop where
  owned : ∀ i, l.owner = some i → l.client.phase ≠ .stopped ∧
    ∃ call, l.calls[i]? = some call ∧ Answered l.attempts i call.pc
  newest : l.client.phase = .opening ∨ l.client.phase = .streaming →
    ∃ a rest, l.attempts = a :: rest ∧ l.owner = some a.call
  unreported : ∀ a ∈ l.attempts, a.reported = false

theorem sound_init (pending : Pending (Sent F)) : Sound (init pending) where
  owned := fun _ owner => by cases owner
  newest := fun phase => by rcases phase with phase | phase <;> cases phase
  unreported := fun _ member => by cases member

/-- The invariant does not look at the bus, the daemon or the watcher. -/
theorem Sound.of_same (sound : Sound l) (client : m.client = l.client) (owner : m.owner = l.owner)
    (calls : m.calls = l.calls) (attempts : m.attempts = l.attempts) : Sound m where
  owned := by rw [client, owner, calls, attempts]; exact sound.owned
  newest := by rw [client, owner, attempts]; exact sound.newest
  unreported := by rw [attempts]; exact sound.unreported

theorem setPc_at {i : Nat} {call : StartCall} (at_ : l.calls[i]? = some call) (pc : CallPc) :
    (l.setPc i pc).calls[i]? = some { call with pc := pc } := by
  simp [setPc, at_]

theorem setPc_ne {i j : Nat} (other : i ≠ j) (pc : CallPc) :
    (l.setPc i pc).calls[j]? = l.calls[j]? := by
  simp [setPc, other]

/-- A call moves on. -/
theorem sound_setPc {i : Nat} {call : StartCall} {pc : CallPc} (sound : Sound l)
    (at_ : l.calls[i]? = some call) (answered : l.owner = some i → Answered l.attempts i pc) :
    Sound (l.setPc i pc) where
  owned := fun j owner => by
    obtain ⟨running, call', at', before⟩ := sound.owned j owner
    refine ⟨running, ?_⟩
    by_cases same : i = j
    · subst same
      exact ⟨_, setPc_at at_ pc, answered owner⟩
    · exact ⟨call', (setPc_ne same pc).trans at', before⟩
  newest := sound.newest
  unreported := sound.unreported

/-- A call that is not waiting for the client is not the owner. -/
theorem Sound.not_owner {i : Nat} {call : StartCall} (sound : Sound l)
    (at_ : l.calls[i]? = some call) (idle : ∀ attempts, ¬ Answered attempts i call.pc) :
    l.owner ≠ some i := by
  intro owner
  obtain ⟨-, call', at', answered⟩ := sound.owned i owner
  obtain rfl := Option.some.inj (at_.symm.trans at')
  exact idle _ answered

/-- Another call is added. -/
theorem sound_append (sound : Sound l) (call : StartCall) :
    Sound { l with calls := l.calls ++ [call] } where
  owned := fun i owner => by
    obtain ⟨running, call', at_, answered⟩ := sound.owned i owner
    exact ⟨running, call', (List.getElem?_append_left (List.getElem?_eq_some_iff.mp at_).1).trans at_,
      answered⟩
  newest := sound.newest
  unreported := sound.unreported

theorem sound_startClient {i : Nat} {call : StartCall} (sound : Sound l)
    (at_ : l.calls[i]? = some call) : Sound (l.startClient i) where
  owned := fun j owner => by
    obtain rfl := Option.some.inj owner
    exact ⟨nofun, _, setPc_at at_ _, trivial⟩
  newest := fun phase => by rcases phase with phase | phase <;> cases phase
  unreported := sound.unreported

theorem sound_stopClient {c : GrpcClient F} (sound : Sound l)
    (client : l.client.step .stop = some c) : Sound (l.stopClient c) where
  owned := fun _ owner => by cases owner
  newest := fun phase => by
    have stopped : c.phase = .stopped := GrpcClient.goes_of_step client
    rcases phase with phase | phase <;> cases stopped.symm.trans phase
  unreported := sound.unreported

theorem sound_succeed {i : Nat} {call : StartCall} (sound : Sound l)
    (at_ : l.calls[i]? = some call) (pc : call.pc = .starting true) (starter : Starter) :
    Sound (l.succeed i starter) := by
  have moved : Sound (l.setPc i (.done none)) := sound_setPc sound at_ fun owner => by
    obtain ⟨-, call', at', answered⟩ := sound.owned i owner
    obtain rfl := Option.some.inj (at_.symm.trans at')
    rw [pc] at answered
    exact answered
  cases starter <;> exact moved.of_same rfl rfl rfl rfl

theorem sound_reject {i : Nat} {call : StartCall} (sound : Sound l)
    (at_ : l.calls[i]? = some call) (other : l.owner ≠ some i) (exc : String)
    (starter : Starter) : Sound (l.reject i exc starter) := by
  have moved : ∀ pc, Sound (l.setPc i pc) := fun pc =>
    sound_setPc sound at_ fun owner => absurd owner other
  cases starter <;> exact (moved _).of_same rfl rfl rfl rfl

/-- `start` goes on: a client that is not stopped has had a stream up. -/
theorem sound_returnStart {i : Nat} {call : StartCall} (sound : Sound l)
    (at_ : l.calls[i]? = some call) (pc : call.pc = .starting true) :
    Sound (l.returnStart i call) := by
  unfold returnStart
  split
  · rename_i stopped
    exact sound_reject sound at_ (fun owner => (sound.owned i owner).1 stopped) _ _
  · exact sound_succeed sound at_ pc _

/-- A new attempt is not reported: its call has not returned an error. -/
theorem sound_opened {i : Nat} {c : GrpcClient F} (sound : Sound l) (owner : l.owner = some i)
    (client : l.client.step .openStream = some c) : Sound (l.opened i c) := by
  have opening : c.phase = .opening := (GrpcClient.goes_of_step client).2
  obtain ⟨-, call, at_, answered⟩ := sound.owned i owner
  refine ⟨fun j owner' => ?_, fun _ => ⟨_, _, rfl, owner⟩, fun a member => ?_⟩
  · obtain rfl := Option.some.inj (owner.symm.trans owner')
    refine ⟨fun stopped => (nomatch opening.symm.trans stopped), call, at_, ?_⟩
    exact answered_mono (fun a member => ⟨a, List.mem_cons_of_mem _ member, rfl, id⟩) answered
  · rcases List.mem_cons.mp member with rfl | earlier
    · simp only [reported, at_, Option.map_some]
      split
      · rename_i raised
        rw [Option.some.inj raised] at answered
        exact answered.elim
      · rfl
    · exact sound.unreported a earlier

/-- A stream is up: the call that waits for it goes on. -/
theorem sound_cameUp {fault : Option FlushFault} {c : GrpcClient F} (sound : Sound l)
    (client : l.client.step (.metadataReady fault) = some c) : Sound (l.cameUp c) := by
  obtain ⟨opening, after⟩ := GrpcClient.goes_of_step client
  obtain ⟨a, rest, attempts, owner⟩ := sound.newest (.inl opening)
  have up : ∃ b ∈ (l.cameUp c).attempts, b.call = a.call ∧ b.established = true := by
    simp only [cameUp, attempts]
    exact ⟨_, List.mem_cons_self .., rfl, rfl⟩
  refine ⟨fun i owner' => ?_, fun _ => ?_, fun b member => ?_⟩
  · obtain rfl := Option.some.inj (owner.symm.trans owner')
    obtain ⟨-, call, at_, answered⟩ := sound.owned _ owner
    refine ⟨fun stopped => ?_, call.wake, ?_, ?_⟩
    · split at after <;> cases after.symm.trans stopped
    · simp [cameUp, at_]
    · rcases call with ⟨starter, token, endpoint, pc⟩
      cases pc with
      | starting woken => exact up
      | stopping => exact answered.elim
      | restarting => exact answered.elim
      | done error =>
          cases error with
          | none => exact up
          | some error => exact answered.elim
  · simp only [cameUp, attempts]
    exact ⟨_, _, rfl, owner⟩
  · obtain ⟨a, listed, rfl | rfl⟩ := mem_modifyHead member
    · exact sound.unreported b listed
    · exact sound.unreported a listed

/-- An attempt is over, and nobody is told. -/
theorem sound_ended {c : GrpcClient F} (sound : Sound l) (failure : Option AttemptFailure)
    (after : c.phase = .backoff) : Sound (l.ended c failure) := by
  have kept : ∀ a ∈ l.attempts, ∃ b ∈ (l.ended c failure).attempts, b.call = a.call ∧
      (a.established = true → b.established = true) := by
    intro a member
    obtain ⟨b, listed, rfl | rfl⟩ := exists_modifyHead (fun a => { a with failure := failure }) member
    · exact ⟨b, listed, rfl, id⟩
    · exact ⟨_, listed, rfl, id⟩
  refine ⟨fun i owner => ?_, fun phase => ?_, fun b member => ?_⟩
  · obtain ⟨-, call, at_, answered⟩ := sound.owned i owner
    exact ⟨fun stopped => (nomatch after.symm.trans stopped), call, at_, answered_mono kept answered⟩
  · rcases phase with phase | phase <;> cases after.symm.trans phase
  · obtain ⟨a, listed, rfl | rfl⟩ := mem_modifyHead member
    · exact sound.unreported b listed
    · exact sound.unreported a listed

/-- What is left to others leaves the phase, or ends a sleep of the connect loop. -/
theorem phase_of_aside {c d : GrpcClient F} {action : ClientAction F}
    (aside : Aside action = true) (next : c.step action = some d) :
    d.phase = c.phase ∨ d.phase = .ready := by
  have goes := GrpcClient.goes_of_step next
  cases action with
  | send frame critical fault => exact .inl goes
  | take => exact .inl goes
  | backoffElapsed => exact .inr goes.2
  | start => cases aside
  | openStream => cases aside
  | metadataFailed => cases aside
  | metadataReady => cases aside
  | streamEnded => cases aside
  | stop => cases aside

theorem sound_aside {a : ClientAction F} {c : GrpcClient F} (sound : Sound l)
    (aside : Aside a = true) (client : l.client.step a = some c) :
    Sound { l with client := c } := by
  have phase : c.phase = l.client.phase ∨ c.phase = .ready := phase_of_aside aside client
  refine ⟨fun i owner => ?_, fun open_ => ?_, sound.unreported⟩
  · obtain ⟨running, rest⟩ := sound.owned i owner
    refine ⟨fun stopped => ?_, rest⟩
    rcases phase with same | ready
    · exact running (same.symm.trans stopped)
    · cases ready.symm.trans stopped
  · rcases phase with same | ready
    · exact sound.newest (open_.imp same.symm.trans same.symm.trans)
    · rcases open_ with open_ | open_ <;> cases ready.symm.trans open_

/-- **One step.** -/
theorem sound_step (sound : Sound l) (next : l.step action = some m) : Sound m := by
  cases step_cases next with
  | @boots token endpoint =>
      unfold boot
      split
      · exact sound.of_same rfl rfl rfl rfl
      · have added := sound_append sound ⟨.daemon, token, endpoint, .starting false⟩
        exact sound_startClient (l := { l with calls := _, daemon := .starting })
          (added.of_same rfl rfl rfl rfl) List.getElem?_concat_length
  | @submits token endpoint fault =>
      cases fault with
      | none =>
          have added := sound_append sound
            ⟨.submission, token, if endpoint = "" then defaultCloudEndpoint else endpoint, .stopping⟩
          exact added.of_same rfl rfl rfl rfl
      | some error =>
          have added := sound_append sound
            ⟨.submission, token, if endpoint = "" then defaultCloudEndpoint else endpoint,
              .done (some error)⟩
          exact added.of_same rfl rfl rfl rfl
  | @restartStops i call c at_ pc client =>
      have at' : (l.stopClient c).calls[i]? = some call.wake := by simp [stopClient, at_]
      exact sound_setPc (sound_stopClient sound client) at' nofun
  | restartRefused at_ pc busy =>
      exact sound_reject sound at_ (sound.not_owner at_ fun _ => by rw [pc]; exact id) _ _
  | restartStarts at_ pc free => exact sound_startClient sound at_
  | startReturns at_ pc => exact sound_returnStart sound at_ pc
  | activated => exact sound.of_same rfl rfl rfl rfl
  | opens owner client => exact sound_opened sound owner client
  | comesUp client => exact sound_cameUp sound client
  | fails client => exact sound_ended sound _ (GrpcClient.goes_of_step client).2
  | ends client => exact sound_ended sound _ (GrpcClient.goes_of_step client).2
  | aside aside client => exact sound_aside sound aside client
  | polls =>
      unfold watch
      split <;> exact sound.of_same rfl rfl rfl rfl
  | leaves => exact sound.of_same rfl rfl rfl rfl
  | quits client =>
      have stopped := sound_stopClient sound client
      exact stopped.of_same rfl rfl rfl rfl

theorem sound_run {pending : Pending (Sent F)} (run : Reachable step Free (init pending) l) :
    Sound l :=
  run.invariant (P := Sound) (sound_init pending) fun _ _ _ sound _ next => sound_step sound next

/-! ## Main result -/

theorem pairwise_iff_tail {α : Type} {p : α → Prop} (attempts : List α) :
    (attempts.Pairwise fun _ earlier => p earlier) ↔ ∀ a ∈ attempts.tail, p a := by
  cases attempts with
  | nil => simp
  | cons newest rest =>
      rw [List.pairwise_cons, List.tail_cons]
      exact ⟨And.left, fun all =>
        ⟨all, List.pairwise_of_forall_mem_list fun _ _ earlier member => all earlier member⟩⟩

/-- A submission that returned without an error has had a stream. -/
theorem established_of_done {i : Nat} (sound : Sound l) (runs : l.RunsFor i)
    (done : l.calls[i]?.map StartCall.pc = some (.done none)) :
    ∃ a ∈ l.attemptsOf i, a.established = true := by
  obtain ⟨-, call, at_, answered⟩ := sound.owned i runs.1
  rw [at_] at done
  rw [Option.some.inj done] at answered
  obtain ⟨a, member, mine, up⟩ := answered
  exact ⟨a, List.mem_filter.mpr ⟨member, by simpa using mine⟩, up⟩

/-- **Rejections are reported only when nothing follows them.**  In every run, a submission
that the client runs for keeps its promise if and only if none of its attempts but the
newest has failed as `UNAUTHENTICATED`. -/
theorem rejection_reported_iff (pending : Pending (Sent F)) (l : TrayLink F) (i : Nat)
    (run : Reachable step Free (init pending) l) (runs : l.RunsFor i) :
    l.Reports i ↔ ∀ a ∈ (l.attemptsOf i).tail, a.failure ≠ some .unauthenticated := by
  have sound : Sound l := sound_run run
  have silent : ∀ later ∈ l.attemptsOf i, later.reported = false :=
    fun later member => sound.unreported later (List.mem_filter.mp member).1
  rw [← pairwise_iff_tail]
  constructor
  · rintro ⟨-, reports⟩
    refine reports.imp_of_mem ?_
    intro later earlier member _ reported rejected
    exact absurd (reported rejected) (by rw [silent later member]; nofun)
  · intro accepted
    exact ⟨established_of_done sound runs, accepted.imp fun fine rejected => absurd rejected fine⟩

/-! ## Poles -/

/-- The first attempt finds no server, the second brings up a stream. -/
def activation : List (LinkAction String) :=
  [.boot "" "", .submit "device-token-0001" "" none, .restartStops 0, .restartStarts 0,
    .openStream, .attemptFails .transport, .client .backoffElapsed, .openStream,
    .metadataReady none, .startReturns 0]

theorem activation_runs : (run step fresh activation).isSome = true := by decide

theorem activation_reports :
    (Option.get _ activation_runs).Reports 0 ∧ (Option.get _ activation_runs).bus.cloudLink = .connected :=
  ⟨(rejection_reported_iff (.memory 1 Nat.one_pos []) _ 0 (reachable_get activation_runs)
    (by decide)).mpr (by decide), by decide⟩

/-- The cloud rejects the code, and the connect loop tries it again. -/
def wrongCode : List (LinkAction String) :=
  [.boot "" "", .submit "device-token-0001" "" none, .restartStops 0, .restartStarts 0,
    .openStream, .attemptFails .unauthenticated, .client .backoffElapsed, .openStream]

theorem wrong_code_runs : (run step fresh wrongCode).isSome = true := by decide

/-- **A rejection nobody hears of.** -/
theorem wrong_code_tried_again :
    ¬ ∀ (pending : Pending (Sent String)) (l : TrayLink String) (i : Nat),
      Reachable step Free (init pending) l → l.RunsFor i → l.Reports i := by
  intro claim
  have silent : ¬ (Option.get _ wrong_code_runs).Reports 0 := by decide
  exact silent (claim _ _ 0 (reachable_get wrong_code_runs) (by decide))

end TrayLink

end IsalesTelephony.Ui
