/-
# Edge.CloudReport -- what the cloud is told of a call

The life of a call id (`lifeOf`) is what the orchestrator hands to `grpc.send`.
What the cloud can be told of it is what the client still has of it: taken by
the iterator of a stream, on the outbound queue, or pending (`told`).  Between
the two stand the send, which may refuse a frame, the buffer, which may evict
it, and the reconnect, which may strand it.

Nothing between them adds, doubles or reorders: what is told is a subsequence of
the life, across any reconnects (`told_in_order`), and all of it unless one of
the three took a frame.  With the promise about the life itself the cloud is
told of an ack, at most one connected and at most one remote_hangup, in that
order (`cloud_told_life`).
-/
import IsalesTelephony.Edge.Daemon
import IsalesTelephony.Edge.TerminalEvent
import IsalesTelephony.Transport.ClientSteps
import IsalesTelephony.Transport.HeldOrder

namespace IsalesTelephony.Edge

set_option autoImplicit false

open IsalesTelephony.Theory IsalesTelephony.Theory.Transition IsalesTelephony.Transport

/-- The frames of a list of sends that are part of the life of `callId`. -/
def lifeIn (sends : List (Sent Edge2Cloud)) (callId : String) : List Edge2Cloud :=
  (sends.map Sent.frame).filter (Edge2Cloud.OfLife callId)

theorem lifeIn_append (sends more : List (Sent Edge2Cloud)) (callId : String) :
    lifeIn (sends ++ more) callId = lifeIn sends callId ++ lifeIn more callId := by
  simp [lifeIn]

theorem lifeIn_nil {sends : List (Sent Edge2Cloud)} {callId : String}
    (foreign : ∀ m ∈ sends, m.frame.OfLife callId = false) : lifeIn sends callId = [] := by
  refine List.filter_eq_nil_iff.mpr fun frame listed => ?_
  obtain ⟨m, member, rfl⟩ := List.mem_map.mp listed
  simp [foreign m member]

theorem lifeIn_sublist {sends more : List (Sent Edge2Cloud)} (callId : String)
    (part : sends.Sublist more) : (lifeIn sends callId).Sublist (lifeIn more callId) :=
  (part.map Sent.frame).filter _

/-- The life frames among emissions. -/
def lifeOfEmissions (emissions : List Emission) (callId : String) : List Edge2Cloud :=
  (emissions.map Emission.frame).filter (Edge2Cloud.OfLife callId)

/-- The life in a log is that in the emissions of the log. -/
theorem lifeOf_emissions (log : List LogEntry) (callId : String) :
    lifeOf log callId = lifeOfEmissions (log.filterMap LogEntry.emission?) callId := by
  induction log with
  | nil => rfl
  | cons entry rest ih =>
      have tail : List.filterMap (LogEntry.life callId) rest =
          lifeOfEmissions (rest.filterMap LogEntry.emission?) callId := ih
      cases entry with
      | send emission =>
          by_cases part : emission.frame.OfLife callId = true
          · simp [lifeOf, lifeOfEmissions, LogEntry.life, LogEntry.emission?, part, tail]
          · simp [lifeOf, lifeOfEmissions, LogEntry.life, LogEntry.emission?, part, tail]
      | _ => exact tail

/-! ## What enters the client -/

/-- What entered the client of the life `frames`: a part of it, and all of it
unless a send was refused. -/
structure Enters (c : GrpcClient Edge2Cloud) (callId : String) (frames : List Edge2Cloud) :
    Prop where
  part : (lifeIn c.entered callId).Sublist frames
  whole : (∀ m ∈ c.refused, m.1.frame.OfLife callId = false) → lifeIn c.entered callId = frames

section Enters

variable {c d : GrpcClient Edge2Cloud} {callId : String} {frames : List Edge2Cloud}

/-- A call of `send` enters its frame, or refuses it. -/
theorem send_enters (c : GrpcClient Edge2Cloud) (frame : Edge2Cloud) (critical : Bool)
    (fault : Option AppendFault) :
    c.refused ⊆ (c.send frame critical fault).1.refused ∧
      ((c.send frame critical fault).1.entered = c.entered ++ [⟨c.nextSend, critical, frame⟩] ∨
        (c.send frame critical fault).1.entered = c.entered ∧
          ∃ why, (⟨c.nextSend, critical, frame⟩, why) ∈ (c.send frame critical fault).1.refused) := by
  simp only [GrpcClient.send]
  split
  · exact ⟨List.Subset.refl _, .inl rfl⟩
  · split
    · exact ⟨List.subset_append_left _ _, .inr ⟨rfl, .notConnected, by simp⟩⟩
    · split
      · rename_i returned
        have stores := Pending.appendStores_of_append returned
        exact ⟨List.Subset.refl _, .inl (by simp [stores])⟩
      · refine ⟨List.subset_append_left _ _, ?_⟩
        by_cases stores : c.pending.appendStores fault = true
        · exact .inl (by simp [stores])
        · exact .inr ⟨by simp [stores], .storage, by simp⟩

theorem enters_send (enters : Enters c callId frames) (emission : Emission)
    (fault : Option AppendFault) :
    Enters (c.send emission.frame emission.critical fault).1 callId
      (frames ++ lifeOfEmissions [emission] callId) := by
  have same (message : Sent Edge2Cloud) (frame : message.frame = emission.frame) :
      lifeIn [message] callId = lifeOfEmissions [emission] callId := by
    simp [lifeIn, lifeOfEmissions, frame]
  obtain ⟨grows, entered | ⟨entered, why, refused⟩⟩ :=
    send_enters c emission.frame emission.critical fault
  · refine ⟨?_, fun open_ => ?_⟩
    · rw [entered, lifeIn_append, same _ rfl]
      exact enters.part.append (List.Sublist.refl _)
    · rw [entered, lifeIn_append, same _ rfl, enters.whole fun m listed => open_ m (grows listed)]
  · refine ⟨?_, fun open_ => ?_⟩
    · rw [entered]
      exact enters.part.trans (List.sublist_append_left _ _)
    · have outside : emission.frame.OfLife callId = false := open_ _ refused
      rw [entered, enters.whole fun m listed => open_ m (grows listed)]
      simp [lifeOfEmissions, outside]

/-- The client's own moves enter nothing and refuse nothing. -/
theorem enters_move {action : ClientAction Edge2Cloud} (enters : Enters c callId frames)
    (own : ∀ frame critical fault, action ≠ .send frame critical fault)
    (next : c.step action = some d) : Enters d callId frames := by
  have refused := (GrpcClient.moves_of_step own next).refused
  have entered := GrpcClient.entered_move own next
  exact ⟨entered ▸ enters.part, fun open_ => entered ▸ enters.whole (refused ▸ open_)⟩

end Enters

namespace EdgeDaemon

/-! ## What is told -/

/-- What the client has of the life of a call id, as the streams carry it. -/
def told (d : EdgeDaemon) (callId : String) : List Edge2Cloud :=
  lifeIn (d.client.taken ++ d.client.queued ++ d.client.pending.frames) callId

/-- The frames that came to grief. -/
def lost (d : EdgeDaemon) : List (Sent Edge2Cloud) :=
  d.client.evicted ++ d.client.stranded ++ d.client.refused.map Prod.fst

/-- No flush fails at a delete. -/
def FlushSafe (_ : EdgeDaemon) : DaemonAction → Prop
  | .client (.metadataReady (some fault)) => ¬ fault.AtDelete
  | _ => True

/-- And the orchestrator's steps are orderly. -/
def Steady (cfg : Config) (d : EdgeDaemon) (action : DaemonAction) : Prop :=
  d.FlushSafe action ∧
    match action with
    | .edge action _ => Orderly cfg d.edge action
    | _ => True

/-- What is kept about the client, whatever the orchestrator does. -/
structure Carries (d : EdgeDaemon) (callId : String) : Prop where
  enters : Enters d.client callId (lifeOf d.edge.log callId)
  accounted : d.client.Accounted
  ordered : d.client.Ordered

variable {cfg : Config} {d d' : EdgeDaemon} {callId : String}

theorem carry_edge (sender : Option Nat) (fault : Option AppendFault) (emissions : List Emission) :
    (carry sender fault d emissions).edge = d.edge := by
  induction emissions generalizing d with
  | nil => rfl
  | cons emission rest ih => exact ih

theorem carries_carry (sender : Option Nat) (fault : Option AppendFault)
    (emissions : List Emission) {frames : List Edge2Cloud} (enters : Enters d.client callId frames)
    (accounted : d.client.Accounted) (ordered : d.client.Ordered) :
    Enters (carry sender fault d emissions).client callId
        (frames ++ lifeOfEmissions emissions callId) ∧
      (carry sender fault d emissions).client.Accounted ∧
        (carry sender fault d emissions).client.Ordered := by
  induction emissions generalizing d frames with
  | nil => exact ⟨by simpa [carry, lifeOfEmissions] using enters, accounted, ordered⟩
  | cons emission rest ih =>
      have split : frames ++ lifeOfEmissions (emission :: rest) callId =
          (frames ++ lifeOfEmissions [emission] callId) ++ lifeOfEmissions rest callId := by
        rw [List.append_assoc]
        congr 1
        simp [lifeOfEmissions, List.filter_cons]
        split <;> simp
      rw [split]
      exact ih (enters_send enters emission fault)
        (GrpcClient.accounted_send accounted emission.frame emission.critical fault)
        (GrpcClient.ordered_send ordered emission.frame emission.critical fault)

theorem carries_init {pending : Pending (Sent Edge2Cloud)}
    (foreign : ∀ m ∈ pending.frames, m.frame.OfLife callId = false)
    (named : (pending.frames.map Sent.stamp).Nodup) : Carries (init pending) callId where
  enters := ⟨(lifeIn_nil foreign).symm ▸ List.nil_sublist _, fun _ => lifeIn_nil foreign⟩
  accounted := GrpcClient.accounted_init named
  ordered := GrpcClient.ordered_init pending

/-- What a step of the orchestrator adds to a life is what it hands to `send`. -/
theorem lifeOf_sent {action : EdgeAction} {edge : EdgeOrchestrator}
    (next : d.edge.step cfg action = some edge) :
    lifeOf edge.log callId = lifeOf d.edge.log callId ++ lifeOfEmissions (sent d.edge edge) callId := by
  obtain ⟨more, grown, -⟩ := EdgeOrchestrator.step_log next
  rw [grown, EdgeOrchestrator.lifeOf_append, lifeOf_emissions more]
  simp [sent, grown]

/-- **One step.**  The client keeps what it has of every life. -/
theorem carries_step {action : DaemonAction} (carries : Carries d callId)
    (safe : d.FlushSafe action) (next : step cfg d action = some d') : Carries d' callId := by
  obtain ⟨enters, accounted, ordered⟩ := carries
  cases action with
  | edge action fault =>
      simp only [step, Option.ite_none_right_eq_some] at next
      obtain ⟨-, moved⟩ := next
      obtain ⟨edge, stepped, rfl⟩ := Option.map_eq_some_iff.mp moved
      obtain ⟨entered, accounted, ordered⟩ :=
        carries_carry (d := { d with edge := edge }) action.sender fault (sent d.edge edge)
          enters accounted ordered
      refine ⟨?_, accounted, ordered⟩
      rw [carry_edge, lifeOf_sent stepped]
      exact entered
  | heartbeat deviceId signalStrength fault =>
      obtain rfl := Option.some.inj next
      have entered := enters_send enters
        (sendHeartbeat deviceId (statusProvider d.edge) signalStrength) fault
      refine ⟨?_, GrpcClient.accounted_send accounted _ _ fault,
        GrpcClient.ordered_send ordered _ _ fault⟩
      -- a heartbeat is no part of a life
      rw [show lifeOfEmissions _ callId = [] from rfl, List.append_nil] at entered
      exact entered
  | client action =>
      simp only [step, Option.ite_none_right_eq_some] at next
      obtain ⟨own, moved⟩ := next
      obtain ⟨client, stepped, rfl⟩ := Option.map_eq_some_iff.mp moved
      have healthy : ∀ fault, action = .metadataReady (some fault) → ¬ fault.AtDelete := by
        rintro fault rfl
        exact safe
      exact ⟨enters_move enters (by rintro frame critical fault rfl; exact own) stepped,
        GrpcClient.accounted_step accounted healthy stepped,
        GrpcClient.ordered_step ordered healthy stepped⟩

theorem carries_run {pending : Pending (Sent Edge2Cloud)}
    (foreign : ∀ m ∈ pending.frames, m.frame.OfLife callId = false)
    (named : (pending.frames.map Sent.stamp).Nodup)
    (run : Reachable (step cfg) FlushSafe (init pending) d) : Carries d callId :=
  run.invariant (carries_init foreign named) fun _ _ _ carries safe next =>
    carries_step carries safe next

theorem told_sublist (carries : Carries d callId) :
    (d.told callId).Sublist (lifeIn d.client.entered callId) :=
  lifeIn_sublist callId carries.ordered.order

/-- Nothing is added to a life, doubled or reordered on the way. -/
theorem told_in_order (carries : Carries d callId) :
    (d.told callId).Sublist (lifeOf d.edge.log callId) :=
  (told_sublist carries).trans carries.enters.part

/-- A life none of whose frames was lost is told in full. -/
theorem told_whole (carries : Carries d callId)
    (kept : ∀ m ∈ d.lost, m.frame.OfLife callId = false) :
    d.told callId = lifeOf d.edge.log callId := by
  have mem (m : Sent Edge2Cloud) : m ∈ d.lost ↔
      (m ∈ d.client.evicted ∨ m ∈ d.client.stranded) ∨ ∃ why, (m, why) ∈ d.client.refused := by
    simp [lost, or_assoc]
  have whole := carries.enters.whole fun m refused =>
    kept m.1 ((mem m.1).mpr (.inr ⟨m.2, refused⟩))
  rw [← whole]
  refine (told_sublist carries).eq_of_length ?_
  -- as multisets, evicted, held and stranded add up to what entered
  have places := carries.accounted.places
  have count : ∀ {sends more : List (Sent Edge2Cloud)}, sends.Perm more →
      (lifeIn sends callId).length = (lifeIn more callId).length := fun perm =>
    ((perm.map Sent.frame).filter _).length_eq
  have perm : (d.client.evicted ++ d.client.held ++ d.client.stranded).Perm d.client.entered :=
    Multiset.coe_eq_coe.mp (by simpa [← Multiset.coe_add, add_assoc] using places)
  have evicted : lifeIn d.client.evicted callId = [] :=
    lifeIn_nil fun m listed => kept m ((mem m).mpr (.inl (.inl listed)))
  have stranded : lifeIn d.client.stranded callId = [] :=
    lifeIn_nil fun m listed => kept m ((mem m).mpr (.inl (.inr listed)))
  have total := count perm
  rw [lifeIn_append, lifeIn_append, evicted, stranded, List.nil_append, List.append_nil] at total
  rw [← total]
  refine count ?_
  unfold GrpcClient.held
  rw [List.append_assoc]
  exact List.perm_append_comm.trans (List.perm_append_comm.append (List.Perm.refl _)) |>.trans
    (by simp)

/-! ## The promise, as the cloud sees it -/

/-- What the cloud is told of a call id: the life of the call, in order, and all
of it unless a frame of it was lost. -/
structure ToldLife (d : EdgeDaemon) (callId : String) : Prop where
  life : lifeOf d.edge.log callId = [] ∨ EndsOnce d.edge callId
  inOrder : (d.told callId).Sublist (lifeOf d.edge.log callId)
  whole : (∀ m ∈ d.lost, m.frame.OfLife callId = false) → d.told callId = lifeOf d.edge.log callId

/-- A steady step of the process is an orderly step of the orchestrator, or none. -/
theorem sound_steady {action : DaemonAction} (sound : EdgeOrchestrator.Sound cfg d.edge)
    (steady : Steady cfg d action) (next : step cfg d action = some d') :
    EdgeOrchestrator.Sound cfg d'.edge := by
  cases action with
  | edge action fault =>
      simp only [step, Option.ite_none_right_eq_some] at next
      obtain ⟨-, moved⟩ := next
      obtain ⟨edge, stepped, rfl⟩ := Option.map_eq_some_iff.mp moved
      rw [carry_edge]
      exact EdgeOrchestrator.sound_step sound steady.2 stepped
  | heartbeat deviceId signalStrength fault =>
      obtain rfl := Option.some.inj next
      exact sound
  | client action =>
      simp only [step, Option.ite_none_right_eq_some] at next
      obtain ⟨-, moved⟩ := next
      obtain ⟨client, -, rfl⟩ := Option.map_eq_some_iff.mp moved
      exact sound

/-- The life of a call id is empty before the ack, and ends once after it. -/
theorem life_of_sound (sound : EdgeOrchestrator.Sound cfg d.edge) (callId : String) :
    lifeOf d.edge.log callId = [] ∨ EndsOnce d.edge callId := by
  by_cases known : ∃ call ctx, d.edge.At call ctx ∧ ctx.callId = callId
  · obtain ⟨call, ctx, at_, rfl⟩ := known
    obtain ⟨life, registered, -, -⟩ := sound.calls.each at_
    refine .inr ⟨ctx.terminated, life, fun left => ?_⟩
    by_contra open_
    rw [registered (by simpa using open_)] at left
    cases left
  · exact .inl (sound.calls.unknown callId fun call ctx got same => known ⟨call, ctx, got, same⟩)

/-- **The cloud is told the life of a call.**  In a steady run the frames of a
call id that the streams carry, or will, are a subsequence of its ack, at most
one connected and its one remote_hangup, whatever reconnects there were; and all
of them if none was evicted, stranded or refused. -/
theorem cloud_told_life (cfg : Config) (pending : Pending (Sent Edge2Cloud)) (callId : String)
    (foreign : ∀ m ∈ pending.frames, m.frame.OfLife callId = false)
    (named : (pending.frames.map Sent.stamp).Nodup) (d : EdgeDaemon)
    (run : Reachable (step cfg) (Steady cfg) (init pending) d) : d.ToldLife callId := by
  have carries : Carries d callId := carries_run foreign named (run.mono fun _ _ steady => steady.1)
  have sound : EdgeOrchestrator.Sound cfg d.edge :=
    run.invariant (P := fun d => EdgeOrchestrator.Sound cfg d.edge) (EdgeOrchestrator.sound_init cfg)
      fun _ _ _ sound steady next => sound_steady sound steady next
  exact ⟨life_of_sound sound callId, told_in_order carries, told_whole carries⟩

/-! ## Poles -/

instance (d : EdgeDaemon) (action : DaemonAction) : Decidable (d.FlushSafe action) := by
  unfold FlushSafe
  split <;> infer_instance

instance (cfg : Config) (d : EdgeDaemon) (action : DaemonAction) : Decidable (Steady cfg d action) :=
  match action with
  | .edge inner fault =>
      inferInstanceAs (Decidable (d.FlushSafe (.edge inner fault) ∧ Orderly cfg d.edge inner))
  | .heartbeat deviceId signalStrength fault =>
      inferInstanceAs (Decidable (d.FlushSafe (.heartbeat deviceId signalStrength fault) ∧ True))
  | .client inner => inferInstanceAs (Decidable (d.FlushSafe (.client inner) ∧ True))

/-- The far end hangs up while the stream is down; the hangup is pending, and the
next stream takes it after the ack. -/
def reconnected : List DaemonAction :=
  [.client .start, .client .openStream, .client (.metadataReady none), .edge .start none,
    .edge (.message (.dial { callId := "a" })) none, .heartbeat 4 20 none,
    .edge (.handler (.dialReturned 7)) none, .edge (.handler (.sent true)) none, .client .take,
    .client .take, .client .streamEnded, .edge (.pump 0 .start) none,
    .edge (.pump 0 (.event (.remoteHangup (some "user_busy")))) none,
    .edge (.pump 0 (.sent true)) none, .client .backoffElapsed, .client .openStream,
    .client (.metadataReady none), .client .take]

/-- A process with an empty buffer in memory. -/
def untold : EdgeDaemon := init (.memory 3 smallLimit_pos [])

theorem reconnected_runs :
    (guardedRun (step {}) (Steady {}) untold reconnected).isSome = true := by decide

theorem reconnected_told_life :
    (Option.get _ reconnected_runs).ToldLife "a" ∧
      (Option.get _ reconnected_runs).told "a" =
        [.dialAck "a" true "", (sendCallEventRemoteHangup "a" (some "user_busy")).frame] :=
  ⟨cloud_told_life {} (.memory 3 smallLimit_pos []) "a" (by decide) (by decide) _
    (reachable_guarded_get reconnected_runs), by decide⟩

/-- The hangup is on the outbound queue when the stream dies. -/
def queuedHangup : List DaemonAction :=
  [.client .start, .client .openStream, .client (.metadataReady none), .edge .start none,
    .edge (.message (.dial { callId := "a" })) none, .edge (.handler (.dialReturned 7)) none,
    .edge (.handler (.sent true)) none, .client .take, .edge (.pump 0 .start) none,
    .edge (.pump 0 (.event (.remoteHangup (some "user_busy")))) none, .client .streamEnded,
    .client .backoffElapsed, .client .openStream, .client (.metadataReady none)]

theorem queuedHangup_runs :
    (guardedRun (step {}) (Steady {}) untold queuedHangup).isSome = true := by decide

/-- **A hangup the cloud is not told.**  A reconnect strands it: the call is over,
and of its life the cloud has the ack. -/
theorem queuedHangup_untold :
    (Option.get _ queuedHangup_runs).told "a" = [.dialAck "a" true ""] ∧
      (lifeOf (Option.get _ queuedHangup_runs).edge.log "a").length = 2 := by
  decide

end EdgeDaemon

end IsalesTelephony.Edge
