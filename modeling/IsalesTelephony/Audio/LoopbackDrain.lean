/-
# Audio.LoopbackDrain -- the buffer that the sessions in one process play

After so many pushes a session's buffer counts as full: its event is cleared, and a callback
that sets it is scheduled.  Pushes that find the event clear await it.

In every state such a push can go on after callbacks that are scheduled already, so no
cancellation and no `leave` loses a drain (`loopback_drains`).  A push that goes on does not look
whether its session is still joined; what a session that has left still delivers are the pushes
that were waiting then, and no others (`loopback_quiet_after_leave`).
-/
import IsalesTelephony.Audio.LoopbackChannel

namespace IsalesTelephony.Audio.Loopback.Sessions

set_option autoImplicit false

open IsalesTelephony.Theory IsalesTelephony.Theory.Broadcast IsalesTelephony.Theory.Transition

variable {config : Nat → MacosRtcSessionConfig} {s t : Sessions} {i j : Nat} {name : String}
  {pcm : Pcm} {action : Action}

/-! ## The drain -/

/-- What a session itself pushed. -/
def posts (i : Nat) : Note Nat String Item → List Item
  | .post j m => if j = i then [m] else []
  | _ => []

def posted (s : Sessions) (i : Nat) : List Item := s.log.flatMap (posts i)

/-- The pushes the buffer that is played holds. -/
def capacity (config : Nat → MacosRtcSessionConfig) (i : Nat) : Nat :=
  max 1 (config i).outboundCapacity

/-- A session and what it has pushed so far. -/
structure Counted (cap count : Nat) (x : MacosRtcSession) : Prop where
  rest : x.outboundCount = count % cap
  signalled : x.backpressureEvents = x.forced + count / cap

/-- A drain that is awaited is scheduled, and the counts are those of the pushes. -/
structure Paced (config : Nat → MacosRtcSessionConfig) (s : Sessions) : Prop where
  cleared : ∀ i, (s.session i).drainEvent = false → i ∈ s.callbacks
  unwoken : ∀ push ∈ s.waiting, push.woken = false → (s.session push.session).drainEvent = false
  counted : ∀ i, Counted (capacity config i) (s.posted i).length (s.session i)

theorem posted_snoc {note : Note Nat String Item} (log : t.log = s.log ++ [note]) (i : Nat) :
    t.posted i = s.posted i ++ posts i note := by
  rw [posted, log, List.flatMap_append, List.flatMap_singleton]
  rfl

/-- What leaves the drains and the counts alone. -/
theorem Paced.kept (paced : Paced config s)
    (drains : ∀ i, (t.session i).drainEvent = (s.session i).drainEvent)
    (counts : ∀ i, (t.session i).outboundCount = (s.session i).outboundCount ∧
      (t.session i).backpressureEvents = (s.session i).backpressureEvents ∧
      (t.session i).forced = (s.session i).forced)
    (callbacks : t.callbacks = s.callbacks) (waiting : ∀ push ∈ t.waiting, push ∈ s.waiting)
    (silent : ∀ i, t.posted i = s.posted i) : Paced config t := by
  constructor
  · intro i
    rw [drains, callbacks]
    exact paced.cleared i
  · intro push member
    rw [drains]
    exact paced.unwoken push (waiting push member)
  · intro i
    obtain ⟨rest, events, forced⟩ := counts i
    have counted := paced.counted i
    rw [silent]
    exact ⟨rest.trans counted.rest, by rw [events, forced, counted.signalled]⟩

theorem Paced.set (paced : Paced config s) {x : MacosRtcSession}
    (session : t.session = Function.update s.session i x)
    (drain : x.drainEvent = (s.session i).drainEvent)
    (counts : x.outboundCount = (s.session i).outboundCount ∧
      x.backpressureEvents = (s.session i).backpressureEvents ∧ x.forced = (s.session i).forced)
    (callbacks : t.callbacks = s.callbacks) (waiting : ∀ push ∈ t.waiting, push ∈ s.waiting)
    (silent : ∀ i, t.posted i = s.posted i) : Paced config t := by
  refine paced.kept (fun j => ?_) (fun j => ?_) callbacks waiting silent
  · by_cases here : j = i
    · subst here
      simpa [session] using drain
    · simp [session, here]
  · by_cases here : j = i
    · subst here
      simpa [session] using counts
    · simp [session, here]

/-- Once the event is set, its callback may be gone. -/
theorem paced_setDrainEvent {callbacks : List Nat} (paced : Paced config s)
    (gone : ∀ j ∈ s.callbacks, j = i ∨ j ∈ callbacks) :
    Paced config ({ s with callbacks := callbacks }.setDrainEvent i) := by
  unfold setDrainEvent
  dsimp only
  split
  · rename_i isSet
    refine ⟨fun j clear => ?_, paced.unwoken, paced.counted⟩
    rcases gone j (paced.cleared j clear) with rfl | scheduled
    · rw [isSet] at clear
      cases clear
    · exact scheduled
  · refine ⟨fun j clear => ?_, fun push member unwoken => ?_, fun j => ?_⟩
    · by_cases here : j = i
      · subst here
        simp [Sessions.set] at clear
      · have before : (s.session j).drainEvent = false := by
          simpa [Sessions.set, here] using clear
        exact (gone j (paced.cleared j before)).resolve_left here
    · obtain ⟨old, before, rfl⟩ := List.mem_map.mp member
      by_cases here : old.session = i
      · simp [WaitingPush.wake, here] at unwoken
      · simp only [WaitingPush.wake, here, if_false] at unwoken ⊢
        simpa [Sessions.set, here] using paced.unwoken old before unwoken
    · have counted := paced.counted j
      by_cases here : j = i
      · subst here
        exact ⟨by simpa [Sessions.set, posted] using counted.rest,
          by simpa [Sessions.set, posted] using counted.signalled⟩
      · exact ⟨by simpa [Sessions.set, posted, here] using counted.rest,
          by simpa [Sessions.set, posted, here] using counted.signalled⟩

theorem paced_putSentinel (paced : Paced config s) (i : Nat) : Paced config (s.putSentinel i) := by
  unfold putSentinel
  refine paced_setDrainEvent (s := { s.set i _ with log := s.log ++ [_] }) ?_
    (fun j (member : j ∈ s.callbacks) => .inr member)
  exact paced.set (i := i) rfl rfl ⟨rfl, rfl, rfl⟩ rfl (fun _ member => member)
    fun j => (posted_snoc rfl j).trans (List.append_nil _)

theorem paced_unregister (paced : Paced config s) (placed : (s.session i).channel = some name) :
    Paced config (s.unregister i) := by
  obtain ⟨session, log, waiting⟩ := unregister_frame placed
  have callbacks : (s.unregister i).callbacks = s.callbacks := by
    unfold unregister
    rw [placed]
    dsimp only
    split <;> rfl
  refine paced.set session rfl ⟨rfl, rfl, rfl⟩ callbacks (fun _ member => waiting ▸ member) fun j => ?_
  exact (posted_snoc log j).trans (List.append_nil _)

theorem paced_leave (sound : Sound config s) (paced : Paced config s) (i : Nat) :
    Paced config (s.leave i) := by
  unfold leave
  dsimp only
  split
  · rename_i joined
    obtain ⟨name, placed⟩ := Option.ne_none_iff_exists'.mp (sound.placed i joined)
    have left := paced_unregister paced placed
    split
    · exact left.kept (fun _ => rfl) (fun _ => ⟨rfl, rfl, rfl⟩) rfl (fun _ member => member)
        fun _ => rfl
    · exact paced_putSentinel left i
  · exact paced

/-- The loop over the peers changes nothing but their queues. -/
theorem foldl_offer_drains (frame : PcmFrame) (peers : List Nat)
    (session : Nat → MacosRtcSession) (j : Nat) :
    ∃ inbound, peers.foldl (offer frame) session j = { session j with inbound := inbound } := by
  induction peers generalizing session with
  | nil => exact ⟨(session j).inbound, rfl⟩
  | cons peer rest ih =>
      obtain ⟨inbound, later⟩ := ih (offer frame session peer)
      refine ⟨inbound, later.trans ?_⟩
      unfold offer MacosRtcSession.putNowait
      by_cases full : (session peer).Full
      · simp [full]
      · by_cases here : j = peer
        · subst here
          simp [full]
        · simp [full, here]

theorem succ_mod_of_last {cap n : Nat} (pos : 0 < cap) (last : cap ≤ n % cap + 1) :
    (n + 1) % cap = 0 := by
  have below := Nat.mod_lt n pos
  rw [← Nat.mod_add_mod, show n % cap + 1 = cap by omega, Nat.mod_self]

theorem succ_mod_of_more {cap n : Nat} (more : ¬cap ≤ n % cap + 1) :
    (n + 1) % cap = n % cap + 1 := by
  rw [← Nat.mod_add_mod]
  exact Nat.mod_eq_of_lt (by omega)

theorem paced_deliver (sound : Sound config s) (paced : Paced config s) (i : Nat) (pcm : Pcm) :
    Paced config (s.deliver i pcm) := by
  have same : ∀ j, ∃ inbound,
      (s.post i pcm).session j = { s.session j with inbound := inbound } :=
    fun j => foldl_offer_drains _ _ _ j
  have drains : ∀ j, ((s.post i pcm).session j).drainEvent = (s.session j).drainEvent := fun j => by
    obtain ⟨_, became⟩ := same j
    rw [became]
  have others : ∀ j, j ≠ i →
      Counted (capacity config j) ((s.post i pcm).posted j).length ((s.post i pcm).session j) := by
    intro j ne
    obtain ⟨_, became⟩ := same j
    have silent : (s.post i pcm).posted j = s.posted j := by
      rw [posted_snoc (s := s) rfl]
      simp [posts, Ne.symm ne]
    rw [became, silent]
    exact ⟨(paced.counted j).rest, (paced.counted j).signalled⟩
  have one : ((s.post i pcm).posted i).length = (s.posted i).length + 1 := by
    rw [posted_snoc (s := s) rfl]
    simp [posts]
  obtain ⟨inbound, self⟩ := same i
  have pos : 0 < capacity config i := Nat.lt_of_lt_of_le Nat.one_pos (Nat.le_max_left _ _)
  have counted := paced.counted i
  -- a buffer for no chunks at all is full after each, as one for a single chunk is
  have fills : (config i).outboundCapacity ≤ (s.session i).outboundCount + 1 ↔
      capacity config i ≤ (s.posted i).length % capacity config i + 1 := by
    rw [counted.rest, capacity]
    omega
  unfold deliver countPush
  rw [self]
  dsimp only
  rw [sound.configured]
  split
  · rename_i last
    have full := succ_mod_of_last pos (fills.mp last)
    refine ⟨fun j clear => ?_, fun push member unwoken => ?_, fun j => ?_⟩
    · by_cases here : j = i
      · subst here
        exact List.mem_append_right _ List.mem_cons_self
      · have before : ((s.post i pcm).session j).drainEvent = false := by
          simpa [Sessions.set, here] using clear
        exact List.mem_append_left _ (paced.cleared j ((drains j).symm.trans before))
    · by_cases here : push.session = i
      · simp [Sessions.set, here]
      · have before := (drains push.session).trans (paced.unwoken push member unwoken)
        simpa [Sessions.set, here] using before
    · by_cases here : j = i
      · subst here
        show Counted _ ((s.post j pcm).posted j).length (Function.update (s.post j pcm).session j _ j)
        rw [Function.update_self, one]
        refine ⟨full.symm, ?_⟩
        rw [Nat.succ_div_of_mod_eq_zero full, ← Nat.add_assoc, ← counted.signalled]
      · simpa [Sessions.set, here, posted] using others j here
  · rename_i room
    have more := succ_mod_of_more (mt fills.mpr room)
    refine ⟨fun j clear => ?_, fun push member unwoken => ?_, fun j => ?_⟩
    · by_cases here : j = i
      · subst here
        exact paced.cleared j (by simpa [Sessions.set] using clear)
      · have before : ((s.post i pcm).session j).drainEvent = false := by
          simpa [Sessions.set, here] using clear
        exact paced.cleared j ((drains j).symm.trans before)
    · have before := paced.unwoken push member unwoken
      by_cases here : push.session = i
      · simpa [Sessions.set, here] using here ▸ before
      · simpa [Sessions.set, here] using (drains push.session).trans before
    · by_cases here : j = i
      · subst here
        show Counted _ ((s.post j pcm).posted j).length (Function.update (s.post j pcm).session j _ j)
        rw [Function.update_self, one]
        refine ⟨?_, ?_⟩
        · rw [more, ← counted.rest]
        · rw [Nat.succ_div_of_mod_ne_zero (by omega), ← counted.signalled]
      · simpa [Sessions.set, here, posted] using others j here

theorem paced_pushAudio (sound : Sound config s) (paced : Paced config s) (i : Nat) (pcm : Pcm) :
    Paced config (s.pushAudio i pcm).1 := by
  unfold pushAudio
  dsimp only
  split
  · exact paced
  split
  · -- the hook's exception is counted as a signal of its own
    refine ⟨fun j clear => ?_, fun push member unwoken => ?_, fun j => ?_⟩
    · by_cases here : j = i
      · subst here
        exact paced.cleared j (by simpa [Sessions.set] using clear)
      · exact paced.cleared j (by simpa [Sessions.set, here] using clear)
    · have before := paced.unwoken push member unwoken
      by_cases here : push.session = i
      · simpa [Sessions.set, here] using here ▸ before
      · simpa [Sessions.set, here] using before
    · have counted := paced.counted j
      by_cases here : j = i
      · subst here
        show Counted _ (s.posted j).length (Function.update s.session j _ j)
        rw [Function.update_self]
        refine ⟨counted.rest, ?_⟩
        show (s.session j).backpressureEvents + 1 = _
        rw [counted.signalled]
        exact Nat.add_right_comm _ _ _
      · simpa [Sessions.set, here, posted] using counted
  split
  · exact paced_deliver sound paced i pcm
  · rename_i clear
    refine ⟨paced.cleared, fun push member unwoken => ?_, paced.counted⟩
    rcases List.mem_append.mp member with before | new
    · exact paced.unwoken push before unwoken
    · obtain rfl := List.mem_singleton.mp new
      simpa using clear

theorem paced_step (sound : Sound config s) (paced : Paced config s)
    (ran : s.step action = some t) : Paced config t := by
  have same : ∀ i, (s.session i).outboundCount = (s.session i).outboundCount ∧
      (s.session i).backpressureEvents = (s.session i).backpressureEvents ∧
      (s.session i).forced = (s.session i).forced := fun _ => ⟨rfl, rfl, rfl⟩
  cases action with
  | join i name uid sendSampleRate =>
      obtain rfl := Option.some.inj ran
      unfold join
      dsimp only
      split
      · exact paced
      · exact paced.set (i := i) rfl rfl ⟨rfl, rfl, rfl⟩ rfl (fun _ member => member)
          fun j => (posted_snoc rfl j).trans (List.append_nil _)
  | leave i =>
      obtain rfl := Option.some.inj ran
      exact paced_leave sound paced i
  | putResumes i =>
      simp only [step, Option.ite_none_right_eq_some, Option.some.injEq] at ran
      obtain ⟨-, rfl⟩ := ran
      have less : Paced config { s with leaving := s.leaving.erase i } :=
        paced.kept (fun _ => rfl) same rfl (fun _ member => member) fun _ => rfl
      exact paced_putSentinel less i
  | leaveCancelled i =>
      simp only [step, Option.ite_none_right_eq_some, Option.some.injEq] at ran
      obtain ⟨-, rfl⟩ := ran
      exact paced.kept (fun _ => rfl) same rfl (fun _ member => member) fun _ => rfl
  | pushAudio i pcm =>
      obtain rfl := Option.some.inj ran
      exact paced_pushAudio sound paced i pcm
  | pushResumes k =>
      simp only [step] at ran
      split at ran
      · simp only [Option.ite_none_right_eq_some, Option.some.injEq] at ran
        obtain ⟨-, rfl⟩ := ran
        have less : Sound config { s with waiting := s.waiting.eraseIdx k } :=
          sound.alike (alike_refl _) rfl rfl fun other member =>
            sound.waitsPlaced other (List.mem_of_mem_eraseIdx member)
        have pacedLess : Paced config { s with waiting := s.waiting.eraseIdx k } :=
          paced.kept (fun _ => rfl) same rfl (fun _ => List.mem_of_mem_eraseIdx) fun _ => rfl
        exact paced_deliver less pacedLess _ _
      · cases ran
  | pushCancelled k =>
      obtain rfl := Option.some.inj ran
      exact paced.kept (fun _ => rfl) same rfl (fun _ => List.mem_of_mem_eraseIdx) fun _ => rfl
  | callback =>
      simp only [step] at ran
      split at ran
      · cases ran
      · rename_i j rest scheduled
        obtain rfl := Option.some.inj ran
        refine paced_setDrainEvent paced fun other member => ?_
        rw [scheduled] at member
        exact List.mem_cons.mp member
  | audioFrames i =>
      obtain rfl := Option.some.inj ran
      unfold audioFrames
      split
      · exact paced.kept (fun _ => rfl) same rfl (fun _ member => member) fun _ => rfl
      · exact paced
  | take i =>
      simp only [step, Option.ite_none_right_eq_some] at ran
      obtain ⟨-, ran⟩ := ran
      split at ran
      · cases ran
      · rename_i item rest first
        obtain rfl := Option.some.inj ran
        have noted : Paced config { s.set i { s.session i with
            inbound := rest, taken := (s.session i).taken ++ [item] } with
            log := s.log ++ [.take i] } :=
          paced.set (i := i) rfl rfl ⟨rfl, rfl, rfl⟩ rfl (fun _ member => member)
            fun j => (posted_snoc rfl j).trans (List.append_nil _)
        cases item with
        | frame _ => exact noted
        | sentinel =>
            exact noted.kept (fun _ => rfl) (fun _ => ⟨rfl, rfl, rfl⟩) rfl (fun _ member => member)
              fun _ => rfl
  | force i =>
      obtain rfl := Option.some.inj ran
      exact paced.set (i := i) rfl rfl ⟨rfl, rfl, rfl⟩ rfl (fun _ member => member) fun _ => rfl

theorem paced_start (config : Nat → MacosRtcSessionConfig) : Paced config (start config) where
  cleared := fun _ clear => nomatch clear
  unwoken := List.forall_mem_nil _
  counted := fun _ => ⟨(Nat.zero_mod _).symm, by simp [start, posted]⟩

theorem paced_of_reachable (run : Reachable step Free (start config) s) :
    Sound config s ∧ Paced config s :=
  run.invariant (P := fun s => Sound config s ∧ Paced config s)
    ⟨sound_start config, paced_start config⟩ fun _ _ _ held _ ran =>
      ⟨sound_step held.1 ran, paced_step held.1 held.2 ran⟩

/-- The pushes stand where they stood; those of the session are woken. -/
theorem getElem?_setDrainEvent {k : Nat} {push : WaitingPush} (found : s.waiting[k]? = some push)
    (i : Nat) : ∃ woken, (s.setDrainEvent i).waiting[k]? = some { push with woken := woken } := by
  unfold setDrainEvent
  split
  · exact ⟨push.woken, found⟩
  · by_cases here : push.session = i
    · exact ⟨true, by simp [found, WaitingPush.wake, here]⟩
    · exact ⟨push.woken, by simp [found, WaitingPush.wake, here]⟩

/-- The callbacks that are scheduled wake every push that waits. -/
theorem released {k : Nat} {push : WaitingPush} (paced : Paced config s)
    (found : s.waiting[k]? = some push) :
    ∃ n ≤ s.callbacks.length, ∃ t, run step s (List.replicate n .callback) = some t ∧
      (t.step (.pushResumes k)).isSome = true := by
  induction scheduled : s.callbacks generalizing s push with
  | nil =>
      -- with nothing scheduled no event is clear
      refine ⟨0, Nat.le_refl _, s, rfl, ?_⟩
      have woken : push.woken = true := by
        by_contra sleeps
        have clear := paced.unwoken push (List.mem_of_getElem? found) (by simpa using sleeps)
        have listed := paced.cleared _ clear
        rw [scheduled] at listed
        cases listed
      simp [step, found, woken]
  | cons i rest ih =>
      have called : s.step .callback = some ({ s with callbacks := rest }.setDrainEvent i) := by
        simp [step, scheduled]
      have next : Paced config ({ s with callbacks := rest }.setDrainEvent i) :=
        paced_setDrainEvent paced fun j member => by
          rw [scheduled] at member
          exact List.mem_cons.mp member
      obtain ⟨woken, stands⟩ := getElem?_setDrainEvent (s := { s with callbacks := rest }) found i
      have left : ({ s with callbacks := rest }.setDrainEvent i).callbacks = rest :=
        (setDrainEvent_frame _ i).2.2.1
      obtain ⟨n, few, t, ran, resumes⟩ := ih next stands left
      refine ⟨n + 1, ?_, t, ?_, resumes⟩
      · rw [List.length_cons]
        exact Nat.succ_le_succ few
      · rw [List.replicate_succ, run, called]
        exact ran

/-- A push goes on by what is scheduled, and the signals are one for each buffer that was filled
and one for each exception of the hook. -/
structure Drains (config : Nat → MacosRtcSessionConfig) (s : Sessions) : Prop where
  counted : ∀ i, Counted (capacity config i) (s.posted i).length (s.session i)
  released : ∀ k push, s.waiting[k]? = some push →
    ∃ n ≤ s.callbacks.length, ∃ t, run step s (List.replicate n .callback) = some t ∧
      (t.step (.pushResumes k)).isSome = true

/-- **No drain is lost.**  In every state a push that awaits the drain can go on after callbacks
that are already scheduled, and the backpressure counters are those of the pushes. -/
theorem loopback_drains (config : Nat → MacosRtcSessionConfig)
    (reached : Reachable step Free (start config) s) : Drains config s := by
  obtain ⟨-, paced⟩ := paced_of_reachable reached
  exact ⟨paced.counted, fun _ _ found => released paced found⟩

/-! ## After `leave` -/

/-- What the waiting pushes of a session have for the others. -/
def pending (s : Sessions) (i : Nat) : List Pcm :=
  (s.waiting.filter fun push => push.session = i).map (·.pcm)

/-- The session pushes nothing and is not joined by it. -/
structure Mute (i : Nat) (s t : Sessions) : Prop where
  out : (t.session i).joined = (s.session i).joined
  sender : (t.session i).frameOf = (s.session i).frameOf
  silent : t.posted i = s.posted i
  pending : (t.pending i).Sublist (s.pending i)

theorem Mute.refl (i : Nat) (s : Sessions) : Mute i s s := ⟨rfl, rfl, rfl, List.Sublist.refl _⟩

theorem Mute.trans {u : Sessions} (first : Mute i s t) (later : Mute i t u) : Mute i s u :=
  ⟨later.out.trans first.out, later.sender.trans first.sender, later.silent.trans first.silent,
    later.pending.trans first.pending⟩

/-- What happens to the queue and the buffer of one session. -/
theorem mute_set {x : MacosRtcSession} (session : t.session = Function.update s.session j x)
    (out : j = i → x.joined = (s.session j).joined)
    (sender : j = i → x.frameOf = (s.session j).frameOf)
    (silent : t.posted i = s.posted i) (waiting : t.waiting = s.waiting) : Mute i s t := by
  have pending : (t.pending i).Sublist (s.pending i) := by
    rw [Sessions.pending, waiting]
    exact List.Sublist.refl _
  by_cases here : j = i
  · subst here
    exact ⟨by simpa [session] using out rfl, by simpa [session] using sender rfl, silent, pending⟩
  · have other := Ne.symm here
    exact ⟨by simp [session, other], by simp [session, other], silent, pending⟩

theorem mute_setDrainEvent (i : Nat) (s : Sessions) (j : Nat) : Mute i s (s.setDrainEvent j) := by
  unfold setDrainEvent
  split
  · exact Mute.refl i s
  · have set := mute_set (i := i) (s := s) (t := s.set j { s.session j with drainEvent := true })
      rfl (fun _ => rfl) (fun _ => rfl) rfl rfl
    refine ⟨set.out, set.sender, rfl, ?_⟩
    have same : (s.waiting.map (·.wake j)).filter (fun push => push.session = i) =
        (s.waiting.filter fun push => push.session = i).map (·.wake j) := by
      rw [List.filter_map]
      exact congrArg _ (List.filter_congr fun push _ => by simp)
    show (((s.waiting.map (·.wake j)).filter fun push => push.session = i).map (·.pcm)).Sublist _
    have pcms : WaitingPush.pcm ∘ (·.wake j) = WaitingPush.pcm :=
      funext fun push => push.pcm_wake j
    rw [same, List.map_map, pcms]
    exact List.Sublist.refl _

theorem mute_unregister (i : Nat) (s : Sessions) (ne : j ≠ i) : Mute i s (s.unregister j) := by
  have silent : ∀ u : Sessions, u.log = s.log ++ [.exit j] → u.posted i = s.posted i :=
    fun u log => (posted_snoc log i).trans (List.append_nil _)
  unfold unregister
  dsimp only
  split
  · exact mute_set (j := j) rfl (absurd · ne) (absurd · ne) (silent _ rfl) rfl
  · split
    · exact mute_set (j := j) rfl (absurd · ne) (absurd · ne) (silent _ rfl) rfl
    · exact mute_set (j := j) rfl (absurd · ne) (absurd · ne) (silent _ rfl) rfl

theorem mute_putSentinel (i : Nat) (s : Sessions) (j : Nat) : Mute i s (s.putSentinel j) := by
  refine Mute.trans ?_ (mute_setDrainEvent i _ j)
  exact mute_set (j := j) rfl (fun _ => rfl) (fun _ => rfl)
    ((posted_snoc rfl i).trans (List.append_nil _)) rfl

/-- A push of another session, or one whose own session only has its buffer counted. -/
theorem mute_countPush (i : Nat) (s : Sessions) (j : Nat) : Mute i s (s.countPush j) := by
  unfold countPush
  dsimp only
  split
  · exact mute_set (j := j) rfl (fun _ => rfl) (fun _ => rfl) rfl rfl
  · exact mute_set (j := j) rfl (fun _ => rfl) (fun _ => rfl) rfl rfl

theorem mute_deliver (i : Nat) (s : Sessions) (ne : j ≠ i) (pcm : Pcm) :
    Mute i s (s.deliver j pcm) := by
  refine Mute.trans ?_ (mute_countPush i _ j)
  obtain ⟨inbound, became⟩ : ∃ inbound,
      (s.post j pcm).session i = { s.session i with inbound := inbound } :=
    foldl_offer_drains _ _ _ i
  have silent : (s.post j pcm).posted i = s.posted i := by
    rw [posted_snoc (s := s) rfl]
    simp [posts, ne]
  exact ⟨by rw [became], by rw [became]; rfl, silent, List.Sublist.refl _⟩

/-- A session that is out stays out, and pushes nothing but what waited. -/
structure Late (i : Nat) (s t : Sessions) : Prop where
  out : (t.session i).joined = false
  sender : (t.session i).frameOf = (s.session i).frameOf
  pushed : ∃ late : List Pcm,
    t.posted i = s.posted i ++ late.map (fun pcm => .frame ((s.session i).frameOf pcm)) ∧
      (late ++ t.pending i).Subperm (s.pending i)

theorem Mute.late (mute : Mute i s t) (out : (s.session i).joined = false) : Late i s t :=
  ⟨mute.out.trans out, mute.sender, [], by simp [mute.silent], mute.pending.subperm⟩

theorem Late.trans {u : Sessions} (first : Late i s t) (then_ : Late i t u) : Late i s u := by
  obtain ⟨early, pushed, waited⟩ := first.pushed
  obtain ⟨later, pushedLater, waitedLater⟩ := then_.pushed
  refine ⟨then_.out, then_.sender.trans first.sender, early ++ later, ?_, ?_⟩
  · rw [pushedLater, pushed, first.sender, List.map_append, List.append_assoc]
  · rw [List.append_assoc]
    exact ((List.subperm_append_left early).mpr waitedLater).trans waited

/-- One waiting push is taken out of those of its session. -/
theorem pending_eraseIdx {k : Nat} {push : WaitingPush} (found : s.waiting[k]? = some push)
    (i : Nat) :
    List.Perm ((if push.session = i then [push.pcm] else []) ++
      ({ s with waiting := s.waiting.eraseIdx k } : Sessions).pending i) (s.pending i) := by
  obtain ⟨inside, rfl⟩ := List.getElem?_eq_some_iff.mp found
  have apart := ((List.getElem_cons_eraseIdx_perm inside).filter
    fun push => decide (push.session = i)).map (·.pcm)
  by_cases own : s.waiting[k].session = i
  · simpa [own, Sessions.pending] using apart
  · simpa [own, Sessions.pending] using apart

theorem late_pushResumes {k : Nat} (out : (s.session i).joined = false)
    (ran : s.step (.pushResumes k) = some t) : Late i s t := by
  simp only [step] at ran
  split at ran
  · rename_i push found
    simp only [Option.ite_none_right_eq_some, Option.some.injEq] at ran
    obtain ⟨-, rfl⟩ := ran
    have apart := pending_eraseIdx found i
    by_cases own : push.session = i
    · subst own
      obtain ⟨inbound, became⟩ : ∃ inbound,
          ({ s with waiting := s.waiting.eraseIdx k }.post push.session push.pcm).session
            push.session = { s.session push.session with inbound := inbound } :=
        foldl_offer_drains _ _ _ _
      have counts := mute_countPush push.session
        ({ s with waiting := s.waiting.eraseIdx k }.post push.session push.pcm) push.session
      rw [if_pos rfl] at apart
      refine ⟨?_, ?_, [push.pcm], ?_, ?_⟩
      · rw [deliver, counts.out, became]
        exact out
      · rw [deliver, counts.sender, became]
        rfl
      · rw [deliver, counts.silent, posted_snoc (s := s) rfl]
        simp [posts]
      · exact ((List.subperm_append_left _).mpr counts.pending.subperm).trans apart.subperm
    · have mute := mute_deliver i { s with waiting := s.waiting.eraseIdx k } own push.pcm
      rw [if_neg own, List.nil_append] at apart
      exact ⟨mute.out.trans out, mute.sender, [], by simp [mute.silent]; rfl,
        mute.pending.subperm.trans apart.subperm⟩
  · cases ran

theorem late_step (out : (s.session i).joined = false)
    (noJoin : ∀ name uid rate, action ≠ .join i name uid rate) (ran : s.step action = some t) :
    Late i s t := by
  cases action with
  | join j name uid rate =>
      have ne : j ≠ i := fun same => noJoin name uid rate (same ▸ rfl)
      obtain rfl := Option.some.inj ran
      refine Mute.late ?_ out
      unfold join
      dsimp only
      split
      · exact Mute.refl i s
      · exact mute_set (j := j) rfl (absurd · ne) (absurd · ne)
          ((posted_snoc rfl i).trans (List.append_nil _)) rfl
  | leave j =>
      obtain rfl := Option.some.inj ran
      refine Mute.late ?_ out
      unfold leave
      dsimp only
      split
      · rename_i joined
        have ne : j ≠ i := by
          rintro rfl
          rw [out] at joined
          cases joined
        split
        · exact (mute_unregister i s ne).trans ⟨rfl, rfl, rfl, List.Sublist.refl _⟩
        · exact (mute_unregister i s ne).trans (mute_putSentinel i _ j)
      · exact Mute.refl i s
  | putResumes j =>
      simp only [step, Option.ite_none_right_eq_some, Option.some.injEq] at ran
      obtain ⟨-, rfl⟩ := ran
      refine Mute.late (Mute.trans ?_ (mute_putSentinel i _ j)) out
      exact ⟨rfl, rfl, rfl, List.Sublist.refl _⟩
  | leaveCancelled j =>
      simp only [step, Option.ite_none_right_eq_some, Option.some.injEq] at ran
      obtain ⟨-, rfl⟩ := ran
      exact Mute.late ⟨rfl, rfl, rfl, List.Sublist.refl _⟩ out
  | pushAudio j pcm =>
      obtain rfl := Option.some.inj ran
      refine Mute.late ?_ out
      unfold pushAudio
      dsimp only
      split
      · exact Mute.refl i s
      rename_i joined
      have ne : j ≠ i := by
        rintro rfl
        rw [out] at joined
        exact joined rfl
      split
      · exact mute_set (j := j) rfl (absurd · ne) (absurd · ne) rfl rfl
      split
      · exact mute_deliver i s ne pcm
      · exact ⟨rfl, rfl, rfl, by simp [Sessions.pending, ne]⟩
  | pushResumes k => exact late_pushResumes out ran
  | pushCancelled k =>
      obtain rfl := Option.some.inj ran
      exact Mute.late ⟨rfl, rfl, rfl, ((List.eraseIdx_sublist _ k).filter _).map _⟩ out
  | callback =>
      simp only [step] at ran
      split at ran
      · cases ran
      · obtain rfl := Option.some.inj ran
        refine Mute.late (Mute.trans ?_ (mute_setDrainEvent i _ _)) out
        exact ⟨rfl, rfl, rfl, List.Sublist.refl _⟩
  | audioFrames j =>
      obtain rfl := Option.some.inj ran
      refine Mute.late ?_ out
      unfold audioFrames
      split
      · exact ⟨rfl, rfl, rfl, List.Sublist.refl _⟩
      · exact Mute.refl i s
  | take j =>
      simp only [step, Option.ite_none_right_eq_some] at ran
      obtain ⟨-, ran⟩ := ran
      split at ran
      · cases ran
      · rename_i item rest first
        obtain rfl := Option.some.inj ran
        refine Mute.late ?_ out
        have noted : Mute i s { s.set j { s.session j with
            inbound := rest, taken := (s.session j).taken ++ [item] } with
            log := s.log ++ [.take j] } :=
          mute_set (j := j) rfl (fun _ => rfl) (fun _ => rfl)
            ((posted_snoc rfl i).trans (List.append_nil _)) rfl
        cases item with
        | frame _ => exact noted
        | sentinel => exact noted.trans ⟨rfl, rfl, rfl, List.Sublist.refl _⟩
  | force j =>
      obtain rfl := Option.some.inj ran
      exact Mute.late (mute_set (j := j) rfl (fun _ => rfl) (fun _ => rfl) rfl rfl) out

/-- **A session that has left falls silent.**  Until it joins again it pushes nothing but what its
pushes that were waiting then had, each of them once at most, whatever else happens. -/
theorem loopback_quiet_after_leave (out : (s.session i).joined = false)
    (reached : Reachable step (fun _ action => ∀ name uid rate, action ≠ .join i name uid rate) s t) :
    Late i s t :=
  reached.invariant (P := Late i s) ((Mute.refl i s).late out) fun _ _ _ late noJoin ran =>
    late.trans (late_step late.out noJoin ran)

/-! ## Poles -/

theorem parting_drains : Drains strict parting ∧ parting.waiting.length = 1 :=
  ⟨loopback_drains strict parting_reached, by decide +kernel⟩

theorem goes_on : (parting.step (.pushResumes 0)).isSome = true := by decide +kernel

/-- The push that waited reaches the other session after its own has left. -/
theorem late_push : Late 0 parting ((parting.step (.pushResumes 0)).get goes_on) ∧
    (((parting.step (.pushResumes 0)).get goes_on).got 1).length = 2 :=
  ⟨loopback_quiet_after_leave (by decide +kernel)
    ((Reachable.refl parting).snoc (fun _ _ _ => by simp) (Option.some_get goes_on).symm),
    by decide +kernel⟩

end IsalesTelephony.Audio.Loopback.Sessions
