/-
# Modem.UsbWatcher -- what the polling watchers tell of the ports that come and go

`_scan_ports`, `_diff_scans` and `_poll_loop` of `platforms/windows_serial.py` and of
`platforms/macos_iokit.py`.  On each tick the ports are listed, or the listing raises; what
is listed is compared with the last list there was.

A scan finds of each node what was listed last (`lookup_scanPorts`).  The events of a tick are
about the nodes at which two scans differ (`tells_diffScans`) and take the devices of the one
scan to those of the other (`replay_diffScans`).
-/
import IsalesTelephony.Theory.Dict
import IsalesTelephony.Theory.Hex
import IsalesTelephony.Theory.Transition

namespace IsalesTelephony.Modem

set_option autoImplicit false

open IsalesTelephony.Theory IsalesTelephony.Theory.Transition

/-- A port as `comports` lists it. -/
structure ListPortInfo where
  device : String
  vid : Option Nat
  pid : Option Nat
  serialNumber : Option String
  deriving DecidableEq, Repr

/-- `_PortIdentity` -/
structure PortIdentity where
  deviceNode : String
  vid : Option String
  pid : Option String
  serial : Option String
  deriving DecidableEq, Repr

inductive UdevAction where
  | add
  | remove
  | change
  deriving DecidableEq, Repr

structure UdevEvent where
  action : UdevAction
  deviceNode : Option String
  vendorId : Option String
  productId : Option String
  deriving DecidableEq, Repr

/-- A scan, by `device_node`. -/
abbrev PortScan := List (String × PortIdentity)

/-- `f"{value:04x}"` -/
def vidPidHex (value : Option Nat) : Option String :=
  value.map fun value => String.ofList (Hex.padded 4 value)

def identityFromPort (port : ListPortInfo) : PortIdentity where
  deviceNode := port.device
  vid := vidPidHex port.vid
  pid := vidPidHex port.pid
  serial := port.serialNumber

/-- The event about an entry of a scan. -/
def UdevEvent.about (action : UdevAction) (entry : String × PortIdentity) : UdevEvent where
  action := action
  deviceNode := some entry.1
  vendorId := entry.2.vid
  productId := entry.2.pid

namespace PortPolling

/-- Ports without a vendor are skipped. -/
def scanPorts (ports : List ListPortInfo) : PortScan :=
  ports.foldl (fun out p => if p.vid.isNone then out else Dict.put out p.device (identityFromPort p)) []

/-- What is gone or is not what it was, then what is new or is not what it was. -/
def diffScans (prev curr : PortScan) : List UdevEvent :=
  (Dict.stale prev curr).map (.about .remove) ++ (Dict.stale curr prev).map (.about .add)

end PortPolling

namespace WindowsSerial

def scanPorts : List ListPortInfo → PortScan := PortPolling.scanPorts

def diffScans : PortScan → PortScan → List UdevEvent := PortPolling.diffScans

end WindowsSerial

namespace MacosIokit

def scanPorts : List ListPortInfo → PortScan := PortPolling.scanPorts

def diffScans : PortScan → PortScan → List UdevEvent := PortPolling.diffScans

end MacosIokit

/-- `sys.platform` of the watchers that poll. -/
inductive PollingPlatform where
  | win32
  | darwin
  deriving DecidableEq, Repr

def PollingPlatform.scanPorts : PollingPlatform → List ListPortInfo → PortScan
  | .win32 => WindowsSerial.scanPorts
  | .darwin => MacosIokit.scanPorts

def PollingPlatform.diffScans : PollingPlatform → PortScan → PortScan → List UdevEvent
  | .win32 => WindowsSerial.diffScans
  | .darwin => MacosIokit.diffScans

structure UsbWatcher where
  prev : PortScan
  /-- put on `_queue`, oldest first -/
  queued : List UdevEvent := []
  stopped : Bool := false
  deriving DecidableEq, Repr

inductive WatcherAction where
  /-- the sleep is over; what `comports` lists, or `none` if it raises -/
  | tick (listed : Option (List ListPortInfo))
  | stop
  deriving DecidableEq, Repr

namespace UsbWatcher

/-- `_poll_loop` up to its first sleep. -/
def seeded (platform : PollingPlatform) (listed : Option (List ListPortInfo)) : UsbWatcher where
  prev := (listed.map platform.scanPorts).getD []

def step (platform : PollingPlatform) (s : UsbWatcher) : WatcherAction → Option UsbWatcher
  | .tick listed =>
      if s.stopped then none
      else match listed with
        | none => some s
        | some ports =>
            let curr := platform.scanPorts ports
            some { s with prev := curr, queued := s.queued ++ platform.diffScans s.prev curr }
  | .stop => some { s with stopped := true }

end UsbWatcher

/-! ## What is told -/

/-- The devices of a list of ports: the vendor and the product at each node. -/
def PollingPlatform.devices (platform : PollingPlatform) (ports : List ListPortInfo) :
    List (String × (Option String × Option String)) :=
  (platform.scanPorts ports).map fun e => (e.1, e.2.vid, e.2.pid)

/-- The devices after some events. -/
def replay (devices : List (String × (Option String × Option String))) (events : List UdevEvent) :
    List (String × (Option String × Option String)) :=
  events.foldl (fun devices e =>
    match e.action, e.deviceNode with
    | .add, some node => Dict.put devices node (e.vendorId, e.productId)
    | .remove, some node => Dict.erase devices node
    | _, _ => devices) devices

/-- The port that is listed last for the node, of those with a vendor. -/
def listedAt (ports : List ListPortInfo) (node : String) : Option ListPortInfo :=
  (ports.filter fun p => p.vid.isSome).reverse.find? fun p => p.device = node

/-- What is known of the port at the node. -/
def identityAt (ports : List ListPortInfo) (node : String) :
    Option (Option Nat × Option Nat × Option String) :=
  (listedAt ports node).map fun p => (p.vid, p.pid, p.serialNumber)

/-- The last list there was, after one more tick. -/
def WatcherAction.lastListed (last : List ListPortInfo) : WatcherAction → List ListPortInfo
  | .tick (some ports) => ports
  | _ => last

/-- The list of the last tick whose listing did not raise. -/
def lastListed (seed : List ListPortInfo) (actions : List WatcherAction) : List ListPortInfo :=
  actions.foldl WatcherAction.lastListed seed

/-- The events tell what became of the ports: first what is gone, then what is new, each node
at most once, and those nodes whose identity is another. -/
structure Tells (before after : List ListPortInfo) (events : List UdevEvent) : Prop where
  ordered : ∃ removes adds, events = removes ++ adds ∧
    (∀ e ∈ removes, e.action = .remove) ∧ (∀ e ∈ adds, e.action = .add) ∧
    (removes.map UdevEvent.deviceNode).Nodup ∧ (adds.map UdevEvent.deviceNode).Nodup
  changed : ∀ node, (∃ e ∈ events, e.deviceNode = some node) ↔
    identityAt before node ≠ identityAt after node

section
variable {ports : List ListPortInfo} {p q : ListPortInfo} {node : String} {prev curr : PortScan}

theorem vidPidHex_inj {m n : Option Nat} (same : vidPidHex m = vidPidHex n) : m = n := by
  apply Option.map_injective _ same
  intro m n same
  exact Hex.padded_inj (String.ofList_injective same)

/-- What is rendered of a port tells its node and what is known of it. -/
theorem identityFromPort_eq_iff : identityFromPort p = identityFromPort q ↔
    p.device = q.device ∧ (p.vid, p.pid, p.serialNumber) = (q.vid, q.pid, q.serialNumber) := by
  constructor
  · intro same
    obtain ⟨device, vid, pid, serial⟩ := PortIdentity.mk.inj same
    rw [vidPidHex_inj vid, vidPidHex_inj pid, show p.serialNumber = _ from serial]
    exact ⟨device, rfl⟩
  · rintro ⟨device, known⟩
    obtain ⟨vid, known⟩ := Prod.mk.inj known
    obtain ⟨pid, serial⟩ := Prod.mk.inj known
    rw [identityFromPort, device, vid, pid, serial]
    rfl

theorem listedAt_concat (ports : List ListPortInfo) (p : ListPortInfo) (node : String) :
    listedAt (ports ++ [p]) node =
      if p.vid.isSome ∧ p.device = node then some p else listedAt ports node := by
  unfold listedAt
  rw [List.filter_append, List.reverse_append, List.find?_append]
  cases vendor : p.vid with
  | none => simp [vendor]
  | some vid =>
      by_cases same : p.device = node
      · simp [vendor, same]
      · simp [vendor, same]

theorem device_of_listedAt (listed : listedAt ports node = some p) : p.device = node := by
  unfold listedAt at listed
  simpa using List.find?_some listed

/-! ## Replay -/

theorem replay_append (devices : List (String × (Option String × Option String)))
    (events more : List UdevEvent) :
    replay devices (events ++ more) = replay (replay devices events) more := List.foldl_append

theorem replay_removes (devices : List (String × (Option String × Option String))) (gone : PortScan) :
    replay devices (gone.map (.about .remove)) = Dict.eraseAll devices (gone.map Prod.fst) := by
  induction gone generalizing devices with
  | nil => rfl
  | cons e rest ih => exact ih (Dict.erase devices e.1)

theorem replay_adds (devices : List (String × (Option String × Option String))) (new : PortScan) :
    replay devices (new.map (.about .add)) =
      Dict.fill devices (new.map fun e => (e.1, e.2.vid, e.2.pid)) := by
  induction new generalizing devices with
  | nil => rfl
  | cons e rest ih => exact ih (Dict.put devices e.1 (e.2.vid, e.2.pid))

theorem nodup_nodes {scan : PortScan} (distinct : Dict.Distinct scan) (action : UdevAction) :
    ((scan.map (UdevEvent.about action)).map UdevEvent.deviceNode).Nodup := by
  have nodes : (scan.map (UdevEvent.about action)).map UdevEvent.deviceNode =
      (scan.map Prod.fst).map some := by
    simp [UdevEvent.about, Function.comp_def]
  rw [nodes]
  apply List.Nodup.map _ distinct
  intro a b same
  exact Option.some.inj same

theorem mem_nodes {scan : PortScan} {action : UdevAction} :
    (∃ e ∈ scan.map (UdevEvent.about action), e.deviceNode = some node) ↔ node ∈ scan.map Prod.fst := by
  simp [UdevEvent.about]

/-! ## Scans -/

namespace PortPolling

theorem scanPorts_concat (ports : List ListPortInfo) (p : ListPortInfo) :
    scanPorts (ports ++ [p]) =
      if p.vid.isNone then scanPorts ports
      else Dict.put (scanPorts ports) p.device (identityFromPort p) := by
  simp [scanPorts]

theorem distinct_scanPorts (ports : List ListPortInfo) : Dict.Distinct (scanPorts ports) := by
  induction ports using List.reverseRecOn with
  | nil => exact Dict.distinct_nil
  | append_singleton ports p ih =>
      rw [scanPorts_concat]
      split
      · exact ih
      · exact Dict.distinct_put ih _ _

/-- Of each node the scan finds what was listed last. -/
theorem lookup_scanPorts (ports : List ListPortInfo) (node : String) :
    (scanPorts ports).lookup node = (listedAt ports node).map identityFromPort := by
  induction ports using List.reverseRecOn with
  | nil => rfl
  | append_singleton ports p ih =>
      rw [scanPorts_concat, listedAt_concat]
      cases vendor : p.vid with
      | none => simpa using ih
      | some vid =>
          by_cases same : p.device = node
          · simp [same]
          · simpa [same, Dict.lookup_put, Ne.symm same] using ih

/-- Two scans find the same at a node exactly if the same is known of it. -/
theorem lookup_scanPorts_eq_iff (before after : List ListPortInfo) (node : String) :
    (scanPorts before).lookup node = (scanPorts after).lookup node ↔
      identityAt before node = identityAt after node := by
  rw [lookup_scanPorts, lookup_scanPorts, identityAt, identityAt]
  cases old : listedAt before node with
  | none => cases listedAt after node <;> simp
  | some p =>
      cases new : listedAt after node with
      | none => simp
      | some q =>
          have device : p.device = q.device :=
            (device_of_listedAt old).trans (device_of_listedAt new).symm
          rw [Option.map_some, Option.map_some, Option.map_some, Option.map_some, Option.some.injEq,
            Option.some.injEq, identityFromPort_eq_iff, and_iff_right device]

/-- From the devices of the one scan the events lead to those of the other. -/
theorem replay_diffScans {devices : List (String × (Option String × Option String))}
    (old : Dict.Distinct prev) (new : Dict.Distinct curr)
    (shown : ∀ node, devices.lookup node = (prev.lookup node).map fun i => (i.vid, i.pid))
    (node : String) :
    (replay devices (diffScans prev curr)).lookup node =
      (curr.lookup node).map fun i => (i.vid, i.pid) := by
  rw [diffScans, replay_append, replay_removes, replay_adds]
  exact Dict.lookup_sync (fun i : PortIdentity => (i.vid, i.pid)) old new shown node

/-- The events between two scans are about the nodes at which the scans differ. -/
theorem tells_diffScans (before after : List ListPortInfo) :
    Tells before after (diffScans (scanPorts before) (scanPorts after)) where
  ordered := by
    refine ⟨_, _, rfl, ?_, ?_, nodup_nodes (Dict.distinct_stale (distinct_scanPorts before) _) _,
      nodup_nodes (Dict.distinct_stale (distinct_scanPorts after) _) _⟩
    · exact List.forall_mem_map.mpr fun _ _ => rfl
    · exact List.forall_mem_map.mpr fun _ _ => rfl
  changed node := by
    have keys := Dict.keys_stale_iff (distinct_scanPorts before) (distinct_scanPorts after) node
    rw [ne_eq, ← lookup_scanPorts_eq_iff, ← ne_eq, ← keys, diffScans]
    simp only [List.mem_append, or_and_right, exists_or, mem_nodes]

end PortPolling

end

namespace UsbWatcher

variable {platform : PollingPlatform} {seed last : List ListPortInfo} {s t : UsbWatcher}
  {action : WatcherAction}

/-- The watcher compares with the last list, and its events lead to the devices of that. -/
structure Sound (platform : PollingPlatform) (seed last : List ListPortInfo) (s : UsbWatcher) :
    Prop where
  prev : s.prev = PortPolling.scanPorts last
  replayed : ∀ node, (replay (platform.devices seed) s.queued).lookup node =
    (platform.devices last).lookup node

theorem scanPorts_eq : platform.scanPorts = PortPolling.scanPorts := by
  cases platform <;> rfl

theorem diffScans_eq : platform.diffScans = PortPolling.diffScans := by
  cases platform <;> rfl

theorem lookup_devices (ports : List ListPortInfo) (node : String) :
    (platform.devices ports).lookup node =
      ((PortPolling.scanPorts ports).lookup node).map fun i => (i.vid, i.pid) := by
  rw [PollingPlatform.devices, scanPorts_eq]
  exact Dict.lookup_map (fun i : PortIdentity => (i.vid, i.pid)) _ node

/-- A tick whose listing does not raise queues what differs from the last list. -/
theorem sound_tick (sound : s.Sound platform seed last) (ports : List ListPortInfo) :
    Sound platform seed ports { s with
      prev := platform.scanPorts ports
      queued := s.queued ++ platform.diffScans s.prev (platform.scanPorts ports) } where
  prev := by rw [scanPorts_eq]
  replayed node := by
    rw [replay_append, diffScans_eq, scanPorts_eq, sound.prev, lookup_devices]
    apply PortPolling.replay_diffScans (PortPolling.distinct_scanPorts last)
      (PortPolling.distinct_scanPorts ports)
    intro node
    rw [sound.replayed, lookup_devices]

theorem sound_step (sound : s.Sound platform seed last) (ran : step platform s action = some t) :
    t.Sound platform seed (action.lastListed last) := by
  cases action with
  | tick listed =>
      simp only [step, Option.ite_none_left_eq_some] at ran
      obtain ⟨-, ran⟩ := ran
      cases listed with
      | none =>
          obtain rfl := Option.some.inj ran
          exact sound
      | some ports =>
          obtain rfl := Option.some.inj ran
          exact sound_tick sound ports
  | stop =>
      obtain rfl := Option.some.inj ran
      exact ⟨sound.prev, sound.replayed⟩

theorem sound_of_run {actions : List WatcherAction}
    (ran : Transition.run (step platform) (seeded platform (some seed)) actions = some s) :
    s.Sound platform seed (lastListed seed actions) := by
  apply run_invariant (P := Sound platform seed) ran
  · refine ⟨?_, fun _ => rfl⟩
    rw [← scanPorts_eq]
    rfl
  · intro last s action t sound ran
    exact sound_step sound ran

/-- **What is told.**  Whatever the ticks list and however many of them raise, the events
lead from the devices of the seed to those of the last list; and the next tick tells of the
nodes whose identity is not what it was in the last list, or of nothing if it raises. -/
theorem scans_told {actions : List WatcherAction}
    (ran : Transition.run (step platform) (seeded platform (some seed)) actions = some s) :
    (∀ node, (replay (platform.devices seed) s.queued).lookup node =
      (platform.devices (lastListed seed actions)).lookup node) ∧
    ∀ listed, s.stopped = false → ∃ t events, step platform s (.tick listed) = some t ∧
      t.queued = s.queued ++ events ∧ (listed = none → events = []) ∧
      ∀ ports, listed = some ports → Tells (lastListed seed actions) ports events := by
  have sound := sound_of_run ran
  refine ⟨sound.replayed, fun listed going => ?_⟩
  have ticks : ¬s.stopped = true := by simp [going]
  cases listed with
  | none => exact ⟨s, [], if_neg ticks, (List.append_nil _).symm, fun _ => rfl, nofun⟩
  | some ports =>
      refine ⟨_, _, if_neg ticks, rfl, nofun, fun other same => ?_⟩
      obtain rfl := Option.some.inj same
      rw [sound.prev, scanPorts_eq, diffScans_eq]
      exact PortPolling.tells_diffScans _ _

/-! ## Poles -/

section

def modemPort (device serial : String) : ListPortInfo := ⟨device, some 0x1e0e, some 0x9001, some serial⟩

/-- A modem at `COM7`, and a port of the board. -/
def boot : List ListPortInfo := [⟨"COM1", none, none, none⟩, modemPort "COM7" "A"]

/-- A second modem, a listing that raises, and the modems in each other's place. -/
def swapped : List WatcherAction :=
  [.tick (some (boot ++ [modemPort "COM9" "B"])), .tick none,
    .tick (some [modemPort "COM9" "A", modemPort "COM7" "B"])]

theorem swapped_runs (platform : PollingPlatform) :
    (Transition.run (step platform) (seeded platform (some boot)) swapped).isSome = true := by
  cases platform <;> decide

theorem swapped_told :
    let s := (Transition.run (step .win32) (seeded .win32 (some boot)) swapped).get
      (swapped_runs .win32)
    (replay (PollingPlatform.win32.devices boot) s.queued).lookup "COM9" =
        some (some "1e0e", some "9001") ∧
      ∃ t events, step .win32 s (.tick (some [modemPort "COM7" "B"])) = some t ∧
        t.queued = s.queued ++ events ∧ ∃ e ∈ events, e.deviceNode = some "COM9" := by
  obtain ⟨replayed, tells⟩ := scans_told (Option.some_get (swapped_runs .win32)).symm
  obtain ⟨t, events, ticks, queued, -, told⟩ := tells (some [modemPort "COM7" "B"]) (by decide)
  refine ⟨(replayed "COM9").trans (by decide), t, events, ticks, queued, ?_⟩
  exact ((told _ rfl).changed "COM9").mpr (by decide)

end

end UsbWatcher

end IsalesTelephony.Modem
