/-
# Api.SelectDevice -- the longest idle device of a campaign

`select_device` of `api/routers/select.py`: one query joins the devices of the campaign
that are idle to their active bindings and these to their SIM cards, orders the rows by
`last_call_at`, nulls first, and takes the first; the device of that row is reserved.
Nobody else holds a row lock, so none is skipped.

Which of several rows with the least `last_call_at` comes first is up to the database
(`Planner`).  The number is looked at after the choice: a first row without one is refused,
whatever comes after it (`select_device_spec`).
-/
import IsalesTelephony.Controller.Handlers
import Mathlib.Data.List.Nodup

namespace IsalesTelephony.Api

set_option autoImplicit false

open IsalesTelephony.Controller

/-! ## The database -/

structure Device where
  id : Nat
  status : DeviceStatus
  lastCallAt : Option Nat
  deriving DecidableEq, Repr

structure CampaignDevice where
  campaignId : Nat
  deviceId : Nat
  deriving DecidableEq, Repr

structure DeviceSimBinding where
  deviceId : Nat
  simCardId : Nat
  isActive : Bool
  deriving DecidableEq, Repr

structure SimCard where
  id : Nat
  phoneNumber : Option String
  deriving DecidableEq, Repr

/-- The tables, with their primary keys. -/
structure Database where
  devices : List Device
  campaignDevices : List CampaignDevice
  bindings : List DeviceSimBinding
  simCards : List SimCard
  devices_key : (devices.map Device.id).Nodup
  simCards_key : (simCards.map SimCard.id).Nodup

/-- A row of the query, with what it is ordered by. -/
structure Row where
  deviceId : Nat
  phoneNumber : Option String
  lastCallAt : Option Nat
  deriving DecidableEq, Repr

/-- `ASC NULLS FIRST`. -/
def nullsFirst : Option Nat → Option Nat → Bool
  | none, _ => true
  | some _, none => false
  | some a, some b => a ≤ b

/-- `ORDER BY device.last_call_at ASC NULLS FIRST LIMIT 1`, with the database's choice among
equals. -/
structure Planner where
  first : List Row → Option Row
  first_none : ∀ rows, first rows = none ↔ rows = []
  first_mem : ∀ rows row, first rows = some row → row ∈ rows
  first_least : ∀ rows row, first rows = some row →
    ∀ other ∈ rows, nullsFirst row.lastCallAt other.lastCallAt = true

namespace Database

/-- The rows of the query, before they are ordered. -/
def joined (db : Database) (campaignId : Nat) : List Row :=
  db.devices.flatMap fun device =>
    (db.campaignDevices.filter fun cd => cd.deviceId = device.id ∧ cd.campaignId = campaignId ∧
        device.status = .idle).flatMap fun _ =>
      (db.bindings.filter fun b => b.deviceId = device.id ∧ b.isActive = true).flatMap fun b =>
        (db.simCards.filter fun sim => sim.id = b.simCardId).map fun sim =>
          ⟨device.id, sim.phoneNumber, device.lastCallAt⟩

/-- What the update makes of a device. -/
def reserved (now : Nat) (device : Device) : Device :=
  { device with lastCallAt := some now, status := .dialing }

/-- `UPDATE device SET last_call_at = now(), status = 'dialing' WHERE id = :picked_id`. -/
def reserve (db : Database) (pickedId now : Nat) : Database :=
  { db with
    devices := db.devices.map fun device =>
      if device.id = pickedId then reserved now device else device
    devices_key := by
      have kept : (Device.id ∘ fun device : Device =>
          if device.id = pickedId then reserved now device else device) = Device.id := by
        funext device
        simp only [Function.comp]
        split <;> rfl
      rw [List.map_map, kept]
      exact db.devices_key }

/-- The device is idle, of the campaign, and has an active SIM with this number. -/
def Offers (db : Database) (campaignId : Nat) (device : Device) (number : Option String) : Prop :=
  device ∈ db.devices ∧ device.status = .idle ∧ ⟨campaignId, device.id⟩ ∈ db.campaignDevices ∧
    ∃ b ∈ db.bindings, b.deviceId = device.id ∧ b.isActive = true ∧
      ∃ sim ∈ db.simCards, sim.id = b.simCardId ∧ sim.phoneNumber = number

end Database

/-! ## The handler -/

/-- `HTTPException`. -/
structure HttpException where
  statusCode : Nat
  detail : String
  deriving DecidableEq, Repr

def noIdleDevice : HttpException := ⟨503, "no_idle_device"⟩

structure DeviceSelectResponse where
  deviceId : Nat
  phoneNumber : String
  /-- the `Deprecation` header -/
  deprecation : String
  deriving DecidableEq, Repr

/-- `select_device`, up to the commit; an exception rolls back. -/
def selectDevice (planner : Planner) (now : Nat) (db : Database) (campaignId : Nat) :
    Database × Except HttpException DeviceSelectResponse :=
  match planner.first (db.joined campaignId) with
  | none => (db, .error noIdleDevice)
  | some row =>
      match row.phoneNumber with
      -- an active binding to a SIM without a number
      | none => (db, .error noIdleDevice)
      | some phoneNumber =>
          (db.reserve row.deviceId now, .ok ⟨row.deviceId, phoneNumber, "1"⟩)

/-! ## What is selected -/

variable {db db' : Database} {campaignId now : Nat} {planner : Planner}

/-- The rows are the devices with their active SIMs. -/
theorem mem_joined {row : Row} : row ∈ db.joined campaignId ↔
    ∃ device, db.Offers campaignId device row.phoneNumber ∧ device.id = row.deviceId ∧
      device.lastCallAt = row.lastCallAt := by
  simp only [Database.joined, List.mem_flatMap, List.mem_filter, List.mem_map, decide_eq_true_eq]
  constructor
  · rintro ⟨device, member, ⟨campaign, _⟩, ⟨listed, rfl, rfl, idle⟩, b, ⟨bound, of, active⟩, sim,
      ⟨card, same⟩, rfl⟩
    exact ⟨device, ⟨member, idle, listed, b, bound, of, active, sim, card, same, rfl⟩, rfl, rfl⟩
  · rintro ⟨device, ⟨member, idle, listed, b, bound, of, active, sim, card, same, number⟩, id, last⟩
    refine ⟨device, member, _, ⟨listed, rfl, rfl, idle⟩, b, ⟨bound, of, active⟩, sim, ⟨card, same⟩, ?_⟩
    rw [number, id, last]

/-- A device that is picked is the only one with its id. -/
theorem mem_reserve {picked : Device} (member : picked ∈ db.devices) {device : Device} :
    device ∈ (db.reserve picked.id now).devices ↔
      device = Database.reserved now picked ∨ device ∈ db.devices ∧ device.id ≠ picked.id := by
  have same : ∀ other ∈ db.devices, other.id = picked.id → other = picked :=
    fun other listed id => List.inj_on_of_nodup_map db.devices_key listed member id
  simp only [Database.reserve, List.mem_map]
  constructor
  · rintro ⟨other, listed, rfl⟩
    split
    · rename_i here
      exact .inl (by rw [same other listed here])
    · rename_i elsewhere
      exact .inr ⟨listed, elsewhere⟩
  · rintro (rfl | ⟨listed, elsewhere⟩)
    · exact ⟨picked, member, if_pos rfl⟩
    · exact ⟨device, listed, if_neg elsewhere⟩

/-- The device returned is a longest idle one with an active SIM of that number, it alone is
now dialing, and nothing else has changed. -/
structure Selected (db db' : Database) (campaignId now : Nat) (response : DeviceSelectResponse) :
    Prop where
  longest : ∃ device, db.Offers campaignId device (some response.phoneNumber) ∧
    device.id = response.deviceId ∧
    (∀ other number, db.Offers campaignId other number →
      nullsFirst device.lastCallAt other.lastCallAt = true) ∧
    ∀ d, d ∈ db'.devices ↔
      d = Database.reserved now device ∨ d ∈ db.devices ∧ d.id ≠ device.id
  campaignDevices : db'.campaignDevices = db.campaignDevices
  bindings : db'.bindings = db.bindings
  simCards : db'.simCards = db.simCards

theorem selected_of_first {row : Row} {number : String}
    (first : planner.first (db.joined campaignId) = some row) (numbered : row.phoneNumber = some number) :
    Selected db (db.reserve row.deviceId now) campaignId now ⟨row.deviceId, number, "1"⟩ where
  longest := by
    obtain ⟨device, offers, id, last⟩ := mem_joined.mp (planner.first_mem _ _ first)
    rw [numbered] at offers
    refine ⟨device, offers, id, fun other otherNumber offered => ?_, fun d => ?_⟩
    · rw [last]
      exact planner.first_least _ _ first ⟨other.id, otherNumber, other.lastCallAt⟩
        (mem_joined.mpr ⟨other, offered, rfl, rfl⟩)
    · rw [← id]
      exact mem_reserve offers.1
  campaignDevices := rfl
  bindings := rfl
  simCards := rfl

theorem first_none_iff (planner : Planner) : planner.first (db.joined campaignId) = none ↔
    ∀ device number, ¬ db.Offers campaignId device number := by
  rw [planner.first_none, List.eq_nil_iff_forall_not_mem]
  constructor
  · intro empty device number offers
    exact empty ⟨device.id, number, device.lastCallAt⟩ (mem_joined.mpr ⟨device, offers, rfl, rfl⟩)
  · intro none_ row member
    obtain ⟨device, offers, -⟩ := mem_joined.mp member
    exact none_ device row.phoneNumber offers

/-! ### Main result -/

/-- **Selection.**  A device that is returned is the right one; the handler refuses, and
changes nothing, if and only if no idle device of the campaign has an active SIM or the row
that comes first has no number. -/
theorem select_device_spec (planner : Planner) (now : Nat) (db : Database) (campaignId : Nat) :
    (∀ db' response, selectDevice planner now db campaignId = (db', .ok response) →
        Selected db db' campaignId now response) ∧
      (∀ db' exc, selectDevice planner now db campaignId = (db', .error exc) →
        exc = noIdleDevice ∧ db' = db) ∧
      ((∃ db' exc, selectDevice planner now db campaignId = (db', .error exc)) ↔
        (∀ device number, ¬ db.Offers campaignId device number) ∨
          ∃ row, planner.first (db.joined campaignId) = some row ∧ row.phoneNumber = none) := by
  rw [← first_none_iff planner]
  unfold selectDevice
  cases first : planner.first (db.joined campaignId) with
  | none => simp [eq_comm]
  | some row =>
      cases numbered : row.phoneNumber with
      | none => simp [numbered, eq_comm]
      | some number =>
          simp only [numbered]
          refine ⟨?_, ?_, ?_⟩
          · rintro db' response ⟨⟩
            exact selected_of_first first numbered
          · rintro db' exc ⟨⟩
          · simp [numbered]

/-! ## Poles -/

/-- Of the least rows, the one that was listed first. -/
def earliest : List Row → Option Row
  | [] => none
  | row :: rest =>
      match earliest rest with
      | none => some row
      | some best => if nullsFirst row.lastCallAt best.lastCallAt then some row else some best

theorem nullsFirst_trans {a b c : Option Nat} (ab : nullsFirst a b = true)
    (bc : nullsFirst b c = true) : nullsFirst a c = true := by
  cases a with
  | none => rfl
  | some a =>
      cases b with
      | none => cases ab
      | some b =>
          cases c with
          | none => cases bc
          | some c =>
              simp only [nullsFirst, decide_eq_true_eq] at ab bc ⊢
              exact Nat.le_trans ab bc

theorem nullsFirst_total (a b : Option Nat) : nullsFirst a b = true ∨ nullsFirst b a = true := by
  cases a with
  | none => exact .inl rfl
  | some a =>
      cases b with
      | none => exact .inr rfl
      | some b =>
          simp only [nullsFirst, decide_eq_true_eq]
          exact Nat.le_total a b

theorem nullsFirst_refl (a : Option Nat) : nullsFirst a a = true := (nullsFirst_total a a).elim id id

theorem earliest_none_iff (rows : List Row) : earliest rows = none ↔ rows = [] := by
  cases rows with
  | nil => simp [earliest]
  | cons row rest =>
      simp only [earliest]
      split
      · simp
      · split <;> simp

theorem earliest_mem {rows : List Row} {row : Row} (first : earliest rows = some row) : row ∈ rows := by
  induction rows generalizing row with
  | nil => cases first
  | cons head rest ih =>
      simp only [earliest] at first
      split at first
      · obtain rfl := Option.some.inj first
        exact List.mem_cons_self ..
      · rename_i best found
        split at first
        · obtain rfl := Option.some.inj first
          exact List.mem_cons_self ..
        · obtain rfl := Option.some.inj first
          exact List.mem_cons_of_mem _ (ih found)

theorem earliest_least {rows : List Row} {row : Row} (first : earliest rows = some row) :
    ∀ other ∈ rows, nullsFirst row.lastCallAt other.lastCallAt = true := by
  induction rows generalizing row with
  | nil => cases first
  | cons head rest ih =>
      intro other member
      simp only [earliest] at first
      split at first
      · rename_i last
        obtain rfl := Option.some.inj first
        rw [(earliest_none_iff rest).mp last] at member
        obtain rfl := List.mem_singleton.mp member
        exact nullsFirst_refl _
      · rename_i best found
        split at first
        · rename_i before
          obtain rfl := Option.some.inj first
          rcases List.mem_cons.mp member with rfl | listed
          · exact nullsFirst_refl _
          · exact nullsFirst_trans before (ih found other listed)
        · rename_i after
          obtain rfl := Option.some.inj first
          rcases List.mem_cons.mp member with rfl | listed
          · exact (nullsFirst_total _ _).resolve_left after
          · exact ih found other listed

/-- A database that keeps the order of equal rows. -/
def stable : Planner where
  first := earliest
  first_none := earliest_none_iff
  first_mem := fun _ _ => earliest_mem
  first_least := fun _ _ => earliest_least

/-- Device 1 was never called and has a SIM without a number; device 2 has one with. -/
def twoDevices : Database where
  devices := [⟨1, .idle, none⟩, ⟨2, .idle, some 5⟩]
  campaignDevices := [⟨7, 1⟩, ⟨7, 2⟩]
  bindings := [⟨1, 11, true⟩, ⟨2, 12, true⟩]
  simCards := [⟨11, none⟩, ⟨12, some "+8613800138000"⟩]
  devices_key := by decide
  simCards_key := by decide

/-- **A hidden device.**  The row of device 1 comes first and has no number, so the handler
refuses although device 2 has one. -/
theorem numberless_sim_hides_device :
    ¬ ∀ (planner : Planner) (now : Nat) (db : Database) (campaignId : Nat),
      (∃ db' exc, selectDevice planner now db campaignId = (db', .error exc)) ↔
        ¬ ∃ (device : Device) (number : String), db.Offers campaignId device (some number) := by
  intro claim
  refine (claim stable 100 twoDevices 7).mp ⟨_, _, rfl⟩ ?_
  exact ⟨⟨2, .idle, some 5⟩, "+8613800138000", by decide, rfl, by decide, ⟨2, 12, true⟩, by decide,
    rfl, rfl, ⟨12, some "+8613800138000"⟩, by decide, rfl, rfl⟩

end IsalesTelephony.Api
