/-
# Theory.FileTable -- open files, their descriptors, and advisory locks

An opened file is a *description*: it is reached by a descriptor, which is a number of a
process, and it may hold the lock of the resource it was opened on.  A lock belongs to the
description and goes with it; a call by number reaches whatever description has the number
then.

That no two descriptions share a descriptor, that a lock has one holder, and that the holder
is open, are fields.  `place` and `holder` read a table; each operation says what it does to
both (`place_close`, `holder_release`, ...).
-/
import IsalesTelephony.Theory.Dict

namespace IsalesTelephony.Theory

set_option autoImplicit false

universe u v

theorem nodup_map_append {α : Type u} {β : Type v} {f : α → β} {xs : List α} {x : α}
    (apart : (xs.map f).Nodup) (fresh : f x ∉ xs.map f) : ((xs ++ [x]).map f).Nodup := by
  rw [List.map_append, List.nodup_append]
  refine ⟨apart, List.nodup_singleton _, fun old inOld new isNew same => fresh ?_⟩
  obtain rfl := List.mem_singleton.mp isNew
  exact same ▸ inOld

/-- A number of a process. -/
structure Descriptor where
  process : Nat
  number : Nat
  deriving DecidableEq, Repr

structure FileTable (ι : Type u) (φ : Type v) where
  /-- the open descriptions -/
  places : List (ι × Descriptor) := []
  locks : List (φ × ι) := []
  single : (places.map Prod.fst).Nodup := by exact List.nodup_nil
  apart : (places.map Prod.snd).Nodup := by exact List.nodup_nil
  owned : (locks.map Prod.fst).Nodup := by exact List.nodup_nil
  held : ∀ lock ∈ locks, lock.2 ∈ places.map Prod.fst := by exact List.forall_mem_nil _

namespace FileTable

variable {ι : Type u} {φ : Type v} [DecidableEq ι] [DecidableEq φ]

/-- The descriptor of a description that is open. -/
def place (f : FileTable ι φ) (i : ι) : Option Descriptor := f.places.lookup i

/-- The description that holds a lock. -/
def holder (f : FileTable ι φ) (x : φ) : Option ι := f.locks.lookup x

/-- `open`, with the descriptor the process is given. -/
def openAt (f : FileTable ι φ) (i : ι) (d : Descriptor) : Option (FileTable ι φ) :=
  if fresh : i ∉ f.places.map Prod.fst ∧ d ∉ f.places.map Prod.snd then
    some { f with
      places := f.places ++ [(i, d)]
      single := nodup_map_append f.single fresh.1
      apart := nodup_map_append f.apart fresh.2
      held := fun lock member => by
        rw [List.map_append]
        exact List.mem_append_left _ (f.held lock member) }
  else none

/-- The description is gone, and its locks with it. -/
def close (f : FileTable ι φ) (i : ι) : FileTable ι φ where
  places := f.places.filter fun entry => entry.1 ≠ i
  locks := f.locks.filter fun lock => lock.2 ≠ i
  single := f.single.sublist (List.filter_sublist.map _)
  apart := f.apart.sublist (List.filter_sublist.map _)
  owned := f.owned.sublist (List.filter_sublist.map _)
  held := fun lock member => by
    obtain ⟨old, other⟩ := List.mem_filter.mp member
    obtain ⟨entry, inPlaces, same⟩ := List.mem_map.mp (f.held lock old)
    refine List.mem_map.mpr ⟨entry, List.mem_filter.mpr ⟨inPlaces, ?_⟩, same⟩
    rw [same]
    exact other

/-- An open description takes the lock without waiting; `none` if another holds it. -/
def tryLock (f : FileTable ι φ) (x : φ) (i : ι) : Option (FileTable ι φ) :=
  if free : i ∈ f.places.map Prod.fst ∧ x ∉ f.locks.map Prod.fst then
    some { f with
      locks := f.locks ++ [(x, i)]
      owned := nodup_map_append f.owned free.2
      held := fun lock member => by
        rcases List.mem_append.mp member with old | new
        · exact f.held lock old
        · rw [List.mem_singleton.mp new]
          exact free.1 }
  else if f.holder x = some i then some f else none

/-- The locks of the description that a descriptor reaches, if any, are released. -/
def release (f : FileTable ι φ) (d : Descriptor) : FileTable ι φ :=
  { f with
    locks := f.locks.filter fun lock => f.place lock.2 ≠ some d
    owned := f.owned.sublist (List.filter_sublist.map _)
    held := fun lock member => f.held lock (List.mem_filter.mp member).1 }

/-! ## Reading a table -/

variable {f g : FileTable ι φ} {i j : ι} {x y : φ} {d e : Descriptor}

omit [DecidableEq φ] in
theorem place_iff : f.place i = some d ↔ (i, d) ∈ f.places :=
  ⟨Dict.mem_of_lookup, Dict.lookup_of_mem f.single⟩

omit [DecidableEq ι] in
theorem holder_iff : f.holder x = some i ↔ (x, i) ∈ f.locks :=
  ⟨Dict.mem_of_lookup, Dict.lookup_of_mem f.owned⟩

omit [DecidableEq φ] in
theorem isOpen_iff : i ∈ f.places.map Prod.fst ↔ ∃ d, f.place i = some d := by
  simp only [List.mem_map, Prod.exists, place_iff]
  exact ⟨fun ⟨_, d, member, same⟩ => ⟨d, same ▸ member⟩, fun ⟨d, member⟩ => ⟨i, d, member, rfl⟩⟩

/-- A holder is open. -/
theorem open_of_holder (holds : f.holder x = some i) : ∃ d, f.place i = some d :=
  isOpen_iff.mp (f.held _ (holder_iff.mp holds))

omit [DecidableEq φ] in
/-- A descriptor reaches one description. -/
theorem place_inj (first : f.place i = some d) (second : f.place j = some d) : i = j :=
  congrArg Prod.fst (List.inj_on_of_nodup_map f.apart (place_iff.mp first) (place_iff.mp second) rfl)

/-! ## What an operation does to a table -/

section
variable (opened : f.openAt i d = some g)

include opened

omit [DecidableEq φ] in
theorem openAt_cases : (i ∉ f.places.map Prod.fst ∧ d ∉ f.places.map Prod.snd) ∧
    g.places = f.places ++ [(i, d)] ∧ g.locks = f.locks := by
  unfold openAt at opened
  split at opened
  · rename_i fresh
    obtain rfl := Option.some.inj opened
    exact ⟨fresh, rfl, rfl⟩
  · cases opened

omit [DecidableEq φ] in
theorem place_openAt : g.place j = some e ↔ f.place j = some e ∨ j = i ∧ e = d := by
  simp only [place_iff, (openAt_cases opened).2.1, List.mem_append, List.mem_singleton,
    Prod.mk.injEq]

theorem holder_openAt : g.holder x = f.holder x := by
  unfold holder
  rw [(openAt_cases opened).2.2]

end

omit [DecidableEq φ] in
theorem place_close : (f.close i).place j = some d ↔ f.place j = some d ∧ j ≠ i := by
  simp [place_iff, close]

theorem holder_close : (f.close i).holder x = some j ↔ f.holder x = some j ∧ j ≠ i := by
  simp [holder_iff, close]

theorem holder_release :
    (f.release d).holder x = some j ↔ f.holder x = some j ∧ f.place j ≠ some d := by
  simp [holder_iff, release]

theorem place_tryLock (locked : f.tryLock x i = some g) : g.place j = f.place j := by
  unfold tryLock at locked
  split at locked
  · obtain rfl := Option.some.inj locked
    rfl
  · split at locked
    · obtain rfl := Option.some.inj locked
      rfl
    · cases locked

theorem holder_tryLock (locked : f.tryLock x i = some g) :
    g.holder y = some j ↔ f.holder y = some j ∨ y = x ∧ j = i := by
  unfold tryLock at locked
  split at locked
  · obtain rfl := Option.some.inj locked
    simp [holder_iff]
  · split at locked
    · rename_i holds
      obtain rfl := Option.some.inj locked
      refine ⟨.inl, fun either => either.elim id ?_⟩
      rintro ⟨rfl, rfl⟩
      exact holds
    · cases locked

/-- A lock is refused to all but its holder. -/
theorem tryLock_eq_none (isOpen : f.place i = some d) :
    f.tryLock x i = none ↔ ∃ j, j ≠ i ∧ f.holder x = some j := by
  have owner : x ∈ f.locks.map Prod.fst ↔ ∃ j, f.holder x = some j := by
    rw [← Dict.lookup_isSome_iff, Option.isSome_iff_exists]
    rfl
  unfold tryLock
  split
  · rename_i free
    exact ⟨nofun, fun ⟨j, _, holds⟩ => absurd (owner.mpr ⟨j, holds⟩) free.2⟩
  · rename_i taken
    have owned : x ∈ f.locks.map Prod.fst :=
      Decidable.not_not.mp fun free => taken ⟨isOpen_iff.mpr ⟨d, isOpen⟩, free⟩
    obtain ⟨j, holds⟩ := owner.mp owned
    rw [holds]
    split
    · rename_i same
      refine ⟨nofun, fun ⟨k, other, again⟩ => absurd ?_ other⟩
      exact (Option.some.inj again).symm.trans (Option.some.inj same)
    · rename_i other
      exact ⟨fun _ => ⟨j, fun same => other (congrArg some same), rfl⟩, fun _ => rfl⟩

end FileTable

end IsalesTelephony.Theory
