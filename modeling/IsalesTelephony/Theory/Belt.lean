/-
# Theory.Belt -- a queue whose items leave in one of two ways

Items join at the tail and leave at the head, each because it was taken or because it was
dropped.  A `Belt` is the account of such a queue: what joined, what left and how, and what
is still queued, where what left and what is queued are together what joined, in order.

* `left_sublist`: those that left one way did so in the order they joined;
* `left_leave`, `left_leave_of_ne`: who leaves one way is added there and nowhere else;
* `Feeds`: of two belts in a row what is taken from the second, or is on either, joined the
  first, in order, and is all of it where neither dropped anything.
-/
import Mathlib.Data.List.Forall2

namespace IsalesTelephony.Theory

set_option autoImplicit false

universe u v

/-- How an item left. -/
inductive Exit where
  | taken
  | dropped
  deriving DecidableEq, Repr

theorem empty_in_order {α : Type u} : ([] : List (Exit × α)).map (·.2) ++ [] = ([] : List α) := rfl

structure Belt (α : Type u) where
  joined : List α := []
  gone : List (Exit × α) := []
  queued : List α := []
  inOrder : gone.map (·.2) ++ queued = joined := by exact empty_in_order

namespace Belt

variable {α : Type u}

def join (b : Belt α) (a : α) : Belt α where
  joined := b.joined ++ [a]
  gone := b.gone
  queued := b.queued ++ [a]
  inOrder := by rw [← List.append_assoc, b.inOrder]

/-- The first `n` of the queue leave. -/
def leave (b : Belt α) (exit : Exit) (n : Nat) : Belt α where
  joined := b.joined
  gone := b.gone ++ (b.queued.take n).map (exit, ·)
  queued := b.queued.drop n
  inOrder := by
    have same : ((b.queued.take n).map ((exit, ·) : α → Exit × α)).map (·.2) = b.queued.take n := by
      rw [List.map_map]
      exact List.map_id _
    rw [List.map_append, same, List.append_assoc, List.take_append_drop, b.inOrder]

/-- What left one way, in order. -/
def left (b : Belt α) (exit : Exit) : List α :=
  (b.gone.filter fun item => item.1 = exit).map (·.2)

variable (b : Belt α) (exit other : Exit) (a : α) (n : Nat)

@[simp] theorem joined_join : (b.join a).joined = b.joined ++ [a] := rfl

@[simp] theorem gone_join : (b.join a).gone = b.gone := rfl

@[simp] theorem queued_join : (b.join a).queued = b.queued ++ [a] := rfl

@[simp] theorem left_join : (b.join a).left exit = b.left exit := rfl

@[simp] theorem joined_leave : (b.leave exit n).joined = b.joined := rfl

@[simp] theorem queued_leave : (b.leave exit n).queued = b.queued.drop n := rfl

theorem gone_leave : (b.leave exit n).gone = b.gone ++ (b.queued.take n).map (exit, ·) := rfl

theorem left_tagged (items : List α) :
    ((items.map ((exit, ·) : α → Exit × α)).filter fun item => item.1 = other).map (·.2) =
      if exit = other then items else [] := by
  induction items with
  | nil => split <;> rfl
  | cons a rest ih =>
      by_cases same : exit = other
      · simp [same] at ih ⊢
        exact ih
      · simp [same]

@[simp] theorem left_leave : (b.leave exit n).left exit = b.left exit ++ b.queued.take n := by
  rw [left, gone_leave, List.filter_append, List.map_append, left_tagged, if_pos rfl]
  rfl

theorem left_leave_of_ne (ne : exit ≠ other) : (b.leave exit n).left other = b.left other := by
  rw [left, gone_leave, List.filter_append, List.map_append, left_tagged, if_neg ne,
    List.append_nil]
  rfl

/-- What left one way did so in the order it joined. -/
theorem left_sublist : (b.left exit).Sublist b.joined := by
  have gone : (b.left exit).Sublist (b.gone.map (·.2)) := List.filter_sublist.map _
  rw [← b.inOrder]
  exact gone.trans (List.sublist_append_left _ _)

/-- What left one way and what is queued did so in the order it joined. -/
theorem left_queued_sublist : (b.left exit ++ b.queued).Sublist b.joined := by
  have gone : (b.left exit).Sublist (b.gone.map (·.2)) := List.filter_sublist.map _
  rw [← b.inOrder]
  exact gone.append (List.Sublist.refl b.queued)

/-- Everything that joined was taken, was dropped, or is queued. -/
theorem length_joined :
    b.joined.length = (b.left .taken).length + (b.left .dropped).length + b.queued.length := by
  have ways : ∀ gone : List (Exit × α), gone.length =
      (gone.filter fun item => item.1 = .taken).length +
        (gone.filter fun item => item.1 = .dropped).length := by
    intro gone
    induction gone with
    | nil => rfl
    | cons item rest ih =>
        rcases item with ⟨_ | _, a⟩
        · simp [ih]
          omega
        · simp [ih]
          omega
  rw [← b.inOrder, List.length_append, List.length_map, ways b.gone, left, left, List.length_map,
    List.length_map]

/-- Where nothing was dropped everything is there. -/
theorem joined_of_kept (kept : b.left .dropped = []) : b.left .taken ++ b.queued = b.joined := by
  refine (b.left_queued_sublist .taken).eq_of_length ?_
  rw [b.length_joined, kept, List.length_append, List.length_nil, Nat.add_zero]

/-! ## Belts in a row -/

/-- A part of what some items became is what a part of them became. -/
theorem sublistForall₂_of_part {β : Type v} {R : α → β → Prop} {as as' : List α} {bs bs' : List β}
    (became : List.Forall₂ R as bs) (part : bs'.Sublist bs) (among : as.Sublist as') :
    List.SublistForall₂ (fun b a => R a b) bs' as' := by
  induction became generalizing bs' as' with
  | nil =>
      rw [List.eq_nil_of_sublist_nil part]
      exact .nil
  | @cons a b as bs here later ih =>
      have rest : as.Sublist as' := (List.sublist_cons_self a as).trans among
      cases part with
      | cons _ part => exact ih part rest
      | @cons_cons bs' _ _ part =>
          have tail := ih part (List.Sublist.refl as)
          obtain ⟨found, same, inside⟩ := List.sublistForall₂_iff.mp tail
          exact List.sublistForall₂_iff.mpr
            ⟨a :: found, .cons here same, (inside.cons_cons a).trans among⟩

section
variable {β : Type v} {f : α → Option β} {b : Belt α} {c : Belt β}

/-- What joined the second belt is what was taken from the first, as `f` makes it. -/
def Feeds (f : α → Option β) (b : Belt α) (c : Belt β) : Prop :=
  c.joined = (b.left .taken).filterMap f

theorem Feeds.sublist (feeds : Feeds f b c) :
    (c.left .taken ++ c.queued ++ b.queued.filterMap f).Sublist (b.joined.filterMap f) := by
  have second : (c.left .taken ++ c.queued).Sublist ((b.left .taken).filterMap f) :=
    feeds ▸ c.left_queued_sublist .taken
  have first := (b.left_queued_sublist .taken).filterMap f
  rw [List.filterMap_append] at first
  exact (second.append (List.Sublist.refl _)).trans first

theorem Feeds.whole (feeds : Feeds f b c) (kept : b.left .dropped = []) (kept' : c.left .dropped = []) :
    c.left .taken ++ c.queued ++ b.queued.filterMap f = b.joined.filterMap f := by
  have joined : c.joined = (b.left .taken).filterMap f := feeds
  rw [c.joined_of_kept kept', joined, ← List.filterMap_append, b.joined_of_kept kept]

end

end Belt

end IsalesTelephony.Theory
