/-
# Theory.Broadcast -- channels that are heard by whoever is in them

Parties enter and leave channels, and each has a mailbox, which may be full.  `replay` is what
a log of their doings comes to where there is nothing but the parties: a post reaches every
other party that is in the channel the poster entered last and has room.

* `read_append_box`: what a party has read and what waits for it are what reached it;
* `reached_sublist`: and that is in the order of the log, whichever party is asked.
-/
import Mathlib.Logic.Function.Basic
import Mathlib.Data.List.Basic

namespace IsalesTelephony.Theory.Broadcast

set_option autoImplicit false

universe u v w

/-- What the parties do. -/
inductive Note (ι : Type u) (κ : Type v) (μ : Type w) where
  | enter (i : ι) (c : κ)
  | exit (i : ι)
  | post (i : ι) (m : μ)
  /-- a party's own item, for its own mailbox -/
  | put (i : ι) (m : μ)
  | take (i : ι)

structure Party (κ : Type v) (μ : Type w) where
  inside : Bool := false
  /-- the channel entered last -/
  channel : Option κ := none
  box : List μ := []
  /-- what was taken out of the mailbox -/
  read : List μ := []

variable {ι : Type u} {κ : Type v} {μ : Type w} [DecidableEq ι] [DecidableEq κ]

/-- `j` is where `i` posts, and is not `i`. -/
def Hears (s : ι → Party κ μ) (i j : ι) : Prop :=
  j ≠ i ∧ (s j).inside = true ∧ (s j).channel = (s i).channel

instance (s : ι → Party κ μ) (i j : ι) : Decidable (Hears s i j) :=
  inferInstanceAs (Decidable (_ ∧ _ ∧ _))

variable (full : ι → Nat → Bool)

/-- A post of `i` gets into the mailbox of `j`. -/
def Reaches (s : ι → Party κ μ) (i j : ι) : Prop :=
  Hears s i j ∧ full j (s j).box.length = false

instance (s : ι → Party κ μ) (i j : ι) : Decidable (Reaches full s i j) :=
  inferInstanceAs (Decidable (_ ∧ _))

def apply (s : ι → Party κ μ) : Note ι κ μ → ι → Party κ μ
  | .enter i c => Function.update s i { s i with inside := true, channel := some c }
  | .exit i => Function.update s i { s i with inside := false }
  | .post i m => fun j => if Reaches full s i j then { s j with box := (s j).box ++ [m] } else s j
  | .put i m => Function.update s i { s i with box := (s i).box ++ [m] }
  | .take i =>
      Function.update s i
        { s i with box := (s i).box.drop 1, read := (s i).read ++ (s i).box.take 1 }

def replay (s : ι → Party κ μ) (log : List (Note ι κ μ)) : ι → Party κ μ :=
  log.foldl (apply full) s

/-- What a note brings into the mailbox of `j`. -/
def arrives (s : ι → Party κ μ) (j : ι) : Note ι κ μ → List μ
  | .post i m => if Reaches full s i j then [m] else []
  | .put i m => if i = j then [m] else []
  | _ => []

/-- What came into the mailbox of `j`. -/
def reached (j : ι) : (ι → Party κ μ) → List (Note ι κ μ) → List μ
  | _, [] => []
  | s, note :: rest => arrives full s j note ++ reached j (apply full s note) rest

/-- What a note has for `j`, in its channel or not: a post of another party, or its own item. -/
def offers (j : ι) : Note ι κ μ → List μ
  | .post i m => if i = j then [] else [m]
  | .put i m => if i = j then [m] else []
  | _ => []

theorem arrives_sublist (s : ι → Party κ μ) (j : ι) (note : Note ι κ μ) :
    (arrives full s j note).Sublist (offers j note) := by
  cases note with
  | post i m =>
      show (if Reaches full s i j then [m] else []).Sublist (if i = j then [] else [m])
      split
      · rename_i reaches
        rw [if_neg (Ne.symm reaches.1.1)]
      · exact List.nil_sublist _
  | put i m => exact List.Sublist.refl _
  | enter i c => exact List.nil_sublist _
  | exit i => exact List.nil_sublist _
  | take i => exact List.nil_sublist _

/-- **One order for all.**  What reached a party are some of the posts of the others and of its own
items, in the order of the log. -/
theorem reached_sublist (j : ι) (s : ι → Party κ μ) (log : List (Note ι κ μ)) :
    (reached full j s log).Sublist (log.flatMap (offers j)) := by
  induction log generalizing s with
  | nil => exact List.Sublist.refl _
  | cons note rest ih =>
      rw [List.flatMap_cons]
      exact (arrives_sublist full s j note).append (ih _)

/-- One note, in the view of one party. -/
theorem read_append_box_apply (s : ι → Party κ μ) (j : ι) (note : Note ι κ μ) :
    (apply full s note j).read ++ (apply full s note j).box =
      (s j).read ++ (s j).box ++ arrives full s j note := by
  cases note with
  | enter i c =>
      by_cases same : j = i
      · subst same
        simp [apply, arrives]
      · simp [apply, arrives, same]
  | exit i =>
      by_cases same : j = i
      · subst same
        simp [apply, arrives]
      · simp [apply, arrives, same]
  | post i m =>
      by_cases reaches : Reaches full s i j
      · simp [apply, arrives, reaches]
      · simp [apply, arrives, reaches]
  | put i m =>
      by_cases same : j = i
      · subst same
        simp [apply, arrives]
      · simp [apply, arrives, same, Ne.symm same]
  | take i =>
      by_cases same : j = i
      · subst same
        simp [apply, arrives, -List.drop_one]
      · simp [apply, arrives, same]

/-- Nothing that reached a party is lost: it was read or waits, in order. -/
theorem read_append_box (j : ι) (s : ι → Party κ μ) (log : List (Note ι κ μ)) :
    (replay full s log j).read ++ (replay full s log j).box =
      (s j).read ++ (s j).box ++ reached full j s log := by
  induction log generalizing s with
  | nil => exact (List.append_nil _).symm
  | cons note rest ih =>
      show (replay full (apply full s note) rest j).read ++
        (replay full (apply full s note) rest j).box = _
      rw [ih, read_append_box_apply, reached, List.append_assoc]

theorem replay_append (s : ι → Party κ μ) (log later : List (Note ι κ μ)) :
    replay full s (log ++ later) = replay full (replay full s log) later :=
  List.foldl_append

end IsalesTelephony.Theory.Broadcast
