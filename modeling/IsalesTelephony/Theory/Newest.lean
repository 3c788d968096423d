/-
# Theory.Newest -- what is kept of a keyed log when the oldest entries go

A log lists the entries that were put under each key, newest first, each key once.  At least
its first `n` are kept (`Keeps`), which a put and a trim preserve, and a trim that nothing
resists leaves the first `n` only (`Keeps.take`).

What is kept is found again in whatever order it is listed, by its stamps (`newestFirst_eq`).
-/
import IsalesTelephony.Theory.Dict
import Mathlib.Order.Defs.LinearOrder
import Mathlib.Data.List.Sort

namespace IsalesTelephony.Theory.Newest

set_option autoImplicit false

universe u v w

variable {κ : Type u} {ν : Type v} [DecidableEq κ] {log l d : List (κ × ν)} {n : Nat}

/-- The log after an entry is put. -/
def push (log : List (κ × ν)) (k : κ) (v : ν) : List (κ × ν) := (k, v) :: Dict.erase log k

theorem lookup_push (log : List (κ × ν)) (k other : κ) (v : ν) :
    (push log k v).lookup other = if other = k then some v else log.lookup other := by
  by_cases same : other = k
  · simp [push, same]
  · rw [push, Dict.lookup_cons_ne _ _ same, Dict.lookup_erase_ne _ same, if_neg same]

theorem distinct_push (distinct : Dict.Distinct log) (k : κ) (v : ν) :
    Dict.Distinct (push log k v) := by
  refine List.nodup_cons.mpr ⟨fun member => ?_, Dict.distinct_erase distinct k⟩
  obtain ⟨e, kept, same⟩ := List.mem_map.mp member
  exact (by simpa using (List.mem_filter.mp kept).2 : e.1 ≠ k) same

/-- A put changes a dictionary as it does the log, up to order. -/
theorem perm_put (distinct : Dict.Distinct d) (k : κ) (v : ν) :
    (Dict.put d k v).Perm (push d k v) := by
  have putDistinct := Dict.distinct_put distinct k v
  have pushDistinct := distinct_push distinct k v
  refine (List.perm_ext_iff_of_nodup putDistinct.of_map pushDistinct.of_map).mpr fun e => ?_
  have lookups : (Dict.put d k v).lookup e.1 = (push d k v).lookup e.1 := by
    rw [Dict.lookup_put, lookup_push]
  constructor
  · intro member
    exact Dict.mem_of_lookup (lookups ▸ Dict.lookup_of_mem putDistinct member)
  · intro member
    exact Dict.mem_of_lookup (lookups ▸ Dict.lookup_of_mem pushDistinct member)

theorem perm_push (same : d.Perm l) (k : κ) (v : ν) : (push d k v).Perm (push l k v) :=
  (same.filter _).cons _

/-! ## What is kept -/

/-- The first `n` of the log are kept, and no others than the log's. -/
structure Keeps (n : Nat) (log l : List (κ × ν)) : Prop where
  first : log.take n <+: l
  sub : l.Sublist log

omit [DecidableEq κ] in
theorem keeps_refl (n : Nat) (log : List (κ × ν)) : Keeps n log log :=
  ⟨List.take_prefix n log, List.Sublist.refl log⟩

omit [DecidableEq κ] in
theorem Keeps.take (keeps : Keeps n log l) : l.take n = log.take n := by
  obtain ⟨⟨rest, rfl⟩, sub⟩ := keeps
  rcases Nat.le_total n log.length with short | long
  · rw [List.take_append_of_le_length (by simp [short]), List.take_take, Nat.min_self]
  · rw [List.take_of_length_le long] at sub ⊢
    have none_ : rest = [] := by
      have := sub.length_le
      rw [List.length_append] at this
      exact List.length_eq_zero_iff.mp (by omega)
    rw [none_, List.append_nil, List.take_of_length_le long]

/-- Erasing a key takes one entry at most from the front of the log. -/
theorem take_erase_start (distinct : Dict.Distinct log) (k : κ) (n : Nat) :
    (Dict.erase log k).take n <+: Dict.erase (log.take (n + 1)) k := by
  induction log generalizing n with
  | nil => simp [Dict.erase]
  | cons e rest ih =>
      obtain ⟨absent, others⟩ := List.nodup_cons.mp distinct
      by_cases gone : e.1 = k
      · subst gone
        have absent' : e.1 ∉ (rest.take n).map Prod.fst := fun member =>
          absent (List.map_subset _ (List.take_subset n rest) member)
        have erased : ∀ {l : List (κ × ν)}, e.1 ∉ l.map Prod.fst → Dict.erase (e :: l) e.1 = l := by
          intro l not
          refine (List.filter_cons_of_neg (by simp)).trans (List.filter_eq_self.mpr fun x member => ?_)
          have other : x.1 ≠ e.1 := fun same => not (same ▸ List.mem_map_of_mem member)
          simpa using other
        have same : (Dict.erase (e :: rest) e.1).take n =
            Dict.erase ((e :: rest).take (n + 1)) e.1 := by
          rw [erased absent, List.take_succ_cons, erased absent']
        exact ⟨[], by rw [List.append_nil, same]⟩
      · have kept : ∀ l : List (κ × ν), Dict.erase (e :: l) k = e :: Dict.erase l k := fun l =>
          List.filter_cons_of_pos (by simpa using gone)
        rw [kept, List.take_succ_cons, kept]
        cases n with
        | zero => exact List.nil_prefix
        | succ n =>
            rw [List.take_succ_cons]
            exact (List.prefix_cons_inj e).mpr (ih others n)

theorem keeps_push (distinct : Dict.Distinct log) (keeps : Keeps (n + 1) log l) (k : κ) (v : ν) :
    Keeps (n + 1) (push log k v) (push l k v) := by
  refine ⟨?_, (keeps.sub.filter _).cons_cons _⟩
  rw [push, List.take_succ_cons]
  exact List.prefix_cons_inj _ |>.mpr
    ((take_erase_start distinct k n).trans (keeps.first.filter _))

/-- A trim, which some of the oldest resist. -/
def trim (n : Nat) (l : List (κ × ν)) (resists : κ × ν → Bool) : List (κ × ν) :=
  l.take n ++ (l.drop n).filter resists

omit [DecidableEq κ] in
theorem keeps_trim (keeps : Keeps n log l) (resists : κ × ν → Bool) :
    Keeps n log (trim n l resists) := by
  refine ⟨?_, List.Sublist.trans ?_ keeps.sub⟩
  · rw [trim, keeps.take]
    exact List.prefix_append _ _
  · rw [trim]
    conv_rhs => rw [← List.take_append_drop n l]
    exact (List.Sublist.refl _).append List.filter_sublist

/-- Deleting those after the first `n` by their keys, but for the ones that resist, trims. -/
theorem filter_eq_trim (distinct : Dict.Distinct l) (n : Nat) (resists : κ × ν → Bool) :
    (l.filter fun e => resists e || !((l.drop n).map Prod.fst).contains e.1) = trim n l resists := by
  have apart : ∀ e ∈ l.take n, e.1 ∉ (l.drop n).map Prod.fst := by
    intro e first later
    have split : ((l.take n).map Prod.fst ++ (l.drop n).map Prod.fst).Nodup := by
      rw [← List.map_append, List.take_append_drop]
      exact distinct
    exact (List.nodup_append.mp split).2.2 _ (List.mem_map_of_mem first) _ later rfl
  have halves : ∀ p : κ × ν → Bool, l.filter p = (l.take n).filter p ++ (l.drop n).filter p := by
    intro p
    rw [← List.filter_append, List.take_append_drop]
  rw [halves, trim]
  congr 1
  · refine List.filter_eq_self.mpr fun e first => ?_
    have absent : ((l.drop n).map Prod.fst).contains e.1 = false := by simpa using apart e first
    rw [absent]
    exact Bool.or_true _
  · refine List.filter_congr fun e later => ?_
    have listed : ((l.drop n).map Prod.fst).contains e.1 = true :=
      List.contains_iff_mem.mpr (List.mem_map_of_mem later)
    rw [listed]
    exact Bool.or_false _

/-! ## In any order -/

section Stamps

variable {α : Type u} {τ : Type w} [LinearOrder τ] (stamp : α → τ) {d l : List α}

/-- Newest first. -/
def Descending (l : List α) : Prop := l.Pairwise fun a b => stamp b < stamp a

/-- `sorted(l, key=stamp, reverse=True)`, which leaves equal stamps in their order. -/
def newestFirst (l : List α) : List α := l.insertionSort fun a b => stamp b ≤ stamp a

theorem newestFirst_eq (same : d.Perm l) (descending : Descending stamp l) :
    newestFirst stamp d = l := by
  have total : Std.Total fun a b : α => stamp b ≤ stamp a := ⟨fun a b => le_total _ _⟩
  have trans : IsTrans α fun a b => stamp b ≤ stamp a := ⟨fun _ _ _ first later => later.trans first⟩
  have apart : (l.map stamp).Nodup :=
    List.pairwise_map.mpr (descending.imp fun older => ne_of_gt older)
  have listed : (newestFirst stamp d).Perm l := (List.perm_insertionSort _ d).trans same
  refine List.Perm.eq_of_pairwise ?_ (List.pairwise_insertionSort _ d) (descending.imp le_of_lt)
    listed
  intro a b here there first later
  exact List.inj_on_of_nodup_map apart (listed.mem_iff.mp here) there (le_antisymm later first)

end Stamps

end IsalesTelephony.Theory.Newest
