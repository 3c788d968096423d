/-
# Theory.Dict -- an insertion-ordered dictionary as its list of entries

A Python `dict` read through `List.lookup`: `put` replaces the value of a key
where it stands and appends a new key at the end, `erase` removes a key.  Each
changes one key only (`lookup_put`, `lookup_erase`) and keeps the keys apart
(`distinct_put`, `distinct_erase`).

`fill` is a run of assignments; of those to one key the last one counts
(`lookup_fill`).  `stale d other` are the entries that another dictionary does not
have; erasing those of the old and assigning those of the new makes the one the
other (`lookup_sync`).
-/
import Mathlib.Data.List.Nodup
import Mathlib.Data.List.Induction

namespace IsalesTelephony.Theory.Dict

set_option autoImplicit false

universe u v

variable {κ : Type u} {ν : Type v} [DecidableEq κ]

/-- `d.pop(k, None)`. -/
def erase (d : List (κ × ν)) (k : κ) : List (κ × ν) := d.filter fun e => e.1 ≠ k

/-- `d[k] = v`. -/
def put (d : List (κ × ν)) (k : κ) (v : ν) : List (κ × ν) :=
  if (d.lookup k).isSome then d.map fun e => if e.1 = k then (k, v) else e else d ++ [(k, v)]

theorem lookup_cons_ne (d : List (κ × ν)) {k other : κ} (v : ν) (ne : other ≠ k) :
    ((k, v) :: d).lookup other = d.lookup other := by
  have unequal : (other == k) = false := by simpa using ne
  simp [List.lookup_cons, unequal]

theorem lookup_erase (d : List (κ × ν)) (k other : κ) :
    (erase d k).lookup other = if other = k then none else d.lookup other := by
  induction d with
  | nil => simp [erase]
  | cons e rest ih =>
      obtain ⟨head, value⟩ := e
      unfold erase at ih ⊢
      by_cases gone : head = k
      · subst gone
        by_cases same : other = head
        · simpa [same] using ih
        · simpa [same, lookup_cons_ne _ _ same] using ih
      · by_cases same : other = head
        · subst same
          simp [gone]
        · simpa [gone, lookup_cons_ne _ _ same] using ih

theorem lookup_erase_ne (d : List (κ × ν)) {k other : κ} (ne : other ≠ k) :
    (erase d k).lookup other = d.lookup other := by
  simp [lookup_erase, ne]

theorem lookup_replace (d : List (κ × ν)) (k other : κ) (v : ν) :
    (d.map fun e => if e.1 = k then (k, v) else e).lookup other =
      if other = k then (d.lookup k).map fun _ => v else d.lookup other := by
  induction d with
  | nil => simp
  | cons e rest ih =>
      obtain ⟨head, value⟩ := e
      by_cases here : head = k
      · subst here
        by_cases same : other = head
        · simp [same]
        · simpa [same, lookup_cons_ne _ _ same] using ih
      · by_cases same : other = head
        · subst same
          simp [here]
        · simpa [here, lookup_cons_ne _ _ same, lookup_cons_ne _ _ (Ne.symm here)] using ih

/-- An assignment changes the key it names and no other. -/
theorem lookup_put (d : List (κ × ν)) (k other : κ) (v : ν) :
    (put d k v).lookup other = if other = k then some v else d.lookup other := by
  unfold put
  split
  · rename_i present
    obtain ⟨old, found⟩ := Option.isSome_iff_exists.mp present
    simp [lookup_replace, found]
  · rename_i absent
    have unbound : d.lookup k = none := Option.not_isSome_iff_eq_none.mp absent
    by_cases same : other = k
    · subst same
      simp [List.lookup_append, unbound]
    · simp [List.lookup_append, lookup_cons_ne _ _ same, same]

@[simp] theorem lookup_put_self (d : List (κ × ν)) (k : κ) (v : ν) :
    (put d k v).lookup k = some v := by
  simp [lookup_put]

theorem lookup_put_ne (d : List (κ × ν)) {k other : κ} (v : ν) (ne : other ≠ k) :
    (put d k v).lookup other = d.lookup other := by
  simp [lookup_put, ne]

/-- A dictionary without entries is one that finds nothing. -/
theorem eq_nil_of_lookup {d : List (κ × ν)} (empty : ∀ k, d.lookup k = none) : d = [] := by
  cases d with
  | nil => rfl
  | cons e rest =>
      have found : (e :: rest).lookup e.1 = some e.2 := List.lookup_cons_self
      rw [empty] at found
      cases found

/-! ## Keys -/

/-- No key has two entries. -/
def Distinct (d : List (κ × ν)) : Prop := (d.map Prod.fst).Nodup

variable {d : List (κ × ν)} {k : κ} {v : ν}

omit [DecidableEq κ] in
theorem distinct_nil : Distinct ([] : List (κ × ν)) := List.nodup_nil

theorem lookup_isSome_iff (d : List (κ × ν)) (k : κ) :
    (d.lookup k).isSome = true ↔ k ∈ d.map Prod.fst := by
  induction d with
  | nil => simp
  | cons e rest ih =>
      obtain ⟨head, value⟩ := e
      by_cases same : k = head
      · simp [same]
      · rw [lookup_cons_ne _ _ same, ih]
        simp [same]

theorem lookup_of_mem (distinct : Distinct d) (member : (k, v) ∈ d) : d.lookup k = some v := by
  induction d with
  | nil => cases member
  | cons e rest ih =>
      obtain ⟨head, value⟩ := e
      obtain ⟨fresh, later⟩ := List.nodup_cons.mp distinct
      rcases List.mem_cons.mp member with same | inRest
      · cases same
        exact List.lookup_cons_self
      · have ne : k ≠ head := by
          rintro rfl
          exact fresh (List.mem_map.mpr ⟨_, inRest, rfl⟩)
        rw [lookup_cons_ne _ _ ne, ih later inRest]

theorem mem_of_lookup (found : d.lookup k = some v) : (k, v) ∈ d := by
  induction d with
  | nil => cases found
  | cons e rest ih =>
      obtain ⟨head, value⟩ := e
      by_cases same : k = head
      · subst same
        obtain rfl := Option.some.inj (List.lookup_cons_self.symm.trans found)
        exact List.mem_cons_self
      · rw [lookup_cons_ne _ _ same] at found
        exact List.mem_cons_of_mem _ (ih found)

theorem keys_put (d : List (κ × ν)) (k : κ) (v : ν) :
    (put d k v).map Prod.fst =
      if (d.lookup k).isSome then d.map Prod.fst else d.map Prod.fst ++ [k] := by
  unfold put
  split
  · rw [List.map_map]
    refine List.map_congr_left fun e _ => ?_
    by_cases same : e.1 = k <;> simp [same]
  · simp

theorem distinct_put (distinct : Distinct d) (k : κ) (v : ν) : Distinct (put d k v) := by
  rw [Distinct, keys_put]
  split
  · exact distinct
  · rename_i absent
    rw [lookup_isSome_iff] at absent
    exact List.nodup_append.mpr ⟨distinct, List.nodup_singleton k, by
      intro key member _ rfl_
      obtain rfl := List.mem_singleton.mp rfl_
      rintro rfl
      exact absent member⟩

theorem mem_put {e : κ × ν} (member : e ∈ put d k v) : e = (k, v) ∨ e ∈ d := by
  unfold put at member
  split at member
  · obtain ⟨old, inDict, rfl⟩ := List.mem_map.mp member
    split
    · exact .inl rfl
    · exact .inr inDict
  · exact (List.mem_append.mp member).elim .inr fun last => .inl (List.mem_singleton.mp last)

theorem distinct_erase (distinct : Distinct d) (k : κ) : Distinct (erase d k) :=
  List.Nodup.sublist (List.filter_sublist.map Prod.fst) distinct

/-- Assigning what is there changes nothing. -/
theorem put_self (distinct : Distinct d) (found : d.lookup k = some v) : put d k v = d := by
  rw [put, if_pos (by rw [found]; rfl)]
  refine (List.map_congr_left fun e member => ?_).trans (List.map_id d)
  split
  · rename_i same
    subst same
    obtain rfl := Option.some.inj (found.symm.trans (lookup_of_mem distinct member))
    rfl
  · rfl

theorem lookup_map {μ : Type v} (f : ν → μ) (d : List (κ × ν)) (k : κ) :
    (d.map fun e => (e.1, f e.2)).lookup k = (d.lookup k).map f := by
  induction d with
  | nil => rfl
  | cons e rest ih =>
      obtain ⟨head, value⟩ := e
      by_cases same : k = head
      · simp [same]
      · rw [List.map_cons, lookup_cons_ne _ _ same, lookup_cons_ne _ _ same, ih]

/-! ## Runs of assignments -/

/-- `for k, v in entries: d[k] = v`. -/
def fill (d entries : List (κ × ν)) : List (κ × ν) := entries.foldl (fun d e => put d e.1 e.2) d

theorem distinct_fill (distinct : Distinct d) (entries : List (κ × ν)) : Distinct (fill d entries) := by
  induction entries generalizing d with
  | nil => exact distinct
  | cons e rest ih => exact ih (distinct_put distinct _ _)

/-- The last assignment to a key counts. -/
theorem lookup_fill (d entries : List (κ × ν)) (k : κ) :
    (fill d entries).lookup k = (entries.reverse.lookup k).or (d.lookup k) := by
  induction entries using List.reverseRecOn with
  | nil => rfl
  | append_singleton rest e ih =>
      obtain ⟨head, value⟩ := e
      have last : fill d (rest ++ [(head, value)]) = put (fill d rest) head value := by simp [fill]
      rw [last, lookup_put, ih, List.reverse_append, List.reverse_singleton, List.singleton_append]
      by_cases same : k = head
      · simp [same]
      · rw [if_neg same, lookup_cons_ne _ _ same]

theorem mem_of_mem_fill {entries : List (κ × ν)} {e : κ × ν} (member : e ∈ fill [] entries) :
    e ∈ entries := by
  have distinct : Distinct (fill [] entries) := distinct_fill distinct_nil entries
  have found := lookup_of_mem distinct (show (e.1, e.2) ∈ _ from member)
  rw [lookup_fill, List.lookup_nil, Option.or_none] at found
  exact List.mem_reverse.mp (mem_of_lookup found)

/-- Assigning new keys appends them. -/
theorem fill_append {entries : List (κ × ν)} (distinct : Distinct (d ++ entries)) :
    fill d entries = d ++ entries := by
  induction entries generalizing d with
  | nil => simp [fill]
  | cons e rest ih =>
      have fresh : ¬(d.lookup e.1).isSome = true := by
        rw [lookup_isSome_iff]
        intro member
        rw [Distinct, List.map_append, List.map_cons] at distinct
        exact (List.nodup_append.mp distinct).2.2 _ member _ List.mem_cons_self rfl
      have put_ : put d e.1 e.2 = d ++ [e] := if_neg fresh
      show fill (put d e.1 e.2) rest = _
      rw [put_, ih (by rwa [List.append_assoc])]
      simp

/-! ## Differences -/

/-- The entries that the other dictionary does not have. -/
def stale [DecidableEq ν] (d other : List (κ × ν)) : List (κ × ν) :=
  d.filter fun e => other.lookup e.1 ≠ some e.2

/-- Erase some keys, one after the other. -/
def eraseAll (d : List (κ × ν)) (keys : List κ) : List (κ × ν) := keys.foldl erase d

theorem lookup_eraseAll (d : List (κ × ν)) (keys : List κ) (k : κ) :
    (eraseAll d keys).lookup k = if k ∈ keys then none else d.lookup k := by
  induction keys generalizing d with
  | nil => simp [eraseAll]
  | cons head rest ih =>
      show (eraseAll (erase d head) rest).lookup k = _
      rw [ih, lookup_erase]
      by_cases same : k = head
      · simp [same]
      · simp [same]

theorem lookup_reverse (distinct : Distinct d) (k : κ) : d.reverse.lookup k = d.lookup k := by
  have reversed : Distinct d.reverse := by
    rw [Distinct, List.map_reverse]
    exact List.nodup_reverse.mpr distinct
  cases found : d.lookup k with
  | some v => exact lookup_of_mem reversed (List.mem_reverse.mpr (mem_of_lookup found))
  | none =>
      cases other : d.reverse.lookup k with
      | none => rfl
      | some v =>
          have member := List.mem_reverse.mp (mem_of_lookup other)
          rw [lookup_of_mem distinct member] at found
          cases found

variable [DecidableEq ν] {prev curr : List (κ × ν)}

theorem distinct_stale (distinct : Distinct d) (other : List (κ × ν)) : Distinct (stale d other) :=
  List.Nodup.sublist (List.filter_sublist.map Prod.fst) distinct

theorem lookup_stale (distinct : Distinct d) (other : List (κ × ν)) (k : κ) :
    (stale d other).lookup k = (d.lookup k).filter fun v => other.lookup k ≠ some v := by
  cases found : d.lookup k with
  | none =>
      cases kept : (stale d other).lookup k with
      | none => rfl
      | some v =>
          have member := (List.mem_filter.mp (mem_of_lookup kept)).1
          rw [lookup_of_mem distinct member] at found
          cases found
  | some v =>
      by_cases same : other.lookup k = some v
      · cases kept : (stale d other).lookup k with
        | none => simp [same, Option.filter]
        | some w =>
            obtain ⟨member, differs⟩ := List.mem_filter.mp (mem_of_lookup kept)
            rw [lookup_of_mem distinct member] at found
            obtain rfl := Option.some.inj found
            exact absurd same (of_decide_eq_true differs)
      · have member : (k, v) ∈ stale d other :=
          List.mem_filter.mpr ⟨mem_of_lookup found, decide_eq_true same⟩
        rw [lookup_of_mem (distinct_stale distinct other) member]
        simp [same, Option.filter]

/-- A key has a stale entry if its value is not the other's. -/
theorem mem_keys_stale (distinct : Distinct d) (other : List (κ × ν)) (k : κ) :
    k ∈ (stale d other).map Prod.fst ↔ ∃ v, d.lookup k = some v ∧ other.lookup k ≠ some v := by
  rw [← lookup_isSome_iff, lookup_stale distinct]
  cases d.lookup k with
  | none => simp
  | some v => simp

/-- Some entry of a key differs exactly if its values do. -/
theorem keys_stale_iff (old : Distinct prev) (new : Distinct curr) (k : κ) :
    k ∈ (stale prev curr).map Prod.fst ++ (stale curr prev).map Prod.fst ↔
      prev.lookup k ≠ curr.lookup k := by
  rw [List.mem_append, mem_keys_stale old, mem_keys_stale new]
  cases prev.lookup k <;> cases curr.lookup k <;> simp [eq_comm]

/-- Erasing what is stale and assigning what is new, in a dictionary of what is read off the
values. -/
theorem lookup_sync {μ : Type v} (f : ν → μ) {base : List (κ × μ)} (old : Distinct prev)
    (new : Distinct curr) (reads : ∀ k, base.lookup k = (prev.lookup k).map f) (k : κ) :
    (fill (eraseAll base ((stale prev curr).map Prod.fst))
      ((stale curr prev).map fun e => (e.1, f e.2))).lookup k = (curr.lookup k).map f := by
  have apart : Distinct ((stale curr prev).map fun e => (e.1, f e.2)) := by
    simpa [Distinct, Function.comp_def] using distinct_stale new prev
  rw [lookup_fill, lookup_reverse apart, lookup_map, lookup_stale new, lookup_eraseAll, reads]
  simp only [mem_keys_stale old]
  cases present : curr.lookup k with
  | none =>
      cases prev.lookup k with
      | none => simp
      | some v => simp
  | some c =>
      by_cases same : prev.lookup k = some c
      · simp [same, Option.filter]
      · simp [same, Option.filter]

end IsalesTelephony.Theory.Dict
