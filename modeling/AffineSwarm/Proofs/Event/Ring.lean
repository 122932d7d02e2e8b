import AffineSwarm.Event.Ring

/-!
# The ring is a bounded list

`Represents r xs` says what a ring of slots stands for: from its head on, wrapping round
at the end, the slots hold the elements of `xs` and nothing after them. Adding and taking
elements of a ring is then appending to and taking from the front of a list that never
grows past the capacity (`Represents.push`, `Represents.pop`, `Represents.drain`), and
`Ring.toList` is that list (`Represents.toList_eq`).
-/

namespace AffineSwarm.Ring

variable {α : Type} {r : Ring α} {xs : List α}

-- ---------------------------------------------------------------------------
-- Places
-- ---------------------------------------------------------------------------

/-- A place is found by wrapping round at most once. -/
theorem place_eq {offset : Nat} (hhead : r.head < r.capacity) (hlt : offset < r.capacity) :
    r.place offset =
      if r.head + offset < r.capacity then r.head + offset
      else r.head + offset - r.capacity := by
  rw [place]
  split
  · rename_i h
    exact Nat.mod_eq_of_lt h
  · rename_i h
    rw [Nat.mod_eq_sub_mod (by omega), Nat.mod_eq_of_lt (by omega)]

theorem place_lt {offset : Nat} (hhead : r.head < r.capacity) : r.place offset < r.capacity :=
  Nat.mod_lt _ (Nat.zero_lt_of_lt hhead)

theorem place_zero (hhead : r.head < r.capacity) : r.place 0 = r.head :=
  Nat.mod_eq_of_lt hhead

/-- Different offsets are different places. -/
theorem place_inj {i j : Nat} (hhead : r.head < r.capacity) (hi : i < r.capacity)
    (hj : j < r.capacity) (heq : r.place i = r.place j) : i = j := by
  rw [place_eq hhead hi, place_eq hhead hj] at heq
  split at heq <;> split at heq <;> omega

@[simp] theorem capacity_push (r : Ring α) (a : α) : (r.push a).2.capacity = r.capacity := by
  rw [push]
  split
  · rfl
  · exact List.length_set ..

@[simp] theorem capacity_pop (r : Ring α) : r.pop.2.capacity = r.capacity := by
  rw [pop]
  split
  · rfl
  · exact List.length_set ..

-- ---------------------------------------------------------------------------
-- What a ring stands for
-- ---------------------------------------------------------------------------

/-- A ring that stands for a list. The slot at an offset holds the element with that
index, and is free if there is none. -/
structure Represents (r : Ring α) (xs : List α) : Prop where
  head_lt : r.head < r.capacity
  length_eq : r.length = xs.length
  length_le : xs.length ≤ r.capacity
  slot : ∀ offset < r.capacity, r.slots[r.place offset]? = some xs[offset]?

theorem represents_empty (capacity : Nat) : (empty capacity : Ring α).Represents [] where
  head_lt := by
    simp only [Ring.capacity, empty, List.length_replicate]
    omega
  length_eq := rfl
  length_le := Nat.zero_le _
  slot offset hlt := by
    have hplace : (empty capacity : Ring α).place offset < max capacity 1 := by
      simp only [place, Ring.capacity, empty, List.length_replicate]
      exact Nat.mod_lt _ (by omega)
    exact List.getElem?_replicate_of_lt hplace

/-- What the indices of a list give, in order, is the list. -/
theorem filterMap_range {f : Nat → Option α} (h : ∀ i < xs.length, f i = xs[i]?) :
    (List.range xs.length).filterMap f = xs := by
  induction xs generalizing f with
  | nil => rfl
  | cons x xs ih =>
    have hrest : ∀ i < xs.length, (f ∘ Nat.succ) i = xs[i]? := fun i hlt =>
      h (i + 1) (Nat.succ_lt_succ hlt)
    rw [List.length_cons, List.range_succ_eq_map,
      List.filterMap_cons_some (h 0 (Nat.zero_lt_succ _)), List.filterMap_map, ih hrest]

theorem Represents.toList_eq (h : r.Represents xs) : r.toList = xs := by
  rw [toList, h.length_eq]
  refine filterMap_range fun i hlt => ?_
  rw [h.slot i (Nat.lt_of_lt_of_le hlt h.length_le)]
  rfl

-- ---------------------------------------------------------------------------
-- Adding
-- ---------------------------------------------------------------------------

/-- With room, an element is added at the end. -/
theorem Represents.push (h : r.Represents xs) (hroom : xs.length < r.capacity) (a : α) :
    (r.push a).1 = true ∧ (r.push a).2.Represents (xs ++ [a]) := by
  have hne : r.length ≠ r.capacity := by
    rw [h.length_eq]
    omega
  have hcapacity := r.capacity_push a
  rw [Ring.push, if_neg hne] at hcapacity ⊢
  refine ⟨rfl, ⟨by rw [hcapacity]; exact h.head_lt, ?_, ?_, ?_⟩⟩
  · rw [List.length_append, List.length_singleton, h.length_eq]
  · rw [hcapacity, List.length_append, List.length_singleton]
    exact hroom
  · intro offset hlt
    rw [hcapacity] at hlt
    have hplace : ∀ slots : List (Option α), slots.length = r.capacity →
        Ring.place ⟨slots, r.head, r.length + 1, r.rejected⟩ offset = r.place offset := by
      intro slots hslots
      rw [place, Ring.capacity, hslots]
      rfl
    rw [hplace _ hcapacity]
    by_cases heq : offset = xs.length
    · subst heq
      rw [h.length_eq, List.getElem?_set_self (place_lt h.head_lt), List.getElem?_concat_length]
    · have hother : r.place r.length ≠ r.place offset := fun hsame =>
        heq ((place_inj h.head_lt hlt (h.length_eq ▸ hroom) hsame.symm).trans h.length_eq)
      rw [List.getElem?_set_ne hother, h.slot offset hlt]
      by_cases hold : offset < xs.length
      · rw [List.getElem?_append_left hold]
      · rw [List.getElem?_eq_none (by omega),
          List.getElem?_eq_none (by rw [List.length_append, List.length_singleton]; omega)]

/-- Without room, nothing is added. -/
theorem Represents.push_full (h : r.Represents xs) (hfull : xs.length = r.capacity) (a : α) :
    (r.push a).1 = false ∧ (r.push a).2.Represents xs := by
  rw [Ring.push, if_pos (h.length_eq.trans hfull)]
  exact ⟨rfl, h.head_lt, h.length_eq, h.length_le, h.slot⟩

-- ---------------------------------------------------------------------------
-- Taking
-- ---------------------------------------------------------------------------

theorem Represents.pop_nil (h : r.Represents []) : r.pop = (none, r) := by
  have hzero : r.length = 0 := h.length_eq
  rw [Ring.pop, if_pos hzero]

/-- The oldest element is taken, and its slot is the one that is farthest from the new
head. -/
theorem Represents.pop {x : α} (h : r.Represents (x :: xs)) :
    r.pop.1 = some x ∧ r.pop.2.Represents xs := by
  have hlength := h.length_eq
  have hle := h.length_le
  rw [List.length_cons] at hlength hle
  have hhead : r.slots[r.head]? = some (some x) := by
    have := h.slot 0 (Nat.zero_lt_of_lt h.head_lt)
    rwa [place_zero h.head_lt] at this
  have hcapacity := r.capacity_pop
  rw [Ring.pop, if_neg (by omega)] at hcapacity ⊢
  refine ⟨by rw [List.getD_eq_getElem?_getD, hhead]; rfl, ?_, ?_, ?_, ?_⟩
  · rw [hcapacity]
    exact place_lt h.head_lt
  · exact Nat.sub_eq_of_eq_add hlength
  · rw [hcapacity]
    omega
  · intro offset hlt
    rw [hcapacity] at hlt
    have hplace : ∀ slots : List (Option α), slots.length = r.capacity →
        Ring.place ⟨slots, r.place 1, r.length - 1, r.rejected⟩ offset =
          (r.head + (offset + 1)) % r.capacity := by
      intro slots hslots
      rw [place, Ring.capacity, hslots, place, Nat.mod_add_mod, Nat.add_assoc, Nat.add_comm 1]
    rw [hplace _ hcapacity]
    by_cases hlast : offset + 1 < r.capacity
    · have hother : r.head ≠ r.place (offset + 1) := by
        intro hsame
        rw [← place_zero h.head_lt] at hsame
        have := place_inj h.head_lt (Nat.zero_lt_of_lt h.head_lt) hlast hsame
        omega
      show (r.slots.set r.head none)[r.place (offset + 1)]? = _
      rw [List.getElem?_set_ne hother, h.slot _ hlast, List.getElem?_cons_succ]
    · have hwrap : offset + 1 = r.capacity := by omega
      rw [hwrap, Nat.add_mod_right, Nat.mod_eq_of_lt h.head_lt,
        List.getElem?_set_self h.head_lt, List.getElem?_eq_none (by omega)]

theorem Represents.popMany (h : r.Represents xs) :
    (popMany xs.length r).1 = xs ∧ (popMany xs.length r).2.Represents [] := by
  induction xs generalizing r with
  | nil => exact ⟨rfl, h⟩
  | cons x xs ih =>
    obtain ⟨htaken, hrest⟩ := h.pop
    obtain ⟨hall, hempty⟩ := ih hrest
    rw [List.length_cons, Ring.popMany, show r.pop = (some x, r.pop.2) from Prod.ext htaken rfl]
    exact ⟨congrArg (x :: ·) hall, hempty⟩

/-- All elements are taken in order. -/
theorem Represents.drain (h : r.Represents xs) :
    r.drain.1 = xs ∧ r.drain.2.Represents [] := by
  rw [Ring.drain, h.length_eq]
  exact h.popMany

-- ---------------------------------------------------------------------------
-- What was refused
-- ---------------------------------------------------------------------------

/-- Every element that is refused is counted. -/
theorem rejected_push (r : Ring α) (a : α) :
    (r.push a).2.rejected = r.rejected + if (r.push a).1 then 0 else 1 := by
  rw [push]
  split <;> rfl

theorem rejected_pop (r : Ring α) : r.pop.2.rejected = r.rejected := by
  rw [pop]
  split <;> rfl

/-- What taking one element keeps, taking several keeps. -/
theorem popMany_keeps {β : Type} (view : Ring α → β) (hpop : ∀ r, view r.pop.2 = view r)
    (n : Nat) (r : Ring α) : view (Ring.popMany n r).2 = view r := by
  induction n generalizing r with
  | zero => rfl
  | succ n ih =>
    have hone := hpop r
    rw [Ring.popMany]
    generalize r.pop = taken at hone
    obtain ⟨_ | a, r'⟩ := taken
    · exact hone
    · exact (ih r').trans hone

theorem rejected_popMany (n : Nat) (r : Ring α) :
    (Ring.popMany n r).2.rejected = r.rejected :=
  popMany_keeps Ring.rejected rejected_pop n r

theorem capacity_popMany (n : Nat) (r : Ring α) :
    (Ring.popMany n r).2.capacity = r.capacity :=
  popMany_keeps Ring.capacity capacity_pop n r

end AffineSwarm.Ring
