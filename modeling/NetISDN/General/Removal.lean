import Mathlib.Data.List.Induction

/-!
# Removal in a loop from the back

A loop that goes through the indices of a list from the last one down, and removes elements as it
goes, is not led astray by what it removes: the elements in front of the index stay where they are.
It keeps the elements up to the index at which it ends, and of those behind it the ones that it does
not remove (`removeBackwards_eq`).
-/

namespace Removal

variable {α : Type*} {p : α → Bool} {low : Int}

/-- `for(int i=n-1;i>low;i--) if(p(items[i])) items.remove(i);`, with `n` for `i`. -/
def removeBackwards (p : α → Bool) (low : Int) : Nat → List α → List α
  | 0, items => items
  | i + 1, items =>
      removeBackwards p low i
        (if low < i ∧ items[i]?.any p = true then items.eraseIdx i else items)

/-- What the loop does to the elements that it has not come to yet. -/
theorem removeBackwards_append (front back : List α) :
    removeBackwards p low front.length (front ++ back) =
      front.take (low + 1).toNat ++ (front.drop (low + 1).toNat).filter (fun x => !p x) ++
      back := by
  induction front using List.reverseRecOn generalizing back with
  | nil => simp [removeBackwards]
  | append_singleton front x ih =>
      have hlen : (front ++ [x]).length = front.length + 1 := List.length_append
      have hget : (front ++ [x] ++ back)[front.length]? = some x := by simp
      have herase : (front ++ [x] ++ back).eraseIdx front.length = front ++ back := by
        rw [List.append_assoc, List.eraseIdx_append_of_length_le (Nat.le_refl _), Nat.sub_self]
        rfl
      rw [hlen, removeBackwards, hget, Option.any_some]
      rcases Int.lt_or_le low front.length with hlow | hlow
      · have hk : (low + 1).toNat ≤ front.length := by omega
        rw [List.take_append_of_le_length hk, List.drop_append_of_le_length hk, List.filter_append]
        cases hx : p x with
        | true =>
            rw [if_pos ⟨hlow, rfl⟩, herase, ih, List.filter_cons_of_neg (by simp [hx])]
            simp
        | false =>
            rw [if_neg (by simp), List.append_assoc, ih, List.filter_cons_of_pos (by simp [hx])]
            simp
      · have hk : front.length + 1 ≤ (low + 1).toNat := by omega
        have hall : front.length ≤ (low + 1).toNat := by omega
        rw [if_neg (fun h => absurd h.1 (by omega)), List.append_assoc, ih,
          List.take_of_length_le hall, List.drop_of_length_le hall,
          List.take_of_length_le (by rw [hlen]; exact hk),
          List.drop_of_length_le (by rw [hlen]; exact hk)]
        simp

/-- The loop over a whole list. -/
theorem removeBackwards_eq (items : List α) : removeBackwards p low items.length items =
    items.take (low + 1).toNat ++ (items.drop (low + 1).toNat).filter (fun x => !p x) := by
  have h := @removeBackwards_append _ p low items []
  rwa [List.append_nil, List.append_nil] at h

end Removal
