import Mathlib.Order.Lattice
import Mathlib.Data.List.Basic

/-!
# A loop over an ordered map

`for(it=m.begin();it!=m.end();++it)` over a map whose entries stand in the order of their keys.
Erasing an entry invalidates the iterators at it and no others: the program may neither dereference
nor advance them. So a body that erases the entry it is at leads to an undefined `++it`; a loop that
meets no such entry goes once over the keys (`Erases.finishes`), and one that meets one is undefined
(`Erases.undefined`).
-/

namespace Sweep

variable {κ σ : Type*} [LinearOrder κ]

/-- A loop over the map that a state holds: the keys of the map, and what the body does at an entry;
`none` where the body is undefined. -/
structure Loop (κ σ : Type*) [LinearOrder κ] where
  keys : σ → List κ
  sorted : ∀ s, (keys s).Pairwise (· < ·)
  body : σ → κ → Option σ

/-- How a loop ends: with a state, in a step that is undefined, or not with the fuel it had. -/
inductive Outcome (σ : Type*) where
  | finished (s : σ)
  | undefined
  | running

namespace Loop

/-- `++it` at an entry: the iterator at the following entry, or the one at the end (`none`);
undefined if the entry has been erased. -/
def next (L : Loop κ σ) (s : σ) (k : κ) : Option (Option κ) :=
  if k ∈ L.keys s then some ((L.keys s).find? (k < ·)) else none

/-- The loop with the iterator at an entry, or at the end. -/
def runFrom (L : Loop κ σ) : Nat → σ → Option κ → Outcome σ
  | _, s, none => .finished s
  | 0, _, some _ => .running
  | fuel + 1, s, some k =>
      if k ∈ L.keys s then
        match L.body s k with
        | none => .undefined
        | some s' =>
            match L.next s' k with
            | none => .undefined
            | some it => L.runFrom fuel s' it
      else .undefined

/-- The loop. -/
def run (L : Loop κ σ) (fuel : Nat) (s : σ) : Outcome σ := L.runFrom fuel s (L.keys s).head?

section
variable {L : Loop κ σ} {s s' : σ} {k : κ} {done rest : List κ} {fuel : Nat}

/-- The entry behind one that is there is the next in order. -/
theorem next_split (h : L.keys s = done ++ k :: rest) : L.next s k = some rest.head? := by
  have hsorted := L.sorted s
  rw [h, List.pairwise_append, List.pairwise_cons] at hsorted
  have hdone : done.find? (k < ·) = none :=
    List.find?_eq_none.2 fun x hx => by simpa using le_of_lt (hsorted.2.2 x hx k (.head _))
  rw [next, if_pos (h ▸ List.mem_append_right _ (.head _)), h, List.find?_append, hdone,
    Option.none_or, List.find?_cons_of_neg (by simp)]
  cases rest with
  | nil => rfl
  | cons x rest =>
      rw [List.find?_cons_of_pos (by simpa using hsorted.2.1.1 x (.head _)), List.head?_cons]

/-- A turn that leaves the keys as they are. -/
theorem runFrom_keeps (h : L.keys s = done ++ k :: rest) (hbody : L.body s k = some s')
    (hkeys : L.keys s' = L.keys s) :
    L.runFrom (fuel + 1) s (some k) = L.runFrom fuel s' rest.head? := by
  rw [runFrom, if_pos (h ▸ List.mem_append_right _ (.head _)), hbody]
  simp only [next_split (hkeys.trans h)]

/-- A turn that erases the entry it is at, or is undefined. -/
theorem runFrom_erases (hbody : ∀ s', L.body s k = some s' → k ∉ L.keys s') :
    L.runFrom (fuel + 1) s (some k) = .undefined := by
  rw [runFrom]
  split
  · cases hs' : L.body s k with
    | none => rfl
    | some s' => simp only [next, if_neg (hbody s' hs')]
  · rfl

end

end Loop

/-- The loop erases the entries with a property, and only these: at another entry the body leaves
the keys, and who has the property, as they are. -/
structure Erases (L : Loop κ σ) (p : σ → κ → Prop) : Prop where
  keeps : ∀ {s k}, k ∈ L.keys s → ¬ p s k →
    ∃ s', L.body s k = some s' ∧ L.keys s' = L.keys s ∧ ∀ j, p s' j ↔ p s j
  erases : ∀ {s k s'}, p s k → L.body s k = some s' → k ∉ L.keys s'

section
variable {L : Loop κ σ} {p : σ → κ → Prop} {s : σ}

/-- A turn at an entry that is not to be erased. -/
theorem Erases.turn (hL : Erases L p) {done rest : List κ} {k : κ}
    (hkeys : L.keys s = done ++ k :: rest) (hk : ¬ p s k) :
    ∃ s', L.body s k = some s' ∧ L.keys s' = (done ++ [k]) ++ rest ∧ (∀ j, p s' j ↔ p s j) ∧
      ∀ fuel, L.runFrom (fuel + 1) s (some k) = L.runFrom fuel s' rest.head? := by
  obtain ⟨s', hbody, hkeys', hp⟩ := hL.keeps (hkeys ▸ List.mem_append_right _ (.head _)) hk
  refine ⟨s', hbody, ?_, hp, fun fuel => Loop.runFrom_keeps hkeys hbody hkeys'⟩
  rw [hkeys', hkeys, List.append_assoc, List.singleton_append]

/-- From an entry on, where nothing is to be erased. -/
theorem Erases.runFrom_finished (hL : Erases L p) {rest : List κ} : ∀ {done : List κ} {s : σ},
    L.keys s = done ++ rest → (∀ k ∈ rest, ¬ p s k) →
    ∃ s', rest.foldlM L.body s = some s' ∧
      ∀ fuel, rest.length ≤ fuel → L.runFrom fuel s rest.head? = .finished s' := by
  induction rest with
  | nil =>
      intro _ s _ _
      refine ⟨s, rfl, fun fuel _ => ?_⟩
      rw [List.head?_nil, Loop.runFrom]
  | cons k rest ih =>
      intro done s hkeys hp
      obtain ⟨s₁, hbody, hkeys₁, hp₁, hturn⟩ := hL.turn hkeys (hp k (.head _))
      obtain ⟨s', hfold, hrun⟩ := ih hkeys₁ fun j hj => mt (hp₁ j).1 (hp j (.tail _ hj))
      refine ⟨s', ?_, fun fuel hfuel => ?_⟩
      · rw [List.foldlM_cons, hbody]
        exact hfold
      · obtain ⟨fuel, rfl⟩ := Nat.exists_eq_add_of_le' (Nat.lt_of_lt_of_le (Nat.succ_pos _) hfuel)
        rw [List.head?_cons, hturn]
        exact hrun fuel (Nat.le_of_succ_le_succ hfuel)

/-- **A loop with nothing to erase** goes once over the keys. -/
theorem Erases.finishes (hL : Erases L p) (hp : ∀ k ∈ L.keys s, ¬ p s k) :
    ∃ s', (L.keys s).foldlM L.body s = some s' ∧
      ∀ fuel, (L.keys s).length ≤ fuel → L.run fuel s = .finished s' :=
  hL.runFrom_finished (show L.keys s = [] ++ L.keys s from rfl) hp

/-- From an entry on, where something is to be erased. -/
theorem Erases.runFrom_undefined (hL : Erases L p) {rest : List κ} :
    ∀ {done : List κ} {s : σ} {fuel : Nat}, L.keys s = done ++ rest → (∃ k ∈ rest, p s k) →
    rest.length ≤ fuel → L.runFrom fuel s rest.head? = .undefined := by
  induction rest with
  | nil =>
      rintro done s fuel - ⟨k, hk, -⟩
      cases hk
  | cons k rest ih =>
      intro done s fuel hkeys hp hfuel
      obtain ⟨fuel, rfl⟩ := Nat.exists_eq_add_of_le' (Nat.lt_of_lt_of_le (Nat.succ_pos _) hfuel)
      rw [List.head?_cons]
      rcases Classical.em (p s k) with hk | hk
      · exact Loop.runFrom_erases fun s' => hL.erases hk
      · obtain ⟨s', -, hkeys', hp', hturn⟩ := hL.turn hkeys hk
        rw [hturn]
        refine ih hkeys' ?_ (Nat.le_of_succ_le_succ hfuel)
        obtain ⟨j, hj, hpj⟩ := hp
        cases hj with
        | head => exact absurd hpj hk
        | tail _ hj => exact ⟨j, hj, (hp' j).2 hpj⟩

/-- **A loop with something to erase** is undefined, at the latest where it advances the iterator to
the entry it has erased. -/
theorem Erases.undefined (hL : Erases L p) (hp : ∃ k ∈ L.keys s, p s k) {fuel : Nat}
    (hfuel : (L.keys s).length ≤ fuel) : L.run fuel s = .undefined :=
  hL.runFrom_undefined (show L.keys s = [] ++ L.keys s from rfl) hp hfuel

/-- A loop that ends has found nothing to erase. -/
theorem Erases.none_of_finished (hL : Erases L p) {s' : σ}
    (hrun : ∀ fuel, (L.keys s).length ≤ fuel → L.run fuel s = .finished s') :
    ∀ k ∈ L.keys s, ¬ p s k := by
  intro k hk hp
  cases (hrun _ le_rfl).symm.trans (hL.undefined ⟨k, hk, hp⟩ le_rfl)

end

end Sweep
