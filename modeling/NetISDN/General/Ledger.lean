import Mathlib.Data.Finset.Basic
import Mathlib.Data.Finset.Lattice.Lemmas
import Mathlib.Logic.Function.Basic

/-!
# Ledgers of resources

A program that allocates resources of the kinds `ρ`, and has one variable for each kind: the ledger
tells of each kind how many objects were allocated and not released, whether the variable designates
one of them, and whether the variable was released while it designated none. `HoldsOn K S` says that
of the kinds in `K` exactly those in `S` are held, each once and in its variable.
-/

/-- What a program holds of one kind. -/
structure Handle where
  unreleased : Nat
  current : Bool
  releasedTwice : Bool
  deriving DecidableEq, Repr

namespace Handle

/-- Nothing is held. -/
def free : Handle := ⟨0, false, false⟩

/-- One object is held, and the variable designates it. -/
def held : Handle := ⟨1, true, false⟩

/-- An object is allocated, and the variable set to it. -/
def acquire (h : Handle) : Handle := ⟨h.unreleased + 1, true, h.releasedTwice⟩

/-- What the variable designates is released. -/
def release (h : Handle) : Handle :=
  if h.current then ⟨h.unreleased - 1, false, h.releasedTwice⟩ else { h with releasedTwice := true }

/-- What the variable designates is released, if it designates anything. -/
def delete (h : Handle) : Handle := if h.current then h.release else h

/-- The variable is cleared, and nothing is released. -/
def forget (h : Handle) : Handle := { h with current := false }

@[simp] theorem acquire_free : free.acquire = held := rfl
@[simp] theorem release_held : held.release = free := rfl
@[simp] theorem delete_held : held.delete = free := rfl
@[simp] theorem delete_free : free.delete = free := rfl
@[simp] theorem forget_free : free.forget = free := rfl

end Handle

/-- What a program holds. -/
abbrev Ledger (ρ : Type*) := ρ → Handle

namespace Ledger

section
variable {ρ : Type*} [DecidableEq ρ]

/-- `acquire` of one kind. -/
def acquire (l : Ledger ρ) (r : ρ) : Ledger ρ := Function.update l r (l r).acquire

/-- `release` of one kind. -/
def release (l : Ledger ρ) (r : ρ) : Ledger ρ := Function.update l r (l r).release

/-- `delete` of one kind. -/
def delete (l : Ledger ρ) (r : ρ) : Ledger ρ := Function.update l r (l r).delete

/-- `forget` of one kind. -/
def forget (l : Ledger ρ) (r : ρ) : Ledger ρ := Function.update l r (l r).forget

/-- Several kinds are allocated, one after the other. -/
def acquireAll (l : Ledger ρ) (rs : List ρ) : Ledger ρ := rs.foldl acquire l

/-- Several kinds are released, one after the other. -/
def releaseAll (l : Ledger ρ) (rs : List ρ) : Ledger ρ := rs.foldl release l

/-- Of the kinds in `K`, those in `S` are held and no other. -/
def HoldsOn (K : Set ρ) (S : Finset ρ) (l : Ledger ρ) : Prop :=
  ∀ r ∈ K, l r = if r ∈ S then Handle.held else Handle.free

variable {K K' : Set ρ} {S : Finset ρ} {l : Ledger ρ} {r : ρ} {rs : List ρ}

/-- The books are also right on fewer resources. -/
theorem HoldsOn.mono (h : HoldsOn K S l) (hK : K' ⊆ K) : HoldsOn K' S l :=
  fun r hr => h r (hK hr)

/-- Only the kinds in `K` matter. -/
theorem HoldsOn.congr {S' : Finset ρ} (h : HoldsOn K S l) (hS : ∀ r ∈ K, r ∈ S' ↔ r ∈ S) :
    HoldsOn K S' l := by
  intro r hr
  rw [h r hr]
  simp only [hS r hr]

/-- What is in the books is held. -/
theorem HoldsOn.held (h : HoldsOn K S l) (hK : r ∈ K) (hr : r ∈ S) : l r = Handle.held := by
  rw [h r hK, if_pos hr]

/-- What is not in the books is free. -/
theorem HoldsOn.free (h : HoldsOn K S l) (hK : r ∈ K) (hr : r ∉ S) : l r = Handle.free := by
  rw [h r hK, if_neg hr]

/-- A change to one kind, from what is held of it to what is held of it afterwards. -/
theorem HoldsOn.update {S' : Finset ρ} {h' : Handle} (h : HoldsOn K S l)
    (hother : ∀ r' ≠ r, r' ∈ S' ↔ r' ∈ S)
    (hr : r ∈ K → h' = if r ∈ S' then Handle.held else Handle.free) :
    HoldsOn K S' (Function.update l r h') := by
  intro r' hK
  rcases eq_or_ne r' r with rfl | hne
  · rw [Function.update_self, hr hK]
  · rw [Function.update_of_ne hne, h r' hK]
    simp only [hother r' hne]

/-- A resource is acquired and booked. -/
theorem HoldsOn.acquire (h : HoldsOn K S l) (hr : r ∈ K → r ∉ S) :
    HoldsOn K (insert r S) (l.acquire r) := by
  refine h.update (fun r' hne => by simp [hne]) fun hK => ?_
  rw [h.free hK (hr hK), if_pos (Finset.mem_insert_self r S), Handle.acquire_free]

/-- A resource is released and struck out. -/
theorem HoldsOn.release (h : HoldsOn K S l) (hr : r ∈ K → r ∈ S) :
    HoldsOn K (S.erase r) (l.release r) := by
  refine h.update (fun r' hne => by simp [hne]) fun hK => ?_
  rw [h.held hK (hr hK), if_neg (Finset.notMem_erase r S), Handle.release_held]

/-- A resource is deleted and struck out. -/
theorem HoldsOn.delete (h : HoldsOn K S l) : HoldsOn K (S.erase r) (l.delete r) := by
  refine h.update (fun r' hne => by simp [hne]) fun hK => ?_
  rw [if_neg (Finset.notMem_erase r S), h r hK]
  split
  · rfl
  · rfl

/-- A handle that is not in the books may be forgotten. -/
theorem HoldsOn.forget (h : HoldsOn K S l) (hr : r ∈ K → r ∉ S) :
    HoldsOn K S (l.forget r) := by
  refine h.update (fun r' hne => Iff.rfl) fun hK => ?_
  rw [h.free hK (hr hK), if_neg (hr hK), Handle.forget_free]

/-- Several resources are acquired and booked. -/
theorem HoldsOn.acquireAll (h : HoldsOn K S l) (hnodup : rs.Nodup) (hrs : ∀ r ∈ rs, r ∈ K → r ∉ S) :
    HoldsOn K (S ∪ rs.toFinset) (l.acquireAll rs) := by
  induction rs generalizing S l with
  | nil => simpa [Ledger.acquireAll] using h
  | cons r rs ih =>
      obtain ⟨hr, hnodup⟩ := List.nodup_cons.1 hnodup
      have htail : ∀ r' ∈ rs, r' ∈ K → r' ∉ insert r S := by
        intro r' hr' hK hmem
        rcases Finset.mem_insert.1 hmem with rfl | hmem
        · exact hr hr'
        · exact hrs r' (List.mem_cons_of_mem r hr') hK hmem
      have := ih (h.acquire (hrs r List.mem_cons_self)) hnodup htail
      rwa [Finset.insert_union, ← Finset.union_insert, ← List.toFinset_cons] at this

/-- Several resources are released and struck out. -/
theorem HoldsOn.releaseAll (h : HoldsOn K S l) (hnodup : rs.Nodup) (hrs : ∀ r ∈ rs, r ∈ K → r ∈ S) :
    HoldsOn K (S \ rs.toFinset) (l.releaseAll rs) := by
  induction rs generalizing S l with
  | nil => simpa [Ledger.releaseAll] using h
  | cons r rs ih =>
      obtain ⟨hr, hnodup⟩ := List.nodup_cons.1 hnodup
      have htail : ∀ r' ∈ rs, r' ∈ K → r' ∈ S.erase r := by
        intro r' hr' hK
        have hne : r' ≠ r := fun heq => hr (heq ▸ hr')
        exact Finset.mem_erase.2 ⟨hne, hrs r' (List.mem_cons_of_mem r hr') hK⟩
      have := ih (h.release (hrs r List.mem_cons_self)) hnodup htail
      rwa [← Finset.sdiff_singleton_eq_erase, sdiff_sdiff_left, Finset.sup_eq_union,
        ← Finset.insert_eq, ← List.toFinset_cons] at this

/-- Acquiring two lists of resources, one after the other. -/
theorem acquireAll_append {rs' : List ρ} :
    l.acquireAll (rs ++ rs') = (l.acquireAll rs).acquireAll rs' := List.foldl_append

/-- A kind of which nothing is held is not among those that are. -/
theorem HoldsOn.notMem (h : HoldsOn K S l) (hK : r ∈ K) (hl : (l r).unreleased = 0) : r ∉ S := by
  intro hr
  rw [h.held hK hr] at hl
  cases hl

/-- Books that agree on `K` hold the same. -/
theorem HoldsOn.of_eq {l' : Ledger ρ} (h : HoldsOn K S l) (heq : ∀ r ∈ K, l' r = l r) :
    HoldsOn K S l' := fun r hr => (heq r hr).trans (h r hr)

end

end Ledger
