import Mathlib.Data.Option.Basic
import Mathlib.Tactic.Common

/-!
# Pairings

A pairing links some of the keys of a type in pairs, and gives each pair a value. A key is
linked to at most one other key, and never to itself: a structure that stores a pointer to the
partner and a copy of the value on each side represents a pairing exactly when the two sides
agree. Two free keys can be joined, and a key can be released together with its partner.

A pairing is `Distinct` if its value tells a pair: no two pairs carry the same value.
-/

/-- Keys linked in pairs; `partner a = some (b, v)` says that `a` and `b` form a pair of
value `v`. -/
@[ext]
structure Pairing (K V : Type*) where
  partner : K → Option (K × V)
  symm : ∀ {a b v}, partner a = some (b, v) → partner b = some (a, v)
  irrefl : ∀ {a v}, partner a ≠ some (a, v)

namespace Pairing

variable {K V : Type*} {p : Pairing K V} {a b k x : K} {v w : V}

/-- A key without a partner. -/
def Free (p : Pairing K V) (a : K) : Prop := p.partner a = none

/-- No pairs. -/
def empty : Pairing K V where
  partner _ := none
  symm h := nomatch h
  irrefl h := nomatch h

@[simp] theorem partner_empty : (empty : Pairing K V).partner k = none := rfl

/-- The two keys of a pair differ. -/
theorem ne_of_partner (h : p.partner a = some (b, v)) : a ≠ b := by
  rintro rfl
  exact p.irrefl h

section
variable [DecidableEq K]

/-! ## Joining two free keys -/

/-- Links two distinct free keys. -/
def join (p : Pairing K V) (a b : K) (v : V) (hab : a ≠ b) (ha : p.Free a) (hb : p.Free b) :
    Pairing K V where
  partner k := if k = a then some (b, v) else if k = b then some (a, v) else p.partner k
  symm := by
    intro x y u h
    -- a free key is nobody's partner, so an old pair keeps clear of `a` and `b`
    have old : p.partner x = some (y, u) → y ≠ a ∧ y ≠ b := by
      refine fun hp => ⟨?_, ?_⟩ <;> rintro rfl
      · exact nomatch ha.symm.trans (p.symm hp)
      · exact nomatch hb.symm.trans (p.symm hp)
    split_ifs at h with h₁ h₂
    · obtain ⟨rfl, rfl⟩ := Prod.mk.inj (Option.some.inj h)
      simp [h₁, hab.symm]
    · obtain ⟨rfl, rfl⟩ := Prod.mk.inj (Option.some.inj h)
      simp [h₂]
    · obtain ⟨hya, hyb⟩ := old h
      simp [hya, hyb, p.symm h]
  irrefl := by
    intro x u h
    split_ifs at h with h₁ h₂
    · exact hab (h₁.symm.trans (congrArg Prod.fst (Option.some.inj h)).symm)
    · exact h₁ (congrArg Prod.fst (Option.some.inj h)).symm
    · exact p.irrefl h

section
variable {hab : a ≠ b} {ha : p.Free a} {hb : p.Free b}

/-- The partners after two keys are joined. -/
theorem partner_join : (p.join a b v hab ha hb).partner k =
    if k = a then some (b, v) else if k = b then some (a, v) else p.partner k := rfl

/-- The pairs after a join: the new one, and the old ones. -/
theorem partner_join_eq_some : (p.join a b v hab ha hb).partner k = some (x, w) ↔
    (k = a ∧ x = b ∧ w = v) ∨ (k = b ∧ x = a ∧ w = v) ∨ p.partner k = some (x, w) := by
  rw [partner_join]
  split_ifs with h₁ h₂
  · have hk : p.partner k = none := h₁ ▸ ha
    simp [h₁ ▸ hk, h₁, hab, eq_comm]
  · have hk : p.partner k = none := h₂ ▸ hb
    simp [h₂ ▸ hk, h₂, hab.symm, eq_comm]
  · simp [h₁, h₂]

end

/-! ## Releasing a pair -/

/-- Releases a key and its partner, if it has one. -/
def hangUp (p : Pairing K V) (a : K) : Pairing K V where
  partner k := (p.partner k).filter fun x => k ≠ a ∧ x.1 ≠ a
  symm := by
    intro x y u h
    simp only [ne_eq, Option.filter_eq_some_iff, decide_eq_true_eq] at h ⊢
    exact ⟨p.symm h.1, h.2.2, h.2.1⟩
  irrefl := by
    intro x u h
    exact p.irrefl (Option.filter_eq_some_iff.1 h).1

/-- The pairs after a release: the old ones that do not touch the key. -/
theorem partner_hangUp_eq_some : (p.hangUp a).partner k = some (x, w) ↔
    p.partner k = some (x, w) ∧ k ≠ a ∧ x ≠ a := by
  simp [hangUp, Option.filter_eq_some_iff]

/-- A release frees the two keys of the pair and leaves the others alone. -/
theorem partner_hangUp (hp : p.partner a = some (b, v)) :
    (p.hangUp a).partner k = if k = a ∨ k = b then none else p.partner k := by
  ext ⟨x, w⟩
  rw [← Option.mem_def, Option.mem_def, partner_hangUp_eq_some]
  split
  · next hk =>
      simp only [reduceCtorEq, iff_false, not_and, not_not]
      rcases hk with rfl | rfl
      · exact fun _ h => absurd rfl h
      · intro h _
        exact congrArg Prod.fst (Option.some.inj (h.symm.trans (p.symm hp)))
  · next hk =>
      rw [not_or] at hk
      simp only [hk.1, ne_eq, not_false_eq_true, true_and, and_iff_left_iff_imp]
      rintro h rfl
      exact hk.2 (congrArg Prod.fst (Option.some.inj ((p.symm h).symm.trans hp)))

end

/-! ## Values that tell the pair -/

/-- Two pairs of the same value are the same pair. -/
def Distinct (p : Pairing K V) : Prop :=
  ∀ ⦃a b x y : K⦄ ⦃v : V⦄, p.partner a = some (b, v) → p.partner x = some (y, v) →
    x = a ∨ x = b

/-- An empty pairing has no marks to be distinct. -/
theorem distinct_empty : (empty : Pairing K V).Distinct := fun _ _ _ _ _ h => nomatch h

variable [DecidableEq K]

/-- A join under a fresh value keeps values distinct. -/
theorem Distinct.join (hd : p.Distinct) (hab : a ≠ b) (ha : p.Free a) (hb : p.Free b)
    (hv : ∀ x y, p.partner x ≠ some (y, v)) : (p.join a b v hab ha hb).Distinct := by
  intro x y x' y' u h h'
  rw [partner_join_eq_some] at h h'
  rcases h with ⟨rfl, rfl, rfl⟩ | ⟨rfl, rfl, rfl⟩ | h
  · rcases h' with ⟨rfl, -, -⟩ | ⟨rfl, -, -⟩ | h'
    · exact .inl rfl
    · exact .inr rfl
    · exact absurd h' (hv _ _)
  · rcases h' with ⟨rfl, -, -⟩ | ⟨rfl, -, -⟩ | h'
    · exact .inr rfl
    · exact .inl rfl
    · exact absurd h' (hv _ _)
  · rcases h' with ⟨-, -, rfl⟩ | ⟨-, -, rfl⟩ | h'
    · exact absurd h (hv _ _)
    · exact absurd h (hv _ _)
    · exact hd h h'

/-- A release keeps values distinct. -/
theorem Distinct.hangUp (hd : p.Distinct) : (p.hangUp a).Distinct := by
  intro x y x' y' u h h'
  exact hd (partner_hangUp_eq_some.1 h).1 (partner_hangUp_eq_some.1 h').1

end Pairing
