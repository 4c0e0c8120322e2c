import Mathlib.Logic.Basic

/-!
# A flag that mirrors a register

A register says which user each session is of (`here k u`), and a flag is kept for each user.
`Mirror here flag`: no two sessions are of one user, and the flag is set exactly for the users
that have one. It survives that sessions leave, and that one enters for a user without one, if
the flags follow.
-/

variable {K U : Type*} {here here' : K → U → Prop} {flag flag' : U → Prop}

/-- No two sessions are of one user, and the flag shows which users have one. -/
structure Mirror (here : K → U → Prop) (flag : U → Prop) : Prop where
  unique : ∀ {j k u}, here j u → here k u → j = k
  flag_iff : ∀ u, flag u ↔ ∃ k, here k u

namespace Mirror

/-- An empty register is mirrored by flags that are all off. -/
theorem empty (hhere : ∀ k u, ¬ here k u) (hflag : ∀ u, ¬ flag u) : Mirror here flag where
  unique hj := absurd hj (hhere _ _)
  flag_iff u := iff_of_false (hflag u) fun ⟨k, hk⟩ => hhere k u hk

/-- The register and the flags stay as they are. -/
theorem congr (h : Mirror here flag) (hhere : ∀ k u, here' k u ↔ here k u)
    (hflag : ∀ u, flag' u ↔ flag u) : Mirror here' flag' where
  unique hj hk := h.unique ((hhere _ _).1 hj) ((hhere _ _).1 hk)
  flag_iff u := by rw [hflag, h.flag_iff]; simp only [hhere]

/-- Some sessions leave, and the flags of their users are taken down. -/
theorem leave (gone : K → Prop) (h : Mirror here flag)
    (hhere : ∀ k u, here' k u ↔ here k u ∧ ¬ gone k)
    (hflag : ∀ u, flag' u ↔ flag u ∧ ¬ ∃ k, gone k ∧ here k u) : Mirror here' flag' where
  unique hj hk := h.unique ((hhere _ _).1 hj).1 ((hhere _ _).1 hk).1
  flag_iff u := by
    rw [hflag, h.flag_iff]
    constructor
    · rintro ⟨⟨k, hk⟩, hstay⟩
      exact ⟨k, (hhere k u).2 ⟨hk, fun hgone => hstay ⟨k, hgone, hk⟩⟩⟩
    · rintro ⟨k, hk⟩
      obtain ⟨hk, hstay⟩ := (hhere k u).1 hk
      refine ⟨⟨k, hk⟩, fun ⟨j, hgone, hj⟩ => hstay ?_⟩
      rwa [← h.unique hj hk]

/-- The session `k₀` enters for the user `u₀`, who has no other, and the flag goes up. -/
theorem enter (k₀ : K) (u₀ : U) (h : Mirror here flag)
    (hhere : ∀ k u, here' k u ↔ here k u ∨ k = k₀ ∧ u = u₀)
    (hflag : ∀ u, flag' u ↔ flag u ∨ u = u₀) (hfree : ∀ k, here k u₀ → k = k₀) :
    Mirror here' flag' where
  unique {j k u} hj hk := by
    rcases (hhere j u).1 hj with hj | ⟨rfl, rfl⟩
    · rcases (hhere k u).1 hk with hk | ⟨rfl, rfl⟩
      · exact h.unique hj hk
      · exact hfree j hj
    · rcases (hhere k u).1 hk with hk | ⟨rfl, -⟩
      · exact (hfree k hk).symm
      · rfl
  flag_iff u := by
    rw [hflag, h.flag_iff]
    constructor
    · rintro (⟨k, hk⟩ | rfl)
      · exact ⟨k, (hhere k u).2 (.inl hk)⟩
      · exact ⟨k₀, (hhere k₀ u).2 (.inr ⟨rfl, rfl⟩)⟩
    · rintro ⟨k, hk⟩
      rcases (hhere k u).1 hk with hk | ⟨-, rfl⟩
      · exact .inl ⟨k, hk⟩
      · exact .inr rfl

end Mirror
