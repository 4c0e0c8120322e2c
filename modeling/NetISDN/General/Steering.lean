import Mathlib.Data.List.Basic

/-!
# A device that is switched from afar

A controller sends instructions to a device, which obeys them in the order in which they were sent.
The two are in step if the device, once it has obeyed what is under way, is as the controller has
it; or if it has switched itself off and has asked the controller to do the same (`InStep`). Being
in step survives whatever either of them does, and if nothing is under way they agree.
-/

namespace Steering

variable {μ : Type*} {m : μ} {c c' d d' : Option μ} {asked asked' : Prop}

/-- An instruction, to switch on with some setting or to switch off. -/
inductive Instruction (μ : Type*) where
  | on (m : μ)
  | off

variable {i : Instruction μ} {is is' : List (Instruction μ)}

/-- What a device does with an instruction. One that is on cannot be switched on. -/
def obey : Option μ → Instruction μ → Option (Option μ)
  | none, .on m => some (some m)
  | some _, .on _ => none
  | _, .off => some none

/-- What a device does with instructions one after the other. -/
def obeyAll (d : Option μ) (is : List (Instruction μ)) : Option (Option μ) := is.foldlM obey d

@[simp] theorem obey_off : obey d .off = some none := by
  cases d <;> rfl

@[simp] theorem obeyAll_nil : obeyAll d [] = some d := rfl

/-- The first instruction is obeyed, and then the others. -/
theorem obeyAll_cons : obeyAll d (i :: is) = (obey d i).bind fun d' => obeyAll d' is :=
  List.foldlM_cons

/-- Two lists of instructions, one after the other. -/
theorem obeyAll_append : obeyAll d (is ++ is') = (obeyAll d is).bind fun d' => obeyAll d' is' :=
  List.foldlM_append

@[simp] theorem obeyAll_singleton : obeyAll d [i] = obey d i := by
  rw [obeyAll_cons]
  cases obey d i <;> rfl

/-- A device that is off ends up as one that is on, unless there is nothing to obey. -/
theorem obeyAll_none (h : obeyAll d is = some c) : obeyAll none is = some c ∨
    is = [] ∧ obeyAll (none : Option μ) is = some none := by
  cases is with
  | nil => exact .inr ⟨rfl, rfl⟩
  | cons i is =>
      refine .inl ?_
      cases i with
      | off => rwa [obeyAll_cons, obey_off] at h ⊢
      | on m =>
          cases d with
          | none => exact h
          | some m' => cases h

/-- A device in the state `d`, with the instructions `is` under way, is in step with a controller
that has it in the state `c`. `asked` says that it has asked the controller to switch it off. -/
def InStep (asked : Prop) (c d : Option μ) (is : List (Instruction μ)) : Prop :=
  obeyAll d is = some c ∨ asked ∧ obeyAll d is = some none

/-- Without an instruction the client has nothing to do. -/
theorem inStep_off : InStep asked (none : Option μ) none [] := .inl rfl

/-- A request may come to be under way. -/
theorem InStep.mono (h : InStep asked c d is) (hasked : asked → asked') : InStep asked' c d is :=
  h.imp_right fun ⟨ha, hd⟩ => ⟨hasked ha, hd⟩

/-- The controller sends instructions. -/
theorem InStep.send (h : InStep asked c d is) (hc : obeyAll c is' = some c') :
    InStep asked c' d (is ++ is') := by
  rcases h with h | ⟨hasked, h⟩
  · exact .inl (by rw [obeyAll_append, h, Option.bind_some, hc])
  · rw [InStep, obeyAll_append, h, Option.bind_some]
    rcases obeyAll_none hc with hsame | ⟨rfl, -⟩
    · exact .inl hsame
    · exact .inr ⟨hasked, rfl⟩

/-- Once the controller has the device switched off, no request is left to answer. -/
theorem InStep.settle (h : InStep asked none d is) : InStep asked' none d is :=
  .inl (h.elim id And.right)

/-- The device obeys the first instruction under way. -/
theorem InStep.obey (h : InStep asked c d (i :: is)) :
    ∃ d', Steering.obey d i = some d' ∧ InStep asked c d' is := by
  rw [InStep, obeyAll_cons] at h
  cases hd : Steering.obey d i with
  | none => simp [hd] at h
  | some d' =>
      rw [hd] at h
      exact ⟨d', rfl, h⟩

/-- The device switches itself off, and asks for that. -/
theorem InStep.quit (h : InStep asked c d is) (hasked : asked') : InStep asked' c none is := by
  rcases h with h | ⟨-, h⟩
  · rcases obeyAll_none h with hsame | ⟨-, hoff⟩
    · exact .inl hsame
    · exact .inr ⟨hasked, hoff⟩
  · rcases obeyAll_none h with hsame | ⟨-, hoff⟩
    · exact .inr ⟨hasked, hsame⟩
    · exact .inr ⟨hasked, hoff⟩

/-- The device switches itself off when the controller has it off, or has been asked to. -/
theorem InStep.drop (h : InStep asked c d is) (hover : c = none ∨ asked) :
    InStep asked c none is := by
  rcases hover with rfl | hasked
  · exact (h.quit trivial).settle
  · exact h.quit hasked

/-- When nothing is under way, device and controller agree. -/
theorem InStep.agree (h : InStep asked c d []) (hasked : ¬ asked) : d = c := by
  rcases h with h | ⟨ha, -⟩
  · exact Option.some.inj h
  · exact absurd ha hasked

end Steering
