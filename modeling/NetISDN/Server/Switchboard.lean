import NetISDN.General.Pairing
import NetISDN.General.Runs

/-!
# The switchboard

What `netsipd` is for, with everything else left out: a board on which connections are put
through to each other in pairs, each call under an identifier, and a log of the calls. Three
things happen to it. Two free connections are joined; a connection of a pair hangs up, which
ends the call for both; and a free connection asks for its media to be stopped. Each tells the
connections it touches to start or to stop their media.

A call is logged under an identifier of its own. The connections carry an identifier as well,
the one under which they will later end the call; a join is `Exact` if the two are the same.
-/

namespace NetISDN

open TransitionSystem

/-- What a client is told about its media. -/
inductive Media where
  | start
  | stop
  deriving DecidableEq

/-- The board, and the log of the calls: for an identifier that has been given out, when its
call ended, if it has. -/
structure Switchboard where
  pairing : Pairing Int Int
  log : Int → Option (Option Nat)

namespace Switchboard

/-- What happens to the board. A join has the identifier that the connections carry and the one
under which the call is logged. -/
inductive Act where
  | join (a b id logId : Int)
  | hangUp (a : Int) (now : Nat)
  | stop (a : Int)

/-- `log` with another entry for the call `id`, if `id` has been given out. -/
def endLog (log : Int → Option (Option Nat)) (id : Int) (now : Nat) : Int → Option (Option Nat) :=
  fun i => if i = id then (log i).map fun _ => some now else log i

/-- A step of the board. -/
def step (b : Switchboard) : Act → Option (Switchboard × List (Int × Media))
  | .join a d id logId =>
    if h : a ≠ d ∧ b.pairing.partner a = none ∧ b.pairing.partner d = none ∧
        b.log logId = none then
      some ({ pairing := b.pairing.join a d id h.1 h.2.1 h.2.2.1
              log := fun i => if i = logId then some none else b.log i },
        [(a, .start), (d, .start)])
    else none
  | .hangUp a now =>
    (b.pairing.partner a).map fun (d, id) =>
      ({ pairing := b.pairing.hangUp a, log := endLog b.log id now }, [(d, .stop), (a, .stop)])
  | .stop a => if b.pairing.partner a = none then some (b, [(a, .stop)]) else none

/-- The media commands in some output that go to `a`. -/
def mediaTo (a : Int) (out : List (Int × Media)) : List Media :=
  (out.filter (·.1 = a)).map Prod.snd

variable {b b' b₀ : Switchboard} {act : Act} {acts : List Act} {out tr : List (Int × Media)}
  {a d id logId k : Int} {now : Nat}

@[simp] theorem mediaTo_nil : mediaTo a [] = [] := rfl

@[simp] theorem mediaTo_append : mediaTo a (out ++ tr) = mediaTo a out ++ mediaTo a tr := by
  simp [mediaTo]

/-! ## The steps, inverted -/

/-- A call is set up between two ends that are free. -/
theorem step_join : step b (.join a d id logId) = some (b', out) ↔
    ∃ (hne : a ≠ d) (ha : b.pairing.Free a) (hd : b.pairing.Free d), b.log logId = none ∧
      b' = { pairing := b.pairing.join a d id hne ha hd
             log := fun i => if i = logId then some none else b.log i } ∧
      out = [(a, .start), (d, .start)] := by
  simp only [step]
  split
  · next h =>
      simp only [Option.some.injEq, Prod.mk.injEq]
      exact ⟨fun ⟨h₁, h₂⟩ => ⟨h.1, h.2.1, h.2.2.1, h.2.2.2, h₁.symm, h₂.symm⟩,
        fun ⟨_, _, _, _, h₁, h₂⟩ => ⟨h₁.symm, h₂.symm⟩⟩
  · next h =>
      refine iff_of_false (by simp) ?_
      rintro ⟨hne, ha, hd, hlog, -⟩
      exact h ⟨hne, ha, hd, hlog⟩

/-- A call is hung up by one of its ends. -/
theorem step_hangUp : step b (.hangUp a now) = some (b', out) ↔
    ∃ d id, b.pairing.partner a = some (d, id) ∧
      b' = { pairing := b.pairing.hangUp a, log := endLog b.log id now } ∧
      out = [(d, .stop), (a, .stop)] := by
  simp only [step, Option.map_eq_some_iff, Prod.exists, Prod.mk.injEq]
  exact ⟨fun ⟨d, id, h, h₁, h₂⟩ => ⟨d, id, h, h₁.symm, h₂.symm⟩,
    fun ⟨d, id, h, h₁, h₂⟩ => ⟨d, id, h, h₁.symm, h₂.symm⟩⟩

/-- An end without a call is told to stop. -/
theorem step_stop : step b (.stop a) = some (b', out) ↔
    b.pairing.Free a ∧ b' = b ∧ out = [(a, .stop)] := by
  simp only [step, Pairing.Free]
  split <;> simp_all [eq_comm]

/-! ## Media start and stop alternate -/

/-- Between any two starts there is a stop. -/
def Alternating (l : List Media) : Prop :=
  ∀ ⦃i j : Nat⦄, i < j → l[i]? = some Media.start → l[j]? = some Media.start →
    ∃ m, i < m ∧ m < j ∧ l[m]? = some Media.stop

/-- No media commands at all. -/
theorem alternating_nil : Alternating [] := by
  intro i j _ h
  simp at h

/-- A stop may always follow. -/
theorem Alternating.append_stop {l : List Media} (h : Alternating l) :
    Alternating (l ++ [.stop]) := by
  intro i j hij hi hj
  have hlt {n : Nat} (hn : (l ++ [Media.stop])[n]? = some .start) : l[n]? = some .start := by
    rcases Nat.lt_or_ge n l.length with h | h
    · rwa [List.getElem?_append_left h] at hn
    · rw [List.getElem?_append_right h] at hn
      cases hd : n - l.length <;> simp [hd] at hn
  obtain ⟨m, hm, hm', hstop⟩ := h hij (hlt hi) (hlt hj)
  refine ⟨m, hm, hm', ?_⟩
  rw [List.getElem?_append_left (List.getElem?_eq_some_iff.1 hstop).1, hstop]

/-- A start may follow what is no start. -/
theorem Alternating.append_start {l : List Media} (h : Alternating l)
    (hlast : l.getLast? ≠ some .start) : Alternating (l ++ [.start]) := by
  intro i j hij hi hj
  rcases Nat.lt_or_ge j l.length with hj' | hj'
  · rw [List.getElem?_append_left hj'] at hj
    rw [List.getElem?_append_left (Nat.lt_trans hij hj')] at hi
    obtain ⟨m, hm, hm', hstop⟩ := h hij hi hj
    exact ⟨m, hm, hm', by rw [List.getElem?_append_left (Nat.lt_trans hm' hj'), hstop]⟩
  · -- the new start: the last entry before it is a stop
    have hjl : j = l.length := by
      have := (List.getElem?_eq_some_iff.1 hj).1
      simp only [List.length_append, List.length_singleton] at this
      omega
    subst hjl
    rw [List.getElem?_append_left hij] at hi
    rw [List.getLast?_eq_getElem?] at hlast
    have hpos : l.length - 1 < l.length := by omega
    refine ⟨l.length - 1, ?_, hpos, ?_⟩
    · have : i ≠ l.length - 1 := fun he => hlast (he ▸ hi)
      omega
    · rw [List.getElem?_append_left hpos]
      cases hm : l[l.length - 1] with
      | start => exact absurd (by rw [List.getElem?_eq_getElem hpos, hm]) hlast
      | stop => rw [List.getElem?_eq_getElem hpos, hm]

/-- The media of every connection alternate, and those of a connection are on exactly while it
is in a pair. -/
def MediaOrder (b : Switchboard) (tr : List (Int × Media)) : Prop :=
  ∀ a, Alternating (mediaTo a tr) ∧ ((mediaTo a tr).getLast? = some .start ↔ ¬ b.pairing.Free a)

/-- A step of the board keeps the order of the media. -/
theorem MediaOrder.step (h : MediaOrder b tr) (hs : step b act = some (b', out)) :
    MediaOrder b' (tr ++ out) := by
  intro k
  obtain ⟨halt, hlast⟩ := h k
  rw [mediaTo_append]
  cases act with
  | join a d id logId =>
      obtain ⟨hne, ha, hd, -, rfl, rfl⟩ := step_join.1 hs
      by_cases hk : k = a ∨ k = d
      · have hfree : b.pairing.Free k := by rcases hk with rfl | rfl <;> assumption
        have hmedia : mediaTo k [(a, .start), (d, .start)] = [.start] := by
          rcases hk with rfl | rfl
          · simp [mediaTo, hne.symm]
          · simp [mediaTo, hne]
        rw [hmedia]
        refine ⟨halt.append_start fun hs => (hlast.1 hs) hfree, ?_⟩
        simp only [List.getLast?_concat, true_iff, Pairing.Free, Pairing.partner_join]
        rcases hk with rfl | rfl
        · simp
        · simp [hne.symm]
      · rw [not_or] at hk
        have hmedia : mediaTo k [(a, .start), (d, .start)] = [] := by
          simp [mediaTo, Ne.symm hk.1, Ne.symm hk.2]
        rw [hmedia, List.append_nil]
        refine ⟨halt, hlast.trans ?_⟩
        simp [Pairing.Free, Pairing.partner_join, hk.1, hk.2]
  | hangUp a now =>
      obtain ⟨d, id, hp, rfl, rfl⟩ := step_hangUp.1 hs
      have hne := Pairing.ne_of_partner hp
      by_cases hk : k = a ∨ k = d
      · have hmedia : mediaTo k [(d, .stop), (a, .stop)] = [.stop] := by
          rcases hk with rfl | rfl
          · simp [mediaTo, hne.symm]
          · simp [mediaTo, hne]
        rw [hmedia]
        refine ⟨halt.append_stop, ?_⟩
        simp [Pairing.Free, Pairing.partner_hangUp hp, hk]
      · have hmedia : mediaTo k [(d, .stop), (a, .stop)] = [] := by
          simp [mediaTo, mt Eq.symm (not_or.1 hk).1, mt Eq.symm (not_or.1 hk).2]
        rw [hmedia, List.append_nil]
        refine ⟨halt, hlast.trans ?_⟩
        simp only [Pairing.Free, Pairing.partner_hangUp hp, if_neg hk]
  | stop a =>
      obtain ⟨hfree, rfl, rfl⟩ := step_stop.1 hs
      by_cases hk : k = a
      · subst hk
        have hmedia : mediaTo k [(k, .stop)] = [.stop] := by simp [mediaTo]
        rw [hmedia]
        exact ⟨halt.append_stop, by simp [hfree]⟩
      · have hmedia : mediaTo k [(a, .stop)] = [] := by simp [mediaTo, Ne.symm hk]
        rw [hmedia, List.append_nil]
        exact ⟨halt, hlast⟩

/-- **The order of the media**, over every run of the board from one without pairs. -/
theorem runs_mediaOrder {P : Switchboard → Act → Prop} (h : Runs step P b₀ acts b tr)
    (h₀ : ∀ a, b₀.pairing.Free a) : MediaOrder b tr :=
  h.invariant_history (I := fun _ b tr => MediaOrder b tr)
    (fun a => ⟨alternating_nil, by simp [h₀ a]⟩) fun _ _ _ _ _ _ _ hI _ hs => hI.step hs

/-! ## A series of hang-ups -/

/-- Hang-ups at one moment, each by a connection that `Q` holds of. -/
def HangsUp (now : Nat) (Q : Int → Prop) (_ : Switchboard) (act : Act) : Prop :=
  ∃ a, act = .hangUp a now ∧ Q a

section
variable {Q : Int → Prop}

/-- A pair survives a series of hang-ups unless one of its two connections hangs up. -/
theorem hangsUp_partner (h : Runs step (HangsUp now Q) b acts b' out) :
    b'.pairing.partner k = some (d, id) → b.pairing.partner k = some (d, id) := by
  refine h.invariant (I := fun b' => b'.pairing.partner k = some (d, id) →
    b.pairing.partner k = some (d, id)) (fun hp => hp) ?_
  rintro b₁ _ b₂ o ih ⟨a, rfl, -⟩ hs hp
  obtain ⟨x, v, -, rfl, -⟩ := step_hangUp.1 hs
  exact ih (Pairing.partner_hangUp_eq_some.1 hp).1

/-- Calls between ends that are not hung up go on. -/
theorem hangsUp_keeps (h : Runs step (HangsUp now Q) b acts b' out)
    (hp : b.pairing.partner k = some (d, id)) (hk : ¬ Q k) (hd : ¬ Q d) :
    b'.pairing.partner k = some (d, id) := by
  refine h.invariant (I := fun b' => b'.pairing.partner k = some (d, id)) hp ?_
  rintro b₁ _ b₂ o ih ⟨a, rfl, ha⟩ hs
  obtain ⟨x, v, -, rfl, -⟩ := step_hangUp.1 hs
  refine Pairing.partner_hangUp_eq_some.2 ⟨ih, ?_, ?_⟩ <;> rintro rfl
  · exact hk ha
  · exact hd ha

/-- A series of hang-ups stops the media of each connection that it frees, once, and of no
other. -/
theorem hangsUp_media (h : Runs step (HangsUp now Q) b acts b' out) :
    mediaTo k out = (if b'.pairing.partner k = b.pairing.partner k then [] else [.stop]) ∧
      (b'.pairing.partner k = b.pairing.partner k ∨ b'.pairing.partner k = none) := by
  refine h.invariant_history (I := fun _ b' out =>
    mediaTo k out = (if b'.pairing.partner k = b.pairing.partner k then [] else [.stop]) ∧
      (b'.pairing.partner k = b.pairing.partner k ∨ b'.pairing.partner k = none))
    (by simp) ?_
  rintro as b₁ tr _ b₂ o - ⟨ih, hor⟩ ⟨a, rfl, -⟩ hs
  obtain ⟨d, id, hp, rfl, rfl⟩ := step_hangUp.1 hs
  have hne := Pairing.ne_of_partner hp
  rw [mediaTo_append, ih]
  simp only [Pairing.partner_hangUp hp]
  by_cases hk : k = a ∨ k = d
  · -- the connection is in a pair still, so its media have not been stopped yet
    obtain ⟨x, hx⟩ : ∃ x, b₁.pairing.partner k = some x := by
      rcases hk with rfl | rfl
      · exact ⟨_, hp⟩
      · exact ⟨_, b₁.pairing.symm hp⟩
    have hsame : b₁.pairing.partner k = b.pairing.partner k :=
      hor.resolve_right (by simp [hx])
    have hmedia : mediaTo k [(d, .stop), (a, .stop)] = [.stop] := by
      rcases hk with rfl | rfl
      · simp [mediaTo, hne.symm]
      · simp [mediaTo, hne]
    rw [if_pos hsame, hmedia, if_pos hk, ← hsame, hx]
    simp
  · have hmedia : mediaTo k [(d, .stop), (a, .stop)] = [] := by
      simp [mediaTo, mt Eq.symm (not_or.1 hk).1, mt Eq.symm (not_or.1 hk).2]
    rw [hmedia, List.append_nil, if_neg hk]
    exact ⟨rfl, hor⟩

/-- A series of hang-ups ends calls now, of pairs that there were, and changes no other entry of
the log. -/
theorem hangsUp_log (h : Runs step (HangsUp now Q) b acts b' out) (i : Int) :
    b'.log i = b.log i ∨ b'.log i = some (some now) ∧ ∃ k d, b.pairing.partner k = some (d, i) := by
  refine h.invariant_history (I := fun _ b' _ => b'.log i = b.log i ∨
    b'.log i = some (some now) ∧ ∃ k d, b.pairing.partner k = some (d, i)) (.inl rfl) ?_
  rintro as b₁ tr _ b₂ o hr ih ⟨a, rfl, -⟩ hs
  obtain ⟨d, id, hp, rfl, rfl⟩ := step_hangUp.1 hs
  simp only [endLog]
  split
  · next hi =>
      subst hi
      cases hlog : b₁.log i with
      | none => exact .inl (by simpa [hlog] using ih)
      | some e => exact .inr ⟨rfl, a, d, hangsUp_partner hr hp⟩
  · exact ih

end

/-! ## The log is exact -/

/-- A join is exact if the connections carry the identifier under which the call is logged. -/
def Exact (_ : Switchboard) : Act → Prop
  | .join _ _ id logId => id = logId
  | _ => True

/-- The log beside what was in it at the start: the old entries are as they were, and of the
others those of the pairs, and only those, are of running calls. -/
structure LogExact (log₀ : Int → Option (Option Nat)) (b : Switchboard) : Prop where
  distinct : b.pairing.Distinct
  old : ∀ i e, log₀ i = some e → b.log i = some e
  running : ∀ i, (log₀ i = none ∧ b.log i = some none) ↔
    ∃ a d, b.pairing.partner a = some (d, i)

/-- An exact step keeps the log exact. -/
theorem LogExact.step {log₀ : Int → Option (Option Nat)} (h : LogExact log₀ b) (hex : Exact b act)
    (hs : step b act = some (b', out)) : LogExact log₀ b' := by
  have hfresh (i : Int) (hi : b.log i = none) : ∀ x y, b.pairing.partner x ≠ some (y, i) :=
    fun x y hp => by simpa [hi] using (h.running i).2 ⟨x, y, hp⟩
  cases act with
  | join a d id logId =>
      obtain ⟨hne, ha, hd, hlog, rfl, -⟩ := step_join.1 hs
      obtain rfl : id = logId := hex
      refine ⟨h.distinct.join hne ha hd (hfresh id hlog), fun i e hi => ?_, fun i => ?_⟩
      · have hold := h.old i e hi
        have hne : i ≠ id := by
          rintro rfl
          simp [hlog] at hold
        exact (if_neg hne).trans hold
      · simp only [Pairing.partner_join_eq_some]
        split
        · next hi =>
            subst hi
            have hlog₀ : log₀ i = none := by
              cases h₀ : log₀ i with
              | none => rfl
              | some e => simpa [hlog] using h.old i e h₀
            exact iff_of_true ⟨hlog₀, rfl⟩ ⟨a, d, .inl ⟨rfl, rfl, rfl⟩⟩
        · next hi => simpa [hi] using h.running i
  | hangUp a now =>
      obtain ⟨d, id, hp, rfl, -⟩ := step_hangUp.1 hs
      refine ⟨h.distinct.hangUp, fun i e hi => ?_, fun i => ?_⟩
      · -- the call that ends is of a pair, so it is no old one
        have hne : i ≠ id := by
          rintro rfl
          simpa [hi] using (h.running i).2 ⟨a, d, hp⟩
        simp only [endLog, if_neg hne]
        exact h.old i e hi
      · simp only [endLog, Pairing.partner_hangUp_eq_some]
        split
        · next hi =>
            subst hi
            refine iff_of_false (by cases b.log i <;> simp) ?_
            rintro ⟨x, y, hxy, hxa, hya⟩
            rcases h.distinct hp hxy with rfl | rfl
            · exact hxa rfl
            · exact hya (congrArg Prod.fst
                (Option.some.inj (hxy.symm.trans (b.pairing.symm hp))))
        · next hi =>
            refine (h.running i).trans ⟨?_, ?_⟩
            · rintro ⟨x, y, hxy⟩
              refine ⟨x, y, hxy, ?_, ?_⟩ <;> rintro rfl
              · exact hi (congrArg Prod.snd (Option.some.inj (hxy.symm.trans hp)))
              · exact hi (congrArg Prod.snd
                  (Option.some.inj ((b.pairing.symm hxy).symm.trans hp)))
            · rintro ⟨x, y, hxy, -, -⟩
              exact ⟨x, y, hxy⟩
  | stop a =>
      obtain ⟨-, rfl, -⟩ := step_stop.1 hs
      exact h

/-- **The exactness of the log**, over every run of exact steps from a board without pairs. -/
theorem runs_logExact (h : Runs step Exact b₀ acts b tr) (h₀ : b₀.pairing = .empty) :
    LogExact b₀.log b := by
  refine h.invariant (I := LogExact b₀.log) ?_ fun _ _ _ _ hI hex hs => hI.step hex hs
  refine ⟨h₀ ▸ Pairing.distinct_empty, fun _ _ hi => hi, fun i => iff_of_false ?_ ?_⟩
  · rintro ⟨h₁, h₂⟩
    simp [h₁] at h₂
  · rintro ⟨a, d, hp⟩
    simp [h₀] at hp

end Switchboard

end NetISDN
