import Mathlib.Algebra.Order.Ring.Int
import Std.Data.ExtTreeMap.Lemmas
import NetISDN.General.Sweep

/-!
# One-shot timers

`OneShot` (`oneshot.cpp`) starts timers that each run out once and then report the number they were
started with. A timer cannot be stopped. What has run out is deleted 10 milliseconds later, by
`zombieData`. Its loop erases the entry its iterator is at and then advances the iterator, so it is
defined if and only if there is nothing to delete (`timersSwept_iff`).
-/

namespace NetISDN

open Std

/-- A `QTimer`: its interval, and whether it is running. -/
structure QTimer where
  msecs : Int
  active : Bool

/-- `OneShot`. Of the timer that calls `zombieData` only whether it is running matters. -/
structure OneShot where
  shot_timers : ExtTreeMap Int QTimer compare := ∅
  shot_pointers : ExtTreeMap Int Nat compare := ∅
  shot_zombie_timer : Bool := false
  shot_count : Int := 0

namespace OneShot

/-- `shot_timers[id]`, if there is such an entry. -/
def timer (o : OneShot) (id : Int) : Option QTimer := o.shot_timers[id]?

/-- `shot_pointers[id]`, if there is such an entry. -/
def pointer (o : OneShot) (id : Int) : Option Nat := o.shot_pointers[id]?

/-- `start` (`oneshot.cpp:41`). The counter is an `int`: behind its largest value there is none. -/
def start (o : OneShot) (data : Nat) (msecs : Int) : Option OneShot :=
  if o.shot_count = 2147483647 then none
  else some { o with
    shot_pointers := o.shot_pointers.insert o.shot_count data
    shot_timers := o.shot_timers.insert o.shot_count ⟨msecs, true⟩
    shot_count := o.shot_count + 1 }

/-- `timeoutData` (`oneshot.cpp:53`), with the number it reports. `shot_pointers[id]` makes an
entry of 0 where there is none. -/
def timeoutData (o : OneShot) (id : Int) : OneShot × Nat :=
  ({ o with shot_pointers := o.shot_pointers.insertIfNew id 0, shot_zombie_timer := true },
    (o.pointer id).getD 0)

/-- A running timer runs out: it stops, and the mapper calls `timeoutData`. -/
def expire (o : OneShot) (id : Int) : Option (OneShot × Nat) := do
  let t ← o.timer id
  if t.active then
    return OneShot.timeoutData
      { o with shot_timers := o.shot_timers.insert id { t with active := false } } id
  else none

/-- What `zombieData` does to a timer that has run out: it erases both entries. -/
def eraseTimer (o : OneShot) (id : Int) : OneShot :=
  { o with shot_pointers := o.shot_pointers.erase id, shot_timers := o.shot_timers.erase id }

/-- One turn of the loop of `zombieData`. -/
def zombieTurn (o : OneShot) (id : Int) : OneShot :=
  if (o.timer id).any (fun t => !t.active) then o.eraseTimer id else o

/-- `zombieData` (`oneshot.cpp:60`), if the loop goes on behind an erased entry with the entry that
followed it. -/
def zombieData (o : OneShot) : OneShot :=
  { o.shot_timers.keys.foldl zombieTurn o with shot_zombie_timer := false }

/-- The loop of `zombieData` with its iterator. -/
def zombieLoop : Sweep.Loop Int OneShot where
  keys o := o.shot_timers.keys
  sorted o := by
    have h := ExtTreeMap.ordered_keys (t := o.shot_timers)
    exact h.imp fun hab => by simpa [compare_lt_iff_lt] using hab
  body o id := some (o.zombieTurn id)

/-- `zombieData` does what it is for: it ends, and leaves exactly the timers that are running. -/
def TimersSwept (o : OneShot) : Prop :=
  ∃ o', (∀ fuel, o.shot_timers.size ≤ fuel → zombieLoop.run fuel o = .finished o') ∧
    ∀ id (t : QTimer),
      o'.timer id = some t ↔ o.timer id = some t ∧ t.active = true

section
variable {o o' : OneShot} {id k : Int} {t : QTimer} {data : Nat} {msecs : Int}

/-- The keys are those of the timers. -/
theorem mem_keys : id ∈ o.shot_timers.keys ↔ ∃ t, o.timer id = some t := by
  rw [ExtTreeMap.mem_keys, timer, ← Option.isSome_iff_exists, ← ExtTreeMap.mem_iff_isSome_getElem?]

/-- An entry that is erased is gone. -/
theorem timer_eraseTimer : (o.eraseTimer id).timer k = if id = k then none else o.timer k := by
  simp only [timer, eraseTimer, ExtTreeMap.getElem?_erase, LawfulEqCmp.compare_eq_iff_eq]

/-- And so is its pointer. -/
theorem pointer_eraseTimer :
    (o.eraseTimer id).pointer k = if id = k then none else o.pointer k := by
  simp only [pointer, eraseTimer, ExtTreeMap.getElem?_erase, LawfulEqCmp.compare_eq_iff_eq]

/-- A turn takes away a timer that has run out. -/
theorem zombieTurn_of_inactive (ht : o.timer id = some t) (hactive : t.active = false) :
    o.zombieTurn id = o.eraseTimer id := by
  rw [zombieTurn, ht, Option.any_some, hactive]
  rfl

/-- A turn does nothing else. -/
theorem zombieTurn_of_active (h : ∀ t, o.timer id = some t → t.active = true) :
    o.zombieTurn id = o := by
  rw [zombieTurn]
  cases ht : o.timer id with
  | none => rfl
  | some t =>
      rw [Option.any_some, h t ht]
      rfl

/-- The loop erases the timers that have run out. -/
theorem erases_zombieLoop :
    Sweep.Erases zombieLoop fun o id => ∃ t, o.timer id = some t ∧ t.active = false where
  keeps := by
    intro o id _ hp
    have hturn : o.zombieTurn id = o := zombieTurn_of_active fun t ht =>
      Bool.eq_true_of_not_eq_false fun h => hp ⟨t, ht, h⟩
    exact ⟨o, congrArg some hturn, rfl, fun _ => Iff.rfl⟩
  erases := by
    rintro o id o' ⟨t, ht, hactive⟩ hbody hmem
    obtain rfl : o.zombieTurn id = o' := Option.some.inj hbody
    rw [zombieTurn_of_inactive ht hactive] at hmem
    obtain ⟨t', ht'⟩ := mem_keys.1 hmem
    rw [timer_eraseTimer, if_pos rfl] at ht'
    cases ht'

/-- A turn of the sweep removes the timer if it has run out. -/
theorem timer_zombieTurn : (o.zombieTurn id).timer k =
    if id = k then (o.timer k).filter QTimer.active else o.timer k := by
  cases ht : o.timer id with
  | none =>
      rw [zombieTurn_of_active fun t h => absurd (ht.symm.trans h) nofun]
      split
      · next hk => rw [← hk, ht, Option.filter_none]
      · rfl
  | some t =>
      rcases Bool.eq_false_or_eq_true t.active with hactive | hactive
      · rw [zombieTurn_of_active fun t' h => Option.some.inj (ht.symm.trans h) ▸ hactive]
        split
        · next hk => rw [← hk, ht, Option.filter_some, if_pos hactive]
        · rfl
      · rw [zombieTurn_of_inactive ht hactive, timer_eraseTimer]
        split
        · next hk => rw [← hk, ht, Option.filter_some, if_neg (by rw [hactive]; exact nofun)]
        · rfl

/-- A turn leaves the number of a running timer. -/
theorem pointer_zombieTurn
    (h : ∀ t, o.timer k = some t → t.active = true) :
    (o.zombieTurn id).pointer k = o.pointer k := by
  rw [zombieTurn]
  split
  · next hany =>
      rw [pointer_eraseTimer, if_neg]
      rintro rfl
      obtain ⟨t, ht, hactive⟩ := (Option.any_eq_true _ _).1 hany
      rw [h t ht] at hactive
      cases hactive
  · rfl

/-- It does not touch the counter. -/
theorem shot_count_zombieTurn : (o.zombieTurn id).shot_count = o.shot_count := by
  rw [zombieTurn]
  split <;> rfl

/-- The sweep removes the timers that have run out. -/
theorem timer_foldl (ids : List Int) (o : OneShot) (k : Int) :
    (ids.foldl zombieTurn o).timer k =
      if k ∈ ids then (o.timer k).filter QTimer.active else o.timer k := by
  induction ids generalizing o with
  | nil => rw [List.foldl_nil, if_neg List.not_mem_nil]
  | cons id ids ih =>
      rw [List.foldl_cons, ih, timer_zombieTurn]
      rcases eq_or_ne id k with rfl | hk
      · simp
      · simp [hk, Ne.symm hk]

/-- The pointers of the others stay. -/
theorem pointer_foldl (ids : List Int) (o : OneShot)
    (h : ∀ t, o.timer k = some t → t.active = true) :
    (ids.foldl zombieTurn o).pointer k = o.pointer k := by
  induction ids generalizing o with
  | nil => rfl
  | cons id ids ih =>
      rw [List.foldl_cons, ih, pointer_zombieTurn h]
      intro t ht
      rw [timer_zombieTurn] at ht
      split at ht
      · exact h t (Option.eq_some_of_filter_eq_some ht)
      · exact h t ht

/-- `zombieData` leaves the timers that are running. -/
theorem timer_zombieData :
    o.zombieData.timer k = (o.timer k).filter QTimer.active := by
  refine (timer_foldl o.shot_timers.keys o k).trans ?_
  split
  · rfl
  · next hk =>
      cases ht : o.timer k with
      | none => rfl
      | some t => exact absurd (mem_keys.2 ⟨t, ht⟩) hk

/-- `zombieData` leaves the numbers of the timers that are running. -/
theorem pointer_zombieData (h : ∀ t, o.timer k = some t → t.active = true) :
    o.zombieData.pointer k = o.pointer k :=
  pointer_foldl o.shot_timers.keys o h

/-- The sweep does not touch the counter. -/
theorem shot_count_zombieData : o.zombieData.shot_count = o.shot_count := by
  have go (ids : List Int) (o : OneShot) :
      (ids.foldl zombieTurn o).shot_count = o.shot_count := by
    induction ids generalizing o with
    | nil => rfl
    | cons id ids ih => exact (ih _).trans shot_count_zombieTurn
  exact go _ o

/-- **`zombieData` does what it is for if and only if** every timer is running. -/
theorem timersSwept_iff :
    TimersSwept o ↔ ∀ id t, o.timer id = some t → t.active = true := by
  constructor
  · rintro ⟨o', hrun, -⟩ id t ht
    have hnone := erases_zombieLoop.none_of_finished
      (fun fuel hfuel => hrun fuel (ExtTreeMap.length_keys.ge.trans hfuel)) id (mem_keys.2 ⟨t, ht⟩)
    exact Bool.eq_true_of_not_eq_false fun h => hnone ⟨t, ht, h⟩
  · intro hall
    have hnone (id : Int) : ¬ ∃ t, o.timer id = some t ∧ t.active = false := by
      rintro ⟨t, ht, h⟩
      rw [hall id t ht] at h
      cases h
    obtain ⟨o', hfold, hrun⟩ := erases_zombieLoop.finishes (s := o) fun id _ => hnone id
    have ho' : o.shot_timers.keys.foldl zombieTurn o = o' :=
      Option.some.inj (List.foldlM_pure.symm.trans hfold)
    refine ⟨o', fun fuel hfuel => hrun fuel (ExtTreeMap.length_keys.trans_le hfuel), fun id t => ?_⟩
    rw [← ho', ← Option.filter_eq_some_iff]
    exact Eq.congr_left (timer_zombieData (o := o))

/-! ## The timers that are running -/

/-- The timer `id` is running, and will report `data`. -/
def Running (o : OneShot) (id : Int) (data : Nat) : Prop :=
  (o.timer id).any QTimer.active = true ∧ o.pointer id = some data

/-- Whether a timer that will report `data` is running. -/
def runs (o : OneShot) (data : Nat) : Bool :=
  o.shot_timers.keys.any fun id => (o.timer id).any QTimer.active && o.pointer id == some data

/-- A timer runs for the data if one does under some number. -/
theorem runs_iff : o.runs data = true ↔ ∃ id, o.Running id data := by
  rw [runs, List.any_eq_true]
  constructor
  · rintro ⟨id, -, h⟩
    exact ⟨id, by simpa [Running] using h⟩
  · rintro ⟨id, hactive, hpointer⟩
    obtain ⟨t, ht, -⟩ := (Option.any_eq_true _ _).1 hactive
    exact ⟨id, mem_keys.2 ⟨t, ht⟩, by simp [hactive, hpointer]⟩

/-- The timers have numbers that the counter has passed, and each that is running has something to
report. -/
structure Numbered (o : OneShot) : Prop where
  passed : ∀ id t, o.timer id = some t → id < o.shot_count
  paired : ∀ id, (o.timer id).any QTimer.active = true → ∃ data, o.pointer id = some data

/-- There is no timer yet. -/
theorem numbered_empty : Numbered {} where
  passed := by
    intro id t ht
    cases ht.symm.trans (ExtTreeMap.getElem?_empty (a := id))
  paired := by
    intro id hactive
    obtain ⟨t, ht, -⟩ := (Option.any_eq_true _ _).1 hactive
    cases ht.symm.trans (ExtTreeMap.getElem?_empty (a := id))

/-- `start` adds a timer under the number of the counter. -/
theorem start_spec (h : o.start data msecs = some o') : o'.shot_count = o.shot_count + 1 ∧
    (∀ k, o'.timer k = if o.shot_count = k then some ⟨msecs, true⟩ else o.timer k) ∧
    ∀ k, o'.pointer k = if o.shot_count = k then some data else o.pointer k := by
  rw [start] at h
  split at h
  · cases h
  · obtain rfl := Option.some.inj h
    refine ⟨rfl, fun k => ?_, fun k => ?_⟩
    · simp only [timer, ExtTreeMap.getElem?_insert, LawfulEqCmp.compare_eq_iff_eq]
    · simp only [pointer, ExtTreeMap.getElem?_insert, LawfulEqCmp.compare_eq_iff_eq]

/-- A timer that is started has the next number. -/
theorem Numbered.start (hn : Numbered o) (h : o.start data msecs = some o') : Numbered o' := by
  obtain ⟨hcount, htimer, hpointer⟩ := start_spec h
  refine ⟨fun id t ht => ?_, fun id hactive => ?_⟩
  · rw [htimer] at ht
    split at ht
    · omega
    · have hlt := hn.passed id t ht
      omega
  · rw [htimer] at hactive
    rw [hpointer]
    split
    · exact ⟨data, rfl⟩
    · next hk =>
        rw [if_neg hk] at hactive
        exact hn.paired id hactive

/-- After `start` one more timer is running. -/
theorem running_start (hn : Numbered o) (h : o.start data msecs = some o') {d : Nat} :
    o'.Running id d ↔ (id = o.shot_count ∧ d = data) ∨ o.Running id d := by
  obtain ⟨-, htimer, hpointer⟩ := start_spec h
  rw [Running, htimer, hpointer]
  split
  · next hk =>
      subst hk
      have hnot : ¬ o.Running o.shot_count d := by
        rintro ⟨hactive, -⟩
        obtain ⟨t, ht, -⟩ := (Option.any_eq_true _ _).1 hactive
        exact absurd (hn.passed _ t ht) (lt_irrefl _)
      rw [or_iff_left hnot]
      simp [eq_comm]
  · next hk => rw [or_iff_right fun h => hk h.1.symm, Running]

/-- `timeoutData` reports the number of the timer, and leaves the numbers as they are. -/
theorem timeoutData_spec (h : o.pointer id = some data) : (o.timeoutData id).2 = data ∧
    ∀ k, (o.timeoutData id).1.pointer k = o.pointer k := by
  refine ⟨?_, fun k => ?_⟩
  · rw [timeoutData, h, Option.getD_some]
  · have hmem : id ∈ o.shot_pointers :=
      ExtTreeMap.mem_iff_isSome_getElem?.2 (Option.isSome_iff_exists.2 ⟨data, h⟩)
    simp only [pointer, timeoutData, ExtTreeMap.getElem?_insertIfNew, hmem, not_true, and_false,
      if_false]

/-- A timer that runs out was running, and reports its number. -/
theorem expire_spec (hn : Numbered o) (h : o.expire id = some (o', data)) :
    o.Running id data ∧ o'.shot_count = o.shot_count ∧
    (∃ t : QTimer, t.active = false ∧ ∀ k, o'.timer k = if id = k then some t else o.timer k) ∧
    ∀ k, o'.pointer k = o.pointer k := by
  obtain ⟨t, ht, h⟩ := Option.bind_eq_some_iff.1 h
  split at h
  · next hactive =>
      have hrun : (o.timer id).any QTimer.active = true := by rw [ht, Option.any_some, hactive]
      obtain ⟨d, hd⟩ := hn.paired id hrun
      have hspec := timeoutData_spec
        (o := { o with shot_timers := o.shot_timers.insert id { t with active := false } }) hd
      rw [Option.some.inj h] at hspec
      obtain ⟨rfl, hpointer⟩ := hspec
      refine ⟨⟨hrun, hd⟩, ?_, ⟨{ t with active := false }, rfl, fun k => ?_⟩, hpointer⟩
      · exact congrArg (fun r => r.1.shot_count) (Option.some.inj h).symm
      · have htimers : o'.shot_timers = o.shot_timers.insert id { t with active := false } :=
          congrArg (fun r => r.1.shot_timers) (Option.some.inj h).symm
        simp only [timer, htimers, ExtTreeMap.getElem?_insert, LawfulEqCmp.compare_eq_iff_eq]
  · cases h

/-- A running timer can run out. -/
theorem exists_expire (h : o.Running id data) : ∃ o', o.expire id = some (o', data) := by
  obtain ⟨t, ht, hactive⟩ := (Option.any_eq_true _ _).1 h.1
  have hdata : (({ o with shot_timers := o.shot_timers.insert id { t with active := false } } :
      OneShot).timeoutData id).2 = data := (timeoutData_spec h.2).1
  rw [expire, ht, Option.bind_eq_bind, Option.bind_some, if_pos hactive]
  exact ⟨_, congrArg some (Prod.ext rfl hdata)⟩

/-- After a timer has run out, the others are still running. -/
theorem running_expire (hn : Numbered o) (h : o.expire id = some (o', data)) {d : Nat} :
    o'.Running k d ↔ k ≠ id ∧ o.Running k d := by
  obtain ⟨-, -, ⟨t, ht, htimer⟩, hpointer⟩ := expire_spec hn h
  rw [Running, htimer, hpointer]
  split
  · next hk => simp [hk, ht]
  · next hk => rw [and_iff_right (Ne.symm hk), Running]

/-- A timer that runs out keeps its number. -/
theorem Numbered.expire (hn : Numbered o) (h : o.expire id = some (o', data)) : Numbered o' := by
  obtain ⟨⟨hactive, -⟩, hcount, ⟨t, ht, htimer⟩, hpointer⟩ := expire_spec hn h
  refine ⟨fun k t' ht' => ?_, fun k hk => ?_⟩
  · rw [hcount]
    rw [htimer] at ht'
    split at ht'
    · next hid =>
        obtain ⟨t₀, ht₀, -⟩ := (Option.any_eq_true _ _).1 hactive
        exact hid ▸ hn.passed id t₀ ht₀
    · exact hn.passed k t' ht'
  · rw [hpointer]
    rw [htimer] at hk
    split at hk
    · rw [Option.any_some, ht] at hk
      cases hk
    · exact hn.paired k hk

/-- `zombieData` leaves what is running. -/
theorem any_active_zombieData :
    (o.zombieData.timer k).any QTimer.active = (o.timer k).any QTimer.active := by
  rw [timer_zombieData]
  cases o.timer k with
  | none => rfl
  | some t =>
      rw [Option.filter_some]
      split
      · rfl
      · next h => exact (Bool.eq_false_iff.2 h).symm

/-- The pointer of a timer that runs stays. -/
theorem pointer_zombieData_of_active (h : (o.timer k).any QTimer.active = true) :
    o.zombieData.pointer k = o.pointer k := by
  obtain ⟨t, ht, hactive⟩ := (Option.any_eq_true _ _).1 h
  exact pointer_zombieData fun t' ht' => Option.some.inj (ht.symm.trans ht') ▸ hactive

/-- The sweep stops no timer that runs. -/
theorem running_zombieData {d : Nat} : o.zombieData.Running k d ↔ o.Running k d := by
  rw [Running, Running, any_active_zombieData]
  exact and_congr_right fun h => by rw [pointer_zombieData_of_active h]

/-- And it gives no timer another number. -/
theorem Numbered.zombieData (hn : Numbered o) : Numbered o.zombieData where
  passed := by
    intro id t ht
    rw [timer_zombieData] at ht
    rw [shot_count_zombieData]
    exact hn.passed id t (Option.eq_some_of_filter_eq_some ht)
  paired := by
    intro id h
    rw [any_active_zombieData] at h
    rw [pointer_zombieData_of_active h]
    exact hn.paired id h

end

end OneShot

end NetISDN
