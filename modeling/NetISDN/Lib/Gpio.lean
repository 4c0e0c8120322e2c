import NetISDN.General.Runs
import NetISDN.Lib.Codec
import NetISDN.Lib.OneShot

/-!
# The GPIO lines

`sendGpio` (`codec.cpp:656`) turns a line on or off; a line that it turns on for an interval is
turned off by a one-shot timer. The timer knows the line, not the command that started it, and
nothing stops it when the line is turned off before. So a line obeys its latest command as long as
no command turns a line on for which a timer is still running (`obeys_of_runs`), and after such a
command there is an order in which timers end that turns the line off too early
(`obeys_iff_timely`).
-/

namespace NetISDN

open TransitionSystem

/-- The parts of `Codec` that the GPIO lines use: those it has anyway, and the timers. -/
structure GpioCodec extends Codec where
  transGpioOneshot : OneShot := {}

/-- What happens to a line: a command, with the timer that it starts, or the end of a timer. -/
inductive GpioTrace where
  | command (line : Fin 32) (state : Bool) (interval : BitVec 32) (timer : Option Int)
  | expired (timer : Int)
  deriving DecidableEq

/-- A command, the end of a timer, or the deletion of the timers that have ended. -/
inductive GpioEvent where
  | sendGpio (line : Fin 32) (state : Bool) (interval : BitVec 32)
  | expire (timer : Int)
  | zombieData
  deriving DecidableEq

namespace GpioCodec

/-- `codec_trans_gpio&mask`, for the mask of a line. -/
def lineOn (c : GpioCodec) (line : Fin 32) : Bool := c.transGpio &&& (1#32 <<< line.val) ≠ 0

/-- `sendGpio` (`codec.cpp:656`), with the timer that it starts. -/
def sendGpio (c : GpioCodec) (line : Fin 32) (state : Bool) (interval : BitVec 32) :
    Option (GpioCodec × Option Int) :=
  let mask := 1#32 <<< line.val
  if state then
    if c.transGpio &&& mask = 0 then
      let c := { c with transGpio := c.transGpio ||| mask }
      if 0 < interval then do
        let oneshot ← c.transGpioOneshot.start line interval.toInt
        return ({ c with transGpioOneshot := oneshot }, some c.transGpioOneshot.shot_count)
      else some (c, none)
    else some (c, none)
  else if c.transGpio &&& mask ≠ 0 then
    some ({ c with transGpio := c.transGpio &&& ~~~mask }, none)
  else some (c, none)

/-- `transOneshotData` (`codec.cpp:912`). -/
def transOneshotData (c : GpioCodec) (data : Nat) : GpioCodec :=
  { c with transGpio := c.transGpio &&& ~~~(1#32 <<< data) }

/-- A step: a command, a timer that runs out, or the timer that deletes the others. -/
def step (c : GpioCodec) : GpioEvent → Option (GpioCodec × List GpioTrace)
  | .sendGpio line state interval => do
      let (c, timer) ← c.sendGpio line state interval
      return (c, [.command line state interval timer])
  | .expire timer => do
      let (oneshot, data) ← c.transGpioOneshot.expire timer
      return ({ c with transGpioOneshot := oneshot }.transOneshotData data, [.expired timer])
  | .zombieData =>
      if c.transGpioOneshot.shot_zombie_timer then
        some ({ c with transGpioOneshot := c.transGpioOneshot.zombieData }, [])
      else none

end GpioCodec

/-! ## What the latest command of a line says -/

/-- What a line has been told: to be off, to be on, or to be on until a timer ends, the one that the
command has started (`none` if it has started none). -/
inductive LineState where
  | off
  | on
  | pulse (timer : Option Int)
  deriving DecidableEq

/-- A command of the line replaces what it has been told before; a pulse ends with its own timer. -/
def LineState.next (line : Fin 32) (told : LineState) : GpioTrace → LineState
  | .command l state interval timer =>
      if l = line then
        if state then if 0 < interval then .pulse timer else .on
        else .off
      else told
  | .expired timer => if told = .pulse (some timer) then .off else told

/-- What a line has been told in the end. -/
def told (tr : List GpioTrace) (line : Fin 32) : LineState := tr.foldl (LineState.next line) .off

/-- **Every line obeys its latest command**: it is on unless it has been told to be off or the timer
of its latest command has ended; and that timer exists, and is running. -/
def Obeys (tr : List GpioTrace) (c : GpioCodec) : Prop :=
  ∀ line, (c.lineOn line = true ↔ told tr line ≠ .off) ∧
    ∀ timer, told tr line = .pulse timer →
      ∃ id, timer = some id ∧ c.transGpioOneshot.Running id line

/-- A command to turn a line on comes when no timer of the line is running, and while the line is
off or for good. -/
def Timely (c : GpioCodec) : GpioEvent → Prop
  | .sendGpio line true interval =>
      c.transGpioOneshot.runs line = false ∧ (c.lineOn line = false ∨ interval = 0)
  | _ => True

instance : ∀ c e, Decidable (Timely c e)
  | _, .sendGpio _ true _ => inferInstanceAs (Decidable (_ ∧ _))
  | _, .sendGpio _ false _ | _, .expire _ | _, .zombieData => inferInstanceAs (Decidable True)

/-! ## What the operations do -/

namespace GpioCodec

variable {c c' : GpioCodec} {line k : Fin 32} {state : Bool} {interval : BitVec 32}
  {timer : Option Int}

/-- A line is on when its bit is. -/
theorem lineOn_eq : c.lineOn line = c.transGpio.getLsbD line := by
  rw [lineOn, ← BitVec.twoPow_eq, BitVec.and_twoPow]
  cases c.transGpio.getLsbD line with
  | false => rfl
  | true =>
      have hne : BitVec.twoPow 32 line.val ≠ 0 := fun h => by
        have hbit := congrArg (BitVec.getLsbD · line.val) h
        simp at hbit
      simpa using hne

/-- Setting the bit of a line turns the line on. -/
theorem getLsbD_or_mask (x : BitVec 32) :
    (x ||| (1#32 <<< line.val)).getLsbD k = (x.getLsbD k || decide (k = line)) := by
  rw [BitVec.getLsbD_or, ← BitVec.twoPow_eq, BitVec.getLsbD_twoPow]
  simp [Fin.ext_iff, eq_comm]

/-- Clearing the bit of a line turns the line off. -/
theorem getLsbD_and_not_mask (x : BitVec 32) (data : Nat) :
    (x &&& ~~~(1#32 <<< data)).getLsbD k = (x.getLsbD k && decide (k.val ≠ data)) := by
  rw [BitVec.getLsbD_and, BitVec.getLsbD_not, ← BitVec.twoPow_eq, BitVec.getLsbD_twoPow]
  rcases eq_or_ne data k.val with h | h
  · simp [h]
  · simp [h, Ne.symm h]

/-- The end of a timer switches its line off and no other. -/
theorem lineOn_transOneshotData (data : Nat) :
    (c.transOneshotData data).lineOn k = (c.lineOn k && decide (k.val ≠ data)) := by
  rw [lineOn_eq, lineOn_eq]
  exact getLsbD_and_not_mask c.transGpio data

/-- The test of `sendGpio`. -/
theorem lineOn_eq_false : c.lineOn line = false ↔ c.transGpio &&& (1#32 <<< line.val) = 0 := by
  rw [lineOn, decide_eq_false_iff_not, not_not]

/-- A command to turn a line off. -/
theorem sendGpio_off (h : c.sendGpio line false interval = some (c', timer)) :
    timer = none ∧ c'.transGpioOneshot = c.transGpioOneshot ∧
      ∀ k, c'.lineOn k = (c.lineOn k && decide (k ≠ line)) := by
  simp only [sendGpio, Bool.false_eq_true, if_false] at h
  split at h
  · obtain ⟨rfl, rfl⟩ := Prod.mk.inj (Option.some.inj h)
    refine ⟨rfl, rfl, fun k => ?_⟩
    rw [lineOn_eq, lineOn_eq]
    refine (getLsbD_and_not_mask c.transGpio line).trans ?_
    simp [Fin.ext_iff]
  · next hoff =>
      obtain ⟨rfl, rfl⟩ := Prod.mk.inj (Option.some.inj h)
      have hline : c.lineOn line = false := lineOn_eq_false.2 (not_not.1 hoff)
      refine ⟨rfl, rfl, fun k => ?_⟩
      rcases eq_or_ne k line with rfl | hk
      · rw [hline, Bool.false_and]
      · simp [hk]

/-- A command to turn on a line that is on. -/
theorem sendGpio_on (h : c.sendGpio line true interval = some (c', timer))
    (hon : c.lineOn line = true) : timer = none ∧ c' = c := by
  have hne : ¬ c.transGpio &&& (1#32 <<< line.val) = 0 := fun h0 => by
    rw [lineOn_eq_false.2 h0] at hon
    cases hon
  simp only [sendGpio, if_true, if_neg hne] at h
  obtain ⟨rfl, rfl⟩ := Prod.mk.inj (Option.some.inj h)
  exact ⟨rfl, rfl⟩

/-- A command to turn on a line that is off. -/
theorem sendGpio_turns_on (h : c.sendGpio line true interval = some (c', timer))
    (hoff : c.lineOn line = false) : (∀ k, c'.lineOn k = (c.lineOn k || decide (k = line))) ∧
    (interval = 0 ∧ timer = none ∧ c'.transGpioOneshot = c.transGpioOneshot ∨
      0 < interval ∧ timer = some c.transGpioOneshot.shot_count ∧
        c.transGpioOneshot.start line interval.toInt = some c'.transGpioOneshot) := by
  simp only [sendGpio, if_true, if_pos (lineOn_eq_false.1 hoff)] at h
  have hline (k : Fin 32) (c' : GpioCodec)
      (hgpio : c'.transGpio = c.transGpio ||| (1#32 <<< line.val)) :
      c'.lineOn k = (c.lineOn k || decide (k = line)) := by
    rw [lineOn_eq, lineOn_eq, hgpio]
    exact getLsbD_or_mask c.transGpio
  split at h
  · next hpos =>
      obtain ⟨oneshot, hstart, h⟩ := Option.bind_eq_some_iff.1 h
      obtain ⟨rfl, rfl⟩ := Prod.mk.inj (Option.some.inj h)
      exact ⟨fun k => hline k _ rfl, .inr ⟨hpos, rfl, hstart⟩⟩
  · next hpos =>
      obtain ⟨rfl, rfl⟩ := Prod.mk.inj (Option.some.inj h)
      refine ⟨fun k => hline k _ rfl, .inl ⟨?_, rfl, rfl⟩⟩
      exact BitVec.eq_of_toNat_eq (by simpa [BitVec.lt_def] using hpos)

end GpioCodec

/-! ## Timely commands -/

/-- The lines obey, and each timer that is running for a line that is on is that of its latest
command. -/
structure Good (tr : List GpioTrace) (c : GpioCodec) : Prop where
  obeys : Obeys tr c
  numbered : c.transGpioOneshot.Numbered
  own : ∀ id line, c.transGpioOneshot.Running id (Fin.val line) →
    told tr line = .off ∨ told tr line = .pulse (some id)

section
variable {tr : List GpioTrace} {c c' : GpioCodec} {line k : Fin 32} {state : Bool}
  {interval : BitVec 32} {timer : Option Int} {o : GpioTrace}

/-- The last output decides what its line has been told. -/
theorem told_concat : told (tr ++ [o]) line = (told tr line).next line o := by
  rw [told, List.foldl_append]
  rfl

/-- A command says what its line is to do. -/
theorem told_command : told (tr ++ [.command line state interval timer]) line =
    if state then if 0 < interval then .pulse timer else .on else .off := by
  rw [told_concat, LineState.next, if_pos rfl]

/-- A command says nothing about the other lines. -/
theorem told_command_of_ne (hk : line ≠ k) :
    told (tr ++ [.command line state interval timer]) k = told tr k := by
  rw [told_concat, LineState.next, if_neg hk]

/-- A codec is good at its start. -/
theorem good_start : Good [] {} where
  obeys := by
    intro line
    refine ⟨?_, fun timer h => nomatch h⟩
    rw [GpioCodec.lineOn_eq]
    exact iff_of_false (by simp) (not_not.2 rfl)
  numbered := OneShot.numbered_empty
  own := fun _ _ _ => .inl rfl

/-- Where no timer runs on a line, none has it. -/
theorem not_running (h : c.transGpioOneshot.runs line = false) (id : Int) :
    ¬ c.transGpioOneshot.Running id line := by
  intro hrun
  rw [OneShot.runs_iff.2 ⟨id, hrun⟩] at h
  cases h

/-- A command leaves the other lines alone, so that only its own line needs to be looked at. -/
theorem Good.command (hg : Good tr c) (hn : c'.transGpioOneshot.Numbered)
    (hlines : ∀ k, line ≠ k → c'.lineOn k = c.lineOn k)
    (hruns : ∀ id k, line ≠ k →
      (c'.transGpioOneshot.Running id (Fin.val k) ↔ c.transGpioOneshot.Running id k))
    (hself : ∀ w, told (tr ++ [.command line state interval timer]) line = w →
      (c'.lineOn line = true ↔ w ≠ .off) ∧
      (∀ timer, w = .pulse timer → ∃ id, timer = some id ∧ c'.transGpioOneshot.Running id line) ∧
      ∀ id, c'.transGpioOneshot.Running id line → w = .off ∨ w = .pulse (some id)) :
    Good (tr ++ [.command line state interval timer]) c' := by
  obtain ⟨hline, hpulse, hown⟩ := hself _ rfl
  refine ⟨fun k => ?_, hn, fun id k hrun => ?_⟩
  · rcases eq_or_ne line k with rfl | hk
    · exact ⟨hline, hpulse⟩
    · simp only [told_command_of_ne hk, hlines k hk, hruns _ k hk]
      exact hg.obeys k
  · rcases eq_or_ne line k with rfl | hk
    · exact hown id hrun
    · rw [told_command_of_ne hk]
      exact hg.own id k ((hruns id k hk).1 hrun)

/-- A line that is switched off. -/
theorem Good.off (hg : Good tr c) (h : c.sendGpio line false interval = some (c', timer)) :
    Good (tr ++ [.command line false interval timer]) c' := by
  obtain ⟨rfl, hone, hon⟩ := GpioCodec.sendGpio_off h
  refine hg.command (hone ▸ hg.numbered) (fun k hk => ?_) (fun id k _ => by rw [hone]) ?_
  · rw [hon, decide_eq_true (Ne.symm hk), Bool.and_true]
  · rintro w htold
    obtain rfl : LineState.off = w := told_command.symm.trans htold
    refine ⟨?_, nofun, fun _ _ => .inl rfl⟩
    rw [hon]
    simp

/-- A line that has been told to stay on is told so again. -/
theorem Good.on_again (hg : Good tr c) (hruns : c.transGpioOneshot.runs line = false)
    (hon : c.lineOn line = true) : Good (tr ++ [.command line true 0 none]) c := by
  refine hg.command hg.numbered (fun _ _ => rfl) (fun _ _ _ => Iff.rfl) ?_
  rintro w htold
  obtain rfl : LineState.on = w := told_command.symm.trans htold
  exact ⟨iff_of_true hon nofun, nofun, fun id hrun => absurd hrun (not_running hruns id)⟩

/-- A line is turned on for good. -/
theorem Good.on (hg : Good tr c) (hruns : c.transGpioOneshot.runs line = false)
    (hlines : ∀ k, c'.lineOn k = (c.lineOn k || decide (k = line)))
    (hone : c'.transGpioOneshot = c.transGpioOneshot) :
    Good (tr ++ [.command line true 0 none]) c' := by
  refine hg.command (hone ▸ hg.numbered) (fun k hk => ?_) (fun id k _ => by rw [hone]) ?_
  · rw [hlines, decide_eq_false (Ne.symm hk), Bool.or_false]
  · rintro w htold
    obtain rfl : LineState.on = w := told_command.symm.trans htold
    refine ⟨?_, nofun, fun id hrun => absurd (hone ▸ hrun) (not_running hruns id)⟩
    rw [hlines]
    simp

/-- A line is turned on for an interval. -/
theorem Good.pulse (hg : Good tr c) (hruns : c.transGpioOneshot.runs line = false)
    (hlines : ∀ k, c'.lineOn k = (c.lineOn k || decide (k = line))) (hpos : 0 < interval)
    (hstart : c.transGpioOneshot.start line interval.toInt = some c'.transGpioOneshot) :
    Good (tr ++ [.command line true interval (some c.transGpioOneshot.shot_count)]) c' := by
  have hrunning (id : Int) (k : Fin 32) : c'.transGpioOneshot.Running id k ↔
      id = c.transGpioOneshot.shot_count ∧ k = line ∨ c.transGpioOneshot.Running id k := by
    rw [OneShot.running_start hg.numbered hstart, Fin.ext_iff]
  refine hg.command (hg.numbered.start hstart) (fun k hk => ?_) (fun id k hk => ?_) ?_
  · rw [hlines, decide_eq_false (Ne.symm hk), Bool.or_false]
  · rw [hrunning]
    exact or_iff_right fun h => hk h.2.symm
  · rintro w htold
    rw [told_command, if_pos rfl, if_pos hpos] at htold
    subst htold
    refine ⟨?_, ?_, fun id hrun => ?_⟩
    · rw [hlines]
      simp
    · rintro timer ⟨rfl⟩
      exact ⟨_, rfl, (hrunning _ _).2 (.inl ⟨rfl, rfl⟩)⟩
    · rcases (hrunning id line).1 hrun with ⟨rfl, -⟩ | hrun
      · exact .inr rfl
      · exact absurd hrun (not_running hruns id)

/-- A timely command keeps the lines obeying. -/
theorem Good.sendGpio (hg : Good tr c) (ht : Timely c (.sendGpio line state interval))
    (h : c.sendGpio line state interval = some (c', timer)) :
    Good (tr ++ [.command line state interval timer]) c' := by
  cases state with
  | false => exact hg.off h
  | true =>
      obtain ⟨hruns, hfresh⟩ := ht
      cases hon : c.lineOn line with
      | true =>
          obtain rfl := hfresh.resolve_left fun hoff => by
            rw [hon] at hoff
            cases hoff
          obtain ⟨rfl, rfl⟩ := GpioCodec.sendGpio_on h hon
          exact hg.on_again hruns hon
      | false =>
          obtain ⟨hlines, ⟨rfl, rfl, hone⟩ | ⟨hpos, rfl, hstart⟩⟩ :=
            GpioCodec.sendGpio_turns_on h hon
          · exact hg.on hruns hlines hone
          · exact hg.pulse hruns hlines hpos hstart

/-- The end of a timer says nothing about a line whose pulse it does not end. -/
theorem told_expired_of_ne {id : Int} (hk : told tr k ≠ .pulse (some id)) :
    told (tr ++ [.expired id]) k = told tr k := by
  rw [told_concat, LineState.next, if_neg hk]

/-- A timer that runs out keeps the lines obeying: if its line is on, then by its command. -/
theorem Good.expire (hg : Good tr c) {id : Int} {oneshot : OneShot} {data : Nat}
    (h : c.transGpioOneshot.expire id = some (oneshot, data)) :
    Good (tr ++ [.expired id])
      ({ c with transGpioOneshot := oneshot }.transOneshotData data) := by
  obtain ⟨hrun, -⟩ := OneShot.expire_spec hg.numbered h
  have hrunning (j : Int) (k : Fin 32) :
      oneshot.Running j k ↔ j ≠ id ∧ c.transGpioOneshot.Running j k :=
    OneShot.running_expire hg.numbered h
  have hlines (k : Fin 32) :
      ({ c with transGpioOneshot := oneshot }.transOneshotData data).lineOn k =
      (c.lineOn k && decide (k.val ≠ data)) := GpioCodec.lineOn_transOneshotData data
  -- The line of the timer is told to be off now, if it was not before.
  have hself (k : Fin 32) (hk : k.val = data) : told (tr ++ [.expired id]) k = .off := by
    rw [told_concat, LineState.next]
    split
    · rfl
    · next hne => exact (hg.own id k (hk ▸ hrun)).resolve_right hne
  -- Another line is not in a pulse of the timer.
  have hother (k : Fin 32) (hk : k.val ≠ data) : told (tr ++ [.expired id]) k = told tr k := by
    refine told_expired_of_ne fun hpulse => hk ?_
    obtain ⟨j, hj, hjrun⟩ := (hg.obeys k).2 _ hpulse
    obtain rfl := Option.some.inj hj
    exact Option.some.inj (hjrun.2.symm.trans hrun.2)
  refine ⟨fun k => ?_, hg.numbered.expire h, fun j k hj => ?_⟩
  · rw [hlines]
    rcases eq_or_ne k.val data with hk | hk
    · rw [hself k hk]
      simp [hk]
    · obtain ⟨hline, hown⟩ := hg.obeys k
      rw [hother k hk]
      refine ⟨by simpa [hk] using hline, fun timer htimer => ?_⟩
      obtain ⟨j, rfl, hjrun⟩ := hown timer htimer
      refine ⟨j, rfl, (hrunning j k).2 ⟨?_, hjrun⟩⟩
      rintro rfl
      exact hk (Option.some.inj (hjrun.2.symm.trans hrun.2))
  · rcases eq_or_ne k.val data with hk | hk
    · exact .inl (hself k hk)
    · rw [hother k hk]
      exact hg.own j k ((hrunning j k).1 hj).2

/-- The deletion of ended timers changes nothing for the lines. -/
theorem Good.zombieData (hg : Good tr c) :
    Good tr { c with transGpioOneshot := c.transGpioOneshot.zombieData } where
  obeys := by
    intro k
    obtain ⟨hline, hown⟩ := hg.obeys k
    refine ⟨hline, fun timer htimer => ?_⟩
    obtain ⟨id, hid, hrun⟩ := hown timer htimer
    exact ⟨id, hid, OneShot.running_zombieData.2 hrun⟩
  numbered := hg.numbered.zombieData
  own := fun id k hrun => hg.own id k (OneShot.running_zombieData.1 hrun)

/-- A step whose command, if it is one, is timely. -/
theorem Good.step (hg : Good tr c) {e : GpioEvent} {out : List GpioTrace} (ht : Timely c e)
    (h : c.step e = some (c', out)) : Good (tr ++ out) c' := by
  cases e with
  | sendGpio line state interval =>
      obtain ⟨⟨c₁, timer⟩, hsend, h⟩ := Option.bind_eq_some_iff.1 h
      obtain ⟨rfl, rfl⟩ := Prod.mk.inj (Option.some.inj h)
      exact hg.sendGpio ht hsend
  | expire id =>
      obtain ⟨⟨oneshot, data⟩, hexpire, h⟩ := Option.bind_eq_some_iff.1 h
      obtain ⟨rfl, rfl⟩ := Prod.mk.inj (Option.some.inj h)
      exact hg.expire hexpire
  | zombieData =>
      rw [GpioCodec.step] at h
      split at h
      · obtain ⟨rfl, rfl⟩ := Prod.mk.inj (Option.some.inj h)
        rw [List.append_nil]
        exact hg.zombieData
      · cases h

/-- A codec stays good as long as the events are timely. -/
theorem Good.runs {es : List GpioEvent} (h : Runs GpioCodec.step Timely {} es c tr) : Good tr c :=
  h.invariant_history (I := fun _ c tr => Good tr c) good_start
    fun _ _ _ _ _ _ _ hg ht hs => hg.step ht hs

/-- **Every line obeys its latest command** in every run whose commands are timely. -/
theorem obeys_of_runs {es : List GpioEvent} (h : Runs GpioCodec.step Timely {} es c tr) :
    Obeys tr c := (Good.runs h).obeys

/-! ## Commands that are not timely -/

/-- A pulse for a line that is on starts no timer. -/
theorem not_obeys_of_on (hon : c.lineOn line = true) (hpos : 0 < interval)
    (h : c.sendGpio line true interval = some (c', timer)) :
    ¬ Obeys (tr ++ [.command line true interval timer]) c' := by
  obtain ⟨rfl, rfl⟩ := GpioCodec.sendGpio_on h hon
  intro hobeys
  have htold : told (tr ++ [.command line true interval none]) line = .pulse none := by
    rw [told_command, if_pos rfl, if_pos hpos]
  obtain ⟨id, hid, -⟩ := (hobeys line).2 none htold
  cases hid

/-- A timer that reports a line turns it off, whatever it has been told by a command that did not
start the timer. -/
theorem not_obeys_of_expired {id : Int} {oneshot : OneShot} (hoff : told tr line ≠ .off)
    (hpulse : told tr line ≠ .pulse (some id)) :
    ¬ Obeys (tr ++ [.expired id])
      ({ c with transGpioOneshot := oneshot }.transOneshotData line) := by
  intro hobeys
  have hline := (hobeys line).1
  rw [told_expired_of_ne hpulse, GpioCodec.lineOn_transOneshotData] at hline
  simp [hoff] at hline

/-- When a command has turned a line on, or found it on, a timer that was running for the line
before is still running, and is not the timer of the command. -/
theorem stale_timer (hg : Good tr c) {id : Int} (hrun : c.transGpioOneshot.Running id line)
    (hok : c.lineOn line = false ∨ interval = 0)
    (h : c.sendGpio line true interval = some (c', timer)) :
    c'.transGpioOneshot.Running id line ∧
      told (tr ++ [.command line true interval timer]) line ≠ .off ∧
      told (tr ++ [.command line true interval timer]) line ≠ .pulse (some id) := by
  rw [told_command, if_pos rfl]
  cases hon : c.lineOn line with
  | true =>
      obtain rfl := hok.resolve_left fun hoff => by
        rw [hon] at hoff
        cases hoff
      obtain ⟨rfl, rfl⟩ := GpioCodec.sendGpio_on h hon
      exact ⟨hrun, nofun, nofun⟩
  | false =>
      obtain ⟨-, ⟨rfl, rfl, hone⟩ | ⟨hpos, rfl, hstart⟩⟩ := GpioCodec.sendGpio_turns_on h hon
      · exact ⟨hone ▸ hrun, nofun, nofun⟩
      · rw [if_pos hpos]
        refine ⟨(OneShot.running_start hg.numbered hstart).2 (.inr hrun), nofun, fun hid => ?_⟩
        obtain ⟨t, ht, -⟩ := (Option.any_eq_true _ _).1 hrun.1
        have hlt := hg.numbered.passed id t ht
        rw [LineState.pulse.injEq, Option.some.injEq] at hid
        omega

/-- After a command that is not timely, some line does not obey, at the latest when the next timer
ends. -/
theorem Good.disobeys (hg : Good tr c) {e : GpioEvent} {out : List GpioTrace}
    (ht : ¬ Timely c e) (h : c.step e = some (c', out)) :
    ∃ (timers : List Int) (c₁ : GpioCodec) (tr₁ : List GpioTrace),
      Runs GpioCodec.step Always c' (timers.map .expire) c₁ tr₁ ∧
      ¬ Obeys (tr ++ out ++ tr₁) c₁ := by
  cases e with
  | sendGpio line state interval =>
      obtain ⟨⟨c₁, timer⟩, hsend, h⟩ := Option.bind_eq_some_iff.1 h
      obtain ⟨rfl, rfl⟩ := Prod.mk.inj (Option.some.inj h)
      cases state with
      | false => exact absurd trivial ht
      | true =>
          rcases Classical.em (c.lineOn line = false ∨ interval = 0) with hok | hok
          · have hruns : c.transGpioOneshot.runs line = true :=
              Bool.eq_true_of_not_eq_false fun hf => ht ⟨hf, hok⟩
            obtain ⟨id, hrun⟩ := OneShot.runs_iff.1 hruns
            obtain ⟨hrun', hoff, hpulse⟩ := stale_timer hg hrun hok hsend
            obtain ⟨oneshot, hexpire⟩ := OneShot.exists_expire hrun'
            have hstep : c₁.step (.expire id) =
                some ({ c₁ with transGpioOneshot := oneshot }.transOneshotData line,
                  [.expired id]) := by
              rw [GpioCodec.step, hexpire]
              rfl
            exact ⟨[id], _, _, Runs.single trivial hstep, not_obeys_of_expired hoff hpulse⟩
          · obtain ⟨hon, hzero⟩ := not_or.1 hok
            have hpos : 0 < interval := (BitVec.pos_iff_ne_zero _).2 hzero
            refine ⟨[], _, [], .nil, ?_⟩
            rw [List.append_nil]
            exact not_obeys_of_on (Bool.eq_true_of_not_eq_false hon) hpos hsend
  | expire id => exact absurd trivial ht
  | zombieData => exact absurd trivial ht

/-- **Every line obeys its latest command, in whatever order timers end, if and only if** the
commands are timely. -/
theorem obeys_iff_timely {es : List GpioEvent} (h : Runs GpioCodec.step Always {} es c tr) :
    (∀ pre post (timers : List Int) c₁ tr₁, es = pre ++ post →
      Runs GpioCodec.step Always {} (pre ++ timers.map .expire) c₁ tr₁ → Obeys tr₁ c₁) ↔
    Runs GpioCodec.step Timely {} es c tr := by
  constructor
  · intro hobeys
    induction h with
    | nil => exact .nil
    | @snoc es c c' tr out e hr _ hs ih =>
        have hruns : Runs GpioCodec.step Timely {} es c tr :=
          ih fun pre post timers c₁ tr₁ hes =>
            hobeys pre (post ++ [e]) timers c₁ tr₁ (by rw [hes, List.append_assoc])
        rcases Classical.em (Timely c e) with ht | ht
        · exact hruns.snoc ht hs
        · obtain ⟨timers, c₁, tr₁, hexpired, hnot⟩ := (Good.runs hruns).disobeys ht hs
          exact absurd (hobeys (es ++ [e]) [] timers c₁ _ (List.append_nil _).symm
            ((hr.snoc trivial hs).append hexpired)) hnot
  · rintro hruns pre post timers c₁ tr₁ rfl hrun
    obtain ⟨c₂, tr₂, -, hpre, -, -⟩ := hruns.split
    obtain ⟨c₃, tr₃, tr₄, hpre', hexpired, rfl⟩ := hrun.split
    obtain ⟨rfl, rfl⟩ := hpre.det hpre'
    refine obeys_of_runs (hpre.append (hexpired.of_mem ?_))
    intro e he c
    obtain ⟨timer, -, rfl⟩ := List.mem_map.1 he
    trivial

/-- A pulse on line 3 that ends by itself, and another one that is cut short; line 4 stays on. -/
theorem obeys_iff_timely_demo : ∃ c tr, Runs GpioCodec.step Always {}
    [.sendGpio 3 true 100, .sendGpio 4 true 0, .expire 0, .sendGpio 3 true 200,
      .sendGpio 3 false 0] c tr ∧ Obeys tr c := by
  obtain ⟨⟨c, tr⟩, hrun⟩ : ∃ r, run GpioCodec.step Timely {}
      [.sendGpio 3 true 100, .sendGpio 4 true 0, .expire 0, .sendGpio 3 true 200,
        .sendGpio 3 false 0] = some r := Option.isSome_iff_exists.1 (by decide)
  have htimely := runs_of_run hrun
  have halways := htimely.mono fun _ _ _ => trivial
  refine ⟨c, tr, halways, ?_⟩
  exact (obeys_iff_timely halways).2 htimely _ [] [] c tr (List.append_nil _).symm
    (by simpa using halways)

/-- A pulse on line 3, cut short; then the line is turned on for good, and the timer of the pulse
turns it off. -/
theorem obeys_fails : ¬ ∀ es c tr, Runs GpioCodec.step Always {} es c tr → Obeys tr c := by
  intro hall
  have hend : (run GpioCodec.step Always {} [.sendGpio 3 true 100, .sendGpio 3 false 0,
      .sendGpio 3 true 0, .expire 0]).map (fun r => (r.1.lineOn 3, told r.2 3)) =
        some (false, .on) := by decide
  obtain ⟨⟨c, tr⟩, hrun, hline⟩ := Option.map_eq_some_iff.1 hend
  obtain ⟨hoff, hon⟩ := Prod.mk.inj hline
  have hobeys := (hall _ c tr (runs_of_run hrun) 3).1
  rw [hoff, hon] at hobeys
  exact Bool.false_ne_true (hobeys.2 nofun)

end

end NetISDN
