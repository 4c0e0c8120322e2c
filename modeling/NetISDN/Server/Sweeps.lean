import NetISDN.Lib.OneShot
import NetISDN.Server.Spec

/-!
# The sweeps over the connections

`zombieData` (`netsipd.cpp:187`) and `pingTimerData` (`netsipd.cpp:214`) erase the entry that their
iterator is at and then advance the iterator, as `OneShot::zombieData` does. Each of the three does
what it is for if and only if it finds nothing to erase (`sweeps_iff`); that is when the models
`zombieData` and `pingTimerData`, which go on behind an erased entry, say what the loops do
(`zombieLoop_finishes`, `pingLoop_finishes`).
-/

namespace NetISDN

namespace MainObject

/-- The loop of `zombieData` with its iterator. -/
def zombieLoop : Sweep.Loop Int MainObject where
  keys := fds
  sorted := fds_sorted
  body s fd := some (s.zombieTurn fd)

/-- The loop of `pingTimerData` with its iterator. -/
def pingLoop (w : World) : Sweep.Loop Int MainObject where
  keys := fds
  sorted := fds_sorted
  body := pingTurn w

/-- `zombieData` does what it is for: it ends, and leaves exactly the connections that are no
zombies. -/
def ZombiesSwept (s : MainObject) : Prop :=
  ∃ s', (∀ fuel, s.fds.length ≤ fuel → zombieLoop.run fuel s = .finished s') ∧
    ∀ fd c, s'.conn fd = some c ↔ s.conn fd = some c ∧ c.zombie = false

/-- How many `PG` the connection has been sent. -/
def pingsTo (s : MainObject) (fd : Int) : Nat := (s.sentTo fd).count ("PG!" : QString)

/-- `pingTimerData` does what it is for: it ends, leaves exactly the connections that have not timed
out, and sends each of these one `PG`. -/
def PingSwept (w : World) (s : MainObject) : Prop :=
  ∃ s', (∀ fuel, s.fds.length ≤ fuel → (pingLoop w).run fuel s = .finished s') ∧
    (∀ fd, (∃ c, s'.conn fd = some c) ↔ ∃ c, s.conn fd = some c ∧ c.timedOut w = false) ∧
    ∀ fd, (∃ c, s'.conn fd = some c) →
      s'.pingsTo fd = s.pingsTo fd + 1

section
variable {w : World} {s s' : MainObject} {fd : Int} {c : SipConnection}

/-- A turn of the zombie sweep leaves a table alone where it is at no zombie. -/
theorem zombieTurn_of_not (h : ¬ ∃ c, s.conn fd = some c ∧ c.zombie = true) :
    s.zombieTurn fd = s := by
  rw [zombieTurn, if_neg]
  intro hany
  exact h ((Option.any_eq_true _ _).1 hany)

/-- The zombie sweep erases the zombies. -/
theorem erases_zombieLoop :
    Sweep.Erases zombieLoop fun s fd => ∃ c, s.conn fd = some c ∧ c.zombie = true where
  keeps := fun {s fd} _ hp => ⟨s, congrArg some (zombieTurn_of_not hp), rfl, fun _ => Iff.rfl⟩
  erases := by
    rintro s fd s' ⟨c, hc, hzombie⟩ hbody hmem
    obtain rfl : s.zombieTurn fd = s' := Option.some.inj hbody
    obtain ⟨c', hc'⟩ := mem_fds.1 hmem
    rw [zombieTurn_spec.1, if_pos rfl, hc, Option.filter_some, hzombie] at hc'
    cases hc'

/-- Without a zombie the loop runs as in `zombieData`. -/
theorem zombieLoop_finishes (h : ∀ fd c, s.conn fd = some c → c.zombie = false) {fuel : Nat}
    (hfuel : s.fds.length ≤ fuel) : zombieLoop.run fuel s = .finished s.zombieData := by
  have hnone : ∀ fd ∈ s.fds, ¬ ∃ c, s.conn fd = some c ∧ c.zombie = true := by
    rintro fd - ⟨c, hc, hzombie⟩
    rw [h fd c hc] at hzombie
    cases hzombie
  obtain ⟨s', hfold, hrun⟩ := erases_zombieLoop.finishes hnone
  have hs' : s.zombieData = s' := Option.some.inj (List.foldlM_pure.symm.trans hfold)
  rw [hs']
  exact hrun fuel hfuel

/-- **The zombie sweep does what it is for if and only if** there is no zombie. -/
theorem zombiesSwept_iff :
    ZombiesSwept s ↔ ∀ fd c, s.conn fd = some c → c.zombie = false := by
  constructor
  · rintro ⟨s', hrun, -⟩ fd c hc
    have hnone := erases_zombieLoop.none_of_finished hrun fd (mem_fds.2 ⟨c, hc⟩)
    exact Bool.eq_false_iff.2 fun hzombie => hnone ⟨c, hc, hzombie⟩
  · intro h
    refine ⟨s.zombieData, fun fuel => zombieLoop_finishes h, fun fd c => ?_⟩
    rw [(zombieData_spec s).1, Option.filter_eq_some_iff]
    simp

/-- A turn of the ping sweep at a connection that has not timed out. -/
theorem pingTurn_of_not (hc : s.conn fd = some c) (ht : c.timedOut w = false) :
    s.pingTurn w fd = some (s.sendCommand fd "PG!") := by
  rw [pingTurn, hc]
  simp [ht]

/-- The ping sweep erases the connections that have timed out. -/
theorem erases_pingLoop :
    Sweep.Erases (pingLoop w) fun s fd => ∃ c, s.conn fd = some c ∧ c.timedOut w = true where
  keeps := by
    intro s fd hmem hp
    obtain ⟨c, hc⟩ := mem_fds.1 hmem
    have ht : c.timedOut w = false := Bool.eq_false_iff.2 fun ht => hp ⟨c, hc, ht⟩
    exact ⟨_, pingTurn_of_not hc ht, rfl, fun _ => Iff.rfl⟩
  erases := by
    rintro s fd s' ⟨c, hc, ht⟩ hbody hmem
    rcases pingTurn_spec hc hbody with ⟨hf, -⟩ | ⟨-, s₁, -, rfl⟩
    · rw [ht] at hf
      cases hf
    · obtain ⟨c', hc'⟩ := mem_fds.1 hmem
      rw [conn_eraseConn, if_pos rfl] at hc'
      cases hc'

/-- Where nothing has timed out, the loop runs as in `pingTimerData`. -/
theorem pingLoop_finishes (h : ∀ fd c, s.conn fd = some c → c.timedOut w = false) :
    ∃ s', s.pingTimerData w = some s' ∧
      ∀ fuel, s.fds.length ≤ fuel → (pingLoop w).run fuel s = .finished s' := by
  refine erases_pingLoop.finishes ?_
  rintro fd - ⟨c, hc, ht⟩
  rw [h fd c hc] at ht
  cases ht

/-- Where nothing has timed out, every connection is sent one `PG`, and nothing else happens. -/
theorem pingTimerData_sends (hs' : s.pingTimerData w = some s')
    (h : ∀ fd c, s.conn fd = some c → c.timedOut w = false) :
    (∀ fd, s'.conn fd = s.conn fd) ∧ ∀ fd ∈ s.fds,
      s'.pingsTo fd = s.pingsTo fd + 1 := by
  have hrule := pingTimerData_rule (I := fun done s₁ => (∀ fd, s₁.conn fd = s.conn fd) ∧
    ∀ fd, s₁.pingsTo fd =
      s.pingsTo fd + if fd ∈ done then 1 else 0) hs'
    ⟨fun _ => rfl, fun _ => rfl⟩ ?_
  · refine ⟨hrule.1.1, fun fd hfd => ?_⟩
    rw [hrule.1.2, if_pos hfd]
  · rintro done fd c s₁ s₂ hturn ⟨hconn, hcount⟩
    rcases hturn.turn with ⟨-, rfl⟩ | ⟨ht, -⟩
    · refine ⟨hconn, fun k => ?_⟩
      rw [pingsTo, sentTo_sendCommand, List.count_append, ← pingsTo, hcount]
      rcases eq_or_ne fd k with rfl | hk
      · have hvisited := hturn.visited
        simp [hvisited]
      · simp [hk, Ne.symm hk]
    · rw [h fd c ((hconn fd).symm.trans hturn.conn)] at ht
      cases ht

/-- **The ping sweep does what it is for if and only if** no connection has timed out. -/
theorem pingSwept_iff :
    PingSwept w s ↔ ∀ fd c, s.conn fd = some c → c.timedOut w = false := by
  constructor
  · rintro ⟨s', hrun, -⟩ fd c hc
    have hnone := erases_pingLoop.none_of_finished hrun fd (mem_fds.2 ⟨c, hc⟩)
    exact Bool.eq_false_iff.2 fun ht => hnone ⟨c, hc, ht⟩
  · intro h
    obtain ⟨s', hs', hrun⟩ := pingLoop_finishes h
    obtain ⟨hconn, hcount⟩ := pingTimerData_sends hs' h
    refine ⟨s', hrun, fun fd => ?_, fun fd hfd => ?_⟩
    · rw [hconn]
      exact ⟨fun ⟨c, hc⟩ => ⟨c, hc, h fd c hc⟩, fun ⟨c, hc, _⟩ => ⟨c, hc⟩⟩
    · rw [hconn] at hfd
      exact hcount fd (mem_fds.2 hfd)

end

end MainObject

open MainObject

/-- **Each sweep does what it is for if and only if** it finds nothing to erase. -/
theorem sweeps_iff (s : MainObject) (w : World) (o : OneShot) :
    (ZombiesSwept s ↔ ∀ fd c, s.conn fd = some c → c.zombie = false) ∧
    (PingSwept w s ↔ ∀ fd c, s.conn fd = some c → c.timedOut w = false) ∧
    (o.TimersSwept ↔ ∀ id t, o.timer id = some t → t.active = true) :=
  ⟨zombiesSwept_iff, pingSwept_iff, OneShot.timersSwept_iff⟩

/-- A connection that its peer has closed, silent for longer than the timeout. -/
def deadConn : SipConnection := { peerAddress := ⟨0⟩, pingTimestamp := 0, zombie := true }

/-- A timer that has run out. -/
def spentTimer : OneShot where
  shot_timers := Std.ExtTreeMap.insert ∅ 0 ⟨100, false⟩
  shot_pointers := Std.ExtTreeMap.insert ∅ 0 3
  shot_zombie_timer := true
  shot_count := 1

/-- One entry to erase is too much for each of the sweeps. -/
theorem sweeps_fail : ¬ ZombiesSwept ((start demoDb).insertConn 3 deadConn) ∧
    ¬ PingSwept { now := 1000000 } ((start demoDb).insertConn 3 deadConn) ∧
    ¬ spentTimer.TimersSwept := by
  have hconn : ((start demoDb).insertConn 3 deadConn).conn 3 = some deadConn :=
    conn_insertConn.trans (if_pos rfl)
  have htimer : spentTimer.timer 0 = some ⟨100, false⟩ := Std.ExtTreeMap.getElem?_insert_self
  refine ⟨fun h => ?_, fun h => ?_, fun h => ?_⟩
  · exact Bool.noConfusion (zombiesSwept_iff.1 h 3 deadConn hconn)
  · exact absurd (pingSwept_iff.1 h 3 deadConn hconn) (by decide)
  · exact Bool.noConfusion (OneShot.timersSwept_iff.1 h 0 _ htimer)

end NetISDN
