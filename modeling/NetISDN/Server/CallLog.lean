import NetISDN.Server.MediaOrder

/-!
# The call log is exact

The rows that `InitiateCall` has inserted into `CALLS` are open exactly while their call is
running, and a call that ends closes its own row and no other (`LogInOrder`). That holds as long
as every step keeps the calls in order and the query with which `InitiateCall` asks for the
identifier of the row that it has inserted finds that row (`LogSafe`).
-/

namespace NetISDN

open TransitionSystem

namespace MainObject

variable {env : Env} {s s' : MainObject} {b b' : Switchboard} {e : Event} {x y i : Int}
  {db : Database} {es : List Event} {tr out : List Output}

/-- The connections on `x` and on `y` are linked to each other, and both carry the `cid` `i`. -/
def Linked (s : MainObject) (x y i : Int) : Prop :=
  x ≠ y ∧ (∃ c, s.conn x = some c ∧ c.connectionFd = y ∧ c.cid = i) ∧
    ∃ d, s.conn y = some d ∧ d.connectionFd = x ∧ d.cid = i

/-- Exactly one pair of connections is linked and carries the `cid` `i`. -/
def OnePair (s : MainObject) (i : Int) : Prop :=
  ∃ x y, s.Linked x y i ∧ ∀ x' y', s.Linked x' y' i → x' = x ∧ y' = y ∨ x' = y ∧ y' = x

/-- Linked connections are a pair of the switchboard. -/
theorem Represents.linked_iff (hR : Represents s b) :
    s.Linked x y i ↔ b.pairing.partner x = some (y, i) := by
  constructor
  · rintro ⟨-, ⟨c, hc, rfl, rfl⟩, d, hd, -⟩
    have hfd := hR.fd _ d.call (by rw [callOf, hd, Option.map_some])
    exact (hR.partner_eq_some hc).2 ⟨hfd, rfl, rfl⟩
  · intro hp
    have hp' := b.pairing.symm hp
    obtain ⟨c, hc⟩ := hR.exists_conn hp
    obtain ⟨d, hd⟩ := hR.exists_conn hp'
    exact ⟨Pairing.ne_of_partner hp, ⟨c, hc, ((hR.partner_eq_some hc).1 hp).2⟩,
      d, hd, ((hR.partner_eq_some hd).1 hp').2⟩

/-- The event keeps the calls in order, and if it sets up a call, the query for the latest call
of the caller finds the row that has just been inserted. -/
structure LogSafe (s : MainObject) (e : Event) : Prop extends CallSafe s e where
  finds : ∀ p ∈ s.putThrough e, ∀ c ∈ s.conn p.1,
    s.db.FindsInserted c.uid e.world.seconds e.world.pick

instance (s : MainObject) (e : Event) : Decidable (LogSafe s e) :=
  decidable_of_iff (CallSafe s e ∧ ∀ p ∈ s.putThrough e, ∀ c ∈ s.conn p.1,
      s.db.FindsInserted c.uid e.world.seconds e.world.pick)
    ⟨fun ⟨h₁, h₂⟩ => ⟨h₁, h₂⟩, fun ⟨h₁, h₂⟩ => ⟨h₁, h₂⟩⟩

/-! ## The moves of a step and the log -/

/-- A move of a step that meets `LogSafe` is a run of exact steps of the switchboard. -/
theorem Moves.runs_exact {mout : List (Int × Media)} (hP : LogSafe s e) (h : Moves s e b b' mout) :
    ∃ acts, Runs Switchboard.step Switchboard.Exact b acts b' mout := by
  cases h with
  | hangUps h =>
      refine ⟨_, h.mono ?_⟩
      rintro _ _ ⟨a, rfl, -⟩
      trivial
  | join hput hs hfinds =>
      exact ⟨_, .single (by exact hfinds (hP.finds _ hput)) hs⟩
  | stop _ hs => exact ⟨_, .single (by exact trivial) hs⟩

/-- A move closes the row of the call that it ends. -/
theorem Moves.log_ended {mout : List (Int × Media)} {log₀ : Int → Option (Option Nat)}
    (h : Moves s e b b' mout) (hL : Switchboard.LogExact log₀ b)
    (hL' : Switchboard.LogExact log₀ b') (hends : s.Ends e x ∨ s.Ends e y)
    (hp : b.pairing.partner x = some (y, i)) (hp' : b'.pairing.partner x ≠ some (y, i)) :
    b'.log i = some (some e.world.sqlNow) := by
  cases h with
  | hangUps hruns =>
      refine (Switchboard.hangsUp_log hruns i).elim (fun hlog => ?_) And.left
      -- were the row still open, a pair would carry its identifier, and it could only be this one
      have hopen := (hL.running i).2 ⟨x, y, hp⟩
      obtain ⟨x', y', hq'⟩ := (hL'.running i).1 ⟨hopen.1, hlog.trans hopen.2⟩
      have hq := Switchboard.hangsUp_partner hruns hq'
      rcases hL.distinct hp hq with rfl | rfl
      · obtain ⟨rfl, -⟩ : y = y' ∧ i = i := by simpa [hp] using hq
        exact absurd hq' hp'
      · obtain ⟨rfl, -⟩ : x = y' ∧ i = i := by simpa [b.pairing.symm hp] using hq
        exact absurd (b'.pairing.symm hq') hp'
  | join hput => exact absurd hends (not_or.2
      ⟨not_ends_of_putThrough hput, not_ends_of_putThrough hput⟩)
  | stop _ hs => exact absurd hp hp'

/-- A move leaves the row of every other call as it is. -/
theorem Moves.log_kept {mout : List (Int × Media)} {log₀ : Int → Option (Option Nat)}
    (h : Moves s e b b' mout) (hL' : Switchboard.LogExact log₀ b') {v : Option Nat}
    (hv : b.log i = some v)
    (hends : ∀ x y, b.pairing.partner x = some (y, i) → ¬ s.Ends e x) : b'.log i = some v := by
  cases h with
  | hangUps hruns =>
      rcases Switchboard.hangsUp_log hruns i with hlog | ⟨hlog, x, y, hp⟩
      · exact hlog.trans hv
      · -- a pair that nobody hangs up is still there, so that its row is open
        have hp' := Switchboard.hangsUp_keeps hruns hp (hends x y hp)
          (hends y x (b.pairing.symm hp))
        have hopen := (hL'.running i).2 ⟨x, y, hp'⟩
        simp [hlog] at hopen
  | join _ hs =>
      obtain ⟨-, -, -, hfresh, rfl, -⟩ := Switchboard.step_join.1 hs
      have hne : i ≠ s.db.nextCallId := by
        rintro rfl
        simp [hfresh] at hv
      exact (if_neg hne).trans hv
  | stop _ hs => exact hv

/-! ## Runs -/

/-- The call log is in order, beside the rows that were in `db` at the start, and stays so over
every step that meets `P`: a row that has been inserted since is open exactly while one pair of
connections carries its identifier; the row of a call that ends is closed, and every other row
stays as it is; and the row that a `CA` inserts is open and carried by the caller and the callee. -/
structure LogInOrder (env : Env) (P : MainObject → Event → Prop) (db : Database)
    (s : MainObject) : Prop where
  running : ∀ r ∈ s.db.calls, db.endOf r.id = none → (r.endDatetime = none ↔ s.OnePair r.id)
  ended : ∀ e s' out, P s e → step env s e = some (s', out) → ∀ x y i, s.Linked x y i →
    s.Ends e x ∨ s.Ends e y → s'.db.endOf i = some (some e.world.sqlNow)
  kept : ∀ e s' out, P s e → step env s e = some (s', out) → ∀ i v, s.db.endOf i = some v →
    (∀ x y, s.Linked x y i → ¬ s.Ends e x ∧ ¬ s.Ends e y) → s'.db.endOf i = some v
  inserted : ∀ e s' out, P s e → step env s e = some (s', out) → ∀ x y,
    s.putThrough e = some (x, y) → s.db.endOf s.db.nextCallId = none ∧
      s'.db.endOf s.db.nextCallId = some none ∧ s'.Linked x y s.db.nextCallId

/-- The pair of an exact log that carries `i` is the only one. -/
theorem Represents.onePair_iff {log₀ : Int → Option (Option Nat)} (hR : Represents s b)
    (hL : Switchboard.LogExact log₀ b) :
    s.OnePair i ↔ ∃ x y, b.pairing.partner x = some (y, i) := by
  constructor
  · rintro ⟨x, y, hxy, -⟩
    exact ⟨x, y, hR.linked_iff.1 hxy⟩
  · rintro ⟨x, y, hp⟩
    refine ⟨x, y, hR.linked_iff.2 hp, fun x' y' hxy' => ?_⟩
    have hq := hR.linked_iff.1 hxy'
    rcases hL.distinct hp hq with rfl | rfl
    · exact .inl ⟨rfl, by simpa [hp, eq_comm] using hq⟩
    · exact .inr ⟨rfl, by simpa [b.pairing.symm hp, eq_comm] using hq⟩

/-- The row that a `CA` inserts, where the query finds it, is carried by caller and callee. -/
theorem linked_of_putThrough (hP : LogSafe s e)
    (hs : step env s e = some (s', out)) (hput : s.putThrough e = some (x, y)) :
    s.db.endOf s.db.nextCallId = none ∧ s'.db.endOf s.db.nextCallId = some none ∧
      s'.Linked x y s.db.nextCallId := by
  obtain ⟨s₁, h₁, rfl, -⟩ := step_runSlot hs
  obtain ⟨c, cmds, cd, hc, hd, hrun⟩ := runSlot_putThrough (s := s.flush) env hput
  obtain ⟨port, port', id, row, hset⟩ := setupCall_spec hc hd (hrun.symm.trans h₁)
  have hne := (hP.call _ hput).2
  have hid : id = s.db.nextCallId := by
    refine hset.cid_eq ?_
    rw [takeLine, conn_modifyConn, if_pos rfl, Option.map_eq_some_iff] at hc
    obtain ⟨c₀, hc₀, rfl⟩ := hc
    exact hP.finds _ hput c₀ hc₀
  refine ⟨Database.endOf_eq_none (.inr le_rfl), ?_, hne, ?_, ?_⟩
  · have hdb : s₁.db = s.db.insertCall row := hset.db
    rw [show s₁.flush.db = s₁.db from rfl, hdb, Database.endOf_insertCall, if_pos rfl,
      hset.endDatetime]
  · refine ⟨_, (hset.conn x).trans (by rw [if_pos (.inl rfl), hc, Option.map_some]), ?_, hid⟩
    simp [hne.symm]
  · refine ⟨_, (hset.conn y).trans (by rw [if_pos (.inr rfl), hd, Option.map_some]), ?_, hid⟩
    simp

/-- **The exactness of the call log.** In every run whose steps all meet `LogSafe`, the call log
is in order in every state reached. -/
theorem logInOrder_of_runs (h : Runs (step env) LogSafe (start db) es s tr) :
    LogInOrder env LogSafe db s := by
  obtain ⟨acts, b, mtr, hruns, hR, -⟩ := runs_refine (fun _ _ hP => hP.toCallSafe)
    (fun _ _ _ _ _ hP hm => hm.runs_exact hP) h
  have hL := Switchboard.runs_logExact hruns rfl
  have hstep {e s' out} (hP : LogSafe s e) (hs : step env s e = some (s', out)) :
      ∃ b' mout, Moves s e b b' mout ∧ Represents s' b' ∧ Switchboard.LogExact db.endOf b' := by
    obtain ⟨b', mout, hm, hR', -⟩ := step_moves hR hP.toCallSafe hs
    obtain ⟨acts', hruns'⟩ := hm.runs_exact hP
    exact ⟨b', mout, hm, hR', Switchboard.runs_logExact (hruns.append hruns') rfl⟩
  refine ⟨fun r hr hnew => ?_, fun e s' out hP hs x y i hl hends => ?_,
    fun e s' out hP hs i v hv hends => ?_, fun e s' out hP hs x y => linked_of_putThrough hP hs⟩
  · have hlog : b.log r.id = some r.endDatetime := by
      rw [hR.log, Database.endOf_eq_some]
      exact ⟨r, hr, rfl, rfl⟩
    rw [hR.onePair_iff hL, ← hL.running, hlog, Option.some.injEq]
    exact (and_iff_right hnew).symm
  · obtain ⟨b', mout, hm, hR', hL'⟩ := hstep hP hs
    rw [← hR'.log]
    exact hm.log_ended hL hL' hends (hR.linked_iff.1 hl)
      (partner_ne_of_ends hR hR' hP.toCallSafe hs hends)
  · obtain ⟨b', mout, hm, hR', hL'⟩ := hstep hP hs
    rw [← hR'.log]
    exact hm.log_kept hL' ((hR.log i).trans hv) fun x y hp => (hends x y (hR.linked_iff.2 hp)).1

/-- Bob calls Alice and hangs up: a run that meets `LogSafe`, up to the call. -/
theorem logInOrder_of_runs_demo : ∃ s tr,
    Runs (step demoEnv) LogSafe (start demoDb)
      (connects 5 0 :: typed 5 (loginText "alice") 0 ++ connects 6 0 ::
        typed 6 (loginText "bob" ++ callText "alice") 0) s tr ∧
      s.db.endOf 1 = some none ∧ LogInOrder demoEnv LogSafe demoDb s := by
  have hrun : (run (step demoEnv) LogSafe (start demoDb)
      (connects 5 0 :: typed 5 (loginText "alice") 0 ++ connects 6 0 ::
        typed 6 (loginText "bob" ++ callText "alice") 0)).any
      (fun x => x.1.db.endOf 1 = some none) := by decide +kernel
  obtain ⟨⟨s, tr⟩, hrun, hopen⟩ := (Option.any_eq_true _ _).1 hrun
  have hruns := runs_of_run hrun
  exact ⟨s, tr, hruns, by simpa using hopen, logInOrder_of_runs hruns⟩

/-- Bob calls Alice, hangs up and calls her again within the second: the second row is open, but
the pair carries the identifier of the first one. -/
theorem logInOrder_needs_logSafe : ¬ ∀ (env : Env) (db : Database) es s tr,
    Runs (step env) Always (start db) es s tr → LogInOrder env Always db s := by
  intro h
  have hrun : (run (step demoEnv) Always (start demoDb)
      (connects 5 0 :: typed 5 (loginText "alice") 0 ++ connects 6 0 ::
        typed 6 (loginText "bob" ++ callText "alice" ++ "BY!" ++ callText "alice") 0)).any
      (fun x => x.1.db.endOf 2 = some none ∧
        x.1.sip_connections.toList.all fun p => p.2.cid ≠ 2) := by decide +kernel
  obtain ⟨⟨s, tr⟩, hrun, hopen⟩ := (Option.any_eq_true _ _).1 hrun
  obtain ⟨hopen, hcid⟩ := of_decide_eq_true hopen
  obtain ⟨r, hr, hid, hend⟩ := Database.endOf_eq_some.1 hopen
  have hlog := (h demoEnv demoDb _ s tr (runs_of_run hrun)).running r hr (by rw [hid]; decide)
  obtain ⟨x, y, ⟨-, ⟨c, hc, -, hcx⟩, -⟩, -⟩ := hlog.1 hend
  have hne := List.all_eq_true.1 hcid (x, c) (mem_toList.2 hc)
  exact of_decide_eq_true hne (hcx.trans hid)

end MainObject

end NetISDN
