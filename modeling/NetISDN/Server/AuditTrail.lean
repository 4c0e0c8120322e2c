import NetISDN.Server.Accounts
import NetISDN.Server.Writes

/-!
# The call log is an audit trail

Whatever the clients do, `CALLS` only grows: a row once written keeps every column but
`END_DATETIME`, which does not become null again, and a new row stands behind all others with a
greater identifier (`Audited`). A call starts at a time of the host's clock and ends at one of
MySQL's; if the first is never ahead of what the second shows then or later, no call ends before it
has started. The accounts of `USERS` do not change at all as long as MySQL takes the texts that are
written there for what they are.
-/

namespace NetISDN

open TransitionSystem

/-- The row as it was while the call was running. -/
def CallRow.opened (r : CallRow) : CallRow := { r with endDatetime := none }

@[simp] theorem CallRow.opened_ended (now : Nat) (r : CallRow) : (r.ended now).opened = r.opened :=
  rfl
@[simp] theorem CallRow.id_opened (r : CallRow) : r.opened.id = r.id := rfl
@[simp] theorem CallRow.startDatetime_opened (r : CallRow) :
    r.opened.startDatetime = r.startDatetime := rfl

/-- What becomes of the log of `db` over a time during which the host's clock shows the times in `S`
and MySQL's those in `T`. -/
structure Audited (S T : Nat → Prop) (db db' : Database) : Prop where
  nextCallId : db.nextCallId ≤ db'.nextCallId
  rows : ∃ new, db'.calls.map CallRow.opened = db.calls.map CallRow.opened ++ new ∧
    new.Pairwise (·.id < ·.id) ∧ ∀ r ∈ new, db.nextCallId ≤ r.id ∧ S r.startDatetime
  closed : ∀ i t, db.endOf i = some (some t) → ∃ t', db'.endOf i = some (some t')
  ends : ∀ i t, db'.endOf i = some (some t) → db.endOf i = some (some t) ∨ T t

namespace Audited

variable {S S' T T' : Nat → Prop} {db db₁ db' : Database}

/-- A step that leaves the log alone keeps to it. -/
theorem of_calls_eq (hcalls : db'.calls = db.calls) (hnext : db'.nextCallId = db.nextCallId) :
    Audited S T db db' where
  nextCallId := hnext.ge
  rows := ⟨[], by rw [hcalls, List.append_nil], .nil, List.forall_mem_nil _⟩
  closed i t h := ⟨t, by rwa [Database.endOf, hcalls]⟩
  ends i t h := .inl (by rwa [Database.endOf, hcalls] at h)

/-- Nothing is written. -/
theorem refl (db : Database) : Audited S T db db := of_calls_eq rfl rfl

/-- The clocks may show more times than they need. -/
theorem mono (hS : ∀ t, S t → S' t) (hT : ∀ t, T t → T' t) (h : Audited S T db db') :
    Audited S' T' db db' := by
  obtain ⟨new, hrows, hsorted, hnew⟩ := h.rows
  exact ⟨h.nextCallId, ⟨new, hrows, hsorted, fun r hr => ⟨(hnew r hr).1, hS _ (hnew r hr).2⟩⟩,
    h.closed,
    fun i t ht => (h.ends i t ht).imp_right (hT t)⟩

/-- One time after another. -/
theorem trans (h : Audited S T db db₁) (h' : Audited S T db₁ db') : Audited S T db db' := by
  obtain ⟨new, hrows, hsorted, hnew⟩ := h.rows
  obtain ⟨new', hrows', hsorted', hnew'⟩ := h'.rows
  have hbound : ∀ r ∈ new, r.id < db₁.nextCallId := by
    intro r hr
    have hmem : r ∈ db₁.calls.map CallRow.opened := hrows ▸ List.mem_append_right _ hr
    obtain ⟨r₁, hr₁, rfl⟩ := List.mem_map.1 hmem
    exact (db₁.calls_bound r₁ hr₁).2
  refine ⟨h.nextCallId.trans h'.nextCallId, ⟨new ++ new', ?_, ?_, ?_⟩, ?_, ?_⟩
  · rw [hrows', hrows, List.append_assoc]
  · refine List.pairwise_append.2 ⟨hsorted, hsorted', fun r hr r' hr' => ?_⟩
    exact (hbound r hr).trans_le (hnew' r' hr').1
  · intro r hr
    rcases List.mem_append.1 hr with hr | hr
    · exact hnew r hr
    · exact ⟨h.nextCallId.trans (hnew' r hr).1, (hnew' r hr).2⟩
  · intro i t ht
    obtain ⟨t', ht'⟩ := h.closed i t ht
    exact h'.closed i t' ht'
  · intro i t ht
    rcases h'.ends i t ht with ht | hT
    · exact h.ends i t ht
    · exact .inr hT

/-- A row whose identifier has been given out since is new. -/
theorem starts (h : Audited S T db db') {r : CallRow} (hr : r ∈ db'.calls)
    (hid : db.nextCallId ≤ r.id) :
    S r.startDatetime := by
  obtain ⟨new, hrows, -, hnew⟩ := h.rows
  have hmem : r.opened ∈ db.calls.map CallRow.opened ++ new := hrows ▸ List.mem_map_of_mem hr
  rcases List.mem_append.1 hmem with hold | hmem
  · obtain ⟨r₀, hr₀, heq⟩ := List.mem_map.1 hold
    have hsame : r₀.id = r.id := by simpa using congrArg CallRow.id heq
    have hlt := (db.calls_bound r₀ hr₀).2
    omega
  · exact (hnew _ hmem).2

end Audited

/-! ## One statement -/

section
variable {S T : Nat → Prop} {db db' : Database} {w : World} {now i : Nat} {x : Write}

/-- The statement inserts no row but that of a call which starts now. -/
def Write.StartsNow (w : World) : Write → Prop
  | .logCall row _ => row.startDatetime = w.seconds ∧ row.endDatetime = none
  | _ => True

/-- A call is ended at the time of the writing. -/
theorem audited_updateCallEnd {id : Int} (hnow : T now) :
    Audited S T db (db.updateCallEnd id now) where
  nextCallId := le_rfl
  rows := ⟨[], by
    rw [List.append_nil]; exact Database.map_updateRows (CallRow.opened_ended now) db.calls,
    .nil, List.forall_mem_nil _⟩
  closed := by
    intro i t ht
    rw [Database.endOf_updateCallEnd, ht]
    split
    · exact ⟨now, rfl⟩
    · exact ⟨t, rfl⟩
  ends := by
    intro i t ht
    rw [Database.endOf_updateCallEnd] at ht
    split at ht
    · obtain ⟨_, -, heq⟩ := Option.map_eq_some_iff.1 ht
      exact .inr (Option.some.inj heq ▸ hnow)
    · exact .inl ht

/-- A call without an end is added. -/
theorem audited_insertCall {row : CallRow} (hstart : S row.startDatetime)
    (hend : row.endDatetime = none) : Audited S T db (db.insertCall row) where
  nextCallId := by
    show db.nextCallId ≤ db.nextCallId + 1
    omega
  rows := by
    refine ⟨[{ row with id := db.nextCallId }], ?_, List.pairwise_singleton _ _, ?_⟩
    · rw [Database.insertCall, List.map_append, List.map_singleton, CallRow.opened, ← hend]
    · intro r hr
      rw [List.mem_singleton.1 hr]
      exact ⟨le_rfl, hstart⟩
  closed := by
    intro i t ht
    refine ⟨t, ?_⟩
    rw [Database.endOf_insertCall, if_neg, ht]
    rintro rfl
    rw [Database.endOf_eq_none (.inr le_rfl)] at ht
    cases ht
  ends := by
    intro i t ht
    rw [Database.endOf_insertCall] at ht
    split at ht
    · rw [hend] at ht
      cases ht
    · exact .inl ht

/-- A statement keeps to the log. -/
theorem Write.audited (hx : x.StartsNow w) :
    Audited (· = w.seconds) (· = w.sqlNow) db (x.apply w db) := by
  cases x with
  | endCall id => exact audited_updateCallEnd rfl
  | goOffline uid => exact .of_calls_eq rfl rfl
  | goOnline uid addr version location =>
      exact .of_calls_eq Database.calls_updatePasted Database.nextCallId_updatePasted
  | setColumn uid tag value =>
      exact .of_calls_eq MainObject.calls_setColumn MainObject.nextCallId_setColumn
  | logCall row found => exact audited_insertCall hx.1 hx.2

/-- Of the rows from `first` on, none ends before it has started. -/
def InTime (first : Int) (db : Database) : Prop :=
  ∀ r ∈ db.calls, first ≤ r.id → ∀ t ∈ r.endDatetime, r.startDatetime ≤ t

/-- Of the rows from `first` on, none starts after `now`. -/
def StartedBy (first : Int) (now : Nat) (db : Database) : Prop :=
  ∀ r ∈ db.calls, first ≤ r.id → r.startDatetime ≤ now

/-- A statement other than the `insert` changes the end of a row at most, and sets it to the time at
which it is executed. -/
theorem Write.mem_calls_apply (hupdate : x.isUpdate = true) {r : CallRow}
    (hr : r ∈ (x.apply w db).calls) : r ∈ db.calls ∨ ∃ r₀ ∈ db.calls, r = r₀.ended w.sqlNow := by
  cases x with
  | endCall id =>
      obtain ⟨r₀, hr₀, rfl⟩ := Database.mem_updateRows.1 hr
      split
      · exact .inr ⟨r₀, hr₀, rfl⟩
      · exact .inl hr₀
  | goOffline uid => exact .inl hr
  | goOnline uid addr version location =>
      have hcalls : ((goOnline uid addr version location).apply w db).calls = db.calls :=
        Database.calls_updatePasted
      exact .inl (hcalls ▸ hr)
  | setColumn uid tag value =>
      have hcalls : ((setColumn uid tag value).apply w db).calls = db.calls :=
        MainObject.calls_setColumn
      exact .inl (hcalls ▸ hr)
  | logCall row found => cases hupdate

/-- An update keeps the rows from `first` on in time, if they have started by MySQL's clock. -/
theorem InTime.update {first : Int} (h : InTime first db) (hby : StartedBy first w.sqlNow db)
    (hupdate : x.isUpdate = true) :
    InTime first (x.apply w db) ∧ StartedBy first w.sqlNow (x.apply w db) := by
  constructor
  · intro r hr hid t ht
    rcases Write.mem_calls_apply hupdate hr with hr | ⟨r₀, hr₀, rfl⟩
    · exact h r hr hid t ht
    · obtain rfl := Option.some.inj ht
      exact hby r₀ hr₀ hid
  · intro r hr hid
    rcases Write.mem_calls_apply hupdate hr with hr | ⟨r₀, hr₀, rfl⟩
    · exact hby r hr hid
    · exact hby r₀ hr₀ hid

/-- The row of a new call has no end yet. -/
theorem InTime.insertCall {first : Int} (h : InTime first db) {row : CallRow}
    (hend : row.endDatetime = none) : InTime first (db.insertCall row) := by
  intro r hr hid t ht
  rcases List.mem_append.1 hr with hr | hr
  · exact h r hr hid t ht
  · rw [List.mem_singleton.1 hr] at ht
    rw [hend] at ht
    cases ht

end

/-! ## Runs -/

namespace MainObject

variable {env : Env} {s s' : MainObject} {e : Event} {es : List Event} {out tr : List Output}
  {ws : List Write}

/-- A call that is written starts at the time of the event. -/
theorem Stores.startsNow (h : Stores s e s' out ws) : ∀ x ∈ ws, x.StartsNow e.world := by
  intro x hx
  cases x with
  | logCall row found =>
      obtain ⟨-, p, -, c, -, hlogged⟩ := h.logged row found hx
      exact ⟨hlogged.startDatetime, hlogged.endDatetime⟩
  | _ => trivial

/-- A step keeps to the log. -/
theorem Stores.audited (h : Stores s e s' out ws) :
    Audited (· = e.world.seconds) (· = e.world.sqlNow) s.db s'.db := by
  have hall := h.startsNow
  rw [h.db]
  generalize s.db = db
  clear h
  induction ws generalizing db with
  | nil => exact .refl db
  | cons x ws ih =>
      obtain ⟨hx, hws⟩ := List.forall_mem_cons.1 hall
      exact (Write.audited hx).trans (ih hws _)

/-- The statements of a step are one `insert`, or none of them is. -/
theorem Stores.insert_or_update (h : Stores s e s' out ws) :
    (∃ row found, ws = [.logCall row found]) ∨ ∀ x ∈ ws, x.isUpdate = true := by
  by_cases hlog : ∃ row found, .logCall row found ∈ ws
  · obtain ⟨row, found, hmem⟩ := hlog
    exact .inl ⟨row, found, (h.logged row found hmem).1⟩
  · refine .inr fun x hx => ?_
    cases x with
    | logCall row found => exact absurd ⟨row, found, hx⟩ hlog
    | _ => rfl

/-- A step ends no call before it has started, if the calls have started by MySQL's clock. -/
theorem Stores.inTime {first : Int} (h : Stores s e s' out ws) (hs : InTime first s.db)
    (hby : StartedBy first e.world.sqlNow s.db) : InTime first s'.db := by
  have hstarts := h.startsNow
  rw [h.db]
  rcases h.insert_or_update with ⟨row, found, rfl⟩ | hupdate
  · exact hs.insertCall (hstarts _ (.head _)).2
  · clear hstarts h
    generalize s.db = db at hs hby
    induction ws generalizing db with
    | nil => exact hs
    | cons x ws ih =>
        obtain ⟨hx, hws⟩ := List.forall_mem_cons.1 hupdate
        obtain ⟨hs', hby'⟩ := hs.update hby hx
        exact ih hws _ hs' hby'

/-- The host's clock is not ahead of what MySQL's shows then or later. -/
def Clocks (es : List Event) : Prop := es.Pairwise fun e e' => e.world.seconds ≤ e'.world.sqlNow

instance (es : List Event) : Decidable (Clocks es) := by
  unfold Clocks
  infer_instance

/-- **The call log is an audit trail.** Over every run the log is append-only, and all new times are
those of events. The accounts stay as they are, if what the clients have written to `USERS` is
plain; and if the host's clock is never ahead of what MySQL's shows later, no new call ends before
it has started. -/
theorem audited_of_runs (h : Runs (step env) Always s es s' tr) :
    Audited (fun t => ∃ e ∈ es, t = e.world.seconds)
    (fun t => ∃ e ∈ es, t = e.world.sqlNow) s.db s'.db ∧
      (Runs (step env) WritesPlain s es s' tr → s'.credentials = s.credentials) ∧
      (Clocks es → ∀ r ∈ s'.db.calls, s.db.nextCallId ≤ r.id →
        ∀ t ∈ r.endDatetime, r.startDatetime ≤ t) := by
  have haccounts (h : Runs (step env) WritesPlain s es s' tr) : s'.credentials = s.credentials :=
    h.invariant (I := fun s' => s'.credentials = s.credentials) rfl
      fun s₁ e s₂ out heq hplain hs => ((step_accountMove hs).credentials_eq hplain).trans heq
  have hlog : Audited (fun t => ∃ e ∈ es, t = e.world.seconds)
      (fun t => ∃ e ∈ es, t = e.world.sqlNow)
      s.db s'.db ∧ (Clocks es → InTime s.db.nextCallId s'.db) := by
    refine h.invariant_history (I := fun es s' _ =>
      Audited (fun t => ∃ e ∈ es, t = e.world.seconds) (fun t => ∃ e ∈ es, t = e.world.sqlNow)
        s.db s'.db ∧ (Clocks es → InTime s.db.nextCallId s'.db)) ⟨.refl _, ?_⟩ ?_
    · intro _ r hr hid
      have := (s.db.calls_bound r hr).2
      omega
    · rintro es s₁ tr e s₂ out - ⟨haudit, hends⟩ - hstep
      obtain ⟨ws, hstores⟩ := step_writes hstep
      have hold {f : Event → Nat} : ∀ t, (∃ e' ∈ es, t = f e') → ∃ e' ∈ es ++ [e], t = f e' :=
        fun t ⟨e', he', ht⟩ => ⟨e', List.mem_append_left _ he', ht⟩
      have hnew {f : Event → Nat} : ∀ t, t = f e → ∃ e' ∈ es ++ [e], t = f e' :=
        fun t ht => ⟨e, List.mem_append_right _ (List.mem_singleton.2 rfl), ht⟩
      refine ⟨(haudit.mono hold hold).trans (hstores.audited.mono hnew hnew), fun hclock => ?_⟩
      obtain ⟨hbefore, -, hlast⟩ := List.pairwise_append.1 hclock
      refine hstores.inTime (hends hbefore) fun r hr hid => ?_
      obtain ⟨e', he', hstart⟩ := haudit.starts hr hid
      rw [hstart]
      exact hlast e' he' e (List.mem_singleton.2 rfl)
  exact ⟨hlog.1, haccounts, hlog.2⟩

/-- Bob calls Alice and hangs up a minute later: the row of the call is closed, and its end is not
before its start. -/
theorem audited_of_runs_demo : ∃ es s tr,
    Runs (step demoEnv) Always (start demoDb) es s tr ∧ s.db.endOf 1 = some (some 103) ∧
      ∀ r ∈ s.db.calls, 1 ≤ r.id → ∀ t ∈ r.endDatetime, r.startDatetime ≤ t := by
  have hrun : (run (step demoEnv) Always (start demoDb)
      (connects 5 0 :: typed 5 (loginText "alice") 0 ++ connects 6 0 ::
        typed 6 (loginText "bob" ++ callText "alice") 43000 ++ typed 6 "BY!" 103000)).any
      (fun x => x.1.db.endOf 1 = some (some 103)) := by decide +kernel
  obtain ⟨⟨s, tr⟩, hrun, hend⟩ := (Option.any_eq_true _ _).1 hrun
  have hruns := runs_of_run hrun
  exact ⟨_, s, tr, hruns, by simpa using hend, (audited_of_runs hruns).2.2 (by decide +kernel)⟩

end MainObject

end NetISDN
