import NetISDN.Server.Strangers

/-!
# Who never logs in does not influence anybody

Two runs are compared: one of the server, and the one that is left of it when the events of all
connections are deleted on which no `PW` is ever accepted (`purge`). The connections that remain
are sent the same, and end the same, as long as nothing that has not logged in is in their way
(`InfluenceSafe`). `Login` stores the `uid` before a password has been shown, and the searches of
`Password` and `InitiateCall` go by the `uid` alone; so it can be.
-/

namespace NetISDN

open TransitionSystem

namespace MainObject

variable {env : Env} {db : Database} {L L' : Int → Bool} {s s' s₁ t : MainObject} {fd d k : Int}
  {c : SipConnection} {cmds : QStringList} {e : Event} {es : List Event} {out tr : List Output}

/-! ## Who logs in -/

/-- A `PW` is accepted, in the run over the events, on the connection that is on `fd` now. -/
def acceptsLater (env : Env) (fd : Int) : MainObject → List Event → Bool
  | _, [] => false
  | s, e :: es =>
    if opens e = some fd then false
    else s.accepted e = some fd || (step env s e).any fun (s', _) => acceptsLater env fd s' es

/-- A `PW` has been accepted on the connection on `fd`, or is in the run over the events. -/
def logsIn (env : Env) (s : MainObject) (es : List Event) (fd : Int) : Bool :=
  (s.conn fd).any (·.isAuthenticated) || acceptsLater env fd s es

/-- Every connection is covered that logs in at some time. -/
theorem covers_logsIn : Covers (logsIn env s es) s := by
  intro k c hc hauth
  simp [logsIn, hc, hauth]

/-- A `PW` that is accepted authenticates its connection. -/
theorem step_accepted (h : step env s e = some (s', out)) (hacc : s.accepted e = some fd) :
    (s'.conn fd).any (·.isAuthenticated) := by
  obtain ⟨s₁, h₁, rfl, rfl⟩ := step_runSlot h
  obtain ⟨c, cmds, hrec, h0, hcode⟩ := accepted_eq_some.1 hacc
  obtain ⟨hc, hrun⟩ := runSlot_received (s := s.flush) env hrec
  obtain rfl := Option.some.inj ((h₁.symm.trans hrun).trans (dispatch_accept hc h0 hcode))
  rw [conn_flush, acceptLogin, conn_sendUidUpdate, conn_sendCommand, conn_withDb, conn_modifyConn,
    if_pos rfl, hc]
  rfl

/-- Nothing else authenticates a connection, and nothing revokes it. -/
theorem AccountMove.isAuthenticated {a : Account} (h : AccountMove env s e s')
    (hopens : opens e ≠ some k) (hacc : s.accepted e ≠ some k) (ha : s'.accountOf k = some a) :
    ∃ a', s.accountOf k = some a' ∧ a.isAuthenticated = a'.isAuthenticated := by
  have hmove {b b' : Account} {fd : Int} (hb : s.accountOf fd = some b)
      (ha : (if fd = k then some b' else s.accountOf k) = some a)
      (hauth : b'.isAuthenticated = b.isAuthenticated) :
      ∃ a', s.accountOf k = some a' ∧ a.isAuthenticated = a'.isAuthenticated := by
    split at ha
    · next hk => exact ⟨b, hk ▸ hb, Option.some.inj ha ▸ hauth⟩
    · exact ⟨a, ha, rfl⟩
  cases h with
  | same h => exact ⟨a, (h k).symm.trans ha, rfl⟩
  | @connect fd hfd _ hconn =>
      have hne : fd ≠ k := fun hk => hopens (hk ▸ hfd.2)
      rw [hconn, if_neg hne] at ha
      exact ⟨a, ha, rfl⟩
  | @kill fd b hb _ hkill =>
      refine hmove hb ((hkill k).symm.trans ha) ?_
      unfold Account.kill Account.logout
      split_ifs <;> rfl
  | identify _ hb hid => exact hmove hb ((hid k).symm.trans ha) rfl
  | @accept fd _ hacc' _ hauth =>
      have hne : fd ≠ k := fun hk => hacc (hk ▸ hacc')
      rw [hauth, if_neg hne] at ha
      exact ⟨a, ha, rfl⟩
  | purge _ hpurge =>
      rw [hpurge] at ha
      exact ⟨a, (Option.filter_eq_some_iff.1 ha).1, rfl⟩
  | sweep _ hsweep =>
      rw [hsweep] at ha
      split at ha
      · cases ha
      · exact ⟨a, ha, rfl⟩

/-- Whether a connection logs in during a run does not change as long as it is there. -/
theorem logsIn_step (h : step env s e = some (s', out)) (hopens : opens e ≠ some k)
    (hc : s'.conn k = some c) : logsIn env s' es k = logsIn env s (e :: es) k := by
  rw [logsIn, logsIn, acceptsLater, if_neg hopens, h, Option.any_some]
  by_cases hacc : s.accepted e = some k
  · simp [step_accepted h hacc, hacc]
  · obtain ⟨a, ha, hauth⟩ := (step_accountMove h).isAuthenticated hopens hacc
      (show s'.accountOf k = some c.account by rw [accountOf, hc, Option.map_some])
    obtain ⟨c₀, hc₀, rfl⟩ := Option.map_eq_some_iff.1 ha
    have hauth : c.isAuthenticated = c₀.isAuthenticated := hauth
    simp [hc, hc₀, hauth, hacc]

/-- The connection of an event is there behind it. -/
theorem exists_conn_of_eventFd (h : step env s e = some (s', out)) (hev : eventFd e = some fd) :
    ∃ c, s'.conn fd = some c := by
  obtain ⟨s₁, htr, rfl, rfl⟩ := step_transition h
  suffices hacc : (s₁.accountOf fd).isSome by
    rw [accountOf, Option.isSome_map] at hacc
    exact Option.isSome_iff_exists.1 hacc
  obtain ⟨slot, w⟩ := e
  cases htr with
  | newConnection =>
      obtain rfl := Option.some.inj hev
      rw [accountOf, conn_insertConn, if_pos rfl]
      rfl
  | byte _ hc =>
      obtain rfl := Option.some.inj hev
      rw [accountOf, conn_modifyConn, if_pos rfl, hc]
      rfl
  | @command k c _ hc hout =>
      obtain rfl := Option.some.inj hev
      have hc' : (s.flush.takeLine k).conn k = some c.clearLine := by
        rw [takeLine, conn_modifyConn, if_pos rfl, hc, Option.map_some]
      rcases hout.accounts hc' with ⟨hsame, -⟩ | ⟨code, -, hkill⟩ | ⟨u, -, rfl⟩ | ⟨-, -, rfl⟩
      · rw [hsame, accountOf, hc']
        rfl
      · rw [socketKill_account (by exact hc') hkill, if_pos rfl]
        rfl
      · rw [accountOf, conn_modifyConn, if_pos rfl, conn_sendCommand, hc']
        rfl
      · rw [accountOf, acceptLogin, conn_sendUidUpdate, conn_sendCommand, conn_withDb,
          conn_modifyConn, if_pos rfl, hc']
        rfl
  | socketKill hc hkill =>
      obtain rfl := Option.some.inj hev
      rw [socketKill_account hc hkill, if_pos rfl]
      rfl
  | zombieData => cases hev
  | pingTimerData => cases hev

/-! ## The two runs -/

/-- What is left of the events of a run when those of the connections are deleted that do not log
in during the run. -/
def purge (env : Env) : MainObject → List Event → List Event
  | _, [] => []
  | s, e :: es =>
    match step env s e with
    | some (s', _) =>
      if (eventFd e).all (logsIn env s' es) then e :: purge env s' es else purge env s' es
    | none => []

/-- What is seen of a server: that a connection is opened, and what it sends. -/
inductive Sighting where
  | opened (fd : Int)
  | sent (o : Output)
  deriving DecidableEq

/-- What is seen of a run. -/
def view (env : Env) : MainObject → List Event → List Sighting
  | _, [] => []
  | s, e :: es =>
    match step env s e with
    | some (s', out) => (opens e).toList.map .opened ++ out.map .sent ++ view env s' es
    | none => []

/-- What is seen of a run but for the connections that do not log in during it: the others being
opened, what is sent to them, and the status datagrams. -/
def viewOfLogins (env : Env) : MainObject → List Event → List Sighting
  | _, [] => []
  | s, e :: es =>
    match step env s e with
    | some (s', out) =>
      ((opens e).toList.filter (logsIn env s' es)).map .opened ++
        (out.filter (Output.visible (logsIn env s (e :: es)))).map .sent ++
        viewOfLogins env s' es
    | none => []

/-- The first event is kept when its connection logs in at some time. -/
theorem purge_cons (h : step env s e = some (s', out)) : purge env s (e :: es) =
    if (eventFd e).all (logsIn env s' es) then e :: purge env s' es else purge env s' es := by
  rw [purge, h]

/-- What is seen of the first event, and of the others. -/
theorem view_cons (h : step env s e = some (s', out)) : view env s (e :: es) =
    (opens e).toList.map .opened ++ out.map .sent ++ view env s' es := by
  rw [view, h]

/-- What those who log in see of the first event, and of the others. -/
theorem viewOfLogins_cons (h : step env s e = some (s', out)) : viewOfLogins env s (e :: es) =
    ((opens e).toList.filter (logsIn env s' es)).map .opened ++
      (out.filter (Output.visible (logsIn env s (e :: es)))).map .sent ++
      viewOfLogins env s' es := by
  rw [viewOfLogins, h]

/-! ## One step of the two runs -/

/-- A connection is opened. -/
theorem step_opens (hsent : s.sent = []) (hopens : opens e = some fd)
    (h : step env s e = some (s', out)) : out = [] ∧ ∃ c, s' = s.insertConn fd c ∧
      c.isAuthenticated = false ∧ ∀ t : MainObject, t.sent = [] → t.conn fd = none →
        step env t e = some (t.insertConn fd c, []) := by
  obtain ⟨peer, hslot⟩ := opens_eq_some.1 hopens
  obtain ⟨slot, w⟩ := e
  obtain rfl : slot = .newConnection fd peer := hslot
  obtain ⟨s₁, h₁, rfl, rfl⟩ := step_runSlot h
  rw [flush_of_sent hsent] at h₁
  simp only [runSlot, newConnection] at h₁
  split at h₁
  · cases h₁
  · next hfree =>
      obtain rfl := Option.some.inj h₁
      refine ⟨hsent, _, flush_of_sent hsent, rfl, fun t hsent' hnone => ?_⟩
      have hfree' : ¬ (fd < 0 ∨ (t.conn fd).any (fun c => ¬ c.zombie)) := by
        rw [hnone]
        exact not_or.2 ⟨(not_or.1 hfree).1, by simp⟩
      simp only [step, flush_of_sent hsent', runSlot, newConnection, if_neg hfree',
        Option.bind_eq_bind, Option.bind_some, Option.pure_def]
      rw [flush_of_sent (by exact hsent'), sent_insertConn, hsent']

/-- After a step everything that it sent has left. -/
theorem sent_of_step (h : step env s e = some (s', out)) : s'.sent = [] := by
  obtain ⟨s₁, -, rfl, -⟩ := step_runSlot h
  rfl

/-- Who is about to be connected has not logged in: there is no connection on its descriptor. -/
theorem logsIn_of_opens (hP : InfluenceSafe s e) (hopens : opens e = some fd) :
    logsIn env s (e :: es) fd = false := by
  rw [logsIn, acceptsLater, if_pos hopens, Bool.or_false]
  cases hc : s.conn fd with
  | none => rfl
  | some c => exact (hP.opens fd hopens (fd, c) (mem_toList.2 hc)).1 rfl

/-- Whoever does not log in adds nothing to what is left of the run. -/
theorem purge_step_hidden (hsent : s.sent = []) (hP : InfluenceSafe s e)
    (h : step env s e = some (s', out)) (hev : eventFd e = some fd)
    (hfd : logsIn env s' es fd = false) :
    s'.restrict (logsIn env s' es) = s.restrict (logsIn env s (e :: es)) ∧
      (opens e).toList.filter (logsIn env s' es) = [] ∧
      out.filter (Output.visible (logsIn env s (e :: es))) = [] := by
  have hsent' : s'.sent = [] := sent_of_step h
  cases hopens : opens e with
  | none =>
      have hsame {k c} (hc : s'.conn k = some c) :
          logsIn env s' es k = logsIn env s (e :: es) k := logsIn_step h (by simp [hopens]) hc
      obtain ⟨c, hc⟩ := exists_conn_of_eventFd h hev
      have hfd₀ : logsIn env s (e :: es) fd = false := (hsame hc).symm.trans hfd
      have hnot : s.accepted e ≠ some fd := fun hacc => by
        simp [logsIn, acceptsLater, hopens, hacc] at hfd₀
      obtain ⟨hrestrict, hout⟩ := hidden_step covers_logsIn hopens hev hfd₀ hnot h
      refine ⟨?_, rfl, hout⟩
      rw [restrict_congr (fun k c hc => hsame hc) hsent', hrestrict, flush_of_sent hsent]
  | some k =>
      obtain rfl : k = fd := by
        obtain ⟨peer, hslot⟩ := opens_eq_some.1 hopens
        simpa [eventFd, hslot] using hev
      obtain ⟨rfl, c, rfl, -⟩ := step_opens hsent hopens h
      refine ⟨eq_of_conn (fun j => ?_) rfl ?_, by simp [hfd], rfl⟩
      · rw [conn_restrict, conn_restrict]
        by_cases hj : k = j
        · subst hj
          rw [hfd, logsIn_of_opens hP hopens]
          rfl
        · have hconn : (s.insertConn k c).conn j = s.conn j := by
            rw [conn_insertConn, if_neg hj]
          cases hc : s.conn j with
          | none => simp [hconn, hc]
          | some cj =>
              rw [logsIn_step h (by simpa [hopens] using hj) (hconn.trans hc), hconn, hc]
      · simp [restrict, hsent]

/-- What the others do, they do in what is left of the run, and are sent the same. -/
theorem purge_step_visible (hsent : s.sent = []) (hs : Sober s) (hP : InfluenceSafe s e)
    (h : step env s e = some (s', out)) (hfd : ∀ fd ∈ eventFd e, logsIn env s' es fd = true) :
    step env (s.restrict (logsIn env s (e :: es))) e = some (s'.restrict (logsIn env s' es),
      out.filter (Output.visible (logsIn env s (e :: es)))) := by
  have hsent' : s'.sent = [] := sent_of_step h
  cases hopens : opens e with
  | none =>
      have hsame {k c} (hc : s'.conn k = some c) :
          logsIn env s' es k = logsIn env s (e :: es) k := logsIn_step h (by simp [hopens]) hc
      rw [restrict_congr (fun k c hc => hsame hc) hsent']
      refine restrict_step hsent hs covers_logsIn hP hopens (fun fd hev => ?_) h
      obtain ⟨c, hc⟩ := exists_conn_of_eventFd h hev
      exact (hsame hc).symm.trans (hfd fd hev)
  | some k =>
      have hev : eventFd e = some k := by
        obtain ⟨peer, hslot⟩ := opens_eq_some.1 hopens
        rw [eventFd, hslot]
      have hlogs := hfd k hev
      obtain ⟨rfl, c, rfl, -, hopen⟩ := step_opens hsent hopens h
      rw [hopen _ (by simp [restrict, hsent]) (by
        rw [conn_restrict, logsIn_of_opens hP hopens]
        rfl)]
      refine congrArg (fun s => some (s, [])) (eq_of_conn (fun j => ?_) rfl ?_)
      · rw [conn_insertConn, conn_restrict, conn_restrict, conn_insertConn]
        by_cases hj : k = j
        · rw [if_pos hj, if_pos hj, ← hj, hlogs]
          rfl
        · have hconn : (s.insertConn k c).conn j = s.conn j := by
            rw [conn_insertConn, if_neg hj]
          rw [if_neg hj, if_neg hj]
          cases hc : s.conn j with
          | none => simp
          | some cj => rw [logsIn_step h (by simpa [hopens] using hj) (hconn.trans hc)]
      · simp [restrict, hsent]

/-! ## Runs -/

/-- **The run lemma.** What is left of a run is a run of the connections that log in, and shows
what the run shows of them. -/
theorem purge_runs (hsent : s.sent = []) (hs : Sober s)
    (h : Runs (step env) InfluenceSafe s es s' tr) :
    (∃ tr', Runs (step env) Always (s.restrict (logsIn env s es)) (purge env s es)
      (s'.restrict (logsIn env s' [])) tr') ∧
    view env (s.restrict (logsIn env s es)) (purge env s es) = viewOfLogins env s es := by
  induction es generalizing s tr with
  | nil =>
      obtain ⟨rfl, -⟩ := h.det (.nil : Runs (step env) Always s [] s [])
      exact ⟨⟨[], .nil⟩, rfl⟩
  | cons e es ih =>
      obtain ⟨s₁, out, tr₁, hP, hstep, hr, -⟩ := h.uncons
      have hsent₁ : s₁.sent = [] := by
        obtain ⟨s₂, -, rfl, -⟩ := step_runSlot hstep
        rfl
      obtain ⟨⟨tr', hr'⟩, hview⟩ := ih hsent₁ (hs.step hP hstep) hr
      rw [purge_cons hstep, viewOfLogins_cons hstep]
      split
      · next hkeep =>
          have hfd : ∀ fd ∈ eventFd e, logsIn env s₁ es fd = true := by
            simpa [Option.all_eq_true] using hkeep
          have hstep' := purge_step_visible hsent hs hP hstep hfd
          refine ⟨⟨_, (Runs.single trivial hstep').append hr'⟩, ?_⟩
          have hopened : (opens e).toList.filter (logsIn env s₁ es) = (opens e).toList := by
            refine List.filter_eq_self.2 fun fd hmem => hfd fd ?_
            obtain ⟨peer, hslot⟩ := opens_eq_some.1 (Option.mem_toList.1 hmem)
            simp [eventFd, hslot]
          rw [view_cons hstep', hview, hopened]
      · next hdrop =>
          obtain ⟨fd, hev, hfd⟩ : ∃ fd, eventFd e = some fd ∧ logsIn env s₁ es fd = false := by
            simpa [Option.all_eq_true] using hdrop
          obtain ⟨hsame, hopened, hout⟩ := purge_step_hidden hsent hP hstep hev hfd
          rw [← hsame, hopened, hout]
          exact ⟨⟨tr', hr'⟩, hview⟩

/-- A `CA` that is put through in the event goes to a connection that has logged in, as the user
that is called; and a `PW` that is answered with `userActive` is so because another connection
that has logged in has the user. -/
structure Undisturbed (s : MainObject) (e : Event) : Prop where
  call : ∀ fd d, s.putThrough e = some (fd, d) → ∃ c cmds u cd, s.received e = some (fd, c, cmds) ∧
    e.world.lookup s.db (cmds.at 1) = some u ∧ s.conn d = some cd ∧ cd.uid = u.id ∧
    cd.isAuthenticated
  password : ∀ fd c cmds, s.received e = some (fd, c, cmds) → cmds.at 0 = "PW" →
    (s.takeLine fd).killCode fd c cmds = some .userActive →
    ∃ k ck, k ≠ fd ∧ s.conn k = some ck ∧ ck.uid = c.uid ∧ ck.isAuthenticated

/-- Connections that never log in have not influenced the others in the run over the events from
`db` to `s`. The run without their events is one, too; it ends with the connections that have
logged in, just as they are in `s`, and with the same database; and it shows what the run shows of
these. No step of the run has been disturbed. -/
structure NonInterfering (env : Env) (db : Database) (es : List Event) (s : MainObject) :
    Prop where
  purged : ∃ t tr, Runs (step env) Always (start db) (purge env (start db) es) t tr ∧
    (∀ fd, t.conn fd = (s.conn fd).filter (·.isAuthenticated)) ∧ t.db = s.db ∧
    view env (start db) (purge env (start db) es) = viewOfLogins env (start db) es
  undisturbed : ∀ es₁ e es₂ s₁ tr₁, es = es₁ ++ e :: es₂ →
    Runs (step env) Always (start db) es₁ s₁ tr₁ → Undisturbed s₁ e

/-- The server is sober at its start. -/
theorem sober_start : Sober (start db) := by
  have hnone : ∀ k c, (start db).conn k ≠ some c := fun _ _ hc => nomatch hc
  exact ⟨fun k c hc => absurd hc (hnone k c), fun k c hc => absurd hc (hnone k c),
    fun k c hc => absurd hc (hnone k c), fun k c hc => absurd hc (hnone k c)⟩

/-- At the start there is nothing to leave out. -/
theorem restrict_start : (start db).restrict L = start db :=
  eq_of_conn (fun k => by rw [conn_restrict]; split <;> rfl) rfl rfl

/-- Nothing disturbs a step that meets `InfluenceSafe`. -/
theorem InfluenceSafe.undisturbed (h : InfluenceSafe s e) (hs : Sober s) : Undisturbed s e := by
  refine ⟨fun fd d hput => ?_, fun fd c cmds hrec h0 hcode => ?_⟩
  · obtain ⟨c, cmds, hrec, hcallee⟩ := putThrough_eq_some.1 hput
    obtain ⟨⟨h0, hauth, hlen⟩, u, hu, rfl, -⟩ := callee_spec hcallee
    rcases calleeFd_spec (s.takeLine fd) u.id with ⟨cd, hcd, huid, -⟩ | ⟨hneg, -⟩
    · have hin := h.calleeFd_authenticated hs hrec h0 hauth hlen hu hcd
      obtain ⟨c₀, hc₀, hacc⟩ := conn_takeLine hcd
      exact ⟨c, cmds, u, c₀, hrec, hu, hc₀, (congrArg Account.uid hacc).symm.trans huid,
        (congrArg Account.isAuthenticated hacc).symm.trans hin⟩
    · obtain ⟨-, -, -, -, hpos, -⟩ := callee_spec hcallee
      omega
  · have hLI : cmds.at 0 ≠ "LI" := by rw [h0]; decide
    rw [killCode, if_neg hLI, if_pos h0] at hcode
    split_ifs at hcode with hlen hinvalid hactive
    · cases hcode
    · cases hcode
    obtain ⟨huid, hhash⟩ := not_or.1 hinvalid
    rcases getFdByUid_spec (s.takeLine fd) c.uid fd with ⟨c₁, hc₁, hu₁, hne⟩ | ⟨hneg, -⟩
    · obtain ⟨c₀, hc₀, hacc⟩ := conn_takeLine hc₁
      obtain ⟨⟨j, cj⟩, hy, hj, huj, hauthj⟩ := h.password _ hrec h0 (not_not.1 hlen) huid
        (not_not.1 hhash) (_, c₀) (mem_toList.2 hc₀) hne
        ((congrArg Account.uid hacc).symm.trans hu₁)
      exact ⟨j, cj, hj, mem_toList.1 hy, huj, hauthj⟩
    · omega

/-- **Who never logs in does not influence anybody**, in every run whose steps all meet
`InfluenceSafe`. -/
theorem nonInterfering_of_runs (h : Runs (step env) InfluenceSafe (start db) es s tr) :
    NonInterfering env db es s := by
  obtain ⟨⟨tr', hr⟩, hview⟩ := purge_runs rfl sober_start h
  rw [restrict_start] at hr hview
  refine ⟨⟨_, tr', hr, fun fd => ?_, rfl, hview⟩, fun es₁ e es₂ s₁ tr₁ hes hr₁ => ?_⟩
  · rw [conn_restrict, logsIn, acceptsLater, Bool.or_false]
    cases hc : s.conn fd with
    | none => simp
    | some c => cases hauth : c.isAuthenticated <;> simp [hauth, Option.filter]
  · rw [hes] at h
    obtain ⟨s₂, tr₂, tr₃, hr₂, hr₃, -⟩ := h.split
    obtain ⟨rfl, -⟩ := hr₁.det hr₂
    obtain ⟨s₃, out, tr₄, hP, -⟩ := hr₃.uncons
    exact hP.undisturbed
      (hr₂.invariant sober_start fun s e s' out hs hP hstep => hs.step hP hstep)

/-- A run in which Alice and Bob log in, on the descriptors 5 and 6, and Bob calls Alice. Before
that, somebody on `fd` names Alice and nothing more. -/
def impostorRun (fd : Int) : List Event :=
  connects 5 0 :: typed 5 (loginText "alice") 0 ++
    connects 6 0 :: typed 6 (loginText "bob") 0 ++
    connects fd 0 :: typed fd "LI alice 0.0.0.0 1!" 0 ++ typed 6 (callText "alice") 0

/-- The impostor's descriptor is smaller than Alice's: the call goes to Alice. -/
theorem nonInterfering_of_runs_demo : ∃ s tr,
    Runs (step demoEnv) InfluenceSafe (start demoDb) (impostorRun 4) s tr ∧
      (s.conn 6).map (·.connectionFd) = some 5 ∧
      NonInterfering demoEnv demoDb (impostorRun 4) s := by
  have hrun : (run (step demoEnv) InfluenceSafe (start demoDb) (impostorRun 4)).any
      (fun x => (x.1.conn 6).map (·.connectionFd) = some 5) := by decide +kernel
  obtain ⟨⟨s, tr⟩, hrun, hlink⟩ := (Option.any_eq_true _ _).1 hrun
  have hruns := runs_of_run hrun
  exact ⟨s, tr, hruns, of_decide_eq_true hlink, nonInterfering_of_runs hruns⟩

/-- The impostor's descriptor is greater than Alice's: Bob is put through to the impostor, but is
put through to Alice when the impostor is not there. -/
theorem nonInterfering_needs_influenceSafe : ¬ ∀ (env : Env) (db : Database) es s tr,
    Runs (step env) Always (start db) es s tr → NonInterfering env db es s := by
  intro h
  have hrun : (run (step demoEnv) Always (start demoDb) (impostorRun 7)).any
      (fun x => (x.1.conn 6).map (fun c => (c.isAuthenticated, c.connectionFd)) =
        some (true, 7)) := by
    decide +kernel
  have hpurged : (run (step demoEnv) Always (start demoDb)
      (purge demoEnv (start demoDb) (impostorRun 7))).any
      (fun x => (x.1.conn 6).map (·.connectionFd) = some 5) := by decide +kernel
  obtain ⟨⟨s, tr⟩, hrun, hlink⟩ := (Option.any_eq_true _ _).1 hrun
  obtain ⟨⟨t₀, tr₀⟩, hrun₀, hlink₀⟩ := (Option.any_eq_true _ _).1 hpurged
  obtain ⟨t, tr', hr, hconn, -⟩ := (h demoEnv demoDb _ s tr (runs_of_run hrun)).purged
  obtain ⟨rfl, -⟩ := hr.det (runs_of_run hrun₀)
  obtain ⟨c, hc, heq⟩ := Option.map_eq_some_iff.1 (of_decide_eq_true hlink)
  obtain ⟨hauth, hfd⟩ := Prod.mk.inj heq
  have hsix := hconn 6
  rw [hc, Option.filter_some_pos hauth] at hsix
  have hlink₀ := of_decide_eq_true hlink₀
  rw [hsix, Option.map_some, hfd] at hlink₀
  cases hlink₀

end MainObject

end NetISDN
