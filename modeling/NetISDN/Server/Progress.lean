import NetISDN.Server.LinkSafety
import NetISDN.Server.Endpoints

/-!
# The server answers

No byte that a client sends, and no client that comes or goes, makes the server follow a null
pointer or search for a port forever, as long as the links of its table are in order and its table
is not full (`MainObject.answers_of_runs`). The two sweeps of the table are left out: they erase the
entry at which their iterator stands.
-/

namespace NetISDN

open TransitionSystem

namespace MainObject

variable {env : Env} {w : World} {s s' : MainObject} {fd d : Int} {c cd : SipConnection}
  {cmds : QStringList} {e : Event} {cmd : QString}

/-- The partner of each connection is there. -/
def PartnersThere (s : MainObject) : Prop :=
  ∀ fd c, s.conn fd = some c → 0 ≤ c.connectionFd → ∃ d, s.conn c.connectionFd = some d

/-- Where links are in order, each partner is there. -/
theorem LinkInv.partnersThere (h : LinkInv s) : PartnersThere s := by
  intro fd c hc hlink
  obtain ⟨-, d, hd, -⟩ := (h.callLinks fd c hc).1 hlink
  exact ⟨d, hd⟩

/-- A change that sets no link. -/
theorem PartnersThere.modifyConn {f : SipConnection → SipConnection} (h : PartnersThere s)
    (hf : ∀ x, (f x).connectionFd = x.connectionFd) : PartnersThere (s.modifyConn fd f) := by
  intro k x hx hlink
  obtain ⟨y, hy, hsame⟩ : ∃ y, s.conn k = some y ∧ x.connectionFd = y.connectionFd := by
    rw [conn_modifyConn] at hx
    split at hx
    · obtain ⟨y, hy, rfl⟩ := Option.map_eq_some_iff.1 hx
      exact ⟨y, hy, hf y⟩
    · exact ⟨x, hx, rfl⟩
  rw [hsame] at hlink ⊢
  obtain ⟨d, hd⟩ := h k y hy hlink
  rw [conn_modifyConn]
  split
  · exact ⟨f d, by rw [hd]; rfl⟩
  · exact ⟨d, hd⟩

/-- A command sets no link. -/
theorem PartnersThere.sendCommand (h : PartnersThere s) : PartnersThere (s.sendCommand fd cmd) := h

/-- A call can always be ended. -/
theorem PartnersThere.endCall (h : PartnersThere s) (hc : s.conn fd = some c) :
    ∃ s', s.endCall w fd = some s' := by
  simp only [MainObject.endCall, hc, Option.bind_eq_bind, Option.bind_some]
  by_cases hlink : 0 ≤ c.connectionFd
  · obtain ⟨d, hd⟩ := h fd c hc hlink
    have hself : ∃ x, ((s.sendCommand c.connectionFd msCommand).modifyConn c.connectionFd
        SipConnection.clearCall).conn fd = some x := by
      rw [conn_modifyConn, conn_sendCommand, hc]
      split
      · exact ⟨_, rfl⟩
      · exact ⟨c, rfl⟩
    obtain ⟨x, hx⟩ := hself
    simp [hlink, hd, hx]
  · simp [hlink, hc]

/-- A user can be forgotten. -/
theorem PartnersThere.forgetUser (h : PartnersThere s) (hc : s.conn fd = some c) :
    ∃ s', s.forgetUser w fd = some s' := by
  simp only [MainObject.forgetUser, hc, Option.bind_eq_bind, Option.bind_some]
  by_cases hlink : 0 ≤ c.connectionFd
  · obtain ⟨d, hd⟩ := h fd c hc hlink
    simp [hlink, hd]
  · simp [hlink]

/-- Whoever is logged in can log out. -/
theorem PartnersThere.logout (h : PartnersThere s) (hc : s.conn fd = some c) :
    ∃ s', s.logout w fd = some s' := by
  simp only [MainObject.logout, hc, Option.bind_eq_bind, Option.bind_some]
  split
  · exact ⟨s, rfl⟩
  · split
    · obtain ⟨s₁, h₁⟩ := h.endCall (w := w) hc
      have hend := endCall_spec hc h₁
      obtain ⟨c₁, hc₁, hfree⟩ : ∃ c₁, s₁.conn fd = some c₁ ∧ c₁.connectionFd < 0 := by
        rw [hend.conn, if_pos (.inl rfl), hc]
        exact ⟨_, rfl, (by decide : (-1 : Int) < 0)⟩
      simp only [h₁, Option.bind_some, MainObject.forgetUser, hc₁, Option.bind_eq_bind,
        if_neg (not_le.2 hfree)]
      exact ⟨_, rfl⟩
    · exact h.forgetUser hc

/-- A connection can be killed. -/
theorem PartnersThere.socketKill (h : PartnersThere s) (hc : s.conn fd = some c) :
    ∃ s', s.socketKill w fd = some s' := by
  simp only [MainObject.socketKill, hc, Option.bind_eq_bind, Option.bind_some]
  split
  · exact ⟨s, rfl⟩
  · obtain ⟨s₁, h₁⟩ := h.logout (w := w) hc
    exact ⟨_, by rw [h₁]; rfl⟩

/-! ## Calls -/

/-- There is room for another call: more ports than connections. -/
def HasPorts (s : MainObject) : Prop := s.fds.length < 30266

/-- A change of a connection leaves as many. -/
theorem fds_modifyConn {f : SipConnection → SipConnection} :
    (s.modifyConn fd f).fds.length = s.fds.length := by
  rw [fds, fds, Std.ExtTreeMap.length_keys, Std.ExtTreeMap.length_keys, modifyConn,
    Std.ExtTreeMap.size_modify]

/-- `GeneratePort` comes to an end. -/
theorem HasPorts.generatePort (h : HasPorts s) (addr : QHostAddress) :
    ∃ port, s.generatePort addr = some port := by
  classical
  have hlen : (s.seenAt addr).length < 30266 := by
    refine lt_of_le_of_lt (List.length_filter_le _ _) ?_
    rwa [Std.ExtTreeMap.length_toList, ← Std.ExtTreeMap.length_keys]
  have hex := exists_portUnused hlen
  obtain ⟨hlt, hfree⟩ := Nat.find_spec hex
  exact ⟨_, generatePort_spec hlt hfree fun i hi hi' => Nat.find_min hex hi ⟨hi.trans hlt, hi'⟩⟩

/-- A connection that is changed is still there. -/
theorem isSome_conn_modifyConn {f : SipConnection → SipConnection} {k : Int} :
    ((s.modifyConn fd f).conn k).isSome = (s.conn k).isSome := by
  rw [conn_modifyConn]
  split
  · exact Option.isSome_map
  · rfl

/-- The same connections are there. -/
def SameFds (s s' : MainObject) : Prop := ∀ k, (s'.conn k).isSome = (s.conn k).isSome

/-- Where there are ports, they can be assigned. -/
theorem HasPorts.assignPorts (h : HasPorts s) (hc : (s.conn fd).isSome) (hd : (s.conn d).isSome) :
    ∃ s', s.assignPorts fd d = some s' ∧ SameFds s s' := by
  obtain ⟨c, hc⟩ := Option.isSome_iff_exists.1 hc
  obtain ⟨cd, hd⟩ := Option.isSome_iff_exists.1 hd
  obtain ⟨port, hport⟩ := h.generatePort (callAddrs c cd).1
  have h' : HasPorts (s.modifyConn fd (SipConnection.setSourcePort port)) := by
    rwa [HasPorts, fds_modifyConn]
  obtain ⟨port', hport'⟩ := h'.generatePort (callAddrs c cd).2
  simp only [MainObject.assignPorts, hc, hd, hport, hport', Option.bind_eq_bind, Option.bind_some]
  exact ⟨_, rfl, fun k => isSome_conn_modifyConn.trans isSome_conn_modifyConn⟩

/-- A call between two connections can be logged. -/
theorem exists_logCall (w : World) (cmds : List QString) (hc : (s.conn fd).isSome)
    (hd : (s.conn d).isSome) :
    ∃ s', s.logCall w fd d cmds = some s' ∧ SameFds s s' := by
  obtain ⟨c, hc⟩ := Option.isSome_iff_exists.1 hc
  obtain ⟨cd, hd⟩ := Option.isSome_iff_exists.1 hd
  simp only [logCall, hc, hd, Option.bind_eq_bind, Option.bind_some]
  split
  · exact ⟨_, rfl, fun k => isSome_conn_modifyConn.trans isSome_conn_modifyConn⟩
  · exact ⟨_, rfl, fun _ => rfl⟩

/-- And their encoders can be started. -/
theorem exists_startEncoders (cmds : List QString) (hc : (s.conn fd).isSome)
    (hd : (s.conn d).isSome) :
    ∃ s', s.startEncoders fd d cmds = some s' := by
  obtain ⟨c, hc⟩ := Option.isSome_iff_exists.1 hc
  obtain ⟨cd, hd⟩ := Option.isSome_iff_exists.1 hd
  simp only [startEncoders, hc, hd, Option.bind_eq_bind, Option.bind_some]
  exact ⟨_, rfl⟩

/-- A call can be set up. -/
theorem HasPorts.setupCall (h : HasPorts s) (hc : (s.conn fd).isSome) (hd : (s.conn d).isSome) :
    ∃ s', s.setupCall w fd d cmds = some s' := by
  have hlinked : HasPorts (((s.sendCommand fd (erCommand .callProceeding)).modifyConn fd
      (SipConnection.setConnectionFd d)).modifyConn d (SipConnection.setConnectionFd fd)) := by
    rw [HasPorts, fds_modifyConn, fds_modifyConn]
    exact h
  have hsame : SameFds s (((s.sendCommand fd (erCommand .callProceeding)).modifyConn fd
      (SipConnection.setConnectionFd d)).modifyConn d (SipConnection.setConnectionFd fd)) :=
    fun k => isSome_conn_modifyConn.trans isSome_conn_modifyConn
  obtain ⟨s₁, h₁, hsame₁⟩ := hlinked.assignPorts ((hsame fd).trans hc) ((hsame d).trans hd)
  have hthere (k : Int) (hk : (s.conn k).isSome) : (s₁.conn k).isSome := by rwa [hsame₁, hsame]
  obtain ⟨s₂, h₂, hsame₂⟩ := exists_logCall w cmds (hthere fd hc) (hthere d hd)
  obtain ⟨s', h'⟩ := exists_startEncoders cmds ((hsame₂ fd).trans (hthere fd hc))
    ((hsame₂ d).trans (hthere d hd))
  refine ⟨s', ?_⟩
  simp only [MainObject.setupCall, Option.bind_eq_bind, h₁, h₂, Option.bind_some]
  exact h'

/-- `InitiateCall` comes to an end. -/
theorem HasPorts.initiateCall (h : HasPorts s) (hc : (s.conn fd).isSome) :
    ∃ s', s.initiateCall w fd cmds = some s' := by
  unfold MainObject.initiateCall
  split
  · exact ⟨_, rfl⟩
  · split
    · exact ⟨_, rfl⟩
    · next u _ =>
        dsimp only
        split
        · exact ⟨_, rfl⟩
        · next hfound =>
            rcases calleeFd_spec s u.id with ⟨d, hd, -⟩ | ⟨hnone, -⟩
            · simp only [hd, Option.bind_eq_bind, Option.bind_some]
              split
              · exact ⟨_, rfl⟩
              · exact h.setupCall hc (Option.isSome_iff_exists.2 ⟨d, hd⟩)
            · omega

/-- `ForwardMessage` finds the partner. -/
theorem PartnersThere.forwardMessage (h : PartnersThere s) (hc : s.conn fd = some c) :
    ∃ s', s.forwardMessage fd cmds = some s' := by
  simp only [MainObject.forwardMessage, hc, Option.bind_eq_bind, Option.bind_some]
  split
  · exact ⟨_, rfl⟩
  · next hlink =>
      obtain ⟨d, hd⟩ := h fd c hc (not_lt.1 hlink)
      exact ⟨_, by rw [hd]; rfl⟩

/-- `Login` returns. -/
theorem PartnersThere.login (h : PartnersThere s) (hc : s.conn fd = some c) :
    ∃ s', s.login env w fd cmds = some s' := by
  unfold MainObject.login
  split
  · exact h.sendCommand.socketKill hc
  · dsimp only
    split <;> exact ⟨_, rfl⟩

/-- `Password` returns. -/
theorem PartnersThere.password (h : PartnersThere s) (hc : s.conn fd = some c) :
    ∃ s', s.password env w fd cmds = some s' := by
  have hkill (code : ResponseCode) :
      ∃ s', (s.sendCommand fd (erCommand code)).socketKill w fd = some s' :=
        h.sendCommand.socketKill hc
  simp only [MainObject.password, hc, Option.bind_eq_bind, Option.bind_some]
  split
  · exact hkill _
  split
  · exact hkill _
  split
  · exact hkill _
  split
  · exact hkill _
  · exact ⟨_, rfl⟩

/-- `ReceiveMetadata` returns. -/
theorem exists_receiveMetadata (hc : s.conn fd = some c) :
    ∃ s', s.receiveMetadata w fd cmds = some s' := by
  simp only [receiveMetadata, hc, Option.bind_eq_bind, Option.bind_some]
  split <;> exact ⟨_, rfl⟩

/-- Every command is answered, or left alone. -/
theorem PartnersThere.dispatch (h : PartnersThere s) (hports : HasPorts s)
    (hc : s.conn fd = some c) :
    ∃ s', s.dispatch env w fd cmds = some s' := by
  have hthere : (s.conn fd).isSome := Option.isSome_iff_exists.2 ⟨c, hc⟩
  simp only [MainObject.dispatch, hc, Option.bind_eq_bind, Option.bind_some]
  split_ifs
  · exact h.login hc
  · exact h.password hc
  · exact hports.initiateCall hthere
  · exact h.endCall hc
  · exact h.forwardMessage hc
  · exact exists_receiveMetadata hc
  · exact h.forwardMessage hc
  · exact ⟨_, rfl⟩
  · exact ⟨_, rfl⟩
  · exact h.sendCommand.socketKill hc

/-- What the event loop may call: a slot of a connection that is there, or a new connection on a
descriptor that is not in use. -/
def Called (s : MainObject) (e : Event) : Prop :=
  match e.slot with
  | .newConnection fd _ => 0 ≤ fd ∧ ∀ c ∈ s.conn fd, c.zombie = true
  | .socketReady fd _ | .socketKill fd => (s.conn fd).isSome
  | .zombieData | .pingTimerData => False

/-- Each slot returns where links are in order and ports are left. -/
theorem LinkInv.answers (h : LinkInv s) (hports : HasPorts s) (hcalled : Called s e) :
    ∃ s' out, MainObject.step env s e = some (s', out) := by
  have hthere : PartnersThere s.flush := h.partnersThere
  obtain ⟨slot, w⟩ := e
  have hrun (hslot : ∃ s', runSlot env s.flush ⟨slot, w⟩ = some s') :
      ∃ s' out, MainObject.step env s ⟨slot, w⟩ = some (s', out) := by
    obtain ⟨s', hs'⟩ := hslot
    exact ⟨s'.flush, s'.sent, by rw [MainObject.step, hs']; rfl⟩
  refine hrun ?_
  cases slot with
  | newConnection fd peer =>
      obtain ⟨hfd, hfree⟩ := hcalled
      refine ⟨_, if_neg ?_⟩
      rintro (hneg | hlive)
      · omega
      · obtain ⟨c, hc, hlive⟩ := (Option.any_eq_true _ _).1 hlive
        simp [hfree c hc] at hlive
  | socketReady fd b =>
      obtain ⟨c, hc⟩ := Option.isSome_iff_exists.1 hcalled
      have hc' : s.flush.conn fd = some c := hc
      simp only [runSlot, readByte, hc', Option.bind_eq_bind, Option.bind_some]
      split
      · simp only [parseCommand, hc', Option.bind_eq_bind, Option.bind_some]
        have hconn : (s.flush.takeLine fd).conn fd = some c.clearLine := by
          rw [takeLine, conn_modifyConn, if_pos rfl, hc', Option.map_some]
        have htaken : HasPorts (s.flush.takeLine fd) := by
          rw [HasPorts, takeLine, fds_modifyConn]
          exact hports
        exact PartnersThere.dispatch (hthere.modifyConn fun _ => rfl) htaken hconn
      · exact ⟨_, rfl⟩
  | socketKill fd =>
      obtain ⟨c, hc⟩ := Option.isSome_iff_exists.1 hcalled
      have hc' : s.flush.conn fd = some c := hc
      exact hthere.socketKill hc'
  | zombieData | pingTimerData => exact hcalled.elim

/-- **The server answers.** In every state that a run reaches whose steps keep the links in order,
and in which fewer connections are open than there are ports, whatever a client sends is handled: no
handler follows a null pointer, and no search for a port goes on forever. -/
theorem answers_of_runs {db : Database} {es : List Event} {tr : List Output}
    (h : Runs (step env) LinkSafe (start db) es s tr) (hports : HasPorts s) (hcalled : Called s e) :
    ∃ s' out, step env s e = some (s', out) := by
  have hlinks : LinkInv s := by
    refine h.invariant ⟨⟨_, represents_start db⟩, fun _ _ hc => nomatch hc⟩ ?_
    intro s e s' out hs hP hstep
    exact hs.step hP hstep
  exact hlinks.answers hports hcalled

/-- Alice's call for Bob is complete but for its last byte. -/
theorem answers_of_runs_demo : ∃ s tr, Runs (step demoEnv) LinkSafe (start demoDb)
      (connects 5 0 :: connects 6 0 ::
      (typed 5 (loginText "alice") 0 ++ typed 6 (loginText "bob") 0 ++
        typed 5 (callText "bob").dropLast 0)) s tr ∧
    ∃ s' out, step demoEnv s ⟨.socketReady 5 '!', { now := 0 }⟩ = some (s', out) := by
  have hrun : (run (step demoEnv) LinkSafe (start demoDb)
      (connects 5 0 :: connects 6 0 ::
        (typed 5 (loginText "alice") 0 ++ typed 6 (loginText "bob") 0 ++
        typed 5 (callText "bob").dropLast 0))).any fun x => x.1.fds.length < 30266 ∧
          (x.1.conn 5).isSome := by
    decide +kernel
  obtain ⟨⟨s, tr⟩, hrun, hend⟩ := (Option.any_eq_true _ _).1 hrun
  obtain ⟨hports, hthere⟩ := of_decide_eq_true hend
  have hruns := runs_of_run hrun
  exact ⟨s, tr, hruns, answers_of_runs hruns hports hthere⟩

end MainObject

end NetISDN
