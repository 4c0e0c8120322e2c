import NetISDN.Server.Dispatch

/-!
# The server with some of its connections

`restrict L s` is the server that has only those connections of `s` whose descriptors are in `L`,
and has sent only what went to them. A handler that runs for a connection in `L` does the same
there, provided that the partner of a connection is in `L` and that what it looks for among all
connections is in `L` if it is anywhere: this is the only way in which a connection can be in the
way of another.
-/

namespace NetISDN

open Std (ExtTreeMap)

/-- Output that concerns only the connections in `L`. -/
def Output.visible (L : Int → Bool) : Output → Bool
  | .command fd _ => L fd
  | .status _ => true

namespace MainObject

/-- The server with the connections in `L`. -/
def restrict (L : Int → Bool) (s : MainObject) : MainObject :=
  { sip_connections := s.sip_connections.filter fun k _ => L k
    db := s.db
    sent := s.sent.filter (Output.visible L) }

variable {env : Env} {w : World} {L L' : Int → Bool} {s s' : MainObject} {fd d k : Int}
  {c cd : SipConnection} {cmds : QStringList} {addr : QHostAddress} {i n : Nat}

/-- A connection of the part, or none. -/
theorem conn_restrict : (s.restrict L).conn k = if L k then s.conn k else none := by
  rw [conn, restrict, ExtTreeMap.getElem?_filter', conn]
  cases s.sip_connections[k]? <;> cases L k <;> simp

/-- A connection of the part is the one of the whole. -/
theorem conn_restrict_of_mem (hk : L k = true) : (s.restrict L).conn k = s.conn k := by
  rw [conn_restrict, if_pos hk]

@[simp] theorem db_restrict : (s.restrict L).db = s.db := rfl

/-- The descriptors of the part. -/
theorem fds_restrict : (s.restrict L).fds = s.fds.filter L := ExtTreeMap.keys_filter_key

/-- Two servers with the same connections, database and output are the same. -/
theorem eq_of_conn (hconn : ∀ k, s'.conn k = s.conn k) (hdb : s'.db = s.db)
    (hsent : s'.sent = s.sent) : s' = s := by
  obtain ⟨m, db, sent⟩ := s
  obtain ⟨m', db', sent'⟩ := s'
  obtain rfl : m' = m := ExtTreeMap.ext_getElem? hconn
  cases hdb
  cases hsent
  rfl

/-- Only what is in the table matters. -/
theorem restrict_congr (h : ∀ k c, s.conn k = some c → L k = L' k) (hsent : s.sent = []) :
    s.restrict L = s.restrict L' := by
  refine eq_of_conn (fun k => ?_) rfl (by simp [restrict, hsent])
  rw [conn_restrict, conn_restrict]
  cases hc : s.conn k with
  | none => simp
  | some c => rw [h k c hc]

/-! ## The operations on the state -/

section
variable {f : SipConnection → SipConnection} {g : Database → Database} {o : Output} {cmd : QString}
  {id : Int}

/-- A connection is changed in the part as it is in the whole. -/
theorem restrict_modifyConn : (s.restrict L).modifyConn k f = (s.modifyConn k f).restrict L := by
  refine eq_of_conn (fun j => ?_) rfl rfl
  rw [conn_modifyConn, conn_restrict, conn_restrict, conn_modifyConn]
  cases L j <;> simp

/-- A change of a connection outside the part does not show in it. -/
theorem restrict_modifyConn_of_not_mem (hk : L k = false) :
    (s.modifyConn k f).restrict L = s.restrict L := by
  refine eq_of_conn (fun j => ?_) rfl rfl
  rw [conn_restrict, conn_restrict, conn_modifyConn]
  cases hj : L j with
  | false => rfl
  | true =>
      have hne : k ≠ j := by
        rintro rfl
        cases hk.symm.trans hj
      rw [if_neg hne]

/-- A connection is removed from the part as it is from the whole. -/
theorem restrict_eraseConn : (s.restrict L).eraseConn k = (s.eraseConn k).restrict L := by
  refine eq_of_conn (fun j => ?_) rfl rfl
  rw [conn_eraseConn, conn_restrict, conn_restrict, conn_eraseConn]
  cases L j <;> simp

/-- A connection that is removed outside the part is not missed in it. -/
theorem restrict_eraseConn_of_not_mem (hk : L k = false) :
    (s.eraseConn k).restrict L = s.restrict L := by
  refine eq_of_conn (fun j => ?_) rfl rfl
  rw [conn_restrict, conn_restrict, conn_eraseConn]
  cases hj : L j with
  | false => rfl
  | true =>
      have hne : k ≠ j := by
        rintro rfl
        cases hk.symm.trans hj
      rw [if_neg hne]

/-- The part has the database of the whole. -/
theorem restrict_withDb : (s.restrict L).withDb g = (s.withDb g).restrict L := rfl

/-- What has been sent is taken out of the part as well. -/
theorem restrict_flush : (s.restrict L).flush = s.flush.restrict L := rfl

/-- What the part sees of what is sent is sent in it. -/
theorem restrict_emit (ho : o.visible L = true) :
    (s.restrict L).emit o = (s.emit o).restrict L := by
  refine eq_of_conn (fun j => rfl) rfl ?_
  simp [restrict, emit, ho]

/-- A command to a connection of the part. -/
theorem restrict_sendCommand (hk : L k = true) :
    (s.restrict L).sendCommand k cmd = (s.sendCommand k cmd).restrict L := restrict_emit hk

/-- A command to another connection does not show. -/
theorem restrict_sendCommand_of_not_mem (hk : L k = false) :
    (s.sendCommand k cmd).restrict L = s.restrict L := by
  refine eq_of_conn (fun j => rfl) rfl ?_
  simp [restrict, sendCommand, emit, Output.visible, hk]

/-- A status datagram is seen in each part. -/
theorem restrict_sendUidUpdate :
    (s.restrict L).sendUidUpdate id = (s.sendUidUpdate id).restrict L := restrict_emit rfl

/-- And so is one about a call. -/
theorem restrict_sendCidUpdate :
    (s.restrict L).sendCidUpdate id = (s.sendCidUpdate id).restrict L := restrict_emit rfl

/-- Metadata for a connection of the part. -/
theorem restrict_sendMetadata (hk : L k = true) :
    (s.restrict L).sendMetadata id k = (s.sendMetadata id k).restrict L := by
  rw [sendMetadata, sendMetadata, db_restrict]
  cases s.db.selectUser id with
  | none => rfl
  | some u => simp only [restrict_sendCommand hk]

end

/-! ## `EndCall`, `Logout` and `socketKill` -/

/-- The partner of a connection in `L` is in `L`. -/
def Closed (L : Int → Bool) (s : MainObject) : Prop :=
  ∀ k c, L k = true → s.conn k = some c → 0 ≤ c.connectionFd → ∀ d,
    s.conn c.connectionFd = some d → L c.connectionFd = true

/-- A call ends in the part as it does in the whole. -/
theorem restrict_endCall (hfd : L fd = true) (hcl : s.Closed L) (h : s.endCall w fd = some s') :
    (s.restrict L).endCall w fd = some (s'.restrict L) := by
  have h₀ := h
  simp only [endCall, Option.bind_eq_bind, Option.bind_eq_some_iff] at h₀
  obtain ⟨c, hc, -⟩ := h₀
  have hpartner : 0 ≤ c.connectionFd → L c.connectionFd = true := fun hlink => by
    obtain ⟨d, hd⟩ := (endCall_spec hc h).partner hlink
    exact hcl fd c hfd hc hlink d hd
  simp only [endCall, conn_restrict_of_mem hfd, hc, Option.bind_eq_bind, Option.bind_some] at h ⊢
  by_cases hlink : 0 ≤ c.connectionFd
  · have hp := hpartner hlink
    simp only [if_pos hlink, conn_restrict_of_mem hp, Option.bind_eq_some_iff, Option.pure_def,
      Option.some.injEq, exists_eq_left', restrict_sendCommand hp, restrict_modifyConn,
      conn_restrict_of_mem hfd, restrict_withDb, restrict_sendCommand hfd, restrict_sendUidUpdate,
      restrict_sendCidUpdate] at h ⊢
    obtain ⟨d, hd, c₁, hc₁, rfl⟩ := h
    exact ⟨d, hd, c₁, hc₁, rfl⟩
  · simp only [if_neg hlink, Option.bind_eq_some_iff, Option.pure_def, Option.some.injEq,
      Option.bind_some, restrict_modifyConn, conn_restrict_of_mem hfd, restrict_withDb,
      restrict_sendCommand hfd, restrict_sendUidUpdate, restrict_sendCidUpdate] at h ⊢
    obtain ⟨c₁, hc₁, rfl⟩ := h
    exact ⟨c₁, hc₁, rfl⟩

/-- A user is forgotten in the part, if the partner is in it. -/
theorem restrict_forgetUser (hfd : L fd = true) (hc : s.conn fd = some c)
    (hp : 0 ≤ c.connectionFd → L c.connectionFd = true) (h : s.forgetUser w fd = some s') :
    (s.restrict L).forgetUser w fd = some (s'.restrict L) := by
  simp only [forgetUser, conn_restrict_of_mem hfd, hc, Option.bind_eq_bind, Option.bind_some]
    at h ⊢
  by_cases hlink : 0 ≤ c.connectionFd
  · have hp := hp hlink
    simp only [if_pos hlink, conn_restrict_of_mem hp, Option.bind_eq_some_iff, Option.pure_def,
      Option.some.injEq, exists_eq_left', restrict_modifyConn, restrict_withDb,
      restrict_sendUidUpdate] at h ⊢
    obtain ⟨d, hd, rfl⟩ := h
    exact ⟨d, hd, rfl⟩
  · simp only [if_neg hlink, Option.pure_def, Option.some.injEq, Option.bind_some,
      restrict_modifyConn, restrict_withDb, restrict_sendUidUpdate] at h ⊢
    rw [h]

/-- A logout in the part. -/
theorem restrict_logout (hfd : L fd = true) (hcl : s.Closed L) (h : s.logout w fd = some s') :
    (s.restrict L).logout w fd = some (s'.restrict L) := by
  have h₀ := h
  simp only [logout, Option.bind_eq_bind, Option.bind_eq_some_iff] at h₀
  obtain ⟨c, hc, -⟩ := h₀
  simp only [logout, conn_restrict_of_mem hfd, hc, Option.bind_eq_bind, Option.bind_some] at h ⊢
  split at h
  · next hout => rw [if_pos hout, Option.pure_def, ← Option.some.inj h]
  · next hout =>
      rw [if_neg hout]
      split at h
      · next hcid =>
          obtain ⟨s₁, hend, h⟩ := Option.bind_eq_some_iff.1 h
          have hc₁ : s₁.conn fd = some c.clearCall := by
            rw [(endCall_spec hc hend).conn fd, if_pos (.inl rfl), hc, Option.map_some]
          rw [if_pos hcid, restrict_endCall hfd hcl hend, Option.bind_some]
          exact restrict_forgetUser hfd hc₁ (fun hlink => absurd hlink (by simp)) h
      · next hcid =>
          rw [if_neg hcid]
          refine restrict_forgetUser hfd hc (fun hlink => ?_) h
          obtain ⟨d, hd⟩ := (forgetUser_spec hc h).partner hlink
          exact hcl fd c hfd hc hlink d hd

/-- A kill in the part. -/
theorem restrict_socketKill (hfd : L fd = true) (hcl : s.Closed L)
    (h : s.socketKill w fd = some s') :
    (s.restrict L).socketKill w fd = some (s'.restrict L) := by
  have h₀ := h
  simp only [socketKill, Option.bind_eq_bind, Option.bind_eq_some_iff] at h₀
  obtain ⟨c, hc, -⟩ := h₀
  simp only [socketKill, conn_restrict_of_mem hfd, hc, Option.bind_eq_bind, Option.bind_some]
    at h ⊢
  split at h
  · next hz => rw [if_pos hz, Option.pure_def, ← Option.some.inj h]
  · next hz =>
      obtain ⟨s₁, hout, h⟩ := Option.bind_eq_some_iff.1 h
      rw [if_neg hz, restrict_logout hfd hcl hout, Option.bind_some, Option.pure_def,
        ← Option.some.inj h, restrict_modifyConn]

/-! ## `GeneratePort` -/

/-- Nobody at the address uses the `i`-th port from `NETSIP_RTP_PORT` on. -/
def portUnused (s : MainObject) (addr : QHostAddress) (i : Nat) : Prop :=
  ∀ k c, s.conn k = some c → c.peerAddress = addr → c.sourcePort ≠ rtpPort + 2 * i

/-- A pass moves on from each port that it finds in use, and does so at least from the first. -/
theorem portPass_spec (hn : n < 30266) (hfree : s.portUnused addr n) (hi : i ≤ n) :
    ∃ j, i ≤ j ∧ j ≤ n ∧ (¬ s.portUnused addr i → i < j) ∧
      s.portPass addr (rtpPort + 2 * i) = (rtpPort + 2 * j, decide (i < j)) := by
  have go (l : List (Int × SipConnection)) (i : Nat) (hi : i ≤ n) (b : Bool)
      (hl : ∀ x ∈ l, x.2.peerAddress = addr → x.2.sourcePort ≠ rtpPort + 2 * n) :
      ∃ j, i ≤ j ∧ j ≤ n ∧
        ((∃ x ∈ l, x.2.peerAddress = addr ∧ x.2.sourcePort = rtpPort + 2 * i) → i < j) ∧
        l.foldl (fun acc x => if x.2.peerAddress = addr ∧ x.2.sourcePort = acc.1 then
          ((acc.1 + 2) % 2 ^ 16, true) else acc) (rtpPort + 2 * i, b) =
          (rtpPort + 2 * j, b || decide (i < j)) := by
    induction l generalizing i b with
    | nil => exact ⟨i, Nat.le_refl i, hi, fun ⟨x, hx, _⟩ => (nomatch hx), by simp⟩
    | cons x l ih =>
        rw [List.forall_mem_cons] at hl
        rw [List.foldl_cons]
        by_cases hhit : x.2.peerAddress = addr ∧ x.2.sourcePort = rtpPort + 2 * i
        · have hlt : i < n := Nat.lt_of_le_of_ne hi fun heq => hl.1 hhit.1 (heq ▸ hhit.2)
          have hnext : (rtpPort + 2 * i + 2) % 2 ^ 16 = rtpPort + 2 * (i + 1) := by
            rw [rtpPort]
            omega
          obtain ⟨j, hij, hj, -, hfold⟩ := ih (i + 1) hlt true hl.2
          have hlt' : i < j := hij
          refine ⟨j, by omega, hj, fun _ => hlt', ?_⟩
          simp only [if_pos hhit, hnext, hfold, hlt', decide_true, Bool.or_true, Bool.true_or]
        · obtain ⟨j, hij, hj, hused, hfold⟩ := ih i hi b hl.2
          refine ⟨j, hij, hj, fun ⟨y, hy, hyu⟩ => ?_, by rw [if_neg hhit, hfold]⟩
          rcases List.mem_cons.1 hy with rfl | hy
          · exact absurd hyu hhit
          · exact hused ⟨y, hy, hyu⟩
  obtain ⟨j, hij, hj, hused, hfold⟩ := go s.sip_connections.toList i hi false
    fun x hx => hfree x.1 x.2 (mem_toList.1 hx)
  refine ⟨j, hij, hj, fun hnot => hused ?_, ?_⟩
  · simp only [portUnused, not_forall, not_not] at hnot
    obtain ⟨k, c, hc, haddr, hport⟩ := hnot
    exact ⟨(k, c), mem_toList.2 hc, haddr, hport⟩
  · rw [portPass, ExtTreeMap.foldl_eq_foldl_toList]
    simpa using hfold

/-- `GeneratePort` finds the first unused port, if it comes to one before it has come round to
port 0. -/
theorem generatePort_spec (hn : n < 30266) (hfree : s.portUnused addr n)
    (hfirst : ∀ i < n, ¬ s.portUnused addr i) : s.generatePort addr = some (rtpPort + 2 * n) := by
  have go (fuel i : Nat) (hi : i ≤ n) (hfuel : n - i < fuel) :
      s.portPasses addr fuel (rtpPort + 2 * i) = some (rtpPort + 2 * n) := by
    induction fuel generalizing i with
    | zero => omega
    | succ fuel ih =>
        obtain ⟨j, hij, hj, hused, hpass⟩ := portPass_spec hn hfree hi
        rw [portPasses, hpass]
        by_cases hlt : i < j
        · simp only [hlt, decide_true]
          exact ih j hj (by omega)
        · have hin : i = n := by
            by_contra hne
            exact hlt (hused (hfirst i (by omega)))
          obtain rfl : j = n := by omega
          simp only [hlt, decide_false]
  exact go _ 0 (Nat.zero_le n) (by omega)

/-- `GeneratePort` depends on which ports are unused only. -/
theorem generatePort_congr (h : ∀ i, s'.portUnused addr i ↔ s.portUnused addr i)
    (hfree : ∃ i < 30266, s.portUnused addr i) : s'.generatePort addr = s.generatePort addr := by
  classical
  obtain ⟨n, hn, hfree⟩ := hfree
  have hex : ∃ i, s.portUnused addr i := ⟨n, hfree⟩
  have hle : Nat.find hex < 30266 := (Nat.find_min' hex hfree).trans_lt hn
  have hfirst : ∀ i < Nat.find hex, ¬ s.portUnused addr i := fun i hi => Nat.find_min hex hi
  rw [generatePort_spec hle (Nat.find_spec hex) hfirst,
    generatePort_spec hle ((h _).2 (Nat.find_spec hex)) fun i hi hi' => hfirst i hi ((h i).1 hi')]

/-- What is left out of `L` uses no port. -/
def Portless (L : Int → Bool) (s : MainObject) : Prop :=
  ∀ k c, s.conn k = some c → L k = false → c.sourcePort = 0

/-- A port is free in the part if it is in the whole, since no one outside has one. -/
theorem portUnused_restrict (hports : s.Portless L) :
    (s.restrict L).portUnused addr i ↔ s.portUnused addr i := by
  constructor
  · intro h k c hc haddr hport
    cases hL : L k with
    | false =>
        have hzero := hports k c hc hL
        rw [hport, rtpPort] at hzero
        omega
    | true => exact h k c (by rw [conn_restrict_of_mem hL, hc]) haddr hport
  · intro h k c hc
    rw [conn_restrict] at hc
    split at hc
    · exact h k c hc
    · cases hc

/-- The address and the port that a connection uses. -/
def endpointOf (s : MainObject) (k : Int) : Option (QHostAddress × Nat) :=
  (s.conn k).map fun c => (c.peerAddress, c.sourcePort)

/-- Whether a port is free depends on the endpoints only. -/
theorem portUnused_congr (h : ∀ k, s'.endpointOf k = s.endpointOf k) :
    s'.portUnused addr i ↔ s.portUnused addr i := by
  have hiff (s : MainObject) : s.portUnused addr i ↔
      ∀ k, s.endpointOf k ≠ some (addr, rtpPort + 2 * i) := by
    constructor
    · intro hfree k hk
      obtain ⟨c, hc, heq⟩ := Option.map_eq_some_iff.1 hk
      obtain ⟨haddr, hport⟩ := Prod.mk.inj heq
      exact hfree k c hc haddr hport
    · intro hfree k c hc haddr hport
      exact hfree k (by rw [endpointOf, hc, Option.map_some, haddr, hport])
  rw [hiff, hiff]
  exact forall_congr' fun k => by rw [h k]

/-! ## `InitiateCall` -/

/-- Each of the two searches for a port that a call between the connections on `fd` and `d` makes
comes to an unused one before it has come round to port 0. -/
def PortsUnused (s : MainObject) (fd d : Int) : Prop :=
  ∀ c, s.conn fd = some c → ∀ cd, s.conn d = some cd →
    (∃ i < 30266, s.portUnused (callAddrs c cd).1 i) ∧
    ∀ port, s.generatePort (callAddrs c cd).1 = some port →
      ∃ i < 30266, (s.modifyConn fd (SipConnection.setSourcePort port)).portUnused
        (callAddrs c cd).2 i

/-- The ports that are assigned in the part are those of the whole. -/
theorem restrict_assignPorts (hfd : L fd = true) (hd : L d = true) (hports : s.Portless L)
    (hunused : s.PortsUnused fd d) (h : s.assignPorts fd d = some s') :
    (s.restrict L).assignPorts fd d = some (s'.restrict L) := by
  simp only [assignPorts, Option.bind_eq_bind, Option.bind_eq_some_iff, Option.pure_def,
    Option.some.injEq, conn_restrict_of_mem hfd, conn_restrict_of_mem hd] at h ⊢
  obtain ⟨c, hc, cd, hcd, port, hport, port', hport', rfl⟩ := h
  obtain ⟨hfree, hfree'⟩ := hunused c hc cd hcd
  have hports' : (s.modifyConn fd (SipConnection.setSourcePort port)).Portless L := by
    intro k ck hck hk
    rw [conn_modifyConn] at hck
    split at hck
    · next heq =>
        rw [heq, hk] at hfd
        cases hfd
    · exact hports k ck hck hk
  refine ⟨c, hc, cd, hcd, port, ?_, port', ?_, ?_⟩
  · rw [generatePort_congr (fun _ => portUnused_restrict hports) hfree, hport]
  · rw [restrict_modifyConn, generatePort_congr (fun _ => portUnused_restrict hports')
      (hfree' port hport), hport']
  · rw [restrict_modifyConn, restrict_modifyConn]

/-- The call is logged the same. -/
theorem restrict_logCall (hfd : L fd = true) (hd : L d = true)
    (h : s.logCall w fd d cmds = some s') :
    (s.restrict L).logCall w fd d cmds = some (s'.restrict L) := by
  simp only [logCall, Option.bind_eq_bind, Option.bind_eq_some_iff, Option.pure_def,
    conn_restrict_of_mem hfd, conn_restrict_of_mem hd, restrict_withDb, db_restrict] at h ⊢
  obtain ⟨c, hc, cd, hcd, h⟩ := h
  refine ⟨c, hc, cd, hcd, ?_⟩
  split at h
  · next id hid =>
      rw [restrict_modifyConn, restrict_modifyConn, Option.some.inj h]
  · next hid => rw [Option.some.inj h]

/-- The encoders are started the same. -/
theorem restrict_startEncoders (hfd : L fd = true) (hd : L d = true)
    (h : s.startEncoders fd d cmds = some s') :
    (s.restrict L).startEncoders fd d cmds = some (s'.restrict L) := by
  simp only [startEncoders, Option.bind_eq_bind, Option.bind_eq_some_iff, Option.pure_def,
    Option.some.injEq, conn_restrict_of_mem hfd, conn_restrict_of_mem hd,
    restrict_sendCommand hfd, restrict_sendCommand hd, restrict_sendMetadata hfd,
    restrict_sendMetadata hd, restrict_sendUidUpdate, restrict_sendCidUpdate] at h ⊢
  obtain ⟨c, hc, cd, hcd, rfl⟩ := h
  exact ⟨c, hc, cd, hcd, rfl⟩

/-- Servers that differ in whom their connections are linked to only. -/
def SameButLinks (s s' : MainObject) : Prop :=
  ∀ k, (s'.conn k).map (SipConnection.setConnectionFd 0) =
    (s.conn k).map (SipConnection.setConnectionFd 0)

/-- A connection is there with another link at most. -/
theorem SameButLinks.exists_conn (h : SameButLinks s s') (hc : s'.conn k = some c) :
    ∃ c₀, s.conn k = some c₀ ∧ c.setConnectionFd 0 = c₀.setConnectionFd 0 := by
  have hk := h k
  rw [hc, Option.map_some, eq_comm, Option.map_eq_some_iff] at hk
  obtain ⟨c₀, hc₀, heq⟩ := hk
  exact ⟨c₀, hc₀, heq.symm⟩

/-- Setting a link changes links only. -/
theorem sameButLinks_modifyConn {fd' : Int} :
    SameButLinks s (s.modifyConn fd (SipConnection.setConnectionFd fd')) := by
  intro k
  rw [conn_modifyConn]
  split
  · rw [Option.map_map]
    rfl
  · rfl

/-- And so do two changes of links. -/
theorem SameButLinks.trans {s₁ : MainObject} (h : SameButLinks s s₁) (h' : SameButLinks s₁ s') :
    SameButLinks s s' := fun k => (h' k).trans (h k)

/-- Links do not matter for endpoints. -/
theorem SameButLinks.endpointOf (h : SameButLinks s s') : s'.endpointOf k = s.endpointOf k := by
  have hendpoint (s : MainObject) : s.endpointOf k =
      ((s.conn k).map (SipConnection.setConnectionFd 0)).map
        fun c => (c.peerAddress, c.sourcePort) := by
    rw [MainObject.endpointOf, Option.map_map]
    rfl
  rw [hendpoint, hendpoint, h k]

/-- A port that is set on both sides. -/
theorem SameButLinks.setSourcePort {port : Nat} (h : SameButLinks s s') :
    SameButLinks (s.modifyConn fd (SipConnection.setSourcePort port))
      (s'.modifyConn fd (SipConnection.setSourcePort port)) := by
  intro k
  rw [conn_modifyConn, conn_modifyConn]
  split
  · have hk := congrArg (Option.map (SipConnection.setSourcePort port)) (h k)
    rw [Option.map_map, Option.map_map] at hk ⊢
    exact hk
  · exact h k

/-- Links do not concern the ports. -/
theorem SameButLinks.portsUnused (h : SameButLinks s s') (hunused : s.PortsUnused fd d) :
    s'.PortsUnused fd d := by
  intro c hc cd hcd
  obtain ⟨c₀, hc₀, hsame⟩ := h.exists_conn hc
  obtain ⟨cd₀, hcd₀, hsame'⟩ := h.exists_conn hcd
  have haddrs : callAddrs c cd = callAddrs c₀ cd₀ := by
    show callAddrs (c.setConnectionFd 0) (cd.setConnectionFd 0) = _
    rw [hsame, hsame']
    rfl
  obtain ⟨⟨n, hn, hfree⟩, hfree'⟩ := hunused c₀ hc₀ cd₀ hcd₀
  rw [haddrs]
  refine ⟨⟨n, hn, (portUnused_congr fun _ => h.endpointOf).2 hfree⟩, fun port hport => ?_⟩
  rw [generatePort_congr (fun _ => portUnused_congr fun _ => h.endpointOf) ⟨n, hn, hfree⟩] at hport
  obtain ⟨n', hn', hfree'⟩ := hfree' port hport
  exact ⟨n', hn', (portUnused_congr fun _ => h.setSourcePort.endpointOf).2 hfree'⟩

/-- Links do not matter for who has a port. -/
theorem SameButLinks.portless (h : SameButLinks s s') (hports : s.Portless L) :
    s'.Portless L := by
  intro k c hc hk
  obtain ⟨c₀, hc₀, hsame⟩ := h.exists_conn hc
  have hport := congrArg SipConnection.sourcePort hsame
  exact hport.trans (hports k c₀ hc₀ hk)

/-- A call is set up in the part as it is in the whole. -/
theorem restrict_setupCall (hfd : L fd = true) (hd : L d = true) (hports : s.Portless L)
    (hunused : s.PortsUnused fd d) (h : s.setupCall w fd d cmds = some s') :
    (s.restrict L).setupCall w fd d cmds = some (s'.restrict L) := by
  simp only [setupCall, Option.bind_eq_bind, Option.bind_eq_some_iff, restrict_sendCommand hfd,
    restrict_modifyConn] at h ⊢
  obtain ⟨s₁, h₁, s₂, h₂, h⟩ := h
  have hsame : SameButLinks s (((s.sendCommand fd (erCommand .callProceeding)).modifyConn fd
      (SipConnection.setConnectionFd d)).modifyConn d (SipConnection.setConnectionFd fd)) :=
    (sameButLinks_modifyConn (s := s.sendCommand fd _)).trans sameButLinks_modifyConn
  exact ⟨s₁.restrict L,
    restrict_assignPorts hfd hd (hsame.portless hports) (hsame.portsUnused hunused) h₁,
    s₂.restrict L, restrict_logCall hfd hd h₂, restrict_startEncoders hfd hd h⟩

/-! ## The searches for a user -/

/-- The callee search finds the same if what it finds is in `L`. -/
theorem calleeFd_restrict {uid : Int}
    (hL : ∀ c, s.conn (s.calleeFd uid) = some c → c.uid = uid → L (s.calleeFd uid) = true) :
    (s.restrict L).calleeFd uid = s.calleeFd uid := by
  rcases calleeFd_spec (s.restrict L) uid with ⟨c, hc, hu, hmax⟩ | ⟨hneg, hno⟩
  · rw [conn_restrict] at hc
    split at hc
    · next hk =>
        rcases calleeFd_spec s uid with ⟨c', hc', hu', hmax'⟩ | ⟨-, hno'⟩
        · have hle := hmax' _ c hc hu
          have hge := hmax _ c' (by rw [conn_restrict_of_mem (hL c' hc' hu'), hc']) hu'
          omega
        · exact absurd hu (hno' _ c hc)
    · cases hc
  · rcases calleeFd_spec s uid with ⟨c', hc', hu', -⟩ | ⟨hneg', -⟩
    · exact absurd hu' (hno _ c' (by rw [conn_restrict_of_mem (hL c' hc' hu'), hc']))
    · rw [hneg, hneg']

/-- `GetFdByUid` finds somebody in `L` if it finds somebody. -/
theorem getFdByUid_restrict {uid : Int} (hnonneg : ∀ k c, s.conn k = some c → 0 ≤ k)
    (hL : 0 ≤ s.getFdByUid uid fd →
      ∃ k c, L k = true ∧ s.conn k = some c ∧ c.uid = uid ∧ k ≠ fd) :
    0 ≤ (s.restrict L).getFdByUid uid fd ↔ 0 ≤ s.getFdByUid uid fd := by
  constructor
  · intro hfound
    rcases getFdByUid_spec (s.restrict L) uid fd with ⟨c, hc, hu, hne⟩ | ⟨hneg, -⟩
    · rw [conn_restrict] at hc
      split at hc
      · rcases getFdByUid_spec s uid fd with ⟨c', hc', -⟩ | ⟨-, hno⟩
        · exact hnonneg _ c' hc'
        · exact absurd hu (hno _ c hc hne)
      · cases hc
    · omega
  · intro hfound
    obtain ⟨k, c, hk, hc, hu, hne⟩ := hL hfound
    rcases getFdByUid_spec (s.restrict L) uid fd with ⟨c', hc', -⟩ | ⟨-, hno⟩
    · rw [conn_restrict] at hc'
      split at hc'
      · exact hnonneg _ c' hc'
      · cases hc'
    · exact absurd hu (hno k c (by rw [conn_restrict_of_mem hk, hc]) hne)

/-! ## Commands -/

/-- What the command `cmds` on `fd`, whose connection is `c`, looks for among all connections is
in `L`: who has the user of a `PW` that presents the right hash, and who is called. A call that is
put through finds unused ports. -/
structure Finds (w : World) (L : Int → Bool) (s : MainObject) (fd : Int) (c : SipConnection)
    (cmds : QStringList) : Prop where
  session : cmds.at 0 = "PW" → cmds.length = 2 → c.uid ≠ 0 → cmds.at 1 = c.hash →
    0 ≤ s.getFdByUid c.uid fd → ∃ k ck, L k = true ∧ s.conn k = some ck ∧ ck.uid = c.uid ∧ k ≠ fd
  callee : cmds.at 0 = "CA" → c.isAuthenticated → cmds.length = 14 →
    ∀ u, w.lookup s.db (cmds.at 1) = some u →
    ∀ cd, s.conn (s.calleeFd u.id) = some cd → L (s.calleeFd u.id) = true
  ports : ∀ d, s.callee w c cmds = some d → s.PortsUnused fd d

/-- The command is answered by a kill with the connections in `L` only if it is with all. -/
theorem killCode_restrict (hnonneg : ∀ k c, s.conn k = some c → 0 ≤ k)
    (hfinds : s.Finds w L fd c cmds) :
    (s.restrict L).killCode fd c cmds = s.killCode fd c cmds := by
  unfold killCode
  by_cases hPW : cmds.at 0 = "PW"
  · by_cases hlen : cmds.length = 2
    · by_cases hinvalid : c.uid = 0 ∨ cmds.at 1 ≠ c.hash
      · simp only [hinvalid, if_true]
      · have hvalid := not_or.1 hinvalid
        have hiff : 0 ≤ (s.restrict L).getFdByUid c.uid fd ↔ 0 ≤ s.getFdByUid c.uid fd :=
          getFdByUid_restrict hnonneg (hfinds.session hPW hlen hvalid.1 (not_not.1 hvalid.2))
        simp only [hiff]
    · simp only [if_pos hlen]
  · simp only [if_neg hPW]

/-- `InitiateCall` of a caller in the part. -/
theorem restrict_initiateCall (hfd : L fd = true) (hports : s.Portless L)
    (h0 : cmds.at 0 = "CA") (hauth : c.isAuthenticated) (hfinds : s.Finds w L fd c cmds)
    (h : s.initiateCall w fd cmds = some s') :
    (s.restrict L).initiateCall w fd cmds = some (s'.restrict L) := by
  unfold initiateCall at h ⊢
  split at h
  · next hlen => rw [if_pos hlen, restrict_sendCommand hfd, Option.some.inj h]
  · next hlen =>
      rw [if_neg hlen, db_restrict]
      cases hu : w.lookup s.db (cmds.at 1) with
      | none =>
          rw [hu] at h
          simp only [restrict_sendCommand hfd, ← Option.some.inj h]
      | some u =>
          have hcallee := hfinds.callee h0 hauth (not_not.1 hlen) u hu
          have hsame : (s.restrict L).calleeFd u.id = s.calleeFd u.id :=
            calleeFd_restrict fun cd hcd _ => hcallee cd hcd
          simp only [hu, hsame] at h ⊢
          split at h
          · next hoff => rw [if_pos hoff, restrict_sendCommand hfd, Option.some.inj h]
          · next hoff =>
              obtain ⟨cd, hcd, h⟩ := Option.bind_eq_some_iff.1 h
              have hL := hcallee cd hcd
              rw [if_neg hoff, conn_restrict_of_mem hL, hcd, Option.bind_eq_bind,
                Option.bind_some]
              split at h
              · next hbusy =>
                  rw [if_pos hbusy, restrict_sendCommand hfd, Option.pure_def,
                    Option.some.inj h]
              · next hbusy =>
                  rw [if_neg hbusy]
                  refine restrict_setupCall hfd hL hports (hfinds.ports _ ?_) h
                  rw [callee, if_pos ⟨h0, hauth, not_not.1 hlen⟩, hu, Option.bind_some]
                  simp only [hcd, Option.any_some]
                  rw [if_pos ⟨not_lt.1 hoff, by simpa using hbusy⟩]

/-- A message is forwarded within the part. -/
theorem restrict_forwardMessage (hfd : L fd = true) (hcl : s.Closed L)
    (h : s.forwardMessage fd cmds = some s') :
    (s.restrict L).forwardMessage fd cmds = some (s'.restrict L) := by
  simp only [forwardMessage, conn_restrict_of_mem hfd, Option.bind_eq_bind,
    Option.bind_eq_some_iff] at h ⊢
  obtain ⟨c, hc, h⟩ := h
  refine ⟨c, hc, ?_⟩
  split at h
  · next hlink => rw [if_pos hlink, Option.pure_def, ← Option.some.inj h]
  · next hlink =>
      obtain ⟨d, hd, h⟩ := Option.bind_eq_some_iff.1 h
      have hp := hcl fd c hfd hc (not_lt.1 hlink) d hd
      rw [if_neg hlink, conn_restrict_of_mem hp, hd, Option.bind_some, restrict_sendCommand hp,
        Option.pure_def, ← Option.some.inj h]

/-- Metadata from a connection of the part. -/
theorem restrict_receiveMetadata (hfd : L fd = true) (h : s.receiveMetadata w fd cmds = some s') :
    (s.restrict L).receiveMetadata w fd cmds = some (s'.restrict L) := by
  have h₀ := h
  simp only [receiveMetadata, Option.bind_eq_bind, Option.bind_eq_some_iff] at h₀
  obtain ⟨c, hc, -⟩ := h₀
  simp only [receiveMetadata, conn_restrict_of_mem hfd, hc, Option.bind_eq_bind,
    Option.bind_some, Option.pure_def] at h ⊢
  split at h
  · next hlen => rw [if_pos hlen, ← Option.some.inj h]
  · next hlen =>
      rw [if_neg hlen, ← Option.some.inj h, ← restrict_sendUidUpdate]
      split_ifs <;> rfl

/-- A login that is accepted in the part. -/
theorem restrict_acceptLogin (hfd : L fd = true) :
    (s.restrict L).acceptLogin env w fd c = (s.acceptLogin env w fd c).restrict L := by
  rw [acceptLogin, acceptLogin, restrict_modifyConn, restrict_withDb, restrict_sendCommand hfd,
    restrict_sendUidUpdate]

/-- `Login` on a connection of the part. -/
theorem restrict_login (hfd : L fd = true) (hlen : cmds.length = 4)
    (h : s.login env w fd cmds = some s') :
    (s.restrict L).login env w fd cmds = some (s'.restrict L) := by
  simp only [login, if_neg (not_not.2 hlen), restrict_sendCommand hfd, db_restrict] at h ⊢
  split at h
  · next u hu => simp only [restrict_modifyConn, ← Option.some.inj h]
  · next hu => simp only [← Option.some.inj h]

/-- **Commands.** A command on a connection in `L` does the same with the connections in `L` as
with all. -/
theorem restrict_dispatch (hfd : L fd = true) (hcl : s.Closed L) (hports : s.Portless L)
    (hnonneg : ∀ k c, s.conn k = some c → 0 ≤ k) (hc : s.conn fd = some c)
    (hfinds : s.Finds w L fd c cmds) (h : s.dispatch env w fd cmds = some s') :
    (s.restrict L).dispatch env w fd cmds = some (s'.restrict L) := by
  have hcL : (s.restrict L).conn fd = some c := by rw [conn_restrict_of_mem hfd, hc]
  have hcode := killCode_restrict hnonneg hfinds
  cases hkill : s.killCode fd c cmds with
  | some code =>
      rw [dispatch_kill hc hkill] at h
      rw [dispatch_kill hcL (hcode.trans hkill), restrict_sendCommand hfd]
      exact restrict_socketKill hfd hcl h
  | none =>
      rw [hkill] at hcode
      by_cases hLI : cmds.at 0 = "LI"
      · have hlen : cmds.length = 4 := by
          by_contra hlen
          rw [killCode, if_pos hLI, if_pos hlen] at hkill
          cases hkill
        simp only [dispatch, hc, hcL, Option.bind_eq_bind, Option.bind_some, if_pos hLI] at h ⊢
        exact restrict_login hfd hlen h
      by_cases hPW : cmds.at 0 = "PW"
      · rw [dispatch_accept hc hPW hkill] at h
        rw [dispatch_accept hcL hPW hcode, restrict_acceptLogin hfd, Option.some.inj h]
      have hauth : ¬ ¬ c.isAuthenticated := fun hnot => by
        rw [killCode, if_neg hLI, if_neg hPW, if_pos hnot] at hkill
        cases hkill
      simp only [dispatch, hc, hcL, Option.bind_eq_bind, Option.bind_some, if_neg hLI, if_neg hPW,
        if_neg hauth] at h ⊢
      rw [not_not] at hauth
      by_cases hCA : cmds.at 0 = "CA"
      · rw [if_pos hCA] at h ⊢
        exact restrict_initiateCall hfd hports hCA hauth hfinds h
      rw [if_neg hCA] at h ⊢
      by_cases hBY : cmds.at 0 = "BY"
      · rw [if_pos hBY] at h ⊢
        exact restrict_endCall hfd hcl h
      rw [if_neg hBY] at h ⊢
      by_cases hCB : cmds.at 0 = "CB"
      · rw [if_pos hCB] at h ⊢
        exact restrict_forwardMessage hfd hcl h
      rw [if_neg hCB] at h ⊢
      by_cases hMD : cmds.at 0 = "MD"
      · rw [if_pos hMD] at h ⊢
        exact restrict_receiveMetadata hfd h
      rw [if_neg hMD] at h ⊢
      by_cases hER : cmds.at 0 = "ER"
      · rw [if_pos hER] at h ⊢
        exact restrict_forwardMessage hfd hcl h
      rw [if_neg hER] at h ⊢
      by_cases hPG : cmds.at 0 = "PG"
      · rw [if_pos hPG] at h ⊢
        rw [updatePing, restrict_modifyConn, Option.pure_def, ← Option.some.inj h]
        rfl
      · rw [if_neg hPG] at h ⊢
        rw [restrict_sendCommand hfd, Option.pure_def, ← Option.some.inj h]

end MainObject

end NetISDN
