import NetISDN.Server.Calls
import NetISDN.Server.Restrict

/-!
# The endpoints that are announced

`InitiateCall` announces each end of a call to the other at an address and a port. The port is one
that nobody uses whose peer has that address; but behind a router the address is the one that the
client gave in its `LI`, and who is announced there is not seen there. Endpoints stay apart as long
as those announced at an address of a new call are seen at it (`Covered`).
-/

namespace NetISDN

open TransitionSystem

namespace MainObject

variable {env : Env} {w : World} {s s' s₁ : MainObject} {fd d k : Int} {c cd c' : SipConnection}
  {cmds : QStringList} {addr : QHostAddress} {port : Nat} {e : Event} {out : List Output}

/-! ## Unused ports -/

/-- A pass that moves on from no port has found none in use, and ends where it began. -/
theorem portPass_found (h : (s.portPass addr port).2 = false) :
    (s.portPass addr port).1 = port ∧
      ∀ k c, s.conn k = some c → c.peerAddress = addr → c.sourcePort ≠ port := by
  have go (l : List (Int × SipConnection)) (port : Nat) (b : Bool)
      (h : (l.foldl (fun (acc : Nat × Bool) x =>
        if x.2.peerAddress = addr ∧ x.2.sourcePort = acc.1 then ((acc.1 + 2) % 2 ^ 16, true)
        else acc) (port, b)).2 = false) :
      b = false ∧ (l.foldl (fun (acc : Nat × Bool) x =>
        if x.2.peerAddress = addr ∧ x.2.sourcePort = acc.1 then ((acc.1 + 2) % 2 ^ 16, true)
        else acc) (port, b)).1 = port ∧
        ∀ x ∈ l, x.2.peerAddress = addr → x.2.sourcePort ≠ port := by
    induction l generalizing port b with
    | nil => exact ⟨h, rfl, fun x hx => absurd hx List.not_mem_nil⟩
    | cons x l ih =>
        rw [List.foldl_cons] at h ⊢
        split at h
        · exact absurd (ih _ _ h).1 (by decide)
        · next hmiss =>
            rw [if_neg hmiss]
            obtain ⟨hb, hport, hrest⟩ := ih _ _ h
            refine ⟨hb, hport, fun y hy haddr hused => ?_⟩
            rcases List.mem_cons.1 hy with rfl | hy
            · exact hmiss ⟨haddr, hused⟩
            · exact hrest y hy haddr hused
  rw [portPass, Std.ExtTreeMap.foldl_eq_foldl_toList] at h ⊢
  obtain ⟨-, hport, hunused⟩ := go _ _ _ h
  exact ⟨hport, fun k c hc => hunused (k, c) (mem_toList.2 hc)⟩

/-- A pass keeps to the even ports. -/
theorem portPass_even (h : port % 2 = 0) : (s.portPass addr port).1 % 2 = 0 := by
  rw [portPass, Std.ExtTreeMap.foldl_eq_foldl_toList]
  generalize s.sip_connections.toList = l
  generalize false = b
  induction l generalizing port b with
  | nil => exact h
  | cons x l ih =>
      simp only [List.foldl_cons]
      split_ifs
      · exact ih (by omega) _
      · exact ih h _

/-- The port that `GeneratePort` returns is even, and used by nobody whose peer has the address. -/
theorem generatePort_unused (h : s.generatePort addr = some port) :
    port % 2 = 0 ∧ ∀ k c, s.conn k = some c → c.peerAddress = addr → c.sourcePort ≠ port := by
  have go : ∀ fuel p, p % 2 = 0 → s.portPasses addr fuel p = some port →
      port % 2 = 0 ∧ ∀ k c, s.conn k = some c → c.peerAddress = addr → c.sourcePort ≠ port := by
    intro fuel
    induction fuel with
    | zero => intro p _ h; cases h
    | succ fuel ih =>
        intro p hp h
        have heven : (s.portPass addr p).1 % 2 = 0 := portPass_even hp
        have hfound := @portPass_found s addr p
        rw [portPasses] at h
        generalize s.portPass addr p = r at h heven hfound
        obtain ⟨p', found⟩ := r
        cases found with
        | true => exact ih p' heven h
        | false =>
            obtain ⟨rfl, hunused⟩ := hfound rfl
            obtain rfl := Option.some.inj h
            exact ⟨hp, hunused⟩
  exact go _ _ (by decide) h

/-- The connections whose peer has an address. -/
def seenAt (s : MainObject) (addr : QHostAddress) : List (Int × SipConnection) :=
  s.sip_connections.toList.filter fun x => x.2.peerAddress = addr

/-- If all ports were used, each would be by a connection of its own. -/
theorem exists_portUnused (h : (s.seenAt addr).length < 30266) :
    ∃ i < 30266, s.portUnused addr i := by
  by_contra hall
  have hused : ((List.range 30266).map fun i => rtpPort + 2 * i) ⊆
      (s.seenAt addr).map fun x => x.2.sourcePort := by
    intro port hport
    obtain ⟨i, hi, rfl⟩ := List.mem_map.1 hport
    have hnot : ¬ s.portUnused addr i := fun hfree => hall ⟨i, List.mem_range.1 hi, hfree⟩
    simp only [portUnused, not_forall, not_not] at hnot
    obtain ⟨k, c, hc, haddr, heq⟩ := hnot
    exact List.mem_map.2 ⟨(k, c),
      List.mem_filter.2 ⟨mem_toList.2 hc, decide_eq_true haddr⟩, heq⟩
  have hnodup : ((List.range 30266).map fun i => rtpPort + 2 * i).Nodup :=
    List.nodup_range.map fun i j hij => by
      have hij : rtpPort + 2 * i = rtpPort + 2 * j := hij
      omega
  have hle := hnodup.length_le_of_subset hused
  rw [List.length_map, List.length_map, List.length_range] at hle
  omega

/-- **While fewer than 30266 connections are seen at an address, `GeneratePort` returns**, with an
even port of the range that none of them uses. -/
theorem generatePort_fresh (s : MainObject) (addr : QHostAddress)
    (h : (s.seenAt addr).length < 30266) :
    ∃ port, s.generatePort addr = some port ∧ port % 2 = 0 ∧ 5004 ≤ port ∧ port ≤ 65534 ∧
      ∀ k c, s.conn k = some c → c.peerAddress = addr → c.sourcePort ≠ port := by
  classical
  have hex := exists_portUnused h
  obtain ⟨hlt, hfree⟩ := Nat.find_spec hex
  have hport := generatePort_spec hlt hfree fun i hi hi' =>
    Nat.find_min hex hi ⟨hi.trans hlt, hi'⟩
  refine ⟨_, hport, ?_, ?_, ?_, hfree⟩
  · rw [rtpPort]; omega
  · exact Nat.le_add_right 5004 _
  · rw [rtpPort]; omega

/-- A server with two connections from one address, the first of which uses the first port. -/
def twoSeen : MainObject :=
  ((start demoDb).insertConn 3
    { peerAddress := ⟨9⟩, pingTimestamp := 0, sourcePort := 5004 }).insertConn 4
    { peerAddress := ⟨9⟩, pingTimestamp := 0 }

/-- Two ports are taken at the address. -/
theorem generatePort_fresh_demo : (twoSeen.seenAt ⟨9⟩).length = 2 ∧
    ∃ port, twoSeen.generatePort ⟨9⟩ = some port ∧ port ≠ 5004 := by
  have hlength : (twoSeen.seenAt ⟨9⟩).length = 2 := by decide
  obtain ⟨port, hport, -, -, -, hfree⟩ := generatePort_fresh twoSeen ⟨9⟩ (by rw [hlength]; decide)
  exact ⟨hlength, port, hport, fun heq => hfree 3 _ rfl rfl heq.symm⟩

/-! ## The ports of a call -/

/-- The port that `s` has on `k` goes with nobody's in `s₀` that is seen at the address, the two
ends of the call aside. -/
def FreshPort (s₀ s : MainObject) (fd d : Int) (addr : QHostAddress) (k : Int) : Prop :=
  ∀ c, s.conn k = some c → c.sourcePort % 2 = 0 ∧
    ∀ j x, j ≠ fd → j ≠ d → s₀.conn j = some x → x.peerAddress = addr →
      x.sourcePort ≠ c.sourcePort

/-- What the ports are like that a call between `fd`, whose connection is `c`, and `d`, whose is
`cd`, gets. -/
structure GetsPorts (fd d : Int) (c cd : SipConnection) (s s' : MainObject) : Prop where
  callee : FreshPort s s' fd d (callAddrs c cd).2 d
  caller : fd ≠ d → FreshPort s s' fd d (callAddrs c cd).1 fd
  differ : fd ≠ d → c.peerAddress = (callAddrs c cd).2 → ∀ c' cd', s'.conn fd = some c' →
    s'.conn d = some cd' → c'.sourcePort ≠ cd'.sourcePort

/-- What uses an endpoint is a connection. -/
theorem endpointOf_eq_some : s.endpointOf k = some (addr, port) ↔
    ∃ c, s.conn k = some c ∧ c.peerAddress = addr ∧ c.sourcePort = port := by
  rw [endpointOf, Option.map_eq_some_iff]
  simp only [Prod.mk.injEq]

/-- Only the endpoints matter. -/
theorem GetsPorts.congr {s₀ : MainObject} (h : GetsPorts fd d c cd s s')
    (hs : ∀ k, s.endpointOf k = s₀.endpointOf k) (hs' : ∀ k, s'.endpointOf k = s₁.endpointOf k) :
    GetsPorts fd d c cd s₀ s₁ := by
  have hback {k x} (hx : s₀.conn k = some x) :
      ∃ y, s.conn k = some y ∧ y.peerAddress = x.peerAddress ∧ y.sourcePort = x.sourcePort :=
    endpointOf_eq_some.1 ((hs k).trans (endpointOf_eq_some.2 ⟨x, hx, rfl, rfl⟩))
  have hback' {k x} (hx : s₁.conn k = some x) :
      ∃ y, s'.conn k = some y ∧ y.peerAddress = x.peerAddress ∧ y.sourcePort = x.sourcePort :=
    endpointOf_eq_some.1 ((hs' k).trans (endpointOf_eq_some.2 ⟨x, hx, rfl, rfl⟩))
  have hfresh {addr : QHostAddress} {k : Int} (hf : FreshPort s s' fd d addr k) :
      FreshPort s₀ s₁ fd d addr k := by
    intro x hx
    obtain ⟨x', hx', -, hport⟩ := hback' hx
    obtain ⟨heven, hunused⟩ := hf x' hx'
    refine ⟨hport ▸ heven, fun j y hj hj' hy haddr => ?_⟩
    obtain ⟨y', hy', haddr', hport'⟩ := hback hy
    rw [← hport, ← hport']
    exact hunused j y' hj hj' hy' (haddr'.trans haddr)
  refine ⟨hfresh h.callee, fun hne => hfresh (h.caller hne), fun hne haddr x y hx hy => ?_⟩
  obtain ⟨x', hx', -, hport⟩ := hback' hx
  obtain ⟨y', hy', -, hport'⟩ := hback' hy
  rw [← hport, ← hport']
  exact h.differ hne haddr x' y' hx' hy'

/-- The assignment as what it does. -/
theorem assignPorts_getsPorts (hc : s.conn fd = some c) (hd : s.conn d = some cd)
    (h : s.assignPorts fd d = some s') : GetsPorts fd d c cd s s' := by
  simp only [assignPorts, hc, hd, Option.bind_eq_bind, Option.bind_some, Option.bind_eq_some_iff,
    Option.pure_def, Option.some.injEq] at h
  obtain ⟨port, hport, port', hport', rfl⟩ := h
  obtain ⟨heven, hunused⟩ := generatePort_unused hport
  obtain ⟨heven', hunused'⟩ := generatePort_unused hport'
  have hcallee {x} (hx : ((s.modifyConn fd (SipConnection.setSourcePort port)).modifyConn d
      (SipConnection.setSourcePort port')).conn d = some x) : x.sourcePort = port' := by
    rw [conn_modifyConn, if_pos rfl] at hx
    obtain ⟨y, -, rfl⟩ := Option.map_eq_some_iff.1 hx
    rfl
  have hcaller {x} (hne : fd ≠ d) (hx : ((s.modifyConn fd
      (SipConnection.setSourcePort port)).modifyConn d
      (SipConnection.setSourcePort port')).conn fd = some x) : x.sourcePort = port := by
    rw [conn_modifyConn, if_neg hne.symm, conn_modifyConn, if_pos rfl] at hx
    obtain ⟨y, -, rfl⟩ := Option.map_eq_some_iff.1 hx
    rfl
  refine ⟨fun x hx => ?_, fun hne x hx => ?_, fun hne haddr x y hx hy => ?_⟩
  · rw [hcallee hx]
    refine ⟨heven', fun j y hj _ hy haddr => hunused' j y ?_ haddr⟩
    rw [conn_modifyConn, if_neg hj.symm, hy]
  · rw [hcaller hne hx]
    exact ⟨heven, fun j y _ _ hy haddr => hunused j y hy haddr⟩
  · rw [hcaller hne hx, hcallee hy]
    refine hunused' fd (c.setSourcePort port) ?_ haddr
    rw [conn_modifyConn, if_pos rfl, hc, Option.map_some]

/-- `InitiateCall` gives each of the two connections an even port that nobody else uses who is
seen at the address at which it is announced. -/
theorem setupCall_getsPorts (hc : s.conn fd = some c) (hd : s.conn d = some cd)
    (h : s.setupCall w fd d cmds = some s') : GetsPorts fd d c cd s s' := by
  simp only [setupCall, Option.bind_eq_bind, Option.bind_eq_some_iff] at h
  obtain ⟨s₁, h₁, s₂, h₂, h₃⟩ := h
  set s₀ := ((s.sendCommand fd (erCommand .callProceeding)).modifyConn fd
    (SipConnection.setConnectionFd d)).modifyConn d (SipConnection.setConnectionFd fd) with hs₀
  have e₀ : SameButLinks s s₀ :=
    (sameButLinks_modifyConn (s := s.sendCommand fd _)).trans sameButLinks_modifyConn
  have hexists {k x} (s : MainObject) {s' : MainObject} (hs : SameButLinks s s')
      (hx : s.conn k = some x) :
      ∃ y, s'.conn k = some y ∧ y.setConnectionFd 0 = x.setConnectionFd 0 := by
    obtain ⟨y, hy, heq⟩ := Option.map_eq_some_iff.1 ((hs k).trans (by rw [hx, Option.map_some]))
    exact ⟨y, hy, heq⟩
  obtain ⟨c₀, hc₀, hsame⟩ := hexists s e₀ hc
  obtain ⟨cd₀, hcd₀, hsame'⟩ := hexists s e₀ hd
  have hports : GetsPorts fd d c cd s₀ s₁ := by
    have := assignPorts_getsPorts hc₀ hcd₀ h₁
    have haddrs : callAddrs c₀ cd₀ = callAddrs c cd := by
      show callAddrs (c₀.setConnectionFd 0) (cd₀.setConnectionFd 0) = _
      rw [hsame, hsame']
      rfl
    have hpeer : c₀.peerAddress = c.peerAddress := by
      show (c₀.setConnectionFd 0).peerAddress = _
      rw [hsame]
      rfl
    refine ⟨haddrs ▸ this.callee, haddrs ▸ this.caller, fun hne haddr => ?_⟩
    exact this.differ hne (by rw [hpeer, haddrs, haddr])
  obtain ⟨port, port', -, -, hs₁⟩ := assignPorts_spec hc₀ hcd₀ h₁
  have hends {k} (hk : fd = k ∨ d = k) {x} (hx : s₀.conn k = some x) : ∃ y, s₁.conn k = some y := by
    rw [hs₁, conn_modifyConn_modifyConn (by intro; rfl), if_pos hk, hx]
    exact ⟨_, rfl⟩
  obtain ⟨c₁, hc₁⟩ := hends (.inl rfl) hc₀
  obtain ⟨cd₁, hcd₁⟩ := hends (.inr rfl) hcd₀
  obtain ⟨id, row, -, -, -, -, hs₂⟩ := logCall_spec hc₁ hcd₁ h₂
  have e₂ (k : Int) : s₁.endpointOf k = s₂.endpointOf k := by
    rw [hs₂, endpointOf, endpointOf, conn_modifyConn_modifyConn (by intro; rfl), conn_withDb]
    split
    · rw [ite_self, Option.map_map]
      rfl
    · rfl
  have hc₂ : ∃ c₂, s₂.conn fd = some c₂ := by
    obtain ⟨x, hx, -⟩ := endpointOf_eq_some.1
      ((e₂ fd).symm.trans (endpointOf_eq_some.2 ⟨c₁, hc₁, rfl, rfl⟩))
    exact ⟨x, hx⟩
  have hcd₂ : ∃ cd₂, s₂.conn d = some cd₂ := by
    obtain ⟨x, hx, -⟩ := endpointOf_eq_some.1
      ((e₂ d).symm.trans (endpointOf_eq_some.2 ⟨cd₁, hcd₁, rfl, rfl⟩))
    exact ⟨x, hx⟩
  obtain ⟨c₂, hc₂⟩ := hc₂
  obtain ⟨cd₂, hcd₂⟩ := hcd₂
  obtain ⟨e₃, -⟩ := startEncoders_spec hc₂ hcd₂ h₃
  refine hports.congr (fun k => e₀.endpointOf) fun k => (e₂ k).trans ?_
  rw [endpointOf, endpointOf, e₃ k]

/-! ## Events that set up no call -/

/-- Whoever is in a call in `s'` was in it in `s`, on the same port. -/
def KeepsCalls (s s' : MainObject) : Prop :=
  ∀ k x, s'.callOf k = some x → 0 ≤ x.connectionFd → s.callOf k = some x

/-- No call changes. -/
theorem KeepsCalls.refl (s : MainObject) : KeepsCalls s s := fun _ _ h _ => h

/-- Two changes that keep the calls. -/
theorem KeepsCalls.trans (h : KeepsCalls s s₁) (h' : KeepsCalls s₁ s') : KeepsCalls s s' :=
  fun k x hx hlink => h k x (h' k x hx hlink) hlink

/-- Calls that stay the same are kept. -/
theorem SameCalls.keepsCalls (h : SameCalls s s') : KeepsCalls s s' :=
  fun k _ hx _ => (h.call k).symm.trans hx

/-- A call that ends leaves the others. -/
theorem HangsUpCall.keepsCalls (h : HangsUpCall w fd c s s') : KeepsCalls s s' := by
  intro k x hx hlink
  rw [h.call k] at hx
  split at hx
  · obtain ⟨y, -, rfl⟩ := Option.map_eq_some_iff.1 hx
    exact absurd hlink (by decide)
  · exact hx

/-- A command keeps the calls. -/
theorem keepsCalls_sendCommand {cmd : QString} : KeepsCalls s (s.sendCommand fd cmd) :=
  fun _ _ h _ => h

/-- And so does a change of other fields. -/
theorem keepsCalls_modifyConn {f : SipConnection → SipConnection} (hf : ∀ c, (f c).call = c.call) :
    KeepsCalls s (s.modifyConn fd f) :=
  (sameCalls_modifyConn hf).keepsCalls

/-- A connection that is removed keeps the others' calls. -/
theorem keepsCalls_eraseConn : KeepsCalls s (s.eraseConn fd) := by
  intro k x hx _
  rw [callOf, conn_eraseConn] at hx
  split at hx
  · cases hx
  · exact hx

/-- A logout keeps them. -/
theorem logout_keepsCalls (hc : s.conn fd = some c) (h : s.logout w fd = some s') :
    KeepsCalls s s' := by
  rcases logout_spec hc h with ⟨-, rfl⟩ | ⟨-, hl⟩
  · exact .refl s'
  · intro k x hx hlink
    obtain ⟨y, hy, rfl⟩ := Option.map_eq_some_iff.1 hx
    have hreleased (z : SipConnection) : (z.release c.cid).connectionFd < 0 := by
      unfold SipConnection.release
      split <;> simp
    by_cases hk : fd = k
    · subst hk
      rw [hl.conn_self, Option.some.injEq] at hy
      subst hy
      exact absurd hlink (not_le.2 (hreleased c))
    · rw [hl.conn k hk] at hy
      split at hy
      · obtain ⟨z, -, rfl⟩ := Option.map_eq_some_iff.1 hy
        exact absurd hlink (not_le.2 (hreleased z))
      · rw [callOf, hy, Option.map_some]

/-- A kill keeps them. -/
theorem socketKill_keepsCalls (hc : s.conn fd = some c) (h : s.socketKill w fd = some s') :
    KeepsCalls s s' := by
  rcases socketKill_spec hc h with ⟨-, rfl⟩ | ⟨-, s₁, h₁, rfl⟩
  · exact .refl s'
  · exact (logout_keepsCalls hc h₁).trans (keepsCalls_modifyConn fun _ => rfl)

/-- An event that puts no call through keeps the calls or ends some. -/
theorem Transition.keepsCalls (hnot : s.putThrough e = none)
    (h : Transition env e.world s e.slot s') : KeepsCalls s s' := by
  obtain ⟨slot, w⟩ := e
  cases h with
  | newConnection =>
      intro k x hx hlink
      rw [callOf, conn_insertConn] at hx
      split at hx
      · obtain rfl := Option.some.inj hx
        exact absurd hlink (by decide : ¬ (0 : Int) ≤ -1)
      · exact hx
  | byte => exact keepsCalls_modifyConn fun _ => rfl
  | @command fd c _ hc hout =>
      have htake : KeepsCalls s (s.takeLine fd) := sameCalls_takeLine.keepsCalls
      have hc' : (s.takeLine fd).conn fd = some c.clearLine := by
        rw [takeLine, conn_modifyConn, if_pos rfl, hc, Option.map_some]
      refine htake.trans ?_
      rcases hout.calls with hsame | ⟨code, -, hkill⟩ | ⟨d, cd, hcallee, -⟩ | ⟨-, -, hend⟩
      · exact hsame.keepsCalls
      · have hsent : ((s.takeLine fd).sendCommand fd (erCommand code)).conn fd = some c.clearLine :=
          (conn_sendCommand ..).trans hc'
        exact keepsCalls_sendCommand.trans (socketKill_keepsCalls hsent hkill)
      · have hrec := received_eq (s := s) (e := ⟨.socketReady fd '!', w⟩) rfl hc
        cases hnot.symm.trans (putThrough_eq_some.2 ⟨_, _, hrec, hcallee⟩)
      · exact (endCall_spec hc' hend).hangsUp.keepsCalls
  | socketKill hc hkill => exact socketKill_keepsCalls hc hkill
  | zombieData =>
      intro k x hx hlink
      obtain ⟨y, hy, rfl⟩ := Option.map_eq_some_iff.1 hx
      rw [(zombieData_spec s).1] at hy
      rw [callOf, (Option.filter_eq_some_iff.1 hy).1, Option.map_some]
  | pingTimerData hsweep =>
      refine (pingTimerData_rule (I := fun _ s₁ => KeepsCalls s s₁) hsweep (.refl s) ?_).1
      intro done fd c s₁ s₂ ht hI
      refine hI.trans ?_
      rcases ht.turn with ⟨-, rfl⟩ | ⟨-, s₃, h₃, rfl⟩
      · exact .refl s₁
      · exact (logout_keepsCalls ht.conn h₃).trans keepsCalls_eraseConn

end MainObject

/-! ## Announcements -/

/-- A server, and the address at which each connection was announced last. -/
structure Advertised where
  server : MainObject
  announced : Int → QHostAddress

namespace MainObject

variable {env : Env} {w : World} {s s' : MainObject} {fd d k : Int} {c cd : SipConnection}
  {e : Event} {out tr : List Output} {a a' : Advertised} {A : Int → QHostAddress} {es : List Event}

/-- Where the connections are announced after an event. A connection that calls itself is announced
as its own callee last. -/
def announce (s : MainObject) (e : Event) (A : Int → QHostAddress) (k : Int) : QHostAddress :=
  match s.putThrough e with
  | none => A k
  | some (fd, d) =>
    match s.conn fd, s.conn d with
    | some c, some cd =>
      if k = d then (callAddrs c cd).2 else if k = fd then (callAddrs c cd).1 else A k
    | _, _ => A k

/-- A step of the server, with what it announces. -/
def advertise (env : Env) (a : Advertised) (e : Event) : Option (Advertised × List Output) := do
  let (s', out) ← step env a.server e
  return (⟨s', announce a.server e a.announced⟩, out)

/-- The ports of RTP and RTCP that a connection is told to receive on. -/
def mediaPorts (c : SipConnection) : List Nat := [c.sourcePort, c.sourcePort + 1]

/-- Any two connections that are in calls have different endpoints: the address at which they are
announced or the port differs, and at the same address their ports are apart. -/
def EndpointsDiffer (a : Advertised) : Prop :=
  ∀ k k' c c', k ≠ k' → a.server.conn k = some c → a.server.conn k' = some c' →
    0 ≤ c.connectionFd → 0 ≤ c'.connectionFd →
    (a.announced k, c.sourcePort) ≠ (a.announced k', c'.sourcePort) ∧
      (a.announced k = a.announced k' → (mediaPorts c).Disjoint (mediaPorts c'))

/-- Whoever is in a call and announced at an address of a call that the event sets up is seen
there; and if the two ends of that call are announced at one address, the caller is seen there. -/
def Covered (a : Advertised) (e : Event) : Prop :=
  ∀ p ∈ a.server.putThrough e, ∀ c ∈ a.server.conn p.1, ∀ cd ∈ a.server.conn p.2,
    (∀ x ∈ a.server.sip_connections.toList, x.1 ≠ p.1 → x.1 ≠ p.2 → 0 ≤ x.2.connectionFd →
      a.announced x.1 = (callAddrs c cd).1 ∨ a.announced x.1 = (callAddrs c cd).2 →
      x.2.peerAddress = a.announced x.1) ∧
    (p.1 ≠ p.2 → (callAddrs c cd).1 = (callAddrs c cd).2 → c.peerAddress = (callAddrs c cd).1)

instance (a : Advertised) (e : Event) : Decidable (Covered a e) := by
  unfold Covered
  infer_instance

/-! ## Runs -/

/-- Ports of calls are even, and those of connections that are announced at one address differ. -/
structure Apart (a : Advertised) : Prop where
  even : ∀ k c, a.server.conn k = some c → 0 ≤ c.connectionFd → c.sourcePort % 2 = 0
  differ : ∀ k k' c c', k ≠ k' → a.server.conn k = some c → a.server.conn k' = some c' →
    0 ≤ c.connectionFd → 0 ≤ c'.connectionFd → a.announced k = a.announced k' →
    c.sourcePort ≠ c'.sourcePort

/-- Even ports that differ leave room for a port behind each. -/
theorem Apart.endpointsDiffer (h : Apart a) : EndpointsDiffer a := by
  intro k k' c c' hne hc hc' hlink hlink'
  have hdiffer := h.differ k k' c c' hne hc hc' hlink hlink'
  refine ⟨fun heq => hdiffer (congrArg Prod.fst heq) (congrArg Prod.snd heq), fun hsame => ?_⟩
  have heven := h.even k c hc hlink
  have heven' := h.even k' c' hc' hlink'
  have hport := hdiffer hsame
  intro p hp hp'
  simp only [mediaPorts, List.mem_cons, List.not_mem_nil, or_false] at hp hp'
  omega

/-- There is no call yet. -/
theorem apart_start (db : Database) : Apart ⟨start db, A⟩ :=
  ⟨fun _ _ hc _ => (nomatch hc), fun _ _ _ _ _ hc _ _ _ _ => (nomatch hc)⟩

/-- Calls that are kept stay apart. -/
theorem KeepsCalls.apart (h : KeepsCalls s s') (ha : Apart ⟨s, A⟩) : Apart ⟨s', A⟩ := by
  have hback {k c'} (hc' : s'.conn k = some c') (hlink : 0 ≤ c'.connectionFd) : ∃ c,
      s.conn k = some c ∧ 0 ≤ c.connectionFd ∧ c.sourcePort = c'.sourcePort := by
    obtain ⟨c, hc, heq⟩ := Option.map_eq_some_iff.1
      (h k c'.call (by rw [callOf, hc', Option.map_some]) hlink)
    have hfd : c.connectionFd = c'.connectionFd := congrArg CallState.connectionFd heq
    exact ⟨c, hc, hfd ▸ hlink, congrArg CallState.sourcePort heq⟩
  refine ⟨fun k c' hc' hlink => ?_, fun j k x y hne hx hy hlink hlink' hsame => ?_⟩
  · obtain ⟨c, hc, hlink₀, hport⟩ := hback hc' hlink
    exact hport ▸ ha.even k c hc hlink₀
  · obtain ⟨x₀, hx₀, hl, hport⟩ := hback hx hlink
    obtain ⟨y₀, hy₀, hl', hport'⟩ := hback hy hlink'
    rw [← hport, ← hport']
    exact ha.differ j k x₀ y₀ hne hx₀ hy₀ hl hl' hsame

/-- The command line of the two ends does not matter to a call. -/
theorem SetsUpCall.of_clearLine {cmds : QStringList} {c' cd' : SipConnection} {port port' : Nat}
    {id : Int} {row : CallRow} (hc : c' = c ∨ c' = c.clearLine) (hd : cd' = cd ∨ cd' = cd.clearLine)
    (h : SetsUpCall w fd d cmds c' cd' port port' id row s s') :
    SetsUpCall w fd d cmds c cd port port' id row s s' := by
  obtain ⟨hconn, hdb, horig, hstart, hend, hcid, hport, hport', hsent⟩ := h
  rcases hc with rfl | rfl <;> rcases hd with rfl | rfl <;>
    exact ⟨hconn, hdb, horig, hstart, hend, hcid, hport, hport', hsent⟩

/-- The lines of the two do not matter. -/
theorem GetsPorts.of_clearLine {c' cd' : SipConnection} (hc : c' = c ∨ c' = c.clearLine)
    (hd : cd' = cd ∨ cd' = cd.clearLine) (h : GetsPorts fd d c' cd' s s') :
    GetsPorts fd d c cd s s' := by
  obtain ⟨hcallee, hcaller, hdiffer⟩ := h
  rcases hc with rfl | rfl <;> rcases hd with rfl | rfl <;> exact ⟨hcallee, hcaller, hdiffer⟩

/-- A call that is put through, on the connections as they are before its command line is taken. -/
theorem step_putThrough (hput : s.putThrough e = some (fd, d))
    (h : step env s e = some (s', out)) : ∃ c cd cmds s₁ port port' id row,
      s.conn fd = some c ∧ s.conn d = some cd ∧ s' = s₁.flush ∧ out = s₁.sent ∧
      SetsUpCall e.world fd d cmds c cd port port' id row (s.flush.takeLine fd) s₁ ∧
      GetsPorts fd d c cd (s.flush.takeLine fd) s₁ := by
  obtain ⟨s₁, h₁, hs', hout⟩ := step_runSlot h
  obtain ⟨c', cmds, cd', hc', hcd', hrun⟩ := runSlot_putThrough (s := s.flush) env hput
  have hset := hrun.symm.trans h₁
  have hline {k x'} (hx' : (s.flush.takeLine fd).conn k = some x') :
      ∃ x, s.conn k = some x ∧ (x' = x ∨ x' = x.clearLine) := by
    rw [takeLine, conn_modifyConn] at hx'
    split at hx'
    · obtain ⟨x, hx, rfl⟩ := Option.map_eq_some_iff.1 hx'
      exact ⟨x, hx, .inr rfl⟩
    · exact ⟨x', hx', .inl rfl⟩
  obtain ⟨c, hc, hcc⟩ := hline hc'
  obtain ⟨cd, hcd, hcdd⟩ := hline hcd'
  obtain ⟨port, port', id, row, hsetup⟩ := setupCall_spec hc' hcd' hset
  have hports := setupCall_getsPorts hc' hcd' hset
  exact ⟨c, cd, cmds, s₁, port, port', id, row, hc, hcd, hs', hout, hsetup.of_clearLine hcc hcdd,
    hports.of_clearLine hcc hcdd⟩

/-- Where a call that is put through announces its ends. -/
theorem announce_putThrough (hput : s.putThrough e = some (fd, d)) (hc : s.conn fd = some c)
    (hd : s.conn d = some cd) : announce s e A k =
      if k = d then (callAddrs c cd).2 else if k = fd then (callAddrs c cd).1 else A k := by
  simp only [announce, hput, hc, hd]

/-- What `announce` says goes to each end of a call in its `ME`, with the ports of both. -/
theorem announced_sent (hput : a.server.putThrough e = some (fd, d))
    (h : advertise env a e = some (a', out)) :
    ∃ c cd cmds, a'.server.conn fd = some c ∧ a'.server.conn d = some cd ∧
      calleeMe c.username cd.sourcePort (a'.announced fd) c.sourcePort cmds ∈ commandsTo d out ∧
      callerMe cd.username c.sourcePort (a'.announced d) cd.sourcePort cmds ∈
        commandsTo fd out := by
  obtain ⟨s, A⟩ := a
  simp only [advertise, Option.bind_eq_bind, Option.bind_eq_some_iff, Option.pure_def,
    Option.some.injEq, Prod.mk.injEq] at h
  obtain ⟨⟨s', out'⟩, h, rfl, rfl⟩ := h
  obtain ⟨c, cd, cmds, s₁, port, port', id, row, hc, hcd, rfl, rfl, hset, -⟩ :=
    step_putThrough hput h
  have hA (k : Int) := announce_putThrough (A := A) (k := k) hput hc hcd
  have hfd : (s.flush.takeLine fd).conn fd = some c.clearLine := by
    rw [takeLine, conn_modifyConn, if_pos rfl, conn_flush, hc, Option.map_some]
  obtain ⟨x, hx, hname⟩ : ∃ x, (s.flush.takeLine fd).conn d = some x ∧
      x.username = cd.username := by
    rw [takeLine, conn_modifyConn, conn_flush, hcd]
    split
    · exact ⟨cd.clearLine, rfl, rfl⟩
    · exact ⟨cd, rfl, rfl⟩
  have hA' : (callAddrs c cd).1 = announce s e A fd := by
    rw [hA]
    split
    · next heq =>
        subst heq
        obtain rfl := Option.some.inj (hc.symm.trans hcd)
        rw [callAddrs, if_pos rfl]
    · exact (if_pos rfl).symm
  have hAd : (callAddrs c cd).2 = announce s e A d := by rw [hA, if_pos rfl]
  refine ⟨((c.clearLine.setConnectionFd (if d = fd then fd else d)).setSourcePort
      (if d = fd then port' else port)).setCid id,
    ((x.setConnectionFd fd).setSourcePort port').setCid id, cmds, ?_, ?_, ?_, ?_⟩
  · rw [conn_flush, hset.conn, if_pos (.inl rfl), hfd, Option.map_some]
  · rw [conn_flush, hset.conn, if_pos (.inr rfl), hx, Option.map_some, if_pos rfl, if_pos rfl]
  · show _ ∈ s₁.sentTo d
    rw [hset.sentTo, if_pos rfl, hA']
    simp
  · show _ ∈ s₁.sentTo fd
    rw [hset.sentTo, if_pos rfl, hAd]
    simp [hname]

/-- A call that is put through under `Covered` keeps the ports apart. -/
theorem Apart.putThrough (ha : Apart ⟨s, A⟩) (hP : Covered ⟨s, A⟩ e)
    (hput : s.putThrough e = some (fd, d)) (h : step env s e = some (s', out)) :
    Apart ⟨s', announce s e A⟩ := by
  obtain ⟨c, cd, cmds, s₁, port, port', id, row, hc, hcd, rfl, -, hset, hports⟩ :=
    step_putThrough hput h
  obtain ⟨hseen, hself⟩ := hP (fd, d) hput c hc cd hcd
  have hA (k : Int) := announce_putThrough (A := A) (k := k) hput hc hcd
  -- a connection is an end of the new call, or as it was
  have hold {k x} (hfd : k ≠ fd) (hd : k ≠ d) (hx : s₁.conn k = some x) :
      s.conn k = some x ∧ announce s e A k = A k := by
    rw [hset.conn, if_neg (by simp [hfd.symm, hd.symm]), takeLine, conn_modifyConn,
      if_neg hfd.symm] at hx
    exact ⟨hx, by rw [hA, if_neg hd, if_neg hfd]⟩
  have hnew {k} (hk : k = fd ∨ k = d) :
      FreshPort (s.flush.takeLine fd) s₁ fd d (announce s e A k) k := by
    rw [hA]
    split
    · next hkd => exact hkd ▸ hports.callee
    · next hkd =>
        obtain rfl := hk.resolve_right hkd
        rw [if_pos rfl]
        exact hports.caller hkd
  have hmixed {j k x y} (hj : j = fd ∨ j = d) (hkfd : k ≠ fd) (hkd : k ≠ d)
      (hx : s₁.conn j = some x) (hy : s₁.conn k = some y) (hlink : 0 ≤ y.connectionFd)
      (hsame : announce s e A j = announce s e A k) : y.sourcePort ≠ x.sourcePort := by
    obtain ⟨hy₀, hAk⟩ := hold hkfd hkd hy
    have hone : A k = (callAddrs c cd).1 ∨ A k = (callAddrs c cd).2 := by
      rw [← hAk, ← hsame, hA]
      split
      · exact .inr rfl
      · next hjd => exact .inl (if_pos (hj.resolve_right hjd))
    have haddr : y.peerAddress = A k := hseen (k, y) (mem_toList.2 hy₀) hkfd hkd hlink hone
    refine (hnew hj x hx).2 k y hkfd hkd ?_ ?_
    · rw [takeLine, conn_modifyConn, if_neg hkfd.symm]
      exact hy₀
    · rw [haddr, hsame, hAk]
  have hends {x y} (hne : fd ≠ d) (hx : s₁.conn fd = some x) (hy : s₁.conn d = some y)
      (hsame : announce s e A fd = announce s e A d) : x.sourcePort ≠ y.sourcePort := by
    have haddr : (callAddrs c cd).1 = (callAddrs c cd).2 := by
      rwa [hA, hA, if_neg hne, if_pos rfl, if_pos rfl] at hsame
    exact hports.differ hne ((hself hne haddr).trans haddr) x y hx hy
  refine ⟨fun k x hx hlink => ?_, fun j k x y hne hx hy hlink hlink' hsame => ?_⟩
  · by_cases hk : k = fd ∨ k = d
    · exact (hnew hk x hx).1
    · rw [not_or] at hk
      exact ha.even k x (hold hk.1 hk.2 hx).1 hlink
  · by_cases hj : j = fd ∨ j = d
    · by_cases hk : k = fd ∨ k = d
      · rcases hj with rfl | rfl
        · obtain rfl := hk.resolve_left hne.symm
          exact hends hne hx hy hsame
        · obtain rfl := hk.resolve_right hne.symm
          exact (hends hne.symm hy hx hsame.symm).symm
      · rw [not_or] at hk
        exact (hmixed hj hk.1 hk.2 hx hy hlink' hsame).symm
    · rw [not_or] at hj
      by_cases hk : k = fd ∨ k = d
      · exact hmixed hk hj.1 hj.2 hy hx hlink hsame.symm
      · rw [not_or] at hk
        obtain ⟨hx₀, hAj⟩ := hold hj.1 hj.2 hx
        obtain ⟨hy₀, hAk⟩ := hold hk.1 hk.2 hy
        exact ha.differ j k x y hne hx₀ hy₀ hlink hlink' (hAj.symm.trans (hsame.trans hAk))

/-- **A step keeps the ports apart.** -/
theorem Apart.step (ha : Apart a) (hP : Covered a e) (h : advertise env a e = some (a', out)) :
    Apart a' := by
  obtain ⟨s, A⟩ := a
  simp only [advertise, Option.bind_eq_bind, Option.bind_eq_some_iff, Option.pure_def,
    Option.some.injEq, Prod.mk.injEq] at h
  obtain ⟨⟨s', out'⟩, h, rfl, rfl⟩ := h
  cases hput : s.putThrough e with
  | none =>
      obtain ⟨s₁, htr, rfl, -⟩ := step_transition h
      have hkeeps : KeepsCalls s.flush s₁ := htr.keepsCalls hput
      have hA : announce s e A = A := by
        funext k
        simp only [announce, hput]
      rw [hA]
      have hapart : Apart ⟨s₁, A⟩ := hkeeps.apart ⟨ha.even, ha.differ⟩
      exact ⟨hapart.even, hapart.differ⟩
  | some p => exact ha.putThrough hP hput h

/-- **Endpoints.** In every run in which those announced at an address of a new call are seen at it,
any two connections that are in calls have different endpoints. -/
theorem endpointsDiffer_of_runs {db : Database}
    (h : Runs (advertise env) Covered ⟨start db, A⟩ es a tr) :
    EndpointsDiffer a := by
  have hapart : Apart a := h.invariant (apart_start db) fun _ _ _ _ ha hP hs => ha.step hP hs
  exact hapart.endpointsDiffer

/-- Bob calls Alice; both have connected directly. -/
theorem endpointsDiffer_of_runs_demo : ∃ a tr,
    Runs (advertise demoEnv) Covered ⟨start demoDb, fun _ => .null⟩
      (connects 5 0 :: typed 5 (loginText "alice") 0 ++ connects 6 0 ::
        typed 6 (loginText "bob" ++ callText "alice") 0) a tr ∧
      (a.server.conn 5).map SipConnection.connectionFd = some 6 ∧ EndpointsDiffer a := by
  have hrun : (run (advertise demoEnv) Covered ⟨start demoDb, fun _ => .null⟩
      (connects 5 0 :: typed 5 (loginText "alice") 0 ++ connects 6 0 ::
        typed 6 (loginText "bob" ++ callText "alice") 0)).any
      (fun x => (x.1.server.conn 5).map SipConnection.connectionFd = some 6) := by decide +kernel
  obtain ⟨⟨a, tr⟩, hrun, hlink⟩ := (Option.any_eq_true _ _).1 hrun
  have hruns := runs_of_run hrun
  exact ⟨a, tr, hruns, by simpa using hlink, endpointsDiffer_of_runs hruns⟩

/-- The commands with which `name` logs in from behind a router, at the local address 10.0.0.1. -/
def localLoginText (name : QString) : QString :=
  "LI " ++ name ++ " 10.0.0.1 1!PW " ++ demoHash ++ "!"

/-- Alice and Bob are on one host behind a router, and Bob calls Alice. Nobody is seen at the
local address, so that both get the first port there. -/
theorem endpointsDiffer_needs_covered : ¬ ∀ (env : Env) (db : Database) A es a tr,
    Runs (advertise env) Always ⟨start db, A⟩ es a tr → EndpointsDiffer a := by
  intro h
  have hrun : (run (advertise demoEnv) Always ⟨start demoDb, fun _ => .null⟩
      (connects 5 0 :: typed 5 (localLoginText "alice") 0 ++ connects 6 0 ::
        typed 6 (localLoginText "bob" ++ callText "alice") 0)).any (fun x =>
      x.1.announced 5 = x.1.announced 6 ∧ (x.1.server.conn 5).any (fun c => 0 ≤ c.connectionFd ∧
        (x.1.server.conn 6).any fun c' => 0 ≤ c'.connectionFd ∧ c.sourcePort = c'.sourcePort)) := by
    decide +kernel
  obtain ⟨⟨a, tr⟩, hrun, hsame⟩ := (Option.any_eq_true _ _).1 hrun
  obtain ⟨hA, hsame⟩ := of_decide_eq_true hsame
  obtain ⟨c, hc, hsame⟩ := (Option.any_eq_true _ _).1 hsame
  obtain ⟨hlink, hsame⟩ := of_decide_eq_true hsame
  obtain ⟨c', hc', hsame⟩ := (Option.any_eq_true _ _).1 hsame
  obtain ⟨hlink', hport⟩ := of_decide_eq_true hsame
  have hdiffer := h demoEnv demoDb _ _ a tr (runs_of_run hrun) 5 6 c c' (by decide) hc hc' hlink
    hlink'
  exact hdiffer.1 (Prod.ext hA hport)

end MainObject

end NetISDN
