import NetISDN.Server.Accounts
import NetISDN.Server.Restrict

/-!
# Connections that have not logged in

A server is `Sober` if a connection that has not logged in is in no call and uses no port. As long
as what the two searches for a user find has logged in (`InfluenceSafe`), it stays so. Then what
a connection does that has not logged in is not seen by the others, and what the others do does
not depend on whether it is there.
-/

namespace NetISDN

namespace MainObject

variable {env : Env} {w : World} {L : Int → Bool} {s s' s₁ : MainObject} {fd d k : Int}
  {c cd : SipConnection} {cmds : QStringList} {e : Event} {out : List Output}

/-! ## Sober servers -/

/-- Whoever has not logged in is in no call and uses no port, and whoever is in a call with a
connection that is still there, is so with one that has logged in. -/
structure Sober (s : MainObject) : Prop where
  nonneg : ∀ k c, s.conn k = some c → 0 ≤ k
  unlinked : ∀ k c, s.conn k = some c → c.isAuthenticated = false → c.connectionFd < 0
  portless : ∀ k c, s.conn k = some c → c.isAuthenticated = false → c.sourcePort = 0
  partner : ∀ k c, s.conn k = some c → 0 ≤ c.connectionFd → ∀ d,
    s.conn c.connectionFd = some d → d.isAuthenticated

/-- Whoever has logged in is in `L`. -/
def Covers (L : Int → Bool) (s : MainObject) : Prop :=
  ∀ k c, s.conn k = some c → c.isAuthenticated → L k = true

/-- A part that covers the authenticated connections is closed. -/
theorem Sober.closed (h : Sober s) (hL : Covers L s) : s.Closed L := fun k c _ hc hlink d hd =>
  hL _ d hd (h.partner k c hc hlink d hd)

/-- And no one outside it has a port. -/
theorem Sober.portless_of_covers (h : Sober s) (hL : Covers L s) : s.Portless L := by
  intro k c hc hk
  refine h.portless k c hc ?_
  by_contra hauth
  have hmem := hL k c hc (by simpa using hauth)
  rw [hk] at hmem
  cases hmem

/-- Every connection of `s'` was there in `s`, as authenticated as it is, and has been unlinked or
lost its port at most. -/
def Loosens (s s' : MainObject) : Prop :=
  ∀ k c', s'.conn k = some c' → ∃ c, s.conn k = some c ∧
    c'.isAuthenticated = c.isAuthenticated ∧
    (0 ≤ c'.connectionFd → c'.connectionFd = c.connectionFd) ∧
    (c'.sourcePort = c.sourcePort ∨ c'.sourcePort = 0)

/-- Nothing is loosened. -/
theorem Loosens.refl (s : MainObject) : Loosens s s := fun _ c hc =>
  ⟨c, hc, rfl, fun _ => rfl, .inl rfl⟩

/-- Two changes that loosen. -/
theorem Loosens.trans (h : Loosens s s₁) (h' : Loosens s₁ s') : Loosens s s' := by
  intro k c' hc'
  obtain ⟨c₁, hc₁, hauth', hlink', hport'⟩ := h' k c' hc'
  obtain ⟨c, hc, hauth, hlink, hport⟩ := h k c₁ hc₁
  refine ⟨c, hc, hauth'.trans hauth, fun hpos => ?_, ?_⟩
  · have heq := hlink' hpos
    exact heq.trans (hlink (heq ▸ hpos))
  · rcases hport' with hport' | hport'
    · exact hport.imp hport'.trans hport'.trans
    · exact .inr hport'

/-- A server stays sober. -/
theorem Loosens.sober (h : Loosens s s') (hs : Sober s) : Sober s' := by
  refine ⟨fun k c' hc' => ?_, fun k c' hc' hauth' => ?_, fun k c' hc' hauth' => ?_,
    fun k c' hc' hpos d' hd' => ?_⟩
  · obtain ⟨c, hc, -⟩ := h k c' hc'
    exact hs.nonneg k c hc
  · obtain ⟨c, hc, hauth, hlink, -⟩ := h k c' hc'
    have hfree := hs.unlinked k c hc (hauth ▸ hauth')
    by_contra hpos
    have heq := hlink (not_lt.1 hpos)
    omega
  · obtain ⟨c, hc, hauth, -, hport⟩ := h k c' hc'
    rcases hport with hport | hport
    · exact hport.trans (hs.portless k c hc (hauth ▸ hauth'))
    · exact hport
  · obtain ⟨c, hc, -, hlink, -⟩ := h k c' hc'
    obtain ⟨d, hd, hauth, -⟩ := h _ d' hd'
    have heq := hlink hpos
    rw [hauth]
    exact hs.partner k c hc (heq ▸ hpos) d (heq ▸ hd)

/-- Output and the database do not matter. -/
theorem Sober.congr (hs : Sober s) (h : ∀ k, s'.conn k = s.conn k) : Sober s' :=
  Loosens.sober (fun k c hc => ⟨c, (h k).symm.trans hc, rfl, fun _ => rfl, .inl rfl⟩) hs

/-- A part goes on covering. -/
theorem Loosens.covers (h : Loosens s s') (hL : Covers L s) : Covers L s' := by
  intro k c' hc' hauth'
  obtain ⟨c, hc, hauth, -⟩ := h k c' hc'
  exact hL k c hc (hauth ▸ hauth')

/-! ## What loosens -/

/-- A change that sets no link, no port and no one authenticated. -/
theorem loosens_modifyConn {f : SipConnection → SipConnection}
    (hauth : ∀ c, (f c).isAuthenticated = c.isAuthenticated)
    (hlink : ∀ c, 0 ≤ (f c).connectionFd → (f c).connectionFd = c.connectionFd)
    (hport : ∀ c, (f c).sourcePort = c.sourcePort ∨ (f c).sourcePort = 0) :
    Loosens s (s.modifyConn fd f) := by
  intro k c' hc'
  rw [conn_modifyConn] at hc'
  split at hc'
  · obtain ⟨c, hc, rfl⟩ := Option.map_eq_some_iff.1 hc'
    exact ⟨c, hc, hauth c, hlink c, hport c⟩
  · exact ⟨c', hc', rfl, fun _ => rfl, .inl rfl⟩

/-- A change of other fields. -/
theorem Sober.modifyConn {f : SipConnection → SipConnection} (hs : Sober s)
    (hauth : ∀ c, (f c).isAuthenticated = c.isAuthenticated)
    (hlink : ∀ c, (f c).connectionFd = c.connectionFd)
    (hport : ∀ c, (f c).sourcePort = c.sourcePort) : Sober (s.modifyConn fd f) :=
  (loosens_modifyConn hauth (fun c _ => hlink c) fun c => .inl (hport c)).sober hs

/-- A line that is taken. -/
theorem loosens_takeLine : Loosens s (s.takeLine fd) :=
  loosens_modifyConn (fun _ => rfl) (fun _ _ => rfl) fun _ => .inl rfl

/-- A connection that is removed. -/
theorem loosens_eraseConn : Loosens s (s.eraseConn fd) := by
  intro k c' hc'
  rw [conn_eraseConn] at hc'
  split at hc'
  · cases hc'
  · exact ⟨c', hc', rfl, fun _ => rfl, .inl rfl⟩

/-- The end of a call. -/
theorem EndsCall.loosens (h : EndsCall w fd c s s') : Loosens s s' := by
  intro k c' hc'
  rw [h.conn] at hc'
  split at hc'
  · obtain ⟨c₀, hc₀, rfl⟩ := Option.map_eq_some_iff.1 hc'
    exact ⟨c₀, hc₀, rfl, fun hpos => absurd hpos (by simp), .inr rfl⟩
  · exact ⟨c', hc', rfl, fun _ => rfl, .inl rfl⟩

/-- A connection whose call `Logout` releases. -/
theorem release_loosens (id : Int) (c : SipConnection) :
    (c.release id).isAuthenticated = c.isAuthenticated ∧ (c.release id).connectionFd < 0 ∧
      ((c.release id).sourcePort = c.sourcePort ∨ (c.release id).sourcePort = 0) := by
  unfold SipConnection.release
  split
  · exact ⟨rfl, by simp, .inr rfl⟩
  · exact ⟨rfl, by simp, .inl rfl⟩

/-- A logout. -/
theorem logout_loosens (hc : s.conn fd = some c) (h : s.logout w fd = some s') : Loosens s s' := by
  rcases logout_spec hc h with ⟨-, rfl⟩ | ⟨-, hl⟩
  · exact .refl s'
  · intro k c' hc'
    by_cases hk : fd = k
    · subst hk
      rw [hl.conn_self, Option.some.injEq] at hc'
      obtain ⟨hauth, hlink, hport⟩ := release_loosens c.cid c
      subst hc'
      exact ⟨c, hc, hauth, fun hpos => absurd hpos (not_le.2 hlink), hport⟩
    · rw [hl.conn k hk] at hc'
      split at hc'
      · obtain ⟨c₀, hc₀, rfl⟩ := Option.map_eq_some_iff.1 hc'
        obtain ⟨hauth, hlink, hport⟩ := release_loosens c.cid c₀
        exact ⟨c₀, hc₀, hauth, fun hpos => absurd hpos (not_le.2 hlink), hport⟩
      · exact ⟨c', hc', rfl, fun _ => rfl, .inl rfl⟩

/-- A kill. -/
theorem socketKill_loosens (hc : s.conn fd = some c) (h : s.socketKill w fd = some s') :
    Loosens s s' := by
  rcases socketKill_spec hc h with ⟨-, rfl⟩ | ⟨-, s₁, h₁, rfl⟩
  · exact .refl s'
  · exact (logout_loosens hc h₁).trans
      (loosens_modifyConn (fun _ => rfl) (fun _ _ => rfl) fun _ => .inl rfl)

/-- The zombie sweep. -/
theorem zombieData_loosens : Loosens s s.zombieData := by
  intro k c' hc'
  rw [(zombieData_spec s).1] at hc'
  exact ⟨c', (Option.filter_eq_some_iff.1 hc').1, rfl, fun _ => rfl, .inl rfl⟩

/-- A turn of the ping sweep. -/
theorem pingTurn_loosens (hc : s.conn fd = some c) (h : s.pingTurn w fd = some s') :
    Loosens s s' := by
  rcases pingTurn_spec hc h with ⟨-, rfl⟩ | ⟨-, s₁, h₁, rfl⟩
  · exact .refl s
  · exact (logout_loosens hc h₁).trans loosens_eraseConn

/-- The ping sweep. -/
theorem pingTimerData_loosens (h : s.pingTimerData w = some s') : Loosens s s' := by
  refine (pingTimerData_rule (I := fun _ s₁ => Loosens s s₁) h (.refl s) ?_).1
  intro done fd c s₁ s₂ ht hI
  refine hI.trans ?_
  rcases ht.turn with ⟨-, rfl⟩ | ⟨-, s₃, h₃, rfl⟩
  · exact .refl s₁
  · exact (logout_loosens ht.conn h₃).trans loosens_eraseConn

/-! ## Steps that stay sober -/

/-- Nothing that has not logged in is in the way of the event. A descriptor that is opened belongs
to nothing that has logged in, and nothing is linked to it. Where a `PW` presents the right hash
and somebody else has the user, somebody else that has logged in has. Where a `CA` names a user,
the last connection that has the user has logged in. A call that is put through finds unused
ports. -/
structure InfluenceSafe (s : MainObject) (e : Event) : Prop where
  opens : ∀ fd ∈ opens e, ∀ x ∈ s.sip_connections.toList,
    (x.1 = fd → x.2.isAuthenticated = false) ∧ x.2.connectionFd ≠ fd
  password : ∀ p ∈ s.received e, p.2.2.at 0 = "PW" → p.2.2.length = 2 → p.2.1.uid ≠ 0 →
    p.2.2.at 1 = p.2.1.hash → ∀ x ∈ s.sip_connections.toList, x.1 ≠ p.1 → x.2.uid = p.2.1.uid →
      ∃ y ∈ s.sip_connections.toList, y.1 ≠ p.1 ∧ y.2.uid = p.2.1.uid ∧ y.2.isAuthenticated
  call : ∀ p ∈ s.received e, p.2.2.at 0 = "CA" → p.2.1.isAuthenticated → p.2.2.length = 14 →
    ∀ u ∈ e.world.lookup s.db (p.2.2.at 1), ∀ x ∈ s.sip_connections.toList, x.2.uid = u.id →
      ∃ y ∈ s.sip_connections.toList, x.1 ≤ y.1 ∧ y.2.uid = u.id ∧ y.2.isAuthenticated
  ports : ∀ p ∈ s.putThrough e, (s.takeLine p.1).PortsUnused p.1 p.2

instance (s : MainObject) (addr : QHostAddress) (i : Nat) : Decidable (s.portUnused addr i) :=
  decidable_of_iff (∀ x ∈ s.sip_connections.toList, x.2.peerAddress = addr →
      x.2.sourcePort ≠ rtpPort + 2 * i)
    ⟨fun h k c hc => h (k, c) (mem_toList.2 hc), fun h x hx => h x.1 x.2 (mem_toList.1 hx)⟩

/-- One of the next `n` ports from the `i`-th on is unused. -/
def findsUnused (s : MainObject) (addr : QHostAddress) : Nat → Nat → Bool
  | 0, _ => false
  | n + 1, i => decide (s.portUnused addr i) || s.findsUnused addr n (i + 1)

/-- The search finds a free port where there is one from its start on. -/
theorem findsUnused_iff {addr : QHostAddress} {n i : Nat} :
    s.findsUnused addr n i = true ↔ ∃ j < i + n, i ≤ j ∧ s.portUnused addr j := by
  induction n generalizing i with
  | zero =>
      refine iff_of_false (by simp [findsUnused]) ?_
      rintro ⟨j, hj, hij, -⟩
      omega
  | succ n ih =>
      rw [findsUnused, Bool.or_eq_true, decide_eq_true_eq, ih]
      constructor
      · rintro (h | ⟨j, hj, hij, h⟩)
        · exact ⟨i, by omega, le_rfl, h⟩
        · exact ⟨j, by omega, by omega, h⟩
      · rintro ⟨j, hj, hij, h⟩
        rcases Nat.eq_or_lt_of_le hij with rfl | hlt
        · exact .inl h
        · exact .inr ⟨j, by omega, hlt, h⟩

/-- The whole search. -/
theorem findsUnused_zero_iff {addr : QHostAddress} {n : Nat} :
    s.findsUnused addr n 0 = true ↔ ∃ j < n, s.portUnused addr j := by
  rw [findsUnused_iff]
  simp

instance (s : MainObject) (fd d : Int) : Decidable (s.PortsUnused fd d) :=
  decidable_of_iff (∀ c ∈ s.conn fd, ∀ cd ∈ s.conn d,
      s.findsUnused (callAddrs c cd).1 30266 0 ∧
      ∀ port ∈ s.generatePort (callAddrs c cd).1,
        (s.modifyConn fd (SipConnection.setSourcePort port)).findsUnused (callAddrs c cd).2 30266 0)
    (by simp only [findsUnused_zero_iff]; rfl)

instance (s : MainObject) (e : Event) : Decidable (InfluenceSafe s e) :=
  @decidable_of_iff _
    (((∀ fd ∈ opens e, ∀ x ∈ s.sip_connections.toList,
        (x.1 = fd → x.2.isAuthenticated = false) ∧ x.2.connectionFd ≠ fd) ∧
      (∀ p ∈ s.received e, p.2.2.at 0 = "PW" → p.2.2.length = 2 → p.2.1.uid ≠ 0 →
        p.2.2.at 1 = p.2.1.hash → ∀ x ∈ s.sip_connections.toList, x.1 ≠ p.1 →
        x.2.uid = p.2.1.uid → ∃ y ∈ s.sip_connections.toList,
          y.1 ≠ p.1 ∧ y.2.uid = p.2.1.uid ∧ y.2.isAuthenticated)) ∧
      (∀ p ∈ s.received e, p.2.2.at 0 = "CA" → p.2.1.isAuthenticated → p.2.2.length = 14 →
        ∀ u ∈ e.world.lookup s.db (p.2.2.at 1), ∀ x ∈ s.sip_connections.toList,
        x.2.uid = u.id → ∃ y ∈ s.sip_connections.toList,
          x.1 ≤ y.1 ∧ y.2.uid = u.id ∧ y.2.isAuthenticated) ∧
      ∀ p ∈ s.putThrough e, (s.takeLine p.1).PortsUnused p.1 p.2)
    ⟨fun ⟨⟨h₁, h₂⟩, h₃, h₄⟩ => ⟨h₁, h₂, h₃, h₄⟩, fun ⟨h₁, h₂, h₃, h₄⟩ => ⟨⟨h₁, h₂⟩, h₃, h₄⟩⟩
    (@instDecidableAnd _ _ inferInstance inferInstance)

/-- Taking a command line changes nobody's account. -/
theorem conn_takeLine {ck : SipConnection} (h : (s.takeLine fd).conn k = some ck) :
    ∃ c₀, s.conn k = some c₀ ∧ ck.account = c₀.account := by
  rw [takeLine, conn_modifyConn] at h
  split at h
  · obtain ⟨c₀, hc₀, rfl⟩ := Option.map_eq_some_iff.1 h
    exact ⟨c₀, hc₀, rfl⟩
  · exact ⟨ck, h, rfl⟩

/-- A line that is taken leaves the accounts as they are. -/
theorem takeLine_conn (fd : Int) {c₀ : SipConnection} (h : s.conn k = some c₀) :
    ∃ ck, (s.takeLine fd).conn k = some ck ∧ ck.account = c₀.account := by
  rw [takeLine, conn_modifyConn]
  split
  · exact ⟨c₀.clearLine, by rw [h, Option.map_some], rfl⟩
  · exact ⟨c₀, h, rfl⟩

/-- The connection to which a `CA` goes has logged in. -/
theorem InfluenceSafe.calleeFd_authenticated (h : InfluenceSafe s e) (hs : Sober s)
    (hrec : s.received e = some (fd, c, cmds)) (h0 : cmds.at 0 = "CA") (hauth : c.isAuthenticated)
    (hlen : cmds.length = 14) {u : UserRow} (hu : e.world.lookup s.db (cmds.at 1) = some u)
    (hcd : (s.takeLine fd).conn ((s.takeLine fd).calleeFd u.id) = some cd) :
    cd.isAuthenticated := by
  obtain ⟨c₀, hc₀, hacc⟩ := conn_takeLine hcd
  rcases calleeFd_spec (s.takeLine fd) u.id with ⟨c₁, hc₁, hu₁, hmax⟩ | ⟨hneg, -⟩
  · obtain rfl : cd = c₁ := Option.some.inj (hcd.symm.trans hc₁)
    have huid : c₀.uid = u.id := (congrArg Account.uid hacc).symm.trans hu₁
    obtain ⟨⟨j, cj⟩, hy, hle, huj, hauthj⟩ :=
      h.call _ hrec h0 hauth hlen u hu (_, c₀) (mem_toList.2 hc₀) huid
    obtain ⟨cj', hcj', haccj⟩ := takeLine_conn fd (mem_toList.1 hy)
    have hge := hmax j cj' hcj' ((congrArg Account.uid haccj).trans huj)
    obtain rfl : j = (s.takeLine fd).calleeFd u.id := le_antisymm hge hle
    obtain rfl : cd = cj' := Option.some.inj (hcd.symm.trans hcj')
    exact (congrArg Account.isAuthenticated haccj).trans hauthj
  · have hpos := hs.nonneg _ c₀ hc₀
    omega

/-- The searches of a command find the same among those who have logged in. -/
theorem InfluenceSafe.finds (h : InfluenceSafe s e) (hs : Sober s) (hL : Covers L s)
    (hrec : s.received e = some (fd, c, cmds)) : (s.takeLine fd).Finds e.world L fd c cmds := by
  have hcov : Covers L (s.takeLine fd) := loosens_takeLine.covers hL
  refine ⟨fun h0 hlen hu hhash hfound => ?_, fun h0 hauth hlen u hu cd hcd => ?_, fun d hd => ?_⟩
  · rcases getFdByUid_spec (s.takeLine fd) c.uid fd with ⟨c₁, hc₁, hu₁, hne⟩ | ⟨hneg, -⟩
    · obtain ⟨c₀, hc₀, hacc⟩ := conn_takeLine hc₁
      obtain ⟨⟨j, cj⟩, hy, hj, huj, hauthj⟩ := h.password _ hrec h0 hlen hu hhash (_, c₀)
        (mem_toList.2 hc₀) hne ((congrArg Account.uid hacc).symm.trans hu₁)
      obtain ⟨cj', hcj', haccj⟩ := takeLine_conn fd (mem_toList.1 hy)
      exact ⟨j, cj', hcov j cj' hcj' ((congrArg Account.isAuthenticated haccj).trans hauthj),
        hcj', (congrArg Account.uid haccj).trans huj, hj⟩
    · omega
  · exact hcov _ cd hcd (h.calleeFd_authenticated hs hrec h0 hauth hlen hu hcd)
  · exact h.ports (fd, d) (putThrough_eq_some.2 ⟨c, cmds, hrec, hd⟩)

/-- A call between two connections that have logged in keeps the server sober. -/
theorem SetsUpCall.sober {port port' : Nat} {id : Int} {row : CallRow}
    (h : SetsUpCall w fd d cmds c cd port port' id row s s') (hs : Sober s)
    (hends : ∀ k, fd = k ∨ d = k → ∀ x, s.conn k = some x → x.isAuthenticated) : Sober s' := by
  have hold {k c'} (hc' : s'.conn k = some c') : ∃ x, s.conn k = some x ∧
      c'.isAuthenticated = x.isAuthenticated ∧ (fd = k ∨ d = k ∨ c' = x) := by
    rw [h.conn] at hc'
    split at hc'
    · next hk =>
        obtain ⟨x, hx, rfl⟩ := Option.map_eq_some_iff.1 hc'
        exact ⟨x, hx, rfl, hk.imp_right .inl⟩
    · exact ⟨c', hc', rfl, .inr (.inr rfl)⟩
  have hstranger {k c'} (hc' : s'.conn k = some c') (hauth : c'.isAuthenticated = false) :
      s.conn k = some c' := by
    obtain ⟨x, hx, hsame, hk | hk | rfl⟩ := hold hc'
    · rw [hsame, hends k (.inl hk) x hx] at hauth
      cases hauth
    · rw [hsame, hends k (.inr hk) x hx] at hauth
      cases hauth
    · exact hx
  refine ⟨fun k c' hc' => ?_, fun k c' hc' hauth => hs.unlinked k c' (hstranger hc' hauth) hauth,
    fun k c' hc' hauth => hs.portless k c' (hstranger hc' hauth) hauth,
    fun k c' hc' hpos d' hd' => ?_⟩
  · obtain ⟨x, hx, -⟩ := hold hc'
    exact hs.nonneg k x hx
  · obtain ⟨y, hy, hsame, -⟩ := hold hd'
    rw [hsame]
    rw [h.conn] at hc'
    split at hc'
    · obtain ⟨x, hx, rfl⟩ := Option.map_eq_some_iff.1 hc'
      refine hends _ ?_ y hy
      simp only [SipConnection.setCid_connectionFd, SipConnection.setSourcePort_connectionFd,
        SipConnection.setConnectionFd_connectionFd]
      split
      · exact .inl rfl
      · exact .inr rfl
    · exact hs.partner k c' hc' hpos y hy

/-- A login keeps the server sober. -/
theorem Sober.acceptLogin (hs : Sober s) : Sober (s.acceptLogin env w fd c) := by
  have hold {k c'} (hc' : (s.acceptLogin env w fd c).conn k = some c') : ∃ x, s.conn k = some x ∧
      c'.connectionFd = x.connectionFd ∧ c'.sourcePort = x.sourcePort ∧
      (x.isAuthenticated → c'.isAuthenticated) := by
    rw [MainObject.acceptLogin, conn_sendUidUpdate, conn_sendCommand, conn_withDb,
      conn_modifyConn] at hc'
    split at hc'
    · obtain ⟨x, hx, rfl⟩ := Option.map_eq_some_iff.1 hc'
      exact ⟨x, hx, rfl, rfl, fun _ => rfl⟩
    · exact ⟨c', hc', rfl, rfl, id⟩
  refine ⟨fun k c' hc' => ?_, fun k c' hc' hauth => ?_, fun k c' hc' hauth => ?_,
    fun k c' hc' hpos d' hd' => ?_⟩
  · obtain ⟨x, hx, -⟩ := hold hc'
    exact hs.nonneg k x hx
  · obtain ⟨x, hx, hlink, -, hmono⟩ := hold hc'
    rw [hlink]
    exact hs.unlinked k x hx (by simpa [hauth] using hmono)
  · obtain ⟨x, hx, -, hport, hmono⟩ := hold hc'
    rw [hport]
    exact hs.portless k x hx (by simpa [hauth] using hmono)
  · obtain ⟨x, hx, hlink, -⟩ := hold hc'
    obtain ⟨y, hy, -, -, hmono⟩ := hold hd'
    exact hmono (hs.partner k x hx (hlink ▸ hpos) y (hlink ▸ hy))

/-- A command keeps the server sober. -/
theorem Outcome.sober (hc : s.conn fd = some c) (h : Outcome env w s fd c cmds s') (hs : Sober s)
    (hcallee : ∀ d cd, s.callee w c cmds = some d → s.conn d = some cd → cd.isAuthenticated) :
    Sober s' := by
  cases h with
  | kill _ hkill =>
      exact (socketKill_loosens (by exact hc) hkill).sober (hs.congr fun _ => rfl)
  | stranger | refuse | forward | mute | metadata => exact hs.congr fun _ => rfl
  | identify =>
      have hs₁ : Sober (s.sendCommand fd ("LI " ++ generateChallenge w ++ "!")) :=
        hs.congr fun _ => rfl
      exact hs₁.modifyConn (fun _ => rfl) (fun _ => rfl) fun _ => rfl
  | accept => exact hs.acceptLogin
  | @setup d cd _ hd hcd hset =>
      obtain ⟨_, _, _, _, hset⟩ := setupCall_spec hc hcd hset
      refine hset.sober hs fun k hk x hx => ?_
      rcases hk with rfl | rfl
      · obtain rfl : c = x := Option.some.inj (hc.symm.trans hx)
        exact (callee_spec hd).1.2.1
      · exact hcallee _ x hd hx
  | bye _ _ hend => exact (endCall_spec hc hend).loosens.sober hs
  | ping => exact hs.modifyConn (fun _ => rfl) (fun _ => rfl) fun _ => rfl

/-- **A step stays sober.** -/
theorem Sober.step (hs : Sober s) (hP : InfluenceSafe s e)
    (h : MainObject.step env s e = some (s', out)) : Sober s' := by
  obtain ⟨s₁, htr, rfl, -⟩ := step_transition h
  have hs₀ := hs
  have hs : Sober s.flush := hs.congr fun _ => rfl
  suffices Sober s₁ from this.congr fun _ => rfl
  obtain ⟨slot, w⟩ := e
  cases htr with
  | @newConnection fd peer hfd =>
      have hopens := hP.opens fd rfl
      have hcases {k c'} (hc' : (s.flush.insertConn fd
          { peerAddress := peer, pingTimestamp := w.now }).conn k = some c') :
          fd = k ∧ c' = { peerAddress := peer, pingTimestamp := w.now } ∨
            fd ≠ k ∧ s.conn k = some c' := by
        rw [conn_insertConn] at hc'
        split at hc'
        · next hk => exact .inl ⟨hk, (Option.some.inj hc').symm⟩
        · next hk => exact .inr ⟨hk, hc'⟩
      refine ⟨fun k c' hc' => ?_, fun k c' hc' hauth => ?_, fun k c' hc' hauth => ?_,
        fun k c' hc' hpos d' hd' => ?_⟩
      · rcases hcases hc' with ⟨rfl, -⟩ | ⟨-, hc'⟩
        · exact hfd
        · exact hs.nonneg k c' hc'
      · rcases hcases hc' with ⟨-, rfl⟩ | ⟨-, hc'⟩
        · show (-1 : Int) < 0
          omega
        · exact hs.unlinked k c' hc' hauth
      · rcases hcases hc' with ⟨-, rfl⟩ | ⟨-, hc'⟩
        · rfl
        · exact hs.portless k c' hc' hauth
      · rcases hcases hc' with ⟨-, rfl⟩ | ⟨-, hc'⟩
        · exact absurd hpos (by show ¬ (0 : Int) ≤ -1; omega)
        · rcases hcases hd' with ⟨heq, -⟩ | ⟨-, hd'⟩
          · exact absurd heq.symm (hopens (k, c') (mem_toList.2 hc')).2
          · exact hs.partner k c' hc' hpos d' hd'
  | byte => exact hs.modifyConn (fun _ => rfl) (fun _ => rfl) fun _ => rfl
  | @command fd c _ hc hout =>
      have hrec := received_eq (s := s) (e := ⟨.socketReady fd '!', w⟩) rfl hc
      have hc' : (s.flush.takeLine fd).conn fd = some c.clearLine := by
        rw [takeLine, conn_modifyConn, if_pos rfl, hc, Option.map_some]
      refine hout.sober hc' (loosens_takeLine.sober hs) fun d cd hd hcd => ?_
      obtain ⟨⟨h0, hauth, hlen⟩, u, hu, rfl, -⟩ := callee_spec hd
      exact hP.calleeFd_authenticated hs₀ hrec h0 hauth hlen hu hcd
  | socketKill hc hkill => exact (socketKill_loosens hc hkill).sober hs
  | zombieData => exact zombieData_loosens.sober hs
  | pingTimerData hsweep => exact (pingTimerData_loosens hsweep).sober hs

/-! ## What goes on in `L` -/

/-- The connection that an event is of. -/
def eventFd (e : Event) : Option Int :=
  match e.slot with
  | .newConnection fd _ => some fd
  | .socketReady fd _ => some fd
  | .socketKill fd => some fd
  | .zombieData => none
  | .pingTimerData => none

/-- The zombie sweep of the part. -/
theorem restrict_zombieData : (s.restrict L).zombieData = s.zombieData.restrict L := by
  obtain ⟨hconn, hdb, hsent⟩ := zombieData_spec s
  obtain ⟨hconn', hdb', hsent'⟩ := zombieData_spec (s.restrict L)
  refine eq_of_conn (fun k => ?_) (hdb'.trans hdb.symm) ?_
  · rw [hconn', conn_restrict, conn_restrict, hconn]
    split <;> rfl
  · rw [hsent', restrict, restrict, hsent]

/-- Nothing happens in `L` when the ping sweep comes to a connection that has not logged in. -/
theorem hidden_pingTurn (hfd : L fd = false) (hauth : c.isAuthenticated = false)
    (hc : s.conn fd = some c) (h : s.pingTurn w fd = some s') : s'.restrict L = s.restrict L := by
  rcases pingTurn_spec hc h with ⟨-, rfl⟩ | ⟨-, s₁, h₁, rfl⟩
  · exact restrict_sendCommand_of_not_mem hfd
  · rcases logout_spec hc h₁ with ⟨-, rfl⟩ | ⟨hin, -⟩
    · exact restrict_eraseConn_of_not_mem hfd
    · rw [SipConnection.loggedIn, hauth] at hin
      cases hin

/-- A turn of the ping sweep in the part. -/
theorem restrict_pingTurn (hfd : L fd = true) (hcl : s.Closed L) (hc : s.conn fd = some c)
    (h : s.pingTurn w fd = some s') : (s.restrict L).pingTurn w fd = some (s'.restrict L) := by
  simp only [pingTurn, conn_restrict_of_mem hfd, hc, Option.bind_eq_bind, Option.bind_some] at h ⊢
  split at h
  · next ht =>
      obtain ⟨s₁, h₁, h⟩ := Option.bind_eq_some_iff.1 h
      rw [if_pos ht, restrict_logout hfd hcl h₁, Option.bind_some, restrict_eraseConn,
        Option.pure_def, ← Option.some.inj h]
  · next ht => rw [if_neg ht, restrict_sendCommand hfd, Option.pure_def, ← Option.some.inj h]

/-- The ping sweep over the connections in `L` does what the sweep over all does to them. -/
theorem restrict_pingTurns (l : List Int) (hs : Sober s) (hL : Covers L s)
    (h : l.foldlM (pingTurn w) s = some s') :
    (l.filter L).foldlM (pingTurn w) (s.restrict L) = some (s'.restrict L) := by
  induction l generalizing s with
  | nil => rw [← Option.some.inj h]; rfl
  | cons fd l ih =>
      rw [List.foldlM_cons, Option.bind_eq_bind, Option.bind_eq_some_iff] at h
      obtain ⟨s₁, hturn, h⟩ := h
      have hturn₀ := hturn
      rw [pingTurn, Option.bind_eq_bind, Option.bind_eq_some_iff] at hturn₀
      obtain ⟨c, hc, -⟩ := hturn₀
      have hloose := pingTurn_loosens hc hturn
      have hrest := ih (hloose.sober hs) (hloose.covers hL) h
      cases hfd : L fd with
      | true =>
          rw [List.filter_cons_of_pos hfd, List.foldlM_cons, restrict_pingTurn hfd (hs.closed hL) hc
            hturn]
          exact hrest
      | false =>
          have hauth : c.isAuthenticated = false := by
            by_contra hauth
            rw [hL fd c hc (by simpa using hauth)] at hfd
            cases hfd
          rw [List.filter_cons_of_neg (by simp [hfd]), ← hidden_pingTurn hfd hauth hc hturn]
          exact hrest

/-- The ping sweep of the part. -/
theorem restrict_pingTimerData (hs : Sober s) (hL : Covers L s)
    (h : s.pingTimerData w = some s') : (s.restrict L).pingTimerData w = some (s'.restrict L) := by
  rw [pingTimerData, fds_restrict]
  exact restrict_pingTurns s.fds hs hL h

/-- A byte that arrives at a connection of the part. -/
theorem restrict_readByte {b : Char} (hfd : L fd = true) (hs : Sober s) (hL : Covers L s)
    (hfinds : ∀ c, s.conn fd = some c → b = '!' →
      (s.takeLine fd).Finds w L fd c.clearLine (tokens c))
    (h : s.readByte env w fd b = some s') :
    (s.restrict L).readByte env w fd b = some (s'.restrict L) := by
  simp only [readByte, conn_restrict_of_mem hfd, Option.bind_eq_bind,
    Option.bind_eq_some_iff] at h ⊢
  obtain ⟨c, hc, h⟩ := h
  refine ⟨c, hc, ?_⟩
  split at h
  · next hb =>
      rw [if_pos hb]
      have htake : Loosens s (s.takeLine fd) := loosens_takeLine
      have hs' := htake.sober hs
      have hL' := htake.covers hL
      simp only [parseCommand, conn_restrict_of_mem hfd, hc, Option.bind_eq_bind,
        Option.bind_some] at h ⊢
      rw [takeLine, restrict_modifyConn]
      refine restrict_dispatch hfd (hs'.closed hL') (hs'.portless_of_covers hL') hs'.nonneg ?_
        (hfinds c hc hb) h
      rw [conn_modifyConn, if_pos rfl, hc, Option.map_some]
  · next hb => rw [if_neg hb, restrict_modifyConn, Option.pure_def, ← Option.some.inj h]

/-- There is nothing to flush. -/
theorem flush_of_sent (hsent : s.sent = []) : s.flush = s := by
  rw [flush, ← hsent]

/-- **What the connections in `L` do, they do without the others.** -/
theorem restrict_step (hsent : s.sent = []) (hs : Sober s) (hL : Covers L s)
    (hP : InfluenceSafe s e)
    (hopens : opens e = none) (hfd : ∀ fd ∈ eventFd e, L fd = true)
    (h : step env s e = some (s', out)) :
    step env (s.restrict L) e = some (s'.restrict L, out.filter (Output.visible L)) := by
  obtain ⟨s₁, h₁, rfl, rfl⟩ := step_runSlot h
  rw [flush_of_sent hsent] at h₁
  suffices hrun : runSlot env (s.restrict L) e = some (s₁.restrict L) by
    simp only [step, restrict_flush, flush_of_sent hsent, hrun, Option.bind_eq_bind,
      Option.bind_some]
    rfl
  have hfinds {fd c cmds} (hrec : s.received e = some (fd, c, cmds)) :
      (s.takeLine fd).Finds e.world L fd c cmds := hP.finds hs hL hrec
  obtain ⟨slot, w⟩ := e
  cases slot with
  | newConnection fd peer => cases hopens
  | socketReady fd b =>
      refine restrict_readByte (hfd fd rfl) hs hL (fun c hc hb => ?_) h₁
      subst hb
      exact hfinds (received_eq rfl hc)
  | socketKill fd => exact restrict_socketKill (hfd fd rfl) (hs.closed hL) h₁
  | zombieData =>
      rw [runSlot, restrict_zombieData]
      exact congrArg (fun s => some (s.restrict L)) (Option.some.inj h₁)
  | pingTimerData => exact restrict_pingTimerData hs hL h₁

/-! ## What goes on outside `L` -/

/-- Killing a connection that has not logged in is not seen in `L`. -/
theorem hidden_socketKill (hfd : L fd = false) (hauth : c.isAuthenticated = false)
    (hc : s.conn fd = some c) (h : s.socketKill w fd = some s') : s'.restrict L = s.restrict L := by
  rcases socketKill_spec hc h with ⟨-, rfl⟩ | ⟨-, s₁, h₁, rfl⟩
  · rfl
  · rcases logout_spec hc h₁ with ⟨-, rfl⟩ | ⟨hin, -⟩
    · exact restrict_modifyConn_of_not_mem hfd
    · rw [SipConnection.loggedIn, hauth] at hin
      cases hin

/-- A command on a connection that has not logged in is not seen in `L`, unless it logs in. -/
theorem Outcome.hidden (hc : s.conn fd = some c) (h : Outcome env w s fd c cmds s')
    (hfd : L fd = false) (hauth : c.isAuthenticated = false)
    (hnot : ¬ (cmds.at 0 = "PW" ∧ s.killCode fd c cmds = none)) :
    s'.restrict L = s.restrict L := by
  cases h with
  | kill _ hkill =>
      exact (hidden_socketKill hfd hauth (by exact hc) hkill).trans
        (restrict_sendCommand_of_not_mem hfd)
  | stranger => exact restrict_sendCommand_of_not_mem hfd
  | identify =>
      exact (restrict_modifyConn_of_not_mem hfd).trans (restrict_sendCommand_of_not_mem hfd)
  | accept h0 hcode => exact absurd ⟨h0, hcode⟩ hnot
  | setup hcallee => exact absurd (callee_spec hcallee).1.2.1 (by simp [hauth])
  | refuse hin | bye _ hin | forward _ hin | mute hin | metadata _ hin | ping _ hin =>
      exact absurd hin (by simp [hauth])

/-- **What a connection does that has not logged in, is not seen in `L`**, unless it logs in. -/
theorem hidden_step (hL : Covers L s) (hopens : opens e = none) (hev : eventFd e = some fd)
    (hfd : L fd = false) (hnot : s.accepted e ≠ some fd) (h : step env s e = some (s', out)) :
    s'.restrict L = s.flush.restrict L ∧ out.filter (Output.visible L) = [] := by
  obtain ⟨s₁, htr, rfl, rfl⟩ := step_transition h
  suffices hsame : s₁.restrict L = s.flush.restrict L from
    ⟨congrArg flush hsame, congrArg MainObject.sent hsame⟩
  have hstranger {c : SipConnection} (hc : s.conn fd = some c) : c.isAuthenticated = false := by
    by_contra hauth
    rw [hL fd c hc (by simpa using hauth)] at hfd
    cases hfd
  obtain ⟨slot, w⟩ := e
  cases htr with
  | newConnection => cases hopens
  | byte =>
      obtain rfl := Option.some.inj hev
      exact restrict_modifyConn_of_not_mem hfd
  | @command k c _ hc hout =>
      obtain rfl := Option.some.inj hev
      have hrec := received_eq (s := s) (e := ⟨.socketReady k '!', w⟩) rfl hc
      have hc' : (s.flush.takeLine k).conn k = some c.clearLine := by
        rw [takeLine, conn_modifyConn, if_pos rfl, hc, Option.map_some]
      have hauth : c.isAuthenticated = false := hstranger hc
      refine (hout.hidden hc' hfd hauth fun hacc => hnot ?_).trans
        (restrict_modifyConn_of_not_mem hfd)
      exact accepted_eq_some.2 ⟨_, _, hrec, hacc⟩
  | @socketKill _ c _ hc hkill =>
      obtain rfl := Option.some.inj hev
      exact hidden_socketKill hfd (hstranger hc) hc hkill
  | zombieData => cases hev
  | pingTimerData => cases hev

end MainObject

end NetISDN
