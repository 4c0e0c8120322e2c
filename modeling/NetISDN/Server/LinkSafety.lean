import NetISDN.Server.Accounts
import NetISDN.Server.CallLinks

/-!
# Call links are symmetric and live

Each connection in a call points at another live connection that points back and carries the
same `cid`, and a connection in no call has no trace of one (`CallLinks`). The handlers ensure
this as long as every step meets `LinkSafe`; `InitiateCall`, `socketKill` and `pingTimerData` do
not check that.
-/

namespace NetISDN

open TransitionSystem

namespace MainObject

variable {env : Env} {s s' : MainObject} {e : Event} {k : Int} {c : SipConnection}

/-- The links of the table: symmetric, between two different connections that are alive. -/
def CallLinks (s : MainObject) : Prop :=
  ∀ fd c, s.conn fd = some c →
    (0 ≤ c.connectionFd → c.connectionFd ≠ fd ∧ ∃ d, s.conn c.connectionFd = some d ∧
      d.zombie = false ∧ d.connectionFd = fd ∧ d.cid = c.cid) ∧
    (c.connectionFd < 0 → c.cid = -1 ∧ c.sourcePort = 0)

/-- The event keeps the links in order. A call is set up between two different connections, both
alive, of which the caller is in no call. What is killed, or times out, is in no call or is
logged in; one that times out may also have been released before its turn by a partner that
times out, too. -/
structure LinkSafe (s : MainObject) (e : Event) : Prop where
  call : ∀ p ∈ s.putThrough e, (∀ c ∈ s.conn p.1, c.connectionFd < 0 ∧ c.zombie = false) ∧
    p.1 ≠ p.2 ∧ ∀ d ∈ s.conn p.2, d.zombie = false
  kill : ∀ fd ∈ s.killed e, ∀ c ∈ s.conn fd, c.connectionFd < 0 ∨ c.loggedIn
  ping : ∀ x ∈ s.sip_connections.toList, s.TimesOut e x.1 → 0 ≤ x.2.connectionFd →
    x.2.loggedIn ∨ x.2.connectionFd < x.1 ∧ s.TimesOut e x.2.connectionFd

instance (s : MainObject) (e : Event) : Decidable (LinkSafe s e) :=
  decidable_of_iff
    ((∀ p ∈ s.putThrough e, (∀ c ∈ s.conn p.1, c.connectionFd < 0 ∧ c.zombie = false) ∧
        p.1 ≠ p.2 ∧ ∀ d ∈ s.conn p.2, d.zombie = false) ∧
      (∀ fd ∈ s.killed e, ∀ c ∈ s.conn fd, c.connectionFd < 0 ∨ c.loggedIn) ∧
      ∀ x ∈ s.sip_connections.toList, s.TimesOut e x.1 → 0 ≤ x.2.connectionFd →
        x.2.loggedIn ∨ x.2.connectionFd < x.1 ∧ s.TimesOut e x.2.connectionFd)
    ⟨fun ⟨h₁, h₂, h₃⟩ => ⟨h₁, h₂, h₃⟩, fun ⟨h₁, h₂, h₃⟩ => ⟨h₁, h₂, h₃⟩⟩

/-- A zombie was one before the step, or was killed in it. -/
theorem AccountMove.zombie {a : Account} (h : AccountMove env s e s')
    (ha : s'.accountOf k = some a) (hz : a.zombie = true) :
    (∃ a', s.accountOf k = some a' ∧ a'.zombie = true) ∨ s.killed e = some k := by
  cases h with
  | same h => exact .inl ⟨a, (h k).symm.trans ha, hz⟩
  | @connect fd _ _ hacc =>
      rw [hacc] at ha
      split at ha
      · rw [← Option.some.inj ha] at hz
        cases hz
      · exact .inl ⟨a, ha, hz⟩
  | @kill fd a₀ ha₀ hk hacc =>
      rw [hacc] at ha
      split at ha
      · next hfd =>
          subst hfd
          cases hz₀ : a₀.zombie with
          | false => exact .inr (hk hz₀)
          | true => exact .inl ⟨a₀, ha₀, hz₀⟩
      · exact .inl ⟨a, ha, hz⟩
  | @identify fd u a₀ _ ha₀ hacc =>
      rw [hacc] at ha
      split at ha
      · next hfd =>
          subst hfd
          exact .inl ⟨a₀, ha₀, by rw [← Option.some.inj ha] at hz; exact hz⟩
      · exact .inl ⟨a, ha, hz⟩
  | @accept fd a₀ _ ha₀ hacc =>
      rw [hacc] at ha
      split at ha
      · next hfd =>
          subst hfd
          exact .inl ⟨a₀, ha₀, by rw [← Option.some.inj ha] at hz; exact hz⟩
      · exact .inl ⟨a, ha, hz⟩
  | purge _ hacc =>
      rw [hacc] at ha
      exact .inl ⟨a, (Option.filter_eq_some_iff.1 ha).1, hz⟩
  | sweep _ hacc =>
      rw [hacc] at ha
      split at ha
      · cases ha
      · exact .inl ⟨a, ha, hz⟩

/-- The invariant: the table represents a switchboard, and zombies are in no call. -/
def LinkInv (s : MainObject) : Prop :=
  (∃ b, Represents s b) ∧ ∀ k c, s.conn k = some c → c.zombie = true → c.connectionFd < 0

/-- The invariant makes the calls linked. -/
theorem LinkInv.callLinks (h : LinkInv s) : CallLinks s := by
  obtain ⟨⟨b, hR⟩, hz⟩ := h
  intro fd c hc
  refine ⟨fun hlink => ?_, fun hfree => ?_⟩
  · have hp := (hR.partner_eq_some hc).2 ⟨hlink, rfl, rfl⟩
    obtain ⟨d, hd⟩ := hR.exists_conn (b.pairing.symm hp)
    obtain ⟨hlink', hfd, hcid⟩ := (hR.partner_eq_some hd).1 (b.pairing.symm hp)
    refine ⟨(Pairing.ne_of_partner hp).symm, d, hd, ?_, hfd, hcid⟩
    by_contra hzd
    exact absurd (hz _ d hd (by simpa using hzd)) (not_lt.2 hlink')
  · have := hR.call_eq_idle hc hfree
    simp only [SipConnection.call, CallState.idle, CallState.mk.injEq] at this
    exact this.2

/-- Where the links are in order, a step that keeps them so keeps the calls in order. -/
theorem LinkInv.callSafe {out : List Output} (h : LinkInv s) (hP : LinkSafe s e)
    (hs : step env s e = some (s', out)) : CallSafe s e := by
  refine ⟨fun p hp => ?_, hP.kill, hP.ping, fun x hx hdrop => ?_⟩
  · obtain ⟨hc, hne, -⟩ := hP.call p hp
    exact ⟨fun c hc' => (hc c hc').1, hne⟩
  · have hc := mem_toList.1 hx
    refine h.2 x.1 x.2 hc ?_
    obtain ⟨s₁, htr, -⟩ := step_transition hs
    obtain ⟨slot, w⟩ := e
    cases htr with
    | newConnection _ hz => exact hz x.2 (hdrop ▸ hc)
    | zombieData => simpa [Drops, hc] using hdrop
    | byte | command | socketKill | pingTimerData => cases hdrop

/-- **The step lemma.** -/
theorem LinkInv.step {out : List Output} (h : LinkInv s) (hP : LinkSafe s e)
    (hs : step env s e = some (s', out)) : LinkInv s' := by
  have hsafe := h.callSafe hP hs
  obtain ⟨⟨b, hR⟩, hz⟩ := h
  obtain ⟨b', mout, hmoves, hR', -⟩ := step_moves hR hsafe hs
  refine ⟨⟨b', hR'⟩, fun k c hc hzk => ?_⟩
  by_contra hlink
  have hp' := (hR'.partner_eq_some hc).2 ⟨not_lt.1 hlink, rfl, rfl⟩
  rcases (step_accountMove hs).zombie (by rw [accountOf, hc, Option.map_some]) hzk with
    ⟨a, ha, hza⟩ | hkill
  · -- an old zombie was in no call, and no call is set up with one
    obtain ⟨c₀, hc₀, rfl⟩ := Option.map_eq_some_iff.1 ha
    have hfree := (hR.free_iff hc₀).2 (hz k c₀ hc₀ hza)
    cases hmoves with
    | hangUps hruns => cases hfree.symm.trans (Switchboard.hangsUp_partner hruns hp')
    | @join a d id _ _ hput hs' =>
        obtain ⟨hcaller, -, hcallee⟩ := hP.call _ hput
        obtain ⟨hne, hfa, hfd, -, rfl, -⟩ := Switchboard.step_join.1 hs'
        simp only [Pairing.partner_join_eq_some] at hp'
        rcases hp' with ⟨rfl, -⟩ | ⟨rfl, -⟩ | hp
        · exact absurd hza (by simp [SipConnection.account, (hcaller c₀ hc₀).2])
        · exact absurd hza (by simp [SipConnection.account, hcallee c₀ hc₀])
        · cases hfree.symm.trans hp
    | stop _ hs' =>
        cases hfree.symm.trans hp'
  · exact hlink (step_ends hR hsafe hs (.inr (.inl hkill)) hc)

/-- **The links of the server.** In every run whose steps all meet `LinkSafe`, the links are
symmetric and live in every state reached. -/
theorem callLinks_of_runs {db : Database} {es : List Event} {tr : List Output}
    (h : Runs (step env) LinkSafe (start db) es s tr) : CallLinks s := by
  have h₀ : LinkInv (start db) := ⟨⟨_, represents_start db⟩, fun _ _ hc => nomatch hc⟩
  exact (h.invariant h₀ fun _ _ _ _ hI hP hs => hI.step hP hs).callLinks

/-- Alice logs in, is called by Bob, and hangs up: a run that meets `LinkSafe`, up to the call. -/
theorem callLinks_of_runs_demo : ∃ s tr,
    Runs (step demoEnv) LinkSafe (start demoDb)
      (connects 5 0 :: typed 5 (loginText "alice") 0 ++ connects 6 0 ::
        typed 6 (loginText "bob" ++ callText "alice") 0) s tr ∧
      (s.conn 5).map SipConnection.connectionFd = some 6 ∧ CallLinks s := by
  have hrun : (run (step demoEnv) LinkSafe (start demoDb)
      (connects 5 0 :: typed 5 (loginText "alice") 0 ++ connects 6 0 ::
        typed 6 (loginText "bob" ++ callText "alice") 0)).any
      (fun x => (x.1.conn 5).map SipConnection.connectionFd = some 6) := by decide +kernel
  obtain ⟨⟨s, tr⟩, hrun, hlink⟩ := (Option.any_eq_true _ _).1 hrun
  have hruns := runs_of_run hrun
  exact ⟨s, tr, hruns, by simpa using hlink, callLinks_of_runs hruns⟩

/-- Alice logs in and calls herself: she is in a call with herself. -/
theorem callLinks_needs_linkSafe : ¬ ∀ (env : Env) (db : Database) es s tr,
    Runs (step env) Always (start db) es s tr → CallLinks s := by
  intro h
  have hrun : (run (step demoEnv) Always (start demoDb)
      (connects 5 0 :: typed 5 (loginText "alice" ++ callText "alice") 0)).any
      (fun x => (x.1.conn 5).any fun c => c.connectionFd = 5) := by decide +kernel
  obtain ⟨⟨s, tr⟩, hrun, hself⟩ := (Option.any_eq_true _ _).1 hrun
  obtain ⟨c, hc, hself⟩ := (Option.any_eq_true _ _).1 hself
  have hself : c.connectionFd = 5 := by simpa using hself
  have hlinks := (h demoEnv demoDb _ s tr (runs_of_run hrun) 5 c hc).1 (by simp [hself])
  exact hlinks.1 hself

end MainObject

end NetISDN
