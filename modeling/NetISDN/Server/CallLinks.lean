import NetISDN.Server.Calls

/-!
# The table of connections refines the switchboard

`Represents s b`: the partner pointers of the table `s` are the pairs of the switchboard `b`,
the `cid`s are their identifiers, and `CALLS` is its log. Under `CallSafe`, each step of the
server is a move of the switchboard (`step_moves`), and so each run of the server is a run of
the switchboard (`runs_represents`).
-/

namespace NetISDN

open TransitionSystem

/-- The pair that a connection claims to be in. -/
def CallState.partner (c : CallState) : Option (Int × Int) :=
  if 0 ≤ c.connectionFd then some (c.connectionFd, c.cid) else none

@[simp] theorem CallState.partner_idle : CallState.idle.partner = none := rfl

namespace MainObject

variable {env : Env} {w : World} {s s' s₁ : MainObject} {b b' : Switchboard} {fd d k : Int}
  {c cd : SipConnection} {cmds : QStringList} {e : Event}

/-- The table `s` represents the switchboard `b`. A connection that is in no call has none of
its call fields set. -/
structure Represents (s : MainObject) (b : Switchboard) : Prop where
  partner : ∀ k, b.pairing.partner k = (s.callOf k).bind CallState.partner
  idle : ∀ k c, s.callOf k = some c → c.connectionFd < 0 → c = .idle
  cid : ∀ k c, s.callOf k = some c → 0 ≤ c.connectionFd → 0 ≤ c.cid
  fd : ∀ k c, s.callOf k = some c → 0 ≤ k
  log : ∀ i, b.log i = s.db.endOf i

/-- The switchboard of a server without connections. -/
def emptyBoard (db : Database) : Switchboard := ⟨.empty, db.endOf⟩

/-- The server's start is an empty board. -/
theorem represents_start (db : Database) : Represents (start db) (emptyBoard db) where
  partner _ := rfl
  idle _ _ h := nomatch h
  cid _ _ h := nomatch h
  fd _ _ h := nomatch h
  log _ := rfl

section
variable (hR : Represents s b)
include hR

/-- A connection is in a pair exactly if its `connectionFd` is set. -/
theorem Represents.partner_eq_some (hc : s.conn fd = some c) {id : Int} :
    b.pairing.partner fd = some (d, id) ↔ 0 ≤ c.connectionFd ∧ c.connectionFd = d ∧ c.cid = id := by
  rw [hR.partner, callOf, hc]
  simp only [Option.map_some, Option.bind_some, CallState.partner, SipConnection.call]
  split <;> simp_all

/-- A connection is free exactly if its `connectionFd` is not set. -/
theorem Represents.free_iff (hc : s.conn fd = some c) :
    b.pairing.Free fd ↔ c.connectionFd < 0 := by
  rw [Pairing.Free, hR.partner, callOf, hc]
  simp only [Option.map_some, Option.bind_some, CallState.partner, SipConnection.call]
  split <;> simp_all

/-- A connection in no call has no call field set. -/
theorem Represents.call_eq_idle (hc : s.conn fd = some c) (hfree : c.connectionFd < 0) :
    c.call = .idle :=
  hR.idle fd c.call (by rw [callOf, hc, Option.map_some]) hfree

/-- A descriptor in a pair has an entry. -/
theorem Represents.exists_conn {x : Int × Int} (hp : b.pairing.partner fd = some x) :
    ∃ c, s.conn fd = some c := by
  rw [hR.partner, callOf] at hp
  cases hc : s.conn fd with
  | none => simp [hc] at hp
  | some c => exact ⟨c, rfl⟩

/-! ## Steps of the switchboard -/

/-- Entries of free descriptors may come and go. -/
theorem Represents.outside (hcall : ∀ k, s'.callOf k = s.callOf k ∨ b.pairing.Free k ∧
      (s'.callOf k = none ∨ s'.callOf k = some .idle ∧ 0 ≤ k))
    (hcalls : s'.db.calls = s.db.calls) : Represents s' b := by
  refine ⟨fun k => ?_, fun k c hc => ?_, fun k c hc => ?_, fun k c hc => ?_, fun i => ?_⟩
  · rcases hcall k with h | ⟨hfree, h | ⟨h, -⟩⟩
    · rw [h, hR.partner]
    · rw [h, hfree]
      rfl
    · rw [h, hfree]
      rfl
  · rcases hcall k with h | ⟨-, h | ⟨h, -⟩⟩
    · exact hR.idle k c (h ▸ hc)
    · cases h.symm.trans hc
    · rw [h, Option.some.injEq] at hc
      exact fun _ => hc.symm
  · rcases hcall k with h | ⟨-, h | ⟨h, -⟩⟩
    · exact hR.cid k c (h ▸ hc)
    · cases h.symm.trans hc
    · rw [h, Option.some.injEq] at hc
      subst hc
      exact fun hlink => absurd hlink (by decide)
  · rcases hcall k with h | ⟨-, h | ⟨-, hk⟩⟩
    · exact hR.fd k c (h ▸ hc)
    · cases h.symm.trans hc
    · exact hk
  · rw [hR.log, Database.endOf_congr hcalls]

/-- What leaves the calls alone leaves the switchboard alone. -/
theorem Represents.same (h : SameCalls s s') : Represents s' b :=
  hR.outside (fun k => .inl (h.call k)) h.calls

/-- Hanging up in the table is hanging up on the switchboard. -/
theorem Represents.hangUp (hc : s.conn fd = some c) (hlink : 0 ≤ c.connectionFd)
    (h : HangsUpCall w fd c s s') : ∃ b' out,
      b.step (.hangUp fd w.sqlNow) = some (b', out) ∧ Represents s' b' ∧
      ∀ k, s'.media k = s.media k ++ Switchboard.mediaTo k out := by
  have hp : b.pairing.partner fd = some (c.connectionFd, c.cid) :=
    (hR.partner_eq_some hc).2 ⟨hlink, rfl, rfl⟩
  have hne := Pairing.ne_of_partner hp
  have hcall (k : Int) : s'.callOf k = if k = fd ∨ k = c.connectionFd then
      (s.callOf k).map fun _ => .idle else s.callOf k := by
    rw [h.call k]
    simp only [hlink, true_and, eq_comm]
  refine ⟨_, _, Switchboard.step_hangUp.2 ⟨_, _, hp, rfl, rfl⟩, ?_, fun k => ?_⟩
  · refine ⟨fun k => ?_, fun k x hx => ?_, fun k x hx => ?_, fun k x hx => ?_, fun i => ?_⟩
    · rw [Pairing.partner_hangUp hp, hcall]
      split
      · cases s.callOf k <;> rfl
      · exact hR.partner k
    · rw [hcall] at hx
      split at hx
      · obtain ⟨y, -, rfl⟩ := Option.map_eq_some_iff.1 hx
        exact fun _ => rfl
      · exact hR.idle k x hx
    · rw [hcall] at hx
      split at hx
      · obtain ⟨y, -, rfl⟩ := Option.map_eq_some_iff.1 hx
        exact fun hlink => absurd hlink (by decide)
      · exact hR.cid k x hx
    · rw [hcall] at hx
      split at hx
      · obtain ⟨y, hy, -⟩ := Option.map_eq_some_iff.1 hx
        exact hR.fd k y hy
      · exact hR.fd k x hx
    · have hended : c.endedCid fd = c.cid := if_neg fun hself => hne hself.2.symm
      rw [Database.endOf_congr h.calls, hended, Database.endOf_updateCallEnd, ← hR.log]
      rfl
  · rw [h.media k, List.append_assoc]
    simp only [hlink, true_and]
    congr 1
    by_cases hk : fd = k <;> by_cases hd : c.connectionFd = k <;>
      simp [Switchboard.mediaTo, hk, hd]

/-- A `BY` of a connection that is in no call only stops its media. -/
theorem Represents.stop (hc : s.conn fd = some c) (hfree : c.connectionFd < 0)
    (h : HangsUpCall w fd c s s') : ∃ out, b.step (.stop fd) = some (b, out) ∧ Represents s' b ∧
      ∀ k, s'.media k = s.media k ++ Switchboard.mediaTo k out := by
  have hidle := hR.call_eq_idle hc hfree
  refine ⟨_, Switchboard.step_stop.2 ⟨(hR.free_iff hc).2 hfree, rfl, rfl⟩, ?_, fun k => ?_⟩
  · have hcid : c.endedCid fd = -1 := by
      have : c.cid = -1 := congrArg CallState.cid hidle
      simp [SipConnection.endedCid, this]
    have hcall (k : Int) : s'.callOf k = s.callOf k := by
      rw [h.call k]
      split
      · next hk =>
          obtain rfl : fd = k := hk.resolve_right fun hlink => absurd hlink.1 (by omega)
          rw [callOf, hc, Option.map_some, Option.map_some, hidle]
      · rfl
    refine ⟨fun k => ?_, fun k x hx => ?_, fun k x hx => ?_, fun k x hx => ?_, fun i => ?_⟩
    · rw [hcall, hR.partner]
    · exact hR.idle k x (hcall k ▸ hx)
    · exact hR.cid k x (hcall k ▸ hx)
    · exact hR.fd k x (hcall k ▸ hx)
    · -- no row has the identifier `-1`
      rw [Database.endOf_congr h.calls, hcid, Database.endOf_updateCallEnd, hR.log]
      split
      · next hi =>
          rw [hi, Database.endOf_eq_none (.inl (by decide))]
          rfl
      · rfl
  · rw [h.media k, List.append_assoc]
    congr 1
    by_cases hk : fd = k <;> simp [Switchboard.mediaTo, hk, not_le.2 hfree]

/-- Putting a call through in the table is a join on the switchboard. -/
theorem Represents.join {port port' : Nat} {id : Int} {row : CallRow} (hc : s.conn fd = some c)
    (hd : s.conn d = some cd) (hfree : c.connectionFd < 0) (hfree' : cd.connectionFd < 0)
    (hne : fd ≠ d) (h : SetsUpCall w fd d cmds c cd port port' id row s s') : ∃ b' out,
      b.step (.join fd d id s.db.nextCallId) = some (b', out) ∧ Represents s' b' ∧
      ∀ k, s'.media k = s.media k ++ Switchboard.mediaTo k out := by
  have hlog : b.log s.db.nextCallId = none := by
    rw [hR.log, Database.endOf_eq_none (.inr le_rfl)]
  refine ⟨_, _, Switchboard.step_join.2 ⟨hne, (hR.free_iff hc).2 hfree, (hR.free_iff hd).2 hfree',
    hlog, rfl, rfl⟩, ?_, fun k => ?_⟩
  · have hid : 0 ≤ id := by
      obtain ⟨r, hr, rfl⟩ := Database.mem_of_selectLatestCall h.cid
      exact (s'.db.calls_bound r (Database.mem_latestCalls.1 hr).1).1.le
    refine ⟨fun k => ?_, fun k x hx => ?_, fun k x hx => ?_, fun k x hx => ?_, fun i => ?_⟩
    · rw [Pairing.partner_join, h.callOf k]
      by_cases hk : k = fd
      · subst hk
        rw [if_pos rfl, if_pos (.inl rfl), callOf, hc]
        simp [CallState.partner, hne.symm, hR.fd d cd.call (by rw [callOf, hd, Option.map_some])]
      · by_cases hk' : k = d
        · subst hk'
          rw [if_neg hk, if_pos rfl, if_pos (.inr rfl), callOf, hd]
          simp [CallState.partner, hR.fd fd c.call (by rw [callOf, hc, Option.map_some])]
        · rw [if_neg hk, if_neg hk', if_neg (by simp [Ne.symm hk, Ne.symm hk']), hR.partner]
    · rw [h.callOf k] at hx
      split at hx
      · obtain ⟨y, hy, rfl⟩ := Option.map_eq_some_iff.1 hx
        intro hneg
        have hfd := hR.fd fd c.call (by rw [callOf, hc, Option.map_some])
        have hd := hR.fd d cd.call (by rw [callOf, hd, Option.map_some])
        dsimp only at hneg
        split at hneg <;> omega
      · exact hR.idle k x hx
    · rw [h.callOf k] at hx
      split at hx
      · obtain ⟨y, hy, rfl⟩ := Option.map_eq_some_iff.1 hx
        exact fun _ => hid
      · exact hR.cid k x hx
    · rw [h.callOf k] at hx
      split at hx
      · obtain ⟨y, hy, -⟩ := Option.map_eq_some_iff.1 hx
        exact hR.fd k y hy
      · exact hR.fd k x hx
    · rw [h.db, Database.endOf_insertCall, h.endDatetime, ← hR.log]
  · rw [h.media k, List.append_assoc]
    congr 1
    by_cases hk : fd = k <;> by_cases hd : d = k <;> simp [Switchboard.mediaTo, hk, hd]

/-! ## `Logout` and `socketKill` -/

/-- `Logout` of a connection that is logged in, or in no call, hangs up the call it is in. -/
theorem Represents.logout (hc : s.conn fd = some c) (hin : 0 ≤ c.connectionFd → c.loggedIn)
    (h : s.logout w fd = some s') : ∃ acts b' out,
      Runs Switchboard.step (Switchboard.HangsUp w.sqlNow (· = fd)) b acts b' out ∧
      Represents s' b' ∧ b'.pairing.Free fd ∧
      ∀ k, s'.media k = s.media k ++ Switchboard.mediaTo k out := by
  by_cases hlink : 0 ≤ c.connectionFd
  · rcases logout_spec hc h with ⟨hout, -⟩ | ⟨-, hl⟩
    · exact absurd (hin hlink) (by simp [hout])
    · have hcid : 0 ≤ c.cid := hR.cid fd c.call (by rw [callOf, hc, Option.map_some]) hlink
      obtain ⟨b', out, hs, hR', hm⟩ := hR.hangUp hc hlink (hl.hangsUp hc hcid)
      refine ⟨_, b', out, .single ⟨fd, rfl, rfl⟩ hs, hR', ?_, hm⟩
      obtain ⟨x, v, hp, rfl, -⟩ := Switchboard.step_hangUp.1 hs
      simp [Pairing.Free, Pairing.partner_hangUp hp]
  · have hfree := not_le.1 hlink
    have hsame : SameCalls s s' := by
      rcases logout_spec hc h with ⟨-, rfl⟩ | ⟨-, hl⟩
      · exact .refl _
      · exact hl.sameCalls hc (hR.call_eq_idle hc hfree)
    exact ⟨[], b, [], .nil, hR.same hsame, (hR.free_iff hc).2 hfree, fun k => by
      rw [hsame.media, Switchboard.mediaTo_nil, List.append_nil]⟩

/-- `socketKill` of a connection that is logged in, or in no call, hangs up the call it is in. -/
theorem Represents.socketKill (hc : s.conn fd = some c)
    (hin : c.zombie = false → 0 ≤ c.connectionFd → c.loggedIn)
    (h : s.socketKill w fd = some s') : ∃ acts b' out,
      Runs Switchboard.step (Switchboard.HangsUp w.sqlNow fun k => k = fd ∧ c.zombie = false)
        b acts b' out ∧
      Represents s' b' ∧ (c.zombie = false → b'.pairing.Free fd) ∧
      ∀ k, s'.media k = s.media k ++ Switchboard.mediaTo k out := by
  rcases socketKill_spec hc h with ⟨hz, rfl⟩ | ⟨hz, s₁, h₁, rfl⟩
  · exact ⟨[], b, [], .nil, hR, fun hz' => (by simp [hz] at hz'), fun k => by simp⟩
  · obtain ⟨acts, b', out, hruns, hR', hfree, hm⟩ := hR.logout hc (hin hz) h₁
    refine ⟨acts, b', out, hruns.mono ?_, hR'.same (sameCalls_modifyConn fun _ => rfl),
      fun _ => hfree, hm⟩
    rintro _ _ ⟨a, rfl, rfl⟩
    exact ⟨a, rfl, rfl, hz⟩

end

/-! ## The moves of a step -/

/-- The event ends the call of `fd`: a `BY`, a kill or a missing ping. -/
def Ends (s : MainObject) (e : Event) (fd : Int) : Prop :=
  s.saysBye e = some fd ∨ s.killed e = some fd ∨ s.TimesOut e fd

/-- A command that ends a call is a `BY`, or kills. -/
theorem Ends.of_received (h : s.Ends e k) (hrec : s.received e = some (fd, c, cmds)) :
    k = fd ∧ (c.isAuthenticated ∧ cmds.at 0 = "BY" ∨
      ∃ code, (s.takeLine fd).killCode fd c cmds = some code) := by
  have hslot := slot_of_received hrec
  rcases h with hby | hkill | hto
  · obtain ⟨c', cmds', hrec', h⟩ := saysBye_eq_some.1 hby
    obtain ⟨rfl, rfl, rfl⟩ : fd = k ∧ c = c' ∧ cmds = cmds' := by simpa [hrec] using hrec'
    exact ⟨rfl, .inl h⟩
  · rcases killed_eq_some.1 hkill with ⟨hslot', -⟩ | ⟨c', cmds', code, hrec', -, hcode⟩
    · cases hslot.symm.trans hslot'
    · obtain ⟨rfl, rfl, rfl⟩ : fd = k ∧ c = c' ∧ cmds = cmds' := by simpa [hrec] using hrec'
      exact ⟨rfl, .inr ⟨code, hcode⟩⟩
  · cases hslot.symm.trans hto.1

/-- What sets up a call ends none. -/
theorem not_ends_of_putThrough {p : Int × Int} (h : s.putThrough e = some p) : ¬ s.Ends e k := by
  obtain ⟨c, cmds, hrec, hcallee⟩ := putThrough_eq_some.1 h
  obtain ⟨⟨h0, hauth, -⟩, -⟩ := callee_spec hcallee
  intro hends
  rcases (hends.of_received hrec).2 with ⟨-, hby⟩ | ⟨code, hcode⟩
  · exact absurd (h0.symm.trans hby) (by decide)
  · have hnone := @killCode_eq_none (s.takeLine p.1) p.1 _ _ hauth
      (by rw [h0]; decide) (by rw [h0]; decide)
    cases hnone.symm.trans hcode

/-- The event removes or replaces the entry of `fd`. -/
def Drops (s : MainObject) (e : Event) (fd : Int) : Prop :=
  match e.slot with
  | .zombieData => (s.conn fd).any (·.zombie)
  | .newConnection k _ => k = fd
  | _ => False

/-- The event keeps the calls in order. A call is set up between two different connections, of
which the caller is in no call (the handler only checks the callee). What is killed, or times
out, is in no call or is logged in, so that `Logout` ends the call; one that times out may also
have been released before its turn by a partner that times out, too. And an entry that is
removed or replaced as a zombie is in no call. -/
structure CallSafe (s : MainObject) (e : Event) : Prop where
  call : ∀ p ∈ s.putThrough e, (∀ c ∈ s.conn p.1, c.connectionFd < 0) ∧ p.1 ≠ p.2
  kill : ∀ fd ∈ s.killed e, ∀ c ∈ s.conn fd, c.connectionFd < 0 ∨ c.loggedIn
  ping : ∀ x ∈ s.sip_connections.toList, s.TimesOut e x.1 → 0 ≤ x.2.connectionFd →
    x.2.loggedIn ∨ x.2.connectionFd < x.1 ∧ s.TimesOut e x.2.connectionFd
  drop : ∀ x ∈ s.sip_connections.toList, s.Drops e x.1 → x.2.connectionFd < 0

instance (s : MainObject) (e : Event) (fd : Int) : Decidable (s.Drops e fd) := by
  unfold Drops
  split <;> infer_instance

instance (s : MainObject) (e : Event) : Decidable (CallSafe s e) :=
  decidable_of_iff
    ((∀ p ∈ s.putThrough e, (∀ c ∈ s.conn p.1, c.connectionFd < 0) ∧ p.1 ≠ p.2) ∧
      (∀ fd ∈ s.killed e, ∀ c ∈ s.conn fd, c.connectionFd < 0 ∨ c.loggedIn) ∧
      (∀ x ∈ s.sip_connections.toList, s.TimesOut e x.1 → 0 ≤ x.2.connectionFd →
        x.2.loggedIn ∨ x.2.connectionFd < x.1 ∧ s.TimesOut e x.2.connectionFd) ∧
      ∀ x ∈ s.sip_connections.toList, s.Drops e x.1 → x.2.connectionFd < 0)
    ⟨fun ⟨h₁, h₂, h₃, h₄⟩ => ⟨h₁, h₂, h₃, h₄⟩, fun ⟨h₁, h₂, h₃, h₄⟩ => ⟨h₁, h₂, h₃, h₄⟩⟩

/-- What a step of the server does on the switchboard. -/
inductive Moves (s : MainObject) (e : Event) (b : Switchboard) :
    Switchboard → List (Int × Media) → Prop
  | hangUps {acts b' out} :
      Runs Switchboard.step (Switchboard.HangsUp e.world.sqlNow (s.Ends e)) b acts b' out →
      Moves s e b b' out
  | join {a d id b' out} : s.putThrough e = some (a, d) →
      b.step (.join a d id s.db.nextCallId) = some (b', out) →
      ((∀ c ∈ s.conn a, s.db.FindsInserted c.uid e.world.seconds e.world.pick) →
        id = s.db.nextCallId) →
      Moves s e b b' out
  | stop {a out} : s.saysBye e = some a → b.step (.stop a) = some (b, out) → Moves s e b b out

/-- The moves of a command. -/
theorem Represents.command (hR : Represents s b) (hP : CallSafe s e)
    (hslot : e.slot = .socketReady fd '!') (hc : s.conn fd = some c)
    (h : Outcome env e.world (s.takeLine fd) fd c.clearLine (tokens c) s') :
    ∃ b' out, Moves s e b b' out ∧ Represents s' b' ∧
      ∀ k, s'.media k = s.media k ++ Switchboard.mediaTo k out := by
  have hrec := received_eq hslot hc
  have htake : SameCalls s (s.takeLine fd) := sameCalls_takeLine
  have hR' := hR.same htake
  have hc' : (s.takeLine fd).conn fd = some c.clearLine := by
    rw [takeLine, conn_modifyConn, if_pos rfl, hc, Option.map_some]
  rcases h.calls with hsame | ⟨code, hcode, hkill⟩ | ⟨d, cd, hcallee, hd, hsetup⟩ |
    ⟨h0, hauth, hend⟩
  · exact ⟨b, [], .hangUps .nil, hR'.same hsame, fun k => by
      rw [hsame.media, htake.media, Switchboard.mediaTo_nil, List.append_nil]⟩
  · have hq : SameCalls (s.takeLine fd) ((s.takeLine fd).sendCommand fd (erCommand code)) :=
      sameCalls_sendCommand rfl
    have hkilled (hz : c.zombie = false) : s.killed e = some fd := by
      simp [killed, hslot, hrec, hz, hcode]
    obtain ⟨acts, b', out, hruns, hR'', -, hm⟩ := (hR'.same hq).socketKill hc' (fun hz hlink =>
      (hP.kill fd (hkilled hz) c hc).resolve_left (not_lt.2 hlink)) hkill
    refine ⟨b', out, .hangUps (hruns.mono ?_), hR'', fun k => ?_⟩
    · rintro _ _ ⟨a, rfl, rfl, hz⟩
      exact ⟨a, rfl, .inr (.inl (hkilled hz))⟩
    · rw [hm, hq.media, htake.media]
  · have hput : s.putThrough e = some (fd, d) := by
      simp [putThrough, hrec, hcallee]
    obtain ⟨port, port', id, row, hset⟩ := setupCall_spec hc' hd hsetup
    obtain ⟨hfree, hne⟩ := hP.call _ hput
    obtain ⟨-, u, -, -, -, cd', hcd', hfree'⟩ := callee_spec hcallee
    obtain rfl : cd = cd' := Option.some.inj (hd.symm.trans hcd')
    obtain ⟨b', out, hs, hR'', hm⟩ := hR'.join hc' hd (hfree c hc) hfree' hne hset
    exact ⟨b', out, .join hput hs fun hfinds => hset.cid_eq (hfinds c hc), hR'',
      fun k => by rw [hm, htake.media]⟩
  · have hby : s.saysBye e = some fd := by
      rw [saysBye, hrec]
      exact if_pos ⟨hauth, h0⟩
    have hhang := (endCall_spec hc' hend).hangsUp
    by_cases hlink : 0 ≤ c.connectionFd
    · obtain ⟨b', out, hs, hR'', hm⟩ := hR'.hangUp hc' hlink hhang
      refine ⟨b', out, .hangUps (.single ⟨fd, rfl, .inl hby⟩ hs), hR'', fun k => ?_⟩
      rw [hm, htake.media]
    · obtain ⟨out, hs, hR'', hm⟩ := hR'.stop hc' (not_le.1 hlink) hhang
      exact ⟨b, out, .stop hby hs, hR'', fun k => by rw [hm, htake.media]⟩

/-- What holds between the turns of the ping sweep: the moves so far are hang-ups. -/
def SweepMoves (s : MainObject) (e : Event) (b : Switchboard) (s₁ : MainObject) : Prop :=
  ∃ acts b₁ out,
    Runs Switchboard.step (Switchboard.HangsUp e.world.sqlNow (s.Ends e)) b acts b₁ out ∧
    Represents s₁ b₁ ∧ ∀ k, s₁.media k = s.media k ++ Switchboard.mediaTo k out

/-- A turn of the ping sweep hangs up the call of what it removes. -/
theorem SweepMoves.turn {done : List Int} {s₂ : MainObject} (hR₀ : Represents s b)
    (hP : CallSafe s e) (hslot : e.slot = .pingTimerData)
    (ht : PingTurn e.world s done fd c s₁ s₂) (hI : SweepMoves s e b s₁) : SweepMoves s e b s₂ := by
  obtain ⟨acts, b₁, out, hruns, hR, hm⟩ := hI
  have hc := ht.conn
  obtain ⟨c₀, hc₀, hsame⟩ := ht.same
  rcases ht.turn with ⟨-, rfl⟩ | ⟨hto, s₃, hout, rfl⟩
  · have hq : SameCalls s₁ (s₁.sendCommand fd "PG!") := sameCalls_sendCommand rfl
    exact ⟨acts, b₁, out, hruns, hR.same hq, fun k => by rw [hq.media, hm]⟩
  · have htimes : s.TimesOut e fd := ⟨hslot, ht.timedOut.trans hto⟩
    have hin : 0 ≤ c.connectionFd → c.loggedIn := by
      intro hlink
      -- a pair that is left was there before the sweep
      have hp₁ := (hR.partner_eq_some hc).2 ⟨hlink, rfl, rfl⟩
      have hp := Switchboard.hangsUp_partner hruns hp₁
      have hd := ((hR₀.partner_eq_some hc₀).1 hp).2.1
      rcases hP.ping (fd, c₀) (mem_toList.2 hc₀) htimes (hd ▸ hlink) with hin | ⟨hlt, hto'⟩
      · simpa [← hsame] using (SipConnection.loggedIn_clearCall c₀).trans hin
      · -- a partner that has timed out with a smaller descriptor is gone
        rw [hd] at hlt hto'
        have hdone := ht.before _ hlt (hR₀.exists_conn (b.pairing.symm hp))
        have hgone := ht.swept c.connectionFd
        rw [if_pos ⟨hdone, hto'.2⟩] at hgone
        obtain ⟨x, hx⟩ := hR.exists_conn (b₁.pairing.symm hp₁)
        simp [hx] at hgone
    obtain ⟨acts', b', out', hruns', hR', hfree, hm'⟩ := hR.logout hc hin hout
    refine ⟨acts ++ acts', b', out ++ out', hruns.append (hruns'.mono ?_), ?_, fun k => ?_⟩
    · rintro _ _ ⟨a, rfl, rfl⟩
      exact ⟨a, rfl, .inr (.inr htimes)⟩
    · refine hR'.outside (fun k => ?_) rfl
      rw [callOf, callOf, conn_eraseConn]
      split
      · next hk => exact .inr ⟨hk ▸ hfree, .inl rfl⟩
      · exact .inl rfl
    · rw [Switchboard.mediaTo_append, ← List.append_assoc, ← hm, ← hm']
      rfl

/-- The moves of the ping sweep. -/
theorem Represents.pingTimerData (hR : Represents s b) (hP : CallSafe s e)
    (hslot : e.slot = .pingTimerData) (h : s.pingTimerData e.world = some s') :
    SweepMoves s e b s' :=
  (pingTimerData_rule (I := fun _ => SweepMoves s e b) h
    ⟨[], b, [], .nil, hR, fun k => by simp⟩
    fun _ _ _ _ _ ht hI => hI.turn hR hP hslot ht).1

/-! ## A step of the server is a move of the switchboard -/

/-- The moves of a slot. -/
theorem Represents.transition (hR : Represents s b) (hP : CallSafe s e)
    (h : Transition env e.world s e.slot s') : ∃ b' out, Moves s e b b' out ∧ Represents s' b' ∧
      ∀ k, s'.media k = s.media k ++ Switchboard.mediaTo k out := by
  obtain ⟨slot, w⟩ := e
  cases h with
  | @newConnection fd peer hfd hz =>
      refine ⟨b, [], .hangUps .nil, hR.outside (fun k => ?_) rfl, fun k => by simp [media]⟩
      rw [callOf, callOf, conn_insertConn]
      split
      · next hk =>
          subst hk
          refine .inr ⟨?_, .inr ⟨rfl, hfd⟩⟩
          cases hc : s.conn fd with
          | none => rw [Pairing.Free, hR.partner, callOf, hc]; rfl
          | some c => exact (hR.free_iff hc).2 (hP.drop (fd, c) (mem_toList.2 hc) rfl)
      · exact .inl rfl
  | @byte fd ch c hb hc =>
      have hsame : SameCalls s (s.modifyConn fd (SipConnection.appendLine ch)) :=
        sameCalls_modifyConn fun _ => rfl
      exact ⟨b, [], .hangUps .nil, hR.same hsame, fun k => by simp [hsame.media]⟩
  | command hc ho => exact hR.command hP rfl hc ho
  | @socketKill fd c _ hc hk =>
      have hkilled (hz : c.zombie = false) : s.killed ⟨.socketKill fd, w⟩ = some fd := by
        simp [killed, hc, hz]
      obtain ⟨acts, b', out, hruns, hR', -, hm⟩ := hR.socketKill hc (fun hz hlink =>
        (hP.kill fd (hkilled hz) c hc).resolve_left (not_lt.2 hlink)) hk
      refine ⟨b', out, .hangUps (hruns.mono ?_), hR', hm⟩
      rintro _ _ ⟨a, rfl, rfl, hz⟩
      exact ⟨a, rfl, .inr (.inl (hkilled hz))⟩
  | zombieData =>
      obtain ⟨hconn, hdb, hsent⟩ := zombieData_spec s
      refine ⟨b, [], .hangUps .nil, hR.outside (fun k => ?_) (by rw [hdb]), fun k => ?_⟩
      · rw [callOf, callOf, hconn]
        cases hc : s.conn k with
        | none => exact .inl rfl
        | some c =>
            by_cases hz : c.zombie = true
            · refine .inr ⟨(hR.free_iff hc).2 (hP.drop (k, c) (mem_toList.2 hc) ?_), .inl ?_⟩
              · simp [Drops, hc, hz]
              · simp [hz]
            · exact .inl (by simp [hz])
      · rw [media, media, sentTo, sentTo, hsent]
        simp
  | pingTimerData hp =>
      obtain ⟨acts, b', out, hruns, hR', hm⟩ := hR.pingTimerData hP rfl hp
      exact ⟨b', out, .hangUps hruns, hR', hm⟩

/-- What ends the call of a connection leaves it without one. -/
theorem Represents.ends (hR : Represents s b) (hP : CallSafe s e)
    (h : runSlot env s e = some s') (hends : s.Ends e k) (hc : s'.conn k = some c) :
    c.connectionFd < 0 := by
  rcases hends with hby | hkill | hto
  · obtain ⟨c₀, hc₀, hrun⟩ := runSlot_saysBye env hby
    rw [(endCall_spec hc₀ (hrun.symm.trans h)).conn, if_pos (.inl rfl), hc₀, Option.map_some,
      Option.some.injEq] at hc
    rw [← hc]
    exact (by decide : (-1 : Int) < 0)
  · obtain ⟨s₀, c₀, hc₀, hz, hs₀, hrun⟩ := runSlot_killed env hkill
    have hsafe := hP.kill k hkill
    obtain ⟨hR₀, hin⟩ : Represents s₀ b ∧ (c₀.connectionFd < 0 ∨ c₀.loggedIn) := by
      rcases hs₀ with rfl | ⟨code, rfl⟩
      · exact ⟨hR, hsafe c₀ hc₀⟩
      · refine ⟨(hR.same sameCalls_takeLine).same (sameCalls_sendCommand rfl), ?_⟩
        rw [conn_sendCommand, takeLine, conn_modifyConn, if_pos rfl,
          Option.map_eq_some_iff] at hc₀
        obtain ⟨c₁, hc₁, rfl⟩ := hc₀
        exact hsafe c₁ hc₁
    obtain ⟨_, b', _, -, hR', hfree, -⟩ := hR₀.socketKill hc₀
      (fun _ hlink => hin.resolve_left (not_lt.2 hlink)) (hrun.symm.trans h)
    exact (hR'.free_iff hc).1 (hfree hz)
  · obtain ⟨slot, w⟩ := e
    obtain ⟨rfl, hto⟩ := hto
    obtain ⟨x, hx, -⟩ := (Option.any_eq_true _ _).1 hto
    have hswept := (pingTimerData_rule (I := fun _ _ => True) h trivial
      fun _ _ _ _ _ _ _ => trivial).2 k
    rw [if_pos ⟨mem_fds.2 ⟨x, hx⟩, hto⟩, hc] at hswept
    cases hswept

/-- What has been sent plays no part in the links. -/
theorem represents_flush (hR : Represents s b) : Represents s.flush b :=
  hR.outside (fun _ => .inl rfl) rfl

/-- What has been sent plays no part in the condition. -/
theorem callSafe_flush (hP : CallSafe s e) : CallSafe s.flush e :=
  ⟨hP.call, hP.kill, hP.ping, hP.drop⟩

/-- What ends the call of a connection in a step leaves it without one. -/
theorem step_ends {out : List Output} (hR : Represents s b) (hP : CallSafe s e)
    (h : step env s e = some (s', out)) (hends : s.Ends e k) (hc : s'.conn k = some c) :
    c.connectionFd < 0 := by
  obtain ⟨s₁, h₁, rfl, -⟩ := step_runSlot h
  exact (represents_flush hR).ends (callSafe_flush hP) h₁ hends hc

/-- What had been sent before plays no part in the moves. -/
theorem moves_flush {mout : List (Int × Media)} (h : Moves s.flush e b b' mout) :
    Moves s e b b' mout := by
  cases h with
  | hangUps h => exact .hangUps h
  | join hput hs hfinds => exact .join hput hs hfinds
  | stop hby hs => exact .stop hby hs

/-- **The step lemma.** A step that keeps the calls in order is a move of the switchboard, and
tells each client about its media what the move does. -/
theorem step_moves {out : List Output} (hR : Represents s b) (hP : CallSafe s e)
    (h : step env s e = some (s', out)) : ∃ b' mout, Moves s e b b' mout ∧ Represents s' b' ∧
      ∀ k, mediaIn (commandsTo k out) = Switchboard.mediaTo k mout := by
  obtain ⟨s₁, htr, rfl, rfl⟩ := step_transition h
  obtain ⟨b', mout, hmoves, hR', hm⟩ := (represents_flush hR).transition (callSafe_flush hP) htr
  exact ⟨b', mout, moves_flush hmoves, represents_flush hR', hm⟩

/-- A move is a run of the switchboard. -/
theorem Moves.runs {mout : List (Int × Media)} (h : Moves s e b b' mout) :
    ∃ acts, Runs Switchboard.step Always b acts b' mout := by
  cases h with
  | hangUps h => exact ⟨_, h.mono fun _ _ _ => trivial⟩
  | join _ hs _ => exact ⟨_, .single trivial hs⟩
  | stop _ hs => exact ⟨_, .single trivial hs⟩

/-- Server output that shows each client the media commands in some output of the board. -/
def Shows (out : List Output) (mout : List (Int × Media)) : Prop :=
  ∀ k, mediaIn (commandsTo k out) = Switchboard.mediaTo k mout

/-- **The server refines the switchboard.** Every run whose steps keep the calls in order is a
run of the switchboard; what its acts are like depends on the condition that its steps meet. -/
theorem runs_refine {P : MainObject → Event → Prop} {P' : Switchboard → Switchboard.Act → Prop}
    {db : Database} {es : List Event} {tr : List Output} (hP : ∀ s e, P s e → CallSafe s e)
    (hmoves : ∀ s e b b' mout, P s e → Moves s e b b' mout →
      ∃ acts, Runs Switchboard.step P' b acts b' mout)
    (h : Runs (step env) P (start db) es s tr) : ∃ acts b mtr,
      Runs Switchboard.step P' (emptyBoard db) acts b mtr ∧ Represents s b ∧ Shows tr mtr := by
  refine h.refines (O := Shows) (fun k => rfl) ?_ ?_ (represents_start db)
  · intro out out' tr tr' h h' k
    rw [commandsTo_append, mediaIn_append, h k, h' k, Switchboard.mediaTo_append]
  · intro s b e s' out hR hPe hs
    obtain ⟨b', mout, hm, hR', hshows⟩ := step_moves hR (hP s e hPe) hs
    obtain ⟨acts, hruns⟩ := hmoves s e b b' mout hPe hm
    exact ⟨acts, b', mout, hruns, hR', hshows⟩

/-- Every run of the server is one of the switchboard. -/
theorem runs_represents {db : Database} {es : List Event} {tr : List Output}
    (h : Runs (step env) CallSafe (start db) es s tr) : ∃ acts b mtr,
      Runs Switchboard.step Always (emptyBoard db) acts b mtr ∧ Represents s b ∧ Shows tr mtr :=
  runs_refine (fun _ _ hP => hP) (fun _ _ _ _ _ _ hm => hm.runs) h

end MainObject

end NetISDN
