import NetISDN.Server.Endpoints
import NetISDN.Server.Identity
import NetISDN.Server.LinkSafety
import NetISDN.Server.Lines

/-!
# What the clients have been told

The controller of the media is the server. `told k` is what the client on `k` has been told to do,
once it has read everything that was sent to it: those whose connection is in a call have been told
to send somewhere, the others nothing, and the two ends of a call have been told to send to each
other (`Tells`). Each step of the server sends the instructions that lead from the old `told` to a
new one (`Controls.step`).
-/

namespace NetISDN

open AudioSettings ControlConnect Steering TransitionSystem

/-! ## The two ends of a call -/

/-- The other direction. -/
def AudioSettings.Direction.other : Direction → Direction
  | .transmit => .receive
  | .receive => .transmit

/-- Each end sends to the port at which the other listens, in the format that the other decodes. -/
structure Matching (m m' : MediaStart) : Prop where
  ports : m.src_port = m'.dest_port ∧ m.dest_port = m'.src_port
  formats : ∀ dir, m.settings.set_format dir = m'.settings.set_format dir.other
  channels : ∀ dir, m.settings.set_channels dir = m'.settings.set_channels dir.other

/-- Each of the two is matched by the other. -/
theorem Matching.symm {m m' : MediaStart} (h : Matching m m') : Matching m' m where
  ports := ⟨h.ports.2.symm, h.ports.1.symm⟩
  formats
    | .transmit => (h.formats .receive).symm
    | .receive => (h.formats .transmit).symm
  channels
    | .transmit => (h.channels .receive).symm
    | .receive => (h.channels .transmit).symm

namespace ControlConnect

variable {name name' : QString} {port port' : Nat} {addr addr' : QHostAddress} {ts : QStringList}

/-- What an `ME` with these tokens says. -/
def mediaStartOf (name : QString) (port : Nat) (addr : QHostAddress) (port' : Nat)
    (ts : QStringList) : MediaStart :=
  ⟨BitVec.ofNat 16 port, addr, BitVec.ofNat 16 port',
    mediaSettings (mediaTokens name port addr port' ts)⟩

/-- An `ME` of the server is an instruction. -/
theorem instructionOf_mediaTokens (hname : IsName name) (haddr : addr.isNull = false)
    (hport : port < 2 ^ 16) (hport' : port' < 2 ^ 16) (hlen : ts.length = 10)
    (hts : ∀ t ∈ ts, IsName t) :
    instructionOf (join [' '] (mediaTokens name port addr port' ts) ++ ['!']) =
      some (.on (mediaStartOf name port addr port' ts)) := by
  have htokens : ∀ t ∈ mediaTokens name port addr port' ts, IsName t := by
    simp only [mediaTokens, List.forall_mem_cons]
    exact ⟨⟨by decide, by decide, by decide⟩, hname, isName_number port,
      ⟨QHostAddress.toString_ne_nil, QHostAddress.not_mem_toString rfl (by decide),
        QHostAddress.not_mem_toString rfl (by decide)⟩, isName_number port', hts⟩
  have hlen' : (mediaTokens name port addr port' ts).length = 15 := by simp [mediaTokens, hlen]
  have haddr' : QHostAddress.setAddress ((mediaTokens name port addr port' ts).at 3) = addr :=
    QHostAddress.setAddress_toString
  have hsrc : toInt? ((mediaTokens name port addr port' ts).at 2) = some (port : Int) :=
    toInt?_sprintfU (by omega)
  have hdest : toInt? ((mediaTokens name port addr port' ts).at 4) = some (port' : Int) :=
    toInt?_sprintfU (by omega)
  have hoffer : offer (mediaTokens name port addr port' ts) =
      some (mediaStartOf name port addr port' ts) := by
    rw [offer, if_neg (not_not.2 hlen')]
    simp only [haddr', haddr, hsrc, hdest, Bool.false_eq_true, if_false, BitVec.ofInt_natCast]
    rfl
  have hME : (mediaTokens name port addr port' ts).at 0 = "ME".toList := rfl
  rw [instructionOf, List.dropLast_concat,
    split_join fun t ht => ⟨(htokens t ht).ne_nil, (htokens t ht).no_space⟩, instruction,
    if_pos hME, hoffer, Option.map_some]

/-- The tokens behind the port of an `ME` to the caller. -/
def callerNumbers (cmds : QStringList) : QStringList :=
  ([2, 3, 4, 5, 6, 7, 8, 9, 10].map fun i => sprintfU (toUInt (cmds.at i))) ++
    [sprintfD (toInt32 (toUInt (cmds.at 11)))]

/-- The tokens behind the port of an `ME` to the callee. -/
def calleeNumbers (cmds : QStringList) : QStringList :=
  [8, 9, 10, 11, 12, 13, 2, 3, 4, 5].map fun i => sprintfU (toUInt (cmds.at i))

/-- The numbers that the caller is told are words. -/
theorem isName_callerNumbers (cmds : QStringList) : ∀ t ∈ callerNumbers cmds, IsName t := by
  intro t ht
  rcases List.mem_append.1 ht with ht | ht
  · obtain ⟨i, -, rfl⟩ := List.mem_map.1 ht
    exact isName_number _
  · obtain rfl := List.mem_singleton.1 ht
    exact isName_int _

/-- The numbers that the callee is told are words. -/
theorem isName_calleeNumbers (cmds : QStringList) : ∀ t ∈ calleeNumbers cmds, IsName t := by
  intro t ht
  obtain ⟨i, -, rfl⟩ := List.mem_map.1 ht
  exact isName_number _

/-- What the two ends of a call are told matches. -/
theorem matching_numbers (cmds : QStringList) :
    Matching (mediaStartOf name port addr port' (callerNumbers cmds))
      (mediaStartOf name' port' addr' port (calleeNumbers cmds)) where
  ports := ⟨rfl, rfl⟩
  formats dir := by cases dir <;> rfl
  channels dir := by cases dir <;> rfl

/-- Commands that start nothing are instructions to stop, or none. -/
theorem instructionsIn_of_stops {cmds : List QString} (hcmds : ∀ cmd ∈ cmds, IsCommand cmd)
    (hstart : Media.start ∉ mediaIn cmds) :
    instructionsIn cmds = (mediaIn cmds).map fun _ => .off := by
  induction cmds with
  | nil => rfl
  | cons cmd cmds ih =>
      obtain ⟨hcmd, hcmds⟩ := List.forall_mem_cons.1 hcmds
      rw [mediaIn, List.filterMap_cons] at hstart ⊢
      rw [instructionsIn_cons]
      cases hmedia : mediaOf cmd with
      | none =>
          rw [hmedia] at hstart
          rw [hcmd.none hmedia]
          exact ih hcmds hstart
      | some m =>
          rw [hmedia] at hstart
          cases m with
          | start => exact absurd List.mem_cons_self hstart
          | stop =>
              rw [hcmd.stop hmedia]
              exact congrArg (Instruction.off :: ·)
                (ih hcmds fun hmem => hstart (List.mem_cons_of_mem _ hmem))

end ControlConnect

namespace MainObject

variable {env : Env} {s s' : MainObject} {e : Event} {k d : Int} {c cd : SipConnection}
  {out : List Output} {told : Int → Option MediaStart} {b b' : Switchboard}

/-- The answer of MySQL to the query for the name in the `LI` or `CA` that an event completes. -/
def queried (s : MainObject) (e : Event) : Option UserRow :=
  (s.received e).bind fun (_, _, cmds) =>
    if cmds.at 0 = "LI" ∨ cmds.at 0 = "CA" then e.world.lookup s.db (cmds.at 1) else none

/-- What is asked of MySQL where a command names someone. -/
theorem queried_eq {cmds : QStringList} (hrec : s.received e = some (k, c, cmds))
    (h0 : cmds.at 0 = "LI" ∨ cmds.at 0 = "CA") :
    s.queried e = e.world.lookup s.db (cmds.at 1) := by
  rw [queried, hrec]
  exact if_pos h0

/-- What an `LI` identifies is what MySQL has answered. -/
theorem queried_of_identified {u : UserRow} (h : s.identified e = some (k, u)) :
    s.queried e = some u := by
  obtain ⟨c, cmds, hrec, hu⟩ := identified_eq_some.1 h
  rw [namedUser] at hu
  split at hu
  · next hLI => exact (queried_eq hrec (.inl hLI.1)).trans hu
  · cases hu

/-- MySQL answers the query for a name with a row of `USERS`, if at all, and the query of an `LI`
with a row whose name a command can carry. -/
structure LooksUp (s : MainObject) (e : Event) : Prop where
  users : ∀ u ∈ s.queried e, u ∈ s.db.users
  names : NameSafe s e

instance (s : MainObject) (e : Event) : Decidable (LooksUp s e) :=
  decidable_of_iff ((s.queried e).all (fun u => s.db.users.contains u) = true ∧ NameSafe s e) <| by
    have husers : (s.queried e).all (fun u => s.db.users.contains u) = true ↔
        ∀ u ∈ s.queried e, u ∈ s.db.users := by
      cases s.queried e with
      | none => exact iff_of_true rfl nofun
      | some u => simp
    rw [husers]
    exact ⟨fun ⟨h₁, h₂⟩ => ⟨h₁, h₂⟩, fun ⟨h₁, h₂⟩ => ⟨h₁, h₂⟩⟩

/-- A connection that has logged in and is alive has a `uid`. -/
def LogsInKnown (s : MainObject) : Prop :=
  ∀ k a, s.accountOf k = some a → a.isAuthenticated → a.zombie = false → a.uid ≠ 0

/-- A login keeps to it as long as MySQL finds rows of `USERS`. -/
theorem LogsInKnown.step (h : LogsInKnown s) (hnamed : ∀ p ∈ s.identified e, p.2 ∈ s.db.users)
    (hs : step env s e = some (s', out)) : LogsInKnown s' := by
  intro k a ha hauth hz
  cases step_accountMove hs with
  | same hacc => exact h k a ((hacc k).symm.trans ha) hauth hz
  | connect _ _ hacc =>
      rw [hacc] at ha
      split at ha
      · rw [← Option.some.inj ha] at hauth
        cases hauth
      · exact h k a ha hauth hz
  | @kill fd a₀ _ _ hacc =>
      rw [hacc] at ha
      split at ha
      · have hzombie : a₀.kill.zombie = true := by
          unfold Account.kill
          split
          · next hz₀ => exact hz₀
          · rfl
        rw [← Option.some.inj ha, hzombie] at hz
        cases hz
      · exact h k a ha hauth hz
  | @identify fd u a₀ hident _ hacc =>
      rw [hacc] at ha
      split at ha
      · rw [← Option.some.inj ha]
        exact (s.db.users_pos u (hnamed (fd, u) hident)).ne'
      · exact h k a ha hauth hz
  | @accept fd a₀ haccepted ha₀ hacc =>
      rw [hacc] at ha
      split at ha
      · obtain ⟨c, cmds, hrec, h0, hcode⟩ := accepted_eq_some.1 haccepted
        obtain ⟨c₀, hc₀, rfl, -⟩ := conn_of_received hrec
        obtain rfl : c₀.account = a₀ := by simpa [accountOf, hc₀] using ha₀
        rw [← Option.some.inj ha]
        exact ((killCode_password h0).1 hcode).2.1
      · exact h k a ha hauth hz
  | purge _ hacc =>
      rw [hacc] at ha
      exact h k a (Option.filter_eq_some_iff.1 ha).1 hauth hz
  | sweep _ hacc =>
      rw [hacc] at ha
      split at ha
      · cases ha
      · exact h k a ha hauth hz

/-! ## The server as a controller -/

/-- Those in a call, and only they, have been told to send somewhere, and the ends of each call have
been told what matches. -/
structure Tells (s : MainObject) (told : Int → Option MediaStart) : Prop where
  linked : ∀ k, (told k).isSome ↔ ∃ c, s.conn k = some c ∧ 0 ≤ c.connectionFd
  matching : ∀ k c m m', s.conn k = some c → told k = some m → told c.connectionFd = some m' →
    Matching m m'

/-- What a server keeps that has its clients' media under control. -/
structure Controls (s : MainObject) (told : Int → Option MediaStart) : Prop where
  links : LinkInv s
  worded : AllConns Worded s
  known : LogsInKnown s
  tells : Tells s told

/-- The addresses at which the ends of a call are announced that the event sets up are addresses. -/
def Announces (s : MainObject) (e : Event) : Prop :=
  ∀ p ∈ s.putThrough e, ∀ c ∈ s.conn p.1, ∀ cd ∈ s.conn p.2,
    (callAddrs c cd).1.isNull = false ∧ (callAddrs c cd).2.isNull = false

instance (s : MainObject) (e : Event) : Decidable (Announces s e) := by
  unfold Announces
  infer_instance

/-- Who is linked is in a pair. -/
theorem Represents.linkedConn_iff (hR : Represents s b) :
    (∃ c, s.conn k = some c ∧ 0 ≤ c.connectionFd) ↔ b.pairing.partner k ≠ none := by
  constructor
  · rintro ⟨c, hc, hlink⟩
    rw [(hR.partner_eq_some hc).2 ⟨hlink, rfl, rfl⟩]
    exact Option.some_ne_none _
  · intro hne
    obtain ⟨⟨d, id⟩, hp⟩ := Option.ne_none_iff_exists'.1 hne
    obtain ⟨c, hc⟩ := hR.exists_conn hp
    exact ⟨c, hc, ((hR.partner_eq_some hc).1 hp).1⟩

/-- At the start nobody has been told anything. -/
theorem tells_start (db : Database) : Tells (start db) fun _ => none :=
  ⟨fun _ => ⟨fun h => (nomatch h), fun ⟨_, hc, _⟩ => (nomatch hc)⟩, fun _ _ _ _ hc => nomatch hc⟩

/-- At the start nobody is controlled. -/
theorem controls_start (db : Database) : Controls (start db) fun _ => none :=
  ⟨⟨⟨_, represents_start db⟩, fun _ _ hc => (nomatch hc)⟩, worded_start db, fun _ _ ha =>
    (nomatch ha),
    tells_start db⟩

/-- What each client is told when the board hangs up: to stop, if it was in a pair that is gone. -/
theorem Tells.hangUps {acts : List Switchboard.Act} {mout : List (Int × Media)} {now : Nat}
    {Q : Int → Prop} (h : Tells s told) (hR : Represents s b) (hR' : Represents s' b')
    (hruns : Runs Switchboard.step (Switchboard.HangsUp now Q) b acts b' mout)
    (hcmds : ∀ k, ∀ cmd ∈ commandsTo k out, IsCommand cmd)
    (hmedia : ∀ k, mediaIn (commandsTo k out) = Switchboard.mediaTo k mout) :
    ∃ told', Tells s' told' ∧
      ∀ k, obeyAll (told k) (instructionsIn (commandsTo k out)) = some (told' k) := by
  have hkept (k : Int) := Switchboard.hangsUp_media (k := k) hruns
  refine ⟨fun k => if b'.pairing.partner k = b.pairing.partner k then told k else none,
    ⟨fun k => ?_, fun k c m m' hc hm hm' => ?_⟩, fun k => ?_⟩
  · rw [hR'.linkedConn_iff]
    split
    · next hsame => rw [h.linked, hR.linkedConn_iff, hsame]
    · next hdiff => simp [(hkept k).2.resolve_left hdiff]
  · obtain ⟨hsame, hm⟩ := Option.ite_none_right_eq_some.1 hm
    obtain ⟨-, hm'⟩ := Option.ite_none_right_eq_some.1 hm'
    -- a pair that is left was there before
    obtain ⟨c₀, hc₀, hlink⟩ := (h.linked k).1 (by rw [hm]; rfl)
    have hp := (hR.partner_eq_some hc₀).2 ⟨hlink, rfl, rfl⟩
    obtain ⟨-, heq, -⟩ := (hR'.partner_eq_some hc).1 (hsame.trans hp)
    exact h.matching k c₀ m m' hc₀ hm (heq ▸ hm')
  · have hm := (hkept k).1
    rw [← hmedia] at hm
    have hstart : Media.start ∉ mediaIn (commandsTo k out) := by
      rw [hm]
      split <;> simp
    rw [instructionsIn_of_stops (hcmds k) hstart, hm]
    by_cases hsame : b'.pairing.partner k = b.pairing.partner k
    · simp [hsame]
    · simp [hsame]

/-- What is sent to the ends of a call that is put through. -/
theorem SetsUpCall.instructions {w : World} {fd : Int} {cmds : QStringList} {port port' : Nat}
    {id : Int} {row : CallRow} (h : SetsUpCall w fd d cmds c cd port port' id row s s')
    (hne : fd ≠ d) (hempty : ∀ k, s.sentTo k = []) (hc : IsName c.username)
    (hd : IsName cd.username)
    (haddr : (callAddrs c cd).1.isNull = false ∧ (callAddrs c cd).2.isNull = false) (k : Int) :
    instructionsIn (s'.sentTo k) =
      if k = fd then
        [.on (mediaStartOf cd.username port (callAddrs c cd).2 port' (callerNumbers cmds))]
      else if k = d then
        [.on (mediaStartOf c.username port' (callAddrs c cd).1 port (calleeNumbers cmds))]
      else [] := by
  have hmd (o : Option UserRow) : instructionsIn ((o.map metadata).getD []) = [] := by
    refine List.filterMap_eq_nil_iff.2 fun cmd hcmd => ?_
    cases o with
    | none => cases hcmd
    | some u =>
        have hmedia : mediaOf cmd = none := by
          simp only [Option.map_some, Option.getD_some, metadata, List.mem_cons, List.not_mem_nil,
            or_false] at hcmd
          rcases hcmd with rfl | rfl | rfl | rfl <;> rfl
        exact (isCommand_metadata hcmd).none hmedia
  have her : instructionOf (erCommand .callProceeding) = none :=
    (isCommand_erCommand .callProceeding).none rfl
  have hcaller := instructionOf_mediaTokens hd haddr.2 h.port_lt h.port_lt' rfl
    (isName_callerNumbers cmds)
  have hcallee := instructionOf_mediaTokens hc haddr.1 h.port_lt' h.port_lt rfl
    (isName_calleeNumbers cmds)
  rw [h.sentTo, hempty, List.nil_append, instructionsIn_append, instructionsIn_append,
    if_neg hne.symm]
  by_cases hk : fd = k
  · rw [if_pos hk, if_pos hk, if_pos hk.symm, if_neg (hk ▸ hne.symm), hmd, instructionsIn_nil,
      List.append_nil, List.append_nil, instructionsIn_cons, her, instructionsIn_cons, callerMe_eq]
    exact congrArg (fun i => none.toList ++ (i.toList ++ [])) hcaller
  · rw [if_neg hk, if_neg hk, if_neg (Ne.symm hk)]
    by_cases hk' : d = k
    · rw [if_pos hk', if_pos hk'.symm, instructionsIn_nil, List.nil_append, List.append_nil,
        instructionsIn_cons, hmd, calleeMe_eq]
      exact congrArg (fun i => i.toList ++ []) hcallee
    · rw [if_neg hk', if_neg (Ne.symm hk')]
      rfl

/-- The two ends of a call that is put through are free, have names, and are not the same. -/
structure Ready (s : MainObject) (fd d : Int) (c cd : SipConnection) : Prop where
  ne : fd ≠ d
  caller : c.connectionFd < 0 ∧ IsName c.username
  callee : cd.connectionFd < 0 ∧ IsName cd.username

/-- A call that is put through finds both ends ready for it. -/
theorem ready_of_putThrough {fd : Int} (hP : LinkSafe s e) (hw : AllConns Worded s)
    (hknown : LogsInKnown s) (hN : LooksUp s e) (hput : s.putThrough e = some (fd, d))
    (hc : s.conn fd = some c) (hcd : s.conn d = some cd) : Ready s fd d c cd := by
  obtain ⟨hcaller, hne, -⟩ := hP.call _ hput
  obtain ⟨hfree, hz⟩ := hcaller c hc
  obtain ⟨x, ts, hrec, hfound⟩ := putThrough_eq_some.1 hput
  obtain ⟨⟨h0, hauth, -⟩, u, hu, hfd, hd, cd', hcd', hfree'⟩ := callee_spec hfound
  have hqueried : s.queried e = some u := (queried_eq hrec (.inr h0)).trans hu
  obtain ⟨c₀, hc₀, rfl, -⟩ := conn_of_received hrec
  obtain rfl := Option.some.inj (hc.symm.trans hc₀)
  have huid : c.uid ≠ 0 :=
    hknown fd c.account (by rw [accountOf, hc, Option.map_some]) hauth hz
  -- the callee has the `uid` of a row
  have hsame : cd' = cd := by
    rw [takeLine, conn_modifyConn, if_neg hne, hcd] at hcd'
    exact (Option.some.inj hcd').symm
  subst hsame
  have huid' : cd'.uid ≠ 0 := by
    rcases calleeFd_spec (s.takeLine fd) u.id with ⟨y, hy, hyu, -⟩ | ⟨hneg, -⟩
    · rw [hfd, hcd'] at hy
      rw [Option.some.inj hy, hyu]
      exact (s.db.users_pos u (hN.users u hqueried)).ne'
    · omega
  exact ⟨hne, ⟨hfree, (hw fd c hc).known huid⟩, hfree', (hw d cd' hcd).known huid'⟩

/-- What the clients are told of a call that is put through. -/
theorem Tells.putThrough {fd : Int} (h : Tells s told) (hlinks : LinkInv s) (hP : LinkSafe s e)
    (hA : Announces s e) (hN : LooksUp s e) (hw : AllConns Worded s) (hknown : LogsInKnown s)
    (hput : s.putThrough e = some (fd, d)) (hs : step env s e = some (s', out)) :
    ∃ told', Tells s' told' ∧
      ∀ k, obeyAll (told k) (instructionsIn (commandsTo k out)) = some (told' k) := by
  obtain ⟨c, cd, cmds, s₁, port, port', id, row, hc, hcd, rfl, rfl, hset, -⟩ :=
    step_putThrough hput hs
  obtain ⟨hne, ⟨hfree, hname⟩, hfree', hname'⟩ := ready_of_putThrough hP hw hknown hN hput hc hcd
  obtain ⟨b, hR⟩ := hlinks.1
  have hpos : 0 ≤ fd ∧ 0 ≤ d :=
    ⟨hR.fd fd c.call (by rw [callOf, hc, Option.map_some]),
      hR.fd d cd.call (by rw [callOf, hcd, Option.map_some])⟩
  have htold {k x} (hx : s.conn k = some x) (hx' : x.connectionFd < 0) : told k = none := by
    rw [← Option.not_isSome_iff_eq_none, h.linked]
    rintro ⟨y, hy, hlink⟩
    obtain rfl := Option.some.inj (hx.symm.trans hy)
    omega
  have hconn (k : Int) : s₁.flush.conn k = if fd = k ∨ d = k then
      ((s.flush.takeLine fd).conn k).map fun x => ((x.setConnectionFd
        (if d = k then fd else d)).setSourcePort (if d = k then port' else port)).setCid id
      else s.conn k := by
    rw [conn_flush, hset.conn]
    split
    · rfl
    · next hk => rw [takeLine, conn_modifyConn, if_neg fun heq => hk (.inl heq), conn_flush]
  have hend {k : Int} (hk : fd = k ∨ d = k) {x} (hx : s₁.flush.conn k = some x) :
      x.connectionFd = if d = k then fd else d := by
    rw [hconn, if_pos hk] at hx
    obtain ⟨y, -, rfl⟩ := Option.map_eq_some_iff.1 hx
    rfl
  have hexists {k : Int} (hk : fd = k ∨ d = k) : ∃ x, s₁.flush.conn k = some x := by
    rw [hconn, if_pos hk, takeLine, conn_modifyConn, conn_flush]
    rcases hk with rfl | rfl
    · simp [hc]
    · simp [hne, hcd]
  refine ⟨fun k =>
    if k = fd then some (mediaStartOf cd.username port (callAddrs c cd).2 port'
      (callerNumbers cmds))
    else if k = d then
      some (mediaStartOf c.username port' (callAddrs c cd).1 port (calleeNumbers cmds))
    else told k, ⟨fun k => ?_, fun k x m m' hx hm hm' => ?_⟩, fun k => ?_⟩
  · by_cases hk : fd = k ∨ d = k
    · obtain ⟨x, hx⟩ := hexists hk
      refine iff_of_true ?_ ⟨x, hx, ?_⟩
      · rcases hk with rfl | rfl
        · simp
        · simp [hne.symm]
      · rw [hend hk hx]
        split
        · exact hpos.1
        · exact hpos.2
    · rw [hconn, if_neg hk, ← h.linked]
      rw [not_or] at hk
      simp [Ne.symm hk.1, Ne.symm hk.2]
  · have hmatching :
        Matching (mediaStartOf cd.username port (callAddrs c cd).2 port' (callerNumbers cmds))
        (mediaStartOf c.username port' (callAddrs c cd).1 port (calleeNumbers cmds)) :=
      matching_numbers cmds
    by_cases hfd : k = fd
    · subst hfd
      have hx' : x.connectionFd = d := by rw [hend (.inl rfl) hx, if_neg hne.symm]
      rw [if_pos rfl, Option.some.injEq] at hm
      rw [hx', if_neg hne.symm, if_pos rfl, Option.some.injEq] at hm'
      rw [← hm, ← hm']
      exact hmatching
    · by_cases hd : k = d
      · subst hd
        have hx' : x.connectionFd = fd := by rw [hend (.inr rfl) hx, if_pos rfl]
        rw [if_neg hfd, if_pos rfl, Option.some.injEq] at hm
        rw [hx', if_pos rfl, Option.some.injEq] at hm'
        rw [← hm, ← hm']
        exact hmatching.symm
      · -- the partner of another connection is not one of the two, which were free
        rw [hconn, if_neg (by simp [Ne.symm hfd, Ne.symm hd])] at hx
        rw [if_neg hfd, if_neg hd] at hm
        obtain ⟨y, hy, hlink⟩ := (h.linked k).1 (by rw [hm]; rfl)
        obtain rfl := Option.some.inj (hx.symm.trans hy)
        obtain ⟨-, z, hz, -, hback, -⟩ := (hlinks.callLinks k x hx).1 hlink
        have hkpos := hR.fd k x.call (by rw [callOf, hx, Option.map_some])
        have hnot {j y} (hy : s.conn j = some y) (hy' : y.connectionFd < 0) :
            x.connectionFd ≠ j := by
          rintro rfl
          obtain rfl := Option.some.inj (hz.symm.trans hy)
          omega
        rw [if_neg (hnot hc hfree), if_neg (hnot hcd hfree')] at hm'
        exact h.matching k x m m' hx hm hm'
  · have hinst := hset.instructions hne (fun k => by simp [takeLine]) hname hname'
      (hA _ hput c hc cd hcd) k
    have hsent : commandsTo k s₁.sent = s₁.sentTo k := rfl
    rw [hsent, hinst]
    dsimp only
    by_cases hfd : k = fd
    · subst hfd
      rw [if_pos rfl, if_pos rfl, htold hc hfree]
      rfl
    · by_cases hd : k = d
      · subst hd
        rw [if_neg hfd, if_pos rfl, if_neg hfd, if_pos rfl, htold hcd hfree']
        rfl
      · rw [if_neg hfd, if_neg hd, if_neg hfd, if_neg hd]
        rfl

/-- **The server has the media of its clients under control**: the instructions that it sends in a
step lead each client from what it has been told before to what it is to do after. -/
theorem Controls.step (h : Controls s told) (hP : LinkSafe s e) (hA : Announces s e)
    (hN : LooksUp s e)
    (hs : step env s e = some (s', out)) : ∃ told', Controls s' told' ∧
      (∀ k, obeyAll (told k) (instructionsIn (commandsTo k out)) = some (told' k)) ∧
      ∀ k, ∀ cmd ∈ commandsTo k out, IsCommand cmd := by
  obtain ⟨hlinks, hw, hknown, htells⟩ := h
  have hnamed : ∀ p ∈ s.identified e, p.2 ∈ s.db.users :=
    fun p hp => hN.users p.2 (queried_of_identified hp)
  have hcmds (k : Int) : ∀ cmd ∈ commandsTo k out, IsCommand cmd :=
    fun cmd hcmd => step_isCommand hw hs hcmd
  obtain ⟨b, hR⟩ := hlinks.1
  obtain ⟨b', mout, hmoves, hR', hmedia⟩ := step_moves hR (hlinks.callSafe hP hs) hs
  obtain ⟨told', htells', hobey⟩ : ∃ told', Tells s' told' ∧
      ∀ k, obeyAll (told k) (instructionsIn (commandsTo k out)) = some (told' k) := by
    cases hmoves with
    | hangUps hruns => exact htells.hangUps hR hR' hruns hcmds hmedia
    | join hput => exact htells.putThrough hlinks hP hA hN hw hknown hput hs
    | @stop a _ _ hstop =>
        obtain ⟨hfree, -, rfl⟩ := Switchboard.step_stop.1 hstop
        refine ⟨told, ⟨fun k => ?_, fun k c m m' hc hm hm' => ?_⟩, fun k => ?_⟩
        · rw [hR'.linkedConn_iff, htells.linked, hR.linkedConn_iff]
        · obtain ⟨c₀, hc₀, hlink⟩ := (htells.linked k).1 (by rw [hm]; rfl)
          have hp := (hR.partner_eq_some hc₀).2 ⟨hlink, rfl, rfl⟩
          obtain ⟨-, heq, -⟩ := (hR'.partner_eq_some hc).1 hp
          exact htells.matching k c₀ m m' hc₀ hm (heq ▸ hm')
        · have hm := hmedia k
          have hstart : Media.start ∉ mediaIn (commandsTo k out) := by
            rw [hm, Switchboard.mediaTo]
            by_cases hk : a = k <;> simp [hk]
          rw [instructionsIn_of_stops (hcmds k) hstart, hm]
          by_cases hk : a = k
          · subst hk
            have hnone : told a = none := by
              rw [← Option.not_isSome_iff_eq_none, htells.linked, hR.linkedConn_iff, not_not]
              exact hfree
            simp [Switchboard.mediaTo, hnone]
          · simp [Switchboard.mediaTo, hk]
  exact ⟨told', ⟨hlinks.step hP hs, worded_step hw hN.names hs, hknown.step hnamed hs, htells'⟩,
    hobey, hcmds⟩

end MainObject

end NetISDN
