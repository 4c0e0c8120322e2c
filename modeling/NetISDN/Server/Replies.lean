import NetISDN.Server.Lines
import NetISDN.Server.NonInterference
import NetISDN.Server.Zombie

/-!
# What the server replies to a login

Of everything that the server sends to a connection, an `LI` is the reply to an `LI` that has
arrived there, and an `OK` that to a `PW` which it accepts; nothing that another client says gets
either across (`MainObject.Says.accepted`). An `LI` is replied to with a challenge and a `PW` with
an `OK`, or the connection is killed.
-/

namespace NetISDN

open ControlConnect

/-- The tokens that the server makes of a command with its mark. -/
def asked (cmd : QString) : QStringList := split ' ' (stripWhiteSpace cmd.dropLast)

/-- The tokens that a client makes of a command with its mark. -/
def answered (cmd : QString) : QStringList := split ' ' cmd.dropLast

/-- A client answers the command with a `PW`. -/
def IsChallenge (cmd : QString) : Prop := (answered cmd).at 0 = "LI" ∧ (answered cmd).length = 2

/-- A client that takes the command starts the timer that logs it in again. -/
def IsWelcome (cmd : QString) : Prop :=
  (answered cmd).at 0 = "OK" ∧ (answered cmd).length = 2 ∧ (toInt? ((answered cmd).at 1)).isSome

/-- The answer to the password is a welcome. -/
theorem isWelcome_ok : IsWelcome "OK 300!" := by
  unfold IsWelcome
  decide

/-- A welcome begins with the letter of one. -/
theorem IsWelcome.letter {a a' : Char} {t : QString} (h : IsWelcome (a :: a' :: t ++ ['!']))
    (ha : a ≠ ' ') (ha' : a' ≠ ' ') : a = 'O' := by
  obtain ⟨s, ts, hs⟩ := split_two (t := t) ha ha'
  have h0 : QStringList.at ((a :: a' :: s) :: ts) 0 = "OK".toList := by
    rw [← hs, ← h.1, answered, List.dropLast_concat]
  exact (List.cons.inj h0).1

/-- The answer to the name is a challenge. -/
theorem isChallenge_challenge (w : World) : IsChallenge ("LI " ++ generateChallenge w ++ "!") := by
  have htokens : answered ("LI " ++ generateChallenge w ++ "!") =
      ["LI".toList, generateChallenge w] := by
    have hne : generateChallenge w ≠ [] := by
      have hdigits : sprintf08x w.rand.1 ≠ [] := by
        rw [sprintf08x]
        exact List.append_ne_nil_of_right_ne_nil _ Nat.toDigits_ne_nil
      simp [generateChallenge, hdigits]
    have hjoin : "LI " ++ generateChallenge w ++ "!" =
        join [' '] ["LI".toList, generateChallenge w] ++ ['!'] := by
      rw [join_cons, List.flatMap_singleton]
      rfl
    rw [answered, hjoin, List.dropLast_concat, split_join]
    simp only [List.forall_mem_cons]
    exact ⟨by decide, ⟨hne, not_mem_generateChallenge (by decide) w⟩, List.forall_mem_nil _⟩
  rw [IsChallenge, htokens]
  exact ⟨rfl, rfl⟩

namespace MainObject

variable {env : Env} {s s' : MainObject} {e : Event} {k : Int} {c c' : SipConnection}
  {cmds : QStringList} {cmd : QString} {out : List Output}

/-- What the server says is the reply to a `PW` that it accepts, or begins with another letter. -/
theorem Says.letters (h : Says s e k cmd) : s.accepted e = some k ∨
    ∃ a a' t, cmd = a :: a' :: t ++ ['!'] ∧ a ≠ ' ' ∧ a' ≠ ' ' ∧ a ≠ 'O' := by
  cases h with
  | stop => exact .inr ⟨'M', 'S', [], rfl, by decide⟩
  | response code => exact .inr ⟨'E', 'R', _, rfl, by decide⟩
  | challenge => exact .inr ⟨'L', 'I', _, rfl, by decide⟩
  | welcome h => exact .inl h
  | start => exact .inr ⟨'M', 'E', _, by rw [mediaTokens, join_cons]; rfl, by decide⟩
  | metadata h =>
      simp only [MainObject.metadata, List.mem_cons, List.not_mem_nil, or_false] at h
      rcases h with rfl | rfl | rfl | rfl
      all_goals exact .inr ⟨'M', 'D', _, rfl, by decide⟩
  | @forward cmds h0 =>
      obtain ⟨t, ts, rfl⟩ : ∃ t ts, cmds = t :: ts := by
        cases cmds with
        | nil => rcases h0 with h0 | h0 <;> cases h0
        | cons t ts => exact ⟨t, ts, rfl⟩
      rw [forwardText_eq (List.cons_ne_nil t ts), join_cons]
      rcases h0 with h0 | h0
      · obtain rfl : t = "CB" := h0
        exact .inr ⟨'C', 'B', _, rfl, by decide⟩
      · obtain rfl : t = "ER" := h0
        exact .inr ⟨'E', 'R', _, rfl, by decide⟩
  | ping => exact .inr ⟨'P', 'G', [], rfl, by decide⟩

/-- **Only a `PW` that is accepted is replied to with an `OK`.** -/
theorem Says.accepted (h : Says s e k cmd) (hcmd : IsWelcome cmd) : s.accepted e = some k := by
  rcases h.letters with h | ⟨a, a', t, rfl, ha, ha', hne⟩
  · exact h
  · exact absurd (hcmd.letter ha ha') hne

/-- A `PW` that is accepted is replied to with an `OK`. -/
theorem step_welcomes (h : s.accepted e = some k) (hs : step env s e = some (s', out)) :
    ∃ cmd ∈ commandsTo k out, IsWelcome cmd := by
  obtain ⟨s₁, h₁, rfl, rfl⟩ := step_runSlot hs
  obtain ⟨c, cmds, hrec, h0, hcode⟩ := accepted_eq_some.1 h
  obtain ⟨hc, hrun⟩ := runSlot_received (s := s.flush) env hrec
  obtain rfl := Option.some.inj ((h₁.symm.trans hrun).trans (dispatch_accept hc h0 hcode))
  refine ⟨"OK 300!", ?_, isWelcome_ok⟩
  show _ ∈ ((s.flush.takeLine k).acceptLogin env e.world k c).sentTo k
  rw [acceptLogin, sentTo_sendUidUpdate, sentTo_sendCommand, if_pos rfl]
  exact List.mem_append_right _ (.head _)

/-- A connection is killed over a command that says so. -/
theorem step_killCode {code : ResponseCode} (hrec : s.received e = some (k, c, cmds))
    (hcode : (s.takeLine k).killCode k c cmds = some code) (hs : step env s e = some (s', out))
    (hc' : s'.conn k = some c') : c'.zombie = true := by
  obtain ⟨s₁, h₁, rfl, -⟩ := step_runSlot hs
  obtain ⟨hc, hrun⟩ := runSlot_received (s := s.flush) env hrec
  have hkill := (hrun.symm.trans h₁).symm.trans (dispatch_kill hc hcode)
  have hacc : s₁.accountOf k = some c.account.kill :=
    (socketKill_account ((conn_sendCommand ..).trans hc) hkill.symm).trans (if_pos rfl)
  have hc₁ : s₁.conn k = some c' := hc'
  rw [accountOf, hc₁, Option.map_some] at hacc
  have hkilled : c'.account.zombie = c.account.kill.zombie :=
    congrArg Account.zombie (Option.some.inj hacc)
  refine hkilled.trans ?_
  unfold Account.kill
  split
  · next hz => exact hz
  · rfl

/-- An `LI` is replied to with a challenge, or the connection is killed. -/
theorem step_login (hrec : s.received e = some (k, c, cmds)) (h0 : cmds.at 0 = "LI")
    (hs : step env s e = some (s', out)) (hc' : s'.conn k = some c') (hz : c'.zombie = false) :
    (∃ cmd ∈ commandsTo k out, IsChallenge cmd) ∧
      s.identified e = (e.world.lookup s.db (cmds.at 1)).map fun u => (k, u) := by
  have hlen : cmds.length = 4 := by
    by_contra hlen
    have hcode : (s.takeLine k).killCode k c cmds = some .malformed := by
      rw [killCode, if_pos h0, if_pos hlen]
    cases (step_killCode hrec hcode hs hc').symm.trans hz
  have hident : s.identified e = (e.world.lookup s.db (cmds.at 1)).map fun u => (k, u) := by
    have hnamed : s.namedUser e.world cmds = e.world.lookup s.db (cmds.at 1) := if_pos ⟨h0, hlen⟩
    rw [identified, hrec, ← hnamed]
    rfl
  refine ⟨⟨_, ?_, isChallenge_challenge e.world⟩, hident⟩
  cases hu : e.world.lookup s.db (cmds.at 1) with
  | some u =>
      rw [hu] at hident
      rw [(step_identified hident hs).2]
      exact .head _
  | none =>
      obtain ⟨s₁, h₁, rfl, rfl⟩ := step_runSlot hs
      obtain ⟨hc, hrun⟩ := runSlot_received (s := s.flush) env hrec
      have hdispatch : (s.flush.takeLine k).dispatch env e.world k cmds =
          some ((s.flush.takeLine k).sendCommand k ("LI " ++ generateChallenge e.world ++
            "!")) := by
        have hu : e.world.lookup (s.flush.takeLine k).db (cmds.at 1) = none := hu
        simp [dispatch, hc, h0, login, hlen, hu]
      obtain rfl := Option.some.inj ((h₁.symm.trans hrun).trans hdispatch)
      show _ ∈ ((s.flush.takeLine k).sendCommand k _).sentTo k
      rw [sentTo_sendCommand, if_pos rfl]
      exact List.mem_append_right _ (.head _)

/-- A `PW` is accepted, or the connection is killed. -/
theorem step_password (hrec : s.received e = some (k, c, cmds)) (h0 : cmds.at 0 = "PW")
    (hs : step env s e = some (s', out)) (hc' : s'.conn k = some c') (hz : c'.zombie = false) :
    s.accepted e = some k := by
  refine accepted_eq_some.2 ⟨c, cmds, hrec, h0, ?_⟩
  cases hcode : (s.takeLine k).killCode k c cmds with
  | none => rfl
  | some code => cases (step_killCode hrec hcode hs hc').symm.trans hz

/-! ## Accounts -/

@[simp] theorem isAuthenticated_kill (a : Account) :
    a.kill.isAuthenticated = a.isAuthenticated := by
  unfold Account.kill Account.logout
  split
  · rfl
  · split <;> rfl

/-- What becomes of an account that has been there before a step. -/
structure Follows (s : MainObject) (e : Event) (k : Int) (a a' : Account) : Prop where
  authenticated : a'.isAuthenticated = true → a.isAuthenticated = true ∨ s.accepted e = some k
  kept : a.isAuthenticated = true → a'.isAuthenticated = true
  zombie : a'.zombie = false → a.zombie = false
  unnamed : a'.zombie = false → (∀ u, s.identified e ≠ some (k, u)) → a'.uid = a.uid

/-- The account is as before. -/
theorem Follows.refl (s : MainObject) (e : Event) (k : Int) (a : Account) : Follows s e k a a :=
  ⟨.inl, id, id, fun _ _ => rfl⟩

/-- Each account follows the one before the step. -/
theorem AccountMove.follows {a' : Account} (h : AccountMove env s e s')
    (ha' : s'.accountOf k = some a')
    (hopens : opens e ≠ some k) : ∃ a, s.accountOf k = some a ∧ Follows s e k a a' := by
  cases h with
  | same h => exact ⟨a', (h k).symm.trans ha', .refl s e k a'⟩
  | @connect fd hfd _ hacc =>
      have hk : fd ≠ k := by
        rintro rfl
        exact hopens hfd.2
      rw [hacc, if_neg hk] at ha'
      exact ⟨a', ha', .refl s e k a'⟩
  | @kill fd a hfd _ hacc =>
      rw [hacc] at ha'
      split at ha'
      · next hk =>
          subst hk
          obtain rfl := Option.some.inj ha'
          refine ⟨a, hfd, fun hauth => .inl ?_, fun hauth => ?_, fun hz => ?_, fun hz => ?_⟩
          · rwa [isAuthenticated_kill] at hauth
          · rwa [isAuthenticated_kill]
          · cases zombie_kill.symm.trans hz
          · cases zombie_kill.symm.trans hz
      · exact ⟨a', ha', .refl s e k a'⟩
  | @identify fd u a hident hfd hacc =>
      rw [hacc] at ha'
      split at ha'
      · next hk =>
          subst hk
          obtain rfl := Option.some.inj ha'
          exact ⟨a, hfd, .inl, id, id, fun _ hun => absurd hident (hun u)⟩
      · exact ⟨a', ha', .refl s e k a'⟩
  | @accept fd a haccepted hfd hacc =>
      rw [hacc] at ha'
      split at ha'
      · next hk =>
          subst hk
          obtain rfl := Option.some.inj ha'
          exact ⟨a, hfd, fun _ => .inr haccepted, fun _ => rfl, id, fun _ _ => rfl⟩
      · exact ⟨a', ha', .refl s e k a'⟩
  | purge _ hacc =>
      rw [hacc] at ha'
      exact ⟨a', (Option.filter_eq_some_iff.1 ha').1, .refl s e k a'⟩
  | sweep _ hacc =>
      rw [hacc] at ha'
      split at ha'
      · cases ha'
      · exact ⟨a', ha', .refl s e k a'⟩

/-- A connection that is there after a step has been there before, or is new. -/
theorem step_follows (hs : step env s e = some (s', out)) (hc' : s'.conn k = some c')
    (hopens : opens e ≠ some k) : ∃ c, s.conn k = some c ∧ Follows s e k c.account c'.account := by
  have ha' : s'.accountOf k = some c'.account := by rw [accountOf, hc', Option.map_some]
  obtain ⟨a, ha, hfollows⟩ := (step_accountMove hs).follows ha' hopens
  obtain ⟨c, hc, rfl⟩ := Option.map_eq_some_iff.1 ha
  exact ⟨c, hc, hfollows⟩

end MainObject

end NetISDN
