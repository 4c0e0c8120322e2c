import NetISDN.Server.CallLinks

/-!
# The order of the media commands

`ME` and `MS` alternate at each client, and the end of a call stops the media of both its ends
once (`control_protocol.txt`, "CALL SETUP" and "CALL TEARDOWN"), as long as every step keeps the
calls in order (`CallSafe`).
-/

namespace NetISDN

open TransitionSystem

namespace MainObject

variable {env : Env} {s s' : MainObject} {b b' : Switchboard} {e : Event} {x y : Int}
  {out : List Output}

/-- The connection on `x` is in a call with `y`. -/
def InCall (s : MainObject) (x y : Int) : Prop :=
  ∃ c, s.conn x = some c ∧ 0 ≤ c.connectionFd ∧ c.connectionFd = y

/-- Who is in a call on the server is paired on the board. -/
theorem Represents.inCall_iff (hR : Represents s b) :
    s.InCall x y ↔ ∃ id, b.pairing.partner x = some (y, id) := by
  constructor
  · rintro ⟨c, hc, hlink, rfl⟩
    exact ⟨c.cid, (hR.partner_eq_some hc).2 ⟨hlink, rfl, rfl⟩⟩
  · rintro ⟨id, hp⟩
    obtain ⟨c, hc⟩ := hR.exists_conn hp
    obtain ⟨hlink, hd, -⟩ := (hR.partner_eq_some hc).1 hp
    exact ⟨c, hc, hlink, hd⟩

/-- The end of a call frees both its ends. -/
theorem free_of_ends (hR : Represents s b) (hR' : Represents s' b') (hP : CallSafe s e)
    (hs : step env s e = some (s', out)) (hends : s.Ends e x) : b'.pairing.Free x := by
  cases hc : s'.conn x with
  | none =>
      rw [Pairing.Free, hR'.partner, callOf, hc]
      rfl
  | some c => exact (hR'.free_iff hc).2 (step_ends hR hP hs hends hc)

/-- A pair of which one end ends the call is gone after the step. -/
theorem partner_ne_of_ends (hR : Represents s b) (hR' : Represents s' b') (hP : CallSafe s e)
    (hs : step env s e = some (s', out)) (hends : s.Ends e x ∨ s.Ends e y) {id : Int} :
    b'.pairing.partner x ≠ some (y, id) := by
  intro hp
  rcases hends with hends | hends
  · cases (free_of_ends hR hR' hP hs hends).symm.trans hp
  · cases (free_of_ends hR hR' hP hs hends).symm.trans (b'.pairing.symm hp)

/-- What a move tells a client whose call it ends. -/
theorem Moves.media_ended {mout : List (Int × Media)} (h : Moves s e b b' mout) {id : Int}
    (hends : s.Ends e x ∨ s.Ends e y) (hp : b.pairing.partner x = some (y, id))
    (hp' : b'.pairing.partner x ≠ some (y, id)) :
    b'.pairing.Free x ∧ Switchboard.mediaTo x mout = [.stop] := by
  cases h with
  | hangUps hruns =>
      obtain ⟨hm, hor⟩ := Switchboard.hangsUp_media (k := x) hruns
      rw [hp] at hm hor
      rw [if_neg hp'] at hm
      exact ⟨hor.resolve_left hp', hm⟩
  | join hput => exact absurd hends (not_or.2
      ⟨not_ends_of_putThrough hput, not_ends_of_putThrough hput⟩)
  | stop _ hs => exact absurd hp hp'

/-- A move stops the media of a free connection only in answer to its own `BY`. -/
theorem Moves.media_free {mout : List (Int × Media)} (h : Moves s e b b' mout)
    (hfree : b.pairing.Free x) (hm : .stop ∈ Switchboard.mediaTo x mout) :
    s.saysBye e = some x := by
  cases h with
  | hangUps hruns =>
      obtain ⟨hm', hor⟩ := Switchboard.hangsUp_media (k := x) hruns
      rw [show b.pairing.partner x = none from hfree] at hor hm'
      rw [hm', if_pos (or_self_iff.1 hor)] at hm
      cases hm
  | join _ hs =>
      obtain ⟨-, -, -, -, -, rfl⟩ := Switchboard.step_join.1 hs
      simp [Switchboard.mediaTo] at hm
  | stop hby hs =>
      obtain ⟨-, -, rfl⟩ := Switchboard.step_stop.1 hs
      obtain rfl : _ = x := by simpa [Switchboard.mediaTo] using hm
      exact hby

/-- The media of the clients, which have been sent `tr`, are in order and stay so over every step
that meets `P`: `ME` and `MS` alternate at each client; a step that ends the call of `x` and `y`
sends each of them, whose last one was the `ME` of that call, one `MS`; and a client in no call is
sent an `MS` only when it says `BY` itself. -/
structure MediaInOrder (env : Env) (P : MainObject → Event → Prop) (s : MainObject)
    (tr : List Output) : Prop where
  alternate : ∀ x, Switchboard.Alternating (mediaIn (commandsTo x tr))
  started : ∀ x y, s.InCall x y → (mediaIn (commandsTo x tr)).getLast? = some .start
  ended : ∀ e s' out, P s e → step env s e = some (s', out) → ∀ x y, s.InCall x y →
    s.Ends e x ∨ s.Ends e y → mediaIn (commandsTo x out) = [.stop] ∧ ∀ z, ¬ s'.InCall x z
  unlinked : ∀ e s' out, P s e → step env s e = some (s', out) → ∀ x, (∀ y, ¬ s.InCall x y) →
    .stop ∈ mediaIn (commandsTo x out) → s.saysBye e = some x

/-- **The order of the media.** In every run whose steps all meet `CallSafe`, the media of the
clients are in order in every state reached. -/
theorem mediaInOrder_of_runs {db : Database} {es : List Event} {tr : List Output}
    (h : Runs (step env) CallSafe (start db) es s tr) : MediaInOrder env CallSafe s tr := by
  obtain ⟨acts, b, mtr, hruns, hR, hshows⟩ := runs_represents h
  have horder := Switchboard.runs_mediaOrder hruns fun _ => rfl
  refine ⟨fun x => hshows x ▸ (horder x).1, fun x y hin => ?_, fun e s' out hP hs x y hin hends =>
    ?_,
    fun e s' out hP hs x hout hstop => ?_⟩
  · obtain ⟨id, hp⟩ := hR.inCall_iff.1 hin
    rw [hshows, (horder x).2, Pairing.Free, hp]
    simp
  · obtain ⟨b', mout, hmoves, hR', hm⟩ := step_moves hR hP hs
    obtain ⟨id, hp⟩ := hR.inCall_iff.1 hin
    obtain ⟨hfree, hmedia⟩ := hmoves.media_ended hends hp (partner_ne_of_ends hR hR' hP hs hends)
    refine ⟨by rw [hm, hmedia], fun z hz => ?_⟩
    obtain ⟨id', hp'⟩ := hR'.inCall_iff.1 hz
    cases hfree.symm.trans hp'
  · obtain ⟨b', mout, hmoves, -, hm⟩ := step_moves hR hP hs
    have hfree : b.pairing.Free x := by
      cases hp : b.pairing.partner x with
      | none => exact hp
      | some v => exact absurd (hR.inCall_iff.2 ⟨v.2, hp⟩) (hout v.1)
    exact hmoves.media_free hfree (hm x ▸ hstop)

/-- Bob calls Alice and hangs up: a run that meets `CallSafe`, in which Alice is sent an `ME` and
an `MS`. -/
theorem mediaInOrder_of_runs_demo : ∃ s tr,
    Runs (step demoEnv) CallSafe (start demoDb)
      (connects 5 0 :: typed 5 (loginText "alice") 0 ++ connects 6 0 ::
        typed 6 (loginText "bob" ++ callText "alice" ++ "BY!") 0) s tr ∧
      mediaIn (commandsTo 5 tr) = [.start, .stop] ∧ MediaInOrder demoEnv CallSafe s tr := by
  have hrun : (run (step demoEnv) CallSafe (start demoDb)
      (connects 5 0 :: typed 5 (loginText "alice") 0 ++ connects 6 0 ::
        typed 6 (loginText "bob" ++ callText "alice" ++ "BY!") 0)).any
      (fun x => mediaIn (commandsTo 5 x.2) = [.start, .stop]) := by decide +kernel
  obtain ⟨⟨s, tr⟩, hrun, hmedia⟩ := (Option.any_eq_true _ _).1 hrun
  have hruns := runs_of_run hrun
  exact ⟨s, tr, hruns, by simpa using hmedia, mediaInOrder_of_runs hruns⟩

/-- Alice calls herself: she is sent two `ME`s and no `MS` between them. -/
theorem mediaInOrder_needs_callSafe : ¬ ∀ (env : Env) (db : Database) es s tr,
    Runs (step env) Always (start db) es s tr → MediaInOrder env Always s tr := by
  intro h
  have hrun : (run (step demoEnv) Always (start demoDb)
      (connects 5 0 :: typed 5 (loginText "alice" ++ callText "alice") 0)).any
      (fun x => mediaIn (commandsTo 5 x.2) = [.start, .start]) := by decide +kernel
  obtain ⟨⟨s, tr⟩, hrun, htwo⟩ := (Option.any_eq_true _ _).1 hrun
  have htwo : mediaIn (commandsTo 5 tr) = [.start, .start] := by simpa using htwo
  have halt := (h demoEnv demoDb _ s tr (runs_of_run hrun)).alternate 5
  rw [htwo] at halt
  obtain ⟨m, hm, hm', -⟩ := halt (Nat.zero_lt_one) rfl rfl
  omega

end MainObject

end NetISDN
