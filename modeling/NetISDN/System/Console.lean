import NetISDN.Admin.ListCalls
import NetISDN.General.Notices
import NetISDN.Server.AuditTrail

/-!
# The administrator's list of calls and the server

`netadmin` learns from status datagrams what `netsipd` has changed, and reads it from the database
that the two share. `Console` puts the list beside the server, with the datagrams that wait at the
socket; the network may lose them, send them twice and let them overtake one another. Whatever
happens, the list is right about every call of which no datagram waits or has been lost since it was
read as a whole (`Console.coherent_of_runs`), as long as every new call is announced under its own
identifier, the identifiers are numbers that `toInt` reads, and no client's text renames a user.
-/

namespace NetISDN

open TransitionSystem Notices

/-- `sprintf(buf,"c%d",cid)`. -/
def cidNotice (cid : Int) : QString := "c" ++ sprintfD cid

/-- The list reads the identifier of a call from the datagram about it. -/
theorem ListCalls.cidOf_cidNotice {i : Int} (h₀ : 0 ≤ i) (hi : i < 2 ^ 31) :
    ListCalls.cidOf (cidNotice i) = some i := by
  obtain ⟨n, rfl⟩ := Int.eq_ofNat_of_zero_le h₀
  have hn : n < 2 ^ 31 := by omega
  have hlen : (sprintfU n).length ≤ 10 := Nat.toDigits_length 10 n 10 (by decide) (by omega)
  have htext : (cidNotice n).take 31 = 'c' :: sprintfU n := by
    rw [List.take_of_length_le (Nat.le_trans (Nat.succ_le_succ hlen) (by decide))]
    rfl
  have hnull : ('c' :: sprintfU n).takeWhile (· ≠ '\x00') = 'c' :: sprintfU n := by
    refine List.takeWhile_eq_self_iff.2 fun c hc => ?_
    rcases List.mem_cons.1 hc with rfl | hc
    · rfl
    · refine decide_eq_true fun hnull => not_mem_sprintfU (n := n) ?_ (hnull ▸ hc)
      rfl
  rw [ListCalls.cidOf, htext, hnull]
  exact toInt?_sprintfU hn

/-- The texts of the datagrams in some output. -/
def datagrams (out : List Output) : List QString :=
  out.filterMap fun
    | .status text => some text
    | .command _ _ => none

/-- The datagrams are the texts of the status messages. -/
theorem mem_datagrams {out : List Output} {text : QString} :
    text ∈ datagrams out ↔ Output.status text ∈ out := by
  rw [datagrams, List.mem_filterMap]
  constructor
  · rintro ⟨_ | text', ho, heq⟩
    · cases heq
    · exact Option.some.inj heq ▸ ho
  · intro h
    exact ⟨_, h, rfl⟩

/-- The server and a list of the calls. `lost` is kept for the record: the datagrams that have been
lost since the list was last read as a whole. -/
structure Console where
  server : MainObject
  list : ListCalls
  socket : List QString := []
  lost : List QString := []

namespace Console

/-- What can happen: the server handles an event, the network brings the datagrams into another
order or doubles some, one is lost, the timer of the list reads one, or the check box is set. -/
inductive ConsoleEvent where
  | serve (e : Event)
  | rearrange (socket : List QString)
  | lose (datagram : QString)
  | poll
  | toggle (state : Bool)

/-- A step of the two. -/
def step (env : Env) (dateTime : Nat → QString) (m : Console) :
    ConsoleEvent → Option (Console × List Output)
  | .serve e => do
    let (server, out) ← MainObject.step env m.server e
    return ({ m with server := server, socket := m.socket ++ datagrams out }, out)
  | .rearrange socket =>
    if m.socket.all socket.contains && socket.all m.socket.contains then
      some ({ m with socket := socket }, [])
    else none
  | .lose datagram =>
    if m.socket.contains datagram then
      some ({ m with socket := m.socket.erase datagram, lost := datagram :: m.lost }, [])
    else none
  | .poll =>
    match m.socket with
    | datagram :: socket => some ({ m with
        list := m.list.callUpdateData dateTime m.server.db datagram
        socket := socket }, [])
    | [] => some (m, [])
  | .toggle state =>
    some ({ m with list := m.list.activeToggledData dateTime m.server.db state, lost := [] }, [])

/-- The list is opened. What has arrived before waits at the socket. -/
def opened (dateTime : Nat → QString) (s : MainObject) (socket : List QString) : Console where
  server := s
  list := ({} : ListCalls).refreshList dateTime s.db
  socket := socket

/-- If the event sets up a call, the query for the latest call of the caller finds the row that has
just been inserted. -/
def FindsCall (s : MainObject) (e : Event) : Prop :=
  ∀ p ∈ s.putThrough e, ∀ c ∈ s.conn p.1, s.db.FindsInserted c.uid e.world.seconds e.world.pick

/-- Every new call is announced under its own identifier, and what the clients write to `USERS` is
plain. -/
def Finds (m : Console) : ConsoleEvent → Prop
  | .serve e => FindsCall m.server e ∧ m.server.WritesPlain e
  | _ => True

instance (m : Console) : (e : ConsoleEvent) → Decidable (Finds m e)
  | .serve e => inferInstanceAs (Decidable ((∀ p ∈ m.server.putThrough e, ∀ c ∈ m.server.conn p.1,
      m.server.db.FindsInserted c.uid e.world.seconds e.world.pick) ∧ m.server.WritesPlain e))
  | .rearrange _ | .lose _ | .poll | .toggle _ => inferInstanceAs (Decidable True)

section
variable {env : Env} {dateTime : Nat → QString} {m m' : Console} {s s' : MainObject} {e : Event}
  {es : List ConsoleEvent} {out tr : List Output} {db db' : Database} {l : ListCalls} {i : Int}
  {active : Bool}
  {ds : List QString}

/-! ## What a step of the server changes in the view -/

/-- The names go with the accounts. -/
theorem selectUser_of_credentials
    (h : db'.users.map UserRow.credentials = db.users.map UserRow.credentials) (uid : Int) :
    (db'.selectUser uid).map UserRow.name = (db.selectUser uid).map UserRow.name := by
  have hname (db : Database) : (db.selectUser uid).map UserRow.name =
      ((db.users.map UserRow.credentials).find? fun a => a.1 = uid).map fun a => a.2.1 := by
    rw [Database.selectUser, List.find?_map, Option.map_map]
    rfl
  rw [hname, hname, h]

/-- The rows of the call `i` are the same in two tables. -/
def SameRow (db db' : Database) (i : Int) : Prop :=
  ∀ r : CallRow, r.id = i → (r ∈ db'.calls ↔ r ∈ db.calls)

/-- A row that has stayed the same twice is the same. -/
theorem SameRow.trans {db₁ : Database} (h : SameRow db db₁ i) (h' : SameRow db₁ db' i) :
    SameRow db db' i :=
  fun r hr => (h' r hr).trans (h r hr)

/-- A statement changes no row but that of the call which it announces. -/
theorem sameRow_apply {w : World} {x : Write} (hupdate : x.isUpdate = true)
    (hx : x.notice ≠ cidNotice i) :
    SameRow db (x.apply w db) i := by
  intro r hr
  cases x with
  | endCall id =>
      have hid : i ≠ id := by
        rintro rfl
        exact hx rfl
      rw [Write.apply, Database.updateCallEnd, Database.mem_updateRows]
      constructor
      · rintro ⟨r₀, hr₀, rfl⟩
        split at hr
        · next h => exact absurd (hr.symm.trans (of_decide_eq_true h)) hid
        · next h => rwa [if_neg h]
      · intro hmem
        exact ⟨r, hmem, if_neg fun h => hid (hr.symm.trans (of_decide_eq_true h))⟩
  | goOffline uid => rfl
  | goOnline uid addr version location =>
      have hcalls : ((Write.goOnline uid addr version location).apply w db).calls = db.calls :=
        Database.calls_updatePasted
      rw [hcalls]
  | setColumn uid tag value =>
      have hcalls : ((Write.setColumn uid tag value).apply w db).calls = db.calls :=
        MainObject.calls_setColumn
      rw [hcalls]
  | logCall row found => cases hupdate

/-- A new call leaves the rows of the others alone. -/
theorem sameRow_insertCall {row : CallRow} (hi : i ≠ db.nextCallId) :
    SameRow db (db.insertCall row) i := by
  intro r hr
  rw [Database.insertCall, List.mem_append, List.mem_singleton]
  refine or_iff_left ?_
  rintro rfl
  exact hi hr.symm

/-- A step of the server announces every call whose row it changes. -/
theorem sameRow_of_stores {ws : List Write} (h : MainObject.Stores s e s' out ws)
    (hfinds : FindsCall s e)
    (hi : cidNotice i ∉ datagrams out) : SameRow s.db s'.db i := by
  have hnotice : ∀ x ∈ ws, x.notice ≠ cidNotice i := by
    intro x hx heq
    exact hi (mem_datagrams.2 (heq ▸ h.told x hx))
  rw [h.db]
  rcases h.insert_or_update with ⟨row, found, rfl⟩ | hupdate
  · obtain ⟨-, p, hp, c, hc, hlogged⟩ := h.logged row found (.head _)
    have hsel := Database.selectLatestCall_insertCall.2
      (hlogged.origUid ▸ hlogged.startDatetime ▸ hfinds p hp c hc)
    rw [hlogged.origUid, hlogged.found] at hsel
    refine sameRow_insertCall fun hnext => hnotice _ (.head _) ?_
    rw [Write.notice, Option.some.inj hsel, hnext]
    rfl
  · clear h
    generalize s.db = db
    induction ws generalizing db with
    | nil => exact fun r _ => Iff.rfl
    | cons x ws ih =>
        obtain ⟨hx, hws⟩ := List.forall_mem_cons.1 hnotice
        obtain ⟨hxu, hwsu⟩ := List.forall_mem_cons.1 hupdate
        exact (sameRow_apply hxu hx).trans (ih hws hwsu _)

/-- What a row ought to show depends on the row and on the names. -/
theorem view_congr (hrow : SameRow db db' i)
    (hcred : db'.users.map UserRow.credentials = db.users.map UserRow.credentials) :
    ListCalls.view dateTime db' active i = ListCalls.view dateTime db active i := by
  have hset (r : CallRow) : setItem dateTime db' r {} = setItem dateTime db r {} := by
    rw [setItem, setItem, Database.nameOf, Database.nameOf, selectUser_of_credentials hcred,
      selectUser_of_credentials hcred]
  refine Option.ext fun item => ?_
  rw [ListCalls.view_eq_some, ListCalls.view_eq_some]
  refine exists_congr fun r => ?_
  rw [hset]
  constructor
  · rintro ⟨hr, hid, h⟩
    exact ⟨(hrow r hid).1 hr, hid, h⟩
  · rintro ⟨hr, hid, h⟩
    exact ⟨(hrow r hid).2 hr, hid, h⟩

/-- A list that shows calls goes on showing calls. -/
theorem Shows.audited {S T : Nat → Prop} (h : ListCalls.Shows db l) (haudit : Audited S T db db')
    (hcred : db'.users.map UserRow.credentials = db.users.map UserRow.credentials) :
    ListCalls.Shows db' l := by
  refine ⟨h.nodup, fun item hitem => ?_⟩
  obtain ⟨r, hr, hid, hrec⟩ := h.rows item hitem
  obtain ⟨new, hrows, -⟩ := haudit.rows
  have hmem : r.opened ∈ db'.calls.map CallRow.opened := by
    rw [hrows]
    exact List.mem_append_left _ (List.mem_map_of_mem hr)
  obtain ⟨r', hr', hopened⟩ := List.mem_map.1 hmem
  have hid' : r'.opened.id = r.opened.id := congrArg CallRow.id hopened
  have hdest : r'.opened.destUid = r.opened.destUid := congrArg CallRow.destUid hopened
  refine ⟨r', hr', hid'.trans hid, ?_⟩
  rw [hrec, Database.nameOf, Database.nameOf, selectUser_of_credentials hcred]
  exact congrArg (fun uid => ((db.selectUser uid).map UserRow.name).getD []) hdest.symm

/-! ## Runs -/

/-- A datagram is about a call. -/
def Tells (datagram : QString) (i : Int) : Prop := datagram = cidNotice i

/-- The list shows calls, each in one row, and is right about every call of which no datagram waits
or has been lost. -/
structure Watches (dateTime : Nat → QString) (m : Console) : Prop where
  shows : ListCalls.Shows m.server.db m.list
  coherent : m.server.db.nextCallId ≤ 2 ^ 31 →
    Coherent Tells (ListCalls.view dateTime m.server.db m.list.activeOnly) m.list.shown
      (m.socket ++ m.lost)

/-- A console that has just been opened shows the calls. -/
theorem watches_opened (s : MainObject) (ds : List QString) :
    Watches dateTime (opened dateTime s ds) := by
  obtain ⟨hshows, hview⟩ := ListCalls.refreshList_spec dateTime s.db {}
  exact ⟨hshows, fun _ => coherent_of_forall hview⟩

/-- A call whose identifier the list cannot read has no row. -/
theorem row_of_unreadable (hids : db.nextCallId ≤ 2 ^ 31)
    (hi : ListCalls.cidOf (cidNotice i) ≠ some i) :
    ∀ r ∈ db.calls, r.id ≠ i := by
  rintro r hr rfl
  have hbound := db.calls_bound r hr
  exact hi (ListCalls.cidOf_cidNotice (by omega) (by omega))

/-- What the list shows of a call that has no row. -/
theorem shown_eq_view (h : ListCalls.Shows db l) (hi : ∀ r ∈ db.calls, r.id ≠ i) :
    l.shown i = ListCalls.view dateTime db active i :=
  (h.shown_eq_none hi).trans (ListCalls.view_eq_none hi).symm

/-- The list handles a datagram. -/
theorem Watches.poll {d : QString} (h : Watches dateTime m) (hsocket : m.socket = d :: ds) :
    Watches dateTime { m with
      list := m.list.callUpdateData dateTime m.server.db d
      socket := ds } := by
  have hcoherent (hids : m.server.db.nextCallId ≤ 2 ^ 31) :
      Coherent Tells (ListCalls.view dateTime m.server.db m.list.activeOnly) m.list.shown
        (d :: (ds ++ m.lost)) := by
    have := h.coherent hids
    rwa [hsocket] at this
  cases hcid : ListCalls.cidOf d with
  | none =>
      have hlist : m.list.callUpdateData dateTime m.server.db d = m.list := by
        rw [ListCalls.callUpdateData, hcid]
      rw [hlist]
      refine ⟨h.shows, fun hids => (hcoherent hids).read (fun i htells => ?_) fun i _ => .inl rfl⟩
      rw [htells] at hcid
      exact shown_eq_view h.shows (row_of_unreadable hids (by rw [hcid]; exact nofun))
  | some cid =>
      have hlist : m.list.callUpdateData dateTime m.server.db d =
          m.list.refreshItem dateTime m.server.db cid := by
        rw [ListCalls.callUpdateData, hcid]
      rw [hlist]
      obtain ⟨hshows, hshown⟩ := h.shows.refreshItem dateTime cid
      refine ⟨hshows, fun hids => (hcoherent hids).read (fun i htells => ?_) fun i _ => ?_⟩
      · by_cases hread : ListCalls.cidOf (cidNotice i) = some i
        · rw [htells, hread] at hcid
          rw [hshown, if_pos (Option.some.inj hcid)]
        · exact shown_eq_view hshows (row_of_unreadable hids hread)
      · rw [hshown]
        split
        · exact .inr rfl
        · exact .inl rfl

/-- What the server does is announced to the console. -/
theorem Watches.serve (h : Watches dateTime m) {e : Event} (hP : FindsCall m.server e)
    (hplain : m.server.WritesPlain e)
    (hs : MainObject.step env m.server e = some (s', out)) :
    Watches dateTime { m with server := s', socket := m.socket ++ datagrams out } := by
  obtain ⟨ws, hstores⟩ := MainObject.step_writes hs
  have haudit := hstores.audited
  have hcred := (MainObject.step_accountMove hs).credentials_eq hplain
  refine ⟨Shows.audited h.shows haudit hcred, fun hids => ?_⟩
  have hposted : ∀ i, ListCalls.view dateTime s'.db m.list.activeOnly i ≠
      ListCalls.view dateTime m.server.db m.list.activeOnly i → ∃ d ∈ datagrams out, Tells d i := by
    intro i hne
    by_contra hnone
    refine hne (view_congr (sameRow_of_stores hstores hP fun hmem => hnone ?_) hcred)
    exact ⟨_, hmem, rfl⟩
  refine ((h.coherent (haudit.nextCallId.trans hids)).post hposted).of_subset fun d hd => ?_
  simp only [List.mem_append] at hd ⊢
  rcases hd with (hd | hd) | hd
  · exact .inl (.inl hd)
  · exact .inr hd
  · exact .inl (.inr hd)

/-- The console keeps watching over every step. -/
theorem Watches.step (h : Watches dateTime m) {e : ConsoleEvent} (hP : Finds m e)
    (hs : Console.step env dateTime m e = some (m', out)) : Watches dateTime m' := by
  cases e with
  | serve e =>
      simp only [Console.step, Option.bind_eq_bind, Option.bind_eq_some_iff, Prod.exists,
        Option.pure_def,
        Option.some.injEq, Prod.mk.injEq] at hs
      obtain ⟨s', out', hs', rfl, rfl⟩ := hs
      exact h.serve hP.1 hP.2 hs'
  | rearrange socket =>
      rw [Console.step] at hs
      split at hs
      · next hsame =>
          obtain ⟨rfl, -⟩ := Prod.mk.inj (Option.some.inj hs)
          have hkept := List.all_eq_true.1 (Bool.and_eq_true_iff.1 hsame).1
          refine ⟨h.shows, fun hids => (h.coherent hids).of_subset fun d hd => ?_⟩
          rcases List.mem_append.1 hd with hd | hd
          · exact List.mem_append_left _ (List.contains_iff_mem.1 (hkept d hd))
          · exact List.mem_append_right _ hd
      · cases hs
  | lose datagram =>
      rw [Console.step] at hs
      split at hs
      · obtain ⟨rfl, -⟩ := Prod.mk.inj (Option.some.inj hs)
        refine ⟨h.shows, fun hids => (h.coherent hids).of_subset fun d hd => ?_⟩
        rcases List.mem_append.1 hd with hd | hd
        · by_cases hsame : d = datagram
          · exact List.mem_append_right _ (hsame ▸ .head _)
          · exact List.mem_append_left _ ((List.mem_erase_of_ne hsame).2 hd)
        · exact List.mem_append_right _ (.tail _ hd)
      · cases hs
  | poll =>
      rw [Console.step] at hs
      split at hs
      · next d ds hsocket =>
          obtain ⟨rfl, -⟩ := Prod.mk.inj (Option.some.inj hs)
          exact h.poll hsocket
      · obtain ⟨rfl, -⟩ := Prod.mk.inj (Option.some.inj hs)
        exact h
  | toggle state =>
      obtain ⟨rfl, -⟩ := Prod.mk.inj (Option.some.inj hs)
      obtain ⟨hshows, hview⟩ := ListCalls.refreshList_spec dateTime m.server.db
        { m.list with activeOnly := state }
      exact ⟨hshows, fun _ => coherent_of_forall hview⟩

/-- **The list of the calls is coherent.** In every run, the list is right about every call of which
no datagram waits at the socket or has been lost since the list was read as a whole, and has no call
twice. -/
theorem coherent_of_runs (h : Runs (step env dateTime) Finds (opened dateTime s ds) es m tr)
    (hids : m.server.db.nextCallId ≤ 2 ^ 31) :
    (∀ i, cidNotice i ∉ m.socket → cidNotice i ∉ m.lost →
      m.list.shown i = ListCalls.view dateTime m.server.db m.list.activeOnly i) ∧
    (m.list.items.map CallItem.id).Nodup := by
  have hw : Watches dateTime m := h.invariant (watches_opened s ds) fun _ _ _ _ hw hP hs =>
    hw.step hP hs
  refine ⟨fun i hsocket hlost => hw.coherent hids i fun d hd htells => ?_, hw.shows.nodup⟩
  rcases List.mem_append.1 hd with hd | hd
  · exact hsocket (htells ▸ hd)
  · exact hlost (htells ▸ hd)

/-- Bob calls Alice and hangs up. The two datagrams about the call come out of order, and one that
tells of a user is lost. The list shows the call with its end. -/
theorem coherent_of_runs_demo : ∃ es m tr,
    Runs (step demoEnv sprintfU) Finds (opened sprintfU (MainObject.start demoDb) []) es m tr ∧
      m.server.db.endOf 1 = some (some 103) ∧ m.list.items ≠ [] ∧
      m.list.shown 1 = ListCalls.view sprintfU m.server.db m.list.activeOnly 1 := by
  have hrun : (run (step demoEnv sprintfU) Finds (opened sprintfU (MainObject.start demoDb) [])
      ((connects 5 0 :: typed 5 (loginText "alice") 0 ++ connects 6 0 ::
        typed 6 (loginText "bob" ++ callText "alice") 43000 ++ typed 6 "BY!" 103000).map .serve ++
        [.lose "u2", .rearrange ["c1", "u1", "u2"], .poll, .poll])).any
      (fun x => x.1.server.db.endOf 1 = some (some 103) ∧ x.1.list.items ≠ [] ∧
        x.1.server.db.nextCallId ≤ 2 ^ 31 ∧ cidNotice 1 ∉ x.1.socket ∧ cidNotice 1 ∉ x.1.lost) := by
    decide +kernel
  obtain ⟨⟨m, tr⟩, hrun, hend⟩ := (Option.any_eq_true _ _).1 hrun
  obtain ⟨hlog, hitems, hids, hsocket, hlost⟩ := of_decide_eq_true hend
  have hruns := runs_of_run hrun
  exact ⟨_, m, tr, hruns, hlog, hitems, (coherent_of_runs hruns hids).1 1 hsocket hlost⟩

end

end Console

end NetISDN
