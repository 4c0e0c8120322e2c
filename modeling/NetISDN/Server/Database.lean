import Mathlib.Data.Finset.Max
import Mathlib.Tactic.SplitIfs
import NetISDN.Qt.QString

/-!
# The tables of the server's database

`USERS` and `CALLS` as `CreateDb` makes them (`createdb.cpp:47`), with the columns that the
server reads or writes. `ID` is an `auto_increment` primary key in both; the structure
`Database` carries that, so that no statement below can break it. An `update` changes exactly
the rows that its `where` clause selects. What MySQL makes of a statement whose text is not the
one that is meant is not decided here (`World`).

Times are in seconds, as `datetime` columns hold them.
-/

namespace NetISDN

/-- A row of `USERS`. -/
structure UserRow where
  id : Int
  name : QString
  password : QString
  fullName : QString := []
  phoneNumber : QString := []
  email : QString := []
  location : QString := []
  online : Bool := false
  lastAccessDatetime : Option Nat := none
  lastAccessAddr : QString := []
  clientVersion : QString := []
  deriving DecidableEq

/-- `set LAST_ACCESS_DATETIME=now(),ONLINE="N"`. -/
def UserRow.offline (now : Nat) (u : UserRow) : UserRow :=
  { u with lastAccessDatetime := some now, online := false }

/-- `set LAST_ACCESS_DATETIME=now(),LAST_ACCESS_ADDR="addr",ONLINE="Y",CLIENT_VERSION="version",
LOCATION="location"`. -/
def UserRow.goOnline (now : Nat) (addr version location : QString) (u : UserRow) : UserRow :=
  { u with
    lastAccessDatetime := some now
    lastAccessAddr := addr
    online := true
    clientVersion := version
    location := location }

/-- `FN`, `MA` and `PH` name columns of `USERS`. -/
def UserRow.hasColumn (tag : QString) : Bool := tag = "FN" || tag = "MA" || tag = "PH"

/-- The column of `USERS` that an `MD` sets, if its tag names one. -/
def UserRow.setColumn (tag value : QString) (u : UserRow) : UserRow :=
  if tag = "FN" then { u with fullName := value }
  else if tag = "MA" then { u with email := value }
  else if tag = "PH" then { u with phoneNumber := value }
  else u

section
variable (tag value : QString) (u : UserRow)

@[simp] theorem UserRow.setColumn_id : (u.setColumn tag value).id = u.id := by
  unfold setColumn
  split_ifs <;> rfl

@[simp] theorem UserRow.setColumn_name : (u.setColumn tag value).name = u.name := by
  unfold setColumn
  split_ifs <;> rfl

@[simp] theorem UserRow.setColumn_password : (u.setColumn tag value).password = u.password := by
  unfold setColumn
  split_ifs <;> rfl

@[simp] theorem UserRow.setColumn_online : (u.setColumn tag value).online = u.online := by
  unfold setColumn
  split_ifs <;> rfl

end

/-- A row of `CALLS`. -/
structure CallRow where
  id : Int
  origUid : Int
  origAddr : QString
  origPort : Nat
  destUid : Int
  destAddr : QString
  destPort : Nat
  startDatetime : Nat
  endDatetime : Option Nat := none
  format : Nat
  sampleRate : Nat
  channels : Nat
  bitRate : Nat
  destFormat : Nat
  destSampleRate : Nat
  destChannels : Nat
  destBitRate : Nat
  deriving DecidableEq

/-- `set END_DATETIME=now`. -/
def CallRow.ended (now : Nat) (r : CallRow) : CallRow := { r with endDatetime := some now }

@[simp] theorem CallRow.ended_id (now : Nat) (r : CallRow) : (r.ended now).id = r.id := rfl

/-- The database, with the keys its schema enforces. `nextCallId` is the counter behind the
`auto_increment` column of `CALLS`. -/
structure Database where
  users : List UserRow
  calls : List CallRow := []
  nextCallId : Int := 1
  users_nodup : (users.map UserRow.id).Nodup
  users_pos : ∀ u ∈ users, 0 < u.id
  calls_nodup : (calls.map CallRow.id).Nodup
  calls_bound : ∀ r ∈ calls, 0 < r.id ∧ r.id < nextCallId
  nextCallId_pos : 0 < nextCallId

namespace Database

/-! ## `USERS` -/

/-- `select ... from USERS where NAME="name"`, where the name stands for itself and is compared
as it is. -/
def selectUserByName (db : Database) (name : QString) : Option UserRow :=
  db.users.find? fun u => u.name = name

/-- `select ... from USERS where ID=id`. -/
def selectUser (db : Database) (id : Int) : Option UserRow :=
  db.users.find? fun u => u.id = id

/-- `f` on the rows of a table that `p` selects. -/
def updateRows {α : Type} (p : α → Bool) (f : α → α) (rows : List α) : List α :=
  rows.map fun r => if p r then f r else r

/-- An update that keeps a column keeps the list of that column's values. -/
theorem map_updateRows {α β : Type} {p : α → Bool} {f : α → α} {key : α → β}
    (hf : ∀ r, key (f r) = key r) (rows : List α) :
    (updateRows p f rows).map key = rows.map key := by
  induction rows with
  | nil => rfl
  | cons r rows ih =>
      simp only [updateRows, List.map_cons, List.cons.injEq] at ih ⊢
      refine ⟨?_, ih⟩
      split
      · exact hf r
      · rfl

/-- A row of an updated table is a row of the table, updated where `p` selects it. -/
theorem mem_updateRows {α : Type} {p : α → Bool} {f : α → α} {rows : List α} {r' : α} :
    r' ∈ updateRows p f rows ↔ ∃ r ∈ rows, (if p r then f r else r) = r' := by
  simp [updateRows]

/-- An update leaves a table as it is exactly if it does so with the rows that it selects. -/
theorem updateRows_eq_self {α : Type} {p : α → Bool} {f : α → α} {rows : List α} :
    updateRows p f rows = rows ↔ ∀ r ∈ rows, p r → f r = r := by
  induction rows with
  | nil => simp [updateRows]
  | cons r rows ih =>
      simp only [updateRows, List.map_cons, List.cons.injEq, List.forall_mem_cons] at ih ⊢
      rw [ih]
      refine and_congr_left fun _ => ?_
      split <;> simp_all

/-- `update USERS set ... where ID=id`, for a `set` clause `f` that leaves the key alone. -/
def updateUser (db : Database) (id : Int) (f : UserRow → UserRow)
    (hf : ∀ u, (f u).id = u.id := by intro; rfl) : Database :=
  { db with
    users := updateRows (fun u => u.id = id) f db.users
    users_nodup := by rw [map_updateRows hf]; exact db.users_nodup
    users_pos := by
      intro u' hu'
      obtain ⟨u, hu, rfl⟩ := mem_updateRows.1 hu'
      split
      · rw [hf]; exact db.users_pos u hu
      · exact db.users_pos u hu }

/-- `ONLINE="Y"` where `ID=id`. -/
def Online (db : Database) (id : Int) : Prop := ∃ u ∈ db.users, u.id = id ∧ u.online = true

section
variable {db : Database} {uid id : Int} {f : UserRow → UserRow} (hf : ∀ u, (f u).id = u.id)
include hf

/-- An update that sets `ONLINE="N"`. -/
theorem online_updateUser_offline (hoff : ∀ u, (f u).online = false) :
    (db.updateUser uid f hf).Online id ↔ db.Online id ∧ uid ≠ id := by
  simp only [Online, updateUser, mem_updateRows, decide_eq_true_eq]
  constructor
  · rintro ⟨_, ⟨u, hu, rfl⟩, hid, hon⟩
    split at hid
    · next huid => simp [huid, hoff] at hon
    · next huid =>
        rw [if_neg huid] at hon
        exact ⟨⟨u, hu, hid, hon⟩, fun h => huid (hid.trans h.symm)⟩
  · rintro ⟨⟨u, hu, rfl, hon⟩, hne⟩
    refine ⟨u, ⟨u, hu, if_neg (Ne.symm hne)⟩, rfl, hon⟩

/-- An update that sets `ONLINE="Y"`. -/
theorem online_updateUser_online (hon : ∀ u, (f u).online = true) :
    (db.updateUser uid f hf).Online id ↔ db.Online id ∨ uid = id ∧ ∃ u ∈ db.users, u.id = id := by
  simp only [Online, updateUser, mem_updateRows, decide_eq_true_eq]
  constructor
  · rintro ⟨_, ⟨u, hu, rfl⟩, hid, hon'⟩
    split at hid
    · next huid =>
        rw [hf] at hid
        exact .inr ⟨huid.symm.trans hid, u, hu, hid⟩
    · next huid =>
        rw [if_neg huid] at hon'
        exact .inl ⟨u, hu, hid, hon'⟩
  · rintro (⟨u, hu, rfl, hon'⟩ | ⟨rfl, u, hu, rfl⟩)
    · refine ⟨_, ⟨u, hu, rfl⟩, ?_, ?_⟩ <;> split
      · exact hf u
      · rfl
      · exact hon u
      · exact hon'
    · exact ⟨f u, ⟨u, hu, if_pos rfl⟩, hf u, hon u⟩

end

/-- The tables with the users of another database. -/
def withUsers (db db' : Database) : Database :=
  { db with users := db'.users, users_nodup := db'.users_nodup, users_pos := db'.users_pos }

/-! ## `CALLS` -/

/-- `insert into CALLS set ...`: the row gets the next `ID`, which no other row ever had. -/
def insertCall (db : Database) (row : CallRow) : Database :=
  { db with
    calls := db.calls ++ [{ row with id := db.nextCallId }]
    nextCallId := db.nextCallId + 1
    calls_nodup := by
      rw [List.map_append, List.nodup_append]
      refine ⟨db.calls_nodup, by simp, ?_⟩
      intro a ha b hb hab
      obtain ⟨r, hr, rfl⟩ := List.mem_map.1 ha
      have hlt := (db.calls_bound r hr).2
      simp only [List.map_cons, List.map_nil, List.mem_singleton] at hb
      omega
    calls_bound := by
      intro r hr
      rcases List.mem_append.1 hr with hr | hr
      · have := db.calls_bound r hr
        omega
      · have := db.nextCallId_pos
        simp only [List.mem_singleton] at hr
        subst hr
        exact ⟨this, by simp⟩
    nextCallId_pos := by have := db.nextCallId_pos; omega }

/-- The rows that `where ORIG_UID=uid order by START_DATETIME desc` may list first: those with
the greatest start time. -/
def latestCalls (db : Database) (uid : Int) : List CallRow :=
  let rows := db.calls.filter fun r => r.origUid = uid
  rows.filter fun r => rows.all fun r' => r'.startDatetime ≤ r.startDatetime

/-- `select ID from CALLS where ORIG_UID=uid order by START_DATETIME desc`, the first row.
Nothing orders rows with the same start time, so `pick` chooses among them. -/
def selectLatestCall (db : Database) (uid : Int) (pick : Nat) : Option Int :=
  let rows := db.latestCalls uid
  (rows[pick % rows.length]?).map CallRow.id

/-- `update CALLS set END_DATETIME=now() where ID=id`. -/
def updateCallEnd (db : Database) (id : Int) (now : Nat) : Database :=
  { db with
    calls := updateRows (fun r => r.id = id) (CallRow.ended now) db.calls
    calls_nodup := by rw [map_updateRows (CallRow.ended_id now)]; exact db.calls_nodup
    calls_bound := by
      intro r' hr'
      obtain ⟨r, hr, rfl⟩ := mem_updateRows.1 hr'
      split
      · exact db.calls_bound r hr
      · exact db.calls_bound r hr }

/-- When the call `id` ended: `none` where there is no such row, `some none` where its
`END_DATETIME` is null. -/
def endOf (db : Database) (id : Int) : Option (Option Nat) :=
  (db.calls.find? fun r => r.id = id).map CallRow.endDatetime

section
variable {db : Database} {row r : CallRow} {id i : Int} {now : Nat}

/-- The end of a call is that of its row. -/
theorem endOf_eq_some {e : Option Nat} :
    db.endOf i = some e ↔ ∃ r ∈ db.calls, r.id = i ∧ r.endDatetime = e := by
  simp only [endOf, Option.map_eq_some_iff]
  constructor
  · rintro ⟨r, hr, he⟩
    exact ⟨r, List.mem_of_find?_eq_some hr, by simpa using List.find?_some hr, he⟩
  · rintro ⟨r, hr, rfl, he⟩
    refine ⟨r, ?_, he⟩
    -- the key is unique, so the first row of that `ID` is `r`
    cases hf : db.calls.find? fun r' => r'.id = r.id with
    | none => simpa using List.find?_eq_none.1 hf r hr
    | some r' =>
        have hid : r'.id = r.id := by simpa using List.find?_some hf
        rw [List.inj_on_of_nodup_map db.calls_nodup (List.mem_of_find?_eq_some hf) hr hid]

/-- Only the identifiers given out so far have rows. -/
theorem endOf_eq_none (hi : i ≤ 0 ∨ db.nextCallId ≤ i) : db.endOf i = none := by
  cases h : db.endOf i with
  | none => rfl
  | some e =>
      obtain ⟨r, hr, rfl, -⟩ := endOf_eq_some.1 h
      have := db.calls_bound r hr
      omega

/-- The end of a call that is added, and of the others. -/
theorem endOf_insertCall :
    (db.insertCall row).endOf i =
      if i = db.nextCallId then some row.endDatetime else db.endOf i := by
  split
  · next hi =>
      subst hi
      exact endOf_eq_some.2 ⟨_, List.mem_append_right _ (List.mem_singleton.2 rfl), rfl, rfl⟩
  · next hi =>
      simp only [endOf, insertCall, List.find?_append]
      cases db.calls.find? fun r => r.id = i <;> simp [Ne.symm hi]

/-- A call that is ended, and the others. -/
theorem endOf_updateCallEnd : (db.updateCallEnd id now).endOf i =
    if i = id then (db.endOf i).map fun _ => some now else db.endOf i := by
  simp only [endOf, updateCallEnd, updateRows, List.find?_map]
  have hid : ((fun r : CallRow => decide (r.id = i)) ∘ fun r : CallRow =>
      if decide (r.id = id) = true then CallRow.ended now r else r) = fun r =>
        decide (r.id = i) := by
    funext r
    simp only [Function.comp]
    split <;> rfl
  rw [hid]
  cases hf : db.calls.find? fun r => r.id = i with
  | none => simp
  | some r =>
      have hr : r.id = i := by simpa using List.find?_some hf
      by_cases hi : i = id <;> simp [hr, hi, CallRow.ended]

/-- Tables with the same rows have the same ends. -/
theorem endOf_congr {db' : Database} (h : db'.calls = db.calls) : db'.endOf i = db.endOf i := by
  rw [endOf, endOf, h]

end

/-! ## The query for the latest call -/

section
variable {db : Database} {row r : CallRow} {uid id : Int} {now pick : Nat}

/-- The latest calls are those of the user that started last. -/
theorem mem_latestCalls : r ∈ db.latestCalls uid ↔ r ∈ db.calls ∧ r.origUid = uid ∧
    ∀ r' ∈ db.calls, r'.origUid = uid → r'.startDatetime ≤ r.startDatetime := by
  simp only [latestCalls, List.mem_filter, List.all_eq_true, decide_eq_true_eq, and_assoc, and_imp]

/-- An originator with a row has a latest one. -/
theorem exists_mem_latestCalls (hr : r ∈ db.calls) (hu : r.origUid = uid) :
    ∃ r', r' ∈ db.latestCalls uid := by
  have hs : ((db.calls.filter fun r => r.origUid = uid).toFinset).Nonempty :=
    ⟨r, by simp [hr, hu]⟩
  obtain ⟨m, hm, hmax⟩ := Finset.exists_max_image _ CallRow.startDatetime hs
  simp only [List.mem_toFinset, List.mem_filter, decide_eq_true_eq] at hm hmax
  exact ⟨m, mem_latestCalls.2 ⟨hm.1, hm.2, fun r' hr' hu' => hmax r' ⟨hr', hu'⟩⟩⟩

/-- The query for the latest row finds a row of an originator that has one. -/
theorem selectLatestCall_isSome (hr : r ∈ db.calls) (hu : r.origUid = uid) :
    ∃ r' ∈ db.calls, r'.origUid = uid ∧ db.selectLatestCall uid pick = some r'.id := by
  obtain ⟨m, hm⟩ := exists_mem_latestCalls hr hu
  have hpos : 0 < (db.latestCalls uid).length := List.length_pos_of_mem hm
  have hlt : pick % (db.latestCalls uid).length < (db.latestCalls uid).length := Nat.mod_lt _ hpos
  have hmem := List.getElem_mem hlt
  obtain ⟨h₁, h₂, -⟩ := mem_latestCalls.1 hmem
  exact ⟨_, h₁, h₂, by simp only [selectLatestCall, List.getElem?_eq_getElem hlt, Option.map_some]⟩

/-- The query for the latest row finds one of the latest rows. -/
theorem mem_of_selectLatestCall (h : db.selectLatestCall uid pick = some id) :
    ∃ r ∈ db.latestCalls uid, r.id = id := by
  simp only [selectLatestCall, Option.map_eq_some_iff] at h
  obtain ⟨r, hr, hid⟩ := h
  exact ⟨r, List.mem_of_getElem? hr, hid⟩

/-- The rows of `uid` that start at `now`. -/
def tiedCalls (db : Database) (uid : Int) (now : Nat) : List CallRow :=
  db.calls.filter fun r => r.origUid = uid ∧ r.startDatetime = now

/-- The query for the latest row of `uid`, made behind the insertion of a row that starts at
`now`, finds that row: no other row of `uid` starts later, and of those that start at the same
second the new one is listed first. -/
def FindsInserted (db : Database) (uid : Int) (now pick : Nat) : Prop :=
  (∀ r ∈ db.calls, r.origUid = uid → r.startDatetime ≤ now) ∧
    pick % ((db.tiedCalls uid now).length + 1) = (db.tiedCalls uid now).length

instance : Decidable (db.FindsInserted uid now pick) := by
  unfold FindsInserted
  infer_instance

/-- Where no row of the originator starts later, the latest rows behind an insertion are the tied
ones and the new one. -/
theorem latestCalls_insertCall
    (h : ∀ r ∈ db.calls, r.origUid = row.origUid → r.startDatetime ≤ row.startDatetime) :
    (db.insertCall row).latestCalls row.origUid =
      db.tiedCalls row.origUid row.startDatetime ++ [{ row with id := db.nextCallId }] := by
  simp only [latestCalls, tiedCalls, insertCall, List.filter_append, List.filter_filter]
  congr 1
  · refine List.filter_congr fun r hr => ?_
    simp
    grind
  · simp
    grind

/-- The query behind an insertion finds the new row exactly under `FindsInserted`. -/
theorem selectLatestCall_insertCall : (db.insertCall row).selectLatestCall row.origUid pick =
    some db.nextCallId ↔ db.FindsInserted row.origUid row.startDatetime pick := by
  by_cases h : ∀ r ∈ db.calls, r.origUid = row.origUid → r.startDatetime ≤ row.startDatetime
  · rw [FindsInserted, and_iff_right h, selectLatestCall, latestCalls_insertCall h,
      List.length_append, List.length_singleton]
    have hlt := Nat.mod_lt pick (Nat.succ_pos (db.tiedCalls row.origUid row.startDatetime).length)
    generalize pick % _ = i at hlt ⊢
    rcases Nat.lt_succ_iff_lt_or_eq.1 hlt with hi | rfl
    · -- an older row of the same second is listed first
      have hmem := List.mem_filter.1 (List.getElem_mem hi)
      have hold := (db.calls_bound _ hmem.1).2
      rw [List.getElem?_append_left hi, List.getElem?_eq_getElem hi, Option.map_some,
        Option.some.injEq]
      exact iff_of_false hold.ne hi.ne
    · simp
  · refine iff_of_false (fun hsel => ?_) (fun hf => h hf.1)
    obtain ⟨m, hm, hid⟩ := mem_of_selectLatestCall hsel
    obtain ⟨hm, -, hmax⟩ := mem_latestCalls.1 hm
    push Not at h
    obtain ⟨r, hr, hu, hlt⟩ := h
    rcases List.mem_append.1 hm with hold | hnew
    · exact (db.calls_bound m hold).2.ne hid
    · rw [List.mem_singleton] at hnew
      have := hmax r (List.mem_append_left _ hr) hu
      simp only [hnew] at this
      omega
end

end Database

end NetISDN
