import NetISDN.Lib.AudioSettings
import NetISDN.Server.Database

/-!
# The list of the calls

`ListCalls` (`list_calls.cpp`), the dialog in which the administrator watches the calls. It reads
the whole list when it opens and when its check box is toggled, and one row of it when a status
datagram names a call. What a row shows is `setItem`; `shown` is the row of a call, and `view` what
it ought to be.

The look of the list is left out, and so is the order of its rows: the view sorts them by their
third column.
-/

namespace NetISDN

open AudioSettings

/-- `AudioSettings::formatString` (`audiosettings.cpp:267`). -/
def formatString : Format → QString
  | .layer3 => "MPEG Layer 3"
  | .speex => "Speex"
  | .vorbis => "Vorbis"
  | .noFormat => "No Format"
  | .unnamed _ _ => "Unknown"

/-- The two icons of a row. -/
inductive CallIcon where
  | call
  | activeCall
  deriving DecidableEq

/-- A row of the list, as `NetListViewItem` makes it: its icon, and the texts of its columns. -/
structure CallItem where
  id : Int := -1
  icon : Option CallIcon := none
  originator : QString := []
  recipient : QString := []
  startTime : QString := []
  endTime : QString := []
  sampleRate : QString := []
  originFormat : QString := []
  originChannels : QString := []
  originBitrate : QString := []
  recepFormat : QString := []
  recepChannels : QString := []
  recepBitrate : QString := []
  deriving DecidableEq

/-- `ListCalls`. -/
structure ListCalls where
  items : List CallItem := []
  /-- `list_active_check->isChecked()`. -/
  activeOnly : Bool := false
  deriving DecidableEq

/-- `select NAME from USERS where ID=uid`; the empty text where there is no such row. -/
def Database.nameOf (db : Database) (uid : Int) : QString :=
  ((db.selectUser uid).map UserRow.name).getD []

/-- `SetItem` (`list_calls.cpp:261`). `dateTime` is the text `MM/dd/yyyy - hh:mm:ss` of a time. The
recipient stays as it is where the query for the name finds nothing. -/
def setItem (dateTime : Nat → QString) (db : Database) (r : CallRow) (item : CallItem) :
    CallItem where
  id := r.id
  icon := some (if r.endDatetime = none then .activeCall else .call)
  originator := db.nameOf r.origUid
  recipient := ((db.selectUser r.destUid).map UserRow.name).getD item.recipient
  startTime := dateTime r.startDatetime
  endTime := (r.endDatetime.map dateTime).getD "[none]"
  sampleRate := sprintfU r.sampleRate ++ " samples/sec"
  originFormat := formatString (Format.cast (BitVec.ofNat 32 r.format))
  originChannels := sprintfU r.channels
  originBitrate := sprintfU r.bitRate ++ " bits/sec"
  recepFormat := formatString (Format.cast (BitVec.ofNat 32 r.destFormat))
  recepChannels := sprintfU r.destChannels
  recepBitrate := sprintfU r.destBitRate ++ " bits/sec"

/-- `END_DATETIME is null`, where the check box asks for it. -/
def selects (activeOnly : Bool) (r : CallRow) : Bool := !activeOnly || r.endDatetime.isNone

/-- The last element that `p` selects becomes what `f` makes of it, or goes. -/
def alterLast {α : Type} (p : α → Bool) (f : α → Option α) : List α → List α
  | [] => []
  | a :: l => if l.any p then a :: alterLast p f l else if p a then (f a).toList ++ l else a :: l

/-! ## Rows that have a key -/

section
variable {α : Type} {key : α → Int} {f : α → Option α} {l : List α} {a b : α} {i : Int}

/-- The first element that `p` selects, where it selects one at most. -/
theorem find?_eq_some_iff_of_unique {p : α → Bool} (h : ∀ a ∈ l, ∀ b ∈ l, p a → p b → a = b) :
    l.find? p = some a ↔ a ∈ l ∧ p a := by
  constructor
  · intro hfind
    exact ⟨List.mem_of_find?_eq_some hfind, List.find?_some hfind⟩
  · rintro ⟨ha, hpa⟩
    cases hfind : l.find? p with
    | none => exact absurd hpa (List.find?_eq_none.1 hfind a ha)
    | some b =>
        rw [h b (List.mem_of_find?_eq_some hfind) a ha (List.find?_some hfind) hpa]

/-- The element with a key, where the keys are distinct. -/
theorem find?_key (hl : (l.map key).Nodup) :
    l.find? (fun a => key a = i) = some a ↔ a ∈ l ∧ key a = i := by
  rw [find?_eq_some_iff_of_unique, decide_eq_true_eq]
  intro a ha b hb hpa hpb
  exact List.inj_on_of_nodup_map hl ha hb
    ((of_decide_eq_true hpa).trans (of_decide_eq_true hpb).symm)

/-- Where the keys are distinct, the last element with a key is the only one. -/
theorem mem_alterLast (hl : (l.map key).Nodup) : b ∈ alterLast (fun a => key a = i) f l ↔
    (b ∈ l ∧ key b ≠ i) ∨ ∃ a ∈ l, key a = i ∧ f a = some b := by
  induction l with
  | nil => simp [alterLast]
  | cons a l ih =>
      obtain ⟨ha, hl⟩ := List.nodup_cons.1 hl
      rw [alterLast]
      split
      · next hany =>
          obtain ⟨a', ha', hkey⟩ := List.any_eq_true.1 hany
          have hne : key a ≠ i := by
            rintro rfl
            exact ha (of_decide_eq_true hkey ▸ List.mem_map_of_mem ha')
          rw [List.mem_cons, ih hl]
          constructor
          · rintro (rfl | ⟨hb, hbi⟩ | ⟨a', ha', h⟩)
            · exact .inl ⟨.head _, hne⟩
            · exact .inl ⟨.tail _ hb, hbi⟩
            · exact .inr ⟨a', .tail _ ha', h⟩
          · rintro (⟨_ | ⟨_, hb⟩, hbi⟩ | ⟨_, _ | ⟨_, ha'⟩, h⟩)
            · exact .inl rfl
            · exact .inr (.inl ⟨hb, hbi⟩)
            · exact absurd h.1 hne
            · exact .inr (.inr ⟨_, ha', h⟩)
      · next hany =>
          have hnone : ∀ a' ∈ l, key a' ≠ i := by
            intro a' ha' hkey
            exact hany (List.any_eq_true.2 ⟨a', ha', decide_eq_true hkey⟩)
          split
          · next hkey =>
              rw [List.mem_append, Option.mem_toList]
              constructor
              · rintro (hb | hb)
                · exact .inr ⟨a, .head _, of_decide_eq_true hkey, hb⟩
                · exact .inl ⟨.tail _ hb, hnone b hb⟩
              · rintro (⟨_ | ⟨_, hb⟩, hbi⟩ | ⟨_, _ | ⟨_, ha'⟩, h⟩)
                · exact absurd (of_decide_eq_true hkey) hbi
                · exact .inr hb
                · exact .inl h.2
                · exact absurd h.1 (hnone _ ha')
          · next hkey =>
              rw [decide_eq_true_eq] at hkey
              constructor
              · rintro (_ | ⟨_, hb⟩)
                · exact .inl ⟨.head _, hkey⟩
                · exact .inl ⟨.tail _ hb, hnone b hb⟩
              · rintro (⟨hb, -⟩ | ⟨_, _ | ⟨_, ha'⟩, h⟩)
                · exact hb
                · exact absurd h.1 hkey
                · exact absurd h.1 (hnone _ ha')

/-- What keeps the key of an element keeps the keys distinct. -/
theorem map_alterLast_sublist {p : α → Bool} (hf : ∀ a b, p a → f a = some b → key b = key a) :
    ((alterLast p f l).map key).Sublist (l.map key) := by
  induction l with
  | nil => exact .slnil
  | cons a l ih =>
      rw [alterLast]
      split
      · exact ih.cons_cons (key a)
      split
      · next hpa =>
          cases hfa : f a with
          | none => exact List.sublist_cons_self _ _
          | some b =>
              show (key b :: l.map key).Sublist (key a :: l.map key)
              rw [hf a b hpa hfa]
      · exact .refl _

end

namespace ListCalls

/-- The items among which there is one of the call: a new one is made where there was none. -/
def withItem (l : ListCalls) (cid : Int) : List CallItem :=
  if l.items.any (·.id = cid) then l.items else { id := cid } :: l.items

section
variable (dateTime : Nat → QString) (db : Database) (l : ListCalls)

/-- `RefreshItem` (`list_calls.cpp:196`): the last row of the call, or a new one, is set to what the
query finds, or deleted where it finds nothing. -/
def refreshItem (cid : Int) : ListCalls :=
  let row := db.calls.find? fun r => r.id = cid ∧ selects l.activeOnly r
  { l with
    items := alterLast (·.id = cid) (fun item => row.map (setItem dateTime db · item))
      (l.withItem cid) }

/-- `RefreshList` (`list_calls.cpp:236`). A new item stands in front of the others. -/
def refreshList : ListCalls :=
  let rows := (db.calls.filter (selects l.activeOnly)).mergeSort fun r r' =>
    r.startDatetime ≤ r'.startDatetime
  { l with items := rows.foldl (fun items r => setItem dateTime db r {} :: items) [] }

/-- What `callUpdateData` reads of a datagram: 31 bytes at most, which `buf` ends with a null. -/
def cidOf (datagram : QString) : Option Int :=
  match (datagram.take 31).takeWhile (· ≠ '\x00') with
  | 'c' :: text => toInt? text
  | _ => none

/-- `callUpdateData` (`list_calls.cpp:150`), where a datagram has arrived. -/
def callUpdateData (datagram : QString) : ListCalls :=
  match cidOf datagram with
  | some cid => l.refreshItem dateTime db cid
  | none => l

/-- `activeToggledData` (`list_calls.cpp:175`), behind the check box that has been set to `state`.
-/
def activeToggledData (state : Bool) : ListCalls :=
  { l with activeOnly := state }.refreshList dateTime db

end

/-- The row that the list shows for a call. -/
def shown (l : ListCalls) (i : Int) : Option CallItem := l.items.find? fun item => item.id = i

/-- The row that it ought to show. -/
def view (dateTime : Nat → QString) (db : Database) (activeOnly : Bool) (i : Int) :
    Option CallItem :=
  (db.calls.find? fun r => r.id = i ∧ selects activeOnly r).map (setItem dateTime db · {})

/-! ## What the list shows -/

section
variable {dateTime : Nat → QString} {db db' : Database} {l : ListCalls} {cid i : Int}
  {active : Bool}
  {item : CallItem} {r : CallRow}

/-- Every row of the list is that of a call, shows its recipient, and is the only one of its call.
-/
structure Shows (db : Database) (l : ListCalls) : Prop where
  nodup : (l.items.map CallItem.id).Nodup
  rows : ∀ item ∈ l.items, ∃ r ∈ db.calls, r.id = item.id ∧ item.recipient = db.nameOf r.destUid

/-- The item of a call is the one with its id. -/
theorem Shows.shown_eq_some (h : Shows db l) :
    l.shown i = some item ↔ item ∈ l.items ∧ item.id = i := find?_key h.nodup

/-- The row of a call, where the query selects it. -/
theorem find?_calls : (db.calls.find? fun r => r.id = i ∧ selects active r) = some r ↔
    r ∈ db.calls ∧ r.id = i ∧ selects active r := by
  rw [find?_eq_some_iff_of_unique, decide_eq_true_eq]
  intro a ha b hb hpa hpb
  obtain ⟨⟨ha', -⟩, hb', -⟩ := And.intro (of_decide_eq_true hpa) (of_decide_eq_true hpb)
  exact List.inj_on_of_nodup_map db.calls_nodup ha hb (ha'.trans hb'.symm)

/-- A call is in view with the item its row gives. -/
theorem view_eq_some : view dateTime db active i = some item ↔
    ∃ r ∈ db.calls, r.id = i ∧ selects active r ∧ setItem dateTime db r {} = item := by
  rw [view, Option.map_eq_some_iff]
  refine exists_congr fun r => ?_
  rw [find?_calls, and_assoc, and_assoc]

/-- A call that has no row is not to be shown. -/
theorem view_eq_none (hi : ∀ r ∈ db.calls, r.id ≠ i) : view dateTime db active i = none := by
  rw [Option.eq_none_iff_forall_ne_some]
  intro item hitem
  obtain ⟨r, hr, hid, -⟩ := view_eq_some.1 hitem
  exact hi r hr hid

/-- A call without a row has no item. -/
theorem Shows.shown_eq_none (h : Shows db l) (hi : ∀ r ∈ db.calls, r.id ≠ i) :
    l.shown i = none := by
  rw [Option.eq_none_iff_forall_ne_some]
  intro item hitem
  obtain ⟨hmem, rfl⟩ := h.shown_eq_some.1 hitem
  obtain ⟨r, hr, hid, -⟩ := h.rows item hmem
  exact hi r hr hid

/-- `SetItem` sets the whole row, whatever it was, as long as its recipient is not another one. -/
theorem setItem_eq (hrec : item.recipient = [] ∨ item.recipient = db.nameOf r.destUid) :
    setItem dateTime db r item = setItem dateTime db r {} := by
  have hsame : ((db.selectUser r.destUid).map UserRow.name).getD item.recipient =
      ((db.selectUser r.destUid).map UserRow.name).getD [] := by
    rcases hrec with hrec | hrec
    · rw [hrec]
    · rw [hrec, Database.nameOf]
      cases (db.selectUser r.destUid).map UserRow.name <;> rfl
  rw [setItem, setItem, hsame]

/-- An item for the call is added where none is there. -/
theorem Shows.withItem (h : Shows db l) (cid : Int) : ((l.withItem cid).map CallItem.id).Nodup ∧
    (∃ item ∈ l.withItem cid, item.id = cid) ∧ ∀ item, item ∈ l.withItem cid ↔
      item ∈ l.items ∨ item = { id := cid } ∧ ∀ item ∈ l.items, item.id ≠ cid := by
  rw [ListCalls.withItem]
  split
  · next hany =>
      obtain ⟨item, hmem, hid⟩ := List.any_eq_true.1 hany
      refine ⟨h.nodup, ⟨item, hmem, of_decide_eq_true hid⟩, fun item' => ?_⟩
      exact (or_iff_left fun hnone => hnone.2 item hmem (of_decide_eq_true hid)).symm
  · next hany =>
      have hnone : ∀ item ∈ l.items, item.id ≠ cid := by
        intro item hmem hid
        exact hany (List.any_eq_true.2 ⟨item, hmem, decide_eq_true hid⟩)
      refine ⟨List.nodup_cons.2 ⟨fun hmem => ?_, h.nodup⟩, ⟨_, .head _, rfl⟩, fun item => ?_⟩
      · obtain ⟨item, hitem, hid⟩ := List.mem_map.1 hmem
        exact hnone item hitem hid
      · rw [List.mem_cons, or_comm, and_iff_left hnone]

/-- Refreshing one call puts its item in step with the database. -/
theorem Shows.mem_refreshItem (h : Shows db l) : item ∈ (l.refreshItem dateTime db cid).items ↔
    (item ∈ l.items ∧ item.id ≠ cid) ∨ view dateTime db l.activeOnly cid = some item := by
  obtain ⟨hnodup, ⟨item₀, hitem₀, hid₀⟩, hmem⟩ := h.withItem cid
  have hset : ∀ a ∈ l.withItem cid, a.id = cid → ∀ r ∈ db.calls, r.id = cid →
      setItem dateTime db r a = setItem dateTime db r {} := by
    intro a ha hid r hr hrid
    refine setItem_eq ?_
    rcases (hmem a).1 ha with ha | ⟨rfl, -⟩
    · obtain ⟨r', hr', hid', hrec⟩ := h.rows a ha
      obtain rfl :=
        List.inj_on_of_nodup_map db.calls_nodup hr' hr (hid'.trans (hid.trans hrid.symm))
      exact .inr hrec
    · exact .inl rfl
  show item ∈ alterLast _ _ (l.withItem cid) ↔ _
  rw [mem_alterLast hnodup, view_eq_some]
  constructor
  · rintro (⟨hitem, hne⟩ | ⟨a, ha, hid, hrow⟩)
    · rcases (hmem item).1 hitem with hitem | ⟨rfl, -⟩
      · exact .inl ⟨hitem, hne⟩
      · exact absurd rfl hne
    · obtain ⟨r, hr, rfl⟩ := Option.map_eq_some_iff.1 hrow
      obtain ⟨hr, hrid, hsel⟩ := find?_calls.1 hr
      exact .inr ⟨r, hr, hrid, hsel, (hset a ha hid r hr hrid).symm⟩
  · rintro (⟨hitem, hne⟩ | ⟨r, hr, hrid, hsel, rfl⟩)
    · exact .inl ⟨(hmem item).2 (.inl hitem), hne⟩
    · refine .inr ⟨item₀, hitem₀, hid₀, Option.map_eq_some_iff.2 ⟨r, find?_calls.2 ⟨hr, hrid, hsel⟩,
        ?_⟩⟩
      exact hset item₀ hitem₀ hid₀ r hr hrid

/-- `RefreshItem` makes the row of a call what it ought to be and leaves the others as they are. -/
theorem Shows.refreshItem (h : Shows db l) (dateTime : Nat → QString) (cid : Int) :
    Shows db (l.refreshItem dateTime db cid) ∧ ∀ i, (l.refreshItem dateTime db cid).shown i =
      if i = cid then view dateTime db l.activeOnly i else l.shown i := by
  have hshows : Shows db (l.refreshItem dateTime db cid) := by
    refine ⟨(map_alterLast_sublist ?_).nodup (h.withItem cid).1, fun item hitem => ?_⟩
    · intro a b ha hb
      obtain ⟨r, hr, rfl⟩ := Option.map_eq_some_iff.1 hb
      exact (find?_calls.1 hr).2.1.trans (of_decide_eq_true ha).symm
    · rcases h.mem_refreshItem.1 hitem with ⟨hitem, -⟩ | hitem
      · exact h.rows item hitem
      · obtain ⟨r, hr, -, -, rfl⟩ := view_eq_some.1 hitem
        exact ⟨r, hr, rfl, rfl⟩
  refine ⟨hshows, fun i => Option.ext fun item => ?_⟩
  rw [hshows.shown_eq_some, h.mem_refreshItem]
  split
  · next hi =>
      subst hi
      rw [and_comm, and_or_left]
      refine (or_iff_right fun hne => hne.2.2 hne.1).trans (and_iff_right_of_imp fun hitem => ?_)
      obtain ⟨r, -, hid, -, rfl⟩ := view_eq_some.1 hitem
      exact hid
  · next hi =>
      rw [h.shown_eq_some]
      constructor
      · rintro ⟨⟨hitem, -⟩ | hitem, hid⟩
        · exact ⟨hitem, hid⟩
        · obtain ⟨r, -, hrid, -, rfl⟩ := view_eq_some.1 hitem
          exact absurd (hid.symm.trans hrid) hi
      · rintro ⟨hitem, rfl⟩
        exact ⟨.inl ⟨hitem, hi⟩, rfl⟩

/-- The rows give their items, the last one first. -/
theorem foldl_setItem (rows : List CallRow) (items : List CallItem) :
    rows.foldl (fun items r => setItem dateTime db r {} :: items) items =
      (rows.map (setItem dateTime db · {})).reverse ++ items := by
  induction rows generalizing items with
  | nil => rfl
  | cons r rows ih =>
      rw [List.foldl_cons, ih, List.map_cons, List.reverse_cons, List.append_assoc,
        List.singleton_append]

/-- Refreshing the list puts every item in step with the database. -/
theorem mem_refreshList : item ∈ (l.refreshList dateTime db).items ↔
    ∃ r ∈ db.calls, selects l.activeOnly r ∧ setItem dateTime db r {} = item := by
  rw [refreshList, foldl_setItem, List.append_nil, List.mem_reverse, List.mem_map]
  refine exists_congr fun r => ?_
  rw [List.mem_mergeSort, List.mem_filter, and_assoc]

/-- `RefreshList` makes all rows what they ought to be. -/
theorem refreshList_spec (dateTime : Nat → QString) (db : Database) (l : ListCalls) :
    Shows db (l.refreshList dateTime db) ∧
    ∀ i, (l.refreshList dateTime db).shown i = view dateTime db l.activeOnly i := by
  have hshows : Shows db (l.refreshList dateTime db) := by
    refine ⟨?_, fun item hitem => ?_⟩
    · rw [refreshList, foldl_setItem, List.append_nil, List.map_reverse, List.map_map]
      refine List.nodup_reverse.2 (((List.mergeSort_perm _ _).map CallRow.id).nodup_iff.2 ?_)
      exact ((List.filter_sublist (l := db.calls)).map CallRow.id).nodup db.calls_nodup
    · obtain ⟨r, hr, -, rfl⟩ := mem_refreshList.1 hitem
      exact ⟨r, hr, rfl, rfl⟩
  refine ⟨hshows, fun i => Option.ext fun item => ?_⟩
  rw [hshows.shown_eq_some, mem_refreshList, view_eq_some]
  constructor
  · rintro ⟨⟨r, hr, hsel, rfl⟩, hid⟩
    exact ⟨r, hr, hid, hsel, rfl⟩
  · rintro ⟨r, hr, hid, hsel, rfl⟩
    exact ⟨⟨r, hr, hsel, rfl⟩, hid⟩

end

end ListCalls

end NetISDN
