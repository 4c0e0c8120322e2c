import NetISDN.Client.Settings
import NetISDN.Lib.HistoryBox

/-!
# The call history on disk

`WriteHistory` writes every item of the history, an entry an item, and `ReadHistory` reads as many
as the box has room for (`netisdn.cpp:1086`), as built without `WIN32`. The file is written in
Latin-1, and read with the codec of the locale. What is written comes back as long as no name is
empty or loses anything as an entry of the file (`IsStorable`). No item of the box is a null text.
-/

namespace NetISDN

open TransitionSystem MainWidget

/-- `QString().sprintf("Uri%d",i+1)`. -/
def uriTag (i : Nat) : QString := ("Uri" : QString) ++ sprintfU (i + 1)

namespace HistoryBox

/-- The entries for the items. -/
def historyEntries (items : List QString) : List (QString × QString) :=
  items.zipIdx.map fun item => (uriTag item.2, cString item.1)

/-- The file that `WriteHistory` writes (`netisdn.cpp:1151`). -/
def writeHistory (b : HistoryBox) : QString := iniText "History" (historyEntries b.items)

/-- A turn of the loop of `ReadHistory`. -/
def readItem (p : Profile) (items : List QString) (i : Nat) : List QString :=
  let str := p.stringValue "History" (uriTag i) ""
  if str = [] then items else items ++ [str]

/-- `ReadHistory` (`netisdn.cpp:1092`), of a file with these bytes, in a locale with that codec. -/
def readHistory (codec : TextCodec) (b : HistoryBox) (file : QString) : HistoryBox :=
  let p := Profile.setSource codec file
  { b with items := (List.range b.box_max_items.toNat).foldl (readItem p) b.items }

/-- A name that an entry of the file keeps in a locale with that codec: it is not empty, in Latin-1
on one line, without a null character, with no white space at its ends, and the codec reads it as it
is. -/
structure IsStorable (codec : TextCodec) (name : QString) : Prop where
  ne_nil : name ≠ []
  isText : IsText name
  isTrimmed : IsTrimmed name
  reads : codec.Reads name

/-! ## What is written comes back -/

variable {codec : TextCodec} {b b' : HistoryBox} {call : Call} {calls : List Call} {tr : List Unit}
  {i j : Nat}

/-- The tag of an entry is a tag. -/
theorem isTag_uriTag (i : Nat) : IsTag (uriTag i) where
  ne_nil := by simp [uriTag]
  alphanum c hc := by
    rcases List.mem_append.1 hc with h | h
    · have hall : ("Uri" : QString).all Char.isAlphanum = true := by decide
      exact List.all_eq_true.1 hall c h
    · rw [Char.isAlphanum, isDigit_of_mem_sprintfU h, Bool.or_true]

/-- Each entry has a tag of its own. -/
theorem uriTag_inj (h : uriTag i = uriTag j) : i = j := by
  have hdigits : sprintfU (i + 1) = sprintfU (j + 1) := List.append_cancel_left h
  have hnumbers := congrArg toNumber hdigits
  rw [toNumber_sprintfU, toNumber_sprintfU] at hnumbers
  exact Nat.succ.inj (Option.some.inj hnumbers)

/-- The section's tag is a tag. -/
theorem isTag_History : IsTag "History" where
  ne_nil := by decide
  alphanum c hc := by
    have hall : ("History" : QString).all Char.isAlphanum = true := by decide
    exact List.all_eq_true.1 hall c hc

section
variable {items : List QString} (h : ∀ name ∈ items, IsStorable codec name)

include h in
/-- The entries are lines. -/
theorem historyEntries_isLine : ∀ e ∈ historyEntries items, IsTag e.1 ∧ IsLine e.2 := by
  intro e he
  obtain ⟨item, hitem, rfl⟩ := List.mem_map.1 he
  have hmem : item.1 ∈ items := List.fst_mem_of_mem_zipIdx hitem
  exact ⟨isTag_uriTag _, isLine_cString (h _ hmem).isText.isLine⟩

include h in
/-- The codec reads the file as it was written. -/
theorem reads_historyEntries : codec.Reads (iniText "History" (historyEntries items)) := by
  refine (reads_iniText_iff isTag_History fun e he => (historyEntries_isLine h e he).1).2
    fun e he => ?_
  obtain ⟨item, hitem, rfl⟩ := List.mem_map.1 he
  have hname := h _ (List.fst_mem_of_mem_zipIdx hitem)
  rw [cString_eq fun c hc => ne_of_mem_of_not_mem hc hname.isTrimmed.no_null]
  exact hname.reads

/-- The tags of the entries, in their order. -/
theorem fst_historyEntries :
    (historyEntries items).map Prod.fst = (List.range items.length).map uriTag := by
  rw [historyEntries, List.map_map, List.range_eq_range', ← List.zipIdx_map_snd 0 items,
    List.map_map]
  rfl

/-- No tag stands twice. -/
theorem nodup_historyEntries : ((historyEntries items).map Prod.fst).Nodup := by
  rw [fst_historyEntries]
  exact List.nodup_range.map fun _ _ => uriTag_inj

include h in
/-- An item is read as it was, and there are no others. -/
theorem stringValue_uriTag (i : Nat) :
    (Profile.setSource codec (iniText "History" (historyEntries items))).stringValue "History"
      (uriTag i) "" = (items[i]?).getD [] := by
  cases hget : items[i]? with
  | some name =>
      have hstorable := h name (List.mem_of_getElem? hget)
      have hmem : (uriTag i, cString name) ∈ historyEntries items :=
        List.mem_map.2 ⟨(name, i), List.mk_mem_zipIdx_iff_getElem?.2 hget, rfl⟩
      rw [stringValue_iniText isTag_History (historyEntries_isLine h) nodup_historyEntries
        (reads_historyEntries h) hmem, isTrimmed_iff.2 hstorable.isTrimmed]
      rfl
  | none =>
      have hnot : uriTag i ∉ (historyEntries items).map Prod.fst := by
        rw [fst_historyEntries]
        rintro hmem
        obtain ⟨j, hj, heq⟩ := List.mem_map.1 hmem
        have hle := List.getElem?_eq_none_iff.1 hget
        have hlt := List.mem_range.1 hj
        rw [uriTag_inj heq] at hlt
        omega
      exact stringValue_iniText_of_not_mem isTag_History (historyEntries_isLine h)
        (reads_historyEntries h) hnot

include h in
/-- What is written is read back, if there is room for it. -/
theorem foldl_readItem (k : Nat) :
    (List.range k).foldl
      (readItem (Profile.setSource codec (iniText "History" (historyEntries items)))) [] =
        items.take k := by
  induction k with
  | zero => rfl
  | succ k ih =>
      rw [List.range_succ, List.foldl_append, ih, List.foldl_cons, List.foldl_nil, readItem,
        stringValue_uriTag h, List.take_add_one]
      cases hget : items[k]? with
      | some name => exact if_neg (h name (List.mem_of_getElem? hget)).ne_nil
      | none => simp

end

/-- A history that fits is the same after it has been written and read. -/
theorem readHistory_writeHistory (h : ∀ name ∈ b.items, IsStorable codec name)
    (hlen : (b.items.length : Int) ≤ b.box_max_items) :
    readHistory codec { b with items := [] } b.writeHistory = b := by
  have hitems := foldl_readItem h b.box_max_items.toNat
  rw [List.take_of_length_le (by omega)] at hitems
  rw [readHistory, writeHistory]
  simp only [hitems]

/-! ## Runs -/

/-- A call that is orderly, and adds a name that can be stored. -/
structure Proper (codec : TextCodec) (b : HistoryBox) (call : Call) : Prop where
  orderly : b.Orderly call
  storable : ∀ str currentText, call = .addToList str currentText →
    IsStorable codec (nameOf str currentText)

/-- A bounded list without doubles, of names that can be stored. -/
structure Stored (codec : TextCodec) (b : HistoryBox) : Prop where
  bounded : b.Bounded
  storable : ∀ name ∈ b.items, IsStorable codec name

/-- An empty history is stored. -/
theorem stored_new : Stored codec {} where
  bounded := ⟨by decide, .nil⟩
  storable := List.forall_mem_nil _

/-- The step lemma. -/
theorem Stored.step (h : Stored codec b) (hcall : Proper codec b call)
    (hs : b.step call = some (b', tr)) : Kept b call b' ∧ Stored codec b' := by
  have hkept := (kept_iff h.bounded hs).2 hcall.orderly
  refine ⟨hkept, hkept.bounded, fun name hname => ?_⟩
  cases call with
  | addToList str currentText =>
      rw [(hkept.added str currentText rfl).2] at hname
      rcases List.mem_cons.1 (List.mem_of_mem_take hname) with rfl | hmem
      · exact hcall.storable str currentText rfl
      · exact h.storable name (List.mem_of_mem_filter hmem)
  | setMaxItems size =>
      rw [hkept.resized size rfl] at hname
      exact h.storable name (List.mem_of_mem_take hname)

/-- The run lemma. -/
theorem stored_of_runs (hr : Runs HistoryBox.step (Proper codec) {} calls b tr) : Stored codec b :=
  hr.invariant stored_new fun _ _ _ _ h hcall hs => (h.step hcall hs).2

/-- **A history of proper calls is a bounded list of different names, the last one first**, which is
the same after it has been written and read. -/
theorem kept_of_runs (codec : TextCodec)
    (hr : Runs HistoryBox.step (Proper codec) {} (calls ++ [call]) b' tr) :
    (∃ b tr, Runs HistoryBox.step (Proper codec) {} calls b tr ∧ Kept b call b') ∧
      readHistory codec { b' with items := [] } b'.writeHistory = b' := by
  obtain ⟨b, tr₁, tr₂, hbefore, hlast, -⟩ := hr.split
  have hstored := stored_of_runs hr
  refine ⟨⟨b, tr₁, hbefore, ?_⟩,
    readHistory_writeHistory hstored.storable hstored.bounded.length_le⟩
  obtain ⟨b₁, out, tr₃, hcall, hs, hnil, -⟩ := hlast.uncons
  obtain ⟨rfl, -⟩ := hnil.det (.nil : Runs HistoryBox.step (Proper codec) b₁ [] b₁ [])
  exact ((stored_of_runs hbefore).step hcall hs).1

/-- Two calls that the user makes. -/
theorem kept_of_runs_demo : ∃ (b' : HistoryBox) (tr : List Unit),
    Runs HistoryBox.step (Proper .latin1) {}
    ([.addToList "" "ann"] ++ [.addToList "" "bob"]) b' tr ∧
    b'.items = ["bob", "ann"] ∧
    readHistory .latin1 { b' with items := [] } b'.writeHistory = b' := by
  have hann : IsStorable .latin1 "ann" :=
    ⟨by decide, isText_of_all (by decide), isTrimmed_of_all (by decide), rfl⟩
  have hbob : IsStorable .latin1 "bob" :=
    ⟨by decide, isText_of_all (by decide), isTrimmed_of_all (by decide), rfl⟩
  have hfirst : Runs HistoryBox.step (Proper .latin1) {} [.addToList "" "ann"]
      { box_max_items := 10, items := ["ann"] } [] := by
    refine Runs.single ⟨by decide, ?_⟩ (by decide)
    rintro _ _ ⟨⟩
    exact hann
  have hboth : Runs HistoryBox.step (Proper .latin1) {}
      ([.addToList "" "ann"] ++ [.addToList "" "bob"])
      { box_max_items := 10, items := ["bob", "ann"] } [] := by
    have hstep : HistoryBox.step { box_max_items := 10, items := ["ann"] } (.addToList "" "bob") =
        some ({ box_max_items := 10, items := ["bob", "ann"] }, []) := by decide
    refine hfirst.snoc ⟨by decide, ?_⟩ hstep
    rintro _ _ ⟨⟩
    exact hbob
  exact ⟨_, _, hboth, rfl, (kept_of_runs .latin1 hboth).2⟩

/-- An incoming call from someone who is in the list already, while the edit field shows another
name. -/
theorem kept_fails : ¬ ∀ (calls : List Call) (call : Call) (b b' : HistoryBox) (tr out : List Unit),
    Runs HistoryBox.step Always {} calls b tr → b.step call = some (b', out) → Kept b call b' := by
  intro hall
  have hbob : Runs HistoryBox.step Always {} [.addToList "bob" ""] _ _ := Runs.single trivial rfl
  have hkept := hall _ (.addToList "bob" "ann") _ _ _ _ hbob rfl
  have hnodup := hkept.bounded.nodup
  revert hnodup
  decide

end HistoryBox

end NetISDN
