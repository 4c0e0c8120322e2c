import Mathlib.Data.List.TakeDrop
import NetISDN.General.Removal
import NetISDN.General.Runs
import NetISDN.Qt.QString

/-!
# The call history

`HistoryBox` (`historybox.cpp`): the combo box with the names that have been called. The text in its
edit field changes by what the user does alone, so that it comes with each call. The loops that
remove doubles and trim the list are off by one and compare with the edit field: the box is a
bounded list, the last name first, as long as the name that is added is the one in the edit field,
or neither is in the list, and there is room for it (`kept_iff`).
-/

namespace NetISDN

open Removal TransitionSystem

/-- `HistoryBox`, as `box_max_items` and the items of the combo box. -/
structure HistoryBox where
  box_max_items : Int := 10
  items : List QString := []
  deriving DecidableEq

namespace HistoryBox

/-- `setMaxItems` (`historybox.cpp:40`). -/
def setMaxItems (b : HistoryBox) (size : Int) : HistoryBox where
  box_max_items := size
  items := removeBackwards (fun _ => true) size b.items.length b.items

/-- The name that `addToList` inserts. -/
def nameOf (str currentText : QString) : QString := if str = [] then currentText else str

/-- `addToList` (`historybox.cpp:49`). -/
def addToList (b : HistoryBox) (str currentText : QString) : HistoryBox :=
  let items := nameOf str currentText :: b.items
  let items := removeBackwards (fun text => decide (text = currentText)) 0 items.length items
  let items := removeBackwards (fun _ => true) b.box_max_items items.length items
  { b with items := items }

/-- A call, with the text in the edit field. -/
inductive Call where
  | addToList (str currentText : QString)
  | setMaxItems (size : Int)
  deriving DecidableEq

/-- A call is made. -/
def step (b : HistoryBox) : Call → Option (HistoryBox × List Unit)
  | .addToList str currentText => some (b.addToList str currentText, [])
  | .setMaxItems size => some (b.setMaxItems size, [])

/-- The history of which `name` is the last one: those before it, in their order, as many as there
is room for. -/
def recent (max : Nat) (name : QString) (items : List QString) : List QString :=
  (name :: items.filter (· ≠ name)).take max

/-- A list of at most so many names, all different. -/
structure Bounded (b : HistoryBox) : Prop where
  length_le : (b.items.length : Int) ≤ b.box_max_items
  nodup : b.items.Nodup

/-- What a call leaves: a bounded list, with the name that has been added in front, and the others
in their order. -/
structure Kept (b : HistoryBox) (call : Call) (b' : HistoryBox) : Prop where
  bounded : b'.Bounded
  added : ∀ str currentText, call = .addToList str currentText →
    b'.items.head? = some (nameOf str currentText) ∧
    b'.items = recent b.box_max_items.toNat (nameOf str currentText) b.items
  resized : ∀ size, call = .setMaxItems size → b'.items = b.items.take size.toNat

/-- The name that is added is in the edit field, and the list has room for it; or it is another one,
neither of the two is in the list, and the list has room; or the list is full of other names, the
last of them the one in the edit field. A new bound leaves room for the list. -/
def Orderly (b : HistoryBox) : Call → Prop
  | .addToList str currentText =>
      let name := nameOf str currentText
      name = currentText ∧ ((b.items.filter (· ≠ name)).length : Int) < b.box_max_items ∨
      name ≠ currentText ∧ name ∉ b.items ∧
        (currentText ∉ b.items ∧ (b.items.length : Int) < b.box_max_items ∨
          (b.items.length : Int) = b.box_max_items ∧ b.items.getLast? = some currentText)
  | .setMaxItems size => (b.items.length : Int) ≤ size

instance (b : HistoryBox) : ∀ call, Decidable (b.Orderly call)
  | .addToList _ _ => inferInstanceAs (Decidable (_ ∨ _))
  | .setMaxItems _ => inferInstanceAs (Decidable (_ ≤ _))

variable {b b' : HistoryBox} {call : Call} {calls : List Call} {str currentText name : QString}
  {tr : List Unit} {size : Int}

/-! ## What the loops leave -/

@[simp] theorem items_setMaxItems : (b.setMaxItems size).items = b.items.take (size + 1).toNat := by
  rw [setMaxItems, removeBackwards_eq]
  simp

@[simp] theorem items_addToList : (b.addToList str currentText).items =
    (nameOf str currentText :: b.items.filter (· ≠ currentText)).take
      (b.box_max_items + 1).toNat := by
  have hdouble : removeBackwards (fun text => decide (text = currentText)) 0
      (nameOf str currentText :: b.items).length (nameOf str currentText :: b.items) =
      nameOf str currentText :: b.items.filter (· ≠ currentText) := by
    rw [removeBackwards_eq]
    simp
  simp only [addToList, hdouble]
  rw [removeBackwards_eq]
  simp

/-- A name that is not there takes nothing out. -/
theorem filter_ne_of_not_mem {items : List QString} (h : name ∉ items) :
    items.filter (· ≠ name) = items :=
  List.filter_eq_self.2 fun _ hy => decide_eq_true (ne_of_mem_of_not_mem hy h)

/-- A name in a list without doubles that is as long as the bound allows, or longer by one, is what
the bound takes out exactly if it is the last one and there is no room for it. -/
theorem filter_eq_take_of_mem {items : List QString} (hnodup : items.Nodup) {max : Nat}
    (hlen : items.length ≤ max + 1) (hmem : name ∈ items) :
    items.filter (· ≠ name) = items.take max ↔
      items.length = max + 1 ∧ items.getLast? = some name := by
  rcases List.eq_nil_or_concat' items with rfl | ⟨init, last, rfl⟩
  · cases hmem
  · obtain ⟨-, -, hlast⟩ := List.nodup_append.1 hnodup
    have hlast : last ∉ init := fun hmem => hlast last hmem last (.head _) rfl
    rw [List.length_append, List.length_singleton] at hlen ⊢
    rw [List.getLast?_concat, Option.some.injEq]
    rcases eq_or_ne last name with rfl | hother
    · rw [List.filter_append, filter_ne_of_not_mem hlast, List.filter_cons_of_neg (by simp),
        List.filter_nil, List.append_nil]
      constructor
      · intro h
        have h := congrArg List.length h
        rw [List.length_take, List.length_append, List.length_singleton] at h
        exact ⟨by omega, rfl⟩
      · rintro ⟨h, -⟩
        rw [List.take_append_of_le_length (by omega), List.take_of_length_le (by omega)]
    · refine iff_of_false (fun h => ?_) fun h => hother h.2
      have hback : last ∈ (init ++ [last]).take max := by
        rw [← h]
        exact List.mem_filter.2 ⟨by simp, decide_eq_true hother⟩
      rcases Nat.lt_or_ge init.length max with hmax | hmax
      · rw [List.take_of_length_le (by rw [List.length_append]; exact hmax)] at h
        exact of_decide_eq_true (List.filter_eq_self.1 h _ hmem) rfl
      · rw [List.take_append_of_le_length hmax] at hback
        exact hlast (List.mem_of_mem_take hback)

/-- Two names that are not the same take different ones out of a list that is bounded, unless there
is nothing to take out, or the bound takes it out as well. -/
theorem filter_eq_take_iff {items : List QString} (hnodup : items.Nodup) {max : Nat}
    (hlen : items.length ≤ max + 1) (hne : name ≠ currentText) :
    items.filter (· ≠ currentText) = (items.filter (· ≠ name)).take max ↔
      name ∉ items ∧ (currentText ∉ items ∧ items.length ≤ max ∨
        items.length = max + 1 ∧ items.getLast? = some currentText) := by
  rcases Classical.em (name ∈ items) with hname | hname
  · refine iff_of_false (fun h => ?_) fun h => h.1 hname
    have hmem : name ∈ items.filter (· ≠ currentText) :=
      List.mem_filter.2 ⟨hname, decide_eq_true hne⟩
    rw [h] at hmem
    simpa using List.mem_of_mem_take hmem
  · rw [filter_ne_of_not_mem hname, and_iff_right hname]
    rcases Classical.em (currentText ∈ items) with htext | htext
    · rw [filter_eq_take_of_mem hnodup hlen htext, or_iff_right fun h => h.1 htext]
    · rw [filter_ne_of_not_mem htext, and_iff_right htext,
        or_iff_left fun h => htext (List.mem_of_getLast? h.2)]
      constructor
      · intro h
        have h := congrArg List.length h
        rw [List.length_take] at h
        omega
      · exact fun h => (List.take_of_length_le h).symm

/-! ## Calls -/

/-- The history that a call should leave is bounded and has no doubles. -/
theorem nodup_recent (h : b.items.Nodup) (max : Nat) (name : QString) :
    (recent max name b.items).Nodup := by
  have hnot : name ∉ b.items.filter (· ≠ name) := by
    simp
  exact (List.nodup_cons.2 ⟨hnot, h.filter _⟩).sublist (List.take_sublist _ _)

/-- A name is added as it should be if and only if the call is orderly. -/
theorem added_iff (hb : b.Bounded) :
    (b.addToList str currentText).items.head? = some (nameOf str currentText) ∧
      (b.addToList str currentText).items =
        recent b.box_max_items.toNat (nameOf str currentText) b.items ↔
    b.Orderly (.addToList str currentText) := by
  have hlen := hb.length_le
  have hadd : (b.addToList str currentText).items = nameOf str currentText ::
      (b.items.filter (· ≠ currentText)).take b.box_max_items.toNat := by
    rw [items_addToList, show (b.box_max_items + 1).toNat = b.box_max_items.toNat + 1 by omega]
    rfl
  rw [hadd, List.head?_cons, and_iff_right rfl, Orderly]
  generalize hname : nameOf str currentText = name
  cases hmax : b.box_max_items.toNat with
  | zero =>
      have hnil : b.items = [] := List.length_eq_zero_iff.1 (by omega)
      refine iff_of_false (fun h => nomatch h) ?_
      rintro (⟨-, h⟩ | ⟨-, -, ⟨-, h⟩ | ⟨-, h⟩⟩)
      · omega
      · omega
      · rw [hnil] at h
        cases h
  | succ max =>
      have hshort : (b.items.filter (· ≠ currentText)).take (max + 1) =
          b.items.filter (· ≠ currentText) :=
        List.take_of_length_le ((List.length_filter_le _ _).trans (by omega))
      rw [hshort, recent, List.take_succ_cons, List.cons.injEq, and_iff_right rfl]
      rcases eq_or_ne name currentText with rfl | hne
      · rw [eq_comm, List.take_eq_self_iff]
        constructor
        · intro h
          exact .inl ⟨rfl, by omega⟩
        · rintro (⟨-, h⟩ | ⟨h, -⟩)
          · omega
          · exact absurd rfl h
      · rw [filter_eq_take_iff hb.nodup (by omega) hne]
        constructor
        · rintro ⟨hnot, hroom | hfull⟩
          · exact .inr ⟨hne, hnot, .inl ⟨hroom.1, by omega⟩⟩
          · exact .inr ⟨hne, hnot, .inr ⟨by omega, hfull.2⟩⟩
        · rintro (⟨h, -⟩ | ⟨-, hnot, hroom | hfull⟩)
          · exact absurd h hne
          · exact ⟨hnot, .inl ⟨hroom.1, by omega⟩⟩
          · exact ⟨hnot, .inr ⟨by omega, hfull.2⟩⟩

/-- A call on a bounded list without doubles leaves what it should if and only if it is orderly. -/
theorem kept_iff (hb : b.Bounded) (hs : b.step call = some (b', tr)) :
    Kept b call b' ↔ b.Orderly call := by
  cases call with
  | setMaxItems size =>
      obtain ⟨rfl, rfl⟩ := Prod.mk.inj (Option.some.inj hs)
      have hsame : (b.items.length : Int) ≤ size →
          (b.setMaxItems size).items = b.items ∧ b.items.take size.toNat = b.items := by
        intro h
        rw [items_setMaxItems]
        exact ⟨List.take_of_length_le (by omega), List.take_of_length_le (by omega)⟩
      constructor
      · intro h
        have hlen := h.bounded.length_le
        rw [items_setMaxItems, List.length_take] at hlen
        have hsize : (b.setMaxItems size).box_max_items = size := rfl
        show (b.items.length : Int) ≤ size
        omega
      · intro h
        obtain ⟨hitems, htake⟩ := hsame h
        refine ⟨⟨?_, ?_⟩, fun _ _ hcall => (nomatch hcall), ?_⟩
        · rw [hitems]
          exact h
        · rw [hitems]
          exact hb.nodup
        · rintro _ ⟨⟩
          rw [hitems, htake]
  | addToList str currentText =>
      obtain ⟨rfl, rfl⟩ := Prod.mk.inj (Option.some.inj hs)
      have hlen := hb.length_le
      have hmain : _ ↔ b.Orderly (.addToList str currentText) := added_iff hb
      constructor
      · intro h
        exact hmain.1 (h.added str currentText rfl)
      · intro h
        obtain ⟨hhead, hitems⟩ := hmain.2 h
        refine ⟨⟨?_, ?_⟩, ?_, fun _ hcall => nomatch hcall⟩
        · rw [hitems, recent, List.length_take]
          show _ ≤ b.box_max_items
          omega
        · rw [hitems]
          exact nodup_recent hb.nodup _ _
        · rintro _ _ ⟨⟩
          exact ⟨hhead, hitems⟩

end HistoryBox

end NetISDN
