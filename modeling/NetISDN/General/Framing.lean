import Mathlib.Data.List.Infix

/-!
# Messages that end with a mark

A stream of messages each of which ends with a mark that it contains nowhere else, and a reader that
takes one symbol at a time. What it has buffered and what is still under way are, in sequence, the
messages that it has yet to take (`Holds`), and when it reads the mark it takes the first of them.
-/

namespace Framing

variable {α : Type*} {mark a : α} {buffer flight m line : List α} {ms ms' : List (List α)}

/-- A message: the mark is its last symbol, and no other. -/
def IsMessage (mark : α) (m : List α) : Prop := ∃ line, m = line ++ [mark] ∧ mark ∉ line

/-- The symbols that are buffered, and those under way, are the messages `ms`. -/
structure Holds (mark : α) (buffer flight : List α) (ms : List (List α)) : Prop where
  text : buffer ++ flight = ms.flatten
  messages : ∀ m ∈ ms, IsMessage mark m
  buffered : mark ∉ buffer

/-- An empty line holds nothing. -/
theorem holds_nil : Holds mark [] [] ([] : List (List α)) :=
  ⟨rfl, fun _ h => (nomatch h), List.not_mem_nil⟩

/-- A text is cut at its first mark in one way only. -/
theorem cut {rest rest' : List α} (hline : mark ∉ line) (hbuffer : mark ∉ buffer)
    (h : line ++ mark :: rest = buffer ++ mark :: rest') : line = buffer ∧ rest = rest' := by
  rcases List.append_eq_append_iff.1 h with ⟨as, rfl, hcs⟩ | ⟨as, rfl, hcs⟩
  · cases as with
    | nil => simpa using hcs
    | cons x as =>
        obtain rfl : mark = x := (List.cons.inj hcs).1
        exact absurd (List.mem_append_right _ List.mem_cons_self) hbuffer
  · cases as with
    | nil => simpa [eq_comm] using hcs
    | cons x as =>
        obtain rfl : mark = x := (List.cons.inj hcs).1
        exact absurd (List.mem_append_right _ List.mem_cons_self) hline

/-- Messages are put behind those that are under way. -/
theorem Holds.send (h : Holds mark buffer flight ms) (hms : ∀ m ∈ ms', IsMessage mark m) :
    Holds mark buffer (flight ++ ms'.flatten) (ms ++ ms') where
  text := by rw [← List.append_assoc, h.text, List.flatten_append]
  messages := List.forall_mem_append.2 ⟨h.messages, hms⟩
  buffered := h.buffered

/-- A symbol is buffered. -/
theorem Holds.receive (h : Holds mark buffer (a :: flight) ms) (ha : a ≠ mark) :
    Holds mark (buffer ++ [a]) flight ms where
  text := by rw [← h.text, List.append_assoc, List.singleton_append]
  messages := h.messages
  buffered := by
    intro hmem
    rcases List.mem_append.1 hmem with hmem | hmem
    · exact h.buffered hmem
    · exact ha (List.mem_singleton.1 hmem).symm

/-- The mark completes the first message. -/
theorem Holds.complete (h : Holds mark buffer (mark :: flight) ms) :
    ∃ ms', ms = (buffer ++ [mark]) :: ms' ∧ Holds mark [] flight ms' := by
  cases ms with
  | nil => simpa using h.text
  | cons m ms =>
      obtain ⟨hm, hms⟩ := List.forall_mem_cons.1 h.messages
      obtain ⟨line, rfl, hline⟩ := hm
      have htext := h.text
      rw [List.flatten_cons, List.append_assoc, List.singleton_append] at htext
      obtain ⟨rfl, hrest⟩ := cut h.buffered hline htext
      exact ⟨ms, rfl, hrest, hms, List.not_mem_nil⟩

/-- When nothing is under way, nothing is buffered, and there is no message to come. -/
theorem Holds.done (h : Holds mark buffer [] ms) : buffer = [] ∧ ms = [] := by
  cases ms with
  | nil => exact ⟨by simpa using h.text, rfl⟩
  | cons m ms =>
      obtain ⟨line, rfl, -⟩ := h.messages m List.mem_cons_self
      have htext := h.text
      rw [List.append_nil] at htext
      exact absurd (htext ▸ by simp) h.buffered

/-! ## Requests among other symbols -/

/-- The symbols stop at the end of a message. -/
def Closed (mark : α) (text : List α) : Prop := text = [] ∨ text.getLast? = some mark

instance [DecidableEq α] (mark : α) (text : List α) : Decidable (Closed mark text) :=
  inferInstanceAs (Decidable (_ ∨ _))

/-- Two closed lines, one behind the other. -/
theorem Closed.append (h : Closed mark line) (h' : Closed mark m) : Closed mark (line ++ m) := by
  rcases h' with rfl | h'
  · rwa [List.append_nil]
  · exact .inr (by rw [List.getLast?_append, h']; rfl)

/-- Closed lines joined are closed. -/
theorem closed_flatten (h : ∀ m ∈ ms, Closed mark m) : Closed mark ms.flatten := by
  induction ms with
  | nil => exact .inl rfl
  | cons m ms ih =>
      obtain ⟨hm, hms⟩ := List.forall_mem_cons.1 h
      exact hm.append (ih hms)

/-- What stands behind a piece of a closed line is closed. -/
theorem Closed.tail (h : Closed mark (line ++ m)) : Closed mark m := by
  rcases h with h | h
  · exact .inl (List.append_eq_nil_iff.1 h).2
  · cases m with
    | nil => exact .inl rfl
    | cons x m => exact .inr (by rw [← h, List.getLast?_append_of_ne_nil _ (List.cons_ne_nil x m)])

/-- `m` is among the messages of a text whose other symbols may be anything. -/
def Contains (mark : α) (m text : List α) : Prop :=
  ∃ pre post, text = pre ++ m ++ post ∧ Closed mark pre

/-- A message is contained in a text if it stands behind one of its beginnings. -/
theorem contains_iff : Contains mark m line ↔
    ∃ pre ∈ line.inits, m <+: line.drop pre.length ∧ Closed mark pre := by
  constructor
  · rintro ⟨pre, post, rfl, hpre⟩
    refine ⟨pre, (List.mem_inits _ _).2 ⟨m ++ post, by simp⟩, ⟨post, ?_⟩, hpre⟩
    rw [List.append_assoc, List.drop_left]
  · rintro ⟨pre, hmem, ⟨post, hpost⟩, hpre⟩
    obtain ⟨rest, rfl⟩ := (List.mem_inits _ _).1 hmem
    rw [List.drop_left] at hpost
    exact ⟨pre, post, by rw [List.append_assoc, hpost], hpre⟩

instance [DecidableEq α] (mark : α) (m line : List α) : Decidable (Contains mark m line) :=
  decidable_of_iff _ contains_iff.symm

/-- A line still contains a message when more is put behind it. -/
theorem Contains.append (h : Contains mark m line) : Contains mark m (line ++ flight) := by
  obtain ⟨pre, post, rfl, hpre⟩ := h
  exact ⟨pre, post ++ flight, by simp, hpre⟩

/-- A closed line with a message behind it contains the message. -/
theorem contains_of_closed (h : Closed mark line) : Contains mark m (line ++ m) :=
  ⟨line, [], by simp, h⟩

/-- When the first message of the text is taken, it is the one, or that is still to come. -/
theorem Contains.complete (hm : IsMessage mark m) (hbuffer : mark ∉ buffer)
    (h : Contains mark m (buffer ++ mark :: flight)) :
    m = buffer ++ [mark] ∨ Contains mark m flight := by
  obtain ⟨pre, post, htext, hpre⟩ := h
  obtain ⟨line, rfl, hline⟩ := hm
  by_cases hmark : mark ∈ pre
  · -- the first message stands in front of `m`
    obtain ⟨first, rest, rfl, hfirst⟩ := List.eq_append_cons_of_mem hmark
    rw [List.append_assoc, List.append_assoc, List.cons_append] at htext
    obtain ⟨rfl, hflight⟩ := cut hbuffer hfirst htext
    refine .inr ⟨rest, post, by rw [hflight, List.append_assoc rest], ?_⟩
    rw [List.append_cons] at hpre
    exact hpre.tail
  · obtain rfl : pre = [] := hpre.resolve_right fun h => hmark (List.mem_of_getLast? h)
    rw [List.nil_append, List.append_assoc, List.singleton_append] at htext
    obtain ⟨rfl, -⟩ := cut hbuffer hline htext
    exact .inl rfl

end Framing
