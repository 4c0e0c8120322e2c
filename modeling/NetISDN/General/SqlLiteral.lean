import Mathlib.Data.List.Basic
import Mathlib.Data.List.TakeWhile

/-!
# Double-quoted literals of SQL

What MySQL reads of a literal between double quotes: a backslash begins an escape sequence, a
doubled quote stands for one, and a single quote ends the literal. A text between quotes stands for
itself exactly if there is no quote in it, and a backslash only in front of `%` or `_`, where it
stays (`reads_iff_verbatim`). A statement that is put together from a template and such texts is
read as the template with the texts in their places (`KeepsTemplate.readSql`).
-/

namespace SqlLiteral

/-- What a backslash and a character stand for. -/
def unescape : Char → List Char
  | '0' => ['\x00']
  | 'b' => ['\x08']
  | 'n' => ['\n']
  | 'r' => ['\r']
  | 't' => ['\t']
  | 'Z' => ['\x1a']
  | '%' => ['\\', '%']
  | '_' => ['\\', '_']
  | c => [c]

/-- The value of a literal whose opening quote has been read, and what follows it; `none` if it is
not closed. -/
def readLiteral : List Char → Option (List Char × List Char)
  | [] => none
  | ['\\'] => none
  | '\\' :: c :: s => (readLiteral s).map fun (v, rest) => (unescape c ++ v, rest)
  | '"' :: '"' :: s => (readLiteral s).map fun (v, rest) => ('"' :: v, rest)
  | '"' :: s => some ([], s)
  | c :: s => (readLiteral s).map fun (v, rest) => (c :: v, rest)

/-- The texts that stand for themselves. -/
inductive Verbatim : List Char → Prop
  | nil : Verbatim []
  | char {c : Char} {s : List Char} : c ≠ '"' → c ≠ '\\' → Verbatim s → Verbatim (c :: s)
  | pattern {c : Char} {s : List Char} : c = '%' ∨ c = '_' → Verbatim s → Verbatim ('\\' :: c :: s)

variable {c : Char} {s v rest : List Char}

/-- Only in front of `%` and `_` a backslash stays. -/
theorem unescape_eq (c : Char) : (c = '%' ∨ c = '_') ∧ unescape c = ['\\', c] ∨
    ¬ (c = '%' ∨ c = '_') ∧ ∃ d, unescape c = [d] := by
  unfold unescape
  split
  all_goals first
    | exact .inl ⟨by decide, rfl⟩
    | exact .inr ⟨by decide, _, rfl⟩
    | next hpercent hunderscore => exact .inr ⟨by simp_all, _, rfl⟩

/-- A literal is at least as long as its value. -/
theorem length_readLiteral (h : readLiteral s = some (v, rest)) :
    v.length + rest.length + 1 ≤ s.length := by
  fun_induction readLiteral s generalizing v with
  | case1 => cases h
  | case2 => cases h
  | case3 c s ih =>
      obtain ⟨⟨v', rest'⟩, hread, heq⟩ := Option.map_eq_some_iff.1 h
      obtain ⟨rfl, rfl⟩ := Prod.mk.inj heq
      have hle := ih hread
      have hlen : (unescape c).length ≤ 2 := by
        rcases unescape_eq c with ⟨-, hc⟩ | ⟨-, d, hc⟩
        · rw [hc]
          exact Nat.le_refl 2
        · rw [hc]
          exact Nat.le_succ 1
      rw [List.length_append, List.length_cons, List.length_cons]
      omega
  | case4 s ih =>
      obtain ⟨⟨v', rest'⟩, hread, heq⟩ := Option.map_eq_some_iff.1 h
      obtain ⟨rfl, rfl⟩ := Prod.mk.inj heq
      have hle := ih hread
      simp only [List.length_cons]
      omega
  | case5 s hnot =>
      obtain ⟨rfl, rfl⟩ := Prod.mk.inj (Option.some.inj h)
      simp
  | case6 c s _ _ _ _ ih =>
      obtain ⟨⟨v', rest'⟩, hread, heq⟩ := Option.map_eq_some_iff.1 h
      obtain ⟨rfl, rfl⟩ := Prod.mk.inj heq
      have hle := ih hread
      simp only [List.length_cons]
      omega

/-- A character that no escape sequence stands for is at least as often in a literal as in its
value. -/
theorem count_readLiteral (hc : ∀ d, (unescape d).count c ≤ [d].count c)
    (h : readLiteral s = some (v, rest)) : v.count c + rest.count c ≤ s.count c := by
  fun_induction readLiteral s generalizing v with
  | case1 => cases h
  | case2 => cases h
  | case3 d s ih =>
      obtain ⟨⟨v', rest'⟩, hread, heq⟩ := Option.map_eq_some_iff.1 h
      obtain ⟨rfl, rfl⟩ := Prod.mk.inj heq
      have hle := ih hread
      have hd := hc d
      rw [List.count_append]
      simp only [List.count_cons, List.count_nil] at hd ⊢
      omega
  | case4 s ih =>
      obtain ⟨⟨v', rest'⟩, hread, heq⟩ := Option.map_eq_some_iff.1 h
      obtain ⟨rfl, rfl⟩ := Prod.mk.inj heq
      have hle := ih hread
      simp only [List.count_cons]
      omega
  | case5 s hnot =>
      obtain ⟨rfl, rfl⟩ := Prod.mk.inj (Option.some.inj h)
      simp [List.count_cons]
  | case6 d s _ _ _ _ ih =>
      obtain ⟨⟨v', rest'⟩, hread, heq⟩ := Option.map_eq_some_iff.1 h
      obtain ⟨rfl, rfl⟩ := Prod.mk.inj heq
      have hle := ih hread
      simp only [List.count_cons]
      omega

/-- A plain character is read as it stands. -/
theorem readLiteral_cons (hquote : c ≠ '"') (hbackslash : c ≠ '\\') :
    readLiteral (c :: s) = (readLiteral s).map fun (v, rest) => (c :: v, rest) := by
  rw [readLiteral]
  · exact fun heq _ => hbackslash heq
  · exact fun _ _ heq => absurd heq hbackslash
  · exact fun _ heq => absurd heq hquote
  · exact hquote

/-- A text that stands for itself is read between quotes, unless it seems to be followed by a
doubled quote. -/
theorem Verbatim.readLiteral (h : Verbatim v) (hrest : rest.head? ≠ some '"') :
    readLiteral (v ++ '"' :: rest) = some (v, rest) := by
  induction h with
  | nil =>
      cases rest with
      | nil => rfl
      | cons c rest =>
          rw [List.nil_append, SqlLiteral.readLiteral]
          intro s heq
          exact hrest (congrArg List.head? heq)
  | @char c s hquote hbackslash _ ih =>
      rw [List.cons_append, readLiteral_cons hquote hbackslash, ih, Option.map_some]
  | @pattern c s hc _ ih =>
      rw [List.cons_append, List.cons_append, SqlLiteral.readLiteral, ih, Option.map_some]
      rcases hc with rfl | rfl
      · rfl
      · rfl

/-- A text that is read between quotes as itself. -/
theorem verbatim_of_readLiteral (h : readLiteral (v ++ '"' :: rest) = some (v, rest)) :
    Verbatim v := by
  obtain ⟨s, hs⟩ : ∃ s, s = v ++ '"' :: rest := ⟨_, rfl⟩
  rw [← hs] at h
  fun_induction SqlLiteral.readLiteral s generalizing v with
  | case1 => cases h
  | case2 => cases h
  | case3 c s ih =>
      obtain ⟨⟨v', rest'⟩, hread, heq⟩ := Option.map_eq_some_iff.1 h
      obtain ⟨rfl, rfl⟩ := Prod.mk.inj heq
      rcases unescape_eq c with ⟨hc, hunescape⟩ | ⟨-, d, hunescape⟩
      · rw [hunescape] at hs ⊢
        have hs' : s = v' ++ '"' :: rest' := (List.cons.inj (List.cons.inj hs).2).2
        exact .pattern hc (ih hread hs')
      · -- one character stands for two, so the literal is too short
        have hle := length_readLiteral hread
        have hlength := congrArg List.length hs
        simp only [hunescape, List.length_cons, List.length_append, List.length_nil] at hlength
        omega
  | case4 s ih =>
      obtain ⟨⟨v', rest'⟩, hread, heq⟩ := Option.map_eq_some_iff.1 h
      obtain ⟨rfl, rfl⟩ := Prod.mk.inj heq
      have hle := length_readLiteral hread
      have hlength := congrArg List.length hs
      simp only [List.length_append, List.length_cons] at hlength
      omega
  | case5 s hnot =>
      obtain ⟨rfl, rfl⟩ := Prod.mk.inj (Option.some.inj h)
      exact .nil
  | case6 c s hend hescape hdouble hquote ih =>
      obtain ⟨⟨v', rest'⟩, hread, heq⟩ := Option.map_eq_some_iff.1 h
      obtain ⟨rfl, rfl⟩ := Prod.mk.inj heq
      have hs' : s = v' ++ '"' :: rest' := (List.cons.inj hs).2
      refine .char hquote (fun hc => ?_) (ih hread hs')
      cases s with
      | nil => exact hend hc rfl
      | cons d s => exact hescape d s hc rfl

/-- **A text stands for itself between quotes if and only if it has no quote, and no backslash but
in front of `%` or `_`.** -/
theorem reads_iff_verbatim (hrest : rest.head? ≠ some '"') :
    readLiteral (v ++ '"' :: rest) = some (v, rest) ↔ Verbatim v :=
  ⟨verbatim_of_readLiteral, fun h => h.readLiteral hrest⟩

/-- Text without quotes and backslashes stands for itself. -/
theorem verbatim_of_forall (h : ∀ c ∈ s, c ≠ '"' ∧ c ≠ '\\') : Verbatim s := by
  induction s with
  | nil => exact .nil
  | cons c s ih =>
      obtain ⟨⟨hquote, hbackslash⟩, hs⟩ := List.forall_mem_cons.1 h
      exact .char hquote hbackslash (ih hs)

/-! ## Escaped texts -/

/-- The number of backslashes at the end of a text. -/
def trailingBackslashes (s : List Char) : Nat := (s.reverse.takeWhile (· = '\\')).length

/-- A text that cannot end a literal it stands in: the backslashes in front of each of its quotes
are odd in number, and those at its end are even. -/
structure Enclosed (s : List Char) : Prop where
  quotes : ∀ front rest, s = front ++ '"' :: rest → trailingBackslashes front % 2 = 1
  last : trailingBackslashes s % 2 = 0

/-- A backslash behind a text is one more, any other character ends the run. -/
theorem trailingBackslashes_concat (s : List Char) (c : Char) : trailingBackslashes (s ++ [c]) =
    if c = '\\' then trailingBackslashes s + 1 else 0 := by
  rw [trailingBackslashes, List.reverse_append, List.reverse_singleton, List.singleton_append,
    List.takeWhile_cons]
  split
  · next hc => rw [if_pos (of_decide_eq_true hc)]; rfl
  · next hc => rw [if_neg fun heq => hc (decide_eq_true heq)]; rfl

/-- A quote in a text that is longer by one is that one, or has been there. -/
theorem quote_concat {front : List Char} (h : s ++ [c] = front ++ '"' :: rest) :
    (c = '"' ∧ front = s) ∨ ∃ rest', s = front ++ '"' :: rest' := by
  rcases List.eq_nil_or_concat' rest with rfl | ⟨rest', d, rfl⟩
  · obtain ⟨rfl, hc⟩ := List.append_inj' h rfl
    exact .inl ⟨List.singleton_inj.1 hc, rfl⟩
  · rw [← List.cons_append, ← List.append_assoc] at h
    exact .inr ⟨rest', (List.append_inj' h rfl).1⟩

/-- The empty text encloses itself. -/
theorem Enclosed.nil : Enclosed [] where
  quotes := fun _ _ h =>
    absurd h.symm (List.append_ne_nil_of_right_ne_nil _ (List.cons_ne_nil _ _))
  last := rfl

/-- A plain character may be put behind an enclosed text. -/
theorem Enclosed.char (h : Enclosed s) (hquote : c ≠ '"') (hbackslash : c ≠ '\\') :
    Enclosed (s ++ [c]) where
  quotes := fun front rest heq => by
    rcases quote_concat heq with ⟨hc, -⟩ | ⟨rest', heq⟩
    · exact absurd hc hquote
    · exact h.quotes front rest' heq
  last := by rw [trailingBackslashes_concat, if_neg hbackslash]

/-- An escaped character may be any. -/
theorem Enclosed.escaped (h : Enclosed s) (c : Char) : Enclosed (s ++ ['\\', c]) := by
  have hback : trailingBackslashes (s ++ ['\\']) = trailingBackslashes s + 1 :=
    trailingBackslashes_concat s '\\'
  have hlast := h.last
  rw [List.append_cons]
  constructor
  · intro front rest heq
    rcases quote_concat heq with ⟨-, rfl⟩ | ⟨rest', heq⟩
    · omega
    · rcases quote_concat heq with ⟨hc, -⟩ | ⟨rest', heq⟩
      · exact absurd hc (by decide)
      · exact h.quotes front rest' heq
  · rw [trailingBackslashes_concat]
    split
    · omega
    · rfl

/-! ## Statements -/

/-- A place of a template between double quotes: the code in front of it, the text that is put
there, and the value that it is to stand for. -/
structure Place where
  code : List Char
  text : List Char
  value : List Char
  code_quote : '"' ∉ code

/-- A statement: a template, with texts in its places. -/
structure Statement where
  places : List Place
  tail : List Char
  tail_quote : '"' ∉ tail

/-- The places from one on, put together. -/
def placesText : List Place → List Char → List Char
  | [], tail => tail
  | place :: places, tail => place.code ++ '"' :: (place.text ++ '"' :: placesText places tail)

/-- The text of a statement. -/
def Statement.text (st : Statement) : List Char := placesText st.places st.tail

/-- The literal in each place ends at the quote that the template has there, and its value is the
one that it is to stand for. -/
def KeepsTemplate : List Place → List Char → Prop
  | [], _ => True
  | place :: places, tail =>
      readLiteral (place.text ++ '"' :: placesText places tail) =
        some (place.value, placesText places tail) ∧ KeepsTemplate places tail

/-- The literals of a statement, each with the code in front of it, and the code at its end. -/
def readSql (text : List Char) : Option (List (List Char × List Char) × List Char) :=
  match _h : text.dropWhile (· ≠ '"') with
  | [] => some ([], text)
  | _ :: body =>
      match _hread : readLiteral body with
      | none => none
      | some (v, rest) =>
          (readSql rest).map fun (literals, tail) =>
            ((text.takeWhile (· ≠ '"'), v) :: literals, tail)
termination_by text.length
decreasing_by
  have hle := length_readLiteral _hread
  have hdrop := (List.dropWhile_sublist (· ≠ '"') (l := text)).length_le
  rw [_h, List.length_cons] at hdrop
  omega

section
variable {place : Place} {places : List Place} {tail code body : List Char}

/-- Code without a quote is read whole. -/
theorem readSql_tail (htail : '"' ∉ tail) : readSql tail = some ([], tail) := by
  have hdrop : tail.dropWhile (· ≠ '"') = [] :=
    List.dropWhile_eq_nil_iff.2 fun c hc => decide_eq_true fun heq => htail (heq ▸ hc)
  rw [readSql]
  split
  · rfl
  · next heq => cases hdrop.symm.trans heq

/-- Code, a literal, and the rest. -/
theorem readSql_literal (hcode : '"' ∉ code) (hread : readLiteral body = some (v, rest)) :
    readSql (code ++ '"' :: body) =
      (readSql rest).map fun (literals, tail) => ((code, v) :: literals, tail) := by
  have hpos : ∀ c ∈ code, decide (c ≠ '"') = true :=
    fun c hc => decide_eq_true fun heq => hcode (heq ▸ hc)
  have hdrop : (code ++ '"' :: body).dropWhile (· ≠ '"') = '"' :: body := by
    rw [List.dropWhile_append_of_pos hpos, List.dropWhile_cons_of_neg (by simp)]
  have htake : (code ++ '"' :: body).takeWhile (· ≠ '"') = code := by
    rw [List.takeWhile_append_of_pos hpos, List.takeWhile_cons_of_neg (by simp), List.append_nil]
  rw [readSql]
  split
  · next heq => cases hdrop.symm.trans heq
  · next heq =>
      obtain ⟨-, rfl⟩ := List.cons.inj (hdrop.symm.trans heq)
      split
      · next hnone => cases hread.symm.trans hnone
      · next v' rest' hread' =>
          obtain ⟨rfl, rfl⟩ := Prod.mk.inj (Option.some.inj (hread.symm.trans hread'))
          rw [htake]

/-- **A statement that keeps its template is read as the template with the values in its places.**
-/
theorem KeepsTemplate.readSql (h : KeepsTemplate places tail) (htail : '"' ∉ tail) :
    readSql (placesText places tail) =
      some (places.map fun place => (place.code, place.value), tail) := by
  induction places with
  | nil => exact readSql_tail htail
  | cons place places ih =>
      rw [placesText, readSql_literal place.code_quote h.1, ih h.2]
      rfl

/-- No literal follows another. -/
theorem head?_placesText (hcode : ∀ place ∈ places, place.code ≠ []) (htail : '"' ∉ tail) :
    (placesText places tail).head? ≠ some '"' := by
  cases places with
  | nil =>
      intro h
      exact htail (List.mem_of_mem_head? h)
  | cons place places =>
      obtain ⟨c, code, hc⟩ := List.exists_cons_of_ne_nil (hcode place List.mem_cons_self)
      rw [placesText, hc]
      intro h
      obtain rfl := Option.some.inj h
      exact place.code_quote (hc ▸ List.mem_cons_self)

/-- The text of a statement is read as its template with the values in the places, each literal
ending at the template's own quote. -/
def Statement.ReadsAsTemplate (st : Statement) : Prop :=
  KeepsTemplate st.places st.tail ∧
    SqlLiteral.readSql st.text =
      some (st.places.map fun place => (place.code, place.value), st.tail)

/-- A statement reads as its template exactly when its places keep the template. -/
theorem Statement.readsAsTemplate_iff (st : Statement) :
    st.ReadsAsTemplate ↔ KeepsTemplate st.places st.tail :=
  ⟨fun h => h.1, fun h => ⟨h, h.readSql st.tail_quote⟩⟩

end

end SqlLiteral
