import Mathlib.Data.List.Basic
import Mathlib.Data.List.TakeWhile
import Mathlib.Data.Nat.Digits.Defs

/-!
# `QString` and `QStringList`

The text operations of Qt 3 that the server and the client use. A `QString` is a list of
characters; what arrives on a socket is Latin-1, one character a byte. Numbers are read the
way `QString::toUInt` and `QString::toInt` read them: white space around the number and a
sign are accepted, and a text that is not a number in range reads as `0` with `ok` false,
which is `none` here.
-/

namespace NetISDN

/-- `QString`, and a byte read from a socket as the character it is appended as. -/
abbrev QString := List Char

instance : Coe String QString := ⟨String.toList⟩

/-- `QStringList`. -/
abbrev QStringList := List QString

/-- `QChar::isSpace`, on the Latin-1 characters that a socket delivers. -/
def isSpace (c : Char) : Bool :=
  (9 ≤ c.toNat && c.toNat ≤ 13) || c.toNat = 32 || c.toNat = 160

/-- An ASCII character. -/
def isAscii (c : Char) : Bool := c.toNat < 128

/-- `QString::stripWhiteSpace`. -/
def stripWhiteSpace (s : QString) : QString :=
  ((s.dropWhile isSpace).reverse.dropWhile isSpace).reverse

/-- `QStringList::split(sep,str)`: empty entries are dropped. -/
def split (sep : Char) (str : QString) : QStringList :=
  (str.splitOn sep).filter (· ≠ [])

/-- `list[i]`. Qt 3 counts nodes from the head of a circular list, so one past the end is the
end node, whose text is null. -/
def QStringList.at (cmd : QStringList) (i : Nat) : QString := cmd.getD i []

/-- `QStringList::join`. -/
def join (sep : QString) (l : QStringList) : QString := sep.intercalate l

/-- `sprintf("%u",n)`. -/
def sprintfU (n : Nat) : QString := Nat.toDigits 10 n

/-- `sprintf("%d",n)`. -/
def sprintfD : Int → QString
  | .ofNat n => sprintfU n
  | .negSucc n => '-' :: sprintfU (n + 1)

/-- `sprintf("%08x",n)` of a 32-bit number. -/
def sprintf08x (n : Nat) : QString :=
  let d := Nat.toDigits 16 n
  List.replicate (8 - d.length) '0' ++ d

/-- The digits at the front of a number's text and what follows them. -/
def spanDigits (s : QString) : QString × QString :=
  (s.takeWhile Char.isDigit, s.dropWhile Char.isDigit)

/-- The digits of an unsigned number between optional white space, as `QString::toULong` and
`QString::toLong` accept them. -/
def toNumber (s : QString) : Option Nat :=
  let (digits, rest) := spanDigits s
  if digits ≠ [] ∧ rest.all isSpace then some (Nat.ofDigitChars 10 digits 0) else none

/-- `QString::toUInt(&ok)`; `none` is `ok` false. -/
def toUInt? (s : QString) : Option Nat :=
  let p := s.dropWhile isSpace
  let p := if p.head? = some '+' then p.tail else p
  (toNumber p).filter (· < 2 ^ 32)

/-- `QString::toUInt()`, which is `0` where the text is not a number. -/
def toUInt (s : QString) : Nat := (toUInt? s).getD 0

/-- `QString::toInt(&ok)`; `none` is `ok` false. -/
def toInt? (s : QString) : Option Int :=
  let p := s.dropWhile isSpace
  if p.head? = some '-' then
    ((toNumber p.tail).map fun n => -(n : Int)).filter (- 2 ^ 31 ≤ ·)
  else
    let p := if p.head? = some '+' then p.tail else p
    ((toNumber p).map fun n => (n : Int)).filter (· < 2 ^ 31)

/-! ## Framing -/

/-- The commands of a text that ends every command with `!`, as the two `ParseCommand` loops
cut it. -/
def frames (text : QString) : List QString := (text.splitOn '!').dropLast

/-! ## Texts that are read back -/

section
variable {n : Nat} {c sep : Char} {s t : QString} {ts : QStringList}

/-- A text joined from tokens, as `+` joins them. -/
theorem join_cons : join [sep] (t :: ts) = t ++ ts.flatMap (sep :: ·) := by
  induction ts generalizing t with
  | nil => simp [join]
  | cons t' ts ih => simpa [join, List.intercalate] using ih

/-- Joining texts brings in no characters but those of the separator. -/
theorem not_mem_join (hsep : c ≠ sep) (hts : ∀ t ∈ ts, c ∉ t) : c ∉ join [sep] ts := by
  cases ts with
  | nil => simp [join]
  | cons t ts =>
      obtain ⟨ht, hts⟩ := List.forall_mem_cons.1 hts
      simpa [join_cons, ht, hsep] using hts

/-- A text that is joined from tokens is split into them again. -/
theorem split_join (hts : ∀ t ∈ ts, t ≠ [] ∧ sep ∉ t) : split sep (join [sep] ts) = ts := by
  cases ts with
  | nil => simp [split, join]
  | cons t ts =>
      rw [split, join, List.splitOn_intercalate sep (fun t ht => (hts t ht).2) (by simp)]
      exact List.filter_eq_self.2 fun t ht => by simpa using (hts t ht).1

/-- A text with no white space at its ends. -/
theorem stripWhiteSpace_eq (hfirst : ∀ c ∈ s.head?, isSpace c = false)
    (hlast : ∀ c ∈ s.getLast?, isSpace c = false) : stripWhiteSpace s = s := by
  have hdrop : ∀ s : QString, (∀ c ∈ s.head?, isSpace c = false) → s.dropWhile isSpace = s := by
    intro s h
    cases s with
    | nil => rfl
    | cons c s => rw [List.dropWhile_cons_of_neg (by simp [h c rfl])]
  rw [stripWhiteSpace, hdrop s hfirst, hdrop s.reverse (by rwa [List.head?_reverse]),
    List.reverse_reverse]

/-- A text joined from tokens has no white space at its ends if the outer tokens have none. -/
theorem stripWhiteSpace_join (hne : ∀ t ∈ ts, t ≠ [])
    (hfirst : ∀ t ∈ ts.head?, ∀ c ∈ t.head?, isSpace c = false)
    (hlast : ∀ t ∈ ts.getLast?, ∀ c ∈ t.getLast?, isSpace c = false) :
    stripWhiteSpace (join [sep] ts) = join [sep] ts := by
  refine stripWhiteSpace_eq (fun c hc => ?_) fun c hc => ?_
  · cases ts with
    | nil => cases hc
    | cons t ts =>
        rw [join_cons, List.head?_append_of_ne_nil _ (hne t (.head _))] at hc
        exact hfirst t rfl c hc
  · rcases List.eq_nil_or_concat' ts with rfl | ⟨ts, t, rfl⟩
    · cases hc
    · obtain ⟨front, hjoin⟩ : ∃ front, join [sep] (ts ++ [t]) = front ++ t := by
        cases ts with
        | nil => exact ⟨[], by rw [List.nil_append, join_cons]; simp⟩
        | cons u us =>
            refine ⟨u ++ us.flatMap (sep :: ·) ++ [sep], ?_⟩
            rw [List.cons_append, join_cons]
            simp
      rw [hjoin, List.getLast?_append_of_ne_nil _ (hne t (by simp))] at hc
      exact hlast t (by simp) c hc

/-- A digit is no white space. -/
theorem isSpace_of_isDigit (h : c.isDigit) : isSpace c = false := by
  simp only [Char.isDigit, Bool.and_eq_true, decide_eq_true_eq, ge_iff_le,
    UInt32.le_iff_toNat_le] at h
  have hlow : 48 ≤ c.toNat := h.1
  have hhigh : c.toNat ≤ 57 := h.2
  simp only [isSpace, Bool.or_eq_false_iff, Bool.and_eq_false_iff, decide_eq_false_iff_not]
  omega

/-- Digits are ASCII. -/
theorem isAscii_of_isDigit (h : c.isDigit) : isAscii c := by
  have hle := (Char.isDigit_iff_toNat.1 h).2
  exact decide_eq_true (lt_of_le_of_lt hle (by decide))

/-- A number is printed with digits. -/
theorem isDigit_of_mem_sprintfU (h : c ∈ sprintfU n) : c.isDigit :=
  Nat.isDigit_of_mem_toDigits (by decide) (by decide) h

/-- A number is never printed as nothing. -/
theorem sprintfU_ne_nil : sprintfU n ≠ [] := Nat.toDigits_ne_nil

/-- What is no digit does not occur in a printed number. -/
theorem not_mem_sprintfU (h : c.isDigit = false) : c ∉ sprintfU n := fun hc => by
  rw [isDigit_of_mem_sprintfU hc] at h
  cases h

/-- A number begins with a digit. -/
theorem exists_sprintfU (n : Nat) : ∃ c cs, sprintfU n = c :: cs ∧ c.isDigit := by
  obtain ⟨c, cs, h⟩ := List.exists_cons_of_ne_nil (sprintfU_ne_nil (n := n))
  exact ⟨c, cs, h, isDigit_of_mem_sprintfU (h ▸ List.mem_cons_self)⟩

/-- A printed number is read back. -/
theorem toNumber_sprintfU : toNumber (sprintfU n) = some n := by
  have hall : ∀ c ∈ sprintfU n, c.isDigit := fun c hc => isDigit_of_mem_sprintfU hc
  have hspan : spanDigits (sprintfU n) = (sprintfU n, []) := by
    rw [spanDigits, List.takeWhile_eq_self_iff.2 hall, List.dropWhile_eq_nil_iff.2 hall]
  rw [toNumber, hspan]
  simp [sprintfU, Nat.ofDigitChars_ten_toDigits]

/-- No white space and no sign stands before a number. -/
theorem dropWhile_sprintfU : (sprintfU n).dropWhile isSpace = sprintfU n ∧
    (sprintfU n).head? ≠ some '+' ∧ (sprintfU n).head? ≠ some '-' := by
  obtain ⟨c, cs, h, hc⟩ := exists_sprintfU n
  rw [h, List.dropWhile_cons, isSpace_of_isDigit hc]
  refine ⟨rfl, ?_, ?_⟩
  · rintro ⟨⟩
    cases hc
  · rintro ⟨⟩
    cases hc

/-- A printed number that fits 32 bits is read back. -/
theorem toUInt?_sprintfU (hn : n < 2 ^ 32) : toUInt? (sprintfU n) = some n := by
  obtain ⟨hdrop, hplus, -⟩ := @dropWhile_sprintfU n
  simp only [toUInt?, hdrop, if_neg hplus, toNumber_sprintfU, Option.filter_some, hn,
    decide_true, if_true]

/-- A printed number that fits 32 bits is read back. -/
theorem toUInt_sprintfU (hn : n < 2 ^ 32) : toUInt (sprintfU n) = n := by
  rw [toUInt, toUInt?_sprintfU hn, Option.getD_some]

/-- A printed number that fits 31 bits is read back with a sign. -/
theorem toInt?_sprintfU (hn : n < 2 ^ 31) : toInt? (sprintfU n) = some (n : Int) := by
  obtain ⟨hdrop, hplus, hminus⟩ := @dropWhile_sprintfU n
  simp only [toInt?, hdrop, if_neg hminus, if_neg hplus, toNumber_sprintfU]
  simpa using hn

/-- A negative number is no unsigned one. -/
theorem toUInt_sprintfD {i : Int} (hi : i < 0) : toUInt (sprintfD i) = 0 := by
  obtain ⟨n, rfl⟩ := Int.eq_negSucc_of_lt_zero hi
  have hdrop : (sprintfD (.negSucc n)).dropWhile isSpace = '-' :: sprintfU (n + 1) := rfl
  have hnumber : toNumber ('-' :: sprintfU (n + 1)) = none := rfl
  simp [toUInt, toUInt?, hdrop, hnumber]

end

end NetISDN
