import Mathlib.Algebra.Order.BigOperators.Group.List
import Mathlib.Data.List.DropRight
import Mathlib.Data.List.ModifyLast
import NetISDN.Qt.TextCodec

/-!
# `Profile`

The reader of ini files (`profile.cpp`, `profilesection.cpp`, `profileline.cpp`). A line is stripped
of white space, and by its first character it is a comment, a section or an entry, which is split at
its first `=`. What is read of a section that was written an entry a line are the values without the
white space at their ends (`stringValue_iniText`), as long as the codec of the locale reads the file
as it was written. Whatever it reads, the values of different tags have no more of a character than
the text has (`sum_count_stringValue_le`).
-/

namespace NetISDN

/-! ## Lines -/

/-- The lines that `QTextStream::readLine` returns until it returns a null one, at the end of the
decoded text. A line feed ends a line, and so do a carriage return and both. -/
def textLines : QString → List QString
  | [] => []
  | c :: text =>
    if c = '\n' then [] :: textLines text
    else if c = '\r' then
      [] :: match text with
        | '\n' :: text' => textLines text'
        | text => textLines text
    else
      match textLines text with
      | [] => [[c]]
      | line :: lines => (c :: line) :: lines

/-- A text on one line: none of its characters ends a line. -/
def IsLine (line : QString) : Prop := ∀ c ∈ line, c ≠ '\n' ∧ c ≠ '\r'

section
variable {line rest s t : QString}

/-- Two pieces of a line make a line. -/
theorem IsLine.append (hs : IsLine s) (ht : IsLine t) : IsLine (s ++ t) := fun c hc =>
  (List.mem_append.1 hc).elim (hs c) (ht c)

/-- A line that is ended by a line feed is read as it was. -/
theorem textLines_append (hline : IsLine line) :
    textLines (line ++ '\n' :: rest) = line :: textLines rest := by
  induction line with
  | nil => rw [List.nil_append, textLines.eq_def]; exact if_pos rfl
  | cons c line ih =>
      obtain ⟨hc, hline⟩ := List.forall_mem_cons.1 hline
      rw [List.cons_append, textLines.eq_def]
      simp only [if_neg hc.1, if_neg hc.2, ih hline]

end

/-! ## Sections -/

/-- `ProfileSection`, each `ProfileLine` of it as its tag and its value. -/
structure ProfileSection where
  section_name : QString
  section_line : List (QString × QString) := []

namespace ProfileSection

/-- `ProfileSection::getValue` (`profilesection.cpp:44`). -/
def getValue (s : ProfileSection) (tag : QString) : Option QString :=
  (s.section_line.find? fun line => line.1 = tag).map Prod.snd

/-- `ProfileSection::addValue`. -/
def addValue (tag value : QString) (s : ProfileSection) : ProfileSection :=
  { s with section_line := s.section_line ++ [(tag, value)] }

end ProfileSection

/-- `Profile`, as its `profile_section`. -/
abbrev Profile := List ProfileSection

namespace Profile

/-- The text before the first `=` of a line. -/
def tagOf (line : QString) : QString := line.takeWhile (· ≠ '=')

/-- The text behind the first `=` of a line. -/
def valueOf (line : QString) : QString := (line.dropWhile (· ≠ '=')).tail

/-- What the loop of `setSource` does with a line. -/
def addLine (p : Profile) (line : QString) : Profile :=
  if line.head? = some ';' ∨ line.head? = some '#' then p
  else if line.head? = some '[' ∧ line.getLast? = some ']' then p ++ [⟨line.tail.dropLast, []⟩]
  else if '=' ∈ line then
    p.modifyLast (ProfileSection.addValue (tagOf line) (stripWhiteSpace (valueOf line)))
  else p

/-- What the loop of `setSource` reads of a decoded text. Lines before the first section belong to
one without a name. -/
def ofText (text : QString) : Profile :=
  ((textLines text).map stripWhiteSpace).foldl addLine [⟨[], []⟩]

/-- `Profile::setSource` (`profile.cpp:41`), of a file with these bytes. The stream decodes them
with the codec of the locale. -/
def setSource (codec : TextCodec) (file : QString) : Profile := ofText (codec.toUnicode file)

/-- `Profile::stringValue` (`profile.cpp:80`). -/
def stringValue (p : Profile) (name tag default_str : QString) : QString :=
  match p.find? fun s => s.section_name = name with
  | some s => (s.getValue tag).getD default_str
  | none => default_str

/-- `Profile::intValue` (`profile.cpp:105`). -/
def intValue (p : Profile) (name tag : QString) (default_value : Int) : Int :=
  (toInt? (p.stringValue name tag [])).getD default_value

end Profile

/-! ## White space at the ends of a text -/

section
variable {p : Char → Bool} {c : Char} {s t : QString}

/-- White space is dropped at the front and at the back. -/
theorem stripWhiteSpace_eq_rdropWhile :
    stripWhiteSpace s = (s.dropWhile isSpace).rdropWhile isSpace := rfl

/-- What stands behind a character that is kept decides what is dropped. -/
theorem rdropWhile_append_cons (hc : p c = false) :
    (s ++ c :: t).rdropWhile p = s ++ c :: t.rdropWhile p := by
  induction t using List.reverseRecOn with
  | nil =>
      have hc' : ¬p c = true := by rw [hc]; exact Bool.false_ne_true
      rw [List.rdropWhile_concat_neg _ _ _ hc', List.rdropWhile_nil]
  | append_singleton t d ih =>
      rw [← List.cons_append, ← List.append_assoc, List.rdropWhile_concat,
        List.rdropWhile_concat, ih]
      split
      · rfl
      · rw [List.append_assoc, List.cons_append]

/-- Stripping only drops characters. -/
theorem stripWhiteSpace_sublist : (stripWhiteSpace s).Sublist s :=
  (List.rdropWhile_prefix _ _).sublist.trans (List.dropWhile_sublist _)

/-- White space at one end is dropped whether or not that at the other end was. -/
theorem stripWhiteSpace_rdropWhile :
    stripWhiteSpace (s.rdropWhile isSpace) = stripWhiteSpace s := by
  rw [stripWhiteSpace_eq_rdropWhile, stripWhiteSpace_eq_rdropWhile]
  have hsplit : s.takeWhile isSpace ++ s.dropWhile isSpace = s := List.takeWhile_append_dropWhile
  have hfirst := List.head?_dropWhile_not isSpace s
  have hspaces : ∀ x ∈ s.takeWhile isSpace, isSpace x = true := fun x hx =>
    List.mem_takeWhile_imp hx
  cases hrest : s.dropWhile isSpace with
  | nil =>
      rw [List.rdropWhile_eq_nil_iff.2 (List.dropWhile_eq_nil_iff.1 hrest)]
      rfl
  | cons c t =>
      rw [hrest] at hsplit hfirst
      have hc : isSpace c = false := hfirst
      have hc' : ¬isSpace c = true := by rw [hc]; exact Bool.false_ne_true
      rw [← hsplit, rdropWhile_append_cons hc, List.dropWhile_append_of_pos hspaces,
        List.dropWhile_cons_of_neg hc']
      have hcons (t : QString) : (c :: t).rdropWhile isSpace = c :: t.rdropWhile isSpace :=
        rdropWhile_append_cons (s := []) hc
      rw [hcons, hcons, List.rdropWhile_idempotent]

/-- A text without white space stays as it is. -/
theorem stripWhiteSpace_of_forall (h : ∀ c ∈ s, isSpace c = false) : stripWhiteSpace s = s :=
  stripWhiteSpace_eq (fun c hc => h c (List.mem_of_mem_head? hc)) fun c hc =>
    h c (List.mem_of_mem_getLast? hc)

/-- Where the first character is no white space, `stripWhiteSpace` looks at the end only. -/
theorem stripWhiteSpace_cons (hc : isSpace c = false) :
    stripWhiteSpace (c :: s) = (c :: s).rdropWhile isSpace := by
  have hc' : ¬isSpace c = true := by rw [hc]; exact Bool.false_ne_true
  rw [stripWhiteSpace_eq_rdropWhile, List.dropWhile_cons_of_neg hc']

end

/-! ## Entries that are read back -/

section
variable {c : Char} {n : Int}

/-- A number has digits, and a sign before them if it is negative. -/
theorem sprintfD_cases : (∃ k : Nat, n = k ∧ sprintfD n = sprintfU k) ∨
    ∃ k : Nat, n = -(k : Int) ∧ 0 < k ∧ sprintfD n = '-' :: sprintfU k := by
  cases n with
  | ofNat k => exact .inl ⟨k, rfl, rfl⟩
  | negSucc k => exact .inr ⟨k + 1, Int.negSucc_eq k, Nat.succ_pos k, rfl⟩

/-- No character of a number is white space. -/
theorem isSpace_of_mem_sprintfD (h : c ∈ sprintfD n) : isSpace c = false := by
  have hdigits {k : Nat} (h : c ∈ sprintfU k) : isSpace c = false :=
    isSpace_of_isDigit (isDigit_of_mem_sprintfU h)
  rcases sprintfD_cases (n := n) with ⟨k, -, htext⟩ | ⟨k, -, -, htext⟩
  · exact hdigits (htext ▸ h)
  · rcases List.mem_cons.1 (htext ▸ h) with rfl | h
    · decide
    · exact hdigits h

/-- A number is ASCII. -/
theorem isAscii_of_mem_sprintfD (h : c ∈ sprintfD n) : isAscii c := by
  have hdigits {k : Nat} (h : c ∈ sprintfU k) : isAscii c :=
    isAscii_of_isDigit (isDigit_of_mem_sprintfU h)
  rcases sprintfD_cases (n := n) with ⟨k, -, htext⟩ | ⟨k, -, -, htext⟩
  · exact hdigits (htext ▸ h)
  · rcases List.mem_cons.1 (htext ▸ h) with rfl | h
    · rfl
    · exact hdigits h

/-- A number that is too large for an `int` is none. -/
theorem toInt?_sprintfU_of_le {k : Nat} (hk : 2 ^ 31 ≤ k) : toInt? (sprintfU k) = none := by
  obtain ⟨hdrop, hplus, hminus⟩ := @dropWhile_sprintfU k
  simp only [toInt?, hdrop, if_neg hminus, if_neg hplus, toNumber_sprintfU]
  simpa using hk

/-- A number is read back. -/
theorem toInt?_sprintfD (hn : - 2 ^ 31 ≤ n ∧ n < 2 ^ 31) : toInt? (sprintfD n) = some n := by
  rcases sprintfD_cases (n := n) with ⟨k, rfl, htext⟩ | ⟨k, rfl, -, htext⟩
  · rw [htext, toInt?_sprintfU (by omega)]
  · have hdrop : ('-' :: sprintfU k).dropWhile isSpace = '-' :: sprintfU k := rfl
    rw [htext]
    simp only [toInt?, hdrop, List.head?_cons, if_true, List.tail_cons, toNumber_sprintfU]
    exact (Option.filter_some).trans (if_pos (decide_eq_true hn.1))

end

/-- A tag, or the name of a section, of letters and digits. -/
structure IsTag (t : QString) : Prop where
  ne_nil : t ≠ []
  alphanum : ∀ c ∈ t, c.isAlphanum

/-- An entry as `fprintf(f,"tag=%s\n",value)` writes it. -/
def iniLine (entry : QString × QString) : QString := entry.1 ++ '=' :: entry.2 ++ ['\n']

/-- A file of one section. -/
def iniText (name : QString) (entries : List (QString × QString)) : QString :=
  '[' :: name ++ ']' :: '\n' :: entries.flatMap iniLine

section
variable {c : Char} {name tag value default_str : QString} {entries : List (QString × QString)}
  {p : Profile} {n : Int} {codec : TextCodec}

/-- The letters are those of ASCII. -/
theorem isAlpha_iff : c.isAlpha = true ↔
    65 ≤ c.toNat ∧ c.toNat ≤ 90 ∨ 97 ≤ c.toNat ∧ c.toNat ≤ 122 := by
  show (decide (c.val ≥ 'A'.val ∧ c.val ≤ 'Z'.val) ||
    decide (c.val ≥ 'a'.val) && decide (c.val ≤ 'z'.val)) = true ↔ _
  rw [Bool.or_eq_true, Bool.and_eq_true, decide_eq_true_eq, decide_eq_true_eq, decide_eq_true_eq]
  exact Iff.rfl

/-- The codes of the digits. -/
theorem toNat_of_isDigit (h : c.isDigit = true) : 48 ≤ c.toNat ∧ c.toNat ≤ 57 := by
  simp only [Char.isDigit, Bool.and_eq_true, decide_eq_true_eq, ge_iff_le,
    UInt32.le_iff_toNat_le] at h
  exact h

/-- Letters and digits mean nothing to the reader. -/
theorem isAlphanum_plain (h : c.isAlphanum) : isSpace c = false ∧ c ≠ '=' ∧ c ≠ ';' ∧ c ≠ '#' ∧
    c ≠ '[' ∧ c ≠ '\n' ∧ c ≠ '\r' := by
  have hranges : (65 ≤ c.toNat ∧ c.toNat ≤ 90 ∨ 97 ≤ c.toNat ∧ c.toNat ≤ 122) ∨
      48 ≤ c.toNat ∧ c.toNat ≤ 57 := by
    rcases Bool.or_eq_true_iff.1 h with h | h
    · exact .inl (isAlpha_iff.1 h)
    · exact .inr (toNat_of_isDigit h)
  have hne {d : Char} (hd : d.toNat < 48 ∨ d.toNat = 59 ∨ d.toNat = 61 ∨ d.toNat = 91) : c ≠ d := by
    rintro rfl
    omega
  refine ⟨?_, hne (by decide), hne (by decide), hne (by decide), hne (by decide), hne (by decide),
    hne (by decide)⟩
  simp only [isSpace, Bool.or_eq_false_iff, Bool.and_eq_false_iff, decide_eq_false_iff_not]
  omega

/-- A tag is a piece of a line. -/
theorem IsTag.isLine (h : IsTag tag) : IsLine tag := fun c hc =>
  (isAlphanum_plain (h.alphanum c hc)).2.2.2.2.2

/-- A tag is what stands before the first `=`. -/
theorem IsTag.tagOf (h : IsTag tag) : Profile.tagOf (tag ++ '=' :: value) = tag := by
  have htag : ∀ c ∈ tag, (decide (c ≠ '=')) = true := fun c hc =>
    decide_eq_true (isAlphanum_plain (h.alphanum c hc)).2.1
  rw [Profile.tagOf, List.takeWhile_append_of_pos htag]
  simp

/-- The value of a line is what stands behind its tag. -/
theorem IsTag.valueOf (h : IsTag tag) : Profile.valueOf (tag ++ '=' :: value) = value := by
  have htag : ∀ c ∈ tag, (decide (c ≠ '=')) = true := fun c hc =>
    decide_eq_true (isAlphanum_plain (h.alphanum c hc)).2.1
  rw [Profile.valueOf, List.dropWhile_append_of_pos htag]
  simp

/-- An entry is added to the last section, without the white space at the ends of its value. -/
theorem addLine_entry (h : IsTag tag) (s : ProfileSection) :
    (p ++ [s]).addLine (stripWhiteSpace (tag ++ '=' :: value)) =
      p ++ [s.addValue tag (stripWhiteSpace value)] := by
  have hpad : isSpace '=' = false := by decide
  have hline : stripWhiteSpace (tag ++ '=' :: value) = tag ++ '=' :: value.rdropWhile isSpace := by
    obtain ⟨c, t, rfl⟩ := List.exists_cons_of_ne_nil h.ne_nil
    rw [List.cons_append, stripWhiteSpace_cons (isAlphanum_plain (h.alphanum c (.head _))).1,
      ← List.cons_append, rdropWhile_append_cons hpad]
  obtain ⟨c, hfirst, hc⟩ : ∃ c, (tag ++ '=' :: value.rdropWhile isSpace).head? = some c ∧
      c.isAlphanum := by
    obtain ⟨c, t, rfl⟩ := List.exists_cons_of_ne_nil h.ne_nil
    exact ⟨c, rfl, h.alphanum c (.head _)⟩
  obtain ⟨-, -, hcomment, hcomment', hsection, -⟩ := isAlphanum_plain hc
  rw [hline, Profile.addLine, hfirst, if_neg (by simp [hcomment, hcomment']),
    if_neg (by simp [hsection]), if_pos (by simp), h.tagOf, h.valueOf, List.modifyLast_concat,
    stripWhiteSpace_rdropWhile]

/-- A profile has one line for each entry. -/
theorem textLines_entries (h : ∀ e ∈ entries, IsTag e.1 ∧ IsLine e.2) :
    textLines (entries.flatMap iniLine) = entries.map fun e => e.1 ++ '=' :: e.2 := by
  induction entries with
  | nil => rfl
  | cons e entries ih =>
      obtain ⟨⟨htag, hvalue⟩, h⟩ := List.forall_mem_cons.1 h
      have hline : IsLine (e.1 ++ '=' :: e.2) :=
        htag.isLine.append (List.forall_mem_cons.2 ⟨by decide, hvalue⟩)
      have hcons : (e :: entries).flatMap iniLine =
          (e.1 ++ '=' :: e.2) ++ '\n' :: entries.flatMap iniLine := by
        rw [List.flatMap_cons, iniLine, List.append_assoc]
        rfl
      rw [hcons, textLines_append hline, ih h, List.map_cons]

/-- The entries of a section are added to it one after the other. -/
theorem foldl_addLine_entries (h : ∀ e ∈ entries, IsTag e.1 ∧ IsLine e.2) (s : ProfileSection) :
    ((entries.map fun e => e.1 ++ '=' :: e.2).map stripWhiteSpace).foldl Profile.addLine
      (p ++ [s]) =
    p ++ [⟨s.section_name,
      s.section_line ++ entries.map fun e => (e.1, stripWhiteSpace e.2)⟩] := by
  induction entries generalizing s with
  | nil =>
      rw [List.map_nil, List.map_nil, List.map_nil, List.append_nil]
      rfl
  | cons e entries ih =>
      obtain ⟨⟨htag, -⟩, h⟩ := List.forall_mem_cons.1 h
      rw [List.map_cons, List.map_cons, List.foldl_cons, addLine_entry htag, ih h,
        ProfileSection.addValue, List.map_cons, List.append_assoc, List.singleton_append]

/-- A section is read as its entries. -/
theorem ofText_iniText (hname : IsTag name) (hentries : ∀ e ∈ entries, IsTag e.1 ∧ IsLine e.2) :
    Profile.ofText (iniText name entries) =
      [⟨[], []⟩, ⟨name, entries.map fun e => (e.1, stripWhiteSpace e.2)⟩] := by
  have hline : IsLine ('[' :: name ++ [']']) :=
    IsLine.append (List.forall_mem_cons.2 ⟨by decide, hname.isLine⟩)
      (List.forall_mem_singleton.2 (by decide))
  have htext : iniText name entries =
      ('[' :: name ++ [']']) ++ '\n' :: entries.flatMap iniLine := by
    rw [iniText, List.append_assoc]
    rfl
  have hlast : ('[' :: name ++ [']']).getLast? = some ']' := List.getLast?_concat
  have hstrip : stripWhiteSpace ('[' :: name ++ [']']) = '[' :: name ++ [']'] := by
    refine stripWhiteSpace_eq (fun c hc => ?_) fun c hc => ?_
    · cases hc
      decide
    · cases hlast.symm.trans hc
      decide
  have hsection : Profile.addLine [⟨[], []⟩] ('[' :: name ++ [']']) = [⟨[], []⟩, ⟨name, []⟩] := by
    rw [Profile.addLine, if_neg (by simp), if_pos ⟨rfl, hlast⟩]
    simp
  rw [Profile.ofText, htext, textLines_append hline, textLines_entries hentries, List.map_cons,
    List.foldl_cons, hstrip, hsection]
  exact foldl_addLine_entries (p := [⟨[], []⟩]) hentries ⟨name, []⟩

/-- The first entry with a tag is the one entry with that tag. -/
theorem find?_tag {f : QString → QString} (hnodup : (entries.map Prod.fst).Nodup)
    (hmem : (tag, value) ∈ entries) :
    (entries.map fun e => (e.1, f e.2)).find? (fun line => line.1 = tag) = some (tag, f value) := by
  induction entries with
  | nil => cases hmem
  | cons e entries ih =>
      obtain ⟨hnot, hnodup⟩ := List.nodup_cons.1 hnodup
      rw [List.map_cons]
      rcases List.mem_cons.1 hmem with rfl | hmem
      · exact List.find?_cons_of_pos (decide_eq_true rfl)
      · have hne : e.1 ≠ tag := by
          rintro rfl
          exact hnot (List.mem_map.2 ⟨_, hmem, rfl⟩)
        rw [List.find?_cons_of_neg (by simpa using hne), ih hnodup hmem]

/-- **An entry of a section with distinct tags is read as its value without the white space at the
ends.** -/
theorem stringValue_iniText (hname : IsTag name) (hentries : ∀ e ∈ entries, IsTag e.1 ∧ IsLine e.2)
    (hnodup : (entries.map Prod.fst).Nodup) (hreads : codec.Reads (iniText name entries))
    (hmem : (tag, value) ∈ entries) :
    (Profile.setSource codec (iniText name entries)).stringValue name tag default_str =
      stripWhiteSpace value := by
  rw [Profile.setSource, hreads, ofText_iniText hname hentries, Profile.stringValue,
    List.find?_cons_of_neg (by simpa using hname.ne_nil.symm), List.find?_cons_of_pos (by simp)]
  simp only [ProfileSection.getValue]
  rw [find?_tag hnodup hmem]
  rfl

/-- A tag that no entry has is read as the default. -/
theorem stringValue_iniText_of_not_mem (hname : IsTag name)
    (hentries : ∀ e ∈ entries, IsTag e.1 ∧ IsLine e.2) (hreads : codec.Reads (iniText name entries))
    (hnot : tag ∉ entries.map Prod.fst) :
    (Profile.setSource codec (iniText name entries)).stringValue name tag default_str =
      default_str := by
  have hnone : (entries.map fun e => (e.1, stripWhiteSpace e.2)).find? (fun line => line.1 = tag) =
      none := by
    refine List.find?_eq_none.2 fun line hline => ?_
    obtain ⟨e, he, rfl⟩ := List.mem_map.1 hline
    simpa using fun heq : e.1 = tag => hnot (List.mem_map.2 ⟨e, he, heq⟩)
  rw [Profile.setSource, hreads, ofText_iniText hname hentries, Profile.stringValue,
    List.find?_cons_of_neg (by simpa using hname.ne_nil.symm), List.find?_cons_of_pos (by simp)]
  simp only [ProfileSection.getValue, hnone]
  rfl

/-- Letters and digits are ASCII. -/
theorem IsTag.ascii (h : IsTag tag) : ∀ c ∈ tag, isAscii c := by
  intro c hc
  have hlt : c.toNat < 128 := by
    rcases Bool.or_eq_true_iff.1 (h.alphanum c hc) with hc | hc
    · have hrange := isAlpha_iff.1 hc
      omega
    · have hrange := toNat_of_isDigit hc
      omega
  exact decide_eq_true hlt

/-- The codec reads the file as it was written exactly if it does so with every value. -/
theorem reads_iniText_iff (hname : IsTag name) (htags : ∀ e ∈ entries, IsTag e.1) :
    codec.Reads (iniText name entries) ↔ ∀ e ∈ entries, codec.Reads e.2 := by
  have hfront : ∀ c ∈ ('[' :: name), isAscii c := List.forall_mem_cons.2 ⟨rfl, hname.ascii⟩
  rw [iniText, TextCodec.reads_append hfront, TextCodec.reads_cons rfl, TextCodec.reads_cons rfl]
  induction entries with
  | nil => exact iff_of_true codec.nil (List.forall_mem_nil _)
  | cons e entries ih =>
      obtain ⟨htag, htags⟩ := List.forall_mem_cons.1 htags
      have hcons : (e :: entries).flatMap iniLine =
          e.1 ++ '=' :: (e.2 ++ '\n' :: entries.flatMap iniLine) := by
        rw [List.flatMap_cons, iniLine]
        simp
      rw [hcons, TextCodec.reads_append htag.ascii, TextCodec.reads_cons rfl, List.forall_mem_cons]
      exact (codec.cut e.2 '\n' _ rfl).trans (and_congr_right' (ih htags))

/-- A character that is no ASCII is as often in the file as in the values. -/
theorem count_iniText (hname : IsTag name) (htags : ∀ e ∈ entries, IsTag e.1) (hc : ¬ isAscii c) :
    (iniText name entries).count c = (entries.map fun e => e.2.count c).sum := by
  have hzero {t : QString} (ht : ∀ d ∈ t, isAscii d) : t.count c = 0 :=
    List.count_eq_zero.2 fun hmem => hc (ht c hmem)
  have hne {d : Char} (hd : isAscii d) : d ≠ c := fun heq => hc (heq ▸ hd)
  have hfront : ∀ d ∈ ('[' :: name), isAscii d := List.forall_mem_cons.2 ⟨rfl, hname.ascii⟩
  rw [iniText, List.count_append, hzero hfront, List.count_cons_of_ne (hne rfl),
    List.count_cons_of_ne (hne rfl), Nat.zero_add]
  induction entries with
  | nil => rfl
  | cons e entries ih =>
      obtain ⟨htag, htags⟩ := List.forall_mem_cons.1 htags
      have hend : ∀ d ∈ ['\n'], isAscii d := List.forall_mem_singleton.2 rfl
      rw [List.flatMap_cons, List.count_append, ih htags, List.map_cons, List.sum_cons, iniLine,
        List.count_append, List.count_append, hzero htag.ascii, hzero hend,
        List.count_cons_of_ne (hne rfl), Nat.zero_add, Nat.add_zero]

end

/-! ## What can be read of any text -/

section
variable {c : Char} {line name tag default_str : QString} {lines tags : List QString} {p : Profile}
  {s : ProfileSection}

/-- How often a character is in the values of a section. -/
def ProfileSection.count (s : ProfileSection) (c : Char) : Nat :=
  (s.section_line.map fun line => line.2.count c).sum

/-- How often a character is in the values of a profile. -/
def Profile.count (p : Profile) (c : Char) : Nat := (p.map fun s => s.count c).sum

/-- The lines of a text have no more of a character than the text. -/
theorem sum_count_textLines_le (text : QString) :
    ((textLines text).map fun line => line.count c).sum ≤ text.count c := by
  fun_induction textLines text with
  | case1 => exact Nat.le_refl 0
  | case2 text ih =>
      rw [List.map_cons, List.sum_cons, List.count_nil, Nat.zero_add]
      exact ih.trans List.count_le_count_cons
  | case3 text _ ih =>
      rw [List.map_cons, List.sum_cons, List.count_nil, Nat.zero_add]
      refine le_trans ?_ List.count_le_count_cons
      split
      · exact le_trans ih List.count_le_count_cons
      · next hnot =>
          split at ih
          · next text' => exact absurd rfl (hnot text')
          · exact ih
  | case4 d text _ _ hlines ih =>
      simp only [List.map_cons, List.map_nil, List.sum_cons, List.sum_nil, List.count_cons,
        List.count_nil]
      omega
  | case5 d text _ _ line lines hlines ih =>
      rw [hlines] at ih
      simp only [List.map_cons, List.sum_cons, List.count_cons] at ih ⊢
      omega

/-- The values of a profile with a section more. -/
theorem Profile.count_append {q : Profile} : (p ++ q).count c = p.count c + q.count c := by
  rw [Profile.count, List.map_append, List.sum_append]
  rfl

/-- A line that is added adds no more of a character than it has. -/
theorem count_addLine_le : (p.addLine line).count c ≤ p.count c + line.count c := by
  unfold Profile.addLine
  split
  · exact Nat.le_add_right _ _
  split
  · rw [Profile.count_append]
    exact Nat.add_le_add_left (Nat.zero_le _) _
  split
  · next heq =>
      have hvalue : (stripWhiteSpace (Profile.valueOf line)).count c ≤ line.count c := by
        refine List.Sublist.count_le c ?_
        exact (stripWhiteSpace_sublist).trans
          ((List.tail_sublist _).trans (List.dropWhile_sublist _))
      rcases List.eq_nil_or_concat' p with rfl | ⟨q, s, rfl⟩
      · exact Nat.zero_le _
      · rw [List.modifyLast_concat, Profile.count_append, Profile.count_append, Nat.add_assoc]
        refine Nat.add_le_add_left ?_ _
        simp only [Profile.count, ProfileSection.count, ProfileSection.addValue, List.map_cons,
          List.map_nil, List.map_append, List.sum_append, List.sum_cons, List.sum_nil]
        omega
  · exact Nat.le_add_right _ _

/-- Reading lines adds no character that they do not hold. -/
theorem count_foldl_addLine_le :
    (lines.foldl Profile.addLine p).count c ≤
      p.count c + (lines.map fun line => line.count c).sum := by
  induction lines generalizing p with
  | nil => exact Nat.le_refl _
  | cons line lines ih =>
      rw [List.foldl_cons, List.map_cons, List.sum_cons]
      have hline : (p.addLine line).count c ≤ p.count c + line.count c := count_addLine_le
      have hlines := ih (p := p.addLine line)
      omega

/-- What is read of a text has no more of a character than the text. -/
theorem count_ofText_le (text : QString) : (Profile.ofText text).count c ≤ text.count c := by
  have hread : (Profile.ofText text).count c ≤
      0 + (((textLines text).map stripWhiteSpace).map fun line => line.count c).sum :=
    count_foldl_addLine_le
  rw [List.map_map] at hread
  have hstrip : ((textLines text).map fun line => (stripWhiteSpace line).count c).sum ≤
      ((textLines text).map fun line => line.count c).sum :=
    List.sum_le_sum fun line _ => stripWhiteSpace_sublist.count_le c
  exact hread.trans ((Nat.zero_add _).le.trans (hstrip.trans (sum_count_textLines_le text)))

/-- Of different tags one at most is the tag of a line. -/
theorem sum_ite_le {n : Nat} (hnodup : tags.Nodup) :
    (tags.map fun t => if tag = t then n else 0).sum ≤ n := by
  induction tags with
  | nil => exact Nat.zero_le n
  | cons t tags ih =>
      obtain ⟨hnot, hnodup⟩ := List.nodup_cons.1 hnodup
      rw [List.map_cons, List.sum_cons]
      by_cases htag : tag = t
      · have hzero : (tags.map fun t => if tag = t then n else 0).sum = 0 := by
          refine List.sum_eq_zero fun m hm => ?_
          obtain ⟨t', ht', rfl⟩ := List.mem_map.1 hm
          exact if_neg fun heq => hnot (htag.symm.trans heq ▸ ht')
        rw [hzero, if_pos htag]
        exact Nat.le_refl n
      · rw [if_neg htag, Nat.zero_add]
        exact ih hnodup

/-- The values of different tags have no more of a character than the section. -/
theorem sum_count_getValue_le (hnodup : tags.Nodup) :
    (tags.map fun tag => ((s.getValue tag).getD []).count c).sum ≤ s.count c := by
  obtain ⟨name, lines⟩ := s
  simp only [ProfileSection.getValue, ProfileSection.count]
  induction lines with
  | nil => simp
  | cons line lines ih =>
      -- a tag is that of the first line, or it is looked for in the others
      have hsplit : ∀ t ∈ tags,
          (((line :: lines).find? fun l => l.1 = t).map Prod.snd |>.getD []).count c ≤
            (if line.1 = t then line.2.count c else 0) +
              ((lines.find? fun l => l.1 = t).map Prod.snd |>.getD []).count c := by
        intro t _
        by_cases htag : line.1 = t
        · rw [List.find?_cons_of_pos (by simpa using htag), if_pos htag]
          exact Nat.le_add_right _ _
        · rw [List.find?_cons_of_neg (by simpa using htag), if_neg htag, Nat.zero_add]
      refine (List.sum_le_sum hsplit).trans ?_
      rw [List.sum_map_add, List.map_cons, List.sum_cons]
      exact Nat.add_le_add (sum_ite_le hnodup) ih

/-- **The values of different tags have no more of a character than the text they are read of.** -/
theorem sum_count_stringValue_le (hnodup : tags.Nodup) (text : QString) :
    (tags.map fun tag => ((Profile.ofText text).stringValue name tag []).count c).sum ≤
      text.count c := by
  refine le_trans ?_ (count_ofText_le text)
  generalize Profile.ofText text = p
  cases hfind : p.find? fun s => s.section_name = name with
  | none =>
      simp [Profile.stringValue, hfind]
  | some s =>
      have hsection : s.count c ≤ p.count c :=
        List.single_le_sum (fun _ _ => Nat.zero_le _) _
          (List.mem_map_of_mem (List.mem_of_find?_eq_some hfind))
      refine le_trans ?_ hsection
      simp only [Profile.stringValue, hfind]
      exact sum_count_getValue_le hnodup

/-- A default value that has no more of a character makes no difference. -/
theorem count_stringValue_le
    (h : default_str.count c ≤ (p.stringValue name tag []).count c) :
    (p.stringValue name tag default_str).count c ≤ (p.stringValue name tag []).count c := by
  unfold Profile.stringValue at h ⊢
  split
  · next s hs =>
      rw [hs] at h
      dsimp only at h
      cases hvalue : s.getValue tag with
      | none =>
          rw [hvalue] at h
          exact h
      | some value => exact Nat.le_refl _
  · next hs =>
      rw [hs] at h
      exact h

end

end NetISDN
