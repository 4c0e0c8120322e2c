import NetISDN.Qt.QString

/-!
# Decoders of 8-bit text

Qt 3 decodes what it reads from a file with the codec of the locale, and what it prints with `%s` as
UTF-8. What a codec makes of a text is up to it; here it only matters which texts it reads as they
are (`TextCodec.Reads`). Latin-1 reads every text so, and UTF-8 only ASCII
(`Utf8Codec.reads_iff`). A byte is the character with its number.
-/

namespace NetISDN

/-- A codec that reads ASCII as it is, as those for Latin-1, for its relatives of ISO 8859, and for
UTF-8 do. It reads a text as it is if it does so on both sides of an ASCII character, and only then;
a text that it changes has lost characters other than ASCII, which UTF-8 reads in twos at least.
What it makes of a text that it changes is left open. -/
structure TextCodec where
  toUnicode : QString → QString
  nil : toUnicode [] = []
  cut : ∀ (a : QString) (c : Char) (b : QString), isAscii c →
    (toUnicode (a ++ c :: b) = a ++ c :: b ↔ toUnicode a = a ∧ toUnicode b = b)
  letters : ∀ t : QString, (∀ c, ¬ isAscii c → t.count c ≤ (toUnicode t).count c) → toUnicode t = t

namespace TextCodec

/-- The codec for Latin-1. -/
def latin1 : TextCodec where
  toUnicode t := t
  nil := rfl
  cut := fun _ _ _ _ => iff_of_true rfl ⟨rfl, rfl⟩
  letters := fun _ _ => rfl

/-- A text that the codec reads as it is. -/
def Reads (codec : TextCodec) (t : QString) : Prop := codec.toUnicode t = t

variable {codec : TextCodec} {c : Char} {t u : QString}

/-- Latin-1 reads every text. -/
theorem reads_latin1 : latin1.Reads t := rfl

/-- An ASCII character in front of a text makes no difference. -/
theorem reads_cons (hc : isAscii c) : codec.Reads (c :: t) ↔ codec.Reads t :=
  (codec.cut [] c t hc).trans (and_iff_right codec.nil)

/-- ASCII is read as it is. -/
theorem reads_of_ascii (h : ∀ c ∈ t, isAscii c) : codec.Reads t := by
  induction t with
  | nil => exact codec.nil
  | cons c t ih =>
      obtain ⟨hc, ht⟩ := List.forall_mem_cons.1 h
      exact (reads_cons hc).2 (ih ht)

/-- ASCII in front of a text makes no difference. -/
theorem reads_append (h : ∀ c ∈ t, isAscii c) : codec.Reads (t ++ u) ↔ codec.Reads u := by
  induction t with
  | nil => exact Iff.rfl
  | cons c t ih =>
      obtain ⟨hc, ht⟩ := List.forall_mem_cons.1 h
      exact (reads_cons hc).trans (ih ht)

end TextCodec

/-- A decoder of UTF-8: no text but ASCII is its own encoding. -/
structure Utf8Codec extends TextCodec where
  own : ∀ t : QString, toUnicode t = t → ∀ c ∈ t, isAscii c

/-- A decoder that leaves out what is not ASCII. -/
instance : Inhabited Utf8Codec where
  default := {
    toUnicode := List.filter isAscii
    nil := rfl
    cut := fun a c b hc => by
      simp only [List.filter_eq_self, List.forall_mem_append, List.forall_mem_cons, hc, true_and]
    letters := fun t h => List.filter_eq_self.2 fun c hc => by
      by_contra hnot
      have hle := h c hnot
      have hpos := List.count_pos_iff.2 hc
      have hzero : (t.filter isAscii).count c = 0 :=
        List.count_eq_zero.2 fun hmem => hnot (List.mem_filter.1 hmem).2
      omega
    own := fun t ht => List.filter_eq_self.1 ht }

/-- **UTF-8 reads a text as it is exactly if it is ASCII.** -/
theorem Utf8Codec.reads_iff {utf8 : Utf8Codec} {t : QString} :
    utf8.Reads t ↔ ∀ c ∈ t, isAscii c :=
  ⟨utf8.own t, TextCodec.reads_of_ascii⟩

end NetISDN
