import Mathlib.Data.List.Induction
import NetISDN.General.SqlLiteral
import NetISDN.Qt.QString

/-!
# Escaped text

`EscapeString` (`escape_string.cpp`) puts a backslash in front of fifteen characters. Between double
quotes the escaped text ends no literal and stands for the text (`escapeString_lossless`).
-/

namespace NetISDN

open SqlLiteral

/-- The characters that `EscapeString` escapes, in the order of its cases (`\x7b` is an opening
brace, `\x60` a backtick, `\x27` an apostrophe). -/
def escapedChars : List Char :=
  ['(', ')', '\x7b', '"', '\x60', ' ', '[', '\x27', '\\', '?', '&', ';', '<', '>', '|']

/-- `EscapeString` (`escape_string.cpp:26`). -/
def escapeString (str : QString) : QString :=
  str.flatMap fun c => if c ∈ escapedChars then ['\\', c] else [c]

/-- The first character is escaped, and the others. -/
theorem escapeString_cons {c : Char} {str : QString} : escapeString (c :: str) =
    (if c ∈ escapedChars then ['\\', c] else [c]) ++ escapeString str := List.flatMap_cons

/-- An escaped character is read as itself. -/
theorem unescape_of_mem {c : Char} (h : c ∈ escapedChars) : unescape c = [c] := by
  have hall : (escapedChars.all fun ch => unescape ch == [ch]) = true := by decide
  exact eq_of_beq (List.all_eq_true.1 hall c h)

/-- An escaped text is read back up to the quote behind it. -/
theorem readLiteral_escapeString {rest : List Char} (str : QString)
    (hrest : rest.head? ≠ some '"') :
    readLiteral (escapeString str ++ '"' :: rest) = some (str, rest) := by
  induction str with
  | nil => exact Verbatim.nil.readLiteral hrest
  | cons c str ih =>
      rw [escapeString_cons]
      split
      · next hc =>
          show readLiteral ('\\' :: c :: (escapeString str ++ '"' :: rest)) = _
          rw [readLiteral, ih, Option.map_some, unescape_of_mem hc]
          rfl
      · next hc =>
          have hquote : c ≠ '"' := fun heq => hc (heq ▸ by decide)
          have hbackslash : c ≠ '\\' := fun heq => hc (heq ▸ by decide)
          show readLiteral (c :: (escapeString str ++ '"' :: rest)) = _
          rw [readLiteral_cons hquote hbackslash, ih, Option.map_some]

/-- An escaped text stays within its quotes. -/
theorem enclosed_escapeString (str : QString) : Enclosed (escapeString str) := by
  induction str using List.reverseRecOn with
  | nil => exact .nil
  | append_singleton str c ih =>
      rw [escapeString, List.flatMap_append, List.flatMap_singleton]
      split
      · exact ih.escaped c
      · next hc =>
          exact ih.char (fun heq => hc (heq ▸ by decide)) fun heq => hc (heq ▸ by decide)

/-- **An escaped text is safe and lossless in a literal**: it has no quote that ends the literal,
does not take the quote that does for itself, and is read as the text. -/
theorem escapeString_lossless (str : QString) : Enclosed (escapeString str) ∧
    ∀ rest : List Char, rest.head? ≠ some '"' →
      readLiteral (escapeString str ++ '"' :: rest) = some (str, rest) :=
  ⟨enclosed_escapeString str, fun _ hrest => readLiteral_escapeString str hrest⟩

end NetISDN
