import Mathlib.Data.List.Basic
import Readings.Text.Lines

/-!
Lines of texts. Up to its first line feed a text has one line, without a carriage return at its end.
Texts that end with a line feed have, one after another, just the lines of each.
-/
namespace Readings.Text

theorem lines_from_append (unbroken : '\n' ∉ line) (begun rest : List Char) :
    linesFrom begun (line ++ rest) = linesFrom (line.reverse ++ begun) rest := by
  induction line generalizing begun with
  | nil => rfl
  | cons c line ih =>
    have other : c ≠ '\n' := fun same => unbroken (same ▸ List.mem_cons_self)
    have others : '\n' ∉ line := fun listed => unbroken (List.mem_cons_of_mem _ listed)
    rw [List.cons_append, linesFrom.eq_3 _ _ _ other, ih others, List.reverse_cons,
      List.append_assoc, List.singleton_append]

/-- Up to a line feed there is one line, without a carriage return at its end. -/
theorem lines_feed (unbroken : '\n' ∉ line.toList) (text : String) :
    lines (line ++ "\n" ++ text) =
      String.ofList (stripReturn line.toList.reverse).reverse :: lines text := by
  have split : (line ++ "\n" ++ text).toList = line.toList ++ '\n' :: text.toList := by simp
  rw [lines, split, lines_from_append unbroken, List.append_nil]
  rfl

theorem lines_return_feed (unbroken : '\n' ∉ line.toList) (text : String) :
    lines (line ++ "\r\n" ++ text) = line :: lines text := by
  have unbroken : '\n' ∉ (line ++ "\r").toList := by simpa using unbroken
  have split : line ++ "\r\n" ++ text = line ++ "\r" ++ "\n" ++ text := by
    simp only [String.append_assoc]
    rfl
  rw [split, lines_feed unbroken]
  simp [stripReturn]

theorem strip_return_eq (plain : '\r' ∉ line) : stripReturn line = line := by
  unfold stripReturn
  split
  · exact absurd List.mem_cons_self plain
  · rfl

theorem blank_strip_return (line : List Char) :
    (stripReturn line).all isWhite = line.all isWhite := by
  unfold stripReturn
  split
  · rfl
  · rfl

/-- A line feed ends a line, whatever is behind it. -/
theorem lines_from_feed (begun text rest : List Char) :
    linesFrom begun (text ++ '\n' :: rest) =
      linesFrom begun (text ++ ['\n']) ++ linesFrom [] rest := by
  induction text generalizing begun with
  | nil => rfl
  | cons c text ih =>
    by_cases feed : c = '\n'
    · subst feed
      simp only [List.cons_append, linesFrom, ih]
    · simp only [List.cons_append, linesFrom.eq_3 _ _ _ feed, ih]

theorem lines_join (ended : ∀ text ∈ texts, ∃ line : String, text = line ++ "\n") :
    lines (String.join texts) = texts.flatMap lines := by
  induction texts with
  | nil => rfl
  | cons text rest ih =>
    obtain ⟨line, rfl⟩ := ended text List.mem_cons_self
    have others := ih fun other listed => ended other (List.mem_cons_of_mem _ listed)
    rw [String.join_cons, List.flatMap_cons, ← others]
    simpa [lines] using lines_from_feed [] line.toList (String.join rest).toList

end Readings.Text
