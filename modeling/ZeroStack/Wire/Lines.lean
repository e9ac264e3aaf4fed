import Mathlib.Data.List.Basic

/-! Files of lines, read as a buffered reader reads them: a line ends before a newline or at the end
of the file, and loses a carriage return before its newline. -/

namespace Wire

open List

def newline : UInt8 := 10
def carriageReturn : UInt8 := 13

def stripReturn (line : List UInt8) : List UInt8 :=
  if line.getLast? = some carriageReturn then line.dropLast else line

def splitLines : List UInt8 → List UInt8 → List (List UInt8)
  | line, [] => if line.isEmpty then [] else [line]
  | line, b :: bytes =>
    if b = newline then stripReturn line :: splitLines [] bytes else splitLines (line ++ [b]) bytes

def lines (bytes : List UInt8) : List (List UInt8) := splitLines [] bytes

def Closed (bytes : List UInt8) : Prop := bytes = [] ∨ bytes.getLast? = some newline

theorem closed_append_line (bytes line : List UInt8) : Closed (bytes ++ (line ++ [newline])) := by
  right
  simp

theorem splitLines_append_newline (line a b : List UInt8) :
    splitLines line (a ++ newline :: b) = splitLines line (a ++ [newline]) ++ lines b := by
  induction a generalizing line with
  | nil => simp [splitLines, lines]
  | cons x a ih =>
    simp only [cons_append, splitLines]
    split_ifs with hx
    · rw [ih, cons_append]
    · exact ih _

theorem lines_append {a : List UInt8} (ha : Closed a) (b : List UInt8) : lines (a ++ b) = lines a ++ lines b := by
  rcases ha with rfl | hlast
  · rfl
  · obtain ⟨front, rfl⟩ := List.getLast?_eq_some_iff.mp hlast
    rw [append_assoc]
    exact splitLines_append_newline [] front b

theorem splitLines_of_notMem (line : List UInt8) {bytes : List UInt8} (h : newline ∉ bytes) (rest : List UInt8) :
    splitLines line (bytes ++ rest) = splitLines (line ++ bytes) rest := by
  induction bytes generalizing line with
  | nil => rw [nil_append, append_nil]
  | cons b bytes ih =>
    rw [mem_cons, not_or] at h
    rw [cons_append, splitLines, if_neg (Ne.symm h.1), ih _ h.2, append_assoc, singleton_append]

theorem lines_line {line : List UInt8} (h : newline ∉ line) (hlast : line.getLast? ≠ some carriageReturn) :
    lines (line ++ [newline]) = [line] := by
  rw [lines, splitLines_of_notMem [] h]
  show [stripReturn line] = [line]
  rw [stripReturn, if_neg hlast]

theorem lines_joined {a b : List UInt8} (ha : newline ∉ a) (hb : newline ∉ b) (hne : b ≠ [])
    (hlast : b.getLast? ≠ some carriageReturn) : lines (a ++ (b ++ [newline])) = [a ++ b] := by
  rw [← append_assoc]
  apply lines_line
  · rw [mem_append, not_or]
    exact ⟨ha, hb⟩
  · rwa [List.getLast?_append_of_ne_nil _ hne]

theorem lines_open {line : List UInt8} (h : newline ∉ line) (hne : line ≠ []) : lines line = [line] := by
  have hopen := splitLines_of_notMem [] h []
  rw [append_nil, nil_append] at hopen
  rw [lines, hopen, splitLines, if_neg (by simpa using hne)]

end Wire
