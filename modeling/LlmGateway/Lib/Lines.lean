import Mathlib.Data.List.Basic

namespace Lines

def lineFeed : UInt8 := 10

def carriageReturn : UInt8 := 13

def bytes (s : String) : List UInt8 := s.toUTF8.data.toList

def dropCR (line : List UInt8) : List UInt8 :=
  if line.getLast? = some carriageReturn then line.dropLast else line

/-- The parts between the line feeds. What follows the last line feed is a line
only if it is not empty. -/
def rawLines (input : List UInt8) : List (List UInt8) :=
  if (input.splitOn lineFeed).getLast? = some [] then (input.splitOn lineFeed).dropLast
  else input.splitOn lineFeed

def allLines (input : List UInt8) : List (List UInt8) := (rawLines input).map dropCR

/-- The lines a scanner hands out, and the error it stops with. -/
structure Scanned (ε : Type*) where
  lines : List (List UInt8)
  err : Option ε

variable {ε : Type*}

/-- The scanner needs room for one byte more than the line, be it the line feed
or to find the end of the input. `fault` is the error the input ends with. A reader
that reports the end together with its last bytes, and not by a read of its own,
spares an unterminated last line of exactly the limit: the scanner returns that line
then, while here it is too long. -/
def scan (limit : Nat) (tooLong : ε) (fault : Option ε) (input : List UInt8) : Scanned ε where
  lines := ((rawLines input).takeWhile (·.length < limit)).map dropCR
  err := if (rawLines input).all (·.length < limit) then fault else some tooLong

theorem dropCR_of_notMem {line : List UInt8} (absent : carriageReturn ∉ line) : dropCR line = line := by
  refine if_neg fun last => absent ?_
  exact List.mem_of_getLast? last

theorem rawLines_line {line : List UInt8} (single : lineFeed ∉ line) (rest : List UInt8) :
    rawLines (line ++ lineFeed :: rest) = line :: rawLines rest := by
  have first : (line ++ lineFeed :: rest).splitOn lineFeed = line :: rest.splitOn lineFeed := by
    refine List.splitOnP_append_cons_of_forall_mem (p := (· == lineFeed)) (fun b mem => ?_) lineFeed
      (beq_self_eq_true _) rest
    exact beq_false_of_ne fun same => single (same ▸ mem)
  have more : rest.splitOn lineFeed ≠ [] := List.splitOnP_ne_nil _ _
  unfold rawLines
  rw [first, List.getLast?_cons, List.getLast?_eq_some_getLast more, List.dropLast_cons_of_ne_nil more]
  simp only [Option.getD_some]
  split
  · rfl
  · rfl

variable {limit : Nat} {tooLong : ε} {fault : Option ε}

/-- A line that fits is handed out, and the scan goes on behind it. -/
theorem scan_line {line : List UInt8} (single : lineFeed ∉ line) (fits : line.length < limit) (rest : List UInt8) :
    scan limit tooLong fault (line ++ lineFeed :: rest) =
      ⟨dropCR line :: (scan limit tooLong fault rest).lines, (scan limit tooLong fault rest).err⟩ := by
  simp only [scan, rawLines_line single, List.takeWhile_cons, List.all_cons, decide_eq_true fits, if_true,
    List.map_cons, Bool.true_and]

end Lines
