import Scriptlet.Dialogue
import Scriptlet.Supply

/-! # A host over byte streams

    Standard input is a finite sequence of bytes, read line by line; standard
    output and standard error are the texts written so far.  A line that is
    not valid UTF-8 is read all the same, as an empty one.  Every look at the
    clock takes a reading of its own.

    No reply makes the input longer (`length_stdin_run_le`), which is why an
    interactive loop comes to an end. -/

namespace Scriptlet

/-- The state of a host over byte streams. -/
structure Console where
  stdin : List UInt8 := []
  stdout : String := ""
  stderr : String := ""
  clock : Supply Int := .always 0

namespace Console

/-- Whether a byte is not the end of a line. -/
def isInside (b : UInt8) : Bool := b ≠ 10

/-- The bytes up to the first line feed, and the line feed. -/
def firstLine (bytes : List UInt8) : List UInt8 :=
  bytes.takeWhile isInside ++ (bytes.dropWhile isInside).take 1

/-- The bytes behind the first line feed. -/
def otherLines (bytes : List UInt8) : List UInt8 :=
  (bytes.dropWhile isInside).drop 1

/-- The text that bytes encode in UTF-8. -/
def decode? (bytes : List UInt8) : Option String :=
  String.fromUTF8? bytes.toByteArray

/-- A line without the line feeds and carriage returns at its end. -/
def withoutEnd (line : String) : String :=
  String.ofList (line.toList.reverse.dropWhile fun c => c = '\n' || c = '\r').reverse

/-- Appends to standard output. -/
def write (c : Console) (text : String) : Console :=
  { c with stdout := c.stdout ++ text }

/-- Appends to standard error. -/
def complain (c : Console) (text : String) : Console :=
  { c with stderr := c.stderr ++ text }

instance : Host Console where
  answer q c := match q with
    | .print text => ((), c.write text)
    | .readLine =>
      (((decode? (firstLine c.stdin)).map withoutEnd).getD "",
        { c with stdin := otherLines c.stdin })
    | .clock => (c.clock.next.1, { c with clock := c.clock.next.2 })
    | .report r => ((), c.complain (r.text ++ "\n"))

theorem length_dropWhile_le (p : UInt8 → Bool) (bytes : List UInt8) :
    (bytes.dropWhile p).length ≤ bytes.length := by
  induction bytes with
  | nil => simp
  | cons b bs ih =>
      rw [List.dropWhile_cons]
      split
      · exact Nat.le_succ_of_le ih
      · exact Nat.le_refl _

/-- Reading a line does not make the input longer. -/
theorem length_otherLines_le (bytes : List UInt8) :
    (otherLines bytes).length ≤ bytes.length := by
  have h := length_dropWhile_le isInside bytes
  simp only [otherLines, List.length_drop]
  omega

/-- Reading a line of a non-empty input makes it shorter. -/
theorem length_otherLines_lt {bytes : List UInt8} (h : bytes ≠ []) :
    (otherLines bytes).length < bytes.length := by
  cases bytes with
  | nil => exact absurd rfl h
  | cons b bs =>
      have hb := length_dropWhile_le isInside bs
      simp only [otherLines, List.dropWhile_cons]
      split
      · simp only [List.length_drop, List.length_cons]
        omega
      · simp

/-- No reply makes the input longer. -/
theorem length_stdin_answer_le {β : Type} (q : Request β) (c : Console) :
    (Host.answer q c).2.stdin.length ≤ c.stdin.length := by
  cases q with
  | print text => exact Nat.le_refl _
  | readLine => exact length_otherLines_le c.stdin
  | clock => exact Nat.le_refl _
  | report r => exact Nat.le_refl _

/-- No dialogue makes the input longer. -/
theorem length_stdin_result_le {α : Type} (d : Dialogue α) :
    ∀ c : Console, (d.result c).2.stdin.length ≤ c.stdin.length := by
  induction d with
  | done a => intro c; exact Nat.le_refl _
  | ask q next ih =>
      intro c
      exact Nat.le_trans (ih _ _) (length_stdin_answer_le q c)
  | nest inner next ihInner ihNext =>
      intro c
      exact Nat.le_trans (ihNext _ _) (ihInner () c)

/-- No run makes the input longer. -/
theorem length_stdin_run_le {α : Type} (d : Dialogue α) (c : Console) :
    (d.run c).2.stdin.length ≤ c.stdin.length := by
  rw [Dialogue.run_eq_result]
  exact length_stdin_result_le d c

end Console

end Scriptlet
