import Scriptlet.Dialogue
import Scriptlet.Supply

/-! # A host in memory

    Collects what is printed and reported, answers reads from a queue of
    lines, and tells the time from a supply of readings. -/

namespace Scriptlet

/-- The state of a host in memory. -/
structure Buffer where
  output : String := ""
  input : List String := []
  reports : List Report := []
  clock : Supply Int := .always 0

namespace Buffer

instance : Host Buffer where
  answer q b := match q with
    | .print text => ((), { b with output := b.output ++ text })
    | .readLine => (b.input.headD "", { b with input := b.input.tail })
    | .clock => (b.clock.next.1, { b with clock := b.clock.next.2 })
    | .report r => ((), { b with reports := b.reports ++ [r] })

/-- Queues one more line. -/
def pushInput (b : Buffer) (line : String) : Buffer :=
  { b with input := b.input ++ [line] }

/-- What was printed so far, and the host without it. -/
def takeOutput (b : Buffer) : String × Buffer :=
  (b.output, { b with output := "" })

end Buffer

end Scriptlet
