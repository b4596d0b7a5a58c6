import Scriptlet.Proofs.Lines
import Scriptlet.Proofs.Tiling

/-! # Scanning at a line break

    No lexeme but a string goes across a line break, and a comment ends in front
    of one.  So a text that can be scanned to its end can be scanned as well with
    a line break and anything else behind it: the same tokens come first, and
    then those of the rest, as if it were alone, on later lines
    (`Token.scan_join`). -/

namespace Scriptlet

namespace Piece

/-! ## The piece at the front -/

/-- No word, number or mark goes on with this character. -/
structure Breaks (d : Char) : Prop where
  word : isWordPart d = false
  point : d ≠ '.'
  equals : d ≠ '='

/-- A line feed ends words, numbers and marks. -/
theorem breaks_newline : Breaks '\n' :=
  ⟨rfl, by decide, by decide⟩

theorem Breaks.isDigit_eq_false {d : Char} (hd : Breaks d) : d.isDigit = false := by
  refine Bool.eq_false_iff.mpr fun hdigit => ?_
  have hword := hd.word
  rw [Token.isWordPart_of_isDigit hdigit] at hword
  cases hword

/-- What goes on to a character at the latest does not depend on what is behind it. -/
theorem takeWhile_break {p : Char → Bool} {d : Char} (hp : p d = false) (cs more : List Char) :
    (cs ++ d :: more).takeWhile p = cs.takeWhile p := by
  induction cs with
  | nil => rw [List.nil_append, List.takeWhile_cons, hp]; rfl
  | cons c cs ih => rw [List.cons_append, List.takeWhile_cons, List.takeWhile_cons, ih]

theorem dropWhile_break {p : Char → Bool} {d : Char} (hp : p d = false) (cs more : List Char) :
    (cs ++ d :: more).dropWhile p = cs.dropWhile p ++ d :: more := by
  induction cs with
  | nil => rw [List.nil_append, List.dropWhile_cons, hp]; rfl
  | cons c cs ih =>
      rw [List.cons_append, List.dropWhile_cons, List.dropWhile_cons, ih]
      split <;> rfl

section Breaks

variable {d : Char} (hd : Breaks d) (c : Char) (cs more : List Char)

include hd

/-- Numbers, words and marks end in front of such a character. -/
theorem number_break : number c (cs ++ d :: more) = number c cs := by
  have hdigit := hd.isDigit_eq_false
  rw [number, number, takeWhile_break hdigit, dropWhile_break hdigit]
  rcases cs.dropWhile Char.isDigit with - | ⟨d', ds⟩
  · simp [hd.point]
  · by_cases hd' : d' = '.'
    · subst hd'
      simp only [List.cons_append, takeWhile_break hdigit]
    · simp [hd']

theorem word_break : word c (cs ++ d :: more) = word c cs := by
  rw [word, word, takeWhile_break hd.word]

theorem longest?_break : Mark.longest? c (cs ++ d :: more) = Mark.longest? c cs := by
  cases cs with
  | cons d cs => rfl
  | nil =>
      have hpair : Mark.pair? c d = none := by simp [Mark.pair?, hd.point, hd.equals]
      show (Mark.pair? c d).or (Mark.single? c) = Mark.single? c
      rw [hpair]
      rfl

end Breaks

theorem stringBody_append {width w : Nat} {decoded cs : List Char} {kind : TokenKind}
    (h : stringBody width decoded cs = ⟨w, .token kind⟩) (more : List Char) :
    stringBody width decoded (cs ++ more) = ⟨w, .token kind⟩ := by
  obtain ⟨raw, text, rest, rfl, hq, rfl, rfl⟩ := quoted_of_stringBody h
  rw [List.append_assoc]
  exact hq.stringBody width decoded (rest ++ more)

/-- Where neither a comment nor a string begins, the piece at the front ends in
    front of a character that breaks lexemes. -/
theorem front_break {c d : Char} (hd : Breaks d) (hhash : c ≠ '#') (hquote : c ≠ '"')
    (cs more : List Char) : front c (cs ++ d :: more) = front c cs := by
  simp only [front, if_neg hhash, if_neg hquote, number_break hd, word_break hd,
    longest?_break hd]

/-- A token at the front of a text is there whatever comes behind a line break. -/
theorem front_newline {c : Char} {cs : List Char} {w : Nat} {kind : TokenKind}
    (h : front c cs = ⟨w, .token kind⟩) (more : List Char) :
    front c (cs ++ '\n' :: more) = ⟨w, .token kind⟩ := by
  by_cases hhash : c = '#'
  · subst hhash
    cases h
  by_cases hquote : c = '"'
  · subst hquote
    exact stringBody_append h _
  · rw [front_break breaks_newline hhash hquote, h]

end Piece

/-- Blanks are blanks whatever comes behind a line break. -/
theorem Blanks.newline {blanks rest : List Char} (h : Blanks blanks rest) (more : List Char) :
    Blanks blanks (rest ++ '\n' :: more) := by
  induction h with
  | nil => exact .nil
  | blank hc _ ih => exact .blank hc ih
  | comment hbody hend _ ih =>
      refine .comment hbody ?_ ih
      intro c hc
      rw [← List.append_assoc, List.head?_append] at hc
      rcases Option.or_eq_some_iff.mp hc with hc | ⟨-, hc⟩
      · exact hend c hc
      · exact (Option.some.inj hc).symm

namespace Token

/-! ## The text behind the line break -/

/-- The tokens of a text are read in front of a line break, too. -/
theorem scanFrom_newline {before text : List Char} {tokens : List Token}
    (h : Tiles before text tokens) :
    ∃ ts, tokens = ts ++ [endAt (1 + (before ++ text).count '\n')]
      ∧ ∀ done more, scanFrom (1 + before.count '\n') 0 done (text ++ '\n' :: more)
        = scanFrom (1 + (before ++ text).count '\n' + 1) 0 (ts.reverse ++ done) more := by
  -- on the tiling, whose blanks and lexemes are what they are in front of a line break, too
  induction h with
  | @done before blanks hb =>
      refine ⟨[], rfl, ?_⟩
      intro done more
      have hblanks := scanFrom_blanks (hb.newline more) (1 + before.count '\n') done
      rw [List.nil_append, Nat.add_assoc, ← List.count_append] at hblanks
      rw [hblanks]
      exact @scanFrom_blank _ done '\n' [] more (front_blank (by decide) more)
  | @next before blanks lexeme rest kind tokens hb hl _ ih =>
      obtain ⟨c, body, rfl, hfront⟩ := longest_iff.mp hl
      obtain ⟨ts, rfl, hts⟩ := ih
      rw [← List.append_assoc before, ← List.append_assoc before]
      refine ⟨_ :: ts, rfl, ?_⟩
      intro done more
      have hblanks := hb.newline more
      have hlexeme := Piece.front_newline hfront more
      rw [List.append_assoc] at hblanks hlexeme
      rw [List.append_assoc, List.append_assoc, scanFrom_blanks hblanks, scanFrom_token hlexeme]
      rw [Nat.add_assoc, Nat.add_assoc, ← Nat.add_assoc (before.count _), ← List.count_append,
        ← List.count_append, hts, List.reverse_cons, ← List.append_cons]

/-- Reading goes on in the same way on a later line, and behind other tokens. -/
theorem scanFrom_later (k : Nat) (earlier : List Token) (line skip : Nat) (done : List Token)
    (cs : List Char) :
    scanFrom (line + k) skip (done.map (mapLine (· + k)) ++ earlier) cs
      = match scanFrom line skip done cs with
        | .ok ts => .ok (earlier.reverse ++ ts.map (mapLine (· + k)))
        | .error e => .error (e.mapLine (· + k)) := by
  induction cs generalizing line skip done with
  | nil => simp [scanFrom, endAt, mapLine]
  | cons c cs ih =>
      cases skip with
      | succ skip => exact ih line skip done
      | zero =>
          simp only [scanFrom, Nat.add_right_comm line k]
          cases (Piece.front c cs).content with
          | blank => exact ih _ _ done
          | token kind => exact ih _ _ (⟨kind, _, _⟩ :: done)
          | fault f => cases f <;> rfl

/-- **Scanning at a line break.**  When a text can be scanned, the text with a
    line break and another one behind it is scanned as the tokens of the first,
    without the end of the input, and those of the second on later lines; and it
    fails as the second one does. -/
theorem scan_join {source : String} {ts : List Token} {last : Token}
    (h : scan source = .ok (ts ++ [last])) (more : String) :
    last = endAt (1 + source.toList.count '\n') ∧
      scan (source ++ "\n" ++ more) = match scan more with
        | .ok ms => .ok (ts ++ ms.map (mapLine (· + (1 + source.toList.count '\n'))))
        | .error e => .error (e.mapLine (· + (1 + source.toList.count '\n'))) := by
  obtain ⟨_, rfl, htiles⟩ := @tiles_of_scanFrom [] _ [] _ h
  obtain ⟨ts', hall, hts⟩ := scanFrom_newline htiles
  obtain ⟨rfl, hlast⟩ := List.append_inj' hall rfl
  refine ⟨(List.cons.inj hlast).1, ?_⟩
  have hmore := scanFrom_later (1 + source.toList.count '\n') ts.reverse 1 0 [] more.toList
  rw [List.map_nil, List.nil_append, List.reverse_reverse, Nat.add_comm 1] at hmore
  rw [scan, String.toList_append, String.toList_append, List.append_assoc]
  refine (hts [] more.toList).trans ?_
  rw [List.append_nil]
  exact hmore

/-- Blanks alone give nothing but the mark at the end. -/
theorem scan_blanks {blanks : String} (h : Blanks blanks.toList []) :
    scan blanks = .ok [endAt (1 + blanks.toList.count '\n')] := by
  have hscan := scanFrom_blanks h 1 []
  rw [List.append_nil] at hscan
  rw [scan, hscan]
  rfl

/-- **Texts are scanned line by line.**  Behind a text that can be scanned and a
    line break, another text gives the tokens that it gives alone, or the error,
    with as many lines added as there are in front of it.  So blanks and comments
    behind the line break only move the end of the input. -/
theorem scan_line_break {source : String} {ts : List Token} {last : Token}
    (h : scan source = .ok (ts ++ [last])) :
    let k := 1 + source.toList.count '\n'
    (∀ (more : String) (ms : List Token), scan more = .ok ms →
      scan (source ++ "\n" ++ more) = .ok (ts ++ ms.map fun t => { t with line := t.line + k })) ∧
    (∀ (more : String) (e : SyntaxError), scan more = .error e →
      ∃ e', scan (source ++ "\n" ++ more) = .error e' ∧ e'.kind = e.kind ∧ e'.near = e.near ∧
        e'.line = e.line + k) ∧
    (last = endAt k ∧ ∀ blanks : String, Blanks blanks.toList [] →
      scan (source ++ "\n" ++ blanks)
        = .ok (ts ++ [endAt (1 + (source ++ "\n" ++ blanks).toList.count '\n')])) := by
  intro k
  refine ⟨?_, ?_, (scan_join h "").1, ?_⟩
  · intro more ms hmore
    rw [(scan_join h more).2, hmore]
    rfl
  · intro more e hmore
    rw [(scan_join h more).2, hmore]
    exact ⟨_, rfl, by cases e <;> rfl, by cases e <;> rfl, by cases e <;> rfl⟩
  · intro blanks hblanks
    have hlines : (source ++ "\n" ++ blanks).toList.count '\n'
        = blanks.toList.count '\n' + k := by
      have hbreak : "\n".toList.count '\n' = 1 := rfl
      rw [String.toList_append, String.toList_append, List.count_append, List.count_append,
        hbreak]
      omega
    rw [(scan_join h blanks).2, scan_blanks hblanks, hlines, ← Nat.add_assoc]
    rfl

/-- A number with a point behind it, a string that goes over a line break, and
    behind the next one a string that is not closed, or a comment. -/
theorem scan_line_break_unclosed :
    let source := "5. \"a\nb\""
    let ts : List Token :=
      [⟨.number (Number.ofDigits ['5'] [] 0), "5", 1⟩, ⟨.mark .dot, ".", 1⟩,
        ⟨.string "a\nb", "\"a\nb\"", 2⟩]
    scan source = .ok (ts ++ [endAt 2]) ∧
      (∃ e', scan (source ++ "\n" ++ "x\n\"c") = .error e' ∧ e'.kind = .unterminatedString ∧
        e'.near = "\"c" ∧ e'.line = 4) ∧
      scan (source ++ "\n" ++ "\t# d") = .ok (ts ++ [endAt 3]) := by
  intro source ts
  have h : scan "5. \"a\nb\"" = .ok (ts ++ [endAt 2]) := rfl
  have hmore : scan "x\n\"c" = .error (.unterminatedString "\"c" 2) := rfl
  have hcomment : Blanks ('\t' :: ('#' :: [' ', 'd'] ++ [])) [] :=
    .blank (by decide) (.comment (by decide) (by simp) .nil)
  obtain ⟨-, herror, -, hblanks⟩ := scan_line_break h
  exact ⟨h, herror _ _ hmore, hblanks _ hcomment⟩

end Token

end Scriptlet
