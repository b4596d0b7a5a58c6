import Scriptlet.Proofs.LineBreaks

/-! # What is wrong with a text

    A text that cannot be scanned has one faulty piece, and the scanner names
    exactly this piece.  What a faulty piece is, is said without the scanner
    (`Malformed`): a character with which no lexeme and no blank begins, or a
    string that is not closed or has an escape that there is not.

    In front of a faulty piece every other piece ends, whatever the text goes on
    with behind it (`Malformed.front_eq`).  So what stands in front can be scanned
    by itself, and the fault stays the same with any other text behind it
    (`Token.exists_fault`). -/

namespace Scriptlet

/-! ## Faulty pieces -/

/-- What stands behind an opening quote, in front of `rest`, and is no string:
    behind what may be written between quotes comes an escape that there is not,
    or the text ends, perhaps with a backslash. -/
inductive BadString : Fault → List Char → List Char → Prop where
  | escape {raw text rest : List Char} {c : Char} :
      Quoted raw text → c ∉ ['n', '"', '\\'] →
      BadString .unknownEscape (raw ++ ['\\', c]) rest
  | unclosed {raw text : List Char} :
      Quoted raw text → BadString .unterminatedString raw []
  | unclosedEscape {raw text : List Char} :
      Quoted raw text → BadString .unterminatedString (raw ++ ['\\']) []

/-- A piece of text, in front of `rest`, that is faulty: a single character with
    which neither blanks nor a lexeme begin, or a quote with a bad string. -/
inductive Malformed : Fault → List Char → List Char → Prop where
  | character {c : Char} {rest : List Char} :
      c ∉ [' ', '\t', '\r', '\n', '#'] →
      (∀ lexeme kind, Spelling lexeme kind → lexeme.head? ≠ some c) →
      Malformed .unrecognizedCharacter [c] rest
  | string {f : Fault} {body rest : List Char} :
      BadString f body rest → Malformed f ('"' :: body) rest

/-- Only a string that is not closed depends on what comes behind it. -/
theorem Malformed.before {f : Fault} {faulty rest : List Char} (h : Malformed f faulty rest)
    (hf : f ≠ .unterminatedString) (other : List Char) : Malformed f faulty other := by
  cases h with
  | character hblank hlexeme => exact .character hblank hlexeme
  | string hs =>
      cases hs with
      | escape hq hc => exact .string (.escape hq hc)
      | unclosed | unclosedEscape => exact absurd rfl hf

/-! ## Strings -/

section Strings

variable {f : Fault} {body rest : List Char} {c : Char}

/-- Neither a character that stands for itself nor an escape mends a bad string. -/
theorem BadString.plain (h : BadString f body rest) (hq : c ≠ '"') (hb : c ≠ '\\') :
    BadString f (c :: body) rest := by
  cases h with
  | escape hraw hc => exact .escape (.plain hq hb hraw) hc
  | unclosed hraw => exact .unclosed (.plain hq hb hraw)
  | unclosedEscape hraw => exact .unclosedEscape (.plain hq hb hraw)

theorem BadString.escaped {d : Char} (h : BadString f body rest)
    (hc : (c, d) ∈ [('n', '\n'), ('"', '"'), ('\\', '\\')]) :
    BadString f ('\\' :: c :: body) rest := by
  cases h with
  | escape hraw hc' => exact .escape (.escape hc hraw) hc'
  | unclosed hraw => exact .unclosed (.escape hc hraw)
  | unclosedEscape hraw => exact .unclosedEscape (.escape hc hraw)

theorem unescapeChar?_eq_none_iff : Text.unescapeChar? c = none ↔ c ∉ ['n', '"', '\\'] := by
  simp only [Text.unescapeChar?, List.mem_cons, List.not_mem_nil, or_false, not_or]
  split_ifs <;> simp_all

/-- Where no string is read, there is a bad one. -/
theorem badString_of_stringBody {width w : Nat} {decoded cs : List Char}
    (h : Piece.stringBody width decoded cs = ⟨w, .fault f⟩) :
    ∃ body rest, cs = body ++ rest ∧ w = width + body.length ∧ BadString f body rest := by
  fun_induction Piece.stringBody width decoded cs with
  | case1 =>
      cases h
      exact ⟨[], [], rfl, rfl, .unclosed .nil⟩
  | case2 => cases h
  | case3 =>
      cases h
      exact ⟨['\\'], [], rfl, rfl, .unclosedEscape .nil⟩
  | case4 width decoded c cs d hd ih =>
      obtain ⟨body, rest, rfl, rfl, hbad⟩ := ih h
      refine ⟨'\\' :: c :: body, rest, rfl, ?_, hbad.escaped (unescapeChar?_eq_some_iff.mp hd)⟩
      simp only [List.length_cons]
      omega
  | case5 width decoded c cs hnone =>
      cases h
      exact ⟨['\\', c], cs, rfl, rfl, .escape .nil (unescapeChar?_eq_none_iff.mp hnone)⟩
  | case6 width decoded c cs hq hend hesc ih =>
      have hb : c ≠ '\\' := ne_backslash hend hesc
      obtain ⟨body, rest, rfl, rfl, hbad⟩ := ih h
      refine ⟨c :: body, rest, rfl, ?_, hbad.plain hq hb⟩
      simp only [List.length_cons]
      omega

/-- A bad string is read as a fault. -/
theorem BadString.stringBody (h : BadString f body rest) (width : Nat) (decoded : List Char) :
    Piece.stringBody width decoded (body ++ rest) = ⟨width + body.length, .fault f⟩ := by
  cases h with
  | escape hraw hc =>
      rw [List.append_assoc, hraw.stringBody_append]
      simp only [List.cons_append, Piece.stringBody, unescapeChar?_eq_none_iff.mpr hc,
        List.length_append, List.length_cons, List.length_nil, Nat.add_assoc]
  | unclosed hraw =>
      rw [hraw.stringBody_append]
      rfl
  | unclosedEscape hraw =>
      rw [List.append_assoc, hraw.stringBody_append, List.length_append]
      rfl

end Strings

/-! ## The faulty piece at the front of a text -/

theorem Mark.single?_of_pair? {c d : Char} {m : Mark} (h : pair? c d = some m) :
    ∃ m', single? c = some m' := by
  unfold pair? at h
  iterate 5
    rcases of_ite_eq_some h with ⟨⟨rfl, rfl⟩, rfl⟩ | h
    · exact ⟨_, rfl⟩
  cases h

/-- Whether a mark begins with a character does not depend on what follows. -/
theorem Mark.longest?_eq_none_iff {c : Char} {cs : List Char} :
    longest? c cs = none ↔ single? c = none := by
  cases cs with
  | nil => rfl
  | cons d cs =>
      rw [longest?, Option.or_eq_none_iff]
      refine ⟨And.right, fun h => ⟨?_, h⟩⟩
      refine Option.eq_none_iff_forall_ne_some.mpr fun m hm => ?_
      obtain ⟨m', hm'⟩ := single?_of_pair? hm
      rw [h] at hm'
      cases hm'

theorem Blanks.head_mem {blanks rest : List Char} (h : Blanks blanks rest) :
    ∀ c ∈ blanks.head?, c ∈ [' ', '\t', '\r', '\n', '#'] := by
  intro c hc
  cases h with
  | nil => cases hc
  | blank hmem _ =>
      obtain rfl := Option.some.inj hc
      exact List.mem_append_left ['#'] hmem
  | comment =>
      obtain rfl := Option.some.inj hc
      decide

namespace Piece

variable {c : Char} {cs : List Char} {w : Nat} {f : Fault}

/-- A fault that is read at the front of a text is a faulty piece there. -/
theorem malformed_of_front (h : front c cs = ⟨w, .fault f⟩) :
    ∃ body rest, cs = body ++ rest ∧ body.length = w ∧ Malformed f (c :: body) rest := by
  unfold front at h
  split at h
  · cases h
  split at h
  · cases h
  split at h
  · next hc =>
      obtain ⟨body, rest, rfl, rfl, hbad⟩ := badString_of_stringBody h
      rw [hc]
      exact ⟨body, rest, rfl, (Nat.zero_add _).symm, .string hbad⟩
  split at h
  · cases h
  split at h
  · obtain ⟨kind, heq⟩ := word_eq c cs
    rw [heq] at h
    cases h
  split at h
  · cases h
  · next hblank hhash hquote hdigit hword _ hnone =>
      cases h
      refine ⟨[], cs, rfl, rfl, .character ?_ ?_⟩
      · simpa [hhash] using hblank
      · intro lexeme kind hspelling hhead
        obtain ⟨d, body, rfl, hfront⟩ := hspelling.front_eq
        obtain rfl := Option.some.inj hhead
        have hnone' : Mark.longest? d body = none :=
          Mark.longest?_eq_none_iff.mpr (Mark.longest?_eq_none_iff.mp hnone)
        rw [front, if_neg hblank, if_neg hhash, if_neg hquote, if_neg hdigit, if_neg hword,
          hnone'] at hfront
        have hcontent := (Piece.mk.inj hfront).2
        cases hcontent

/-- Where neither blanks nor a lexeme begin, a character is a fault. -/
theorem front_character (hblank : c ∉ [' ', '\t', '\r', '\n', '#'])
    (hlexeme : ∀ lexeme kind, Spelling lexeme kind → lexeme.head? ≠ some c) (cs : List Char) :
    front c cs = ⟨0, .fault .unrecognizedCharacter⟩ := by
  rcases hp : front c cs with ⟨w, content⟩
  cases content with
  | blank =>
      obtain ⟨body, rest, -, -, hblanks⟩ := Token.blanks_of_front hp
      exact absurd ((hblanks [] rest rfl .nil).head_mem c rfl) hblank
  | token kind =>
      obtain ⟨body, rest, -, -, hspelling⟩ := beginsWith_of_front hp
      exact absurd rfl (hlexeme _ _ hspelling)
  | fault f =>
      obtain ⟨body, rest, -, rfl, hm⟩ := malformed_of_front hp
      cases hm with
      | character => rfl
      | string => exact absurd rfl (hlexeme _ _ (.string .nil))

/-- **Faulty pieces are what the scanner finds faulty.** -/
theorem malformed_iff {faulty rest : List Char} :
    Malformed f faulty rest ↔ ∃ c body, faulty = c :: body
      ∧ front c (body ++ rest) = ⟨body.length, .fault f⟩ := by
  constructor
  · intro h
    cases h with
    | @character c _ hblank hlexeme => exact ⟨c, [], rfl, front_character hblank hlexeme _⟩
    | @string _ body _ hbad =>
        refine ⟨'"', body, rfl, (hbad.stringBody 0 []).trans ?_⟩
        rw [Nat.zero_add]
  · rintro ⟨c, body, rfl, hfront⟩
    obtain ⟨body', rest', heq, hlength, hm⟩ := malformed_of_front hfront
    obtain ⟨rfl, rfl⟩ := List.append_inj heq hlength.symm
    exact hm

/-- A faulty piece begins with a character that ends every lexeme, and every
    comment goes on over it. -/
theorem breaks_of_front (h : front c cs = ⟨w, .fault f⟩) : Breaks c ∧ c ≠ '\n' := by
  have hmark : ∀ {m : Mark}, Mark.single? c ≠ some m := by
    intro m hm
    obtain ⟨longest, hlongest⟩ := Mark.exists_longest? hm cs
    rw [front_mark hm hlongest] at h
    cases h
  refine ⟨⟨?_, ?_, ?_⟩, ?_⟩
  · refine Bool.eq_false_iff.mpr fun hpart => ?_
    rcases isWordPart_iff.mp hpart with hletter | hdigit
    · obtain ⟨kind, heq⟩ := word_eq c cs
      rw [front_word (isWordStart_iff.mpr hletter), heq] at h
      cases h
    · rw [Token.front_number (isDigit_iff.mpr hdigit)] at h
      cases h
  · rintro rfl
    exact hmark rfl
  · rintro rfl
    exact hmark rfl
  · rintro rfl
    cases h

/-- A comment that ends in front of a character other than a line feed ends in
    front of a line feed before that. -/
theorem takeWhile_of_length_le {p : Char → Bool} {d : Char} (hd : p d = true)
    {cs more : List Char} (h : ((cs ++ d :: more).takeWhile p).length ≤ cs.length)
    (other : List Char) : (cs ++ other).takeWhile p = cs.takeWhile p := by
  rw [List.takeWhile_append] at h ⊢
  split
  · next hall =>
      rw [if_pos hall, List.takeWhile_cons, if_pos hd, List.length_append, List.length_cons] at h
      omega
  · rfl

/-- A string that ends in front of a text ends there whatever the text is. -/
theorem stringBody_of_le {cs more : List Char} {kind : TokenKind}
    (h : stringBody 0 [] (cs ++ more) = ⟨w, .token kind⟩) (hw : w ≤ cs.length)
    (other : List Char) : stringBody 0 [] (cs ++ other) = ⟨w, .token kind⟩ := by
  obtain ⟨raw, text, rest, heq, hq, rfl, rfl⟩ := quoted_of_stringBody h
  have hclosed : (raw ++ ['"']) <+: cs := by
    refine List.prefix_of_prefix_length_le ⟨rest, ?_⟩ (List.prefix_append cs more) ?_
    · rw [heq, List.append_assoc]
      rfl
    · simpa using hw
  obtain ⟨rest', rfl⟩ := hclosed
  rw [List.append_assoc, List.append_assoc]
  exact hq.stringBody 0 [] _

/-- A piece that ends in front of a character that breaks lexemes and is no line
    feed ends there whatever comes behind, and also at the end of the text. -/
theorem front_of_breaks {d : Char} (hd : Breaks d) (hnewline : d ≠ '\n') {content : Content}
    {more other : List Char} (h : front c (cs ++ d :: more) = ⟨w, content⟩) (hw : w ≤ cs.length)
    (hcontent : ∀ f, content ≠ .fault f) (hother : ∀ a ∈ other.head?, a = d) :
    front c (cs ++ other) = ⟨w, content⟩ := by
  by_cases hhash : c = '#'
  · subst hhash
    cases h
    show Piece.mk ((cs ++ other).takeWhile (· ≠ '\n')).length .blank = _
    have hgo : decide (d ≠ '\n') = true := decide_eq_true hnewline
    rw [takeWhile_of_length_le hgo hw other, takeWhile_of_length_le hgo hw (d :: more)]
  by_cases hquote : c = '"'
  · subst hquote
    cases content with
    | blank => exact absurd h Token.stringBody_ne_blank
    | token kind => exact stringBody_of_le h hw other
    | fault f => exact absurd rfl (hcontent f)
  · rw [front_break hd hhash hquote] at h
    cases other with
    | nil => rw [List.append_nil, h]
    | cons a other =>
        obtain rfl := hother a rfl
        rw [front_break hd hhash hquote, h]

end Piece

section Malformed

variable {f : Fault} {faulty rest : List Char}

theorem Malformed.ne_nil (h : Malformed f faulty rest) : faulty ≠ [] := by
  cases h <;> exact List.cons_ne_nil _ _

/-- A piece is faulty in one way only. -/
theorem Malformed.unique {g : Fault} (h : Malformed f faulty rest)
    (h' : Malformed g faulty rest) : f = g := by
  obtain ⟨c, body, rfl, hfront⟩ := Piece.malformed_iff.mp h
  obtain ⟨c', body', heq, hfront'⟩ := Piece.malformed_iff.mp h'
  obtain ⟨rfl, rfl⟩ := List.cons.inj heq
  exact Content.fault.inj (Piece.mk.inj (hfront.symm.trans hfront')).2

/-- No number begins with a faulty piece. -/
theorem Malformed.not_decimal (h : Malformed f faulty rest) {whole fraction : List Char}
    (hne : whole ≠ []) (hdigits : ∀ c ∈ whole ++ fraction, IsDigit c) :
    ¬ Number.decimalText whole fraction <+: faulty ++ rest := by
  obtain ⟨c, body, rfl, hfront⟩ := Piece.malformed_iff.mp h
  obtain ⟨d, whole, rfl⟩ := List.exists_cons_of_ne_nil hne
  have hdigit : d.isDigit = true := isDigit_iff.mpr (hdigits d (List.mem_cons_self ..))
  rintro ⟨more, hmore⟩
  obtain ⟨rfl, -⟩ := List.cons.inj (show d :: _ = c :: _ from hmore)
  rw [(Piece.breaks_of_front hfront).1.isDigit_eq_false] at hdigit
  cases hdigit

end Malformed

/-- A piece that ends in front of a faulty one, or before, ends there whatever
    comes behind that one, and also when the text ends in front of it. -/
theorem Malformed.front_eq {f : Fault} {before faulty rest : List Char}
    (hm : Malformed f faulty rest) {c : Char} {body : List Char} {content : Content}
    (h : Piece.front c (body ++ (before ++ faulty ++ rest)) = ⟨body.length, content⟩)
    (hcontent : ∀ f, content ≠ .fault f) :
    Piece.front c (body ++ before) = ⟨body.length, content⟩ ∧
      ∀ other, Piece.front c (body ++ (before ++ faulty ++ other)) = ⟨body.length, content⟩ := by
  obtain ⟨d, tail, rfl, hfront⟩ := Piece.malformed_iff.mp hm
  obtain ⟨hd, hnewline⟩ := Piece.breaks_of_front hfront
  have hpiece : Piece.front c (body ++ before ++ d :: (tail ++ rest))
      = ⟨body.length, content⟩ := by
    simpa [List.append_assoc] using h
  have hle : body.length ≤ (body ++ before).length := by simp
  constructor
  · have hgo : ∀ a ∈ ([] : List Char).head?, a = d := by simp
    simpa using Piece.front_of_breaks hd hnewline hpiece hle hcontent hgo
  · intro other
    have hgo : ∀ a ∈ (d :: (tail ++ other)).head?, a = d := by simp
    simpa [List.append_assoc] using Piece.front_of_breaks hd hnewline hpiece hle hcontent hgo

/-! ## The fault of a text -/

namespace Token

/-- The scanner comes to the faulty piece: what stands in front of it can be
    scanned by itself, and with the faulty piece behind it, it cannot. -/
structure StopsAt (line : Nat) (done : List Token) (before faulty : List Char) (f : Fault) :
    Prop where
  scans : ∃ tokens, scanFrom line 0 done before = .ok tokens
  fails : ∀ rest, Malformed f faulty rest →
    scanFrom line 0 done (before ++ faulty ++ rest)
      = .error (f.toError (String.ofList faulty) (line + (before ++ faulty).count '\n'))

/-- A fault at the front ends the scan, on the line on which the faulty piece ends. -/
theorem scanFrom_fault {line : Nat} {done : List Token} {c : Char} {body rest : List Char}
    {f : Fault} (h : Piece.front c (body ++ rest) = ⟨body.length, .fault f⟩) :
    scanFrom line 0 done (c :: body ++ rest)
      = .error (f.toError (String.ofList (c :: body)) (line + (c :: body).count '\n')) := by
  rw [List.cons_append, scanFrom, h]
  simp only [List.take_left]

theorem stopsAt_front (line : Nat) (done : List Token) (faulty : List Char) (f : Fault) :
    StopsAt line done [] faulty f := by
  refine ⟨⟨_, rfl⟩, fun rest hm => ?_⟩
  obtain ⟨c, body, rfl, hfront⟩ := Piece.malformed_iff.mp hm
  rw [List.nil_append, scanFrom_fault hfront]

/-- The scanner comes to the faulty piece also from one piece before. -/
theorem StopsAt.piece {line : Nat} {done done' : List Token} {piece before faulty : List Char}
    {f : Fault} (h : StopsAt (line + piece.count '\n') done' before faulty f)
    (hbefore : scanFrom line 0 done (piece ++ before)
      = scanFrom (line + piece.count '\n') 0 done' before)
    (hfaulty : ∀ rest, scanFrom line 0 done (piece ++ (before ++ faulty ++ rest))
      = scanFrom (line + piece.count '\n') 0 done' (before ++ faulty ++ rest)) :
    StopsAt line done (piece ++ before) faulty f := by
  constructor
  · rw [hbefore]
    exact h.scans
  · intro rest hm
    have htext : piece ++ before ++ faulty ++ rest = piece ++ (before ++ faulty ++ rest) := by
      simp only [List.append_assoc]
    have hcount : line + (piece ++ before ++ faulty).count '\n'
        = line + piece.count '\n' + (before ++ faulty).count '\n' := by
      rw [List.append_assoc, List.count_append, Nat.add_assoc]
    rw [htext, hcount, hfaulty, h.fails rest hm]

/-- **Every text that cannot be scanned has a faulty piece**, and the scanner
    comes to it. -/
theorem exists_fault {line : Nat} {done : List Token} {text : List Char} {e : SyntaxError}
    (h : scanFrom line 0 done text = .error e) :
    ∃ before faulty rest f, text = before ++ faulty ++ rest ∧ Malformed f faulty rest ∧
      StopsAt line done before faulty f := by
  -- on the length of the text: a piece that is not faulty is passed over
  match text with
  | [] => cases h
  | c :: cs =>
      rcases hp : Piece.front c cs with ⟨w, content⟩
      cases content with
      | fault f =>
          obtain ⟨body, rest, rfl, rfl, hm⟩ := Piece.malformed_of_front hp
          exact ⟨[], c :: body, rest, f, rfl, hm, stopsAt_front line done _ f⟩
      | blank =>
          obtain ⟨body, rest', rfl, rfl, -⟩ := blanks_of_front hp
          rw [← List.cons_append, scanFrom_blank hp] at h
          obtain ⟨before, faulty, rest, f, rfl, hm, hstops⟩ := exists_fault h
          obtain ⟨hbefore, hfaulty⟩ := hm.front_eq hp fun f hf => by cases hf
          exact ⟨c :: body ++ before, faulty, rest, f, by simp, hm,
            hstops.piece (scanFrom_blank hbefore) fun rest => scanFrom_blank (hfaulty rest)⟩
      | token kind =>
          obtain ⟨body, rest', rfl, rfl, -⟩ := beginsWith_of_front hp
          rw [← List.cons_append, scanFrom_token hp] at h
          obtain ⟨before, faulty, rest, f, rfl, hm, hstops⟩ := exists_fault h
          obtain ⟨hbefore, hfaulty⟩ := hm.front_eq hp fun f hf => by cases hf
          exact ⟨c :: body ++ before, faulty, rest, f, by simp, hm,
            hstops.piece (scanFrom_token hbefore) fun rest => scanFrom_token (hfaulty rest)⟩
termination_by text.length

/-- **Faults are named exactly.**  A text that cannot be scanned falls into a part
    that can be scanned, a faulty piece and the rest; the error is about this
    piece, on the line on which it ends, and the piece is faulty in the way that
    the error says and in no other.  Unless it is a string that is not closed, the
    error stays the same with any other rest.  A number never begins at a fault. -/
theorem scan_error_precise {source : String} {e : SyntaxError} (h : scan source = .error e) :
    ∃ before faulty rest : String, source = before ++ faulty ++ rest ∧ faulty ≠ "" ∧
      (∃ tokens, scan before = .ok tokens) ∧
      (∃ f : Fault,
        e = f.toError faulty (1 + (before ++ faulty).toList.count '\n') ∧
        (∀ g, Malformed g faulty.toList rest.toList ↔ g = f) ∧
        (f ≠ .unterminatedString → ∀ other, scan (before ++ faulty ++ other) = .error e)) ∧
      ∀ whole fraction : List Char, whole ≠ [] → (∀ c ∈ whole ++ fraction, IsDigit c) →
        ¬ Number.decimalText whole fraction <+: (faulty ++ rest).toList := by
  obtain ⟨before, faulty, rest, f, htext, hm, hscans, hfails⟩ := exists_fault h
  have hsource : source = String.ofList before ++ String.ofList faulty ++ String.ofList rest := by
    rw [← String.ofList_append, ← String.ofList_append, ← htext, String.ofList_toList]
  have he : e = f.toError (String.ofList faulty) (1 + (before ++ faulty).count '\n') := by
    have herror := hfails rest hm
    rw [← htext] at herror
    exact Except.error.inj (h.symm.trans herror)
  refine ⟨String.ofList before, String.ofList faulty, String.ofList rest, hsource, ?_, ?_,
    ⟨f, ?_, ?_, ?_⟩, ?_⟩
  · intro hempty
    have hchars := congrArg String.toList hempty
    rw [String.toList_ofList] at hchars
    exact hm.ne_nil hchars
  · rw [scan, String.toList_ofList]
    exact hscans
  · rw [String.toList_append, String.toList_ofList, String.toList_ofList]
    exact he
  · intro g
    rw [String.toList_ofList, String.toList_ofList]
    constructor
    · exact fun hg => hg.unique hm
    · rintro rfl
      exact hm
  · intro hf other
    rw [scan, String.toList_append, String.toList_append, String.toList_ofList,
      String.toList_ofList, he]
    exact hfails _ (hm.before hf _)
  · intro whole fraction hne hdigits
    rw [String.toList_append, String.toList_ofList, String.toList_ofList]
    exact hm.not_decimal hne hdigits

/-- Behind a comment, a number and a point, a string with a good escape and then a
    backslash at the end of its line. -/
theorem scan_error_precise_escape :
    let source := "# a\n5.\"x\\n\\\n b"
    let e : SyntaxError := .unknownEscape "\"x\\n\\\n" 3
    scan source = .error e ∧ ∃ before rest, source = before ++ "\"x\\n\\\n" ++ rest ∧
      (∃ tokens, scan before = .ok tokens) ∧
      (∀ g, Malformed g "\"x\\n\\\n".toList rest.toList ↔ g = .unknownEscape) ∧
      ∀ other, scan (before ++ "\"x\\n\\\n" ++ other) = .error e := by
  have h : scan "# a\n5.\"x\\n\\\n b" = .error (.unknownEscape "\"x\\n\\\n" 3) := rfl
  obtain ⟨before, faulty, rest, hsource, -, hscans, ⟨f, he, hg, hother⟩, -⟩ :=
    scan_error_precise h
  refine ⟨h, before, rest, ?_⟩
  cases f with
  | unrecognizedCharacter | unterminatedString => cases he
  | unknownEscape =>
      obtain ⟨rfl, -⟩ := SyntaxError.unknownEscape.inj he
      exact ⟨hsource, hscans, hg, hother (by decide)⟩

end Token

end Scriptlet
