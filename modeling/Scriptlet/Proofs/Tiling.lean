import Scriptlet.Proofs.Scanning

/-! # Tokens tile the text

    What the tokens of a text are, said without a scanner: the text is cut into
    blanks and lexemes without gap or overlap, each lexeme is the longest one
    that the text goes on with, and the lines are counted from the start
    (`Tiles`).  The scanner gives exactly these tokens, and an error exactly
    when there are none. -/

namespace Scriptlet

/-! ## Lexemes -/

def IsDigit (c : Char) : Prop :=
  '0' ≤ c ∧ c ≤ '9'

def IsLetter (c : Char) : Prop :=
  'A' ≤ c ∧ c ≤ 'Z' ∨ 'a' ≤ c ∧ c ≤ 'z' ∨ c = '_'

/-- What is written between quotes, and what it stands for. -/
inductive Quoted : List Char → List Char → Prop where
  | nil : Quoted [] []
  | plain {c : Char} {raw text : List Char} :
      c ≠ '"' → c ≠ '\\' → Quoted raw text → Quoted (c :: raw) (c :: text)
  | escape {c d : Char} {raw text : List Char} :
      (c, d) ∈ [('n', '\n'), ('"', '"'), ('\\', '\\')] → Quoted raw text →
      Quoted ('\\' :: c :: raw) (d :: text)

/-- A lexeme, and the kind of token that it is. -/
inductive Spelling : List Char → TokenKind → Prop where
  | number {whole fraction : List Char} {x : Float} :
      whole ≠ [] → (∀ c ∈ whole ++ fraction, IsDigit c) →
      Number.read? (Number.decimalText whole fraction) = some x →
      Spelling (Number.decimalText whole fraction) (.number x)
  | string {raw text : List Char} :
      Quoted raw text → Spelling ('"' :: raw ++ ['"']) (.string (String.ofList text))
  | keyword (k : Keyword) : Spelling k.spelling.toList (.keyword k)
  | identifier {c : Char} {part : List Char} :
      IsLetter c → (∀ d ∈ part, IsLetter d ∨ IsDigit d) →
      (∀ k : Keyword, k.spelling ≠ String.ofList (c :: part)) →
      Spelling (c :: part) (.identifier (String.ofList (c :: part)))
  | mark (m : Mark) : Spelling m.spelling.toList (.mark m)

/-- The longest lexeme that a text begins with; `rest` is the text behind it. -/
structure Longest (lexeme : List Char) (kind : TokenKind) (rest : List Char) : Prop where
  spells : Spelling lexeme kind
  longest : ∀ other otherKind, Spelling other otherKind → other <+: lexeme ++ rest →
    other.length ≤ lexeme.length

/-- Blanks and comments, in front of `rest`.  A comment goes on to the end of
    its line. -/
inductive Blanks : List Char → List Char → Prop where
  | nil {rest : List Char} : Blanks [] rest
  | blank {c : Char} {blanks rest : List Char} :
      c ∈ [' ', '\t', '\r', '\n'] → Blanks blanks rest → Blanks (c :: blanks) rest
  | comment {body blanks rest : List Char} :
      '\n' ∉ body → (∀ c ∈ (blanks ++ rest).head?, c = '\n') → Blanks blanks rest →
      Blanks ('#' :: body ++ blanks) rest

/-- These are the tokens of a text that stands behind `before`: blanks and
    longest lexemes take turns, a token carries its lexeme and the line on which
    it ends, and after the last blanks comes the end of the input. -/
inductive Tiles : List Char → List Char → List Token → Prop where
  | done {before blanks : List Char} :
      Blanks blanks [] →
      Tiles before blanks [⟨.endOfInput, "", 1 + (before ++ blanks).count '\n'⟩]
  | next {before blanks lexeme rest : List Char} {kind : TokenKind} {tokens : List Token} :
      Blanks blanks (lexeme ++ rest) → Longest lexeme kind rest →
      Tiles (before ++ blanks ++ lexeme) rest tokens →
      Tiles before (blanks ++ lexeme ++ rest)
        (⟨kind, String.ofList lexeme, 1 + (before ++ blanks ++ lexeme).count '\n'⟩ :: tokens)

/-! ## Sorts of characters -/

theorem isDigit_iff {c : Char} : c.isDigit = true ↔ IsDigit c := by
  simp [Char.isDigit, IsDigit, Char.le_def]

theorem isWordStart_iff {c : Char} : Piece.isWordStart c = true ↔ IsLetter c := by
  simp [Piece.isWordStart, Char.isAlpha, Char.isUpper, Char.isLower, IsLetter, Char.le_def,
    or_assoc]

theorem isWordPart_iff {c : Char} : Piece.isWordPart c = true ↔ IsLetter c ∨ IsDigit c := by
  rw [← isDigit_iff, ← isWordStart_iff]
  simp [Piece.isWordPart, Piece.isWordStart, Char.isAlphanum, or_right_comm]

/-- What satisfies a condition stays when the longest stretch is taken. -/
theorem length_le_takeWhile {p : Char → Bool} {cs : List Char} (h : ∀ c ∈ cs, p c = true)
    (rest : List Char) : cs.length ≤ ((cs ++ rest).takeWhile p).length := by
  rw [List.takeWhile_append_of_pos h, List.length_append]
  exact Nat.le_add_right ..

/-! ## The value of a number -/

theorem decimalText_nil (whole : List Char) : Number.decimalText whole [] = whole := by
  rw [Number.decimalText, if_pos rfl, List.append_nil]

/-- A fraction stands behind a point. -/
theorem decimalText_point {whole fraction : List Char} (h : fraction ≠ []) :
    Number.decimalText whole fraction = whole ++ '.' :: fraction := by
  rw [Number.decimalText, if_neg h]

theorem toLower_eq_self {c : Char} (h : c.isDigit = true) : c.toLower = c := by
  grind [Char.isDigit, Char.toLower]

/-- A text that begins with a digit has no sign and is none of the names. -/
theorem read?_of_isDigit {c : Char} (h : c.isDigit = true) (cs : List Char) :
    Number.read? (c :: cs) = Number.readDecimal? (c :: cs) := by
  have hname : ∀ d name, d.isDigit = false →
      String.ofList ((c :: cs).map Char.toLower) ≠ String.ofList (d :: name) := by
    intro d name hd heq
    have hchars := congrArg String.toList heq
    rw [String.toList_ofList, String.toList_ofList, List.map_cons, toLower_eq_self h] at hchars
    rw [← (List.cons.inj hchars).1, h] at hd
    cases hd
  have hmagnitude : Number.readMagnitude? (c :: cs) = Number.readDecimal? (c :: cs) := by
    rw [Number.readMagnitude?, if_neg, if_neg (hname 'n' ['a', 'n'] rfl)]
    rintro (hinf | hinf)
    · exact hname 'i' ['n', 'f'] rfl hinf
    · exact hname 'i' ['n', 'f', 'i', 'n', 'i', 't', 'y'] rfl hinf
  rw [← hmagnitude, Number.read?.eq_def]
  split
  · next heq =>
      rw [(List.cons.inj heq).1] at h
      cases h
  · next heq =>
      rw [(List.cons.inj heq).1] at h
      cases h
  · rfl

/-- Digits around a point are read as digits around a point. -/
theorem read?_decimalText {whole fraction : List Char} (hne : whole ≠ [])
    (hdigits : ∀ c ∈ whole ++ fraction, c.isDigit = true) :
    Number.read? (Number.decimalText whole fraction)
      = some (Number.ofDigits whole fraction 0) := by
  obtain ⟨hwhole, hfraction⟩ := List.forall_mem_append.mp hdigits
  have hread : Number.readDecimal? (Number.decimalText whole fraction)
      = some (Number.ofDigits whole fraction 0) := by
    by_cases hf : fraction = []
    · subst hf
      have htake := List.takeWhile_eq_self_iff.mpr hwhole
      have hdrop := List.dropWhile_eq_nil_iff.mpr hwhole
      rw [decimalText_nil, Number.readDecimal?, htake, hdrop]
      dsimp only
      rw [if_neg fun h => hne h.1]
      rfl
    · obtain ⟨htake, hdrop⟩ := @Token.takeWhile_append _ whole ('.' :: fraction) hwhole
        (by rintro d hd; rw [← Option.some.inj hd]; rfl)
      have htake' := List.takeWhile_eq_self_iff.mpr hfraction
      have hdrop' := List.dropWhile_eq_nil_iff.mpr hfraction
      rw [decimalText_point hf, Number.readDecimal?, htake, hdrop]
      dsimp only
      rw [if_neg fun h => hne h.1]
      show (Number.readExponent? (fraction.dropWhile Char.isDigit)).map
        (Number.ofDigits whole (fraction.takeWhile Char.isDigit)) = _
      rw [htake', hdrop']
      rfl
  obtain ⟨c, whole, rfl⟩ := List.exists_cons_of_ne_nil hne
  rw [← hread]
  exact read?_of_isDigit (hwhole c (List.mem_cons_self ..)) _
/-! ## Strings -/

/-- There are three escapes. -/
theorem unescapeChar?_eq_some_iff {c d : Char} :
    Text.unescapeChar? c = some d ↔ (c, d) ∈ [('n', '\n'), ('"', '"'), ('\\', '\\')] := by
  simp only [List.mem_cons, List.not_mem_nil, or_false, Prod.mk.injEq]
  constructor
  · intro h
    unfold Text.unescapeChar? at h
    split at h
    · next hc => exact .inl ⟨hc, (Option.some.inj h).symm⟩
    · split at h
      · next hc => exact .inr (.inl ⟨hc, (Option.some.inj h).symm⟩)
      · split at h
        · next hc => exact .inr (.inr ⟨hc, (Option.some.inj h).symm⟩)
        · cases h
  · rintro (⟨rfl, rfl⟩ | ⟨rfl, rfl⟩ | ⟨rfl, rfl⟩) <;> rfl

/-- What is written between quotes is read, and what follows decides. -/
theorem Quoted.stringBody_append {raw text : List Char} (h : Quoted raw text) (width : Nat)
    (decoded rest : List Char) :
    Piece.stringBody width decoded (raw ++ rest)
      = Piece.stringBody (width + raw.length) (text.reverse ++ decoded) rest := by
  induction h generalizing width decoded with
  | nil => rfl
  | plain hq hb _ ih =>
      rw [List.cons_append, Token.stringBody_plain _ _ _ hb hq, ih]
      simp [Nat.add_assoc, Nat.add_comm 1]
  | escape hesc _ ih =>
      simp only [List.cons_append, Piece.stringBody, unescapeChar?_eq_some_iff.mpr hesc, ih]
      simp [Nat.add_assoc, Nat.add_comm 2]

/-- A quoted text is read up to its closing quote. -/
theorem Quoted.stringBody {raw text : List Char} (h : Quoted raw text) (width : Nat)
    (decoded rest : List Char) :
    Piece.stringBody width decoded (raw ++ '"' :: rest)
      = ⟨width + raw.length + 1, .token (.string (String.ofList (decoded.reverse ++ text)))⟩ := by
  rw [h.stringBody_append, Piece.stringBody, List.reverse_append, List.reverse_reverse]

/-- A backslash is never read as itself: it is the last character, or an escape
    begins with it. -/
theorem ne_backslash {c : Char} {cs : List Char} (hend : c = '\\' → cs = [] → False)
    (hesc : ∀ d ds, c = '\\' → cs = d :: ds → False) : c ≠ '\\' := by
  rintro rfl
  cases cs with
  | nil => exact hend rfl rfl
  | cons d ds => exact hesc d ds rfl rfl

/-- What is read up to a closing quote is a quoted text. -/
theorem quoted_of_stringBody {width w : Nat} {decoded cs : List Char} {kind : TokenKind}
    (h : Piece.stringBody width decoded cs = ⟨w, .token kind⟩) :
    ∃ raw text rest, cs = raw ++ '"' :: rest ∧ Quoted raw text ∧ w = width + raw.length + 1
      ∧ kind = .string (String.ofList (decoded.reverse ++ text)) := by
  fun_induction Piece.stringBody width decoded cs with
  | case2 width decoded rest =>
      cases h
      exact ⟨[], [], rest, rfl, .nil, rfl, by rw [List.append_nil]⟩
  | case4 width decoded c cs d hd ih =>
      obtain ⟨raw, text, rest, rfl, hq, rfl, rfl⟩ := ih h
      refine ⟨'\\' :: c :: raw, d :: text, rest, rfl, ?_, ?_, ?_⟩
      · exact .escape (unescapeChar?_eq_some_iff.mp hd) hq
      · simp [Nat.add_assoc, Nat.add_comm 2]
      · simp
  | case6 width decoded c cs hq hend hesc ih =>
      have hb : c ≠ '\\' := ne_backslash hend hesc
      obtain ⟨raw, text, rest, rfl, hraw, rfl, rfl⟩ := ih h
      refine ⟨c :: raw, c :: text, rest, rfl, .plain hq hb hraw, ?_, ?_⟩
      · simp [Nat.add_assoc, Nat.add_comm 1]
      · simp
  | _ => cases h

/-! ## Numbers -/

/-- The piece of a number is made of digits around a point. -/
theorem number_eq (c : Char) (cs : List Char) : ∃ whole fraction rest,
    cs = Number.decimalText whole fraction ++ rest ∧ (∀ d ∈ whole ++ fraction, d.isDigit = true)
      ∧ Piece.number c cs = ⟨(Number.decimalText whole fraction).length,
          .token (.number (Number.ofDigits (c :: whole) fraction 0))⟩ := by
  have hwhole : ∀ d ∈ cs.takeWhile Char.isDigit, d.isDigit = true :=
    List.all_eq_true.mp List.all_takeWhile
  have hcs : cs.takeWhile Char.isDigit ++ cs.dropWhile Char.isDigit = cs :=
    List.takeWhile_append_dropWhile
  have hplain : cs = Number.decimalText (cs.takeWhile Char.isDigit) [] ++ cs.dropWhile Char.isDigit
      ∧ ∀ d ∈ cs.takeWhile Char.isDigit ++ [], d.isDigit = true := by
    rw [decimalText_nil, hcs, List.append_nil]
    exact ⟨rfl, hwhole⟩
  rw [Piece.number]
  split
  · next ds hds =>
      by_cases hf : ds.takeWhile Char.isDigit = []
      · refine ⟨_, [], _, hplain.1, hplain.2, ?_⟩
        rw [hf, decimalText_nil, if_pos rfl]
      · have hfraction : ∀ d ∈ ds.takeWhile Char.isDigit, d.isDigit = true :=
          List.all_eq_true.mp List.all_takeWhile
        refine ⟨_, ds.takeWhile Char.isDigit, ds.dropWhile Char.isDigit, ?_,
          List.forall_mem_append.mpr ⟨hwhole, hfraction⟩, ?_⟩
        · rw [decimalText_point hf, List.append_assoc, List.cons_append,
            List.takeWhile_append_dropWhile, ← hds, hcs]
        · rw [decimalText_point hf, if_neg hf, List.length_append, List.length_cons,
            Nat.add_assoc, Nat.add_comm 1]
  · refine ⟨_, [], _, hplain.1, hplain.2, ?_⟩
    rw [decimalText_nil, if_pos rfl]

/-- The piece of a number takes in all the digits that there are. -/
theorem le_width_number (c : Char) {whole fraction : List Char}
    (hdigits : ∀ d ∈ whole ++ fraction, d.isDigit = true) (rest : List Char) :
    (Number.decimalText whole fraction).length
      ≤ (Piece.number c (Number.decimalText whole fraction ++ rest)).width := by
  obtain ⟨hwhole, hfraction⟩ := List.forall_mem_append.mp hdigits
  by_cases hf : fraction = []
  · have hle := length_le_takeWhile hwhole rest
    have hite : ∀ (p : Prop) [Decidable p] (n m : Nat), n ≤ if p then n else n + 1 + m := by
      intro p _ n m
      split <;> omega
    rw [hf, decimalText_nil, Piece.number]
    exact Nat.le_trans hle (hite ..)
  · obtain ⟨htake, hdrop⟩ := @Token.takeWhile_append _ whole ('.' :: (fraction ++ rest)) hwhole
      (by rintro d hd; rw [← Option.some.inj hd]; rfl)
    have hle := length_le_takeWhile hfraction rest
    have hne : ¬ (fraction ++ rest).takeWhile Char.isDigit = [] := by
      intro h
      rw [h] at hle
      exact hf (List.eq_nil_of_length_eq_zero (Nat.le_zero.mp hle))
    rw [decimalText_point hf, List.append_assoc, List.cons_append, Piece.number, htake, hdrop]
    simp only [if_neg hne, List.length_append, List.length_cons]
    omega

/-! ## Words -/

theorem front_word {c : Char} (hc : Piece.isWordStart c = true) (cs : List Char) :
    Piece.front c cs = Piece.word c cs :=
  (Token.front_of_sort rfl hc cs).2 (Token.isDigit_eq_false hc) hc

/-- A word is a keyword when it is spelled as one. -/
theorem Keyword.ofSpelling?_eq_some_iff {name : String} {k : Keyword} :
    ofSpelling? name = some k ↔ k.spelling = name := by
  constructor
  · intro h
    exact eq_of_beq (List.find?_some (p := fun k : Keyword => k.spelling == name) h)
  · rintro rfl
    exact ofSpelling?_spelling k

theorem Keyword.ofSpelling?_eq_none_iff {name : String} :
    ofSpelling? name = none ↔ ∀ k : Keyword, k.spelling ≠ name := by
  rw [Option.eq_none_iff_forall_ne_some]
  exact forall_congr' fun k => not_congr ofSpelling?_eq_some_iff

/-- Every keyword is a word. -/
theorem keyword_eq_word (k : Keyword) : ∃ c part, k.spelling.toList = c :: part
    ∧ Piece.isWordStart c = true ∧ ∀ d ∈ part, Piece.isWordPart d = true := by
  cases k <;> exact ⟨_, _, rfl, rfl, List.all_eq_true.mp rfl⟩

/-- A word is as long as the word characters go on, and it is a token. -/
theorem word_eq (c : Char) (cs : List Char) :
    ∃ kind, Piece.word c cs = ⟨(cs.takeWhile Piece.isWordPart).length, .token kind⟩ := by
  rw [Piece.word]
  split <;> exact ⟨_, rfl⟩

/-! ## Marks -/

theorem of_ite_eq_some {α : Type} {p : Prop} [Decidable p] {a b : α} {x : Option α}
    (h : (if p then some a else x) = some b) : p ∧ a = b ∨ x = some b := by
  split at h
  · next hp => exact .inl ⟨hp, Option.some.inj h⟩
  · exact .inr h

/-- A mark of one character is spelled with it. -/
theorem Mark.spelling_of_single? {c : Char} {m : Mark} (h : single? c = some m) :
    m.spelling.toList = [c] := by
  unfold single? at h
  -- one branch for each of the eighteen characters
  iterate 18
    rcases of_ite_eq_some h with ⟨rfl, rfl⟩ | h
    · rfl
  cases h

/-- A mark of two characters is spelled with them. -/
theorem Mark.spelling_of_pair? {c d : Char} {m : Mark} (h : pair? c d = some m) :
    m.spelling.toList = [c, d] := by
  unfold pair? at h
  iterate 5
    rcases of_ite_eq_some h with ⟨⟨rfl, rfl⟩, rfl⟩ | h
    · rfl
  cases h

/-- The longest mark stands at the front of the text. -/
theorem Mark.spelling_of_longest? {c : Char} {cs : List Char} {m : Mark}
    (h : longest? c cs = some m) : ∃ body rest, cs = body ++ rest
      ∧ m.spelling.toList = c :: body := by
  cases cs with
  | nil => exact ⟨[], [], rfl, spelling_of_single? h⟩
  | cons d cs =>
      rcases Option.or_eq_some_iff.mp h with hpair | ⟨-, hsingle⟩
      · exact ⟨[d], cs, rfl, spelling_of_pair? hpair⟩
      · exact ⟨[], d :: cs, rfl, spelling_of_single? hsingle⟩

/-- Where a mark begins there is a longest one. -/
theorem Mark.exists_longest? {c : Char} {m : Mark} (h : single? c = some m) (cs : List Char) :
    ∃ longest, longest? c cs = some longest := by
  cases cs with
  | nil => exact ⟨m, h⟩
  | cons d cs =>
      rw [longest?, h]
      cases pair? c d with
      | none => exact ⟨m, rfl⟩
      | some pair => exact ⟨pair, rfl⟩

/-- Where a mark can stand, nothing else can, and the longest one is the piece. -/
theorem front_mark {c : Char} {cs : List Char} {m longest : Mark} (hm : Mark.single? c = some m)
    (hlongest : Mark.longest? c cs = some longest) :
    Piece.front c cs = ⟨longest.spelling.length - 1, .token (.mark longest)⟩ := by
  have hc : ¬ (c = ' ' ∨ c = '\t' ∨ c = '\r' ∨ c = '\n') ∧ c ≠ '#' ∧ c ≠ '"'
      ∧ ¬ c.isDigit = true ∧ ¬ Piece.isWordStart c = true := by
    have hspelling := Mark.spelling_of_single? hm
    cases m <;> cases hspelling <;> decide
  obtain ⟨hblank, hhash, hquote, hdigit, hword⟩ := hc
  rw [Piece.front, if_neg hblank, if_neg hhash, if_neg hquote, if_neg hdigit, if_neg hword,
    hlongest]

/-! ## The piece at the front of a text is its longest lexeme -/

/-- A lexeme that is the whole text is read as it is. -/
theorem Spelling.front_eq {lexeme : List Char} {kind : TokenKind} (h : Spelling lexeme kind) :
    ∃ c body, lexeme = c :: body ∧ Piece.front c body = ⟨body.length, .token kind⟩ := by
  cases h with
  | @number whole fraction x hne hdigits hx =>
      have hdigits' : ∀ c ∈ whole ++ fraction, c.isDigit = true :=
        fun c hc => isDigit_iff.mpr (hdigits c hc)
      obtain rfl : _ = x := Option.some.inj ((read?_decimalText hne hdigits').symm.trans hx)
      obtain ⟨c, whole, rfl⟩ := List.exists_cons_of_ne_nil hne
      obtain ⟨hwhole, hfraction⟩ := List.forall_mem_append.mp hdigits'
      obtain ⟨hc, hwhole⟩ := List.forall_mem_cons.mp hwhole
      refine ⟨c, Number.decimalText whole fraction, rfl, ?_⟩
      rw [Token.front_number hc]
      by_cases hf : fraction = []
      · have hwidth := Token.number_whole c hwhole Token.stops_nil
        rw [List.append_nil] at hwidth
        rw [hf, decimalText_nil, hwidth]
      · have hwidth := Token.number_fraction c hwhole hf hfraction Token.stops_nil
        rwa [List.append_nil, ← decimalText_point hf] at hwidth
  | string hq =>
      refine ⟨'"', _, rfl, (hq.stringBody 0 [] []).trans ?_⟩
      simp
  | keyword k => cases k <;> exact ⟨_, _, rfl, rfl⟩
  | @identifier c part hc hpart hname =>
      have htake := List.takeWhile_eq_self_iff.mpr fun d hd => isWordPart_iff.mpr (hpart d hd)
      have hnone := Keyword.ofSpelling?_eq_none_iff.mpr hname
      refine ⟨c, part, rfl, ?_⟩
      rw [front_word (isWordStart_iff.mpr hc), Piece.word, htake, hnone]
  | mark m => cases m <;> exact ⟨_, _, rfl, rfl⟩

/-- A lexeme is the same token wherever it stands. -/
theorem Spelling.kind_eq {lexeme : List Char} {kind other : TokenKind} (h : Spelling lexeme kind)
    (h' : Spelling lexeme other) : kind = other := by
  obtain ⟨c, body, rfl, hfront⟩ := h.front_eq
  obtain ⟨c', body', heq, hfront'⟩ := h'.front_eq
  obtain ⟨rfl, rfl⟩ := List.cons.inj heq
  rw [hfront] at hfront'
  exact Content.token.inj (Piece.mk.inj hfront').2

/-- Where a text begins with a lexeme, a token is read that is no shorter. -/
theorem Spelling.le_width_front {lexeme : List Char} {kind : TokenKind} (h : Spelling lexeme kind)
    (rest : List Char) : ∃ c body w longer, lexeme = c :: body
      ∧ Piece.front c (body ++ rest) = ⟨w, .token longer⟩ ∧ body.length ≤ w := by
  have hword : ∀ {c : Char} {part : List Char}, Piece.isWordStart c = true →
      (∀ d ∈ part, Piece.isWordPart d = true) → ∃ w longer,
        Piece.front c (part ++ rest) = ⟨w, .token longer⟩ ∧ part.length ≤ w := by
    intro c part hc hpart
    obtain ⟨longer, heq⟩ := word_eq c (part ++ rest)
    exact ⟨_, longer, (front_word hc _).trans heq, length_le_takeWhile hpart rest⟩
  cases h with
  | @number whole fraction x hne hdigits hx =>
      obtain ⟨c, whole, rfl⟩ := List.exists_cons_of_ne_nil hne
      obtain ⟨hc, hdigits⟩ := List.forall_mem_cons.mp hdigits
      have hle := le_width_number c (fun d hd => isDigit_iff.mpr (hdigits d hd)) rest
      exact ⟨c, _, _, _, rfl, Token.front_number (isDigit_iff.mpr hc) _, hle⟩
  | @string raw text hq =>
      have hfront := hq.stringBody 0 [] rest
      rw [← List.singleton_append, ← List.append_assoc] at hfront
      exact ⟨'"', _, _, _, rfl, hfront, by simp⟩
  | keyword k =>
      obtain ⟨c, part, heq, hc, hpart⟩ := keyword_eq_word k
      obtain ⟨w, longer, hfront, hle⟩ := hword hc hpart
      exact ⟨c, part, w, longer, heq, hfront, hle⟩
  | identifier hc hpart _ =>
      obtain ⟨w, longer, hfront, hle⟩ := hword (isWordStart_iff.mpr hc)
        fun d hd => isWordPart_iff.mpr (hpart d hd)
      exact ⟨_, _, w, longer, rfl, hfront, hle⟩
  | mark m =>
      have hsingle : ∀ {c : Char} {m : Mark}, Mark.single? c = some m →
          ∃ c' body w longer, [c] = c' :: body
            ∧ Piece.front c' (body ++ rest) = ⟨w, .token longer⟩ ∧ body.length ≤ w := by
        intro c m hm
        obtain ⟨longest, hlongest⟩ := Mark.exists_longest? hm rest
        exact ⟨c, [], _, _, rfl, front_mark hm hlongest, Nat.zero_le _⟩
      cases m with
      | equalEqual | slashEqual | lessEqual | greaterEqual | dotDot =>
          exact ⟨_, _, _, _, rfl, rfl, Nat.le_refl 1⟩
      | _ => exact hsingle rfl

/-- A text that begins with `c` and goes on with `cs` begins with a lexeme that
    has `w` more characters. -/
def BeginsWith (c : Char) (cs : List Char) (w : Nat) (kind : TokenKind) : Prop :=
  ∃ body rest, cs = body ++ rest ∧ body.length = w ∧ Spelling (c :: body) kind

/-- What is scanned as a number, a word or a mark is a lexeme at the front of the text. -/
theorem beginsWith_of_number {c : Char} (hc : c.isDigit = true) {cs : List Char} {w : Nat}
    {kind : TokenKind} (h : Piece.number c cs = ⟨w, .token kind⟩) : BeginsWith c cs w kind := by
  obtain ⟨whole, fraction, rest, rfl, hdigits, heq⟩ := number_eq c cs
  rw [heq] at h
  cases h
  have hne : c :: whole ≠ [] := List.cons_ne_nil _ _
  have hall : ∀ d ∈ c :: whole ++ fraction, d.isDigit = true :=
    List.forall_mem_cons.mpr ⟨hc, hdigits⟩
  exact ⟨_, rest, rfl, rfl, .number hne (fun d hd => isDigit_iff.mp (hall d hd))
    (read?_decimalText hne hall)⟩

theorem beginsWith_of_word {c : Char} (hc : Piece.isWordStart c = true) {cs : List Char} {w : Nat}
    {kind : TokenKind} (h : Piece.word c cs = ⟨w, .token kind⟩) : BeginsWith c cs w kind := by
  have hpart : ∀ d ∈ cs.takeWhile Piece.isWordPart, Piece.isWordPart d = true :=
    List.all_eq_true.mp List.all_takeWhile
  refine ⟨cs.takeWhile Piece.isWordPart, cs.dropWhile Piece.isWordPart,
    List.takeWhile_append_dropWhile.symm, ?_⟩
  unfold Piece.word at h
  dsimp only at h
  split at h
  · next k hk =>
      cases h
      have hlexeme := congrArg String.toList (Keyword.ofSpelling?_eq_some_iff.mp hk)
      rw [String.toList_ofList] at hlexeme
      rw [← hlexeme]
      exact ⟨rfl, .keyword k⟩
  · next hnone =>
      cases h
      exact ⟨rfl, .identifier (isWordStart_iff.mp hc) (fun d hd => isWordPart_iff.mp (hpart d hd))
        (Keyword.ofSpelling?_eq_none_iff.mp hnone)⟩

theorem beginsWith_of_longest? {c : Char} {cs : List Char} {m : Mark}
    (h : Mark.longest? c cs = some m) :
    BeginsWith c cs (m.spelling.length - 1) (.mark m) := by
  obtain ⟨body, rest, rfl, hspelling⟩ := Mark.spelling_of_longest? h
  have hlength := congrArg List.length hspelling
  rw [String.length_toList, List.length_cons] at hlength
  refine ⟨body, rest, rfl, by omega, ?_⟩
  rw [← hspelling]
  exact .mark m

/-- A token that is read at the front of a text is a lexeme there. -/
theorem beginsWith_of_front {c : Char} {cs : List Char} {w : Nat} {kind : TokenKind}
    (h : Piece.front c cs = ⟨w, .token kind⟩) : BeginsWith c cs w kind := by
  unfold Piece.front at h
  split at h
  · cases h
  split at h
  · cases h
  split at h
  · next hc =>
      obtain ⟨raw, text, rest, rfl, hq, rfl, rfl⟩ := quoted_of_stringBody h
      refine ⟨raw ++ ['"'], rest, by simp, by simp, ?_⟩
      rw [hc]
      exact .string hq
  split at h
  · next hc => exact beginsWith_of_number hc h
  split at h
  · next hc => exact beginsWith_of_word hc h
  split at h
  · next m hm =>
      cases h
      exact beginsWith_of_longest? hm
  · cases h

/-- The longest lexeme of a text is the token that is read at its front. -/
theorem longest_iff {lexeme rest : List Char} {kind : TokenKind} :
    Longest lexeme kind rest ↔ ∃ c body, lexeme = c :: body
      ∧ Piece.front c (body ++ rest) = ⟨body.length, .token kind⟩ := by
  constructor
  · intro h
    obtain ⟨c, body, w, longer, rfl, hfront, hle⟩ := h.spells.le_width_front rest
    obtain ⟨body', rest', heq, rfl, hspells⟩ := beginsWith_of_front hfront
    -- what is read is a lexeme, so it is no longer than the longest one
    have hge := h.longest _ _ hspells (by rw [List.cons_append, heq]; exact ⟨rest', rfl⟩)
    have hlength : body.length = body'.length :=
      Nat.le_antisymm hle (Nat.le_of_succ_le_succ hge)
    obtain ⟨rfl, -⟩ := List.append_inj heq hlength
    rw [h.spells.kind_eq hspells]
    exact ⟨c, body, rfl, hfront⟩
  · rintro ⟨c, body, rfl, hfront⟩
    obtain ⟨body', rest', heq, hlength, hspells⟩ := beginsWith_of_front hfront
    obtain ⟨rfl, -⟩ := List.append_inj heq hlength.symm
    refine ⟨hspells, ?_⟩
    rintro other otherKind hother ⟨rest₂, htext⟩
    obtain ⟨d, body₂, w, longer, rfl, hfront₂, hle⟩ := hother.le_width_front rest₂
    rw [List.cons_append, List.cons_append] at htext
    obtain ⟨rfl, htail⟩ := List.cons.inj htext
    rw [htail, hfront] at hfront₂
    rw [← (Piece.mk.inj hfront₂).1] at hle
    exact Nat.succ_le_succ hle

/-! ## Tiling is scanning -/

/-- More blanks may stand in front. -/
theorem Tiles.blank {before piece text : List Char} {tokens : List Token}
    (h : Tiles (before ++ piece) text tokens)
    (hpiece : ∀ blanks after, text = blanks ++ after → Blanks blanks after →
      Blanks (piece ++ blanks) after) : Tiles before (piece ++ text) tokens := by
  cases h with
  | done hb =>
      rw [List.append_assoc]
      exact .done (hpiece _ [] (List.append_nil _).symm hb)
  | @next _ blanks lexeme rest kind _ hb hl ht =>
      have htext : piece ++ (blanks ++ lexeme ++ rest) = piece ++ blanks ++ lexeme ++ rest := by
        simp only [List.append_assoc]
      rw [List.append_assoc before piece] at ht ⊢
      rw [htext]
      exact .next (hpiece _ _ (List.append_assoc ..) hb) hl ht

namespace Token

/-- A token at the front: the scanner notes it, on the line on which it ends, and
    goes on. -/
theorem scanFrom_token {line : Nat} {done : List Token} {c : Char} {body rest : List Char}
    {kind : TokenKind} (h : Piece.front c (body ++ rest) = ⟨body.length, .token kind⟩) :
    scanFrom line 0 done (c :: body ++ rest)
      = scanFrom (line + (c :: body).count '\n') 0
          (⟨kind, String.ofList (c :: body), line + (c :: body).count '\n'⟩ :: done) rest := by
  rw [List.cons_append, scanFrom, h]
  simp only [List.take_left]
  exact scanFrom_skip ..

/-- Blanks at the front: the scanner goes on, as many lines further. -/
theorem scanFrom_blank {line : Nat} {done : List Token} {c : Char} {body rest : List Char}
    (h : Piece.front c (body ++ rest) = ⟨body.length, .blank⟩) :
    scanFrom line 0 done (c :: body ++ rest)
      = scanFrom (line + (c :: body).count '\n') 0 done rest := by
  rw [List.cons_append, scanFrom, h]
  simp only [List.take_left]
  exact scanFrom_skip ..

theorem front_blank {c : Char} (h : c ∈ [' ', '\t', '\r', '\n']) (cs : List Char) :
    Piece.front c cs = ⟨0, .blank⟩ := by
  simp only [List.mem_cons, List.not_mem_nil, or_false] at h
  rw [Piece.front, if_pos h]

/-- A comment goes on to the end of its line. -/
theorem front_comment {body rest : List Char} (hbody : '\n' ∉ body)
    (hrest : ∀ c ∈ rest.head?, c = '\n') :
    Piece.front '#' (body ++ rest) = ⟨body.length, .blank⟩ := by
  have htake : (body ++ rest).takeWhile (· ≠ '\n') = body := by
    refine (takeWhile_append ?_ ?_).1
    · intro c hc
      exact decide_eq_true fun h => hbody (h ▸ hc)
    · intro c hc
      exact decide_eq_false fun h => h (hrest c hc)
  show Piece.mk ((body ++ rest).takeWhile (· ≠ '\n')).length .blank = _
  rw [htake]

/-- Blanks only move on the line. -/
theorem scanFrom_blanks {blanks rest : List Char} (h : Blanks blanks rest) (line : Nat)
    (done : List Token) :
    scanFrom line 0 done (blanks ++ rest)
      = scanFrom (line + blanks.count '\n') 0 done rest := by
  induction h generalizing line with
  | nil => rfl
  | @blank c blanks rest hc _ ih =>
      have hstep := @scanFrom_blank line done c [] (blanks ++ rest) (front_blank hc _)
      rw [List.singleton_append] at hstep
      rw [List.cons_append, hstep, ih, Nat.add_assoc, ← List.count_append]
      rfl
  | @comment body blanks rest hbody hend _ ih =>
      rw [List.append_assoc, scanFrom_blank (front_comment hbody hend), ih, Nat.add_assoc,
        ← List.count_append]

theorem stringBody_ne_blank {width w : Nat} {decoded cs : List Char} :
    Piece.stringBody width decoded cs ≠ ⟨w, .blank⟩ := by
  intro h
  fun_induction Piece.stringBody width decoded cs with
  | case4 _ _ _ _ _ _ ih => exact ih h
  | case6 _ _ _ _ _ _ _ ih => exact ih h
  | _ => cases h

/-- A blank piece is the beginning of blanks, whatever blanks follow. -/
theorem blanks_of_front {c : Char} {cs : List Char} {w : Nat}
    (h : Piece.front c cs = ⟨w, .blank⟩) : ∃ body rest, cs = body ++ rest ∧ body.length = w
      ∧ ∀ blanks after, rest = blanks ++ after → Blanks blanks after →
        Blanks (c :: body ++ blanks) after := by
  unfold Piece.front at h
  split at h
  · next hc =>
      cases h
      refine ⟨[], cs, rfl, rfl, ?_⟩
      intro blanks after _ hb
      exact .blank (by simpa using hc) hb
  split at h
  · next hc =>
      cases h
      refine ⟨_, _, List.takeWhile_append_dropWhile.symm, rfl, ?_⟩
      intro blanks after heq hb
      have hbody : '\n' ∉ cs.takeWhile (· ≠ '\n') :=
        @newline_not_mem (· ≠ '\n') rfl _ (List.all_eq_true.mp List.all_takeWhile)
      rw [hc]
      refine .comment hbody ?_ hb
      intro d hd
      have hstop := List.head?_dropWhile_not (· ≠ '\n') cs
      rw [heq, hd] at hstop
      simpa using hstop
  split at h
  · exact absurd h stringBody_ne_blank
  split at h
  · cases h
  split at h
  · obtain ⟨kind, heq⟩ := word_eq c cs
    rw [heq] at h
    cases h
  · split at h <;> cases h

/-- The tokens that tile a text are read from it. -/
theorem scanFrom_of_tiles {before text : List Char} {tokens : List Token}
    (h : Tiles before text tokens) (done : List Token) :
    scanFrom (1 + before.count '\n') 0 done text = .ok (done.reverse ++ tokens) := by
  induction h generalizing done with
  | @done before blanks hb =>
      have hscan := scanFrom_blanks hb (1 + before.count '\n') done
      rw [List.append_nil] at hscan
      rw [hscan, scanFrom, List.reverse_cons, List.count_append, Nat.add_assoc]
      rfl
  | @next before blanks lexeme rest kind tokens hb hl _ ih =>
      obtain ⟨c, body, rfl, hfront⟩ := longest_iff.mp hl
      rw [List.append_assoc, scanFrom_blanks hb, scanFrom_token hfront]
      rw [Nat.add_assoc, Nat.add_assoc, ← Nat.add_assoc (before.count _), ← List.count_append,
        ← List.count_append, ih, List.reverse_cons, List.append_assoc]
      rfl

/-- The tokens that are read from a text tile it. -/
theorem tiles_of_scanFrom {before text : List Char} {done tokens : List Token}
    (h : scanFrom (1 + before.count '\n') 0 done text = .ok tokens) :
    ∃ ts, tokens = done.reverse ++ ts ∧ Tiles before text ts := by
  -- on the length of the text: whatever the piece at its front is, it has a character
  match text with
  | [] =>
      rw [scanFrom] at h
      cases h
      refine ⟨[endAt (1 + before.count '\n')], List.reverse_cons, ?_⟩
      have hend := @Tiles.done before [] .nil
      rwa [List.append_nil] at hend
  | c :: cs =>
      rcases hp : Piece.front c cs with ⟨w, content⟩
      cases content with
      | blank =>
          obtain ⟨body, rest, rfl, rfl, hblanks⟩ := blanks_of_front hp
          rw [← List.cons_append, scanFrom_blank hp, Nat.add_assoc, ← List.count_append] at h
          obtain ⟨ts, rfl, ht⟩ := tiles_of_scanFrom h
          exact ⟨ts, rfl, ht.blank hblanks⟩
      | token kind =>
          obtain ⟨body, rest, rfl, rfl, -⟩ := beginsWith_of_front hp
          rw [← List.cons_append, scanFrom_token hp, Nat.add_assoc, ← List.count_append] at h
          obtain ⟨ts, rfl, ht⟩ := tiles_of_scanFrom h
          have hl : Longest (c :: body) kind rest := longest_iff.mpr ⟨c, body, rfl, hp⟩
          rw [← List.append_nil before] at ht
          refine ⟨_, ?_, .next .nil hl ht⟩
          rw [List.append_nil, List.reverse_cons, List.append_assoc]
          rfl
      | fault f =>
          rw [scanFrom, hp] at h
          cases h
termination_by text.length

/-- **Scanning is tiling.**  The scanner gives a list of tokens for a text
    exactly when the text is cut into blanks and longest lexemes that are these
    tokens, on these lines. -/
theorem scan_eq_ok_iff_tiles (source : String) (tokens : List Token) :
    scan source = .ok tokens ↔ Tiles [] source.toList tokens := by
  constructor
  · intro h
    obtain ⟨ts, rfl, ht⟩ := @tiles_of_scanFrom [] _ [] _ h
    exact ht
  · intro h
    exact scanFrom_of_tiles h []

/-- A point without digits behind it, two points between numbers, a line feed in
    a string, a comment at the end. -/
example : (scan "5.x==1..2\"\n\"#").map (·.map fun t => (t.lexeme, t.line))
    = .ok [("5", 1), (".", 1), ("x", 1), ("==", 1), ("1", 1), ("..", 1), ("2", 1), ("\"\n\"", 2),
      ("", 2)] := by
  rfl

end Token

end Scriptlet
