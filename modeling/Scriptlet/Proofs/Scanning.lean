import Scriptlet.Proofs.NumberText
import Scriptlet.Token.Scan

/-! # What tokens are read from

    Two directions of reading tokens.

    Forwards, `Scans cs rest kinds` says that reading `cs` gives tokens of these
    kinds and comes to `rest`, wherever the reading stands.  Such statements
    chain (`Scans.append`), so a text is read piece by piece; there is one
    lemma for each sort of piece.

    Backwards, every token that is read has a kind that a text can spell
    (`TokenKind.Readable`): names are words but no keywords, and numbers are
    made of digits. -/

namespace Scriptlet

/-- The marks that are no part of a longer one. -/
def Mark.standsAlone : Mark → Bool
  | .slash | .equal | .less | .greater | .dot => false
  | _ => true

namespace Token

/-- Reading `cs` gives tokens of the given kinds, all on one line, and goes on
    with `rest`. -/
def Scans (cs rest : List Char) (kinds : List TokenKind) : Prop :=
  ∀ (line : Nat) (done : List Token), ∃ ts : List Token, ts.map Token.kind = kinds
    ∧ (∀ t ∈ ts, t.line = line)
    ∧ scanFrom line 0 done cs = scanFrom line 0 (ts.reverse ++ done) rest

theorem Scans.refl (cs : List Char) : Scans cs cs [] :=
  fun _ _ => ⟨[], rfl, nofun, rfl⟩

theorem Scans.congr {cs rest : List Char} {ks ks' : List TokenKind} (h : Scans cs rest ks)
    (hk : ks = ks') : Scans cs rest ks' :=
  hk ▸ h

theorem Scans.append {cs mid rest : List Char} {ks ks' : List TokenKind}
    (h : Scans cs mid ks) (h' : Scans mid rest ks') : Scans cs rest (ks ++ ks') := by
  intro line done
  obtain ⟨ts, hk, hl, hs⟩ := h line done
  obtain ⟨ts', hk', hl', hs'⟩ := h' line (ts.reverse ++ done)
  refine ⟨ts ++ ts', ?_, ?_, ?_⟩
  · rw [List.map_append, hk, hk']
  · intro t ht
    exact (List.mem_append.mp ht).elim (hl t) (hl' t)
  · rw [hs, hs', List.reverse_append, List.append_assoc]

/-- The characters of a piece after its first one are passed over. -/
theorem scanFrom_skip (line : Nat) (done : List Token) (body rest : List Char) :
    scanFrom line body.length done (body ++ rest) = scanFrom line 0 done rest := by
  induction body with
  | nil => rfl
  | cons c body ih => exact ih

/-- A piece that is a token and stands on one line. -/
theorem scans_token {c : Char} {body rest : List Char} {kind : TokenKind}
    (hfront : Piece.front c (body ++ rest) = ⟨body.length, .token kind⟩)
    (hline : '\n' ∉ c :: body) : Scans (c :: body ++ rest) rest [kind] := by
  intro line done
  have hcount : (c :: body).count '\n' = 0 := List.count_eq_zero.mpr hline
  refine ⟨[⟨kind, String.ofList (c :: body), line⟩], rfl, ?_, ?_⟩
  · intro t ht
    rw [List.mem_singleton.mp ht]
  · rw [List.cons_append, scanFrom, hfront]
    simp only [List.take_left, hcount]
    exact scanFrom_skip ..

/-- A blank leaves no trace. -/
theorem scans_blank (rest : List Char) : Scans (' ' :: rest) rest [] :=
  fun _ _ => ⟨[], rfl, nofun, rfl⟩

/-! ## Marks -/

/-- A mark in front of a blank. -/
theorem scans_mark (m : Mark) (rest : List Char) :
    Scans (m.spelling.toList ++ ' ' :: rest) (' ' :: rest) [.mark m] := by
  cases m <;> exact scans_token rfl (by decide)

/-- A mark that is no part of a longer one, in front of anything. -/
theorem scans_mark_alone {m : Mark} (h : m.standsAlone = true) (rest : List Char) :
    Scans (m.spelling.toList ++ rest) rest [.mark m] := by
  cases m with
  | slash | equal | less | greater | dot => exact nomatch h
  -- the scanner looks at the next character, so there has to be one or none
  | _ => cases rest <;> exact scans_token rfl (by decide)

/-! ## Words -/

/-- No word and no number goes on into the text. -/
def Stops (rest : List Char) : Prop :=
  ∀ c ∈ rest.head?, Piece.isWordPart c = false ∧ c ≠ '.'

theorem stops_nil : Stops [] :=
  nofun

/-- A character that is neither part of a word nor a point. -/
theorem stops_cons {c : Char} (hw : Piece.isWordPart c = false) (hp : c ≠ '.') (cs : List Char) :
    Stops (c :: cs) := by
  intro d hd
  rw [← Option.some.inj hd]
  exact ⟨hw, hp⟩

theorem stops_blank (cs : List Char) : Stops (' ' :: cs) :=
  stops_cons rfl (by decide) cs

/-- The longest stretch of a sort is the given one, when the text behind it
    begins with something else. -/
theorem takeWhile_append {p : Char → Bool} {cs rest : List Char} (hcs : ∀ c ∈ cs, p c = true)
    (hrest : ∀ c ∈ rest.head?, p c = false) :
    (cs ++ rest).takeWhile p = cs ∧ (cs ++ rest).dropWhile p = rest := by
  have hstop : rest.takeWhile p = [] ∧ rest.dropWhile p = rest := by
    cases rest with
    | nil => exact ⟨rfl, rfl⟩
    | cons c rest =>
        have hc := hrest c rfl
        simp [hc]
  rw [List.takeWhile_append_of_pos hcs, List.dropWhile_append_of_pos hcs, hstop.1, hstop.2]
  exact ⟨List.append_nil cs, rfl⟩

theorem newline_not_mem {sort : Char → Bool} (hn : sort '\n' = false) {cs : List Char}
    (hcs : ∀ c ∈ cs, sort c = true) : '\n' ∉ cs := by
  intro h
  rw [hcs _ h] at hn
  exact nomatch hn

/-- Words do not begin with a digit. -/
theorem isDigit_eq_false {c : Char} (h : Piece.isWordStart c = true) : c.isDigit = false := by
  rcases (Bool.or_eq_true ..).mp h with h | h
  · grind [Char.isAlpha, Char.isUpper, Char.isLower, Char.isDigit]
  · obtain rfl : c = '_' := by simpa using h
    rfl

/-- A character of a sort to which blanks, comment signs and quotes do not
    belong begins a number or a word, if it is a digit or a letter. -/
theorem front_of_sort {sort : Char → Bool} (hsort : " \t\r\n#\"".toList.all (!sort ·) = true)
    {c : Char} (hc : sort c = true) (cs : List Char) :
    (c.isDigit = true → Piece.front c cs = Piece.number c cs) ∧
      (c.isDigit = false → Piece.isWordStart c = true → Piece.front c cs = Piece.word c cs) := by
  have hne : ∀ d ∈ " \t\r\n#\"".toList, c ≠ d := by
    rintro d hd rfl
    have hnot := List.all_eq_true.mp hsort c hd
    rw [hc] at hnot
    exact nomatch hnot
  have hblank : ¬ (c = ' ' ∨ c = '\t' ∨ c = '\r' ∨ c = '\n') := by
    rintro (h | h | h | h) <;> exact hne _ (by decide) h
  have hrest := And.intro (hne '#' (by decide)) (hne '"' (by decide))
  constructor
  · intro hd
    rw [Piece.front, if_neg hblank, if_neg hrest.1, if_neg hrest.2, if_pos hd]
  · intro hd hw
    have hnot : ¬ c.isDigit = true := Bool.eq_false_iff.mp hd
    rw [Piece.front, if_neg hblank, if_neg hrest.1, if_neg hrest.2, if_neg hnot, if_pos hw]

/-- A word in front of something else is a keyword or an identifier. -/
theorem scans_word {c : Char} {part rest : List Char} {kind : TokenKind}
    (hc : Piece.isWordStart c = true) (hpart : part.all Piece.isWordPart = true)
    (hrest : Stops rest)
    (hkind : kind = match Keyword.ofSpelling? (String.ofList (c :: part)) with
      | some k => .keyword k
      | none => .identifier (String.ofList (c :: part))) :
    Scans (c :: part ++ rest) rest [kind] := by
  rw [List.all_eq_true] at hpart
  have htake := (takeWhile_append hpart fun d hd => (hrest d hd).1).1
  apply scans_token
  · rw [(front_of_sort rfl hc _).2 (isDigit_eq_false hc) hc, Piece.word, htake, hkind]
    cases Keyword.ofSpelling? (String.ofList (c :: part)) <;> rfl
  · rw [List.mem_cons]
    rintro (h | h)
    · rw [← h] at hc
      exact nomatch hc
    · exact newline_not_mem rfl hpart h

/-- A keyword in front of something else. -/
theorem scans_keyword (k : Keyword) {rest : List Char} (hrest : Stops rest) :
    Scans (k.spelling.toList ++ rest) rest [.keyword k] := by
  cases k <;> exact scans_word rfl rfl hrest rfl

/-- A word that is no keyword. -/
def IsName (name : String) : Prop :=
  ∃ c part, name = String.ofList (c :: part) ∧ Piece.isWordStart c = true
    ∧ part.all Piece.isWordPart = true ∧ Keyword.ofSpelling? name = none

/-- A name scans back as itself. -/
theorem scans_name {name : String} (h : IsName name) {rest : List Char} (hrest : Stops rest) :
    Scans (name.toList ++ rest) rest [.identifier name] := by
  obtain ⟨c, part, rfl, hc, hpart, hname⟩ := h
  rw [String.toList_ofList]
  apply scans_word hc hpart hrest
  rw [hname]

/-! ## Numbers -/

theorem isWordPart_of_isDigit {c : Char} (h : c.isDigit = true) : Piece.isWordPart c = true := by
  simp [Piece.isWordPart, Char.isAlphanum, h]

theorem front_number {c : Char} (h : c.isDigit = true) (cs : List Char) :
    Piece.front c cs = Piece.number c cs :=
  (front_of_sort rfl h cs).1 h

theorem Stops.isDigit_eq_false {rest : List Char} (h : Stops rest) :
    ∀ c ∈ rest.head?, c.isDigit = false := by
  intro c hc
  refine Bool.eq_false_iff.mpr fun hd => ?_
  have hword := (h c hc).1
  rw [isWordPart_of_isDigit hd] at hword
  exact nomatch hword

/-- Digits in front of something else are a whole number. -/
theorem number_whole (c : Char) {whole rest : List Char} (hwhole : ∀ d ∈ whole, d.isDigit = true)
    (hrest : Stops rest) :
    Piece.number c (whole ++ rest)
      = ⟨whole.length, .token (.number (Number.ofDigits (c :: whole) [] 0))⟩ := by
  obtain ⟨htake, hdrop⟩ := takeWhile_append hwhole hrest.isDigit_eq_false
  rw [Piece.number, htake, hdrop]
  split
  · next ds => exact absurd rfl (hrest '.' rfl).2
  · rfl

/-- Digits, a point and more digits. -/
theorem number_fraction (c : Char) {whole fraction rest : List Char}
    (hwhole : ∀ d ∈ whole, d.isDigit = true) (hne : fraction ≠ [])
    (hfraction : ∀ d ∈ fraction, d.isDigit = true) (hrest : Stops rest) :
    Piece.number c (whole ++ '.' :: fraction ++ rest)
      = ⟨(whole ++ '.' :: fraction).length,
          .token (.number (Number.ofDigits (c :: whole) fraction 0))⟩ := by
  obtain ⟨htake, hdrop⟩ := @takeWhile_append _ _ ('.' :: (fraction ++ rest)) hwhole
    (by rintro d hd; rw [← Option.some.inj hd]; rfl)
  have hfrac := (takeWhile_append hfraction hrest.isDigit_eq_false).1
  rw [List.append_assoc, List.cons_append, Piece.number, htake, hdrop]
  simp only [hfrac, if_neg hne, List.length_append, List.length_cons, Nat.add_assoc,
    Nat.add_comm 1]

/-- Digits around a point, in front of something else. -/
theorem scans_decimal {whole fraction rest : List Char} (hne : whole ≠ [])
    (hdigits : ∀ c ∈ whole ++ fraction, c.isDigit = true) (hrest : Stops rest) :
    Scans (Number.decimalText whole fraction ++ rest) rest
      [.number (Number.ofDigits whole fraction 0)] := by
  obtain ⟨c, whole, rfl⟩ := List.exists_cons_of_ne_nil hne
  obtain ⟨hwhole, hfraction⟩ := List.forall_mem_append.mp hdigits
  obtain ⟨hc, hwhole⟩ := List.forall_mem_cons.mp hwhole
  unfold Number.decimalText
  split
  · next hf =>
      subst hf
      rw [List.append_nil]
      apply scans_token
      · rw [front_number hc, number_whole c hwhole hrest]
      · exact newline_not_mem rfl (List.forall_mem_cons.mpr ⟨hc, hwhole⟩)
  · next hf =>
      rw [List.cons_append]
      apply scans_token
      · rw [front_number hc, number_fraction c hwhole hf hfraction hrest]
      · have hfront := newline_not_mem rfl (List.forall_mem_cons.mpr ⟨hc, hwhole⟩)
        have hback := newline_not_mem rfl hfraction
        rw [← List.cons_append, List.mem_append]
        rintro (h | h)
        · exact hfront h
        · exact (List.mem_cons.mp h).elim (by decide) hback

/-- The text of a finite double without a sign. -/
theorem scans_number {bits : Nat} (hfin : bits < Number.infinityBits) {rest : List Char}
    (hrest : Stops rest) :
    Scans (Number.chars (Number.ofMagnitude false bits) ++ rest) rest
      [.number (Number.ofMagnitude false bits)] := by
  obtain ⟨whole, fraction, htext, hne, hdigits, hvalue⟩ := Number.magnitudeText_eq hfin
  rw [Number.chars_ofMagnitude hfin, if_neg Bool.false_ne_true, htext, ← hvalue]
  exact scans_decimal hne hdigits hrest

/-! ## Strings -/

/-- A character that needs no escape stands for itself. -/
theorem stringBody_plain (width : Nat) (decoded cs : List Char) {c : Char} (hb : c ≠ '\\')
    (hq : c ≠ '"') :
    Piece.stringBody width decoded (c :: cs) = Piece.stringBody (width + 1) (c :: decoded) cs := by
  rw [Piece.stringBody.eq_def]
  split
  · next h => exact nomatch h
  · next h => exact absurd (List.cons.inj h).1 hq
  · next h => exact absurd (List.cons.inj h).1 hb
  · next h => exact absurd (List.cons.inj h).1 hb
  · next h =>
      obtain ⟨rfl, rfl⟩ := List.cons.inj h
      rfl

/-- The written form of a text, up to its closing quote, is read as the text. -/
theorem stringBody_escapeChars (width : Nat) (decoded cs rest : List Char) :
    Piece.stringBody width decoded (Text.escapeChars cs ++ '"' :: rest)
      = ⟨width + (Text.escapeChars cs).length + 1,
          .token (.string (String.ofList (decoded.reverse ++ cs)))⟩ := by
  induction cs generalizing width decoded with
  | nil => simp [Text.escapeChars, Piece.stringBody]
  | cons c cs ih =>
      have hcons : Text.escapeChars (c :: cs) = Text.escapeChar c ++ Text.escapeChars cs := rfl
      rw [hcons]
      rcases Text.unescapeChar?_escape c with ⟨hself, hb, hq⟩ | ⟨e, hesc, hback⟩
      · rw [hself, List.cons_append, List.nil_append, List.cons_append,
          stringBody_plain _ _ _ hb hq, ih]
        simp [Nat.add_assoc, Nat.add_comm 1]
      · rw [hesc]
        simp only [List.cons_append, List.nil_append, Piece.stringBody, hback, ih]
        simp [Nat.add_assoc, Nat.add_comm 2]

/-- A text that is written with escapes stays on one line. -/
theorem newline_not_mem_escapeChars (cs : List Char) : '\n' ∉ Text.escapeChars cs := by
  intro h
  obtain ⟨c, _, hc⟩ := List.mem_flatMap.mp h
  unfold Text.escapeChar at hc
  split at hc
  · exact absurd hc (by decide)
  · split at hc
    · exact absurd hc (by decide)
    · split at hc
      · exact absurd hc (by decide)
      · next hn => exact hn (List.mem_singleton.mp hc).symm

/-- A quoted text. -/
theorem scans_quoted (s : String) (rest : List Char) :
    Scans (Text.quoteOnto s rest) rest [.string s] := by
  have htext : Text.quoteOnto s rest = '"' :: (Text.escapeChars s.toList ++ ['"']) ++ rest := by
    simp [Text.quoteOnto]
  rw [htext]
  apply scans_token
  · show Piece.stringBody 0 [] _ = _
    rw [List.append_assoc, List.singleton_append, stringBody_escapeChars]
    simp
  · simp [newline_not_mem_escapeChars]

end Token

/-! ## Kinds that a text can spell -/

/-- A kind of token that a piece of text can spell. -/
def TokenKind.Readable : TokenKind → Prop
  | .identifier name => Token.IsName name
  | .number x => ∃ whole fraction, x = Number.ofDigits whole fraction 0
  | .endOfInput => False
  | _ => True

namespace Token

/-- A string that is scanned can be read. -/
theorem readable_stringBody {width : Nat} {decoded cs : List Char} {kind : TokenKind}
    (h : (Piece.stringBody width decoded cs).content = .token kind) : kind.Readable := by
  fun_induction Piece.stringBody width decoded cs with
  | case2 => cases h; trivial
  | case4 _ _ _ _ _ _ ih => exact ih h
  | case6 _ _ _ _ _ _ _ ih => exact ih h
  | _ => exact nomatch h

theorem readable_word {c : Char} (hc : Piece.isWordStart c = true) {cs : List Char}
    {kind : TokenKind} (h : (Piece.word c cs).content = .token kind) : kind.Readable := by
  unfold Piece.word at h
  dsimp only at h
  split at h
  · cases h
    trivial
  · next hname =>
      cases h
      exact ⟨c, _, rfl, hc, List.all_takeWhile, hname⟩

/-- The piece at the front of a text is a token of such a kind, if it is one. -/
theorem readable_front {c : Char} {cs : List Char} {kind : TokenKind}
    (h : (Piece.front c cs).content = .token kind) : kind.Readable := by
  unfold Piece.front at h
  split at h
  · exact nomatch h
  · split at h
    · exact nomatch h
    · split at h
      · exact readable_stringBody h
      · split at h
        · cases h
          exact ⟨_, _, rfl⟩
        · split at h
          · next hc => exact readable_word hc h
          · split at h
            · cases h
              trivial
            · exact nomatch h

/-- A text that is read gives tokens of such kinds, and then the end. -/
theorem scanFrom_readable {line skip : Nat} {done tokens : List Token} {cs : List Char}
    (h : scanFrom line skip done cs = .ok tokens) :
    ∃ ts last, tokens = done.reverse ++ ts ++ [last] ∧ last.isEnd = true
      ∧ ∀ t ∈ ts, t.kind.Readable := by
  induction cs generalizing line skip done with
  | nil =>
      rw [scanFrom] at h
      refine ⟨[], endAt line, ?_, rfl, nofun⟩
      rw [← Except.ok.inj h]
      simp
  | cons c cs ih =>
      unfold scanFrom at h
      split at h
      · exact ih h
      · dsimp only at h
        split at h
        · exact ih h
        · next kind hkind =>
            obtain ⟨ts, last, htokens, hlast, hts⟩ := ih h
            rw [List.reverse_cons, List.append_assoc done.reverse] at htokens
            exact ⟨_, last, htokens, hlast,
              List.forall_mem_cons.mpr ⟨readable_front hkind, hts⟩⟩
        · exact nomatch h

/-- A source text that is read gives tokens of such kinds, and then the end. -/
theorem scan_readable {source : String} {tokens : List Token} (h : scan source = .ok tokens) :
    ∃ ts last, tokens = ts ++ [last] ∧ last.isEnd = true ∧ ∀ t ∈ ts, t.kind.Readable :=
  scanFrom_readable h

/-- A text on one line that can be read to its end. -/
theorem Scans.scan {source : String} {kinds : List TokenKind} (h : Scans source.toList [] kinds) :
    ∃ ts : List Token, ts.map Token.kind = kinds ∧ (∀ t ∈ ts, t.line = 1)
      ∧ Token.scan source = .ok (ts ++ [endAt 1]) := by
  obtain ⟨ts, hk, hl, hs⟩ := h 1 []
  refine ⟨ts, hk, hl, ?_⟩
  rw [Token.scan, hs, scanFrom, List.append_nil, List.reverse_cons, List.reverse_reverse]

end Token

end Scriptlet
