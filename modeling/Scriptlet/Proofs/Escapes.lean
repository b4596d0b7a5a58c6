import Scriptlet.Proofs.Faults

/-! # Escapes read back

    Writing a text between quotes and reading it again are inverse to each other.
    The reader is followed with everything that it keeps count of on its way
    (`StringReading`): the bytes that it has taken, of which a character may have
    several, and the line feeds among them.  It is the scanner's own reader
    (`StringReading.exists_taken`), so the counts are those by which the scanner
    goes on.

    Every character of a text has one spelling between quotes, which
    `Text.escapeChar` gives, and only a line feed has a second one: it may stand
    there as it is (`Text.Spells`).  The spellings that the reader takes are exactly
    these (`Text.spells_iff_quoted`). -/

namespace Scriptlet

/-! ## Spellings of a text -/

namespace Text

/-- The written form of a text between quotes, except that some of the line feeds
    may stand there as they are. -/
def Spells (raw text : List Char) : Prop :=
  ∃ pieces : List (List Char), raw = pieces.flatten ∧
    List.Forall₂ (fun piece c => piece = escapeChar c ∨ c = '\n' ∧ piece = ['\n']) pieces text

theorem spells_nil : Spells [] [] :=
  ⟨[], rfl, .nil⟩

/-- One more character in front, escaped if it has to be. -/
theorem Spells.cons {raw text piece : List Char} {c : Char} (h : Spells raw text)
    (hpiece : piece = escapeChar c ∨ c = '\n' ∧ piece = ['\n']) :
    Spells (piece ++ raw) (c :: text) := by
  obtain ⟨pieces, rfl, hpieces⟩ := h
  exact ⟨piece :: pieces, rfl, .cons hpiece hpieces⟩

/-- What may stand between quotes for a text are its spellings. -/
theorem spells_iff_quoted {raw text : List Char} : Spells raw text ↔ Quoted raw text := by
  constructor
  · rintro ⟨pieces, rfl, hpieces⟩
    induction hpieces with
    | nil => exact .nil
    | @cons piece c pieces text hpiece _ ih =>
        rw [List.flatten_cons]
        rcases hpiece with rfl | ⟨rfl, rfl⟩
        · rcases unescapeChar?_escape c with ⟨hself, hb, hq⟩ | ⟨e, hesc, hback⟩
          · rw [hself]
            exact .plain hq hb ih
          · rw [hesc]
            exact .escape (unescapeChar?_eq_some_iff.mp hback) ih
        · exact .plain (by decide) (by decide) ih
  · intro h
    induction h with
    | nil => exact spells_nil
    | @plain c raw text hq hb _ ih =>
        have hpiece : [c] = escapeChar c ∨ c = '\n' ∧ [c] = ['\n'] := by
          by_cases hn : c = '\n'
          · exact .inr ⟨hn, by rw [hn]⟩
          · rw [escapeChar, if_neg hb, if_neg hq, if_neg hn]
            exact .inl rfl
        exact ih.cons hpiece
    | @escape c d raw text hesc _ ih =>
        have hpiece : ['\\', c] = escapeChar d := by
          simp only [List.mem_cons, List.not_mem_nil, or_false, Prod.mk.injEq] at hesc
          rcases hesc with ⟨rfl, rfl⟩ | ⟨rfl, rfl⟩ | ⟨rfl, rfl⟩ <;> rfl
        exact ih.cons (.inl hpiece)

/-- A text with all its escapes is one of its written forms. -/
theorem spells_escapeChars (text : List Char) : Spells (escapeChars text) text := by
  induction text with
  | nil => exact spells_nil
  | cons c text ih => exact ih.cons (.inl rfl)

/-- There is one spelling only in which no line feed stands as it is. -/
theorem Spells.eq_escapeChars {raw text : List Char} (h : Spells raw text)
    (hraw : '\n' ∉ raw) : raw = escapeChars text := by
  obtain ⟨pieces, rfl, hpieces⟩ := h
  induction hpieces with
  | nil => rfl
  | @cons piece c pieces text hpiece _ ih =>
      rw [List.flatten_cons, List.mem_append, not_or] at hraw
      rcases hpiece with rfl | ⟨-, rfl⟩
      · rw [List.flatten_cons, ih hraw.2]
        rfl
      · exact absurd List.mem_cons_self hraw.1

end Text

/-! ## Reading a string and counting -/

/-- What reading a string behind its opening quote comes to: the bytes that were
    taken, the line feeds among them, and the text or what is wrong. -/
@[ext]
structure StringReading where
  bytes : Nat
  newlines : Nat
  result : Except Fault String

/-- What a string amounts to in a text. -/
def Content.ofString : Except Fault String → Content
  | .ok text => .token (.string text)
  | .error f => .fault f

theorem Content.ofString_injective : Function.Injective ofString := by
  intro result result' h
  cases result with
  | ok text =>
      cases result' with
      | ok text' =>
          cases h
          rfl
      | error f => cases h
  | error f =>
      cases result' with
      | ok text => cases h
      | error f' =>
          cases h
          rfl

namespace StringReading

/-- Reads on behind some bytes, which stand for `decoded`, last character first. -/
def readFrom (bytes newlines : Nat) (decoded : List Char) : List Char → StringReading
  | [] => ⟨bytes, newlines, .error .unterminatedString⟩
  | '"' :: _ => ⟨bytes + 1, newlines, .ok (String.ofList decoded.reverse)⟩
  | '\\' :: [] => ⟨bytes + 1, newlines, .error .unterminatedString⟩
  | '\\' :: c :: cs =>
    match Text.unescapeChar? c with
    | some d => readFrom (bytes + 2) newlines (d :: decoded) cs
    | none =>
      ⟨bytes + 1 + c.utf8Size, if c = '\n' then newlines + 1 else newlines, .error .unknownEscape⟩
  | c :: cs =>
    readFrom (bytes + c.utf8Size) (if c = '\n' then newlines + 1 else newlines) (c :: decoded) cs

/-- Reads a string up to its closing quote. -/
def read (body : List Char) : StringReading :=
  readFrom 0 0 [] body

/-- A reading has taken these characters since its counts stood at `bytes` and
    `newlines`. -/
structure Counts (bytes newlines : Nat) (taken : List Char) (r : StringReading) : Prop where
  bytes : r.bytes = bytes + String.utf8Len taken
  newlines : r.newlines = newlines + taken.count '\n'

theorem newlines_add_count (c : Char) (newlines : Nat) (taken : List Char) :
    (if c = '\n' then newlines + 1 else newlines) + taken.count '\n'
      = newlines + (c :: taken).count '\n' := by
  rw [List.count_cons]
  by_cases hc : c = '\n'
  · simp only [hc, if_true, beq_self_eq_true]
    omega
  · simp only [hc, if_false, beq_iff_eq, Nat.add_zero]

/-- The characters of an escape are one byte each, and no line feeds. -/
theorem escape_bytes {c d : Char} (h : Text.unescapeChar? c = some d) :
    c.utf8Size = 1 ∧ c ≠ '\n' := by
  have hc := unescapeChar?_eq_some_iff.mp h
  simp only [List.mem_cons, List.not_mem_nil, or_false, Prod.mk.injEq] at hc
  rcases hc with ⟨rfl, -⟩ | ⟨rfl, -⟩ | ⟨rfl, -⟩ <;> decide

/-- **The reader is the scanner's.**  It comes to the same, and its counts are those
    of the characters that the scanner takes. -/
theorem exists_taken (width bytes newlines : Nat) (decoded cs : List Char) :
    ∃ taken rest, cs = taken ++ rest
      ∧ Piece.stringBody width decoded cs
        = ⟨width + taken.length, Content.ofString (readFrom bytes newlines decoded cs).result⟩
      ∧ Counts bytes newlines taken (readFrom bytes newlines decoded cs) := by
  fun_induction readFrom bytes newlines decoded cs generalizing width with
  | case1 bytes newlines decoded => exact ⟨[], [], rfl, rfl, rfl, rfl⟩
  | case2 bytes newlines decoded rest => exact ⟨['"'], rest, rfl, rfl, rfl, rfl⟩
  | case3 bytes newlines decoded => exact ⟨['\\'], [], rfl, rfl, rfl, rfl⟩
  | case4 bytes newlines decoded c cs d hd ih =>
      obtain ⟨hsize, hn⟩ := escape_bytes hd
      obtain ⟨taken, rest, rfl, hbody, hcounts⟩ := ih (width + 2)
      refine ⟨'\\' :: c :: taken, rest, rfl, ?_, ?_, ?_⟩
      · simp only [Piece.stringBody, hd, hbody, List.length_cons]
        congr 1
        omega
      · rw [hcounts.bytes, String.utf8Len_cons, String.utf8Len_cons, hsize]
        show _ = bytes + (String.utf8Len taken + 1 + 1)
        omega
      · rw [hcounts.newlines, List.count_cons_of_ne (by decide), List.count_cons_of_ne hn]
  | case5 bytes newlines decoded c cs hnone =>
      refine ⟨['\\', c], cs, rfl, ?_, ?_, ?_⟩
      · simp only [Piece.stringBody, hnone]
        rfl
      · show bytes + 1 + c.utf8Size = bytes + (0 + c.utf8Size + 1)
        omega
      · rw [List.count_cons_of_ne (by decide), ← newlines_add_count c newlines []]
        rfl
  | case6 bytes newlines decoded c cs hq hend hesc ih =>
      have hb : c ≠ '\\' := ne_backslash hend hesc
      obtain ⟨taken, rest, rfl, hbody, hcounts⟩ := ih (width + 1)
      refine ⟨c :: taken, rest, rfl, ?_, ?_, ?_⟩
      · rw [Token.stringBody_plain _ _ _ hb hq, hbody, List.length_cons]
        congr 1
        omega
      · rw [hcounts.bytes, String.utf8Len_cons]
        omega
      · rw [hcounts.newlines, newlines_add_count]

/-- What was read of a text is some of its characters, and the scanner comes to the
    same with them. -/
theorem exists_read (body : List Char) : ∃ taken rest, body = taken ++ rest
    ∧ Piece.stringBody 0 [] body = ⟨taken.length, Content.ofString (read body).result⟩
    ∧ (read body).bytes = String.utf8Len taken ∧ (read body).newlines = taken.count '\n' := by
  obtain ⟨taken, rest, htext, hbody, hcounts⟩ := exists_taken 0 0 0 [] body
  refine ⟨taken, rest, htext, ?_, ?_, ?_⟩
  · rw [hbody, Nat.zero_add, read]
  · rw [read, hcounts.bytes, Nat.zero_add]
  · rw [read, hcounts.newlines, Nat.zero_add]

/-- Every spelling of a text is read as the text, up to the closing quote. -/
theorem read_of_spells {raw text : List Char} (h : Text.Spells raw text) (rest : List Char) :
    read (raw ++ '"' :: rest)
      = ⟨String.utf8Len raw + 1, raw.count '\n', .ok (String.ofList text)⟩ := by
  obtain ⟨taken, behind, htext, hbody, hbytes, hnewlines⟩ := exists_read (raw ++ '"' :: rest)
  rw [(Text.spells_iff_quoted.mp h).stringBody 0 [] rest] at hbody
  obtain ⟨hwidth, hresult⟩ := Piece.mk.inj hbody
  -- the scanner takes the spelling and the quote, so these are what was counted
  have hsplit : (raw ++ ['"']) ++ rest = taken ++ behind := by
    rw [List.append_assoc, List.singleton_append, htext]
  have hlength : (raw ++ ['"']).length = taken.length := by
    rw [List.length_append, List.length_singleton]
    omega
  obtain rfl : raw ++ ['"'] = taken := (List.append_inj hsplit hlength).1
  refine StringReading.ext ?_ ?_ (Content.ofString_injective hresult.symm)
  · rw [hbytes, String.utf8Len_append]
    rfl
  · rw [hnewlines, List.count_append]
    rfl

/-- What is read as a text, up to the closing quote, is one of its spellings. -/
theorem spells_of_read {body : List Char} {text : String} (h : (read body).result = .ok text) :
    ∃ raw rest, body = raw ++ '"' :: rest ∧ Text.Spells raw text.toList := by
  obtain ⟨taken, behind, -, hbody, -, -⟩ := exists_read body
  rw [h] at hbody
  obtain ⟨raw, decoded, rest, hsplit, hquoted, -, hkind⟩ := quoted_of_stringBody hbody
  obtain rfl : text = String.ofList decoded := TokenKind.string.inj hkind
  rw [String.toList_ofList]
  exact ⟨raw, rest, hsplit, Text.spells_iff_quoted.mpr hquoted⟩

/-- A reading of a text accounts for what it takes of the text: it counts the bytes of
    these characters and the line feeds among them, and the scanner goes on behind them
    as many lines further, or reports what is wrong on the line to which they lead. -/
structure Accounts (body taken rest : List Char) (r : StringReading) : Prop where
  text : body = taken ++ rest
  bytes : r.bytes = String.utf8Len taken
  newlines : r.newlines = taken.count '\n'
  goesOn : ∀ (line : Nat) (done : List Token) (text : String), r.result = .ok text →
    Token.scanFrom line 0 done ('"' :: body)
      = Token.scanFrom (line + r.newlines) 0
          (⟨.string text, String.ofList ('"' :: taken), line + r.newlines⟩ :: done) rest
  reports : ∀ (line : Nat) (done : List Token) (f : Fault), r.result = .error f →
    Token.scanFrom line 0 done ('"' :: body)
      = .error (f.toError (String.ofList ('"' :: taken)) (line + r.newlines))

/-- Every reading accounts for some front of the text. -/
theorem exists_accounts (body : List Char) :
    ∃ taken rest, Accounts body taken rest (read body) := by
  obtain ⟨taken, rest, htext, hbody, hbytes, hnewlines⟩ := exists_read body
  have hfront : ∀ content, Content.ofString (read body).result = content →
      Piece.front '"' (taken ++ rest) = ⟨taken.length, content⟩ := by
    rintro content rfl
    rw [← htext]
    exact hbody
  have hcount : ('"' :: taken).count '\n' = taken.count '\n' :=
    List.count_cons_of_ne (by decide)
  have hquote : '"' :: body = '"' :: taken ++ rest := congrArg ('"' :: ·) htext
  refine ⟨taken, rest, htext, hbytes, hnewlines, ?_, ?_⟩
  · intro line done text hok
    rw [hquote, hnewlines, ← hcount]
    exact Token.scanFrom_token (hfront _ (by rw [hok, Content.ofString]))
  · intro line done f herror
    rw [hquote, hnewlines, ← hcount]
    exact Token.scanFrom_fault (hfront _ (by rw [herror, Content.ofString]))

end StringReading

/-- The written form of a text between quotes is one token. -/
theorem Token.scan_escape (s : String) :
    Token.scan ("\"" ++ Text.escape s ++ "\"")
      = .ok [⟨.string s, "\"" ++ Text.escape s ++ "\"", 1⟩, .endAt 1] := by
  let body := Text.escapeChars s.toList ++ ['"']
  have htext : "\"" ++ Text.escape s ++ "\"" = String.ofList ('"' :: body) := by
    rw [← String.toList_inj]
    simp [body, Text.escape]
  have hfront : Piece.front '"' (body ++ []) = ⟨body.length, .token (.string s)⟩ := by
    show Piece.stringBody 0 [] _ = _
    rw [List.append_nil, stringBody_escapeChars]
    simp [body]
  have hcount : ('"' :: body).count '\n' = 0 := by
    rw [List.count_eq_zero]
    simp [body, newline_not_mem_escapeChars]
  have hscan : scanFrom 1 0 [] ('"' :: body)
      = scanFrom 1 0 [⟨.string s, String.ofList ('"' :: body), 1⟩] [] := by
    have htoken := @scanFrom_token 1 [] '"' body [] (.string s) hfront
    rwa [List.append_nil, hcount] at htoken
  rw [htext, Token.scan, String.toList_ofList, hscan]
  rfl

/-- **Escaping and reading are inverse.**  The written form of a text, with a quote and
    anything behind it, is read as the text; its bytes and the quote are taken, and no
    line feed is counted.  So between quotes it is a single token on the first line.
    Conversely, what is read as a text is its written form, except that some of its line
    feeds may stand as they are; if none does, it is the written form.  However the
    reading ends, the line feeds that it counts are those among the characters whose
    bytes it takes, and it is by them that the scanner moves on the line. -/
theorem escaping_inverse_to_reading :
    (∀ (s : String) (rest : List Char),
      StringReading.read ((Text.escape s).toList ++ '"' :: rest)
        = ⟨(Text.escape s).utf8ByteSize + 1, 0, .ok s⟩) ∧
    (∀ s : String,
      Token.scan ("\"" ++ Text.escape s ++ "\"")
        = .ok [⟨.string s, "\"" ++ Text.escape s ++ "\"", 1⟩, .endAt 1]) ∧
    (∀ (body : List Char) (text : String),
      (StringReading.read body).result = .ok text ↔
        ∃ raw rest, body = raw ++ '"' :: rest
          ∧ (StringReading.read body).bytes = String.utf8Len raw + 1
          ∧ Text.Spells raw text.toList
          ∧ ('\n' ∉ raw → raw = (Text.escape text).toList)) ∧
    (∀ body : List Char, ∃ taken rest,
      StringReading.Accounts body taken rest (StringReading.read body)) := by
  have hescape : ∀ s : String, (Text.escape s).toList = Text.escapeChars s.toList :=
    fun s => String.toList_ofList
  refine ⟨?_, ?_, ?_, StringReading.exists_accounts⟩
  · intro s rest
    rw [hescape, StringReading.read_of_spells (Text.spells_escapeChars _), String.ofList_toList,
      List.count_eq_zero.mpr (Token.newline_not_mem_escapeChars _), Text.escape,
      String.utf8ByteSize_ofList]
  · exact Token.scan_escape
  · intro body text
    constructor
    · intro hok
      obtain ⟨raw, rest, rfl, hspells⟩ := StringReading.spells_of_read hok
      refine ⟨raw, rest, rfl, ?_, hspells, ?_⟩
      · rw [StringReading.read_of_spells hspells]
      · intro hraw
        rw [hescape]
        exact hspells.eq_escapeChars hraw
    · rintro ⟨raw, rest, rfl, -, hspells, -⟩
      rw [StringReading.read_of_spells hspells, String.ofList_toList]

/-- A string with a letter of two bytes, an escaped line feed and one that stands as it
    is; a string without the latter; and one with an escape that there is not. -/
theorem escaping_inverse_to_reading_line_feeds :
    let mixed := "é\\n\n\" .. x".toList
    let escaped := "é\\n\" .. x".toList
    let bad := "a\n\\q\"".toList
    StringReading.read mixed = ⟨6, 1, .ok "é\n\n"⟩
      ∧ (∃ raw rest, mixed = raw ++ '"' :: rest ∧ Text.Spells raw "é\n\n".toList)
      ∧ StringReading.read escaped = ⟨5, 0, .ok "é\n"⟩
      ∧ (∃ raw rest, escaped = raw ++ '"' :: rest ∧ '\n' ∉ raw
        ∧ raw = (Text.escape "é\n").toList)
      ∧ (StringReading.read bad).result = .error .unknownEscape
      ∧ ∃ taken, Token.scanFrom 1 0 [] ('"' :: bad)
        = .error (.unknownEscape (String.ofList ('"' :: taken)) 2) := by
  intro mixed escaped bad
  obtain ⟨-, -, hiff, hcounts⟩ := escaping_inverse_to_reading
  have hmixed : StringReading.read mixed = ⟨6, 1, .ok "é\n\n"⟩ := rfl
  have hescaped : StringReading.read escaped = ⟨5, 0, .ok "é\n"⟩ := rfl
  have hbad : StringReading.read bad = ⟨4, 1, .error .unknownEscape⟩ := rfl
  refine ⟨hmixed, ?_, hescaped, ?_, congrArg StringReading.result hbad, ?_⟩
  · obtain ⟨raw, rest, htext, -, hspells, -⟩ := (hiff mixed _).mp (congrArg (·.result) hmixed)
    exact ⟨raw, rest, htext, hspells⟩
  · obtain ⟨raw, rest, htext, -, -, honly⟩ := (hiff escaped _).mp (congrArg (·.result) hescaped)
    have hnone : '\n' ∉ escaped := by decide
    have hraw : '\n' ∉ raw := fun h => hnone (htext ▸ List.mem_append_left _ h)
    exact ⟨raw, rest, htext, hraw, honly hraw⟩
  · obtain ⟨taken, rest, haccounts⟩ := hcounts bad
    exact ⟨taken, haccounts.reports 1 [] .unknownEscape (congrArg (·.result) hbad)⟩

end Scriptlet
