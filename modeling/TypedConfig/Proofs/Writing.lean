import TypedConfig.Proofs.Escapes
import TypedConfig.Proofs.Numerals

/-!
# Written texts

A text can be written from tokens: each token in one of its source forms, with layout between any
two of them. The tokens of such a text are those that it has been written from, each where it has
been written. Layout keeps the forms apart, since none of them can be continued by a blank or by the
beginning of a comment, and a quoted text ends at the first delimiter that is neither doubled nor
behind a backslash. Decimal fractions and exponents are no source forms here: what they are read as
is rounded.
-/

namespace TypedConfig.Token

open Source

/-- A blank or a comment. A line comment ends with its line, and one that begins with a hash does
not begin with the retired directive. -/
inductive Gap : List Char → Prop
  | blank {c} : c ∈ [' ', '\t', '\r', '\n', Char.ofNat 12] → Gap [c]
  | slashes {line} : '\n' ∉ line → Gap ('/' :: '/' :: line ++ ['\n'])
  | hash {line} : '\n' ∉ line →
    ('#' :: line).takeWhile (!Text.isBlank ·) ≠ "#include".toList → Gap ('#' :: line ++ ['\n'])
  | block {text} : ¬ ['*', '/'] <:+: text → Gap ('/' :: '*' :: text ++ ['*', '/'])

/-- Any sequence of blanks and comments. -/
inductive Layout : List Char → Prop
  | nil : Layout []
  | append {gap cs} : Gap gap → Layout cs → Layout (gap ++ cs)

/-- A text as it is written between two delimiters: each backslash and each delimiter in it behind a
backslash, or the delimiter doubled. -/
inductive Quoted (q : Char) : List Char → List Char → Prop
  | nil : Quoted q [] []
  | backslash {cs written} : Quoted q cs written → Quoted q ('\\' :: cs) ('\\' :: '\\' :: written)
  | doubled {cs written} : Quoted q cs written → Quoted q (q :: cs) (q :: q :: written)
  | escaped {cs written} : Quoted q cs written → Quoted q (q :: cs) ('\\' :: q :: written)
  | plain {c cs written} : c ≠ '\\' → c ≠ q → Quoted q cs written →
    Quoted q (c :: cs) (c :: written)

/-- The words that are no keys. -/
def keywords : List (String × TokenKind) :=
  [("include", .include), ("true", .bool true), ("false", .bool false)]

/-- The tokens of one character. -/
def punctuationMarks : List (Char × TokenKind) :=
  [('=', .equals), ('~', .tilde), (';', .semicolon), (',', .comma), ('(', .openParen),
    (')', .closeParen), ('[', .openBracket), (']', .closeBracket), ('{', .openBrace),
    ('}', .closeBrace), ('^', .caret)]

/-- The source forms of a token. -/
inductive Spelling : TokenKind → List Char → Prop
  | key {name : String} : name ≠ "" → (∀ c ∈ name.toList, isKeyChar c = true) →
    name ∉ keywords.map Prod.fst → ¬ Numeral name.toList →
    Spelling (.key name) name.toList
  | keyword {word kind} : (word, kind) ∈ keywords → Spelling kind word.toList
  | punctuation {c kind} : (c, kind) ∈ punctuationMarks → Spelling kind [c]
  | int (n : Int32) : Spelling (.int n) (toString n.toInt).toList
  | long (n : Int64) : Spelling (.long n) ((toString n.toInt).toList ++ ['L'])
  | string {s : String} {q : Char} {written : List Char} : q = '"' ∨ q = '\'' →
    Quoted q s.toList written → Spelling (.string s) (q :: written ++ [q])

section Pieces

variable {c : Char} {cs piece rest : List Char}

/-- What follows a lexeme, if its size is that of the piece at the beginning of the text. -/
theorem afterLexeme_eq (hcs : c :: cs = piece ++ rest)
    (hsize : (lexeme c cs).size = piece.length) : afterLexeme c cs = rest := by
  obtain ⟨n, hn⟩ : ∃ n, (lexeme c cs).size = n + 1 :=
    ⟨_, (Nat.succ_pred_eq_of_pos (lexeme_size_pos c cs)).symm⟩
  have hdrop : (c :: cs).drop (n + 1) = afterLexeme c cs := by
    rw [afterLexeme, hn, List.drop_succ_cons, Nat.add_sub_cancel]
  rw [← hdrop, hcs, ← hn, hsize, List.drop_left]

/-- A lexeme ends behind the characters that it takes up. -/
theorem lexemeEnd_eq (o : Nat) (hcs : c :: cs = piece ++ rest)
    (hsize : (lexeme c cs).size = piece.length) : lexemeEnd o c cs = o + byteLength piece := by
  rw [lexemeEnd, hcs, hsize, List.take_left]

/-- A piece that is a lexeme without a token is dropped. -/
theorem scan_dropped (o : Nat) (hcs : c :: cs = piece ++ rest)
    (h : lexeme c cs = ⟨piece.length, none⟩) :
    scan o (c :: cs) = scan (o + byteLength piece) rest := by
  have hsize : (lexeme c cs).size = piece.length := by rw [h]
  rw [scan_layout o (by rw [h]), lexemeEnd_eq o hcs hsize, afterLexeme_eq hcs hsize]

/-- A piece that is a lexeme with a token is that token. -/
theorem scan_taken {kind : TokenKind} (o : Nat) (hcs : c :: cs = piece ++ rest)
    (h : lexeme c cs = ⟨piece.length, some kind⟩) (hclean : ∀ e, kind ≠ .error e) :
    scan o (c :: cs) = ⟨kind, Span.ofRange o (o + byteLength piece)⟩ ::
      scan (o + byteLength piece) rest := by
  have hsize : (lexeme c cs).size = piece.length := by rw [h]
  rw [scan_token o (by rw [h]) hclean, lexemeEnd_eq o hcs hsize, afterLexeme_eq hcs hsize]

end Pieces

section Layout

/-- A line ends at its line break. -/
theorem restOfLine_append {line : List Char} (hline : '\n' ∉ line) (cs : List Char) :
    restOfLine (line ++ '\n' :: cs) = line := by
  refine takeWhile_append_of_head (fun c hc => ?_) (by simp)
  rw [bne_iff_ne]
  rintro rfl
  exact hline hc

/-- The first word of a text that does not begin with a blank. -/
theorem words_head? {c : Char} (hc : Text.isBlank c = false) (cs : List Char) :
    (Text.words (c :: cs)).head? = some ((c :: cs).takeWhile (!Text.isBlank ·)) := by
  have hsplit (cs : List Char) : ∃ pieces,
      Text.splitOn Text.isBlank cs = cs.takeWhile (!Text.isBlank ·) :: pieces := by
    induction cs with
    | nil => exact ⟨[], rfl⟩
    | cons d cs ih =>
      obtain ⟨pieces, hpieces⟩ := ih
      cases hd : Text.isBlank d with
      | true => exact ⟨_, by simp [Text.splitOn, hd]; rfl⟩
      | false => exact ⟨pieces, by simp [Text.splitOn, hd, hpieces, Text.consHead]⟩
  obtain ⟨pieces, hpieces⟩ := hsplit (c :: cs)
  rw [Text.words, hpieces, List.takeWhile_cons_of_pos (by simp [hc])]
  rfl

/-- A block comment ends at the first end that is written. -/
theorem commentSize_of_not_infix {text : List Char} (h : ¬ ['*', '/'] <:+: text) (cs : List Char) :
    commentSize (text ++ '*' :: '/' :: cs) = some (text.length + 2) := by
  induction text with
  | nil => rfl
  | cons c text ih =>
    have hrest := ih fun hinfix => h (List.infix_cons hinfix)
    cases text with
    | nil =>
      have hopen : ¬ (c = '*' ∧ '*' = '/') := by simp
      simp only [List.nil_append, List.cons_append] at hrest ⊢
      rw [commentSize, if_neg hopen, hrest]
      rfl
    | cons d text =>
      have hopen : ¬ (c = '*' ∧ d = '/') := by
        rintro ⟨rfl, rfl⟩
        exact h (List.prefix_append ['*', '/'] text).isInfix
      simp only [List.cons_append] at hrest ⊢
      rw [commentSize, if_neg hopen, hrest]
      rfl

/-- A line comment is dropped with the end of its line. -/
theorem scan_line {c : Char} {line rest : List Char} (o : Nat)
    (h : lexeme c (line ++ '\n' :: rest) = ⟨line.length + 1, none⟩) :
    scan o (c :: line ++ ['\n'] ++ rest) = scan (o + byteLength (c :: line ++ ['\n'])) rest := by
  have hcs : c :: (line ++ '\n' :: rest) = (c :: line) ++ '\n' :: rest := rfl
  rw [List.append_assoc, byteLength_append, ← Nat.add_assoc]
  change scan o (c :: (line ++ '\n' :: rest)) = _
  rw [scan_dropped o hcs h, scan_space (by decide)]
  rfl

/-- A blank or a comment is dropped. -/
theorem Gap.scan_append {gap : List Char} (h : Gap gap) (o : Nat) (rest : List Char) :
    scan o (gap ++ rest) = scan (o + byteLength gap) rest := by
  cases h with
  | @blank c hc =>
    have hspace : isSpace c = true := by simpa [isSpace, or_assoc] using hc
    exact scan_space hspace o rest
  | @slashes line hline =>
    refine scan_line o ?_
    change slashLexeme ('/' :: (line ++ '\n' :: rest)) = _
    rw [slashLexeme, restOfLine_append hline]
    rfl
  | @hash line hline hword =>
    refine scan_line o ?_
    change hashLexeme ('#' :: restOfLine (line ++ '\n' :: rest)) = _
    rw [restOfLine_append hline, hashLexeme, words_head? (by decide), if_neg (by simpa using hword)]
    rfl
  | @block text htext =>
    have hcs : '/' :: '*' :: (text ++ '*' :: '/' :: rest) =
        ('/' :: '*' :: text ++ ['*', '/']) ++ rest := by simp
    rw [← hcs]
    refine scan_dropped o hcs ?_
    change slashLexeme ('*' :: (text ++ '*' :: '/' :: rest)) = _
    rw [slashLexeme, commentSize_of_not_infix htext]
    simp

/-- Layout is dropped. -/
theorem Layout.scan_append {cs : List Char} (h : Layout cs) (o : Nat) (rest : List Char) :
    scan o (cs ++ rest) = scan (o + byteLength cs) rest := by
  induction h generalizing o with
  | nil => rfl
  | @append gap cs hgap _ ih =>
    rw [List.append_assoc, hgap.scan_append, ih, byteLength_append, Nat.add_assoc]

/-- What follows a token is the end of the text or the beginning of layout. -/
def Stops (rest : List Char) : Prop :=
  ∀ c ∈ rest.head?, isSpace c = true ∨ c = '/' ∨ c = '#'

/-- A gap stops a word. -/
theorem Gap.stops {gap : List Char} (h : Gap gap) (rest : List Char) : Stops (gap ++ rest) := by
  intro c hc
  cases h with
  | blank hblank =>
    obtain rfl := Option.some.inj hc
    exact .inl (by simpa [isSpace, or_assoc] using hblank)
  | slashes _ => exact .inr (.inl (Option.some.inj hc).symm)
  | hash _ _ => exact .inr (.inr (Option.some.inj hc).symm)
  | block _ => exact .inr (.inl (Option.some.inj hc).symm)

/-- A token ends where layout begins. -/
theorem Layout.stops {cs : List Char} (h : Layout cs) {rest : List Char}
    (hrest : cs = [] → Stops rest) : Stops (cs ++ rest) := by
  cases h with
  | nil => exact hrest rfl
  | append hgap _ =>
    rw [List.append_assoc]
    exact hgap.stops _

end Layout

section Words

/-- A character that a token ends at is no character of a key. -/
theorem isKeyChar_eq_false {c : Char}
    (h : isSpace c = true ∨ c ∈ ['/', '#', '"', '\'', '+']) : isKeyChar c = false := by
  rcases h with h | h
  · simp only [isSpace, Bool.or_eq_true, beq_iff_eq, or_assoc] at h
    rcases h with rfl | rfl | rfl | rfl | rfl <;> decide
  · simp only [List.mem_cons, List.not_mem_nil, or_false] at h
    rcases h with rfl | rfl | rfl | rfl | rfl <;> decide

/-- What stops a word is no key character and no plus sign. -/
theorem Stops.head? {rest : List Char} (h : Stops rest) :
    rest.head?.any isKeyChar = false ∧ rest.head? ≠ some '+' := by
  cases rest with
  | nil => exact ⟨rfl, nofun⟩
  | cons c rest =>
    have hc := h c rfl
    refine ⟨isKeyChar_eq_false ?_, ?_⟩
    · rcases hc with hc | rfl | rfl
      · exact .inl hc
      · exact .inr (by simp)
      · exact .inr (by simp)
    · rintro heq
      obtain rfl : c = '+' := Option.some.inj heq
      revert hc
      decide

/-- A name that is no keyword and no numeral is a key. -/
theorem classify_name {name : String} (hkeyword : name ∉ keywords.map Prod.fst)
    (hnumeral : ¬ Numeral name.toList) : classify name.toList = .key name := by
  have hno {keyword : String} (hmem : keyword ∈ keywords.map Prod.fst) :
      name.toList ≠ keyword.toList := by
    intro heq
    rw [← String.toList_injective heq] at hmem
    exact hkeyword hmem
  rw [classify_key (hno (by simp [keywords])) (hno (by simp [keywords]))
    (hno (by simp [keywords])) hnumeral, String.ofList_toList]

/-- A word that no plus sign follows is classified by itself. -/
theorem wordToken_of_head (word : List Char) {rest : List Char} (h : rest.head? ≠ some '+') :
    wordToken word rest = (word.length, classify word) := by
  unfold wordToken
  split
  · exact absurd rfl h
  · rfl

/-- A word is one lexeme in front of what can continue neither a word nor a number. -/
theorem lexeme_word {c : Char} {cs rest : List Char} (hword : ∀ d ∈ c :: cs, isKeyChar d = true)
    (hhead : rest.head?.any isKeyChar = false) (hplus : rest.head? ≠ some '+') :
    lexeme c (cs ++ rest) = ⟨(c :: cs).length, some (classify (c :: cs))⟩ := by
  have hc : isKeyChar c = true := hword c (.head _)
  have hno (hspecial : isSpace c = true ∨ c ∈ ['/', '#', '"', '\'', '+']) : False := by
    rw [isKeyChar_eq_false hspecial] at hc
    cases hc
  have hcs : ∀ d ∈ cs, isKeyChar d = true := fun d hd => hword d (.tail _ hd)
  rw [lexeme, if_neg fun h => hno (.inl h), if_neg fun h => hno (.inr (by simp [h])),
    if_neg fun h => hno (.inr (by simp [h])),
    if_neg fun h => hno (.inr (by rcases h with rfl | rfl <;> simp)), if_pos hc, wordLexeme,
    takeWhile_append_of_head hcs hhead, dropWhile_append_of_head hcs hhead,
    wordToken_of_head _ hplus]

/-- A digit may stand in a key. -/
theorem isKeyChar_of_isDigit {c : Char} (h : isDigit c = true) : isKeyChar c = true := by
  simp [isKeyChar, h]

/-- The characters of an integer may stand in a key. -/
theorem isKeyChar_of_mem_toString {n : Int} {c : Char} (h : c ∈ (toString n).toList) :
    isKeyChar c = true := by
  rw [NumberText.toList_toString, List.mem_append] at h
  rcases h with h | h
  · split at h
    · obtain rfl := List.mem_singleton.mp h
      decide
    · cases h
  · exact isKeyChar_of_isDigit ((NumberText.isDigits_toDigits _).2 c h)

end Words

section Quoted

variable {q : Char} {cs written : List Char}

/-- What is written between two delimiters may stand there. -/
theorem Quoted.admitted (h : Quoted q cs written) : Admitted q written := by
  induction h with
  | nil => exact .nil
  | backslash _ ih | escaped _ ih => exact .escaped ih
  | doubled _ ih => exact .doubled ih
  | plain hslash hq _ ih => exact .plain hslash hq ih

/-- A quoted text stands for the text that it has been written from. -/
theorem Quoted.unescaped (h : Quoted q cs written) (hq : (q, q) ∈ escapeLetters) :
    Unescaped Escape q written cs := by
  have hbackslash : ('\\', '\\') ∈ escapeLetters := by decide
  induction h with
  | nil => exact .nil
  | backslash _ ih => exact .escape (.letter hbackslash) ih
  | doubled _ ih => exact .doubled ih
  | escaped _ ih => exact .escape (.letter hq) ih
  | plain hslash hne _ ih => exact .plain hslash hne ih

/-- Every text can be written between two delimiters. -/
theorem Quoted.exists_written (q : Char) (cs : List Char) : ∃ written, Quoted q cs written := by
  induction cs with
  | nil => exact ⟨[], .nil⟩
  | cons c cs ih =>
    obtain ⟨written, hwritten⟩ := ih
    by_cases hslash : c = '\\'
    · rw [hslash]
      exact ⟨_, .backslash hwritten⟩
    by_cases hq : c = q
    · rw [hq]
      exact ⟨_, .doubled hwritten⟩
    · exact ⟨_, .plain hslash hq hwritten⟩

/-- A quoted text in front of what is no delimiter is one lexeme. -/
theorem lexeme_quoted {s : String} (hq : q = '"' ∨ q = '\'') (h : Quoted q s.toList written)
    {rest : List Char} (hrest : rest.head? ≠ some q) :
    lexeme q (written ++ q :: rest) = ⟨written.length + 2, some (.string s)⟩ := by
  have hletter : q ≠ '\\' ∧ (q, q) ∈ escapeLetters := by rcases hq with rfl | rfl <;> decide
  have hsize := h.admitted.quotedSize_eq hletter.1 hrest
  have htaken : Unescaped TakenEscape q written s.toList :=
    (h.unescaped hletter.2).mono fun _ _ => .inl
  have hcontent : unescape q written = .ok s.toList := htaken.unescape_eq hletter.1
  rw [lexeme_delimiter hq, quotedLexeme, hsize]
  simp only [Nat.add_sub_cancel, List.take_left, quotedToken, hcontent, String.ofList_toList]

end Quoted

section Spelling

/-- Each source form of a token is one lexeme in front of layout. -/
theorem Spelling.lexeme_eq {kind : TokenKind} {form : List Char} (h : Spelling kind form)
    {rest : List Char} (hrest : Stops rest) :
    ∃ c cs, c :: cs = form ++ rest ∧ lexeme c cs = ⟨form.length, some kind⟩ := by
  have hword (word : List Char) (hne : word ≠ []) (hkey : ∀ d ∈ word, isKeyChar d = true) :
      ∃ c cs, c :: cs = word ++ rest ∧ lexeme c cs = ⟨word.length, some (classify word)⟩ := by
    obtain ⟨c, cs, rfl⟩ := List.exists_cons_of_ne_nil hne
    exact ⟨c, cs ++ rest, rfl, lexeme_word hkey hrest.head?.1 hrest.head?.2⟩
  have hdecimal (n : Int) : (toString n).toList ≠ [] := by
    rw [NumberText.toList_toString]
    exact List.append_ne_nil_of_right_ne_nil _ (NumberText.isDigits_toDigits _).1
  cases h with
  | @key name hname hkey hkeyword hnumeral =>
    have hform := hword name.toList (by simpa using hname) hkey
    rwa [classify_name hkeyword hnumeral] at hform
  | keyword hmem =>
    simp only [keywords, List.mem_cons, Prod.mk.injEq, List.not_mem_nil, or_false] at hmem
    rcases hmem with ⟨rfl, rfl⟩ | ⟨rfl, rfl⟩ | ⟨rfl, rfl⟩ <;>
      exact hword _ (by decide) (List.all_eq_true.mp (by decide))
  | punctuation hmem =>
    simp only [punctuationMarks, List.mem_cons, Prod.mk.injEq, List.not_mem_nil, or_false] at hmem
    rcases hmem with ⟨rfl, rfl⟩ | ⟨rfl, rfl⟩ | ⟨rfl, rfl⟩ | ⟨rfl, rfl⟩ | ⟨rfl, rfl⟩ | ⟨rfl, rfl⟩ |
      ⟨rfl, rfl⟩ | ⟨rfl, rfl⟩ | ⟨rfl, rfl⟩ | ⟨rfl, rfl⟩ | ⟨rfl, rfl⟩ <;>
      exact ⟨_, rest, rfl, rfl⟩
  | int n =>
    have hform := hword _ (hdecimal n.toInt) fun d hd => isKeyChar_of_mem_toString hd
    rwa [NumberText.classify_int] at hform
  | long n =>
    have hform := hword ((toString n.toInt).toList ++ ['L']) (by simp) fun d hd => by
      rcases List.mem_append.mp hd with hd | hd
      · exact isKeyChar_of_mem_toString hd
      · obtain rfl := List.mem_singleton.mp hd
        decide
    rwa [NumberText.classify_long] at hform
  | @string s q written hq hquoted =>
    have hhead : rest.head? ≠ some q := by
      intro hhead
      have hstop := hrest q hhead
      rcases hq with rfl | rfl <;> revert hstop <;> decide
    refine ⟨q, written ++ q :: rest, by simp, ?_⟩
    rw [lexeme_quoted hq hquoted hhead]
    simp

/-- What has a spelling is no error. -/
theorem Spelling.ne_error {kind : TokenKind} {form : List Char} (h : Spelling kind form)
    (e : LexError) : kind ≠ .error e := by
  rintro rfl
  cases h with
  | keyword hmem => simp [keywords] at hmem
  | punctuation hmem => simp [punctuationMarks] at hmem

/-- A source form in front of layout is its token. -/
theorem Spelling.scan_append {kind : TokenKind} {form : List Char} (h : Spelling kind form)
    (o : Nat) {rest : List Char} (hrest : Stops rest) :
    scan o (form ++ rest) = ⟨kind, Span.ofRange o (o + byteLength form)⟩ ::
      scan (o + byteLength form) rest := by
  obtain ⟨c, cs, hcs, hlexeme⟩ := h.lexeme_eq hrest
  rw [← hcs]
  exact scan_taken o hcs hlexeme h.ne_error

end Spelling

/-- A token with one of its source forms and the layout in front of it. -/
structure Written where
  layout : List Char
  kind : TokenKind
  form : List Char
  isLayout : Layout layout
  isSpelling : Spelling kind form

/-- The text of what has been written one behind the other, with layout at the end. -/
def writtenText (ws : List Written) (last : List Char) : List Char :=
  ws.flatMap (fun w => w.layout ++ w.form) ++ last

/-- What has been written at an offset, each token with the bytes of its source form, and the end of
the text. -/
def writtenTokens (o : Nat) (last : List Char) : List Written → List Token
  | [] => [⟨.endOfInput, Span.point (o + byteLength last)⟩]
  | w :: ws =>
    let start := o + byteLength w.layout
    let stop := start + byteLength w.form
    ⟨w.kind, ⟨start, stop⟩⟩ :: writtenTokens stop last ws

/-- A token with its offsets kept within the largest one. -/
def capped (t : Token) : Token := ⟨t.kind, Span.ofRange t.span.start t.span.stop⟩

section Written

variable {ws : List Written} {last : List Char}

/-- Layout begins wherever a token ends. -/
theorem writtenText_stops (hgaps : ∀ w ∈ ws, w.layout ≠ []) (hlast : Layout last) :
    Stops (writtenText ws last) := by
  cases ws with
  | nil =>
    have hstops : Stops (last ++ []) := hlast.stops fun _ => nofun
    rwa [List.append_nil] at hstops
  | cons w ws =>
    rw [writtenText, List.flatMap_cons, List.append_assoc, List.append_assoc]
    exact w.isLayout.stops fun hnil => absurd hnil (hgaps w (.head _))

/-- A written text is cut into the tokens that it has been written from. -/
theorem scan_writtenText (o : Nat) (hgaps : ∀ w ∈ ws.tail, w.layout ≠ []) (hlast : Layout last) :
    scan o (writtenText ws last) = (writtenTokens o last ws).map capped := by
  induction ws generalizing o with
  | nil =>
    have hscan := hlast.scan_append o []
    rw [List.append_nil, scan] at hscan
    exact hscan
  | cons w ws ih =>
    have hstops : Stops (writtenText ws last) := writtenText_stops hgaps hlast
    have hrest := ih (o + byteLength w.layout + byteLength w.form)
      fun v hv => hgaps v (List.mem_of_mem_tail hv)
    have htext : writtenText (w :: ws) last = w.layout ++ (w.form ++ writtenText ws last) := by
      simp [writtenText]
    rw [htext, w.isLayout.scan_append, w.isSpelling.scan_append _ hstops, hrest]
    rfl

/-- No offset is too large in a text that is small enough. -/
theorem map_capped_writtenTokens (o : Nat)
    (hsmall : o + byteLength (writtenText ws last) ≤ maxOffset) :
    (writtenTokens o last ws).map capped = writtenTokens o last ws := by
  induction ws generalizing o with
  | nil =>
    have hend : min (o + byteLength last) maxOffset = o + byteLength last := Nat.min_eq_left hsmall
    simp [writtenTokens, capped, Span.ofRange, Span.point, hend]
  | cons w ws ih =>
    have hlength : byteLength (writtenText (w :: ws) last) =
        byteLength w.layout + byteLength w.form + byteLength (writtenText ws last) := by
      simp [writtenText, byteLength_append, Nat.add_assoc]
    rw [hlength] at hsmall
    have hspan : Span.ofRange (o + byteLength w.layout)
        (o + byteLength w.layout + byteLength w.form) =
          ⟨o + byteLength w.layout, o + byteLength w.layout + byteLength w.form⟩ := by
      simp only [Span.ofRange, Span.mk.injEq]
      omega
    rw [writtenTokens, List.map_cons, capped, ih _ (by omega), hspan]

end Written

end TypedConfig.Token

namespace TypedConfig

open Token Source

/-- Cutting a text into tokens undoes writing it, in any layout: the tokens are those that the text
has been written from, and the end. Their spans are the bytes of their source forms, as far as spans
can hold their offsets. -/
theorem lex_writtenText (ws : List Written) {last : List Char}
    (hgaps : ∀ w ∈ ws.tail, w.layout ≠ []) (hlast : Layout last) :
    lex (String.ofList (writtenText ws last)) = (writtenTokens 0 last ws).map capped ∧
      (byteLength (writtenText ws last) ≤ maxOffset →
        lex (String.ofList (writtenText ws last)) = writtenTokens 0 last ws) := by
  have hlex : lex (String.ofList (writtenText ws last)) =
      (writtenTokens 0 last ws).map capped := by
    rw [lex, String.toList_ofList, scan_writtenText 0 hgaps hlast]
  refine ⟨hlex, fun hsmall => ?_⟩
  rw [hlex, map_capped_writtenTokens 0 (by rwa [Nat.zero_add])]

/-- A key that is nearly a number, a text with a backslash and a doubled delimiter behind a comment
that ends with an asterisk, and a negative long integer. -/
def writtenSample : List Written :=
  have hkey : Spelling (.key "-.5e") "-.5e".toList :=
    .key (by decide) (List.all_eq_true.mp (by decide)) (by decide)
      (by rw [← NumberText.read_isSome_iff]; decide)
  have hquoted : Quoted '"' ['\\', '"'] ['\\', '\\', '"', '"'] := .backslash (.doubled .nil)
  have hstring : Spelling (.string "\\\"") ('"' :: ['\\', '\\', '"', '"'] ++ ['"']) :=
    .string (.inl rfl) hquoted
  have hspace : Gap [' '] := .blank (by decide)
  have hcomment : Gap ('/' :: '*' :: ['*'] ++ ['*', '/']) := .block (by decide)
  [⟨[], _, _, .nil, hkey⟩, ⟨_, _, _, .append hspace (.append hcomment .nil), hstring⟩,
    ⟨_, _, _, .append hspace .nil, .long (-7)⟩]

/-- Behind the sample stands a comment whose first word only begins like the retired directive. -/
theorem lex_writtenSample :
    lex "-.5e /***/\"\\\\\"\"\" -7L#include-d\n" =
      [⟨.key "-.5e", ⟨0, 4⟩⟩, ⟨.string "\\\"", ⟨10, 16⟩⟩, ⟨.long (-7), ⟨17, 20⟩⟩,
        ⟨.endOfInput, ⟨31, 31⟩⟩] := by
  have hcomment : Gap ('#' :: "include-d".toList ++ ['\n']) := .hash (by decide) (by decide)
  have hlex := (lex_writtenText writtenSample (by decide) (.append hcomment .nil)).2 (by decide)
  have htext : String.ofList
      (writtenText writtenSample ('#' :: "include-d".toList ++ ['\n'] ++ [])) =
        "-.5e /***/\"\\\\\"\"\" -7L#include-d\n" := by decide
  rw [htext] at hlex
  rw [hlex]
  decide

end TypedConfig
