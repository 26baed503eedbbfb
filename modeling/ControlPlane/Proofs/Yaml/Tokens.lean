import ControlPlane.Proofs.Yaml.Scanning

/-! # Tokens

One lemma for each token that an outline is written with: keys with their colons, words, brackets
and braces, commas and the marks between documents.  Each says where the scanner stands when the
token has come up. -/

namespace ControlPlane.Yaml.Scanner

variable {s : Scanner} {rest : List Char} {column depth : ℕ} {indent : ℤ} {outer : List ℤ}

/-! ### Words -/

theorem begins_of_plainWord {word : String} (hword : IsWord word) (hplain : PlainWord word)
    (rest : List Char) : Begins (word.toList ++ rest) := by
  obtain ⟨-, ⟨c, more, heq, hfirst⟩, -⟩ := hplain
  have hc := isWordChar_iff.1 (hword c (by rw [heq]; exact List.mem_cons_self))
  have hhash : c ≠ '#' := by
    rintro rfl
    revert hfirst
    simp [isFirstIndicator]
  rw [heq]
  exact begins_cons ⟨hc.1.1, hc.1.2, hhash⟩ _

/-- A scalar without quotes, in terms of how it is read after it was noted that a key may begin. -/
theorem plain_eq {u : Scanner} {word : String} {isBroken : Bool} {cursor : Cursor}
    (hnote : s.noteKey = .ok u)
    (hread : Plain.read ⟨u.inFlow, (u.indent + 1).toNat⟩ u.place u.place [] .none u.cursor.rest
      = .ok (word.toList, isBroken, cursor)) :
    s.plain = .ok { u.emit (.scalar word true) u.place with
      cursor := cursor, allowsKey := isBroken } := by
  rw [plain, hnote]
  show (Plain.read ⟨u.inFlow, (u.indent + 1).toNat⟩ u.place u.place [] .none u.cursor.rest
    >>= _) = _
  rw [hread]
  show Except.ok _ = _
  rw [String.ofList_toList]

theorem quoted_width (word : String) (column : ℕ) :
    column + 1 + word.toList.length + 1 = column + (word.length + 2) := by
  rw [String.length_toList]
  omega

theorem singleQuoted_eq {u : Scanner} {word : String} (hnote : s.noteKey = .ok u)
    (hrest : u.cursor.rest = '\'' :: (word.toList ++ '\'' :: rest)) (hword : IsWord word)
    (hnext : rest.head? ≠ some '\'') :
    s.quoted true = .ok { u.emit (.scalar word false) u.place with
      cursor := ⟨rest, ⟨u.place.line, u.place.column + (word.length + 2)⟩⟩
      allowsKey := false } := by
  have hread : SingleQuoted.read u.place u.cursor.skip.place [] .none u.cursor.skip.rest
      = .ok (word.toList, ⟨rest, ⟨u.place.line, u.place.column + (word.length + 2)⟩⟩) := by
    rw [skip_of_rest hrest (by decide), SingleQuoted.read_word (Nat.succ_ne_zero _) hword hnext,
      quoted_width]
    rfl
  rw [quoted, hnote]
  show (SingleQuoted.read u.place u.cursor.skip.place [] .none u.cursor.skip.rest >>= _) = _
  rw [hread]
  show Except.ok _ = _
  rw [String.ofList_toList]

theorem doubleQuoted_eq {u : Scanner} {word : String} (hnote : s.noteKey = .ok u)
    (hrest : u.cursor.rest = '"' :: (word.toList ++ '"' :: rest)) (hword : IsWord word) :
    s.quoted false = .ok { u.emit (.scalar word false) u.place with
      cursor := ⟨rest, ⟨u.place.line, u.place.column + (word.length + 2)⟩⟩
      allowsKey := false } := by
  have hread : DoubleQuoted.read u.place u.cursor.skip.place [] (.text .none) u.cursor.skip.rest
      = .ok (word.toList, ⟨rest, ⟨u.place.line, u.place.column + (word.length + 2)⟩⟩) := by
    rw [skip_of_rest hrest (by decide), DoubleQuoted.read_word (Nat.succ_ne_zero _) hword,
      quoted_width]
    rfl
  rw [quoted, hnote]
  show (DoubleQuoted.read u.place u.cursor.skip.place [] (.text .none) u.cursor.skip.rest
    >>= _) = _
  rw [hread]
  show Except.ok _ = _
  rw [String.ofList_toList]

/-! ### Keys -/

/-- The scanner after a word of some width that is a key if a colon follows. -/
def afterKey (s : Scanner) (rest : List Char) (width : ℕ) (kind : TokenKind) : Scanner :=
  { s with
    cursor := ⟨rest, ⟨s.place.line, s.place.column + width⟩⟩
    tokens := ⟨kind, s.place⟩ :: s.tokens
    count := s.count + 1
    keys := some ⟨!s.inFlow && s.indent == s.place.column, s.count, s.place⟩ :: s.keys.drop 1
    allowsKey := false }

/-- The scanner after the colon of that key; it may have opened a block. -/
def afterColon (s : Scanner) (rest : List Char) (width : ℕ) (kind : TokenKind) (opens : Bool) :
    Scanner :=
  { s with
    cursor := ⟨rest, ⟨s.place.line, s.place.column + width + 1⟩⟩
    tokens := ⟨.value, ⟨s.place.line, s.place.column + width⟩⟩ :: ⟨kind, s.place⟩
      :: ⟨.key, s.place⟩
      :: (if opens then ⟨.blockMapping, s.place⟩ :: s.tokens else s.tokens)
    count := s.count + (if opens then 4 else 3)
    indent := if opens then s.place.column else s.indent
    outer := if opens then s.indent :: s.outer else s.outer
    keys := none :: s.keys.drop 1
    allowsKey := false }

theorem noteKey_of_allowed {text : List Char}
    (hs : s.IsAt text column depth indent outer true) :
    s.noteKey = .ok { s with
      keys := some ⟨!s.inFlow && s.indent == s.place.column, s.count, s.place⟩
        :: s.keys.drop 1 } := by
  unfold noteKey
  rw [if_pos hs.allowsKey_eq, dropKey_of_keys hs.keys_eq]
  rfl

theorem noteKey_of_not_allowed {text : List Char}
    (hs : s.IsAt text column depth indent outer false) : s.noteKey = .ok s := by
  unfold noteKey
  rw [hs.allowsKey_eq]
  rfl

/-- A colon makes the word before it a key. -/
theorem value_afterKey {width : ℕ} {kind : TokenKind} :
    (s.afterKey (':' :: rest) width kind).value
      = .ok (s.afterColon rest width kind (!s.inFlow && s.indent < s.place.column)) := by
  unfold value afterKey
  dsimp only
  have hone : s.count + 1 - s.count = 1 := by omega
  have htwo : s.count + 1 + 1 - s.count = 2 := by omega
  by_cases hopens : (!s.inFlow && decide (s.indent < s.place.column)) = true
  · rw [hopens]
    simp only [emitAt, hone, openBlock, inFlow]
    unfold inFlow at hopens
    rw [if_pos hopens]
    simp only [htwo, mark, emit]
    rfl
  · rw [Bool.not_eq_true] at hopens
    rw [hopens]
    simp only [emitAt, hone, openBlock, inFlow]
    unfold inFlow at hopens
    rw [hopens, if_neg (by decide)]
    simp only [mark, emit]
    rfl

theorem isStale_of_line {k : PendingKey} (h : k.place.line < s.place.line) :
    s.isStale k = true := by
  unfold isStale
  simp [h]

theorem not_isStale {k : PendingKey} (hline : s.place.line ≤ k.place.line)
    (hcolumn : s.place.column ≤ k.place.column + maxKeyLength) : s.isStale k = false := by
  unfold isStale
  simp [hline, hcolumn]

theorem dropStale_afterKey {width : ℕ} {kind : TokenKind}
    (hkeys : s.keys = List.replicate (depth + 1) none) (hwidth : width ≤ maxKeyLength) :
    (s.afterKey rest width kind).dropStale = .ok (s.afterKey rest width kind) := by
  apply dropStale_eq_self
  intro k hk
  have hkeys' : (s.afterKey rest width kind).keys
      = some ⟨!s.inFlow && s.indent == s.place.column, s.count, s.place⟩
        :: List.replicate depth none := by
    show _ :: s.keys.drop 1 = _
    rw [hkeys]
    rfl
  rw [hkeys'] at hk
  rcases List.mem_cons.1 hk with heq | hmem
  · cases heq
    exact not_isStale le_rfl (Nat.add_le_add_left hwidth _)
  · cases (List.mem_replicate.1 hmem).2

/-- A word, and the colon after it. -/
theorem IsAt.leadsTo_afterColon {text : List Char} {width : ℕ} {kind : TokenKind}
    (hs : s.IsAt text column depth indent outer true) (hwidth : width ≤ maxKeyLength)
    (hgap : depth ≠ 0 ∨ isGap rest.head? = true) (hindent : depth ≠ 0 ∨ indent ≤ column)
    (hword : s.LeadsTo (s.afterKey (':' :: rest) width kind)) :
    s.LeadsTo (s.afterColon rest width kind (!s.inFlow && s.indent < s.place.column)) := by
  let u := s.afterKey (':' :: rest) width kind
  have hdrop : u.dropStale = .ok u := dropStale_afterKey hs.keys_eq hwidth
  have hbegins : Begins (':' :: rest) := begins_cons (by decide) rest
  have hcolumn : (u.place.column : ℤ) = column + width := by
    have : s.place.column = column := hs.column_eq
    show ((s.place.column + width : ℕ) : ℤ) = _
    rw [this]
    omega
  have hclose : u.closeBlocks u.place.column = u := by
    apply closeBlocks_eq_self
    have hdepth : u.depth = depth := hs.depth_eq
    have hindent' : u.indent = indent := hs.indent_eq
    rw [hdepth, hindent', hcolumn]
    omega
  have hstep : u.step = u.value := by
    have hgap' : skipGap u.inFlow u.allowsKey false u.place u.cursor.rest
        = (u.allowsKey, u.cursor) := skipGap_of_begins hbegins
    have hcolon : u.token = u.value := token_colon rfl (by
      have hdepth : u.depth = depth := hs.depth_eq
      rwa [hdepth])
    unfold step
    rw [hgap']
    show (do let s ← u.dropStale; (s.closeBlocks s.place.column).token) = _
    rw [hdrop]
    show (u.closeBlocks u.place.column).token = _
    rw [hclose, hcolon]
  refine hword.trans (leadsTo_of_step hdrop hs.isDone_eq ?_ (Nat.lt_succ_self _))
  rw [hstep, value_afterKey]

/-- The first key of a block opens it. -/
theorem IsAt.scans_firstKey {text : List Char} {width : ℕ} {kind : TokenKind}
    (hs : s.IsAt text column 0 indent outer true) (hwidth : width ≤ maxKeyLength)
    (hgap : isGap rest.head? = true) (hindent : indent < column)
    (hword : s.LeadsTo (s.afterKey (':' :: rest) width kind)) :
    ∃ t : Scanner, t.IsAt rest (column + width + 1) 0 column (indent :: outer) false ∧
      Scans [.blockMapping, .key, kind, .value] s t := by
  have hplace : s.place.column = column := hs.column_eq
  have hopens : (!s.inFlow && decide (s.indent < s.place.column)) = true := by
    rw [hs.inFlow_eq, hs.indent_eq, hplace]
    simpa using hindent
  have hleads := hs.leadsTo_afterColon hwidth (.inr hgap) (.inr hindent.le) hword
  rw [hopens] at hleads
  refine ⟨s.afterColon rest width kind true,
    ⟨rfl, ?_, hs.depth_eq, ?_, ?_, ?_, rfl, hs.isDone_eq⟩, hleads,
    [⟨.blockMapping, s.place⟩, ⟨.key, s.place⟩, ⟨kind, s.place⟩, ⟨.value, _⟩], rfl, rfl⟩
  · show s.place.column + width + 1 = _
    rw [hplace]
  · show ((s.place.column : ℕ) : ℤ) = _
    rw [hplace]
  · show s.indent :: s.outer = _
    rw [hs.indent_eq, hs.outer_eq]
  · show none :: s.keys.drop 1 = _
    rw [hs.keys_eq]
    rfl

/-- A key that opens no block: another one of a block, or one inside braces. -/
theorem IsAt.scans_nextKey {text : List Char} {width : ℕ} {kind : TokenKind}
    (hs : s.IsAt text column depth indent outer true) (hwidth : width ≤ maxKeyLength)
    (hopen : depth ≠ 0 ∨ isGap rest.head? = true ∧ indent = column)
    (hword : s.LeadsTo (s.afterKey (':' :: rest) width kind)) :
    ∃ t : Scanner, t.IsAt rest (column + width + 1) depth indent outer false ∧
      Scans [.key, kind, .value] s t := by
  have hplace : s.place.column = column := hs.column_eq
  have hopens : (!s.inFlow && decide (s.indent < s.place.column)) = false := by
    rw [hs.inFlow_eq, hs.indent_eq, hplace]
    rcases hopen with hdepth | ⟨-, hindent⟩
    · simp [hdepth]
    · simp [hindent]
  have hleads := hs.leadsTo_afterColon hwidth (hopen.imp_right (·.1))
    (hopen.imp_right (·.2.le)) hword
  rw [hopens] at hleads
  refine ⟨s.afterColon rest width kind false,
    ⟨rfl, ?_, hs.depth_eq, hs.indent_eq, hs.outer_eq, ?_, rfl, hs.isDone_eq⟩, hleads,
    [⟨.key, s.place⟩, ⟨kind, s.place⟩, ⟨.value, _⟩], rfl, rfl⟩
  · show s.place.column + width + 1 = _
    rw [hplace]
  · show none :: s.keys.drop 1 = _
    rw [hs.keys_eq]
    rfl

theorem isFirstIndicator_of_isAlphanum {c : Char} (h : c.isAlphanum = true) (next : Option Char) :
    isFirstIndicator c next = false := by
  have hall : "#,[]\x7b\x7d&*!|>'\"%@\x60?:-".toList.all (fun d => !d.isAlphanum) = true := by
    decide
  have hnot : ∀ d ∈ "#,[]\x7b\x7d&*!|>'\"%@\x60?:-".toList, c ≠ d := by
    rintro d hd rfl
    have := List.all_eq_true.1 hall c hd
    rw [h] at this
    cases this
  simp at hnot
  simp [isFirstIndicator, hnot]

/-- A name in front of a colon. -/
theorem IsAt.leadsTo_name {name : String}
    (hs : s.IsAt (name.toList ++ ':' :: rest) column 0 indent outer true) (hname : IsName name)
    (hgap : isGap rest.head? = true) (hindent : indent ≤ column) :
    s.LeadsTo (s.afterKey (':' :: rest) name.length (.scalar name true)) := by
  have hplain := plainWord_of_style hname.style_eq
  have hbegins := begins_of_plainWord hname.isWord hplain (':' :: rest)
  obtain ⟨-, ⟨c, more, heq, -⟩, hcolon⟩ := hplain
  have hc : c.isAlphanum = true := hname.isAlphanum c (by rw [heq]; exact List.mem_cons_self)
  have hrest : s.cursor.rest = c :: (more ++ ':' :: rest) := by
    rw [hs.rest_eq, heq]
    rfl
  have hmark : ∀ d, d.isAlphanum = false → c ≠ d := by
    rintro d hd rfl
    rw [hd] at hc
    cases hc
  have htoken : s.token = s.plain :=
    token_plain hrest hs.depth_eq (isWordChar_of_isAlphanum hc)
      (isFirstIndicator_of_isAlphanum hc _)
      (isMarker_of_rest hrest (hmark _ (by decide)) (hmark _ (by decide)))
  have hflow : s.inFlow = false := hs.inFlow_eq
  have hread : Plain.read ⟨s.inFlow, (s.indent + 1).toNat⟩ s.place s.place [] .none s.cursor.rest
      = .ok (name.toList, false, ⟨':' :: rest, ⟨s.place.line, s.place.column + name.length⟩⟩) := by
    rw [hs.rest_eq, Plain.read_word hflow hname.isWord hcolon, Plain.read_colon hflow hgap,
      List.append_nil, List.reverse_reverse, String.length_toList]
  refine hs.leadsTo_token hbegins (.inr hindent) ?_ ?_ (t := s.afterKey _ _ _)
  · rw [htoken, plain_eq (noteKey_of_allowed hs) hread]
    rfl
  · show (':' :: rest).length < _
    have : 0 < name.toList.length := by
      rw [heq]
      exact Nat.succ_pos _
    rw [List.length_append]
    omega

/-- A name between double quotes inside braces. -/
theorem IsAt.leadsTo_quotedName {name : String}
    (hs : s.IsAt ('"' :: (name.toList ++ '"' :: ':' :: rest)) column (depth + 1) indent outer
      true)
    (hname : IsName name) :
    s.LeadsTo (s.afterKey (':' :: rest) (name.length + 2) (.scalar name false)) := by
  refine hs.leadsTo_token (begins_cons (by decide) _) (.inl (Nat.succ_ne_zero depth)) ?_ ?_
    (t := s.afterKey _ _ _)
  · rw [token_doubleQuote hs.rest_eq,
      doubleQuoted_eq (noteKey_of_allowed hs) hs.rest_eq hname.isWord]
    rfl
  · show (':' :: rest).length < _
    simp only [List.length_append, List.length_cons]
    omega

/-! ### Words as values -/

/-- A plain word after a colon, to the end of its line. -/
theorem IsAt.scans_plainWord {word : String} {n : ℕ}
    (hs : s.IsAt (word.toList ++ '\n' :: spaces n ++ rest) column 0 indent outer false)
    (hword : IsWord word) (hplain : PlainWord word) (hcolumn : column ≠ 0)
    (hindent : indent ≤ column) (hn : (n : ℤ) ≤ indent) (hbegins : Begins rest) :
    ∃ t : Scanner, t.IsAt rest n 0 indent outer true ∧ Scans [.scalar word true] s t := by
  have hbegins' := begins_of_plainWord hword hplain ('\n' :: spaces n ++ rest)
  obtain ⟨-, ⟨c, more, heq, hfirst⟩, hcolon⟩ := hplain
  have hc : isWordChar c = true := hword c (by rw [heq]; exact List.mem_cons_self)
  have hrest : s.cursor.rest = c :: (more ++ '\n' :: spaces n ++ rest) := by
    rw [hs.rest_eq, heq]
    rfl
  have hfirst' : isFirstIndicator c (more ++ '\n' :: spaces n ++ rest).head? = false := by
    cases more with
    | nil =>
        unfold isFirstIndicator at hfirst ⊢
        exact hfirst
    | cons d more => exact hfirst
  have hflow : s.inFlow = false := hs.inFlow_eq
  have hmarker : s.cursor.isMarker = false := isMarker_of_column (by rwa [hs.column_eq])
  have htoken : s.token = s.plain := token_plain hrest hs.depth_eq hc hfirst' hmarker
  have hsetting : n < (s.indent + 1).toNat := by
    rw [hs.indent_eq]
    omega
  have hnext : ∀ d ∈ rest.head?, isBlank d = false ∧ isBreak d = false :=
    fun d hd => not_gap_of_visible (hbegins d hd).1 (hbegins d hd).2.1
  have hread : Plain.read ⟨s.inFlow, (s.indent + 1).toNat⟩ s.place s.place [] .none s.cursor.rest
      = .ok (word.toList, true, ⟨rest, ⟨s.place.line + 1, n⟩⟩) := by
    rw [hs.rest_eq, List.append_assoc, Plain.read_word hflow hword hcolon,
      Plain.read_newline hflow hsetting hnext, List.append_nil, List.reverse_reverse]
  refine ⟨{ s.emit (.scalar word true) s.place with
      cursor := ⟨rest, ⟨s.place.line + 1, n⟩⟩, allowsKey := true },
    ⟨rfl, rfl, hs.depth_eq, hs.indent_eq, hs.outer_eq, hs.keys_eq, rfl, hs.isDone_eq⟩,
    hs.leadsTo_token ?_ (.inr hindent)
      (htoken.trans (plain_eq (noteKey_of_not_allowed hs) hread)) ?_,
    [⟨.scalar word true, s.place⟩], rfl, rfl⟩
  · rw [List.append_assoc]
    exact hbegins'
  · simp only [List.length_append, List.length_cons]
    omega

/-- The scanner after a token that begins no key. -/
def afterToken (s : Scanner) (rest : List Char) (width : ℕ) (kind : TokenKind) (allowsKey : Bool) :
    Scanner :=
  { s.emit kind s.place with
    cursor := ⟨rest, ⟨s.place.line, s.place.column + width⟩⟩, allowsKey := allowsKey }

theorem IsAt.afterToken {text : List Char} {allows : Bool}
    (hs : s.IsAt text column depth indent outer allows) (rest : List Char) (width : ℕ)
    (kind : TokenKind) (allows' : Bool) :
    (s.afterToken rest width kind allows').IsAt rest (column + width) depth indent outer
      allows' := by
  refine ⟨rfl, ?_, hs.depth_eq, hs.indent_eq, hs.outer_eq, hs.keys_eq, rfl, hs.isDone_eq⟩
  rw [← hs.column_eq]
  rfl

/-- A word between quotes after a colon. -/
theorem IsAt.scans_quoted {quote : Char} {word : String}
    (hs : s.IsAt (quote :: (word.toList ++ quote :: rest)) column depth indent outer false)
    (hquote : Begins [quote]) (hopen : depth ≠ 0 ∨ indent ≤ column)
    (htoken : s.token
      = .ok (s.afterToken rest (word.length + 2) (.scalar word false) false)) :
    ∃ t : Scanner, t.IsAt rest (column + (word.length + 2)) depth indent outer false ∧
      Scans [.scalar word false] s t := by
  refine ⟨_, hs.afterToken rest (word.length + 2) (.scalar word false) false, ?_,
    [⟨.scalar word false, s.place⟩], rfl, rfl⟩
  refine hs.leadsTo_token (begins_cons (hquote quote rfl) _) hopen htoken ?_
  show rest.length < _
  simp only [List.length_append, List.length_cons]
  omega

theorem IsAt.scans_singleWord {word : String}
    (hs : s.IsAt ('\'' :: (word.toList ++ '\'' :: rest)) column 0 indent outer false)
    (hword : IsWord word) (hrest : rest.head? ≠ some '\'') (hindent : indent ≤ column) :
    ∃ t : Scanner, t.IsAt rest (column + (word.length + 2)) 0 indent outer false ∧
      Scans [.scalar word false] s t := by
  refine hs.scans_quoted (begins_cons (by decide) []) (.inr hindent) ?_
  rw [token_singleQuote hs.rest_eq,
    singleQuoted_eq (noteKey_of_not_allowed hs) hs.rest_eq hword hrest]
  rfl

theorem IsAt.scans_doubleWord {word : String}
    (hs : s.IsAt ('"' :: (word.toList ++ '"' :: rest)) column depth indent outer false)
    (hword : IsWord word) (hopen : depth ≠ 0 ∨ indent ≤ column) :
    ∃ t : Scanner, t.IsAt rest (column + (word.length + 2)) depth indent outer false ∧
      Scans [.scalar word false] s t := by
  refine hs.scans_quoted (begins_cons (by decide) []) hopen ?_
  rw [token_doubleQuote hs.rest_eq, doubleQuoted_eq (noteKey_of_not_allowed hs) hs.rest_eq hword]
  rfl

/-! ### Brackets and commas -/

theorem skipMany_one (c : Cursor) : c.skipMany 1 = c.skip := rfl

theorem IsAt.scans_open {c : Char} {kind : TokenKind}
    (hs : s.IsAt (c :: rest) column depth indent outer false) (hc : Begins [c])
    (hbreak : isBreak c = false) (htoken : s.token = s.openFlow kind)
    (hopen : depth ≠ 0 ∨ indent ≤ column) :
    ∃ t : Scanner, t.IsAt rest (column + 1) (depth + 1) indent outer true ∧
      Scans [kind] s t := by
  let t : Scanner :=
    { s.afterToken rest 1 kind true with keys := none :: s.keys, depth := s.depth + 1 }
  have ht := hs.afterToken rest 1 kind true
  refine ⟨t, ⟨rfl, ht.column_eq, ?_, hs.indent_eq, hs.outer_eq, ?_, rfl, hs.isDone_eq⟩, ?_,
    [⟨kind, s.place⟩], rfl, rfl⟩
  · show s.depth + 1 = _
    rw [hs.depth_eq]
  · show none :: s.keys = _
    rw [hs.keys_eq]
    rfl
  · refine hs.leadsTo_token (begins_cons (hc c rfl) rest) hopen ?_ (Nat.lt_succ_self _)
    rw [htoken, openFlow, noteKey_of_not_allowed hs]
    show Except.ok _ = _
    rw [mark, skipMany_one, skip_of_rest hs.rest_eq hbreak]
    rfl

theorem IsAt.scans_close {c : Char} {kind : TokenKind} {allows : Bool}
    (hs : s.IsAt (c :: rest) column (depth + 1) indent outer allows) (hc : Begins [c])
    (hbreak : isBreak c = false) (htoken : s.token = s.closeFlow kind) :
    ∃ t : Scanner, t.IsAt rest (column + 1) depth indent outer false ∧ Scans [kind] s t := by
  let t : Scanner :=
    { s.afterToken rest 1 kind false with keys := s.keys.drop 1, depth := s.depth - 1 }
  have ht := hs.afterToken rest 1 kind false
  refine ⟨t, ⟨rfl, ht.column_eq, ?_, hs.indent_eq, hs.outer_eq, ?_, rfl, hs.isDone_eq⟩, ?_,
    [⟨kind, s.place⟩], rfl, rfl⟩
  · show s.depth - 1 = _
    rw [hs.depth_eq]
    rfl
  · show s.keys.drop 1 = _
    rw [hs.keys_eq]
    rfl
  · refine hs.leadsTo_token (begins_cons (hc c rfl) rest) (.inl (Nat.succ_ne_zero depth)) ?_
      (Nat.lt_succ_self _)
    have hflow : s.inFlow = true := hs.inFlow_eq
    rw [htoken, closeFlow, dropKey_of_keys hs.keys_eq]
    show Except.ok _ = _
    rw [mark, skipMany_one, skip_of_rest hs.rest_eq hbreak, hflow]
    rfl

theorem IsAt.scans_comma {allows : Bool}
    (hs : s.IsAt (',' :: rest) column (depth + 1) indent outer allows) :
    ∃ t : Scanner, t.IsAt rest (column + 1) (depth + 1) indent outer true ∧
      Scans [.flowEntry] s t := by
  refine ⟨_, hs.afterToken rest 1 .flowEntry true, ?_, [⟨.flowEntry, s.place⟩], rfl,
    rfl⟩
  refine hs.leadsTo_token (begins_cons (by decide) rest) (.inl (Nat.succ_ne_zero depth)) ?_
    (Nat.lt_succ_self _)
  rw [token_comma hs.rest_eq, flowEntry, dropKey_of_keys hs.keys_eq]
  show Except.ok _ = _
  rw [mark, skipMany_one, skip_of_rest hs.rest_eq (by decide)]
  rfl

/-! ### Documents -/

/-- A key that need not be one is given up on the next line. -/
theorem dropStale_of_line {k : PendingKey} (hkeys : s.keys = [none, some k])
    (hrequired : k.isRequired = false) (hline : k.place.line < s.place.line) :
    s.dropStale = .ok { s with keys := [none, none] } := by
  have hloose : ∀ l, some l ∈ s.keys → (s.isStale l && l.isRequired) = false := by
    intro l hl
    rw [hkeys] at hl
    obtain rfl : l = k := by simpa using hl
    rw [hrequired, Bool.and_false]
  have hgone : s.keys.map (·.filter fun l => !s.isStale l) = [none, none] := by
    rw [hkeys]
    simp [isStale_of_line hline]
  rw [dropStale_eq hloose, hgone]

/-- A brace that begins a document may begin a key, but no longer on the next line. -/
theorem IsAt.scans_openDocument {n : ℕ}
    (hs : s.IsAt ('\x7b' :: '\n' :: spaces n ++ rest) 0 0 (-1) [] true) (hbegins : Begins rest) :
    ∃ t : Scanner, t.IsAt rest n 1 (-1) [] true ∧ Scans [.flowMapping] s t := by
  let key : PendingKey := ⟨!s.inFlow && s.indent == s.place.column, s.count, s.place⟩
  let u : Scanner := { s.afterToken ('\n' :: spaces n ++ rest) 1 .flowMapping true with
    keys := none :: some key :: s.keys.drop 1, depth := s.depth + 1 }
  let t : Scanner := { u with
    cursor := ⟨rest, ⟨s.place.line + 1, n⟩⟩, keys := [none, none] }
  have hdepth : u.depth = 1 := by
    show s.depth + 1 = 1
    rw [hs.depth_eq]
  have hkeys : u.keys = [none, some key] := by
    show none :: some key :: s.keys.drop 1 = _
    rw [hs.keys_eq]
    rfl
  have ht : t.IsAt rest n 1 (-1) [] true :=
    ⟨rfl, rfl, hdepth, hs.indent_eq, hs.outer_eq, rfl, rfl, hs.isDone_eq⟩
  have hrequired : key.isRequired = false := by
    have hplace : s.place.column = 0 := hs.column_eq
    show (!s.inFlow && s.indent == s.place.column) = false
    rw [hs.indent_eq, hplace]
    simp
  -- At the brace the key is still pending; the step to the next line gives it up.
  have hdrop : u.dropStale = .ok u := by
    apply dropStale_eq_self
    intro k hk
    rw [hkeys] at hk
    obtain rfl : k = key := by simpa using hk
    exact not_isStale le_rfl (Nat.add_le_add_left (by decide) _)
  have hstep : u.step = t.step := by
    have hflow : u.inFlow = true := by
      rw [inFlow, hdepth]
      rfl
    have hgap : skipGap u.inFlow u.allowsKey false u.place u.cursor.rest = (true, t.cursor) := by
      rw [hflow]
      show skipGap true true false _ ('\n' :: spaces n ++ rest) = _
      rw [skipGap_newline, skipGap_of_begins hbegins]
      rfl
    have hdropped : ({ u with cursor := t.cursor, allowsKey := true } : Scanner).dropStale
        = .ok t := dropStale_of_line hkeys hrequired (Nat.lt_succ_self _)
    rw [ht.step_eq_of_begins hbegins]
    unfold step
    rw [hgap]
    dsimp only
    rw [hdropped]
    rfl
  refine ⟨t, ht, ?_, [⟨.flowMapping, s.place⟩], rfl, rfl⟩
  refine (hs.leadsTo_token (begins_cons (by decide) _) (.inr (by decide)) (t := u) ?_ ?_).trans
    (leadsTo_of_step_eq hdrop hs.isDone_eq (dropStale_of_keys ht.keys_eq) hs.isDone_eq hstep ?_)
  · rw [token_openMapping hs.rest_eq, openFlow, noteKey_of_allowed hs]
    show Except.ok _ = _
    rw [mark, skipMany_one, skip_of_rest hs.rest_eq (by decide)]
    rfl
  · exact Nat.lt_succ_self _
  · show rest.length ≤ ('\n' :: spaces n ++ rest).length
    simp only [List.length_append, List.length_cons]
    omega

/-- Documents are separated by a line of three dashes. -/
def separator : List Char := ['-', '-', '-', '\n']

/-- What may follow a document: nothing, or a separator. -/
def EndsDocument (rest : List Char) : Prop := rest = [] ∨ ∃ more, rest = separator ++ more

theorem EndsDocument.begins (h : EndsDocument rest) : Begins rest := by
  rcases h with rfl | ⟨more, rfl⟩
  · exact begins_nil
  · exact begins_cons (by decide) _

theorem token_separator {more : List Char} (hrest : s.cursor.rest = separator ++ more)
    (hcolumn : s.cursor.place.column = 0) : s.token = s.documentMarker .documentStart := by
  have hmarker : s.cursor.isMarker = true := by
    unfold Cursor.isMarker Cursor.column
    rw [hcolumn, cursor_eq_mk hrest]
    rfl
  unfold token
  simp [hmarker, peek_of_rest (c := '-') hrest]

theorem token_end (hrest : s.cursor.rest = []) : s.token = s.finish := by
  have hpeek : s.cursor.peek = none := by
    rw [Cursor.peek, hrest]
    rfl
  unfold token
  simp [hpeek]

/-- The end of a text whose last line is ended. -/
theorem finish_eq (hrest : s.cursor.rest = []) (hcolumn : s.cursor.place.column = 0) :
    s.finish = (s.closeBlocks (-1)).dropKey.map fun u =>
      { u.emit .streamEnd s.place with allowsKey := false, isDone := true } := by
  have hplace : s.place.column = 0 := hcolumn
  have hcursor : (⟨[], s.place⟩ : Cursor) = s.cursor := (cursor_eq_mk hrest).symm
  unfold finish
  rw [if_pos hplace]
  dsimp only
  rw [hcursor]
  cases (s.closeBlocks (-1)).dropKey <;> rfl

/-- A block at the left edge is closed by what follows its document. -/
theorem IsAt.scans_documentEnd (hs : s.IsAt rest 0 0 0 [-1] true) (hend : EndsDocument rest) :
    ∃ t : Scanner, t.IsAt rest 0 0 (-1) [] true ∧ Scans [.blockEnd] s t := by
  let t : Scanner := { s with indent := -1, outer := [] }.emit .blockEnd s.place
  have ht : t.IsAt rest 0 0 (-1) [] true :=
    ⟨hs.rest_eq, hs.column_eq, hs.depth_eq, rfl, rfl, hs.keys_eq, hs.allowsKey_eq, hs.isDone_eq⟩
  have hclose : s.closeBlocks (-1) = t := by
    have hflow : s.inFlow = false := hs.inFlow_eq
    have hdeeper : (-1 : ℤ) < s.indent := by
      rw [hs.indent_eq]
      decide
    rw [closeBlocks, hflow, if_neg (by decide), hs.outer_eq, closeBlocksFrom, if_pos hdeeper,
      closeBlocksFrom]
  have hclosed : t.closeBlocks (-1) = t := closeBlocks_eq_self (.inr le_rfl)
  have htoken : s.token = t.token := by
    rcases hend with rfl | ⟨more, rfl⟩
    · have hplace : s.place = t.place := rfl
      rw [token_end hs.rest_eq, token_end ht.rest_eq, finish_eq hs.rest_eq hs.column_eq,
        finish_eq ht.rest_eq ht.column_eq, hclose, hclosed, hplace]
    · rw [token_separator hs.rest_eq hs.column_eq, token_separator ht.rest_eq ht.column_eq,
        documentMarker, documentMarker, hclose, hclosed]
  refine ⟨t, ht, ?_, [⟨.blockEnd, s.place⟩], rfl, rfl⟩
  refine leadsTo_of_step_eq (dropStale_of_keys hs.keys_eq) hs.isDone_eq
    (dropStale_of_keys ht.keys_eq) ht.isDone_eq ?_ ?_
  · rw [hs.step_eq_of_begins hend.begins, ht.step_eq_of_begins hend.begins,
      closeBlocks_eq_self (.inr (by rw [hs.indent_eq]; decide)),
      closeBlocks_eq_self (.inr (by rw [ht.indent_eq]; decide)), htoken]
  · rw [hs.rest_eq, ht.rest_eq]

theorem IsAt.scans_separator (hs : s.IsAt (separator ++ rest) 0 0 (-1) [] true)
    (hbegins : Begins rest) :
    ∃ t : Scanner, t.IsAt rest 0 0 (-1) [] true ∧ Scans [.documentStart] s t := by
  let u := s.afterToken ('\n' :: rest) 3 .documentStart false
  have hu : u.IsAt ('\n' :: rest) 3 0 (-1) [] false := hs.afterToken _ 3 .documentStart false
  have hscans : Scans [.documentStart] s u := by
    refine ⟨?_, [⟨.documentStart, s.place⟩], rfl, rfl⟩
    refine hs.leadsTo_token (begins_cons (by decide) _) (.inr (by decide)) ?_ ?_
    · have hskip : s.cursor.skipMany 3
          = ⟨'\n' :: rest, ⟨s.place.line, s.place.column + 3⟩⟩ := by
        rw [cursor_eq_mk hs.rest_eq]
        rfl
      rw [token_separator hs.rest_eq hs.column_eq, documentMarker,
        closeBlocks_eq_self (.inr (by rw [hs.indent_eq])), dropKey_of_keys hs.keys_eq]
      show Except.ok _ = _
      rw [mark, hskip]
      rfl
    · show ('\n' :: rest).length < _
      simp only [List.length_append, List.length_cons, separator]
      omega
  obtain ⟨t, ht, hscans'⟩ := IsAt.scans_newline (n := 0) hu hbegins
  exact ⟨t, ht, hscans.trans hscans'⟩

/-- At the end of the text the scan is complete. -/
theorem IsAt.yields_end (hs : s.IsAt [] 0 0 (-1) [] true) :
    ∃ token : Token, token.kind = .streamEnd ∧ s.Yields (s.tokens.reverse ++ [token]) := by
  refine ⟨⟨.streamEnd, s.place⟩, rfl, ?_⟩
  intro fuel hfuel
  obtain ⟨fuel, rfl⟩ : ∃ f, fuel = f + 2 := ⟨fuel - 2, by omega⟩
  let t : Scanner := { s.emit .streamEnd s.place with allowsKey := false, isDone := true }
  have hstep : s.step = .ok t := by
    rw [hs.step_eq_of_begins begins_nil,
      closeBlocks_eq_self (.inr (by rw [hs.indent_eq]; decide)), token_end hs.rest_eq,
      finish_eq hs.rest_eq hs.column_eq, closeBlocks_eq_self (.inr (by rw [hs.indent_eq])),
      dropKey_of_keys hs.keys_eq]
    rfl
  have hdrop : t.dropStale = .ok t := dropStale_of_keys (s := t) hs.keys_eq
  rw [run_succ (dropStale_of_keys hs.keys_eq) hs.isDone_eq, hstep]
  dsimp only
  rw [run, hdrop]
  dsimp only
  rw [if_pos rfl]
  show (List.reverse (⟨.streamEnd, s.place⟩ :: s.tokens), none) = _
  rw [List.reverse_cons]

end ControlPlane.Yaml.Scanner
