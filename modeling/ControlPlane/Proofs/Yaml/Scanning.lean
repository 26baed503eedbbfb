import ControlPlane.Proofs.Yaml.Words

/-! # Scanning

What the scanner does between two of its tokens when no key is pending.  `Scans kinds s t` says
that scanner `s` comes to scanner `t` and that tokens of these kinds come up on the way, whatever
is to come after; it composes (`Scans.trans`).  `IsAt` says where a scanner stands: gaps are passed
over, blocks that lie deeper are closed, and then one character tells which token begins. -/

namespace ControlPlane.Yaml.Scanner

/-! ### Runs -/

/-- The scan succeeds with these tokens, as soon as there is a step for each character and two
more. -/
def Yields (s : Scanner) (tokens : List Token) : Prop :=
  ∀ fuel, s.cursor.rest.length + 2 ≤ fuel → s.run fuel = (tokens, none)

/-- The scan goes on from another scanner. -/
def LeadsTo (s t : Scanner) : Prop := ∀ tokens, t.Yields tokens → s.Yields tokens

theorem LeadsTo.trans {s t u : Scanner} (hst : s.LeadsTo t) (htu : t.LeadsTo u) : s.LeadsTo u :=
  fun tokens h => hst tokens (htu tokens h)

theorem run_succ {s : Scanner} (hdrop : s.dropStale = .ok s) (hdone : s.isDone = false)
    (fuel : ℕ) :
    s.run (fuel + 1) = match s.step with
      | .error fault => (s.settled, some fault)
      | .ok t => t.run fuel := by
  rw [run, hdrop]
  dsimp only
  exact if_neg (by rw [hdone]; decide)

/-- A step takes up a character. -/
theorem leadsTo_of_step {s t : Scanner} (hdrop : s.dropStale = .ok s) (hdone : s.isDone = false)
    (hstep : s.step = .ok t) (hlt : t.cursor.rest.length < s.cursor.rest.length) :
    s.LeadsTo t := by
  intro tokens ht fuel hfuel
  obtain ⟨fuel, rfl⟩ : ∃ f, fuel = f + 1 := ⟨fuel - 1, by omega⟩
  rw [run_succ hdrop hdone, hstep]
  exact ht fuel (by omega)

/-- Two scanners with the same next step. -/
theorem leadsTo_of_step_eq {s t : Scanner} (hs : s.dropStale = .ok s) (hsdone : s.isDone = false)
    (ht : t.dropStale = .ok t) (htdone : t.isDone = false) (hstep : s.step = t.step)
    (hle : t.cursor.rest.length ≤ s.cursor.rest.length) : s.LeadsTo t := by
  intro tokens hyields fuel hfuel
  have hrun := hyields fuel (by omega)
  obtain ⟨fuel, rfl⟩ : ∃ f, fuel = f + 1 := ⟨fuel - 1, by omega⟩
  rw [run_succ ht htdone] at hrun
  rw [run_succ hs hsdone, hstep]
  cases hnext : t.step with
  | error fault =>
      rw [hnext] at hrun
      cases hrun
  | ok u =>
      rw [hnext] at hrun
      exact hrun

/-- A scan from one scanner to another, on which tokens of these kinds come up. -/
def Scans (kinds : List TokenKind) (s t : Scanner) : Prop :=
  s.LeadsTo t ∧ ∃ tokens : List Token, tokens.map (·.kind) = kinds ∧
    t.tokens = tokens.reverse ++ s.tokens

theorem Scans.trans {kinds kinds' : List TokenKind} {s t u : Scanner} (hst : Scans kinds s t)
    (htu : Scans kinds' t u) : Scans (kinds ++ kinds') s u := by
  obtain ⟨hst, first, rfl, hfirst⟩ := hst
  obtain ⟨htu, second, rfl, hsecond⟩ := htu
  refine ⟨hst.trans htu, first ++ second, List.map_append, ?_⟩
  rw [hsecond, hfirst, List.reverse_append, List.append_assoc]

/-! ### Between tokens -/

/-- The scanner stands in front of this text, in this column, with no key pending. -/
structure IsAt (s : Scanner) (rest : List Char) (column depth : ℕ) (indent : ℤ) (outer : List ℤ)
    (allowsKey : Bool) : Prop where
  rest_eq : s.cursor.rest = rest
  column_eq : s.cursor.place.column = column
  depth_eq : s.depth = depth
  indent_eq : s.indent = indent
  outer_eq : s.outer = outer
  keys_eq : s.keys = List.replicate (depth + 1) none
  allowsKey_eq : s.allowsKey = allowsKey
  isDone_eq : s.isDone = false

/-- The text goes on with a token, or ends: with no blank, no break and no comment. -/
def Begins (text : List Char) : Prop :=
  ∀ c ∈ text.head?, 0x21 ≤ c.toNat ∧ c.toNat ≤ 0x7e ∧ c ≠ '#'

theorem begins_nil : Begins [] := by
  intro c hc
  cases hc

theorem begins_cons {c : Char} (h : 0x21 ≤ c.toNat ∧ c.toNat ≤ 0x7e ∧ c ≠ '#')
    (rest : List Char) : Begins (c :: rest) := by
  intro d hd
  cases hd
  exact h

theorem skipGap_of_begins {inFlow allows : Bool} {place : Place} {text : List Char}
    (h : Begins text) : skipGap inFlow allows false place text = (allows, ⟨text, place⟩) := by
  cases text with
  | nil => rw [skipGap]
  | cons c rest =>
      obtain ⟨hlow, hhigh, hhash⟩ := h c rfl
      have hbreak := (not_gap_of_visible hlow hhigh).2
      have hspace : c ≠ ' ' ∧ c ≠ '\t' ∧ c ≠ '\ufeff' := by
        refine ⟨?_, ?_, ?_⟩ <;> rintro rfl <;> revert hlow hhigh <;> decide
      rw [skipGap, hbreak]
      simp [hspace, hhash]

theorem skipGap_spaces {inFlow allows : Bool} {place : Place} {text : List Char} (n : ℕ) :
    skipGap inFlow allows false place (spaces n ++ text)
      = skipGap inFlow allows false ⟨place.line, place.column + n⟩ text := by
  induction n generalizing place with
  | zero => rfl
  | succ n ih =>
      have hcons : spaces (n + 1) ++ text = ' ' :: (spaces n ++ text) := rfl
      have hafter : place.after ' ' = ⟨place.line, place.column + 1⟩ := rfl
      rw [hcons, skipGap, if_neg (by decide), if_pos (by simp), hafter, ih]
      have hsum : place.column + 1 + n = place.column + (n + 1) := by omega
      dsimp only
      rw [hsum]

theorem skipGap_newline {inFlow allows : Bool} {place : Place} {text : List Char} (n : ℕ) :
    skipGap inFlow allows false place ('\n' :: spaces n ++ text)
      = skipGap inFlow (allows || !inFlow) false ⟨place.line + 1, n⟩ text := by
  have hafter : place.after '\n' = ⟨place.line + 1, 0⟩ := rfl
  rw [List.cons_append, skipGap, if_pos (by decide), hafter, skipGap_spaces, Nat.zero_add]

/-- Keys that need not be keys are given up when they are stale. -/
theorem dropStale_eq {s : Scanner}
    (h : ∀ k, some k ∈ s.keys → (s.isStale k && k.isRequired) = false) :
    s.dropStale = .ok { s with keys := s.keys.map (·.filter fun k => !s.isStale k) } := by
  have hfind : (s.keys.findSome? fun key => key.filter fun k => s.isStale k && k.isRequired)
      = none := by
    rw [List.findSome?_eq_none_iff]
    intro key hkey
    cases key with
    | none => rfl
    | some k => rw [Option.filter_some, h k hkey, if_neg (by decide)]
  unfold dropStale
  rw [hfind]

theorem dropStale_eq_self {s : Scanner} (h : ∀ k, some k ∈ s.keys → s.isStale k = false) :
    s.dropStale = .ok s := by
  have hkeep : s.keys.map (·.filter fun k => !s.isStale k) = s.keys := by
    conv_rhs => rw [← List.map_id s.keys]
    apply List.map_congr_left
    intro key hkey
    cases key with
    | none => rfl
    | some k => rw [Option.filter_some, h k hkey]; rfl
  rw [dropStale_eq fun k hk => by rw [h k hk]; rfl, hkeep]

theorem dropStale_of_keys {s : Scanner} {n : ℕ} (h : s.keys = List.replicate n none) :
    s.dropStale = .ok s := by
  apply dropStale_eq_self
  intro k hk
  rw [h] at hk
  cases (List.mem_replicate.1 hk).2

theorem dropKey_of_keys {s : Scanner} {n : ℕ} (h : s.keys = List.replicate (n + 1) none) :
    s.dropKey = .ok s := by
  unfold dropKey
  rw [h, List.replicate_succ]

theorem closeBlocks_eq_self {s : Scanner} {column : ℤ} (h : s.depth ≠ 0 ∨ s.indent ≤ column) :
    s.closeBlocks column = s := by
  unfold closeBlocks inFlow
  by_cases hdepth : s.depth = 0
  · have hindent : ¬column < s.indent := by
      rcases h with h | h
      · exact absurd hdepth h
      · omega
    rw [hdepth, if_neg (by decide)]
    cases s.outer with
    | nil => rw [closeBlocksFrom]
    | cons i outer => rw [closeBlocksFrom, if_neg hindent]
  · rw [if_pos (by simpa using hdepth)]

section

variable {s : Scanner} {rest : List Char} {column depth : ℕ} {indent : ℤ} {outer : List ℤ}
  {allows : Bool}

theorem IsAt.inFlow_eq (hs : s.IsAt rest column depth indent outer allows) :
    s.inFlow = (depth != 0) := by
  rw [inFlow, hs.depth_eq]

/-- A step in terms of what follows the gap in front of the token. -/
theorem IsAt.step_eq (hs : s.IsAt rest column depth indent outer allows) {allows' : Bool}
    {c : Cursor} (hgap : skipGap (depth != 0) allows false s.place rest = (allows', c)) :
    s.step = (({ s with cursor := c, allowsKey := allows' } : Scanner).closeBlocks
      c.place.column).token := by
  have hgap' : skipGap s.inFlow s.allowsKey false s.place s.cursor.rest = (allows', c) := by
    rw [hs.rest_eq, hs.allowsKey_eq, hs.inFlow_eq]
    exact hgap
  unfold step
  rw [hgap']
  dsimp only
  rw [dropStale_of_keys (s := { s with cursor := c, allowsKey := allows' }) hs.keys_eq]
  rfl

theorem IsAt.step_eq_of_begins (hs : s.IsAt rest column depth indent outer allows)
    (hbegins : Begins rest) : s.step = (s.closeBlocks column).token := by
  have hstep := hs.step_eq (skipGap_of_begins hbegins)
  have hcursor : (⟨rest, s.place⟩ : Cursor) = s.cursor := by rw [← hs.rest_eq]; rfl
  have hself : ({ s with cursor := ⟨rest, s.place⟩, allowsKey := allows } : Scanner) = s := by
    rw [hcursor, ← hs.allowsKey_eq]
  have hcolumn : (⟨rest, s.place⟩ : Cursor).place.column = column := hs.column_eq
  rw [hstep, hself, hcolumn]

/-- The gap in front of a token is passed over. -/
theorem IsAt.scans_gap (hs : s.IsAt rest column depth indent outer allows) {allows' : Bool}
    {rest' : List Char} {place : Place}
    (hgap : skipGap (depth != 0) allows false s.place rest = (allows', ⟨rest', place⟩))
    (hbegins : Begins rest') (hle : rest'.length ≤ rest.length) :
    ∃ t : Scanner, t.IsAt rest' place.column depth indent outer allows' ∧ Scans [] s t := by
  let t : Scanner := { s with cursor := ⟨rest', place⟩, allowsKey := allows' }
  have ht : t.IsAt rest' place.column depth indent outer allows' :=
    ⟨rfl, rfl, hs.depth_eq, hs.indent_eq, hs.outer_eq, hs.keys_eq, rfl, hs.isDone_eq⟩
  refine ⟨t, ht, ?_, [], rfl, rfl⟩
  refine leadsTo_of_step_eq (dropStale_of_keys hs.keys_eq) hs.isDone_eq
    (dropStale_of_keys ht.keys_eq) ht.isDone_eq ?_ ?_
  · rw [hs.step_eq hgap, ht.step_eq_of_begins hbegins]
  · rw [hs.rest_eq, ht.rest_eq]
    exact hle

theorem IsAt.scans_space (hs : s.IsAt (' ' :: rest) column depth indent outer allows)
    (hbegins : Begins rest) :
    ∃ t : Scanner, t.IsAt rest (column + 1) depth indent outer allows ∧ Scans [] s t := by
  have hgap : skipGap (depth != 0) allows false s.place (' ' :: rest)
      = (allows, ⟨rest, ⟨s.place.line, s.place.column + 1⟩⟩) := by
    have hone : skipGap (depth != 0) allows false s.place (spaces 1 ++ rest)
        = skipGap (depth != 0) allows false ⟨s.place.line, s.place.column + 1⟩ rest :=
      skipGap_spaces 1
    rw [skipGap_of_begins hbegins] at hone
    exact hone
  obtain ⟨t, ht, hscans⟩ := hs.scans_gap hgap hbegins (by simp)
  refine ⟨t, ?_, hscans⟩
  have hcolumn : s.place.column = column := hs.column_eq
  rw [hcolumn] at ht
  exact ht

/-- On a new line a key may stand, unless it is inside brackets. -/
theorem IsAt.scans_newline {n : ℕ}
    (hs : s.IsAt ('\n' :: spaces n ++ rest) column depth indent outer allows)
    (hbegins : Begins rest) :
    ∃ t : Scanner, t.IsAt rest n depth indent outer (allows || depth == 0) ∧ Scans [] s t := by
  have hgap : skipGap (depth != 0) allows false s.place ('\n' :: spaces n ++ rest)
      = (allows || depth == 0, ⟨rest, ⟨s.place.line + 1, n⟩⟩) := by
    rw [skipGap_newline, skipGap_of_begins hbegins]
    congr 2
    cases depth <;> rfl
  refine hs.scans_gap hgap hbegins ?_
  simp only [List.length_cons, List.length_append]
  omega

/-- A block that lies deeper than the token is closed in front of it. -/
theorem IsAt.scans_blockEnd {inner : ℤ}
    (hs : s.IsAt rest column 0 inner (indent :: outer) allows) (hbegins : Begins rest)
    (hlt : (column : ℤ) < inner) :
    ∃ t : Scanner, t.IsAt rest column 0 indent outer allows ∧ Scans [.blockEnd] s t := by
  let t : Scanner := { s with indent := indent, outer := outer }.emit .blockEnd s.place
  have ht : t.IsAt rest column 0 indent outer allows :=
    ⟨hs.rest_eq, hs.column_eq, hs.depth_eq, rfl, rfl, hs.keys_eq, hs.allowsKey_eq, hs.isDone_eq⟩
  refine ⟨t, ht, ?_, [⟨.blockEnd, s.place⟩], rfl, rfl⟩
  have hclose : s.closeBlocks column = t.closeBlocks column := by
    have hdeeper : (column : ℤ) < s.indent := by
      rw [hs.indent_eq]
      exact hlt
    unfold closeBlocks
    rw [hs.inFlow_eq, ht.inFlow_eq, hs.outer_eq, closeBlocksFrom, if_pos hdeeper, ht.outer_eq]
    rfl
  refine leadsTo_of_step_eq (dropStale_of_keys hs.keys_eq) hs.isDone_eq
    (dropStale_of_keys ht.keys_eq) ht.isDone_eq ?_ ?_
  · rw [hs.step_eq_of_begins hbegins, ht.step_eq_of_begins hbegins, hclose]
  · rw [hs.rest_eq, ht.rest_eq]

/-- One token, with no block to close in front of it. -/
theorem IsAt.leadsTo_token (hs : s.IsAt rest column depth indent outer allows)
    (hbegins : Begins rest) (hopen : depth ≠ 0 ∨ indent ≤ column) {t : Scanner}
    (htoken : s.token = .ok t) (hlt : t.cursor.rest.length < rest.length) : s.LeadsTo t := by
  refine leadsTo_of_step (dropStale_of_keys hs.keys_eq) hs.isDone_eq ?_ (by rwa [hs.rest_eq])
  rw [hs.step_eq_of_begins hbegins, closeBlocks_eq_self (by rwa [hs.depth_eq, hs.indent_eq]),
    htoken]

end

/-! ### Marks -/

section

variable {s : Scanner} {rest : List Char}

theorem isMarker_cons {c : Char} {place : Place} (hdash : c ≠ '-') (hdot : c ≠ '.') :
    Cursor.isMarker ⟨c :: rest, place⟩ = false := by
  simp [Cursor.isMarker, Ne.symm hdash, Ne.symm hdot]

theorem isGapAt_one {c : Char} {place : Place} :
    Cursor.isGapAt ⟨c :: rest, place⟩ 1 = isGap rest.head? := by
  cases rest <;> rfl

theorem cursor_eq_mk {c : Cursor} {rest : List Char} (h : c.rest = rest) : c = ⟨rest, c.place⟩ := by
  rw [← h]

theorem peek_of_rest {c : Char} (hrest : s.cursor.rest = c :: rest) : s.cursor.peek = some c := by
  rw [Cursor.peek, hrest]
  rfl

theorem skip_of_rest {c : Char} (hrest : s.cursor.rest = c :: rest) (hc : isBreak c = false) :
    s.cursor.skip = ⟨rest, ⟨s.place.line, s.place.column + 1⟩⟩ := by
  rw [Cursor.skip, hrest]
  dsimp only
  rw [Place.after, hc, if_neg (by decide)]
  rfl

theorem isMarker_of_rest {c : Char} (hrest : s.cursor.rest = c :: rest) (hdash : c ≠ '-')
    (hdot : c ≠ '.') : s.cursor.isMarker = false := by
  rw [cursor_eq_mk hrest, isMarker_cons hdash hdot]

theorem isGapAt_of_rest {c : Char} (hrest : s.cursor.rest = c :: rest) :
    s.cursor.isGapAt 1 = isGap rest.head? := by
  rw [cursor_eq_mk hrest, isGapAt_one]

theorem token_colon (hrest : s.cursor.rest = ':' :: rest)
    (hopen : s.depth ≠ 0 ∨ isGap rest.head? = true) : s.token = s.value := by
  have hopens : (s.inFlow || s.cursor.isGapAt 1) = true := by
    rw [isGapAt_of_rest hrest]
    simpa [inFlow] using hopen
  unfold token
  simp [peek_of_rest hrest, isMarker_of_rest hrest, hopens]

theorem token_openSequence (hrest : s.cursor.rest = '[' :: rest) :
    s.token = s.openFlow .flowSequence := by
  unfold token
  simp [peek_of_rest hrest, isMarker_of_rest hrest]

theorem token_closeSequence (hrest : s.cursor.rest = ']' :: rest) :
    s.token = s.closeFlow .flowSequenceEnd := by
  unfold token
  simp [peek_of_rest hrest, isMarker_of_rest hrest]

theorem token_openMapping (hrest : s.cursor.rest = '\x7b' :: rest) :
    s.token = s.openFlow .flowMapping := by
  unfold token
  simp [peek_of_rest hrest, isMarker_of_rest hrest]

theorem token_closeMapping (hrest : s.cursor.rest = '\x7d' :: rest) :
    s.token = s.closeFlow .flowMappingEnd := by
  unfold token
  simp [peek_of_rest hrest, isMarker_of_rest hrest]

theorem token_comma (hrest : s.cursor.rest = ',' :: rest) : s.token = s.flowEntry := by
  unfold token
  simp [peek_of_rest hrest, isMarker_of_rest hrest]

theorem token_singleQuote (hrest : s.cursor.rest = '\'' :: rest) : s.token = s.quoted true := by
  unfold token
  simp [peek_of_rest hrest, isMarker_of_rest hrest]

theorem token_doubleQuote (hrest : s.cursor.rest = '"' :: rest) : s.token = s.quoted false := by
  unfold token
  simp [peek_of_rest hrest, isMarker_of_rest hrest]

theorem token_plain {c : Char} (hrest : s.cursor.rest = c :: rest) (hdepth : s.depth = 0)
    (hword : isWordChar c = true) (hfirst : isFirstIndicator c rest.head? = false)
    (hmarker : s.cursor.isMarker = false) : s.token = s.plain := by
  have hflow : s.inFlow = false := by
    rw [inFlow, hdepth]
    rfl
  have hpeekAt : s.cursor.peekAt 1 = rest.head? := by
    rw [Cursor.peekAt, hrest]
    cases rest <;> rfl
  simp [isFirstIndicator] at hfirst
  obtain ⟨⟨hmarks, hback⟩, hopen⟩ := hfirst
  have hstarts : s.startsPlain c = true := by
    unfold startsPlain
    rw [hflow, hpeekAt, isGapAt_of_rest hrest]
    by_cases hmark : c = '?' ∨ c = ':' ∨ c = '-'
    · have hgap := hopen hmark
      cases hhead : rest.head? with
      | none =>
          rw [hhead] at hgap
          cases hgap
      | some x =>
          rw [hhead] at hgap
          have hx : isBlank x = false ∧ isBreak x = false := by simpa [isGap] using hgap
          rcases hmark with rfl | rfl | rfl <;> simp [isGap, hx]
    · simp only [not_or] at hmark
      simp [hmarks, hback, hmark, isBlank_of_isWordChar hword, isBreak_of_isWordChar hword]
  unfold token
  simp only [hmarker, peek_of_rest hrest, hflow, isGapAt_of_rest hrest, Bool.false_or]
  have hclosed : ∀ mark, mark = '?' ∨ mark = ':' ∨ mark = '-' →
      ¬(c = mark ∧ isGap rest.head? = true) := by
    rintro mark hmark ⟨rfl, hgap⟩
    rw [hopen hmark] at hgap
    cases hgap
  simp [hmarks, hclosed, hstarts]

end

end ControlPlane.Yaml.Scanner
