import ControlPlane.Proofs.Yaml.Building

/-! # Streams of outlines

Outlines can be joined to a stream whichever form each is written in, for the text of a document
leaves the scanner as it was in front of it (`Holds`).  The source of such a stream has the data of
the outlines in their order (`datum_ofText`). -/

namespace ControlPlane.Yaml

/-! ### Printed text -/

/-- Visible ASCII characters, spaces and line feeds. -/
def isPrinted (c : Char) : Bool := c == '\n' || (0x20 ≤ c.toNat && c.toNat ≤ 0x7e)

def IsPrinted (text : List Char) : Prop := ∀ c ∈ text, isPrinted c = true

theorem isPrinted_of_all {text : List Char} (h : text.all isPrinted = true) : IsPrinted text :=
  fun c hc => List.all_eq_true.1 h c hc

theorem isPrinted_nil : IsPrinted [] := fun _ hc => absurd hc List.not_mem_nil

@[simp] theorem isPrinted_cons {c : Char} {text : List Char} :
    IsPrinted (c :: text) ↔ isPrinted c = true ∧ IsPrinted text := List.forall_mem_cons

@[simp] theorem isPrinted_append {text more : List Char} :
    IsPrinted (text ++ more) ↔ IsPrinted text ∧ IsPrinted more := List.forall_mem_append

@[simp] theorem isPrinted_spaces (n : ℕ) : IsPrinted (spaces n) := by
  intro c hc
  rw [List.eq_of_mem_replicate hc]
  decide

theorem isPrinted_of_isWord {text : String} (h : IsWord text) : IsPrinted text.toList :=
  fun c hc => of_isWordChar (by decide) (h c hc)

/-- Such a text holds no character that it may not hold, -/
theorem controlAt?_of_isPrinted {text : List Char} (h : IsPrinted text) (position : ℕ) :
    controlAt? position text = none := by
  induction text generalizing position with
  | nil => rfl
  | cons c rest ih =>
      obtain ⟨hc, hrest⟩ := isPrinted_cons.1 h
      have hallowed : (c.toNat == 9 || c.toNat == 10 || c.toNat == 13
          || (0x20 ≤ c.toNat && c.toNat ≤ 0x7e) || c.toNat == 0x85
          || (0xa0 ≤ c.toNat && c.toNat != 0xfffe && c.toNat != 0xffff)) = true := by
        unfold isPrinted at hc
        rcases Bool.or_eq_true_iff.1 hc with hbreak | hrange
        · rw [eq_of_beq hbreak]
          decide
        · rw [hrange]
          simp
      rw [controlAt?, if_pos hallowed, ih hrest]

/-- and all its lines end in the same way. -/
theorem evenBreaks_of_isPrinted {text : List Char} (h : IsPrinted text) :
    evenBreaks text = text := by
  induction text with
  | nil => rfl
  | cons c rest ih =>
      obtain ⟨hc, hrest⟩ := isPrinted_cons.1 h
      have hreturn : c ≠ '\r' := by
        rintro rfl
        exact absurd hc (by decide)
      have hnext : c ≠ '\u0085' := by
        rintro rfl
        exact absurd hc (by decide)
      rw [evenBreaks]
      · rw [ih hrest, if_neg (by simp [hreturn, hnext])]
      · exact fun more hreturn' => absurd hreturn' hreturn

/-! ### Printed outlines -/

theorem isPrinted_shown {word : String} (hword : IsWord word) : IsPrinted (shown word) := by
  have hprinted := isPrinted_of_isWord hword
  have hquote : isPrinted '\'' = true := by decide
  unfold shown
  split
  · exact hprinted
  · simp [hprinted, hquote, isPrinted_nil]

theorem isPrinted_fieldsLines {m : ℕ} {fields : List (String × Document)}
    (hnames : ∀ f ∈ fields, IsName f.1)
    (hvalues : ∀ f ∈ fields, ∀ m, IsPrinted (valueLines m f.2)) :
    IsPrinted (fieldsLines m fields) := by
  have hcolon : isPrinted ':' = true := by decide
  induction fields with
  | nil =>
      rw [fieldsLines]
      exact isPrinted_nil
  | cons f fields ih =>
      obtain ⟨name, value⟩ := f
      have hname : IsName name := hnames _ List.mem_cons_self
      have hprinted := isPrinted_of_isWord hname.isWord
      have hvalue : IsPrinted (valueLines m value) := hvalues _ List.mem_cons_self m
      have hrest := ih (fun g hg => hnames g (List.mem_cons_of_mem _ hg))
        fun g hg => hvalues g (List.mem_cons_of_mem _ hg)
      rw [fieldsLines, fieldLines, nameText_of_isName hname]
      simp [hprinted, hcolon, hvalue, hrest]

theorem isPrinted_valueLines {depth : ℕ} {d : Document} (h : d.IsOutline depth) (m : ℕ) :
    IsPrinted (valueLines m d) := by
  have hspace : isPrinted ' ' = true := by decide
  have hbreak : isPrinted '\n' = true := by decide
  induction h generalizing m with
  | text hword =>
      rw [valueLines, textLine_of_isWord _ hword]
      simp [isPrinted_shown hword, hspace, hbreak, isPrinted_nil]
  | list =>
      rw [valueLines]
      exact isPrinted_of_all (by decide)
  | record hne hnodup hnames hfields ih =>
      rename_i fields
      have hlines := isPrinted_fieldsLines (m := m + 2) hnames ih
      obtain ⟨⟨name, value⟩, fields, rfl⟩ := List.exists_cons_of_ne_nil hne
      rw [fieldsLines] at hlines
      rw [valueLines]
      simpa [hbreak] using hlines

theorem isPrinted_render {depth : ℕ} {fields : List (String × Document)}
    (h : (Document.record fields).IsOutline depth) :
    IsPrinted (Yaml.render (.record fields)).toList := by
  cases h with
  | record hne hnodup hnames hfields =>
      have hlines := isPrinted_fieldsLines (m := 0) hnames
        fun f hf => isPrinted_valueLines (hfields f hf)
      obtain ⟨⟨name, value⟩, fields, rfl⟩ := List.exists_cons_of_ne_nil hne
      rw [Yaml.render, String.toList_ofList, itemLines]
      exact hlines

theorem isPrinted_newline (m : ℕ) : IsPrinted (Json.newline m) :=
  isPrinted_cons.2 ⟨by decide, isPrinted_spaces _⟩

theorem isPrinted_quoted {word : String} (hword : IsWord word) :
    IsPrinted (Json.quoted word) := by
  have hquote : isPrinted '"' = true := by decide
  rw [quoted_of_isWord hword]
  simp [isPrinted_of_isWord hword, hquote, isPrinted_nil]

theorem isPrinted_writeFields {m : ℕ} {fields : List (String × Document)}
    (hnames : ∀ f ∈ fields, IsName f.1)
    (hvalues : ∀ f ∈ fields, IsPrinted (Json.write m f.2)) :
    IsPrinted (Json.writeFields m fields) := by
  have hmarks : isPrinted ',' = true ∧ isPrinted ':' = true ∧ isPrinted ' ' = true := by decide
  induction fields with
  | nil =>
      rw [Json.writeFields]
      exact isPrinted_nil
  | cons f fields ih =>
      obtain ⟨name, value⟩ := f
      have hname : IsName name := hnames _ List.mem_cons_self
      have hvalue : IsPrinted (Json.write m value) := hvalues _ List.mem_cons_self
      have hrest := ih (fun g hg => hnames g (List.mem_cons_of_mem _ hg))
        fun g hg => hvalues g (List.mem_cons_of_mem _ hg)
      rw [Json.writeFields, Json.writeField]
      simp [hmarks, isPrinted_newline, isPrinted_quoted hname.isWord, hvalue, hrest]

theorem isPrinted_write {depth : ℕ} {d : Document} (h : d.IsOutline depth) (m : ℕ) :
    IsPrinted (Json.write m d) := by
  have hbraces : isPrinted '\x7b' = true ∧ isPrinted '\x7d' = true := by decide
  induction h generalizing m with
  | text hword =>
      rw [Json.write]
      exact isPrinted_quoted hword
  | list =>
      rw [Json.write]
      exact isPrinted_of_all (by decide)
  | record hne hnodup hnames hfields ih =>
      rename_i fields
      have hwritten := isPrinted_writeFields hnames fun f hf => ih f hf (m + 1)
      obtain ⟨⟨name, value⟩, fields, rfl⟩ := List.exists_cons_of_ne_nil hne
      rw [Json.writeFields, List.cons_append, isPrinted_cons] at hwritten
      rw [Json.write, isPrinted_append, isPrinted_append, List.cons_append, isPrinted_cons]
      exact ⟨⟨⟨hbraces.1, hwritten.2⟩, isPrinted_newline m⟩,
        isPrinted_cons.2 ⟨hbraces.2, isPrinted_nil⟩⟩

/-! ### Documents -/

open Event.Parser (Part laterKinds streamKinds noPlain parses_block parses_flow
  length_events_le_block length_events_le_flow)
open Scanner (Begins EndsDocument Scans separator)

/-- A text that holds a document: what it is read as, in front of a separator or at the end. -/
structure Holds (text : List Char) (part : Part) (datum : Datum) : Prop where
  isPrinted : IsPrinted text
  begins : ∀ rest, Begins (text ++ rest)
  scans : ∀ {s : Scanner} {rest : List Char}, s.IsAt (text ++ rest) 0 0 (-1) [] true →
    EndsDocument rest → ∃ t : Scanner, t.IsAt rest 0 0 (-1) [] true ∧ Scans part.kinds s t
  builds : Node.Builds part.events Source.maxDepth datum

/-- A text that holds a document with this datum. -/
def Says (text : String) (datum : Datum) : Prop := ∃ part, Holds text.toList part datum

variable {fields : List (String × Document)}

/-- An outline in block form. -/
theorem says_render (h : (Document.record fields).IsOutline Source.maxDepth) :
    Says (Yaml.render (.record fields)) (Document.record fields).datum := by
  have hplain : ∀ text, (style text == .plain) = true → Scalar.isPlainText text = true :=
    fun text hstyle => (plainWord_of_style (eq_of_beq hstyle)).isPlainText
  refine ⟨⟨_, _, parses_block h, length_events_le_block h⟩, isPrinted_render h, ?_,
    fun hs hend => hs.scans_blockDocument h hend, Node.builds_outline hplain h⟩
  intro rest
  cases h with
  | record hne hnodup hnames hfields =>
      obtain ⟨⟨name, value⟩, fields, rfl⟩ := List.exists_cons_of_ne_nil hne
      have hname : IsName name := hnames _ List.mem_cons_self
      rw [Yaml.render, String.toList_ofList, itemLines, fieldLines, nameText_of_isName hname,
        List.append_assoc, List.append_assoc]
      exact Scanner.begins_name hname _

/-- An outline as JSON, with its last line ended. -/
theorem says_json (h : (Document.record fields).IsOutline Source.maxDepth) :
    Says (Json.render (.record fields) ++ "\n") (Document.record fields).datum := by
  have hline : "\n".toList = ['\n'] := by decide
  unfold Says
  rw [String.toList_append, hline]
  refine ⟨⟨_, _, parses_flow h true, length_events_le_flow h⟩, ?_, ?_, ?_,
    Node.builds_outline (fun _ hplain => absurd hplain Bool.false_ne_true) h⟩
  · have hwritten := isPrinted_write h 0
    have hbreak : isPrinted '\n' = true := by decide
    rw [Json.render, String.toList_ofList]
    simp [hwritten, hbreak, isPrinted_nil]
  · intro rest
    cases h with
    | record hne hnodup hnames hfields =>
        obtain ⟨⟨name, value⟩, fields, rfl⟩ := List.exists_cons_of_ne_nil hne
        rw [Json.render, String.toList_ofList, Json.write]
        exact Scanner.begins_cons (by decide) _
  · intro s rest hs hend
    rw [List.append_assoc] at hs
    exact hs.scans_flowDocument h hend

/-! ### Streams -/

/-- The text of the documents after the first. -/
def laterText (texts : List String) : List Char :=
  texts.flatMap fun text => separator ++ text.toList

theorem endsDocument_laterText (texts : List String) : EndsDocument (laterText texts) := by
  cases texts with
  | nil => exact .inl rfl
  | cons text rest => exact .inr ⟨text.toList ++ laterText rest, by simp [laterText]⟩

theorem intercalate_eq (text : String) (rest : List String) :
    ("---\n".intercalate (text :: rest)).toList = text.toList ++ laterText rest := by
  have hdashes : "---\n".toList = separator := by decide
  induction rest generalizing text with
  | nil => simp [laterText]
  | cons next rest ih =>
      rw [String.intercalate_cons_cons, String.toList_append, String.toList_append, ih, hdashes]
      simp [laterText]

variable {texts : List String} {data : List Datum}

/-- The documents of a stream, whose scan leads through them one by one. -/
theorem exists_parts (h : List.Forall₂ Says texts data) :
    ∃ parts : List Part, IsPrinted (laterText texts) ∧
      List.Forall₂ (fun part datum => Node.Builds part.events Source.maxDepth datum) parts data ∧
      ∀ s : Scanner, s.IsAt (laterText texts) 0 0 (-1) [] true →
        ∃ tokens : List Token, tokens.map (·.kind) = laterKinds parts ∧
          s.Yields (s.tokens.reverse ++ tokens) := by
  induction h with
  | nil =>
      refine ⟨[], isPrinted_nil, .nil, ?_⟩
      intro s hs
      obtain ⟨token, hkind, hyields⟩ := hs.yields_end
      exact ⟨[token], by rw [List.map_singleton, hkind]; rfl, hyields⟩
  | @cons text datum texts data hfirst _ ih =>
      obtain ⟨part, hholds⟩ := hfirst
      obtain ⟨parts, hprinted, hbuilds, hlater⟩ := ih
      -- Separator, document, and what follows: the scanner stands at the left edge in between.
      have hcons : laterText (text :: texts) = separator ++ (text.toList ++ laterText texts) := by
        simp [laterText]
      have hdashes : IsPrinted separator := isPrinted_of_all (by decide)
      refine ⟨part :: parts, ?_, .cons hholds.builds hbuilds, ?_⟩
      · rw [hcons]
        simp [hdashes, hholds.isPrinted, hprinted]
      intro s hs
      rw [hcons] at hs
      obtain ⟨t, ht, hst⟩ := hs.scans_separator (hholds.begins _)
      obtain ⟨u, hu, htu⟩ := hholds.scans ht (endsDocument_laterText texts)
      obtain ⟨tokens, hkinds, hyields⟩ := hlater u hu
      obtain ⟨hleads, before, hbefore, htokens⟩ := hst.trans htu
      refine ⟨before ++ tokens, ?_, ?_⟩
      · rw [List.map_append, hbefore, hkinds, laterKinds]
        rfl
      · have hsum : s.tokens.reverse ++ (before ++ tokens) = u.tokens.reverse ++ tokens := by
          rw [htokens, List.reverse_append, List.reverse_reverse, List.append_assoc]
        rw [hsum]
        exact hleads _ hyields

theorem isAt_start (text : List Char) : (Scanner.start text).IsAt text 0 0 (-1) [] true :=
  ⟨rfl, rfl, rfl, rfl, rfl, rfl, rfl, rfl⟩

/-- The scan of a whole stream. -/
theorem exists_scan (h : List.Forall₂ Says texts data) :
    ∃ parts : List Part, IsPrinted ("---\n".intercalate texts).toList ∧
      List.Forall₂ (fun part datum => Node.Builds part.events Source.maxDepth datum) parts data ∧
      ∃ tokens : List Token, tokens.map (·.kind) = streamKinds parts ∧
        Token.scan ("---\n".intercalate texts).toList = (tokens, none) := by
  cases h with
  | nil =>
      obtain ⟨token, hkind, hyields⟩ := (isAt_start []).yields_end
      exact ⟨[], isPrinted_nil, .nil, [token], by rw [List.map_singleton, hkind]; rfl,
        hyields _ le_rfl⟩
  | @cons text datum texts data hfirst hrest =>
      obtain ⟨part, hholds⟩ := hfirst
      obtain ⟨parts, hprinted, hbuilds, hlater⟩ := exists_parts hrest
      rw [intercalate_eq]
      refine ⟨part :: parts, isPrinted_append.2 ⟨hholds.isPrinted, hprinted⟩,
        .cons hholds.builds hbuilds, ?_⟩
      obtain ⟨t, ht, hleads, before, hbefore, htokens⟩ :=
        hholds.scans (isAt_start _) (endsDocument_laterText texts)
      obtain ⟨tokens, hkinds, hyields⟩ := hlater t ht
      refine ⟨before ++ tokens, by rw [List.map_append, hbefore, hkinds, streamKinds], ?_⟩
      have hreverse : t.tokens.reverse = before := by
        rw [htokens]
        show (before.reverse ++ []).reverse = before
        rw [List.append_nil, List.reverse_reverse]
      rw [hreverse] at hyields
      exact hleads _ hyields _ le_rfl

/-- A stream of documents has a source for each, with its datum. -/
theorem datum_ofText (h : List.Forall₂ Says texts data) :
    (Source.ofText ("---\n".intercalate texts)).map Source.datum = data.map .ok := by
  obtain ⟨parts, hprinted, hbuilds, tokens, hkinds, hscan⟩ := exists_scan h
  obtain ⟨placed, hplaced, hevents⟩ := Event.Parser.ofTokens_stream hkinds
  unfold Source.ofText
  rw [controlAt?_of_isPrinted hprinted, evenBreaks_of_isPrinted hprinted]
  dsimp only
  rw [hscan]
  dsimp only
  rw [hevents]
  exact Node.datum_stream hbuilds hplaced

end ControlPlane.Yaml
