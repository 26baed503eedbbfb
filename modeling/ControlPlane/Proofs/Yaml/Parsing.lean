import ControlPlane.Proofs.Yaml.BlockText
import ControlPlane.Proofs.Yaml.FlowText

/-! # Events of outlines

The parser makes the same events of an outline in either form, save that a word without quotes is
marked as such.  `Parses` says this of the tokens of a value, whatever comes after it; records are
parsed field by field.  A stream of documents follows document by document (`yields_stream`). -/

namespace ControlPlane

open Yaml

namespace Document

mutual

/-- The events of an outline; some of its words are without quotes. -/
def events (isPlain : String → Bool) : Document → List Yaml.Event
  | .text value => [.scalar none none value (isPlain value)]
  | .list _ => [.sequenceStart none none, .sequenceEnd]
  | .record fields => .mappingStart none none :: (fieldEvents isPlain fields ++ [.mappingEnd])
  | .null | .bool _ | .int _ => []

def fieldEvents (isPlain : String → Bool) : List (String × Document) → List Yaml.Event
  | [] => []
  | (name, value) :: rest =>
    .scalar none none name (isPlain name) :: (value.events isPlain ++ fieldEvents isPlain rest)

end

end Document

namespace Yaml.Event.Parser

open Document (blockKinds blockFieldKinds flowKinds moreFlowKinds fieldEvents)

/-! ### Runs -/

/-- The parser goes on to these events, as soon as there is a step for each and one more. -/
def Yields (p : Parser) (events : List Event) : Prop :=
  ∃ placed : List (Event × Place), placed.map (·.1) = events ∧
    ∀ fuel, events.length + 1 ≤ fuel → p.run fuel = (placed, none)

/-- A step after which the parser goes on, to these events with that of the step. -/
def StepYields (step : Result) (events : List Event) : Prop :=
  ∃ event place q more, step = .ok (event, place, q) ∧ q.state ≠ .done ∧ q.Yields more ∧
    events = event :: more

theorem stepYields_emit {event : Event} {place : Place} {q : Parser} {events : List Event}
    (hstate : q.state ≠ .done) (h : q.Yields events) :
    StepYields (emit event place q) (event :: events) :=
  ⟨event, place, q, events, rfl, hstate, h, rfl⟩

theorem yields_of_step {p : Parser} {events : List Event} (h : StepYields p.step events) :
    p.Yields events := by
  obtain ⟨event, place, q, more, hstep, hstate, ⟨placed, hmap, hrun⟩, rfl⟩ := h
  refine ⟨(event, place) :: placed, by rw [List.map_cons, hmap], ?_⟩
  intro fuel hfuel
  obtain ⟨fuel, rfl⟩ : ∃ f, fuel = f + 1 := ⟨fuel - 1, by omega⟩
  have hmore := hrun fuel (by rw [List.length_cons] at hfuel; omega)
  rw [run, hstep]
  dsimp only
  split
  · exact absurd ‹q.state = .done› hstate
  · rw [hmore]

/-- The last step of a stream is not an event. -/
theorem yields_of_done {p : Parser} {event : Event} {place : Place} {q : Parser}
    (hstep : p.step = .ok (event, place, q)) (hstate : q.state = .done) : p.Yields [] := by
  refine ⟨[], rfl, ?_⟩
  intro fuel hfuel
  obtain ⟨fuel, rfl⟩ : ∃ f, fuel = f + 1 := ⟨fuel - 1, by omega⟩
  rw [run, hstep]
  dsimp only
  rw [hstate]

/-! ### Nodes -/

/-- Tokens that a node may begin with. -/
def startsNode : TokenKind → Bool
  | .scalar _ _ | .flowSequence | .flowMapping | .blockMapping => true
  | _ => false

/-- Tokens of these kinds are parsed as a value with these events, and the parser goes on from the
state that waited. -/
structure Parses (inBlock : Bool) (kinds : List TokenKind) (events : List Event) : Prop where
  starts : ∃ kind more, kinds = kind :: more ∧ startsNode kind = true
  node : ∀ {tokens rest : List Token} {fault : Option Fault} (current state : State)
    {stack : List State} {handles : List (String × String)} {later : List Event} (isFlush : Bool),
    tokens.map (·.kind) = kinds → state ≠ .done →
    Yields ⟨rest, fault, state, stack, handles⟩ later →
    StepYields (Parser.node ⟨tokens ++ rest, fault, current, state :: stack, handles⟩ inBlock
      isFlush) (events ++ later)

/-- The tokens of some kinds, one by one. -/
theorem exists_of_map_kind {tokens : List Token} {kind : TokenKind} {kinds : List TokenKind}
    (h : tokens.map (·.kind) = kind :: kinds) :
    ∃ place more, tokens = ⟨kind, place⟩ :: more ∧ more.map (·.kind) = kinds := by
  obtain ⟨⟨kind', place⟩, more, rfl, hkind, hmore⟩ := List.map_eq_cons_iff.1 h
  obtain rfl : kind' = kind := hkind
  exact ⟨place, more, rfl, hmore⟩

/-- The tokens of some kinds, in two parts. -/
theorem exists_of_map_kind_append {tokens : List Token} {first second : List TokenKind}
    (h : tokens.map (·.kind) = first ++ second) :
    ∃ before behind, tokens = before ++ behind ∧ before.map (·.kind) = first ∧
      behind.map (·.kind) = second := by
  obtain ⟨before, behind, htokens, hbefore, hbehind⟩ := List.map_eq_append_iff.1 h
  exact ⟨before, behind, htokens, hbefore, hbehind⟩

theorem parses_scalar (inBlock : Bool) (text : String) (isPlain : Bool) :
    Parses inBlock [.scalar text isPlain] [.scalar none none text isPlain] := by
  refine ⟨⟨_, _, rfl, rfl⟩, ?_⟩
  intro tokens rest fault current state stack handles later isFlush hkinds hstate hlater
  obtain ⟨place, more, rfl, hmore⟩ := exists_of_map_kind hkinds
  obtain rfl := List.map_eq_nil_iff.1 hmore
  exact stepYields_emit hstate hlater

theorem parses_brackets (inBlock : Bool) :
    Parses inBlock [.flowSequence, .flowSequenceEnd]
      [.sequenceStart none none, .sequenceEnd] := by
  refine ⟨⟨_, _, rfl, rfl⟩, ?_⟩
  intro tokens rest fault current state stack handles later isFlush hkinds hstate hlater
  obtain ⟨place, more, rfl, hmore⟩ := exists_of_map_kind hkinds
  obtain ⟨place', more, rfl, hnil⟩ := exists_of_map_kind hmore
  obtain rfl := List.map_eq_nil_iff.1 hnil
  have hend : StepYields (step ⟨⟨.flowSequenceEnd, place'⟩ :: rest, fault,
      .flowItem place true, state :: stack, handles⟩) (.sequenceEnd :: later) :=
    stepYields_emit hstate hlater
  exact stepYields_emit (by rintro ⟨⟩) (yields_of_step hend)

/-! ### Records in block form -/

/-- The fields of a block, with its end. -/
theorem yields_blockFields {isPlain : String → Bool} {fields : List (String × Document)}
    {tokens rest : List Token} {fault : Option Fault} {began : Place} {state : State}
    {stack : List State} {handles : List (String × String)} {later : List Event}
    (hplain : ∀ f ∈ fields, isPlain f.1 = true)
    (hfields : ∀ f ∈ fields, Parses true f.2.blockKinds (f.2.events isPlain))
    (hkinds : tokens.map (·.kind) = blockFieldKinds fields ++ [.blockEnd]) (hstate : state ≠ .done)
    (hlater : Yields ⟨rest, fault, state, stack, handles⟩ later) :
    Yields ⟨tokens ++ rest, fault, .blockKey began, state :: stack, handles⟩
      (fieldEvents isPlain fields ++ .mappingEnd :: later) := by
  induction fields generalizing tokens with
  | nil =>
      obtain ⟨place, more, rfl, hnil⟩ := exists_of_map_kind hkinds
      obtain rfl := List.map_eq_nil_iff.1 hnil
      exact yields_of_step (stepYields_emit hstate hlater)
  | cons f fields ih =>
      obtain ⟨name, value⟩ := f
      obtain ⟨⟨kind, more', hstart, hstarts⟩, hvalue⟩ := hfields _ List.mem_cons_self
      rw [blockFieldKinds] at hkinds
      obtain ⟨key, afterKey, rfl, hafterKey⟩ := exists_of_map_kind hkinds
      obtain ⟨scalar, afterName, rfl, hafterName⟩ := exists_of_map_kind hafterKey
      obtain ⟨colon, afterColon, rfl, hafterColon⟩ := exists_of_map_kind hafterName
      have hparts : afterColon.map (·.kind)
          = value.blockKinds ++ (blockFieldKinds fields ++ [.blockEnd]) := by
        rw [hafterColon, ← List.append_assoc]
        rfl
      obtain ⟨before, behind, rfl, hbefore, hbehind⟩ := exists_of_map_kind_append hparts
      have hnext := ih (fun f hf => hplain f (List.mem_cons_of_mem _ hf))
        (fun f hf => hfields f (List.mem_cons_of_mem _ hf)) hbehind
      have hafter := hvalue (.blockValue began) (.blockKey began) true hbefore (by rintro ⟨⟩) hnext
      -- The parser looks at the token after the colon: a value does not begin with a key or an end.
      have hcolon : StepYields (step ⟨⟨.value, colon⟩ :: (before ++ (behind ++ rest)), fault,
          .blockValue began, state :: stack, handles⟩)
          (value.events isPlain ++ (fieldEvents isPlain fields ++ .mappingEnd :: later)) := by
        obtain ⟨place, tail, rfl, -⟩ := exists_of_map_kind (hbefore.trans hstart)
        cases kind <;> first | exact hafter | cases hstarts
      have hname : isPlain name = true := hplain _ List.mem_cons_self
      have hkey : StepYields (step ⟨⟨.key, key⟩ :: ⟨.scalar name true, scalar⟩ :: ⟨.value, colon⟩
          :: (before ++ (behind ++ rest)), fault, .blockKey began, state :: stack, handles⟩)
          (.scalar none none name true
            :: (value.events isPlain ++ (fieldEvents isPlain fields ++ .mappingEnd :: later))) :=
        stepYields_emit (by rintro ⟨⟩) (yields_of_step hcolon)
      rw [fieldEvents, hname]
      simpa using yields_of_step hkey

theorem parses_block {depth : ℕ} {d : Document} (h : d.IsOutline depth) :
    Parses true d.blockKinds (d.events fun text => style text == .plain) := by
  induction h with
  | text hword =>
      rw [blockKinds, Document.events]
      exact parses_scalar true _ _
  | list =>
      rw [blockKinds, Document.events]
      exact parses_brackets true
  | @record depth fields hne hnodup hnames hfields ih =>
      rw [blockKinds, Document.events]
      refine ⟨⟨_, _, rfl, rfl⟩, ?_⟩
      intro tokens rest fault current state stack handles later isFlush hkinds hstate hlater
      obtain ⟨place, more, rfl, hmore⟩ := exists_of_map_kind hkinds
      have hfields' : Yields ⟨more ++ rest, fault, .blockKey place, state :: stack, handles⟩
          (fieldEvents (fun text => style text == .plain) fields ++ .mappingEnd :: later) :=
        yields_blockFields (fun f hf => by simp [(hnames f hf).style_eq]) ih hmore hstate hlater
      have hstart : StepYields (Parser.node ⟨⟨.blockMapping, place⟩ :: (more ++ rest), fault,
          current, state :: stack, handles⟩ true isFlush)
          (.mappingStart none none :: (fieldEvents (fun text => style text == .plain) fields
            ++ .mappingEnd :: later)) := by
        cases isFlush <;> exact stepYields_emit (by rintro ⟨⟩) hfields'
      simpa using hstart

/-! ### Records as JSON -/

/-- The events of an outline without a plain word. -/
def noPlain (_ : String) : Bool := false

/-- The value of a field between braces, after its colon. -/
theorem yields_flowValue {kinds : List TokenKind} {events later : List Event}
    {before rest : List Token} {fault : Option Fault} {began : Place} (colon : Place)
    {stack : List State} {handles : List (String × String)} (hvalue : Parses false kinds events)
    (hbefore : before.map (·.kind) = kinds)
    (hlater : Yields ⟨rest, fault, .flowKey began false, stack, handles⟩ later) :
    Yields ⟨⟨.value, colon⟩ :: (before ++ rest), fault, .flowValue began, stack, handles⟩
      (events ++ later) := by
  obtain ⟨⟨kind, more, hstart, hstarts⟩, hnode⟩ := hvalue
  have hafter := hnode (.flowValue began) (.flowKey began false) false hbefore (by rintro ⟨⟩) hlater
  refine yields_of_step ?_
  obtain ⟨place, tail, rfl, -⟩ := exists_of_map_kind (hbefore.trans hstart)
  cases kind <;> first | exact hafter | cases hstarts

/-- The fields between braces after the first, with the closing brace. -/
theorem yields_moreFields {fields : List (String × Document)} {tokens rest : List Token}
    {fault : Option Fault} (began : Place) {state : State} {stack : List State}
    {handles : List (String × String)} {later : List Event}
    (hfields : ∀ f ∈ fields, Parses false f.2.flowKinds (f.2.events noPlain))
    (hkinds : tokens.map (·.kind) = moreFlowKinds fields ++ [.flowMappingEnd])
    (hstate : state ≠ .done) (hlater : Yields ⟨rest, fault, state, stack, handles⟩ later) :
    Yields ⟨tokens ++ rest, fault, .flowKey began false, state :: stack, handles⟩
      (fieldEvents noPlain fields ++ .mappingEnd :: later) := by
  induction fields generalizing tokens with
  | nil =>
      obtain ⟨place, more, rfl, hnil⟩ := exists_of_map_kind hkinds
      obtain rfl := List.map_eq_nil_iff.1 hnil
      exact yields_of_step (stepYields_emit hstate hlater)
  | cons f fields ih =>
      obtain ⟨name, value⟩ := f
      rw [moreFlowKinds] at hkinds
      obtain ⟨comma, afterComma, rfl, hafterComma⟩ := exists_of_map_kind hkinds
      obtain ⟨key, afterKey, rfl, hafterKey⟩ := exists_of_map_kind hafterComma
      obtain ⟨scalar, afterName, rfl, hafterName⟩ := exists_of_map_kind hafterKey
      obtain ⟨colon, afterColon, rfl, hafterColon⟩ := exists_of_map_kind hafterName
      have hparts : afterColon.map (·.kind)
          = value.flowKinds ++ (moreFlowKinds fields ++ [.flowMappingEnd]) := by
        rw [hafterColon, ← List.append_assoc]
        rfl
      obtain ⟨before, behind, rfl, hbefore, hbehind⟩ := exists_of_map_kind_append hparts
      have hnext := ih (fun f hf => hfields f (List.mem_cons_of_mem _ hf)) hbehind
      have hvalue := yields_flowValue colon (hfields _ List.mem_cons_self) hbefore hnext
      have hkey : StepYields (step ⟨⟨.flowEntry, comma⟩ :: ⟨.key, key⟩
          :: ⟨.scalar name false, scalar⟩ :: ⟨.value, colon⟩ :: (before ++ (behind ++ rest)), fault,
          .flowKey began false, state :: stack, handles⟩)
          (.scalar none none name false :: (value.events noPlain
            ++ (fieldEvents noPlain fields ++ .mappingEnd :: later))) :=
        stepYields_emit (by rintro ⟨⟩) hvalue
      rw [fieldEvents]
      simpa [noPlain] using yields_of_step hkey

theorem parses_flow {depth : ℕ} {d : Document} (h : d.IsOutline depth) (inBlock : Bool) :
    Parses inBlock d.flowKinds (d.events noPlain) := by
  induction h generalizing inBlock with
  | text hword =>
      rw [flowKinds, Document.events]
      exact parses_scalar inBlock _ _
  | list =>
      rw [flowKinds, Document.events]
      exact parses_brackets inBlock
  | @record depth fields hne hnodup hnames hfields ih =>
      obtain ⟨⟨name, value⟩, fields, rfl⟩ := List.exists_cons_of_ne_nil hne
      rw [flowKinds, Document.events]
      refine ⟨⟨_, _, rfl, rfl⟩, ?_⟩
      intro tokens rest fault current state stack handles later isFlush hkinds hstate hlater
      obtain ⟨brace, afterBrace, rfl, hafterBrace⟩ := exists_of_map_kind hkinds
      obtain ⟨key, afterKey, rfl, hafterKey⟩ := exists_of_map_kind hafterBrace
      obtain ⟨scalar, afterName, rfl, hafterName⟩ := exists_of_map_kind hafterKey
      obtain ⟨colon, afterColon, rfl, hafterColon⟩ := exists_of_map_kind hafterName
      rw [List.append_assoc] at hafterColon
      obtain ⟨before, behind, rfl, hbefore, hbehind⟩ := exists_of_map_kind_append hafterColon
      have hmore := yields_moreFields brace
        (fun f hf => ih f (List.mem_cons_of_mem _ hf) false) hbehind hstate hlater
      have hvalue := yields_flowValue colon (ih _ List.mem_cons_self false) hbefore hmore
      have hkey : StepYields (step ⟨⟨.key, key⟩ :: ⟨.scalar name false, scalar⟩
          :: ⟨.value, colon⟩ :: (before ++ (behind ++ rest)), fault, .flowKey brace true,
          state :: stack, handles⟩)
          (.scalar none none name false :: (value.events noPlain
            ++ (fieldEvents noPlain fields ++ .mappingEnd :: later))) :=
        stepYields_emit (by rintro ⟨⟩) hvalue
      have hstart : StepYields (Parser.node ⟨⟨.flowMapping, brace⟩ :: ⟨.key, key⟩
          :: ⟨.scalar name false, scalar⟩ :: ⟨.value, colon⟩ :: (before ++ (behind ++ rest)), fault,
          current, state :: stack, handles⟩ inBlock isFlush)
          (.mappingStart none none :: .scalar none none name false :: (value.events noPlain
            ++ (fieldEvents noPlain fields ++ .mappingEnd :: later))) :=
        stepYields_emit (by rintro ⟨⟩) (yields_of_step hkey)
      rw [fieldEvents]
      simpa [noPlain] using hstart

/-! ### The number of events -/

theorem length_fieldEvents_le_block {isPlain : String → Bool} {fields : List (String × Document)}
    (h : ∀ f ∈ fields, (f.2.events isPlain).length ≤ f.2.blockKinds.length) :
    (fieldEvents isPlain fields).length ≤ (blockFieldKinds fields).length := by
  induction fields with
  | nil => exact le_rfl
  | cons f fields ih =>
      have hvalue := h f List.mem_cons_self
      have hrest := ih fun g hg => h g (List.mem_cons_of_mem f hg)
      rw [fieldEvents, blockFieldKinds]
      simp only [List.length_cons, List.length_append]
      omega

theorem length_events_le_block {isPlain : String → Bool} {depth : ℕ} {d : Document}
    (h : d.IsOutline depth) : (d.events isPlain).length ≤ d.blockKinds.length := by
  induction h with
  | text hword => simp [Document.events, blockKinds]
  | list => simp [Document.events, blockKinds]
  | record hne hnodup hnames hfields ih =>
      have hrest := length_fieldEvents_le_block ih
      rw [Document.events, blockKinds]
      simp only [List.length_cons, List.length_append, List.cons_append]
      omega

theorem length_fieldEvents_le_flow {fields : List (String × Document)}
    (h : ∀ f ∈ fields, (f.2.events noPlain).length ≤ f.2.flowKinds.length) :
    (fieldEvents noPlain fields).length ≤ (moreFlowKinds fields).length := by
  induction fields with
  | nil => exact le_rfl
  | cons f fields ih =>
      have hvalue := h f List.mem_cons_self
      have hrest := ih fun g hg => h g (List.mem_cons_of_mem f hg)
      rw [fieldEvents, moreFlowKinds]
      simp only [List.length_cons, List.length_append]
      omega

theorem length_events_le_flow {depth : ℕ} {d : Document} (h : d.IsOutline depth) :
    (d.events noPlain).length ≤ d.flowKinds.length := by
  induction h with
  | text hword => simp [Document.events, flowKinds]
  | list => simp [Document.events, flowKinds]
  | @record depth fields hne hnodup hnames hfields ih =>
      obtain ⟨f, fields, rfl⟩ := List.exists_cons_of_ne_nil hne
      have hvalue := ih f List.mem_cons_self
      have hrest := length_fieldEvents_le_flow fun g hg => ih g (List.mem_cons_of_mem f hg)
      rw [Document.events, flowKinds, fieldEvents]
      simp only [List.length_cons, List.length_append, List.length_nil]
      omega

/-! ### Streams -/

/-- A document of a stream: its tokens, and the events that the parser makes of them. -/
structure Part where
  kinds : List TokenKind
  events : List Event
  parses : Parses true kinds events
  length_le : events.length ≤ kinds.length

/-- The tokens of the documents after the first, each after a separator, and the end. -/
def laterKinds : List Part → List TokenKind
  | [] => [.streamEnd]
  | part :: rest => .documentStart :: (part.kinds ++ laterKinds rest)

/-- The tokens of a stream. -/
def streamKinds : List Part → List TokenKind
  | [] => [.streamEnd]
  | part :: rest => part.kinds ++ laterKinds rest

def streamEvents (parts : List Part) : List Event :=
  parts.flatMap fun part => .documentStart :: (part.events ++ [.documentEnd])

theorem streamEvents_cons (part : Part) (rest : List Part) :
    streamEvents (part :: rest)
      = .documentStart :: (part.events ++ .documentEnd :: streamEvents rest) := by
  simp [streamEvents]

/-- The end of a document whose successor, if any, has a separator. -/
theorem yields_documentEnd {parts : List Part} {tokens : List Token} {fault : Option Fault}
    {stack : List State} {handles : List (String × String)} {later : List Event}
    (hkinds : tokens.map (·.kind) = laterKinds parts)
    (hlater : Yields ⟨tokens, fault, .documentStart false, stack, handles⟩ later) :
    Yields ⟨tokens, fault, .documentEnd, stack, handles⟩ (.documentEnd :: later) := by
  apply yields_of_step
  cases parts with
  | nil =>
      obtain ⟨place, more, rfl, -⟩ := exists_of_map_kind hkinds
      exact stepYields_emit (by rintro ⟨⟩) hlater
  | cons part rest =>
      obtain ⟨place, more, rfl, -⟩ := exists_of_map_kind hkinds
      exact stepYields_emit (by rintro ⟨⟩) hlater

theorem yields_later {parts : List Part} {tokens : List Token} {fault : Option Fault}
    {stack : List State} {handles : List (String × String)}
    (hkinds : tokens.map (·.kind) = laterKinds parts) :
    Yields ⟨tokens, fault, .documentStart false, stack, handles⟩ (streamEvents parts) := by
  induction parts generalizing tokens handles with
  | nil =>
      obtain ⟨place, more, rfl, -⟩ := exists_of_map_kind hkinds
      exact yields_of_done rfl rfl
  | cons part rest ih =>
      obtain ⟨marker, afterMarker, rfl, hafterMarker⟩ := exists_of_map_kind hkinds
      obtain ⟨before, behind, rfl, hbefore, hbehind⟩ := exists_of_map_kind_append hafterMarker
      have hend : Yields ⟨behind, fault, .documentEnd, stack, defaultHandles⟩
          (.documentEnd :: streamEvents rest) := yields_documentEnd hbehind (ih hbehind)
      have hnode := part.parses.node .documentContent .documentEnd false hbefore (by rintro ⟨⟩) hend
      have hcontent : StepYields (step ⟨before ++ behind, fault, .documentContent,
          .documentEnd :: stack, defaultHandles⟩)
          (part.events ++ .documentEnd :: streamEvents rest) := by
        obtain ⟨kind, more, hstart, hstarts⟩ := part.parses.starts
        obtain ⟨place, tail, rfl, -⟩ := exists_of_map_kind (hbefore.trans hstart)
        cases kind <;> first | exact hnode | cases hstarts
      have hmarker : StepYields (step ⟨⟨.documentStart, marker⟩ :: (before ++ behind), fault,
          .documentStart false, stack, handles⟩)
          (.documentStart :: (part.events ++ .documentEnd :: streamEvents rest)) :=
        stepYields_emit (by rintro ⟨⟩) (yields_of_step hcontent)
      rw [streamEvents_cons]
      exact yields_of_step hmarker

theorem yields_stream {parts : List Part} {tokens : List Token} {fault : Option Fault}
    (hkinds : tokens.map (·.kind) = streamKinds parts) :
    Yields ⟨tokens, fault, .documentStart true, [], []⟩ (streamEvents parts) := by
  cases parts with
  | nil =>
      obtain ⟨place, more, rfl, -⟩ := exists_of_map_kind hkinds
      exact yields_of_done rfl rfl
  | cons part rest =>
      -- The first document has no separator: its first token makes the parser start it.
      obtain ⟨before, behind, rfl, hbefore, hbehind⟩ := exists_of_map_kind_append hkinds
      have hend : Yields ⟨behind, fault, .documentEnd, [], defaultHandles⟩
          (.documentEnd :: streamEvents rest) :=
        yields_documentEnd hbehind (yields_later hbehind)
      have hnode := part.parses.node .blockNode .documentEnd false hbefore (by rintro ⟨⟩) hend
      have hfirst : StepYields (step ⟨before ++ behind, fault, .documentStart true, [], []⟩)
          (.documentStart :: (part.events ++ .documentEnd :: streamEvents rest)) := by
        obtain ⟨kind, more, hstart, hstarts⟩ := part.parses.starts
        obtain ⟨place, tail, rfl, -⟩ := exists_of_map_kind (hbefore.trans hstart)
        have hcontent := yields_of_step (p := ⟨⟨kind, place⟩ :: (tail ++ behind), fault, .blockNode,
          [.documentEnd], defaultHandles⟩) hnode
        cases kind <;> first | exact stepYields_emit (by rintro ⟨⟩) hcontent | cases hstarts
      rw [streamEvents_cons]
      exact yields_of_step hfirst

theorem length_streamEvents_le (parts : List Part) :
    (streamEvents parts).length ≤ 4 * (laterKinds parts).length := by
  induction parts with
  | nil => exact Nat.zero_le _
  | cons part rest ih =>
      obtain ⟨kind, more, hkinds, -⟩ := part.parses.starts
      have hpart := part.length_le
      have hpos : 0 < part.kinds.length := by simp [hkinds]
      have hevents : (streamEvents (part :: rest)).length
          = part.events.length + 2 + (streamEvents rest).length := by
        rw [streamEvents_cons]
        simp only [List.length_cons, List.length_append]
        omega
      have hlater : (laterKinds (part :: rest)).length
          = 1 + part.kinds.length + (laterKinds rest).length := by
        rw [laterKinds, List.length_cons, List.length_append]
        omega
      omega

/-- The events of a stream of outlines. -/
theorem ofTokens_stream {parts : List Part} {tokens : List Token}
    (hkinds : tokens.map (·.kind) = streamKinds parts) :
    ∃ placed : List (Event × Place), placed.map (·.1) = streamEvents parts ∧
      ofTokens tokens none = (placed, none) := by
  obtain ⟨placed, hmap, hrun⟩ : Yields ⟨tokens, none, .documentStart true, [], []⟩
    (streamEvents parts) := yields_stream hkinds
  refine ⟨placed, hmap, hrun _ ?_⟩
  have hlength : (laterKinds parts).length ≤ tokens.length + 1 := by
    have htokens : tokens.length = (streamKinds parts).length := by
      rw [← hkinds, List.length_map]
    cases parts with
    | nil => exact Nat.le_add_left _ _
    | cons part rest =>
        rw [htokens, streamKinds, laterKinds, List.length_cons]
  have := length_streamEvents_le parts
  unfold perToken
  omega

end Yaml.Event.Parser

end ControlPlane
